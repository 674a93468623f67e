import KnxVault.Auth.Separation
import KnxVault.Auth.Token
import KnxVault.Engine.KeyValue

/-!
# Key-value requests

The routes under `/secrets/kv` of `internal/api/router.go`: the tenant, label
and access middleware, the handlers of `internal/api/handlers/secrets.go` and the
path scoping of `internal/service/secrets.go`. The middleware reads the path of
the URL as it stands, the handlers clean it and the service puts the tenant in
front, so the path that is checked need not be the one that is used.
-/

namespace KnxVault.Api

open KnxVault.Std KnxVault.Domain KnxVault.Crypto KnxVault.Repository KnxVault.Engine KnxVault.Auth

/-! ### Requests -/

inductive Method where
  | get
  | post
  | delete
deriving DecidableEq, Repr

structure KVWriteRequest where
  data : Fields
  options : PutOptions := {}

/-- What the authentication middleware takes from a request besides the token. -/
structure Headers where
  «namespace» : String := ""
  cluster : String := ""
  clientIP : String := ""
  environment : String := ""
  requestID : String := ""
deriving DecidableEq, Repr

structure KVRequest where
  method : Method
  /-- The wildcard of the route, with its slash in front. -/
  path : String
  /-- The query parameters, empty if they are not given. -/
  list : String := ""
  pathPrefix : String := ""
  version : String := ""
  /-- The decoded body, or why it was refused. -/
  body : Except GoError KVWriteRequest := .error { text := "EOF" }
  headers : Headers := {}

def KVRequest.rawPath (request : KVRequest) : String :=
  trimPrefix request.path "/"

/-! ### Tenants -/

namespace Tenant

def scopePath (tenant path : String) (enabled : Bool) : String :=
  let path := trimPrefix path "/"
  if !enabled || tenant = "" then path
  else if hasPrefix path (tenant ++ "/") then path
  else tenant ++ "/" ++ path

def validateAccess (tenant path : String) (enabled : Bool) : Bool :=
  if !enabled || tenant = "" then true
  else
    let path := trimPrefix path "/"
    hasPrefix path (tenant ++ "/") || path = tenant

end Tenant

/-! ### Handlers -/

/-- A call of the secrets service. -/
inductive KVCall where
  | put (path : String) (data : Fields) (opts : PutOptions)
  | listPaths (path : String)
  | getMetadata (path : String) (version : Int)
  | listVersions (path : String)
  /-- Version zero stands for the latest. -/
  | getVersion (path : String) (version : Int)
  | destroyVersion (path : String) (version : Int)
  | delete (path : String)

namespace KVCall

def path : KVCall → String
  | put path _ _ | listPaths path | getMetadata path _ | listVersions path | getVersion path _
  | destroyVersion path _ | delete path => path

/-- The same call on another path. -/
def withPath (path : String) : KVCall → KVCall
  | put _ data opts => put path data opts
  | listPaths _ => listPaths path
  | getMetadata _ version => getMetadata path version
  | listVersions _ => listVersions path
  | getVersion _ version => getVersion path version
  | destroyVersion _ version => destroyVersion path version
  | delete _ => delete path

/-- What one must be allowed to do for the call. -/
def capability : KVCall → String
  | put .. => "write"
  | listPaths _ | getMetadata .. | listVersions _ => "list"
  | getVersion .. => "read"
  | destroyVersion .. | delete _ => "delete"

end KVCall

def cleanSecretPath (raw : String) : Except GoError String :=
  let raw := trimPrefix (trimSpace raw) "/"
  if raw = "" then refuse .validation "path is required"
  else if containsText raw ".." then refuse .validation "path must not contain .."
  else
    let cleaned := trimPrefix (cleanRooted raw) "/"
    if cleaned = "" ∨ cleaned = "." then refuse .validation "invalid path" else .ok cleaned

namespace KVRequest

def secretPath (request : KVRequest) : Except GoError String :=
  cleanSecretPath request.rawPath

def queryVersion (request : KVRequest) : Except GoError Int :=
  if request.version = "" then .ok 0
  else match atoi request.version with
    | .error _ => refuse .validation "invalid version query parameter"
    | .ok version =>
      if version < 0 then refuse .validation "version must be >= 0" else .ok version

def write (request : KVRequest) : Except GoError KVCall := do
  let path ← request.secretPath
  let body ← request.body
  pure (.put path body.data body.options)

def read (request : KVRequest) : Except GoError KVCall := do
  let path ← request.secretPath
  if request.list = "true" then
    if request.pathPrefix = "" then pure (.listPaths path)
    else
      let cleaned ← cleanSecretPath request.pathPrefix
      pure (.listPaths cleaned)
  else if hasSuffix path "/metadata" then
    let version ← request.queryVersion
    pure (.getMetadata (trimSuffix path "/metadata") version)
  else if hasSuffix path "/versions" then pure (.listVersions (trimSuffix path "/versions"))
  else
    let version ← request.queryVersion
    pure (.getVersion path version)

def delete (request : KVRequest) : Except GoError KVCall := do
  let path ← request.secretPath
  if request.version = "" then pure (.delete path)
  else match atoi request.version with
    | .error err => .error { text := err }
    | .ok version =>
      if version < 1 then refuse .validation "version must be >= 1"
      else pure (.destroyVersion path version)

/-- The service call that the handler of the method makes. -/
def call (request : KVRequest) : Except GoError KVCall :=
  match request.method with
  | .get => request.read
  | .post => request.write
  | .delete => request.delete

end KVRequest

/-! ### The service and the engine -/

/-- The secrets service with its engine. -/
structure KVServer where
  lib : Library
  aead : Aead
  service : Service
  parseTTL : String → Except String Int
  unmarshal : Bytes → Except String Fields
  env : Env
  random : SealRandom
  tenantMode : Bool
  secrets : SecretRepository

namespace KVServer

variable (server : KVServer)

/-- `scopePath` of the secrets service. -/
def scopePath (tenant path : String) : Except GoError String :=
  if !server.tenantMode then .ok path
  else if tenant = "" then refuse .validation "tenant namespace required"
  else
    let stored := Tenant.scopePath tenant path true
    if Tenant.validateAccess tenant stored true then .ok stored
    else refuse .notFound "secret not found"

/-- What the handlers answer with. -/
inductive Answer where
  | written (version : Int)
  | paths (paths : List String)
  | metadata (entry : PathMetadata)
  | versions (versions : List VersionMetadata)
  | secret (result : GetResult)
  | done

/-- Run a call on its stored path. -/
def serve : KVCall → Except GoError (Answer × SecretRepository)
  | .put path data opts => do
    let write ← KVV2Engine.put server.lib server.aead server.service server.env server.random
      server.parseTTL path data opts
    let (later, version) ← (server.secrets.putAtomic server.env.range write.secret
      write.casVersion write.maxVersions).mapError KNXVaultError.asGoError
    pure (.written version, later)
  | .listPaths path => do
    let paths ← KVV2Engine.listPaths server.lib server.env.range server.secrets path
    pure (.paths paths, server.secrets)
  | .getMetadata path version => do
    let entry ← KVV2Engine.getMetadata server.lib server.env.range server.secrets path version
    pure (.metadata entry, server.secrets)
  | .listVersions path => do
    let versions ← KVV2Engine.listVersions server.lib server.env.range server.secrets path
    pure (.versions versions, server.secrets)
  | .getVersion path version => do
    let result ← KVV2Engine.getVersion server.lib server.env.range server.aead server.service
      server.unmarshal server.env.now server.secrets path version
    pure (.secret result, server.secrets)
  | .destroyVersion path version => do
    let later ← KVV2Engine.destroyVersion server.lib server.secrets path version
    pure (.done, later)
  | .delete path => do
    let later ← KVV2Engine.delete server.lib server.env.range server.secrets path
    pure (.done, later)

/-- What the engine checks before it turns to the repository. -/
def permit : KVCall → Except GoError Unit
  | .put path data opts => do
    let _ ← KVV2Engine.put server.lib server.aead server.service server.env server.random
      server.parseTTL path data opts
    pure ()
  | .destroyVersion path version =>
    if path = "" ∨ version < 1 then refuse .validation "path and version are required"
    else rejectReservedKVPath server.lib path
  | .listPaths path | .getMetadata path _ | .listVersions path | .getVersion path _
  | .delete path => rejectReservedKVPath server.lib path

/-- The call that reaches the stored secrets, with the path under which they are
stored. -/
def touches (tenant : String) (request : KVRequest) : Except GoError KVCall := do
  let call ← request.call
  let path ← server.scopePath tenant call.path
  server.permit (call.withPath path)
  pure (call.withPath path)

def labelsForPath (tenant path : String) : Except GoError StringMap := do
  let stored ← server.scopePath tenant path
  let entry ← KVV2Engine.getMetadata server.lib server.env.range server.secrets stored 0
  pure entry.labels

/-- The context with the labels of a path, if it has some. -/
def withLabels (tenant path : String) (context : RequestContext) : RequestContext :=
  match server.labelsForPath tenant path with
  | .error _ => context
  | .ok labels => if labels.isEmpty then context else { context with resourceLabels := labels }

end KVServer

/-! ### Middleware -/

namespace KVRequest

variable (request : KVRequest)

def kvCapability : String :=
  if request.list = "true" then "list"
  else if hasSuffix request.rawPath "/metadata" || hasSuffix request.rawPath "/versions" then "list"
  else "read"

/-- The capability that `RequireKVAccess` asks for on the route of the method. -/
def checkedCapability : String :=
  match request.method with
  | .get => request.kvCapability
  | .post => "write"
  | .delete => "delete"

/-- The raw path without the suffix of a metadata operation. -/
def namedPath : String :=
  if hasSuffix request.rawPath "/versions" then trimSuffix request.rawPath "/versions"
  else if hasSuffix request.rawPath "/metadata" then trimSuffix request.rawPath "/metadata"
  else request.rawPath

/-- The resource that `RequireKVAccess` checks. -/
def checkedResource : String :=
  if request.rawPath = "" then "secrets/kv" else "secrets/kv/" ++ request.namedPath

/-- The context that the authentication middleware builds. -/
def context (record : ClientToken) (ns : String) : RequestContext where
  clientIP := request.headers.clientIP
  agentID := record.agentID
  «namespace» := ns
  environment := request.headers.environment
  cluster := trimSpace request.headers.cluster
  requestPath := "/secrets/kv/*path"
  requestID := request.headers.requestID

end KVRequest

namespace KVServer

variable (server : KVServer)

def enrichKVResourceLabels (tenant : String) (request : KVRequest) (context : RequestContext) :
    RequestContext :=
  if request.rawPath = "" ∨ request.list = "true" then context
  else server.withLabels tenant
    (trimSuffix (trimSuffix request.rawPath "/metadata") "/versions") context

variable (platform : Platform) (clock : Time) (rbac : RBAC)

/-- The middleware behind the authentication of a token: the namespace, the tenant,
the labels and the access check. What it leaves for the handler is the tenant and
the namespace. -/
def middleware (record : ClientToken) (request : KVRequest) :
    Except KNXVaultError (String × String) := do
  let ns ← resolveTenantNamespace request.headers.namespace record.subject
  let tenant ← tenantEnforcement server.tenantMode request.headers.namespace record.subject
  authorizePath platform clock rbac
    (some (server.enrichKVResourceLabels tenant request (request.context record ns)))
    (principalOf record) request.checkedResource request.checkedCapability
  pure (tenant, ns)

/-- The check of a stored path, with its own labels. -/
def authorises (record : ClientToken) (context : RequestContext) (tenant path capability : String) :
    Except KNXVaultError Unit :=
  authorizePath platform clock rbac
    (some (server.withLabels tenant (trimPrefix path "/") context))
    (principalOf record) ("secrets/kv/" ++ trimPrefix path "/") capability

def filterListPaths (record : ClientToken) (context : RequestContext) (tenant : String)
    (paths : List String) : List String :=
  paths.filter fun path =>
    (server.authorises platform clock rbac record context tenant path "list").isOk

/-- A request under an authenticated token. -/
def handle (record : ClientToken) (request : KVRequest) :
    Except GoError (Answer × SecretRepository) := do
  let (tenant, ns) ← (server.middleware platform clock rbac record request).mapError
    KNXVaultError.asGoError
  let call ← request.call
  let path ← server.scopePath tenant call.path
  let (answer, later) ← server.serve (call.withPath path)
  match answer with
  | .paths paths =>
    pure (.paths (server.filterListPaths platform clock rbac record (request.context record ns)
      tenant paths), later)
  | _ => pure (answer, later)

end KVServer

/-! ### What is served has been admitted -/

namespace KVServer

variable {server : KVServer}

theorem admit_of_serve {call : KVCall} {result : Answer × SecretRepository}
    (served : server.serve call = .ok result) : server.permit call = .ok () := by
  cases call with
  | put path data opts =>
    obtain ⟨write, made, -⟩ := bind_eq_ok served
    simp only [permit, made]
    rfl
  | listPaths path =>
    obtain ⟨paths, listed, -⟩ := bind_eq_ok served
    obtain ⟨⟨⟩, admitted, -⟩ := bind_eq_ok listed
    exact admitted
  | getMetadata path version =>
    obtain ⟨entry, found, -⟩ := bind_eq_ok served
    obtain ⟨versions, listed, -⟩ := bind_eq_ok found
    obtain ⟨⟨⟩, admitted, -⟩ := bind_eq_ok listed
    exact admitted
  | listVersions path =>
    obtain ⟨versions, listed, -⟩ := bind_eq_ok served
    obtain ⟨⟨⟩, admitted, -⟩ := bind_eq_ok listed
    exact admitted
  | getVersion path version =>
    obtain ⟨entry, found, -⟩ := bind_eq_ok served
    obtain ⟨⟨⟩, admitted, -⟩ := bind_eq_ok found
    exact admitted
  | destroyVersion path version =>
    obtain ⟨later, destroyed, -⟩ := bind_eq_ok served
    unfold KVV2Engine.destroyVersion at destroyed
    split at destroyed
    · cases destroyed
    · rename_i filled
      obtain ⟨⟨⟩, admitted, -⟩ := bind_eq_ok destroyed
      simp only [permit, if_neg filled]
      exact admitted
  | delete path =>
    obtain ⟨later, deleted, -⟩ := bind_eq_ok served
    obtain ⟨⟨⟩, admitted, -⟩ := bind_eq_ok deleted
    exact admitted

/-- A request that succeeds has run the call that `touches` names. -/
theorem touches_of_handle {platform : Platform} {clock : Time} {rbac : RBAC}
    {record : ClientToken} {request : KVRequest} {result : Answer × SecretRepository}
    (handled : server.handle platform clock rbac record request = .ok result) :
    ∃ tenant ns call answer,
      server.middleware platform clock rbac record request = .ok (tenant, ns) ∧
      server.touches tenant request = .ok call ∧ server.serve call = .ok (answer, result.2) := by
  obtain ⟨⟨tenant, ns⟩, passed, handled⟩ := bind_eq_ok handled
  obtain ⟨call, decoded, handled⟩ := bind_eq_ok handled
  obtain ⟨path, scoping, handled⟩ := bind_eq_ok handled
  obtain ⟨⟨answer, later⟩, served, handled⟩ := bind_eq_ok handled
  have same : result.2 = later := by
    cases answer <;> cases handled <;> rfl
  refine ⟨tenant, ns, call.withPath path, answer, ?_, ?_, ?_⟩
  · cases outcome : server.middleware platform clock rbac record request with
    | error err =>
      rw [outcome] at passed
      cases passed
    | ok pair =>
      rw [outcome] at passed
      cases passed
      rfl
  · unfold touches
    simp only [decoded, scoping, admit_of_serve served, bind, Except.bind]
    rfl
  · rw [served, same]

end KVServer

/-! ### When the check covers the access -/

namespace KVServer

variable (server : KVServer) (platform : Platform) (clock : Time)

/-- The labels under which policies see a path. -/
def pathLabels (tenant path : String) : StringMap :=
  match server.labelsForPath tenant path with
  | .error _ => ∅
  | .ok labels => labels

/-- The labels that the middleware loads for a request. -/
def loadedLabels (tenant : String) (request : KVRequest) : StringMap :=
  if request.rawPath = "" ∨ request.list = "true" then ∅
  else server.pathLabels tenant (trimSuffix (trimSuffix request.rawPath "/metadata") "/versions")

/-- The URL names the stored path, the capability is read off it correctly, and
policies see the labels of the stored path. -/
structure Canonical (tenant : String) (request : KVRequest) (call : KVCall) : Prop where
  path : request.namedPath = trimPrefix call.path "/"
  capability : request.checkedCapability = call.capability
  labels : LabelsAlike (server.loadedLabels tenant request)
    (server.pathLabels tenant (trimPrefix call.path "/"))

/-- The request of the subject, if it is not refused for other reasons, is
canonical. -/
def Spelled (request : KVRequest) (subject : String) : Prop :=
  ∀ ns tenant call, resolveTenantNamespace request.headers.namespace subject = .ok ns →
    tenantEnforcement server.tenantMode request.headers.namespace subject = .ok tenant →
    server.touches tenant request = .ok call → server.Canonical tenant request call

/-- Under all policies and for every token of the subject: if the middleware lets
the request pass, then the token may do what the handler does on the stored path,
and may list each path in the answer. -/
def Covered (request : KVRequest) (subject : String) : Prop :=
  ∀ (rbac : RBAC) (record : ClientToken) (tenant ns : String), record.subject = subject →
    server.middleware platform clock rbac record request = .ok (tenant, ns) →
    (∀ call, server.touches tenant request = .ok call →
      server.authorises platform clock rbac record (request.context record ns) tenant call.path
        call.capability = .ok ()) ∧
    ∀ paths later, server.handle platform clock rbac record request = .ok (.paths paths, later) →
      ∀ path ∈ paths, server.authorises platform clock rbac record (request.context record ns)
        tenant path "list" = .ok ()

variable {server platform clock} {tenant path : String} {context : RequestContext}

theorem withLabels_eq (unlabelled : context.resourceLabels = ∅) :
    server.withLabels tenant path context =
      { context with resourceLabels := server.pathLabels tenant path } := by
  unfold withLabels pathLabels
  cases server.labelsForPath tenant path with
  | error _ => rw [← unlabelled]
  | ok labels =>
    by_cases empty : labels.isEmpty = true
    · simp only [if_pos empty]
      rw [Std.ExtTreeMap.isEmpty_iff.mp empty, ← unlabelled]
    · simp only [if_neg empty]

variable {ns : String} {request : KVRequest} {record : ClientToken}

theorem enrichKVResourceLabels_eq :
    server.enrichKVResourceLabels tenant request (request.context record ns) =
      { request.context record ns with resourceLabels := server.loadedLabels tenant request } := by
  unfold enrichKVResourceLabels loadedLabels
  split
  · rfl
  · exact withLabels_eq rfl

variable {rbac : RBAC}

theorem middleware_ok_iff :
    server.middleware platform clock rbac record request = .ok (tenant, ns) ↔
      resolveTenantNamespace request.headers.namespace record.subject = .ok ns ∧
      tenantEnforcement server.tenantMode request.headers.namespace record.subject = .ok tenant ∧
      authorizePath platform clock rbac
        (some { request.context record ns with
          resourceLabels := server.loadedLabels tenant request })
        (principalOf record) request.checkedResource request.checkedCapability = .ok () := by
  constructor
  · intro passed
    obtain ⟨ns', resolved, passed⟩ := bind_eq_ok passed
    obtain ⟨tenant', enforced, passed⟩ := bind_eq_ok passed
    obtain ⟨⟨⟩, authorised, passed⟩ := bind_eq_ok passed
    cases passed
    rw [enrichKVResourceLabels_eq] at authorised
    exact ⟨resolved, enforced, authorised⟩
  · rintro ⟨resolved, enforced, authorised⟩
    unfold middleware
    rw [resolved, enforced]
    simp only [bind, Except.bind]
    rw [enrichKVResourceLabels_eq, authorised]
    rfl

variable {capability : String}

theorem authorises_eq :
    server.authorises platform clock rbac record (request.context record ns) tenant path
        capability =
      authorizePath platform clock rbac
        (some { request.context record ns with
          resourceLabels := server.pathLabels tenant (trimPrefix path "/") })
        (principalOf record) ("secrets/kv/" ++ trimPrefix path "/") capability := by
  unfold authorises
  rw [withLabels_eq rfl]

/-- A listing contains what passes the check of its own path. -/
theorem authorises_of_listed {paths : List String} {later : SecretRepository}
    (passed : server.middleware platform clock rbac record request = .ok (tenant, ns))
    (handled : server.handle platform clock rbac record request = .ok (.paths paths, later))
    (listed : path ∈ paths) :
    server.authorises platform clock rbac record (request.context record ns) tenant path "list" =
      .ok () := by
  unfold handle at handled
  rw [passed] at handled
  obtain ⟨_, ⟨⟩, handled⟩ := bind_eq_ok handled
  obtain ⟨call, -, handled⟩ := bind_eq_ok handled
  obtain ⟨stored, -, handled⟩ := bind_eq_ok handled
  obtain ⟨⟨answer, after⟩, -, handled⟩ := bind_eq_ok handled
  cases answer with
  | paths found =>
    cases handled
    have checked := (List.mem_filter.mp listed).2
    cases outcome : server.authorises platform clock rbac record (request.context record ns)
        tenant path "list" with
    | ok _ => rfl
    | error _ =>
      rw [outcome] at checked
      cases checked
  | written _ | metadata _ | versions _ | secret _ | done => cases handled

variable {call : KVCall}

/-- A request with a clean path is not the root of the tree. -/
theorem rawPath_of_touches (touched : server.touches tenant request = .ok call) :
    request.rawPath ≠ "" := by
  intro root
  have refused : request.secretPath = refuse .validation "path is required" := by
    unfold KVRequest.secretPath
    rw [root]
    rfl
  obtain ⟨call', decoded, -⟩ := bind_eq_ok touched
  unfold KVRequest.call KVRequest.read KVRequest.write KVRequest.delete at decoded
  rw [refused] at decoded
  cases method : request.method <;> rw [method] at decoded <;> cases decoded

/-- A token of the subject with the given policies and no restrictions of its own. -/
def plainToken (subject : String) (policies : List String) : ClientToken :=
  { id := "", subject, policies, expiresAt := {} }

variable {subject : String}

theorem authorizePath_plain {policies : List String} {resource : String} :
    authorizePath platform clock rbac (some context)
        (principalOf (plainToken subject policies)) resource capability = .ok () ↔
      rbac.authorize platform clock policies resource capability
        { context with resource, action := capability, agentID := "" } = true := by
  rw [authorizePath_ok_iff]
  simp [actionAllowedForPrincipal, kvPathAllowedForPrincipal, principalOf, plainToken]

/-- Policies that separate the checked request from the access refute coverage. -/
theorem not_covered_of_separated
    (resolved : resolveTenantNamespace request.headers.namespace subject = .ok ns)
    (enforced : tenantEnforcement server.tenantMode request.headers.namespace subject = .ok tenant)
    (touched : server.touches tenant request = .ok call)
    (separated : Separated platform clock request.checkedResource request.checkedCapability
      { request.context (plainToken subject []) ns with
        resourceLabels := server.loadedLabels tenant request
        resource := request.checkedResource, action := request.checkedCapability, agentID := "" }
      ("secrets/kv/" ++ trimPrefix call.path "/") call.capability
      { request.context (plainToken subject []) ns with
        resourceLabels := server.pathLabels tenant (trimPrefix call.path "/")
        resource := "secrets/kv/" ++ trimPrefix call.path "/", action := call.capability
        agentID := "" }) :
    ¬ server.Covered platform clock request subject := by
  intro covered
  obtain ⟨rbac, names, passes, refused⟩ := separated
  have passed : server.middleware platform clock rbac (plainToken subject names) request =
      .ok (tenant, ns) :=
    middleware_ok_iff.mpr ⟨resolved, enforced, authorizePath_plain.mpr passes⟩
  have authorised := (covered rbac (plainToken subject names) tenant ns rfl passed).1 call touched
  rw [authorises_eq] at authorised
  have allowed := authorizePath_plain.mp authorised
  exact Bool.false_ne_true (refused.symm.trans allowed)

theorem checkedResource_of_touches (touched : server.touches tenant request = .ok call) :
    request.checkedResource = "secrets/kv/" ++ request.namedPath :=
  if_neg (rawPath_of_touches touched)

theorem spelled_of_covered (covered : server.Covered platform clock request subject) :
    server.Spelled request subject := by
  intro ns tenant call resolved enforced touched
  have unseparated := fun separated =>
    not_covered_of_separated resolved enforced touched separated covered
  refine ⟨?_, ?_, ?_⟩
  · by_contra other
    apply unseparated
    rw [checkedResource_of_touches touched]
    apply separated_of_resource
    · intro same
      exact other (String.toList_injective (List.append_cancel_left
        (by simpa only [String.toList_append] using congrArg String.toList same)))
    · constructor <;> simp
  · by_contra other
    apply unseparated
    apply separated_of_action other
    unfold KVRequest.checkedCapability KVRequest.kvCapability
    split
    · split_ifs <;> decide
    · decide
    · decide
  · by_contra other
    exact unseparated (separated_of_labels other)

theorem authorizePath_alike {principal : Principal} {labels labels' : StringMap}
    (alike : LabelsAlike labels labels') {resource : String} :
    authorizePath platform clock rbac (some { context with resourceLabels := labels }) principal
        resource capability =
      authorizePath platform clock rbac (some { context with resourceLabels := labels' }) principal
        resource capability := by
  have same := @RBAC.authorize_alike platform clock resource capability
    { context with resource, action := capability, agentID := principal.agentID } rbac
    principal.policies labels labels' alike
  unfold authorizePath
  split
  · rfl
  · split
    · rfl
    · exact if_congr (iff_of_eq (congrArg (· = true) same)) rfl rfl

/-- For a canonical request the middleware decides about the stored path. -/
theorem Canonical.decision (canonical : server.Canonical tenant request call)
    (touched : server.touches tenant request = .ok call) :
    authorizePath platform clock rbac
        (some { request.context record ns with
          resourceLabels := server.loadedLabels tenant request })
        (principalOf record) request.checkedResource request.checkedCapability =
      server.authorises platform clock rbac record (request.context record ns) tenant call.path
        call.capability := by
  rw [checkedResource_of_touches touched, canonical.path, canonical.capability, authorises_eq]
  exact authorizePath_alike canonical.labels

theorem covered_of_spelled (spelled : server.Spelled request subject) :
    server.Covered platform clock request subject := by
  rintro rbac record tenant ns rfl passed
  refine ⟨fun call touched => ?_, fun paths later handled path listed =>
    authorises_of_listed passed handled listed⟩
  obtain ⟨resolved, enforced, authorised⟩ := middleware_ok_iff.mp passed
  have canonical := spelled ns tenant call resolved enforced touched
  rw [← canonical.decision touched]
  exact authorised

/-- Two canonical requests for one stored path and one capability are decided alike. -/
theorem middleware_of_same {request' : KVRequest} {call' : KVCall}
    (headers : request.headers = request'.headers) (spelled : server.Spelled request record.subject)
    (spelled' : server.Spelled request' record.subject)
    (touched : server.touches tenant request = .ok call)
    (touched' : server.touches tenant request' = .ok call') (path : call.path = call'.path)
    (capability : call.capability = call'.capability)
    (passed : server.middleware platform clock rbac record request = .ok (tenant, ns)) :
    server.middleware platform clock rbac record request' = .ok (tenant, ns) := by
  obtain ⟨resolved, enforced, authorised⟩ := middleware_ok_iff.mp passed
  have canonical := spelled ns tenant call resolved enforced touched
  rw [canonical.decision touched] at authorised
  rw [headers] at resolved enforced
  have canonical' := spelled' ns tenant call' resolved enforced touched'
  refine middleware_ok_iff.mpr ⟨resolved, enforced, ?_⟩
  have context : request.context record ns = request'.context record ns := by
    unfold KVRequest.context
    rw [headers]
  rw [canonical'.decision touched', ← context, ← path, ← capability]
  exact authorised

/-- Outside tenant mode the only tenant is the empty one. -/
theorem Canonical.spelled (untenanted : server.tenantMode = false)
    (touched : server.touches "" request = .ok call)
    (canonical : server.Canonical "" request call) :
    server.Spelled request subject := by
  intro ns tenant call' resolved enforced touched'
  rw [untenanted] at enforced
  cases enforced
  cases touched'.symm.trans touched
  exact canonical

/-- The access check covers what is accessed exactly for requests that spell the
stored path, and such requests for one stored path and one capability are decided
alike. -/
theorem kv_access_covered_iff (server : KVServer) (platform : Platform) (clock : Time) :
    (∀ request subject,
      server.Covered platform clock request subject ↔ server.Spelled request subject) ∧
    ∀ (rbac : RBAC) (record : ClientToken) (tenant ns : String) (request request' : KVRequest)
      (call call' : KVCall), request.headers = request'.headers →
      server.Spelled request record.subject → server.Spelled request' record.subject →
      server.touches tenant request = .ok call → server.touches tenant request' = .ok call' →
      call.path = call'.path → call.capability = call'.capability →
      (server.middleware platform clock rbac record request = .ok (tenant, ns) ↔
        server.middleware platform clock rbac record request' = .ok (tenant, ns)) := by
  refine ⟨fun request subject => ⟨spelled_of_covered, covered_of_spelled⟩, ?_⟩
  intro rbac record tenant ns request request' call call' headers spelled spelled' touched touched'
    path capability
  constructor
  · exact middleware_of_same headers spelled spelled' touched touched' path capability
  · exact middleware_of_same headers.symm spelled' spelled touched' touched path.symm
      capability.symm

/-- A server without tenants that stores nothing yet. -/
def sample : KVServer where
  lib := .sample
  aead := .doubling
  service := .sample
  parseTTL _ := .error "invalid ttl"
  unmarshal _ := .ok ∅
  env := .sample 1
  random := .sample
  tenantMode := false
  secrets := .empty

/-- All secrets may be read and listed, except one. -/
def exceptDb : RBAC :=
  (RBAC.upsertPolicy ⟨∅⟩ (allowPolicy "reader" ["secrets/*"] ["read", "list"])).upsertPolicy
    { name := "no-db", effect := .deny, resources := ["secrets/kv/app/db"], actions := ["*"] }

def readerToken : ClientToken :=
  { id := "reader", subject := "user", policies := ["reader", "no-db"], expiresAt := ⟨100, 0⟩ }

def getRequest (path : String) : KVRequest :=
  { method := .get, path }

/-- The metadata and the versions of a path are open to the same tokens. -/
theorem kv_access_covered_metadata :
    sample.middleware plainPlatform ⟨20, 0⟩ exceptDb readerToken
        (getRequest "/app/api/metadata") = .ok ("", "") ∧
      sample.middleware plainPlatform ⟨20, 0⟩ exceptDb readerToken
        (getRequest "/app/api/versions") = .ok ("", "") := by
  have passed : sample.middleware plainPlatform ⟨20, 0⟩ exceptDb readerToken
      (getRequest "/app/api/metadata") = .ok ("", "") := by decide +kernel
  have touched : sample.touches "" (getRequest "/app/api/metadata") =
      .ok (.getMetadata "app/api" 0) := rfl
  have touched' : sample.touches "" (getRequest "/app/api/versions") =
      .ok (.listVersions "app/api") := rfl
  refine ⟨passed, ?_⟩
  refine ((kv_access_covered_iff sample plainPlatform ⟨20, 0⟩).2 exceptDb readerToken "" ""
    (getRequest "/app/api/metadata") (getRequest "/app/api/versions") _ _ rfl ?_ ?_ touched
    touched' rfl rfl).mp passed
  · exact Canonical.spelled rfl touched ⟨by decide, by decide, fun _ _ => rfl⟩
  · exact Canonical.spelled rfl touched' ⟨by decide, by decide, fun _ _ => rfl⟩

/-- Repeated slashes, dots and trailing slashes hide the path from the deny policy,
and the handler reads the secret all the same. -/
theorem kv_spelling_evades_deny :
    (∀ spelling ∈ ["/app//db", "//app/db", "/app/./db", "/app/db/"],
      sample.middleware plainPlatform ⟨20, 0⟩ exceptDb readerToken (getRequest spelling) =
        .ok ("", "") ∧
      (sample.touches "" (getRequest spelling)).toOption.map
        (fun call => (call.path, call.capability)) = some ("app/db", "read") ∧
      sample.authorises plainPlatform ⟨20, 0⟩ exceptDb readerToken
        ((getRequest spelling).context readerToken "") "" "app/db" "read" =
          failWith .forbidden "access denied") ∧
    sample.middleware plainPlatform ⟨20, 0⟩ exceptDb readerToken (getRequest "/app/db") =
      failWith .forbidden "access denied" := by
  decide +kernel

end KVServer

end KnxVault.Api
