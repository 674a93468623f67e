import KnxVault.Auth.Rbac
import KnxVault.Repository.Auth

/-!
# Client tokens and request authorisation

The token store and the path check of `internal/auth/token.go`, the tenant
namespace of `internal/auth/context.go`, and the authentication, tenant and label
middleware of `internal/api/middleware`. Tokens are named by the hash under which
they are stored. Clock readings are arguments.
-/

namespace KnxVault.Auth

open KnxVault.Std KnxVault.Domain KnxVault.Repository

abbrev minutes (count : Int) : Int := count * 60 * nanosecondsPerSecond

abbrev hours (count : Int) : Int := minutes (count * 60)

/-- The record of a new token. -/
def createdToken (defaultTTL : Int) (clock : Time) (id subject : String) (policies : List String)
    (ttl : Int) (renewable : Bool) (maxExpiresAt : Time) : ClientToken :=
  let expiresAt := clock.utc.add (if ttl ≤ 0 then defaultTTL else ttl)
  if maxExpiresAt.isZero then { id, subject, policies, expiresAt, renewable }
  else
    { id, subject, policies, renewable, maxExpiresAt
      expiresAt := if expiresAt.after maxExpiresAt then maxExpiresAt else expiresAt }

theorem createdToken_id (defaultTTL : Int) (clock : Time) (id subject : String)
    (policies : List String) (ttl : Int) (renewable : Bool) (maxExpiresAt : Time) :
    (createdToken defaultTTL clock id subject policies ttl renewable maxExpiresAt).id = id := by
  unfold createdToken
  dsimp only
  split <;> rfl

/-- The expiry that a renewal at `clock` asks for. -/
def renewedExpiry (defaultTTL : Int) (clock : Time) (increment : Int) : Time :=
  clock.utc.add (if increment ≤ 0 then defaultTTL else increment)

/-- The record that a renewal at `clock` stores. -/
def renewedToken (defaultTTL : Int) (clock : Time) (increment : Int) (record : ClientToken) :
    ClientToken :=
  let newExpiry := renewedExpiry defaultTTL clock increment
  { record with
    expiresAt :=
      if !record.maxExpiresAt.isZero ∧ newExpiry.after record.maxExpiresAt then
        record.maxExpiresAt
      else newExpiry }

/-- The repository of tokens, and the default lifetime. -/
structure TokenStore where
  repo : TokenRepository
  ttl : Int

def newTokenStore (ttl : Int) : TokenStore :=
  ⟨.empty, if ttl ≤ 0 then hours 24 else ttl⟩

namespace TokenStore

def save (store : TokenStore) (record : ClientToken) : Except KNXVaultError TokenStore := do
  let repo ← TokenRepository.save store.repo record
  pure { store with repo }

/-- Issue a token with an explicit lifetime and, unless zero, a latest expiry. -/
def create (store : TokenStore) (clock : Time) (id subject : String) (policies : List String)
    (ttl : Int) (renewable : Bool) (maxExpiresAt : Time) :
    Except KNXVaultError (TokenStore × ClientToken) := do
  let record := createdToken store.ttl clock id subject policies ttl renewable maxExpiresAt
  let store ← store.save record
  pure (store, record)

/-- The lifetime of an issued token. -/
def lifetime (store : TokenStore) : Int :=
  if store.ttl ≤ 0 then hours 24 else store.ttl

/-- A token whose lifetime cannot be extended past its first expiry. -/
def issue (store : TokenStore) (clock : Time) (id subject : String) (policies : List String) :
    Except KNXVaultError (TokenStore × ClientToken) :=
  store.create clock id subject policies store.lifetime true (clock.utc.add store.lifetime)

def renew (store : TokenStore) (clock : Time) (id : String) (increment : Int) :
    Except KNXVaultError (TokenStore × ClientToken) :=
  match TokenRepository.get store.repo id with
  | .error _ => failWith .unauthorized "invalid token"
  | .ok record =>
    if record.revoked then failWith .unauthorized "token revoked"
    else if !record.renewable then failWith .validation "token is not renewable"
    else if clock.utc.after record.expiresAt then failWith .unauthorized "token expired"
    else do
      let record := renewedToken store.ttl clock increment record
      let store ← store.save record
      pure (store, record)

/-- The longest lifetime of a token, 30 days. -/
def maxClientTokenTTL : Int := hours (30 * 24)

def cappedIncrement (increment : Int) : Int :=
  if increment > maxClientTokenTTL then maxClientTokenTTL else increment

def renewToken (store : TokenStore) (clock : Time) (id : String) (increment : Int) :
    Except KNXVaultError (TokenStore × ClientToken) :=
  store.renew clock id (cappedIncrement increment)

def revoke (store : TokenStore) (clock : Time) (id : String) : Except KNXVaultError TokenStore :=
  match TokenRepository.revoke store.repo id clock.utc with
  | .error err =>
    if err.code = .notFound then failWith .unauthorized "invalid token" else .error err
  | .ok repo => .ok { store with repo }

def authenticate (store : TokenStore) (clock : Time) (id : String) :
    Except KNXVaultError ClientToken :=
  match TokenRepository.get store.repo id with
  | .error _ => failWith .unauthorized "invalid token"
  | .ok record =>
    if record.revoked then failWith .unauthorized "token revoked"
    else if clock.utc.after record.expiresAt then failWith .unauthorized "token expired"
    else .ok record

end TokenStore

/-! ### Principals -/

structure Principal where
  subject : String
  policies : List String
  tokenID : String
  parentIdentityID : String := ""
  agentID : String := ""
  allowedActions : List String := []
  pathPrefix : String := ""
deriving DecidableEq, Repr

/-- The principal that the middleware takes from a token. -/
def principalOf (record : ClientToken) : Principal where
  subject := record.subject
  policies := record.policies
  tokenID := record.id
  parentIdentityID := record.parentIdentityID
  agentID := record.agentID
  allowedActions := record.allowedActions
  pathPrefix := record.pathPrefix

def actionAllowedForPrincipal (principal : Principal) (action : String) : Bool :=
  principal.allowedActions = [] ||
    principal.allowedActions.any fun allowed => matchAction allowed action

def kvPathAllowedForPrincipal (principal : Principal) (resource : String) : Bool :=
  principal.pathPrefix = "" ||
    let kvPrefix := "secrets/kv/" ++ trimSuffix principal.pathPrefix "/"
    hasPrefix resource (kvPrefix ++ "/") || resource = kvPrefix

structure ServiceAccountIdentity where
  «namespace» : String
  name : String
  username : String
deriving DecidableEq, Repr

/-- Split at the first colon. -/
def splitColon : List Char → Option (List Char × List Char)
  | [] => none
  | char :: rest =>
    if char = ':' then some ([], rest)
    else (splitColon rest).map fun (before, after) => (char :: before, after)

def parseServiceAccountUsername (username : String) : Option ServiceAccountIdentity :=
  let start := "system:serviceaccount:"
  if !hasPrefix username start then none
  else match splitColon (username.toList.drop start.toList.length) with
    | none => none
    | some (before, after) =>
      if before = [] ∨ after = [] then none
      else some ⟨String.ofList before, String.ofList after, username⟩

/-- A service account speaks for its own namespace only. -/
def resolveTenantNamespace (header subject : String) : Except KNXVaultError String :=
  match parseServiceAccountUsername subject with
  | some id =>
    if trimSpace header ≠ "" ∧ trimSpace header ≠ id.namespace then
      failWith .forbidden "namespace header does not match service account"
    else .ok id.namespace
  | none => .ok (trimSpace header)

/-- The tenant of a request, empty outside tenant mode. -/
def tenantEnforcement (enabled : Bool) (header subject : String) :
    Except KNXVaultError String := do
  if !enabled then pure ""
  else
    let ns ← resolveTenantNamespace header subject
    if ns = "" then failWith .validation "X-KNX-Namespace is required in tenant mode"
    else pure (trimSpace ns)

/-- What a request carries besides its token. -/
structure Request where
  resource : String
  capability : String
  /-- The key-value path whose labels the route loads before the check, if it does. -/
  labelPath : Option String := none
  namespaceHeader : String := ""
  clusterHeader : String := ""
  clientIP : String := ""
  environment : String := ""
  requestPath : String := ""
  requestID : String := ""
deriving DecidableEq, Repr

/-- The tenant mode, and `LabelsForPath` for a tenant: none on an error. -/
structure Routes where
  tenantMode : Bool := false
  labelsForPath : String → String → StringMap := fun _ _ => ∅

variable (platform : Platform) (clock : Time)

/-- `existing` is the request context that the middleware stored. -/
def authorizePath (rbac : RBAC) (existing : Option RequestContext) (principal : Principal)
    (resource capability : String) : Except KNXVaultError Unit :=
  if !actionAllowedForPrincipal principal capability then
    failWith .forbidden "action not allowed for agent token"
  else if hasPrefix resource "secrets/kv/" ∧ ¬ kvPathAllowedForPrincipal principal resource then
    failWith .forbidden "path outside agent prefix"
  else
    let req := { existing.getD {} with
      resource, action := capability, agentID := principal.agentID }
    if rbac.authorize platform clock principal.policies resource capability req then .ok ()
    else failWith .forbidden "access denied"

/-- The labels that the route loads, none if it does not look or finds none. -/
def Routes.labels (routes : Routes) (tenant : String) (request : Request) : StringMap :=
  match request.labelPath with
  | none => ∅
  | some path => routes.labelsForPath tenant path

/-- The context that the middleware builds. -/
def Request.context (request : Request) (record : ClientToken) (ns : String)
    (resourceLabels : StringMap) : RequestContext where
  resourceLabels
  clientIP := request.clientIP
  agentID := record.agentID
  «namespace» := ns
  environment := request.environment
  cluster := trimSpace request.clusterHeader
  requestPath := request.requestPath
  requestID := request.requestID

/-- A request on a path: authenticate the token, find the tenant, load the labels, then
check the capability. -/
def handleRequest (rbac : RBAC) (routes : Routes) (store : TokenStore) (id : String)
    (request : Request) : Except KNXVaultError Unit := do
  let record ← store.authenticate clock id
  let ns ← resolveTenantNamespace request.namespaceHeader record.subject
  let tenant ← tenantEnforcement routes.tenantMode request.namespaceHeader record.subject
  authorizePath platform clock rbac
    (some (request.context record ns (routes.labels tenant request))) (principalOf record)
    request.resource request.capability

/-! ### When a request passes -/

namespace TokenStore

variable {store : TokenStore} {id : String} {record : ClientToken}

theorem authenticate_ok_iff :
    store.authenticate clock id = .ok record ↔
      store.repo.find id = some record ∧ record.revoked = false ∧
        clock.utc.after record.expiresAt = false := by
  unfold authenticate TokenRepository.get getRow
  cases stored : store.repo.find id with
  | none => simp
  | some found =>
    by_cases revoked : found.revoked = true
    · simp only [revoked, if_true, reduceCtorEq, Option.some.injEq, false_iff, not_and]
      rintro rfl unrevoked
      rw [revoked] at unrevoked
      cases unrevoked
    · by_cases expired : clock.utc.after found.expiresAt = true
      · simp only [if_neg revoked, if_pos expired, reduceCtorEq, Option.some.injEq,
          false_iff, not_and]
        rintro rfl - current
        rw [expired] at current
        cases current
      · simp only [if_neg revoked, if_neg expired, Except.ok.injEq, Option.some.injEq]
        constructor
        · rintro rfl
          exact ⟨rfl, by simpa using revoked, by simpa using expired⟩
        · exact And.left

theorem save_ok_iff {later : TokenStore} :
    store.save record = .ok later ↔
      ∃ named : record.id ≠ "", later = { store with repo := store.repo.put record named } := by
  unfold save TokenRepository.save
  by_cases unnamed : record.id = ""
  · simp [unnamed, bind, Except.bind]
  · simp [unnamed, bind, Except.bind, pure, Except.pure, eq_comm]

theorem save_pure_eq (named : record.id ≠ "") :
    (do
      let later ← store.save record
      pure (later, record) : Except KNXVaultError (TokenStore × ClientToken)) =
      .ok ({ store with repo := store.repo.put record named }, record) := by
  rw [save_ok_iff.mpr ⟨named, rfl⟩]
  rfl

/-- The record of an issued token. -/
def issuedToken (store : TokenStore) (id subject : String) (policies : List String) :
    ClientToken :=
  createdToken store.ttl clock id subject policies store.lifetime true
    (clock.utc.add store.lifetime)

/-- A token with a hash is issued, and stored under it. -/
theorem issue_iff {later : TokenStore} {subject : String} {policies : List String} :
    store.issue clock id subject policies = .ok (later, record) ↔
      record = store.issuedToken clock id subject policies ∧
        ∃ named : record.id ≠ "", later = { store with repo := store.repo.put record named } := by
  constructor
  · intro issued
    obtain ⟨saved, saving, ended⟩ := bind_eq_ok issued
    cases ended
    exact ⟨rfl, save_ok_iff.mp saving⟩
  · rintro ⟨rfl, named, rfl⟩
    exact save_pure_eq named

/-- A renewed record lasts as long as the increment reaches and the latest expiry lets it. -/
theorem reaches_renewed_iff {defaultTTL increment upTo : Int} :
    upTo ≤ (renewedToken defaultTTL clock increment record).expiresAt.instant ↔
      upTo ≤ (renewedExpiry defaultTTL clock increment).instant ∧
        (record.maxExpiresAt.isZero = false → upTo ≤ record.maxExpiresAt.instant) := by
  unfold renewedToken
  cases unset : record.maxExpiresAt.isZero with
  | true => simp
  | false =>
    by_cases past : (renewedExpiry defaultTTL clock increment).after record.maxExpiresAt = true
    · have later : record.maxExpiresAt.instant <
          (renewedExpiry defaultTTL clock increment).instant :=
        of_decide_eq_true past
      simp only [past, Bool.not_false, and_self, if_true, forall_const]
      omega
    · have within : ¬ record.maxExpiresAt.instant <
          (renewedExpiry defaultTTL clock increment).instant :=
        fun later => past (decide_eq_true later)
      simp only [if_neg fun both : _ ∧ _ => past both.2, forall_const]
      omega

/-- A renewal reaches a time if the token may be renewed, the increment reaches
it and the latest expiry does. -/
theorem renewToken_reaches_iff {increment upTo : Int} :
    (∃ later record, store.renewToken clock id increment = .ok (later, record) ∧
        upTo ≤ record.expiresAt.instant) ↔
      ∃ record, store.repo.find id = some record ∧ record.revoked = false ∧
        record.renewable = true ∧ clock.utc.after record.expiresAt = false ∧
        upTo ≤ (renewedExpiry store.ttl clock (cappedIncrement increment)).instant ∧
        (record.maxExpiresAt.isZero = false → upTo ≤ record.maxExpiresAt.instant) := by
  unfold renewToken renew TokenRepository.get getRow
  cases stored : store.repo.find id with
  | none => simp
  | some record =>
    simp only [Option.some.injEq, exists_eq_left']
    cases revoked : record.revoked with
    | true => simp
    | false =>
      cases renewable : record.renewable with
      | false => simp
      | true =>
        cases expired : clock.utc.after record.expiresAt with
        | true => simp
        | false =>
          have named : record.id ≠ "" := store.repo.valid stored
          simp only [Bool.not_true, Bool.false_eq_true, if_false, true_and]
          rw [← reaches_renewed_iff]
          constructor
          · rintro ⟨later, renewed, ended, reached⟩
            obtain ⟨saved, -, result⟩ := bind_eq_ok ended
            cases result
            exact reached
          · intro reached
            refine ⟨_, _, save_pure_eq ?_, ?_⟩
            · exact named
            · exact reached

end TokenStore

variable {platform clock}

theorem authorizePath_ok_iff {rbac : RBAC} {context : RequestContext} {principal : Principal}
    {resource capability : String} :
    authorizePath platform clock rbac (some context) principal resource capability = .ok () ↔
      actionAllowedForPrincipal principal capability = true ∧
      (hasPrefix resource "secrets/kv/" = true →
        kvPathAllowedForPrincipal principal resource = true) ∧
      rbac.authorize platform clock principal.policies resource capability
        { context with resource, action := capability, agentID := principal.agentID } = true := by
  unfold authorizePath
  by_cases action : actionAllowedForPrincipal principal capability = true
  · by_cases outside : hasPrefix resource "secrets/kv/" = true ∧
        ¬ kvPathAllowedForPrincipal principal resource = true
    · simp [action, outside]
    · have inside : hasPrefix resource "secrets/kv/" = true →
          kvPathAllowedForPrincipal principal resource = true := by tauto
      simp only [action, Bool.not_true, Bool.false_eq_true, if_false, if_neg outside,
        Option.getD_some, true_and]
      rw [and_iff_right inside]
      split <;> simp_all
  · simp [action]

/-- A subject without the service account form may name any namespace. -/
theorem resolveTenantNamespace_agent (header agentID : String) :
    resolveTenantNamespace header ("agent:" ++ agentID) = .ok (trimSpace header) := by
  have other : hasPrefix ("agent:" ++ agentID) "system:serviceaccount:" = false := by
    rw [hasPrefix, String.toList_append]
    rfl
  simp [resolveTenantNamespace, parseServiceAccountUsername, other]

/-- A resolved namespace is the one in the header, or the header names none. -/
theorem resolveTenantNamespace_ok {header subject ns : String}
    (resolved : resolveTenantNamespace header subject = .ok ns) :
    trimSpace header = ns ∨ trimSpace header = "" := by
  unfold resolveTenantNamespace at resolved
  split at resolved
  · rename_i id parsed
    split at resolved
    · cases resolved
    · rename_i consistent
      cases resolved
      by_cases blank : trimSpace header = ""
      · exact .inr blank
      · exact .inl (by_contra fun different => consistent ⟨blank, different⟩)
  · cases resolved
    exact .inl rfl

/-- The policy context of a request under a token. -/
def Request.policyContext (request : Request) (record : ClientToken) (ns : String)
    (labels : StringMap) : RequestContext :=
  { request.context record ns labels with
    resource := request.resource, action := request.capability, agentID := record.agentID }

/-- The namespace and the tenant of a request under a token. -/
def Request.Admits (request : Request) (tenantMode : Bool) (subject ns tenant : String) : Prop :=
  resolveTenantNamespace request.namespaceHeader subject = .ok ns ∧
    tenantEnforcement tenantMode request.namespaceHeader subject = .ok tenant

theorem handleRequest_ok_iff {rbac : RBAC} {routes : Routes} {store : TokenStore} {id : String}
    {request : Request} :
    handleRequest platform clock rbac routes store id request = .ok () ↔
      ∃ record ns tenant, store.authenticate clock id = .ok record ∧
        request.Admits routes.tenantMode record.subject ns tenant ∧
        actionAllowedForPrincipal (principalOf record) request.capability = true ∧
        (hasPrefix request.resource "secrets/kv/" = true →
          kvPathAllowedForPrincipal (principalOf record) request.resource = true) ∧
        rbac.authorize platform clock record.policies request.resource request.capability
          (request.policyContext record ns (routes.labels tenant request)) = true := by
  constructor
  · intro handled
    obtain ⟨record, authenticated, handled⟩ := bind_eq_ok handled
    obtain ⟨ns, resolved, handled⟩ := bind_eq_ok handled
    obtain ⟨tenant, enforced, handled⟩ := bind_eq_ok handled
    exact ⟨record, ns, tenant, authenticated, ⟨resolved, enforced⟩,
      authorizePath_ok_iff.mp handled⟩
  · rintro ⟨record, ns, tenant, authenticated, ⟨resolved, enforced⟩, authorised⟩
    simp only [handleRequest, authenticated, resolved, enforced, bind, Except.bind]
    exact authorizePath_ok_iff.mpr authorised

end KnxVault.Auth
