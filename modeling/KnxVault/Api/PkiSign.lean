import KnxVault.Auth.Token
import KnxVault.Engine.Issue

/-!
# The Vault-compatible signing route

`POST /v1/pki/sign/:role` and `POST /v1/:mount/sign/:role`: the access check of
`internal/api/middleware/pathauth.go` and the handler of
`internal/api/handlers/vaultcompat.go`. The check tries several resources of the
mount in the URL, while the handler signs under the PKI role whatever the mount.
-/

namespace KnxVault.Api

open KnxVault.Std KnxVault.Domain KnxVault.Engine KnxVault.Auth KnxVault.Engine.Pki

/-! ### The access check -/

namespace PkiSign

/-- The mount that is checked. -/
def effectiveMount (defaultMount mount : String) : String :=
  if trimSpace mount ≠ "" then trimSpace mount
  else if defaultMount ≠ "" then defaultMount
  else "pki"

/-- The resources that are tried one after the other. -/
def candidates (mount role : String) : List String :=
  if role ≠ "" then [mount ++ "/sign/" ++ role, mount ++ "/sign/*", mount ++ "/sign"]
  else [mount ++ "/sign"]

variable (check : String → Except KNXVaultError Unit)

/-- Succeed with the first resource that is authorised; otherwise report the last
error. -/
def tryResources (lastErr : Option KNXVaultError) :
    List String → Except (Option KNXVaultError) Unit
  | [] => .error lastErr
  | resource :: rest =>
    match check resource with
    | .ok _ => .ok ()
    | .error err => tryResources (some err) rest

/-- `check` authorises writing to a resource. -/
def requirePKISignCapability (defaultMount mount role : String) : Except KNXVaultError Unit :=
  let mount := effectiveMount defaultMount mount
  match tryResources check none (candidates mount (trimSpace role)) with
  | .ok _ => .ok ()
  | .error lastErr =>
    match check (mount ++ "/*") with
    | .ok _ => .ok ()
    | .error _ => .error (lastErr.getD { code := .forbidden, message := "access denied" })

/-- Every resource of which one is enough. -/
def signResources (defaultMount mount role : String) : List String :=
  let mount := effectiveMount defaultMount mount
  candidates mount (trimSpace role) ++ [mount ++ "/*"]

variable {check}

theorem tryResources_ok_iff {lastErr : Option KNXVaultError} {resources : List String} :
    tryResources check lastErr resources = .ok () ↔
      ∃ resource ∈ resources, check resource = .ok () := by
  induction resources generalizing lastErr with
  | nil => simp [tryResources]
  | cons resource rest ih =>
    rw [tryResources]
    cases outcome : check resource with
    | ok value => simp [outcome]
    | error err => simp [outcome, ih]

theorem requirePKISignCapability_ok_iff {defaultMount mount role : String} :
    requirePKISignCapability check defaultMount mount role = .ok () ↔
      ∃ resource ∈ signResources defaultMount mount role, check resource = .ok () := by
  unfold requirePKISignCapability signResources
  dsimp only
  simp only [List.mem_append, List.mem_singleton, or_and_right, exists_or, exists_eq_left]
  rw [← @tryResources_ok_iff check none]
  split
  · rename_i passed
    simp [passed]
  · rename_i lastErr refused
    rw [refused]
    cases check (effectiveMount defaultMount mount ++ "/*") <;> simp

end PkiSign

/-! ### The handler -/

structure SignRequest where
  csr : String := ""
  commonName : String := ""
  altNames : String := ""
  ipSANs : String := ""
  ttl : String := ""

structure SignResult where
  certificate : String
  caChain : List String
  serial : String
  expiration : Time
  privateKey : String := ""
deriving DecidableEq, Repr

/-- The PKI service. -/
structure PKIService where
  issuer : Issuer
  tenantMode : Bool

namespace PKIService

variable (pki : PKIService) (env : Env)

/-- No tenant is set on the routes under `/v1`. -/
def scopeResourceName (name : String) : Except GoError String :=
  if pki.tenantMode then refuse .validation "tenant namespace required" else .ok name

/-- The chain of an issued certificate is its authority, if that is stored. -/
def issuedChain (caID : Uuid) : List String :=
  if caID = 0 then []
  else match pki.issuer.cas.getByID caID with
    | .ok ca => [ca.certPEM]
    | .error _ => []

/-- Sign the request in the body or, without one, issue a certificate for its
common name. -/
def sign (role : String) (req : SignRequest) : Except GoError SignResult := do
  if trimSpace req.csr ≠ "" then
    let role ← pki.scopeResourceName role
    let signed ← pki.issuer.signCSR env { role, csrPEM := req.csr, ttl := req.ttl }
    pure { certificate := signed.certPEM, caChain := signed.caChain, serial := signed.serial
           expiration := signed.expiresAt }
  else if trimSpace req.commonName = "" then
    refuse .validation "csr or common_name is required"
  else
    let role ← pki.scopeResourceName role
    let (issued, _) ← pki.issuer.issueCertificate env {
      role, commonName := trimSpace req.commonName, dnsNames := splitCSV req.altNames
      ipAddresses := splitCSV req.ipSANs, ttl := req.ttl }
    pure { certificate := issued.certPEM, caChain := pki.issuedChain issued.caID
           serial := issued.serial, expiration := issued.expiresAt
           privateKey := issued.privateKeyPEM }

/-- `req` is the decoded body, or why it was refused. -/
def signPKI (role : String) (req : Except GoError SignRequest) : Except GoError SignResult := do
  if trimSpace role = "" then .error { text := "role is required" }
  else
    let req ← req
    pki.sign env (trimSpace role) req

/-- A request on the route: the access check, then the handler. -/
def signRoute (check : String → Except KNXVaultError Unit) (defaultMount mount role : String)
    (req : Except GoError SignRequest) : Except GoError SignResult := do
  (PkiSign.requirePKISignCapability check defaultMount mount role).mapError KNXVaultError.asGoError
  pki.signPKI env role req

theorem signRoute_ok_iff {pki : PKIService} {env : Env}
    {check : String → Except KNXVaultError Unit} {defaultMount mount role : String}
    {req : Except GoError SignRequest} {result : SignResult} :
    pki.signRoute env check defaultMount mount role req = .ok result ↔
      (∃ resource ∈ PkiSign.signResources defaultMount mount role, check resource = .ok ()) ∧
        pki.signPKI env role req = .ok result := by
  rw [← PkiSign.requirePKISignCapability_ok_iff]
  unfold signRoute
  cases PkiSign.requirePKISignCapability check defaultMount mount role with
  | ok _ => simp [Except.mapError, bind, Except.bind]
  | error err => simp [Except.mapError, bind, Except.bind]

theorem scopeResourceName_ok {pki : PKIService} {name found : String}
    (scoping : pki.scopeResourceName name = .ok found) : pki.tenantMode = false ∧ name = found := by
  unfold scopeResourceName at scoping
  cases mode : pki.tenantMode with
  | true =>
    rw [mode] at scoping
    cases scoping
  | false =>
    rw [mode] at scoping
    cases scoping
    exact ⟨rfl, rfl⟩

/-- What is signed is signed under the stored role of the name in the URL. -/
theorem role_of_signPKI {pki : PKIService} {env : Env} {role : String}
    {req : Except GoError SignRequest} {result : SignResult}
    (signed : pki.signPKI env role req = .ok result) :
    trimSpace role ≠ "" ∧ pki.tenantMode = false ∧
      ∃ stored, pki.issuer.roles.find (trimSpace role) = some stored := by
  unfold signPKI at signed
  split at signed
  · cases signed
  · rename_i named
    obtain ⟨body, -, signed⟩ := bind_eq_ok signed
    have resolved : pki.tenantMode = false ∧
        ∃ stored, pki.issuer.resolvePKIRole (trimSpace role) = .ok stored := by
      unfold sign at signed
      split at signed
      · obtain ⟨_, scoping, signed⟩ := bind_eq_ok signed
        obtain ⟨csr, made, -⟩ := bind_eq_ok signed
        obtain ⟨untenanted, rfl⟩ := scopeResourceName_ok scoping
        have resolved := Issuer.resolved_of_signCSR made
        exact ⟨untenanted, resolved⟩
      · split at signed
        · cases signed
        · obtain ⟨_, scoping, signed⟩ := bind_eq_ok signed
          obtain ⟨issued, made, -⟩ := bind_eq_ok signed
          obtain ⟨untenanted, rfl⟩ := scopeResourceName_ok scoping
          have resolved := Issuer.resolved_of_issueCertificate made
          exact ⟨untenanted, resolved⟩
    obtain ⟨untenanted, stored, resolved⟩ := resolved
    have found := Issuer.find_of_resolvePKIRole (by rwa [trimSpace_trimSpace]) resolved
    rw [trimSpace_trimSpace] at found
    exact ⟨named, untenanted, stored, found⟩

/-! ### When a signature implies the permission to sign -/

section Permission

variable (platform : Platform) (clock : Time) (rbac : RBAC) (context : RequestContext)
  (principal : Principal)

/-- The check of the middleware for writing. -/
def writeCheck (resource : String) : Except KNXVaultError Unit :=
  authorizePath platform clock rbac (some context) principal resource "write"

/-- A policy of the principal, or one that it includes, applies to writing the
resource. -/
def Covers (resource : String) (policy : Policy) : Prop :=
  rbac.Applies platform (fun _ => clock) principal.policies resource "write"
    { context with resource, action := "write", agentID := principal.agentID } policy

/-- A policy that does not deny covers the resource and none that denies does. -/
def Open (resource : String) : Prop :=
  (∃ policy, Covers platform clock rbac context principal resource policy ∧
    policy.effect ≠ .deny) ∧
  ¬ ∃ policy, Covers platform clock rbac context principal resource policy ∧ policy.effect = .deny

/-- Writing to the resource is allowed and no policy of the principal that matches
it denies. -/
structure MayWrite (resource : String) : Prop where
  authorised : writeCheck platform clock rbac context principal resource = .ok ()
  undenied : ¬ ∃ policy, Covers platform clock rbac context principal resource policy ∧
    policy.effect = .deny

/-- The resource is not a key outside the paths of the principal. -/
def InScope (resource : String) : Prop :=
  hasPrefix resource "secrets/kv/" = true → kvPathAllowedForPrincipal principal resource = true

/-- For a principal that may write at all: the policies open the resource of the role,
or they open none of the other resources that are tried for the mount. -/
def Guarded (defaultMount mount role : String) : Prop :=
  actionAllowedForPrincipal principal "write" = true →
    Open platform clock rbac context principal ("pki/sign/" ++ role) ∨
    ∀ resource ∈ PkiSign.signResources defaultMount mount role, resource ≠ "pki/sign/" ++ role →
      InScope principal resource → ¬ Open platform clock rbac context principal resource

variable {platform clock rbac context principal}

theorem writeCheck_ok_iff {resource : String} :
    writeCheck platform clock rbac context principal resource = .ok () ↔
      actionAllowedForPrincipal principal "write" = true ∧ InScope principal resource ∧
        Open platform clock rbac context principal resource := by
  have authorised := @RBAC.authorizeAt_iff platform (fun _ => clock) rbac resource "write"
    { context with resource, action := "write", agentID := principal.agentID } principal.policies
  exact authorizePath_ok_iff.trans (and_congr_right fun _ => and_congr_right fun _ => authorised)

theorem mayWrite_iff {resource : String} :
    MayWrite platform clock rbac context principal resource ↔
      writeCheck platform clock rbac context principal resource = .ok () :=
  ⟨MayWrite.authorised, fun passed => ⟨passed, (writeCheck_ok_iff.mp passed).2.2.2⟩⟩

theorem inScope_pki (role : String) : InScope principal ("pki/sign/" ++ role) := by
  intro isKey
  rw [hasPrefix, String.toList_append] at isKey
  cases isKey

/-- The resources that are tried open the resource of the role exactly if the policies
are guarded. -/
theorem guarded_iff {defaultMount mount role : String} :
    Guarded platform clock rbac context principal defaultMount mount role ↔
      ((∃ resource ∈ PkiSign.signResources defaultMount mount role,
        writeCheck platform clock rbac context principal resource = .ok ()) →
        writeCheck platform clock rbac context principal ("pki/sign/" ++ role) = .ok ()) := by
  simp only [writeCheck_ok_iff]
  constructor
  · rintro guarded ⟨resource, tried, writes, inScope, isOpen⟩
    refine ⟨writes, inScope_pki role, ?_⟩
    rcases guarded writes with target | others
    · exact target
    · by_cases same : resource = "pki/sign/" ++ role
      · exact same ▸ isOpen
      · exact absurd isOpen (others resource tried same inScope)
  · intro implied writes
    by_cases target : Open platform clock rbac context principal ("pki/sign/" ++ role)
    · exact .inl target
    · exact .inr fun resource tried _ inScope isOpen =>
        target (implied ⟨resource, tried, writes, inScope, isOpen⟩).2.2

/-- A service that signs every request under the given role. -/
def signer (role : String) (named : role ≠ "") : PKIService where
  tenantMode := false
  issuer := {
    lib := .sample
    aead := .doubling
    service := .sample
    parseTTL := fun _ => .error "invalid ttl"
    backend := {
      issueCertificate := fun _ => .error "not supported"
      signCSR := fun _ => .ok "CERT"
      parseCertMetadata := fun _ => .ok ("1", ⟨1, 0⟩)
      parseCSR := fun _ => .ok {} }
    cas := sampleCAs
    roles := Table.empty.put {
      name := role, caName := "ca", allowedDomains := ["*"], keyUsage := .server }
      ⟨(if_neg named).trans rfl, rfl⟩
    revoked := .empty
    issued := .empty }

theorem resolvePKIRole_signer {role : String} (named : role ≠ "")
    (trimmed : trimSpace role = role) :
    (signer role named).issuer.resolvePKIRole role =
      .ok { name := role, caName := "ca", allowedDomains := ["*"], keyUsage := .server } := by
  rw [Issuer.resolvePKIRole_ok_iff, trimmed, if_neg named]
  exact Table.find_put_self _ _ ⟨(if_neg named).trans rfl, rfl⟩

theorem signer_signs {role : String} (named : trimSpace role ≠ "") :
    ∃ result, (signer (trimSpace role) named).signPKI (.sample 1) role (.ok { csr := "csr" }) =
      .ok result := by
  have resolved := resolvePKIRole_signer named (trimSpace_trimSpace role)
  have ca : sampleCAs.getByName (Env.sample 1).range "ca" = .ok sampleCA := by decide +kernel
  have key : Pki.decryptKey .doubling .sample sampleCA.privateKeyEnc sampleCA.dekEnc =
      .ok [5] := by decide +kernel
  have filled : trimSpace "csr" ≠ "" := by decide
  have validated : (signer (trimSpace role) named).issuer.validateCSRAgainstRole
      { name := trimSpace role, caName := "ca", allowedDomains := ["*"], keyUsage := .server }
      "csr" "" = .ok () := rfl
  have signed : (signer (trimSpace role) named).issuer.signCSR (.sample 1)
      { role := trimSpace role, csrPEM := "csr" } =
      .ok { certPEM := "CERT", serial := "1", expiresAt := ⟨1, 0⟩
            caChain := (signer (trimSpace role) named).issuer.signingChain sampleCA } := by
    have found : (signer (trimSpace role) named).issuer.cas.getByName (Env.sample 1).range "ca" =
      .ok sampleCA := ca
    have opened : Pki.decryptKey (signer (trimSpace role) named).issuer.aead
      (signer (trimSpace role) named).issuer.service sampleCA.privateKeyEnc sampleCA.dekEnc =
        .ok [5] := key
    unfold Issuer.signCSR
    simp only [if_neg filled, resolved, bind, Except.bind, found, Except.mapError, validated,
      opened, if_true]
    rfl
  have scoping : (signer (trimSpace role) named).scopeResourceName (trimSpace role) =
      .ok (trimSpace role) := rfl
  refine ⟨{
    certificate := "CERT", serial := "1", expiration := ⟨1, 0⟩
    caChain := (signer (trimSpace role) named).issuer.signingChain sampleCA }, ?_⟩
  unfold signPKI sign
  simp only [if_neg named, bind, Except.bind, if_pos filled, scoping, signed]
  rfl

/-- A signature always comes with the permission to sign under the role exactly if
the policies are guarded. -/
theorem pki_sign_permitted_iff (platform : Platform) (clock : Time) (rbac : RBAC)
    (context : RequestContext) (principal : Principal) (defaultMount mount role : String) :
    (∀ (pki : PKIService) (env : Env) (req : Except GoError SignRequest) (result : SignResult),
      pki.signRoute env (writeCheck platform clock rbac context principal) defaultMount mount role
          req = .ok result →
        MayWrite platform clock rbac context principal ("pki/sign/" ++ trimSpace role)) ↔
      (trimSpace role ≠ "" →
        Guarded platform clock rbac context principal defaultMount mount (trimSpace role)) := by
  have tried : PkiSign.signResources defaultMount mount (trimSpace role) =
      PkiSign.signResources defaultMount mount role := by
    unfold PkiSign.signResources
    rw [trimSpace_trimSpace]
  constructor
  · intro covered named
    rw [guarded_iff, tried]
    intro passes
    obtain ⟨result, signed⟩ := signer_signs named
    exact mayWrite_iff.mp (covered _ _ _ result (signRoute_ok_iff.mpr ⟨passes, signed⟩))
  · intro guarded pki env req result handled
    obtain ⟨passes, signed⟩ := signRoute_ok_iff.mp handled
    rw [← tried] at passes
    exact mayWrite_iff.mpr (guarded_iff.mp (guarded (role_of_signPKI signed).1) passes)

/-- Signing is allowed, except under one role. -/
def exceptWeb : RBAC :=
  (RBAC.upsertPolicy ⟨∅⟩ (allowPolicy "signer" ["pki/*"] ["write"])).upsertPolicy
    { name := "no-web", effect := .deny, resources := ["pki/sign/web"], actions := ["*"] }

/-- Writing is allowed below another mount. -/
def otherMount : RBAC :=
  RBAC.upsertPolicy ⟨∅⟩ (allowPolicy "app" ["app/*"] ["write"])

def signUser (policies : List String) : Principal :=
  { subject := "user", policies, tokenID := "token" }

/-- A deny policy on the role is passed by through `pki/sign/*`, and a policy for
another mount is enough to sign under the role. -/
theorem pki_sign_bypasses_role :
    (((signer "web" (by decide)).signRoute (.sample 1)
        (writeCheck plainPlatform ⟨20, 0⟩ exceptWeb {} (signUser ["signer", "no-web"]))
        "pki" "" "web" (.ok { csr := "csr" })).isOk = true ∧
      writeCheck plainPlatform ⟨20, 0⟩ exceptWeb {} (signUser ["signer", "no-web"])
        "pki/sign/web" = failWith .forbidden "access denied") ∧
    ((signer "web" (by decide)).signRoute (.sample 1)
        (writeCheck plainPlatform ⟨20, 0⟩ otherMount {} (signUser ["app"]))
        "" "app" "web" (.ok { csr := "csr" })).isOk = true ∧
      writeCheck plainPlatform ⟨20, 0⟩ otherMount {} (signUser ["app"])
        "pki/sign/web" = failWith .forbidden "access denied" := by
  decide +kernel

end Permission

end PKIService

end KnxVault.Api
