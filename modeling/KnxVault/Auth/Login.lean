import KnxVault.Auth.Token
import KnxVault.Repository.Audit

/-!
# Logins

The logins of `internal/auth/token.go` and `cert_login.go` with the role lookups
of `role_resolver.go` and the bindings of `role_binding.go`. What verifies a
signed token is part of `LoginService`; audit events and the counting of failed
logins are left out, so `locked` says whether the client is locked out.
-/

namespace KnxVault.Auth

open KnxVault.Std KnxVault.Domain KnxVault.Repository

/-! ### Roles -/

/-- The policies of the built-in roles. -/
def builtinRolePolicies (role : String) : Option (List String) :=
  if role ∈ ["admin", "pki-admin", "secrets-admin", "secrets-reader", "audit-reader",
      "policy-admin", "inject-reader"] then some [role]
  else if role = "default" then some ["secrets-reader"]
  else none

def policiesForRole (role : String) : List String :=
  (builtinRolePolicies (trimSpace role)).getD ["secrets-reader"]

/-- The policies and groups of a role, each once. -/
def flattenRolePolicies (policies groups : List String) : List String :=
  if groups = [] then policies
  else (policies ++ groups).foldl
    (fun out name => if name = "" ∨ name ∈ out then out else out ++ [name]) []

/-- The stored role, or the built-in one. -/
def getRole (roles : RoleRepository) (name : String) : Except String Role :=
  match roles.get name with
  | .ok stored => .ok stored
  | .error _ =>
    if policiesForRole name = [] then .error "role not found"
    else .ok { name, policies := policiesForRole name }

def resolvePoliciesForRole (roles : RoleRepository) (role : String) : List String :=
  match getRole roles role with
  | .ok stored => flattenRolePolicies stored.policies stored.policyGroups
  | .error _ => policiesForRole role

def matchServiceAccountBinding (role : Role) (id : ServiceAccountIdentity) :
    Except KNXVaultError Unit :=
  if role.boundServiceAccountNames = [] ∧ role.boundServiceAccountNamespaces = [] then
    failWith .forbidden "kubernetes role requires service account bindings"
  else if id.namespace = "" ∨ id.name = "" then
    failWith .forbidden "service account identity required"
  else if role.boundServiceAccountNamespaces ≠ [] ∧
      id.namespace ∉ role.boundServiceAccountNamespaces ∧
      "*" ∉ role.boundServiceAccountNamespaces then
    failWith .forbidden "service account namespace not bound to role"
  else if role.boundServiceAccountNames ≠ [] ∧ id.name ∉ role.boundServiceAccountNames ∧
      "*" ∉ role.boundServiceAccountNames then
    failWith .forbidden "service account name not bound to role"
  else .ok ()

/-! ### The service -/

/-- The configuration of the logins and what they take from outside. -/
structure LoginService where
  /-- The identity and subject in a service account token, for a role. -/
  validateKubernetesJWT : String → String → Except KNXVaultError (ServiceAccountIdentity × String)
  /-- The subject and claims in a token for an OIDC configuration, if set up. -/
  oidc : Option (OIDCConfig → String → Except KNXVaultError (String × Fields))
  oidcTTL : Int
  /-- Whether a JSON number is at least another one. -/
  numberAtLeast : String → Int → Bool
  /-- Whether logins are checked against the machine identities. -/
  nhi : Bool
  /-- Policies of client certificates without a role. -/
  defaultPolicies : List String

structure LoginState where
  tokens : TokenStore
  roles : RoleRepository
  identities : MachineIdentityRepository

def authMethodKubernetes : String := "kubernetes"

def authMethodOIDC : String := "oidc"

/-- An identity that is not recorded cannot be checked. -/
def checkIdentity (service : LoginService) (identities : MachineIdentityRepository)
    (id : String) : Except KNXVaultError Unit :=
  if service.nhi then
    match identities.get id with
    | .error err =>
      .error { code := .unavailable, message := "identity check failed", cause := some err.error }
    | .ok identity =>
      if identity.revoked then failWith .forbidden "machine identity revoked" else .ok ()
  else .ok ()

/-- Record the identity; an error is ignored. -/
def upsertFromLogin (service : LoginService) (identities : MachineIdentityRepository)
    (clock : Time) (identity : MachineIdentity) : MachineIdentityRepository :=
  if service.nhi then
    match identities.save { identity with lastSeen := clock.utc } with
    | .ok saved => saved
    | .error _ => identities
  else identities

/-- A login that has passed every check but that of its identity. -/
structure Admission where
  identity : MachineIdentity
  subject : String
  ttl : Int
deriving DecidableEq, Repr

/-- A login from the check of its identity on. -/
def enter (service : LoginService) (state : LoginState) (clock : Time) (tokenID : String)
    (admission : Admission) : Except KNXVaultError (LoginState × ClientToken) := do
  checkIdentity service state.identities admission.identity.id
  let identities := upsertFromLogin service state.identities clock admission.identity
  let (tokens, record) ← state.tokens.create clock tokenID admission.subject
    admission.identity.policies admission.ttl true (clock.utc.add admission.ttl)
  pure ({ state with tokens, identities }, record)

def admitKubernetes (service : LoginService) (roles : RoleRepository) (defaultTTL : Int)
    (locked : Bool) (role jwtToken : String) : Except KNXVaultError Admission :=
  if locked then failWith .forbidden "identity locked out"
  else if jwtToken = "" then failWith .validation "jwt is required"
  else if role = "" then failWith .validation "role is required"
  else do
    let (identity, subject) ← service.validateKubernetesJWT role jwtToken
    let stored ← (roles.get role).mapError fun err =>
      { code := .forbidden, message := "role not found", cause := some err.error }
    if stored.authMethod ≠ "" ∧ stored.authMethod ≠ authMethodKubernetes then
      failWith .forbidden "role does not allow kubernetes login"
    else do
      matchServiceAccountBinding stored identity
      let policies := resolvePoliciesForRole roles role
      if policies = [] then failWith .forbidden "role has no policies"
      else pure {
        identity := {
          id := nhiKey "k8s_sa" identity.namespace identity.name subject
          type := "k8s_sa", boundNamespace := identity.namespace
          boundName := identity.name, policies }
        subject, ttl := if defaultTTL ≤ 0 then hours 24 else defaultTTL }

def loginKubernetes (service : LoginService) (state : LoginState) (clock : Time) (locked : Bool)
    (tokenID role jwtToken : String) : Except KNXVaultError (LoginState × ClientToken) :=
  admitKubernetes service state.roles state.tokens.ttl locked role jwtToken >>=
    enter service state clock tokenID

/-- A claim that shows a second factor. -/
def mfaMethod (text : String) : Bool :=
  text = "mfa" || text = "otp" || text = "hwk"

def checkMFA (service : LoginService) (requireMFA : Bool) (claims : Fields) :
    Except KNXVaultError Unit :=
  let acr := match claims["acr"]? with
    | some (.string text) => text = "mfa" || text = "urn:mace:incommon:iap:silver"
    | some (.number text) => service.numberAtLeast text 2
    | _ => false
  let amr := match claims["amr"]? with
    | some (.string text) => mfaMethod text
    | some (.array items) => items.any fun item =>
      match item with
      | .string text => mfaMethod text
      | _ => false
    | _ => false
  if !requireMFA || acr || amr then .ok ()
  else failWith .forbidden "mfa required for administrative role"

/-- The lifetime of a token for a role, in nanoseconds. -/
def oidcTTL (cfg : OIDCConfig) (defaultTTL : Int) : Int :=
  let maximum := wrap64 (cfg.maxTTL * nanosecondsPerSecond)
  if 0 < cfg.maxTTL ∧ maximum < defaultTTL then maximum
  else if defaultTTL ≤ 0 then hours 1
  else defaultTTL

def oidcSubjectLabel (issuer subject : String) : String :=
  if trimSpace issuer = "" then "oidc:" ++ subject
  else "oidc:" ++ trimSpace issuer ++ ":" ++ subject

def admitOIDC (service : LoginService) (roles : RoleRepository) (locked : Bool)
    (role jwtToken : String) : Except KNXVaultError Admission :=
  if locked then failWith .forbidden "identity locked out"
  else if jwtToken = "" then failWith .validation "jwt is required"
  else if role = "" then failWith .validation "role is required"
  else match service.oidc with
  | none => failWith .unauthorized "oidc authentication not configured"
  | some validate => do
    let stored ← (roles.get role).mapError fun err =>
      { code := .forbidden, message := "role not found", cause := some err.error }
    if stored.authMethod ≠ "" ∧ stored.authMethod ≠ authMethodOIDC then
      failWith .forbidden "role does not allow oidc login"
    else match stored.oidc with
    | none => failWith .validation "oidc not configured for role"
    | some cfg => do
      let (subject, claims) ← validate cfg jwtToken
      checkMFA service stored.requireMFA claims
      let ttl := oidcTTL cfg service.oidcTTL
      pure {
        identity := {
          id := nhiKey "oidc" "" "" subject
          type := "oidc", boundName := subject
          policies := resolvePoliciesForRole roles role
          maxTTL := ttl / nanosecondsPerSecond }
        subject := oidcSubjectLabel cfg.issuer subject, ttl }

def loginOIDC (service : LoginService) (state : LoginState) (clock : Time) (locked : Bool)
    (tokenID role jwtToken : String) : Except KNXVaultError (LoginState × ClientToken) :=
  admitOIDC service state.roles locked role jwtToken >>= enter service state clock tokenID

structure ClientCertificate where
  notBefore : Time
  notAfter : Time
  commonName : String
  dnsNames : List String
deriving DecidableEq, Repr

/-- The common name, or else the first DNS name. -/
def certIdentity (leaf : ClientCertificate) : String :=
  if trimSpace leaf.commonName = "" then trimSpace (leaf.dnsNames.headD "")
  else trimSpace leaf.commonName

/-- The policies of the stored role of that name; built-in roles do not count. -/
def certPolicies (service : LoginService) (roles : RoleRepository) (identity : String) :
    List String :=
  match roles.get identity with
  | .ok stored => flattenRolePolicies stored.policies stored.policyGroups
  | .error _ => service.defaultPolicies

def loginWithClientCert (service : LoginService) (state : LoginState) (clock : Time)
    (locked : Bool) (tokenID : String) (certs : List ClientCertificate) :
    Except KNXVaultError (LoginState × ClientToken) :=
  if locked then failWith .forbidden "identity locked out"
  else match certs with
  | [] => failWith .unauthorized "client certificate required"
  | leaf :: _ =>
    if clock.before leaf.notBefore ∨ clock.after leaf.notAfter then
      failWith .unauthorized "client certificate not valid at this time"
    else if certIdentity leaf = "" then
      failWith .unauthorized "client certificate has no CN or DNS SAN"
    else if certPolicies service state.roles (certIdentity leaf) = [] then
      failWith .unauthorized "no role mapped for client certificate identity"
    else do
      let (tokens, record) ← state.tokens.issue clock tokenID ("cert:" ++ certIdentity leaf)
        (certPolicies service state.roles (certIdentity leaf))
      pure ({ state with tokens }, record)

/-! ### Who is admitted -/

theorem mem_flattenRolePolicies {policies groups : List String} {name : String}
    (listed : name ∈ policies) (named : name ≠ "") :
    name ∈ flattenRolePolicies policies groups := by
  have collects : ∀ names out : List String, name ∈ out ∨ name ∈ names →
      name ∈ names.foldl (fun out name => if name = "" ∨ name ∈ out then out else out ++ [name])
        out := by
    intro names
    induction names with
    | nil => simp
    | cons first rest ih =>
      intro out held
      rw [List.foldl_cons]
      refine ih _ ?_
      rcases held with kept | inNames
      · left
        split
        · exact kept
        · exact List.mem_append_left _ kept
      · rcases List.mem_cons.mp inNames with rfl | later
        · left
          split
          · rename_i skipped
            exact skipped.resolve_left named
          · simp
        · exact .inr later
  unfold flattenRolePolicies
  split
  · exact listed
  · exact collects _ _ (.inr (List.mem_append_left _ listed))

theorem resolvePoliciesForRole_of_stored {roles : RoleRepository} {role : String} {stored : Role}
    (found : roles.find role = some stored) :
    resolvePoliciesForRole roles role =
      flattenRolePolicies stored.policies stored.policyGroups := by
  have got : roles.get role = .ok stored := getRow_ok_iff.mpr found
  simp [resolvePoliciesForRole, getRole, got]

variable {service : LoginService} {state : LoginState} {clock : Time} {locked : Bool}
  {tokenID role jwtToken : String}

/-- A login that has passed its checks issues a token. -/
theorem loginKubernetes_ok_iff {After : TokenStore → Prop} :
    (∃ result, loginKubernetes service state clock locked tokenID role jwtToken = .ok result ∧
        After result.1.tokens) ↔
      locked = false ∧ jwtToken ≠ "" ∧ role ≠ "" ∧
      ∃ identity subject stored,
        service.validateKubernetesJWT role jwtToken = .ok (identity, subject) ∧
        state.roles.find role = some stored ∧
        (stored.authMethod = "" ∨ stored.authMethod = authMethodKubernetes) ∧
        matchServiceAccountBinding stored identity = .ok () ∧
        flattenRolePolicies stored.policies stored.policyGroups ≠ [] ∧
        checkIdentity service state.identities
          (nhiKey "k8s_sa" identity.namespace identity.name subject) = .ok () ∧
        ∃ issued, state.tokens.issue clock tokenID subject
          (flattenRolePolicies stored.policies stored.policyGroups) = .ok issued ∧
          After issued.1 := by
  constructor
  · rintro ⟨result, admitted, after⟩
    obtain ⟨admission, passed, admitted⟩ := bind_eq_ok admitted
    unfold admitKubernetes at passed
    split at passed
    · cases passed
    rename_i unlocked
    split at passed
    · cases passed
    rename_i filled
    split at passed
    · cases passed
    rename_i named
    obtain ⟨⟨identity, subject⟩, validated, passed⟩ := bind_eq_ok passed
    obtain ⟨stored, got, passed⟩ := bind_eq_ok passed
    have found := getRow_ok_iff.mp (mapError_ok_iff.mp got)
    split at passed
    · cases passed
    rename_i method
    obtain ⟨_, bound, passed⟩ := bind_eq_ok passed
    dsimp only at passed
    split at passed
    · cases passed
    rename_i granted
    cases passed
    obtain ⟨_, checked, admitted⟩ := bind_eq_ok admitted
    obtain ⟨issued, issuing, ended⟩ := bind_eq_ok admitted
    rw [resolvePoliciesForRole_of_stored found] at granted issuing
    cases ended
    exact ⟨by simpa using unlocked, filled, named, identity, subject, stored, validated, found,
      by tauto, bound, granted, checked, issued, issuing, after⟩
  · rintro ⟨rfl, filled, named, identity, subject, stored, validated, found, method, bound,
      granted, checked, issued, issuing, after⟩
    have allowed : ¬ (stored.authMethod ≠ "" ∧ stored.authMethod ≠ authMethodKubernetes) := by
      tauto
    have got : state.roles.get role = .ok stored := getRow_ok_iff.mpr found
    unfold TokenStore.issue TokenStore.lifetime at issuing
    simp only [loginKubernetes, admitKubernetes, enter, Bool.false_eq_true, if_false,
      if_neg filled, if_neg named, validated, got, Except.mapError, bind, Except.bind,
      if_neg allowed, bound, resolvePoliciesForRole_of_stored found, if_neg granted, pure,
      Except.pure, checked, issuing]
    exact ⟨_, rfl, after⟩

/-- An OIDC login that is admitted issues a token of the lifetime that its role has. -/
theorem loginOIDC_ok {result : LoginState × ClientToken}
    (admitted : loginOIDC service state clock locked tokenID role jwtToken = .ok result) :
    ∃ stored cfg subject, state.roles.find role = some stored ∧ stored.oidc = some cfg ∧
      state.tokens.create clock tokenID (oidcSubjectLabel cfg.issuer subject)
        (resolvePoliciesForRole state.roles role) (oidcTTL cfg service.oidcTTL) true
        (clock.utc.add (oidcTTL cfg service.oidcTTL)) = .ok (result.1.tokens, result.2) := by
  obtain ⟨admission, passed, admitted⟩ := bind_eq_ok admitted
  unfold admitOIDC at passed
  iterate 3
    split at passed
    · cases passed
  split at passed
  · cases passed
  obtain ⟨stored, got, passed⟩ := bind_eq_ok passed
  split at passed
  · cases passed
  split at passed
  · cases passed
  rename_i cfg configured
  obtain ⟨⟨subject, claims⟩, -, passed⟩ := bind_eq_ok passed
  obtain ⟨-, -, passed⟩ := bind_eq_ok passed
  cases passed
  obtain ⟨-, -, admitted⟩ := bind_eq_ok admitted
  obtain ⟨⟨tokens, created⟩, creating, admitted⟩ := bind_eq_ok admitted
  cases admitted
  exact ⟨stored, cfg, subject, getRow_ok_iff.mp (mapError_ok_iff.mp got), configured, creating⟩

theorem loginWithClientCert_ok_iff {certs : List ClientCertificate}
    {After : TokenStore → Prop} :
    (∃ result, loginWithClientCert service state clock locked tokenID certs = .ok result ∧
        After result.1.tokens) ↔
      locked = false ∧ ∃ leaf rest, certs = leaf :: rest ∧
        ¬ (clock.before leaf.notBefore = true ∨ clock.after leaf.notAfter = true) ∧
        certIdentity leaf ≠ "" ∧
        certPolicies service state.roles (certIdentity leaf) ≠ [] ∧
        ∃ issued, state.tokens.issue clock tokenID ("cert:" ++ certIdentity leaf)
          (certPolicies service state.roles (certIdentity leaf)) = .ok issued ∧
          After issued.1 := by
  constructor
  · rintro ⟨result, admitted, after⟩
    unfold loginWithClientCert at admitted
    split at admitted
    · cases admitted
    rename_i unlocked
    split at admitted
    · cases admitted
    rename_i leaf rest
    split at admitted
    · cases admitted
    rename_i current
    split at admitted
    · cases admitted
    rename_i named
    split at admitted
    · cases admitted
    rename_i granted
    obtain ⟨issued, issuing, ended⟩ := bind_eq_ok admitted
    cases ended
    exact ⟨by simpa using unlocked, leaf, rest, rfl, current, named, granted, issued, issuing,
      after⟩
  · rintro ⟨rfl, leaf, rest, rfl, current, named, granted, issued, issuing, after⟩
    simp only [loginWithClientCert, Bool.false_eq_true, if_false, if_neg current, if_neg named,
      if_neg granted, bind, Except.bind, issuing]
    exact ⟨_, rfl, after⟩

end KnxVault.Auth
