import KnxVault.Api.KeyValue
import KnxVault.Auth.Login
import KnxVault.Raft.Snapshot

/-!
# What a restored store authorises

A restored token has lost its agent, its allowed actions, its path and its latest
expiry, a restored role its authentication method and its policy groups, a
restored policy its capabilities and includes, and a restored secret its labels.
`Contained` says, for one attempt and from the store before the export, when the
restored store grants no more than that store does.
-/

namespace KnxVault.Raft

open KnxVault.Std KnxVault.Domain KnxVault.Repository KnxVault.Backup KnxVault.Auth KnxVault.Api
open KnxVault.Engine

variable {lib : Library}

/-- What a client does with a token, at a time. -/
inductive Use where
  | request (clock : Time) (request : Request)
  /-- Renew the token so that it lasts up to an instant. -/
  | renew (clock : Time) (increment upTo : Int)

inductive Login where
  | kubernetes (role jwtToken : String)
  | oidc (role jwtToken : String)
  | clientCert (certs : List ClientCertificate)

/-- Something that a client asks for: to use a token, or to be admitted and then to use the
token that it gets. -/
inductive Attempt where
  | token (tokenID : String) (use : Use)
  | login (locked : Bool) (tokenID : String) (login : Login) (use : Option Use)

/-- The server around a store, and the time of its logins. -/
structure Server where
  platform : Platform
  service : LoginService
  /-- The secrets service, up to what is stored. -/
  secrets : KVServer
  ttl : Int
  range : MapRange
  clock : Time

namespace Server

/-- The policies in force: the built-in ones and the stored ones. -/
def rbac (server : Server) (store : Store lib) : RBAC :=
  .reloadFromPersisted (store.policy.list server.range)

def tokens (server : Server) (store : Store lib) : TokenStore :=
  ⟨store.token, server.ttl⟩

def logins (server : Server) (store : Store lib) : LoginState :=
  ⟨server.tokens store, store.role, store.machineIdentity⟩

/-- The routes find the labels among the stored secrets. -/
def routes (server : Server) (store : Store lib) : Routes where
  tenantMode := server.secrets.tenantMode
  labelsForPath := KVServer.pathLabels { server.secrets with lib, secrets := store.secret }

/-- The server lets a token of a token store be used. -/
def Uses (server : Server) (store : Store lib) (tokens : TokenStore) (tokenID : String) :
    Use → Prop
  | .request clock request =>
    handleRequest server.platform clock (server.rbac store) (server.routes store) tokens tokenID
      request = .ok ()
  | .renew clock increment upTo =>
    ∃ later record, tokens.renewToken clock tokenID increment = .ok (later, record) ∧
      upTo ≤ record.expiresAt.instant

/-- The login of a client and the token store that it leaves. -/
def admits (server : Server) (store : Store lib) (locked : Bool) (tokenID : String) :
    Login → Except KNXVaultError (LoginState × ClientToken)
  | .kubernetes role jwtToken =>
    loginKubernetes server.service (server.logins store) server.clock locked tokenID role jwtToken
  | .oidc role jwtToken =>
    loginOIDC server.service (server.logins store) server.clock locked tokenID role jwtToken
  | .clientCert certs =>
    loginWithClientCert server.service (server.logins store) server.clock locked tokenID certs

/-- The server grants the attempt on the store. -/
def Grants (server : Server) (store : Store lib) : Attempt → Prop
  | .token tokenID use => server.Uses store (server.tokens store) tokenID use
  | .login locked tokenID login use =>
    ∃ result, server.admits store locked tokenID login = .ok result ∧
      ∀ next ∈ use, server.Uses store result.1.tokens tokenID next

/-! ### What a record allows -/

/-- The policies of a record let a request pass, as the store has them. -/
def Authorised (server : Server) (store : Store lib) (record : ClientToken) (clock : Time)
    (request : Request) (ns tenant : String) : Prop :=
  (server.rbac store).authorize server.platform clock record.policies request.resource
    request.capability
    (request.policyContext record ns ((server.routes store).labels tenant request)) = true

/-- What a policy decides when only its actions count and no secret has a label. -/
def bareDecision (server : Server) (store : Store lib) (clock : Time) (request : Request)
    (record : ClientToken) (ns name : String) : Option Effect :=
  match (server.rbac store).policy name with
  | none => none
  | some policy =>
    if policyMatches server.platform clock { policy with capabilities := [] } request.resource
        request.capability (request.policyContext record ns ∅) then some policy.effect
    else none

/-- Some policy that the record lists allows the request and none of them denies it, if only
their actions count and no secret has a label. -/
def BareAuthorised (server : Server) (store : Store lib) (record : ClientToken) (clock : Time)
    (request : Request) (ns : String) : Prop :=
  (∃ name ∈ record.policies, ∃ effect ≠ Effect.deny,
    server.bareDecision store clock request record ns name = some effect) ∧
  ∀ name ∈ record.policies, server.bareDecision store clock request record ns name ≠ some .deny

/-- A record may be used, if `authorised` says what its policies let pass. -/
def Usable (server : Server) (record : ClientToken)
    (authorised : Time → Request → String → String → Prop) : Use → Prop
  | .request clock request =>
    record.revoked = false ∧ clock.utc.after record.expiresAt = false ∧
      ∃ ns tenant, request.Admits server.secrets.tenantMode record.subject ns tenant ∧
        actionAllowedForPrincipal (principalOf record) request.capability = true ∧
        (hasPrefix request.resource "secrets/kv/" = true →
          kvPathAllowedForPrincipal (principalOf record) request.resource = true) ∧
        authorised clock request ns tenant
  | .renew clock increment upTo =>
    record.revoked = false ∧ record.renewable = true ∧
      clock.utc.after record.expiresAt = false ∧
      upTo ≤ (renewedExpiry server.ttl clock (TokenStore.cappedIncrement increment)).instant ∧
      (record.maxExpiresAt.isZero = false → upTo ≤ record.maxExpiresAt.instant)

/-- A record may be used with the policies as they are. -/
def Allows (server : Server) (store : Store lib) (record : ClientToken) : Use → Prop :=
  server.Usable record (server.Authorised store record)

/-- A record may be used with the bare policies. -/
def BareAllows (server : Server) (store : Store lib) (record : ClientToken) : Use → Prop :=
  server.Usable record fun clock request ns _ =>
    server.BareAuthorised store record clock request ns

/-- The token of an admitted client. -/
def issued (server : Server) (tokenID subject : String) (policies : List String) : ClientToken :=
  TokenStore.issuedToken server.clock ⟨.empty, server.ttl⟩ tokenID subject policies

/-- The policies of a client certificate without the groups of its role. -/
def bareCertPolicies (server : Server) (store : Store lib) (identity : String) : List String :=
  match store.role.find identity with
  | some stored => stored.policies
  | none => server.service.defaultPolicies

/-- When the restored store grants an attempt only if the store itself does: what the record
that comes back may do with bare policies, the record itself may do with the policies as they
are, and a role that a service account is bound to is meant for Kubernetes. -/
def Contained (server : Server) (store : Store lib) : Attempt → Prop
  | .token tokenID use => ∀ record, store.token.find tokenID = some record →
      server.BareAllows store (restoredToken record) use → server.Allows store record use
  | .login locked tokenID (.kubernetes role jwtToken) use => ∀ identity subject stored,
      server.service.nhi = false → locked = false → jwtToken ≠ "" → role ≠ "" → tokenID ≠ "" →
      server.service.validateKubernetesJWT role jwtToken = .ok (identity, subject) →
      store.role.find role = some stored → matchServiceAccountBinding stored identity = .ok () →
      (∀ next ∈ use,
        server.BareAllows store (server.issued tokenID subject stored.policies) next) →
      (stored.authMethod = "" ∨ stored.authMethod = authMethodKubernetes) ∧
        ∀ next ∈ use, server.Allows store (server.issued tokenID subject
          (flattenRolePolicies stored.policies stored.policyGroups)) next
  | .login _ _ (.oidc ..) _ => True
  | .login locked tokenID (.clientCert certs) use => ∀ leaf rest, locked = false →
      tokenID ≠ "" → certs = leaf :: rest →
      ¬ (server.clock.before leaf.notBefore = true ∨ server.clock.after leaf.notAfter = true) →
      certIdentity leaf ≠ "" → server.bareCertPolicies store (certIdentity leaf) ≠ [] →
      (∀ next ∈ use, server.BareAllows store (server.issued tokenID
        ("cert:" ++ certIdentity leaf)
        (server.bareCertPolicies store (certIdentity leaf))) next) →
      ∀ next ∈ use, server.Allows store (server.issued tokenID ("cert:" ++ certIdentity leaf)
        (certPolicies server.service store.role (certIdentity leaf))) next

theorem uses_iff {server : Server} {store : Store lib} {tokens : TokenStore} {tokenID : String}
    {use : Use} (lifetime : tokens.ttl = server.ttl) :
    server.Uses store tokens tokenID use ↔
      ∃ record, tokens.repo.find tokenID = some record ∧ server.Allows store record use := by
  cases use with
  | request clock request =>
    rw [Uses, handleRequest_ok_iff]
    simp only [TokenStore.authenticate_ok_iff, Allows, Usable, Authorised, and_assoc,
      exists_and_left]
    rfl
  | renew clock increment upTo =>
    rw [Uses, TokenStore.renewToken_reaches_iff]
    simp only [Allows, Usable, lifetime]

/-! ### The policies that come back -/

theorem policy_rbac (server : Server) (store : Store lib) (name : String) :
    (server.rbac store).policy name = (store.policy.find name).or (RBAC.new.policy name) := by
  rw [rbac, RBAC.reloadFromPersisted, RBAC.policy_foldl_upsertPolicy, PolicyRepository.list,
    find?_reverse_listBy]

end Server

section Restored

variable {through : Option StringMap → Option StringMap} {range : MapRange} {loadEnv : Env}
  {entries : List Entry} {snapshot : Snapshot} {store later : Store lib} {server : Server}

/-- A stored policy comes back with another identifier and without capabilities
and includes. -/
theorem policy_restored (records : snapshot.policies =
      (store.policy.list range).map policyFromDomain)
    (restored : Restored through loadEnv store.toRepos entries snapshot later.toRepos)
    (name : String) :
    (store.policy.find name = none → later.policy.find name = none) ∧
      ∀ policy, store.policy.find name = some policy →
        ∃ id, later.policy.find name = some { restoredPolicy policy with id } := by
  constructor
  · intro missing
    refine Option.eq_none_iff_forall_ne_some.mpr fun policy found => ?_
    obtain rfl := Table.key_of_find found
    obtain ⟨numbered, listed, rfl⟩ := (restored.policy policy).mp found
    have inRecords := List.fst_mem_of_mem_zipIdx listed
    rw [records] at inRecords
    obtain ⟨source, inList, same⟩ := List.mem_map.mp inRecords
    have stored : store.policy.find source.name = some source := mem_listBy.mp inList
    rw [PolicyRepository.name_withID, ← same] at missing
    rw [show (policyToDomain (policyFromDomain source)).name = source.name from rfl] at missing
    rw [missing] at stored
    cases stored
  · intro policy found
    obtain rfl := Table.key_of_find found
    have inRecords : policyFromDomain policy ∈ snapshot.policies :=
      records ▸ List.mem_map_of_mem (mem_listBy.mpr found)
    obtain ⟨index, placed⟩ := List.mem_iff_getElem?.mp inRecords
    have listed : (policyFromDomain policy, index) ∈ snapshot.policies.zipIdx :=
      List.mem_zipIdx_iff_getElem?.mpr placed
    exact ⟨(loadEnv.newUUID index).1, (restored.policy _).mpr ⟨_, listed, rfl⟩⟩

/-- The restored policies decide by their actions alone. -/
theorem decision_restored (records : snapshot.policies =
      (store.policy.list range).map policyFromDomain)
    (restored : Restored through loadEnv store.toRepos entries snapshot later.toRepos)
    (clock : Time) (request : Request) (record : ClientToken) (ns name : String) :
    (server.rbac later).decision server.platform clock request.resource request.capability
        (request.policyContext record ns ∅) name =
      server.bareDecision store clock request record ns name := by
  obtain ⟨missing, present⟩ := policy_restored records restored name
  unfold RBAC.decision Server.bareDecision
  rw [Server.policy_rbac, Server.policy_rbac]
  cases found : store.policy.find name with
  | none =>
    rw [missing found, Option.none_or]
    cases builtin : RBAC.new.policy name with
    | none => rfl
    | some policy =>
      have plain : ({ policy with capabilities := [] } : Policy) = policy := by
        rw [← (RBAC.policy_new builtin).1]
      simp only [plain]
  | some policy =>
    obtain ⟨id, back⟩ := present policy found
    rw [back]
    rfl

/-- Restored policies include nothing. -/
theorem mem_resolve_restored (records : snapshot.policies =
      (store.policy.list range).map policyFromDomain)
    (restored : Restored through loadEnv store.toRepos entries snapshot later.toRepos)
    {names : List String} {name : String} :
    name ∈ (server.rbac later).resolvePolicyNames names ↔ name ∈ names := by
  have none : ∀ name, (server.rbac later).includesOf name = [] := by
    intro name
    obtain ⟨missing, present⟩ := policy_restored records restored name
    unfold RBAC.includesOf
    rw [Server.policy_rbac]
    cases found : store.policy.find name with
    | none =>
      rw [missing found, Option.none_or]
      cases builtin : RBAC.new.policy name with
      | none => rfl
      | some policy => exact (RBAC.policy_new builtin).2
    | some policy =>
      obtain ⟨id, back⟩ := present policy found
      rw [back]
      rfl
  rw [RBAC.mem_resolvePolicyNames_iff, reached_of_leaves _ none]

/-- No restored secret has a label. -/
theorem labels_restored
    (restored : Restored through loadEnv store.toRepos entries snapshot later.toRepos)
    (tenant : String) (request : Request) : (server.routes later).labels tenant request = ∅ := by
  have unlabelled : ∀ key secret, later.secret.find key = some secret → secret.labels = ∅ := by
    intro key secret found
    obtain ⟨stored, -, rfl⟩ := Option.map_eq_some_iff.mp ((restored.secret key).symm.trans found)
    rfl
  unfold Routes.labels
  split
  · rfl
  · simp only [Server.routes, KVServer.pathLabels]
    split
    · rfl
    · rename_i labels loaded
      obtain ⟨path, -, loaded⟩ := bind_eq_ok loaded
      obtain ⟨entry, described, loaded⟩ := bind_eq_ok loaded
      cases loaded
      exact KVV2Engine.labels_of_getMetadata unlabelled described

variable {tokenID : String}

/-- After the restore a token may be used as its record allows with bare policies. -/
theorem uses_restored_iff
    (records : snapshot.policies = (store.policy.list range).map policyFromDomain)
    (restored : Restored through loadEnv store.toRepos entries snapshot later.toRepos)
    {tokens : TokenStore} {use : Use} (lifetime : tokens.ttl = server.ttl) :
    server.Uses later tokens tokenID use ↔
      ∃ record, tokens.repo.find tokenID = some record ∧ server.BareAllows store record use := by
  rw [Server.uses_iff lifetime]
  refine exists_congr fun record => and_congr_right fun _ => ?_
  cases use with
  | request clock request =>
    have decided : ∀ ns tenant, server.Authorised later record clock request ns tenant ↔
        server.BareAuthorised store record clock request ns := by
      intro ns tenant
      rw [Server.Authorised, RBAC.authorize_iff, labels_restored restored]
      simp only [mem_resolve_restored records restored, decision_restored records restored,
        Server.BareAuthorised]
    simp only [Server.Allows, Server.BareAllows, Server.Usable, decided]
  | renew clock increment upTo => rfl

/-! ### Attempts one by one -/

theorem contained_token
    (records : snapshot.policies = (store.policy.list range).map policyFromDomain)
    (restored : Restored through loadEnv store.toRepos entries snapshot later.toRepos) {use : Use} :
    (server.Grants later (.token tokenID use) → server.Grants store (.token tokenID use)) ↔
      server.Contained store (.token tokenID use) := by
  rw [Server.Grants, Server.Grants, uses_restored_iff records restored rfl, Server.uses_iff rfl]
  constructor
  · intro narrower record stored allowed
    have found : later.token.find tokenID = some (restoredToken record) := by
      rw [restored.token tokenID, stored, Option.map_some]
    obtain ⟨record', stored', granted⟩ := narrower ⟨_, found, allowed⟩
    obtain rfl := Option.some.inj (stored.symm.trans stored')
    exact granted
  · rintro contained ⟨_, found, allowed⟩
    obtain ⟨record, stored, rfl⟩ := Option.map_eq_some_iff.mp
      ((restored.token tokenID).symm.trans found)
    exact ⟨record, stored, contained record stored allowed⟩

/-- A stored role of a restorable store has a policy whose name is not empty. -/
theorem flatten_of_restorable (restorable : Restorable store.toRepos entries) {role : Role}
    (stored : store.role.find role.name = some role) (groups : List String) :
    flattenRolePolicies role.policies groups ≠ [] := by
  have valid : role.validate = .ok () := store.role.valid stored
  obtain ⟨name, listed⟩ := List.exists_mem_of_ne_nil _ (Role.required valid).2
  obtain ⟨policy, found⟩ := Option.isSome_iff_exists.mp
    (restorable.rolePolicies stored name listed)
  obtain rfl := Table.key_of_find found
  have named := Policy.name_required (store.policy.valid found).1
  exact List.ne_nil_of_mem (mem_flattenRolePolicies listed named)

theorem checkIdentity_empty {service : LoginService} {id : String} :
    checkIdentity service .empty id = .ok () ↔ service.nhi = false := by
  cases checked : service.nhi <;>
    simp [checkIdentity, checked, MachineIdentityRepository.get, getRow]

variable {use : Option Use} {Of : ClientToken → Use → Prop}

/-- A login that issues a token grants what the record of the token allows. -/
theorem uses_issued_iff {subject : String} {policies : List String}
    (reads : ∀ (tokens : TokenStore) next, tokens.ttl = server.ttl →
      (server.Uses later tokens tokenID next ↔
        ∃ record, tokens.repo.find tokenID = some record ∧ Of record next)) :
    (∃ result, (server.tokens store).issue server.clock tokenID subject policies = .ok result ∧
        ∀ next ∈ use, server.Uses later result.1 tokenID next) ↔
      tokenID ≠ "" ∧ ∀ next ∈ use, Of (server.issued tokenID subject policies) next := by
  have key : (server.issued tokenID subject policies).id = tokenID := createdToken_id ..
  constructor
  · rintro ⟨⟨after, record⟩, issuing, granted⟩
    obtain ⟨rfl, named, rfl⟩ := (TokenStore.issue_iff _).mp issuing
    have own := Table.find_put_self (server.tokens store).repo _ named
    refine ⟨key ▸ named, fun next mem => ?_⟩
    obtain ⟨record, found, allowed⟩ := (reads _ next rfl).mp (granted next mem)
    have same : some (server.issued tokenID subject policies) = some record :=
      own.symm.trans ((congrArg _ key).trans found)
    cases same
    exact allowed
  · rintro ⟨filled, allowed⟩
    have named : (server.issued tokenID subject policies).id ≠ "" := key.symm ▸ filled
    have own := Table.find_put_self (server.tokens store).repo _ named
    refine ⟨(_, _), (TokenStore.issue_iff _).mpr ⟨rfl, named, rfl⟩, fun next mem => ?_⟩
    exact (reads _ next rfl).mpr ⟨_, (congrArg _ key.symm).trans own, allowed next mem⟩

variable {locked : Bool} {role jwtToken : String}

theorem grants_kubernetes_iff
    (reads : ∀ (tokens : TokenStore) next, tokens.ttl = server.ttl →
      (server.Uses store tokens tokenID next ↔
        ∃ record, tokens.repo.find tokenID = some record ∧ Of record next)) :
    server.Grants store (.login locked tokenID (.kubernetes role jwtToken) use) ↔
      locked = false ∧ jwtToken ≠ "" ∧ role ≠ "" ∧ ∃ identity subject stored,
        server.service.validateKubernetesJWT role jwtToken = .ok (identity, subject) ∧
        store.role.find role = some stored ∧
        (stored.authMethod = "" ∨ stored.authMethod = authMethodKubernetes) ∧
        matchServiceAccountBinding stored identity = .ok () ∧
        flattenRolePolicies stored.policies stored.policyGroups ≠ [] ∧
        checkIdentity server.service store.machineIdentity
          (nhiKey "k8s_sa" identity.namespace identity.name subject) = .ok () ∧
        tokenID ≠ "" ∧ ∀ next ∈ use, Of (server.issued tokenID subject
          (flattenRolePolicies stored.policies stored.policyGroups)) next := by
  refine (@loginKubernetes_ok_iff server.service (server.logins store) server.clock locked tokenID
    role jwtToken fun tokens => ∀ next ∈ use, server.Uses store tokens tokenID next).trans ?_
  simp only [Server.logins, uses_issued_iff reads]

theorem contained_kubernetes
    (records : snapshot.policies = (store.policy.list range).map policyFromDomain)
    (restorable : Restorable store.toRepos entries)
    (restored : Restored through loadEnv store.toRepos entries snapshot later.toRepos)
    (identities : later.machineIdentity = .empty) :
    (server.Grants later (.login locked tokenID (.kubernetes role jwtToken) use) →
        server.Grants store (.login locked tokenID (.kubernetes role jwtToken) use)) ↔
      server.Contained store (.login locked tokenID (.kubernetes role jwtToken) use) := by
  rw [grants_kubernetes_iff fun _ _ => uses_restored_iff records restored,
    grants_kubernetes_iff fun _ _ => Server.uses_iff]
  simp only [identities, checkIdentity_empty]
  constructor
  · intro narrower identity subject stored off unlocked filled named hashed validated found bound
      allowed
    obtain rfl := Table.key_of_find found
    have back : later.role.find stored.name = some (restoredRole stored) := by
      rw [restored.role, found, Option.map_some]
    obtain ⟨-, -, -, identity', subject', stored', validated',
      found', method, -, -, -, -, granted⟩ :=
      narrower ⟨unlocked, filled, named, identity, subject, restoredRole stored, validated, back,
        .inl rfl, bound, flatten_of_restorable restorable found [], off, hashed, allowed⟩
    obtain rfl := Option.some.inj (found.symm.trans found')
    obtain ⟨rfl, rfl⟩ := Prod.mk.inj (Except.ok.inj (validated.symm.trans validated'))
    exact ⟨method, granted⟩
  · rintro contained ⟨unlocked, filled, named, identity, subject, _, validated, back, -, bound, -,
      off, hashed, allowed⟩
    obtain ⟨stored, found, rfl⟩ := Option.map_eq_some_iff.mp
      ((restored.role role).symm.trans back)
    obtain rfl := Table.key_of_find found
    obtain ⟨method, granted⟩ := contained identity subject stored off unlocked filled named hashed
      validated found bound allowed
    exact ⟨unlocked, filled, named, identity, subject, stored, validated, found, method, bound,
      flatten_of_restorable restorable found _, by simp [checkIdentity, off], hashed, granted⟩

/-- The restored roles have no OIDC configuration. -/
theorem refused_oidc
    (restored : Restored through loadEnv store.toRepos entries snapshot later.toRepos) :
    ¬ server.Grants later (.login locked tokenID (.oidc role jwtToken) use) := by
  rintro ⟨result, admitted, -⟩
  obtain ⟨_, cfg, _, back, configured, -⟩ := loginOIDC_ok admitted
  obtain ⟨stored, -, rfl⟩ := Option.map_eq_some_iff.mp ((restored.role role).symm.trans back)
  cases configured

/-- Certificates are mapped to the same roles, without their groups. -/
theorem certPolicies_restored
    (restored : Restored through loadEnv store.toRepos entries snapshot later.toRepos)
    (identity : String) :
    certPolicies server.service later.role identity = server.bareCertPolicies store identity := by
  simp only [certPolicies, Server.bareCertPolicies, RoleRepository.get, getRow, restored.role]
  cases store.role.find identity <;> rfl

theorem grants_cert_iff {certs : List ClientCertificate}
    (reads : ∀ (tokens : TokenStore) next, tokens.ttl = server.ttl →
      (server.Uses store tokens tokenID next ↔
        ∃ record, tokens.repo.find tokenID = some record ∧ Of record next)) :
    server.Grants store (.login locked tokenID (.clientCert certs) use) ↔
      locked = false ∧ ∃ leaf rest, certs = leaf :: rest ∧
        ¬ (server.clock.before leaf.notBefore = true ∨
          server.clock.after leaf.notAfter = true) ∧
        certIdentity leaf ≠ "" ∧
        certPolicies server.service store.role (certIdentity leaf) ≠ [] ∧
        tokenID ≠ "" ∧ ∀ next ∈ use, Of (server.issued tokenID ("cert:" ++ certIdentity leaf)
          (certPolicies server.service store.role (certIdentity leaf))) next := by
  refine (@loginWithClientCert_ok_iff server.service (server.logins store) server.clock locked
    tokenID certs fun tokens => ∀ next ∈ use, server.Uses store tokens tokenID next).trans ?_
  simp only [Server.logins, uses_issued_iff reads]

theorem contained_cert
    (records : snapshot.policies = (store.policy.list range).map policyFromDomain)
    (restorable : Restorable store.toRepos entries)
    (restored : Restored through loadEnv store.toRepos entries snapshot later.toRepos)
    {certs : List ClientCertificate} :
    (server.Grants later (.login locked tokenID (.clientCert certs) use) →
        server.Grants store (.login locked tokenID (.clientCert certs) use)) ↔
      server.Contained store (.login locked tokenID (.clientCert certs) use) := by
  rw [grants_cert_iff fun _ _ => uses_restored_iff records restored,
    grants_cert_iff fun _ _ => Server.uses_iff]
  simp only [certPolicies_restored restored]
  constructor
  · intro narrower leaf rest unlocked hashed given current named granted allowed
    obtain ⟨-, leaf', rest', given', -, -, -, -, kept⟩ :=
      narrower ⟨unlocked, leaf, rest, given, current, named, granted, hashed, allowed⟩
    obtain ⟨rfl, -⟩ := List.cons.inj (given.symm.trans given')
    exact kept
  · rintro contained ⟨unlocked, leaf, rest, given, current, named, granted, hashed, allowed⟩
    refine ⟨unlocked, leaf, rest, given, current, named, ?_, hashed,
      contained leaf rest unlocked hashed given current named granted allowed⟩
    simp only [certPolicies, Server.bareCertPolicies, RoleRepository.get, getRow] at granted ⊢
    cases found : store.role.find (certIdentity leaf) with
    | none => simpa [found] using granted
    | some stored =>
      have key : stored.name = certIdentity leaf := Table.key_of_find found
      exact flatten_of_restorable restorable (key ▸ found) _

end Restored

/-- A server without Kubernetes and OIDC logins. -/
def sampleServer : Server where
  platform := plainPlatform
  service := {
    validateKubernetesJWT := fun _ _ =>
      failWith .unauthorized "kubernetes authentication not configured"
    oidc := none
    oidcTTL := 0
    numberAtLeast := fun _ _ => false
    nhi := true
    defaultPolicies := [] }
  secrets := .sample
  ttl := hours 24
  range := MapRange.sorted
  clock := ⟨10, 0⟩

/-- Save the token of an agent that may read below its own path only. -/
def agentToken : Env × Except String Command :=
  (.sample 1, .ok (.write (.tokenSave {
    id := "agent", subject := "agent:x", policies := ["secrets-reader"], expiresAt := ⟨100, 0⟩
    agentID := "x", allowedActions := ["read"], pathPrefix := "agent/x/" })))

def agentStore : Store .sample := run Store.apply (Store.new .sample) [agentToken]

/-- The agent reads a secret. -/
def agentReads (path : String) : Attempt :=
  .token "agent" (.request ⟨10, 0⟩ {
    resource := "secrets/kv/" ++ path, capability := "read", labelPath := some path })

end KnxVault.Raft
