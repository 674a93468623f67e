import KnxVault.Auth.Token
import KnxVault.Std.Run

/-!
# Agent delegation

`delegateAgent` follows `internal/auth/agent.go`. A run of the token store keeps,
as a ghost, which token each agent token was delegated from. Delegation narrows
the set of policies, but a narrower set may lack a deny policy, and nothing ties
the agent to the lifetime, actions, path or namespace of its parent.
-/

namespace KnxVault.Auth

open KnxVault.Std KnxVault.Domain KnxVault.Repository

def defaultAgentTTL : Int := minutes 15

def maxAgentTTL : Int := hours 1

structure AgentDelegateRequest where
  agentID : String
  pathPrefix : String
  allowedActions : List String
  policies : List String
  ttl : Int := 0
deriving DecidableEq, Repr

structure AgentTokenScope where
  parentIdentityID : String
  agentID : String
  allowedActions : List String
  pathPrefix : String

def normalizeAgentPathPrefix (pathPrefix agentID : String) : String :=
  let trimmed := trimBoth (· = '/') (trimSpace pathPrefix)
  -- path traversal falls back to the agent's own directory
  let safe := if containsText trimmed ".." then "" else trimmed
  let chosen := if safe = "" then "agent/" ++ agentID else safe
  let rooted := if hasPrefix chosen "agent/" then chosen else "agent/" ++ chosen
  trimBoth (· = '/') (String.ofList (collapseSlashes rooted.toList)) ++ "/"

example : normalizeAgentPathPrefix " /team//a/ " "bot" = "agent/team/a/" ∧
    normalizeAgentPathPrefix "../etc" "bot" = "agent/bot/" := by decide

/-- The record of an agent's token. -/
def agentToken (clock : Time) (id subject : String) (policies : List String) (ttl : Int)
    (scope : AgentTokenScope) : ClientToken where
  id
  subject
  policies
  expiresAt := clock.utc.add (if ttl ≤ 0 then defaultAgentTTL else ttl)
  renewable := false
  parentIdentityID := scope.parentIdentityID
  agentID := scope.agentID
  allowedActions := scope.allowedActions
  pathPrefix := scope.pathPrefix

def TokenStore.createAgent (store : TokenStore) (clock : Time) (id subject : String)
    (policies : List String) (ttl : Int) (scope : AgentTokenScope) :
    Except KNXVaultError (TokenStore × ClientToken) := do
  let record := agentToken clock id subject policies ttl scope
  let store ← store.save record
  pure (store, record)

/-- Every name a requested policy expands to is among those of the parent. -/
def validateDelegatedPolicies (rbac : RBAC) (parentPolicies requested : List String) :
    Except KNXVaultError Unit :=
  let parentSet := rbac.resolvePolicyNames parentPolicies
  if requested.all fun name => (rbac.resolvePolicyNames [name]).all (· ∈ parentSet) then .ok ()
  else failWith .forbidden "cannot delegate policy outside parent scope"

/-- The lifetime of an agent token, with its default and its cap. -/
def agentTTL (ttl : Int) : Int :=
  let chosen := if ttl ≤ 0 then defaultAgentTTL else ttl
  if chosen > maxAgentTTL then maxAgentTTL else chosen

def parentIdentity (parent : Principal) : String :=
  if parent.subject = "" then parent.tokenID else parent.subject

/-- The scope of the token that is delegated. -/
def delegatedScope (parent : Principal) (req : AgentDelegateRequest) : AgentTokenScope where
  parentIdentityID := parentIdentity parent
  agentID := req.agentID
  allowedActions := req.allowedActions
  pathPrefix := normalizeAgentPathPrefix req.pathPrefix req.agentID

/-- The machine identity that is recorded for the agent. -/
def agentIdentity (parent : Principal) (req : AgentDelegateRequest) : MachineIdentity where
  id := nhiKey "agent" "" "" req.agentID
  type := "agent"
  boundName := req.agentID
  policies := req.policies
  maxTTL := agentTTL req.ttl / nanosecondsPerSecond
  parentIdentityID := parentIdentity parent

/-- The new token and the identity of the agent. -/
structure Delegation where
  store : TokenStore
  record : ClientToken
  identity : MachineIdentity

/-- What is checked before an agent gets its token. -/
def admitDelegation (rbac : RBAC) (parent : Principal) (req : AgentDelegateRequest) :
    Except KNXVaultError Unit :=
  if req.agentID = "" then failWith .validation "agent_id is required"
  else if req.pathPrefix = "" then failWith .validation "path_prefix is required"
  else if req.allowedActions = [] then failWith .validation "allowed_actions is required"
  else if req.policies = [] then
    failWith .validation
      "policies are required for agent delegation (explicit subset of parent policies)"
  else validateDelegatedPolicies rbac parent.policies req.policies

def delegateAgent (rbac : RBAC) (store : TokenStore) (clock : Time) (id : String)
    (parent : Principal) (req : AgentDelegateRequest) : Except KNXVaultError Delegation := do
  admitDelegation rbac parent req
  let (store, record) ← store.createAgent clock id ("agent:" ++ req.agentID) req.policies
    (agentTTL req.ttl) (delegatedScope parent req)
  pure { store, record, identity := agentIdentity parent req }

/-! ### What an accepted delegation establishes -/

theorem validateDelegatedPolicies_ok {rbac : RBAC} {parentPolicies requested : List String}
    (validated : validateDelegatedPolicies rbac parentPolicies requested = .ok ())
    {name : String} (expanded : name ∈ rbac.resolvePolicyNames requested) :
    name ∈ rbac.resolvePolicyNames parentPolicies := by
  obtain ⟨listed, included, expanded⟩ := RBAC.mem_resolvePolicyNames_singleton_iff.mp expanded
  simp only [validateDelegatedPolicies] at validated
  split at validated
  · rename_i all
    have inside := List.all_eq_true.mp (List.all_eq_true.mp all listed included) name expanded
    exact of_decide_eq_true inside
  · cases validated

/-- The agent's policies expand to policies of the parent, and the new token is
stored under its own hash. -/
theorem delegateAgent_ok {rbac : RBAC} {store : TokenStore} {clock : Time} {id : String}
    {parent : Principal} {req : AgentDelegateRequest} {delegation : Delegation}
    (accepted : delegateAgent rbac store clock id parent req = .ok delegation) :
    delegation.record.subject = "agent:" ++ req.agentID ∧
      delegation.record.id = id ∧
      (∃ named : delegation.record.id ≠ "",
        delegation.store = { store with repo := store.repo.put delegation.record named }) ∧
      ∀ name ∈ rbac.resolvePolicyNames delegation.record.policies,
        name ∈ rbac.resolvePolicyNames parent.policies := by
  obtain ⟨_, validated, accepted⟩ := bind_eq_ok accepted
  unfold admitDelegation at validated
  iterate 4
    split at validated
    · cases validated
  obtain ⟨⟨saved, record⟩, created, accepted⟩ := bind_eq_ok accepted
  obtain ⟨_, saving, created⟩ := bind_eq_ok created
  cases created
  cases accepted
  exact ⟨rfl, rfl, TokenStore.save_ok_iff.mp saving,
    fun _ => validateDelegatedPolicies_ok validated⟩

/-! ### Runs of the token store -/

/-- A change of the token store, with its clock reading and the hash of a token
that it draws. -/
inductive TokenCall where
  | create (clock : Time) (id subject : String) (policies : List String) (ttl : Int)
      (renewable : Bool) (maxExpiresAt : Time)
  | delegate (clock : Time) (parent id : String) (req : AgentDelegateRequest)
  | renew (clock : Time) (id : String) (increment : Int)
  | revoke (clock : Time) (id : String)

/-- The token store, and the parent of every delegated token. -/
structure AuthState where
  store : TokenStore
  parentOf : Std.ExtTreeMap String String

namespace AuthState

/-- A call that fails changes nothing. Only an authenticated token delegates. -/
def step (rbac : RBAC) (state : AuthState) : TokenCall → AuthState
  | .create clock id subject policies ttl renewable maxExpiresAt =>
    match state.store.create clock id subject policies ttl renewable maxExpiresAt with
    | .ok (store, _) => { state with store }
    | .error _ => state
  | .delegate clock parent id req =>
    match state.store.authenticate clock parent with
    | .error _ => state
    | .ok record =>
      match delegateAgent rbac state.store clock id (principalOf record) req with
      | .ok delegation =>
        { store := delegation.store, parentOf := state.parentOf.insert id parent }
      | .error _ => state
  | .renew clock id increment =>
    match state.store.renew clock id increment with
    | .ok (store, _) => { state with store }
    | .error _ => state
  | .revoke clock id =>
    match state.store.revoke clock id with
    | .ok store => { state with store }
    | .error _ => state

/-- A drawn token is not in use yet. -/
def Draws (state : AuthState) : TokenCall → Prop
  | .create _ id .. => state.store.repo.find id = none
  | .delegate _ _ id _ => state.store.repo.find id = none
  | .renew .. | .revoke .. => True

/-- Every stored token stays, with its subject, policies and scope. -/
def Keeps (before after : AuthState) : Prop :=
  ∀ (id : String) (record : ClientToken), before.store.repo.find id = some record →
    ∃ expiresAt revoked, after.store.repo.find id = some { record with expiresAt, revoked }

theorem Keeps.refl (state : AuthState) : state.Keeps state :=
  fun _ _ found => ⟨_, _, found⟩

variable {before after : AuthState}

theorem Keeps.put_fresh {record : ClientToken} (named : record.id ≠ "")
    (fresh : before.store.repo.find record.id = none)
    (put : after.store.repo = before.store.repo.put record named) : before.Keeps after := by
  intro id stored found
  refine ⟨stored.expiresAt, stored.revoked, ?_⟩
  rw [put, Table.find_put, if_neg]
  · exact found
  · rintro rfl
    rw [fresh] at found
    cases found

theorem Keeps.put_changed {id : String} {record : ClientToken} {expiresAt : Time} {revoked : Bool}
    (found : before.store.repo.find id = some record) (named : record.id ≠ "")
    (put : after.store.repo = before.store.repo.put { record with expiresAt, revoked } named) :
    before.Keeps after := by
  intro other stored present
  rw [put, Table.find_put]
  by_cases same : record.id = other
  · refine ⟨expiresAt, revoked, ?_⟩
    have named := Table.key_of_find found
    rw [← same, named, found, Option.some.injEq] at present
    rw [if_pos same, present]
  · exact ⟨stored.expiresAt, stored.revoked, by rw [if_neg same]; exact present⟩

theorem step_keeps (rbac : RBAC) (state : AuthState) (call : TokenCall) (draws : state.Draws call) :
    state.Keeps (state.step rbac call) := by
  cases call with
  | create clock id subject policies ttl renewable maxExpiresAt =>
    simp only [step]
    split
    · rename_i store record created
      obtain ⟨_, saved, returned⟩ := bind_eq_ok created
      cases returned
      obtain ⟨named, put⟩ := TokenStore.save_ok_iff.mp saved
      refine .put_fresh named ?_ (congrArg TokenStore.repo put)
      rw [createdToken_id]
      exact draws
    · exact .refl state
  | delegate clock parent id req =>
    simp only [step]
    split
    · exact .refl state
    · split
      · rename_i accepted
        obtain ⟨-, named, ⟨nonempty, stored⟩, -⟩ := delegateAgent_ok accepted
        exact .put_fresh nonempty (named ▸ draws) (congrArg TokenStore.repo stored)
      · exact .refl state
  | renew clock id increment =>
    simp only [step]
    split
    · rename_i store record renewed
      unfold TokenStore.renew TokenRepository.get getRow at renewed
      cases found : state.store.repo.find id with
      | none => simp [found] at renewed
      | some stored =>
        simp only [found] at renewed
        iterate 3
          split at renewed
          · cases renewed
        obtain ⟨_, saved, returned⟩ := bind_eq_ok renewed
        cases returned
        obtain ⟨named, put⟩ := TokenStore.save_ok_iff.mp saved
        exact .put_changed found named (congrArg TokenStore.repo put)
    · exact .refl state
  | revoke clock id =>
    simp only [step]
    split
    · rename_i store revoked
      unfold TokenStore.revoke at revoked
      split at revoked
      · split at revoked <;> cases revoked
      · rename_i repo changed
        obtain ⟨stored, found, put⟩ := changeRow_ok_iff.mp changed
        cases revoked
        exact .put_changed found (state.store.repo.valid found) put
    · exact .refl state

/-- Every delegated token and its parent are stored, and what the agent's
policies expand to is among what the parent's expand to. -/
def Lineage (rbac : RBAC) (state : AuthState) : Prop :=
  ∀ child parent : String, state.parentOf[child]? = some parent →
    ∃ agent principal, state.store.repo.find child = some agent ∧
      state.store.repo.find parent = some principal ∧
      (∃ agentID, agent.subject = "agent:" ++ agentID) ∧
      ∀ name ∈ rbac.resolvePolicyNames agent.policies,
        name ∈ rbac.resolvePolicyNames principal.policies

variable {rbac : RBAC}

/-- Lineage only looks at what the store keeps. -/
theorem Lineage.kept (lineage : before.Lineage rbac) (keeps : before.Keeps after)
    {child parent : String} (delegated : before.parentOf[child]? = some parent) :
    ∃ agent principal, after.store.repo.find child = some agent ∧
      after.store.repo.find parent = some principal ∧
      (∃ agentID, agent.subject = "agent:" ++ agentID) ∧
      ∀ name ∈ rbac.resolvePolicyNames agent.policies,
        name ∈ rbac.resolvePolicyNames principal.policies := by
  obtain ⟨agent, principal, foundAgent, foundPrincipal, subject, narrower⟩ :=
    lineage child parent delegated
  obtain ⟨_, _, keptAgent⟩ := keeps child agent foundAgent
  obtain ⟨_, _, keptPrincipal⟩ := keeps parent principal foundPrincipal
  exact ⟨_, _, keptAgent, keptPrincipal, subject, narrower⟩

theorem step_lineage (rbac : RBAC) (state : AuthState) (call : TokenCall)
    (draws : state.Draws call) (lineage : state.Lineage rbac) :
    (state.step rbac call).Lineage rbac := by
  have keeps := state.step_keeps rbac call draws
  cases call with
  | create | renew | revoke =>
    intro child parent delegated
    refine lineage.kept keeps ?_
    simp only [step] at delegated
    split at delegated <;> exact delegated
  | delegate clock origin id req =>
    simp only [step] at keeps ⊢
    cases authenticated : state.store.authenticate clock origin with
    | error err => exact lineage
    | ok record =>
      simp only [authenticated] at keeps ⊢
      cases accepted : delegateAgent rbac state.store clock id (principalOf record) req with
      | error err => exact lineage
      | ok delegation =>
        simp only [accepted] at keeps ⊢
        intro child parent delegated
        simp only [getElem?_insert] at delegated
        split at delegated
        · rename_i new
          cases delegated
          subst new
          obtain ⟨subject, named, ⟨nonempty, stored⟩, narrower⟩ := delegateAgent_ok accepted
          have found := ((TokenStore.authenticate_ok_iff clock).mp authenticated).1
          obtain ⟨_, _, kept⟩ := keeps origin record found
          refine ⟨delegation.record, _, ?_, kept, ⟨_, subject⟩, narrower⟩
          rw [stored, ← named]
          exact Table.find_put_self state.store.repo delegation.record nonempty
        · exact lineage.kept keeps delegated

/-- `child` was delegated from `parent`. -/
def DelegatedFrom (state : AuthState) (parent child : String) : Prop :=
  state.parentOf[child]? = some parent

/-- Along a chain of delegations the policies only get fewer. -/
theorem Lineage.chain {state : AuthState} (lineage : state.Lineage rbac)
    {ancestor descendant : String}
    (chain : Relation.TransGen state.DelegatedFrom ancestor descendant) :
    ∃ agent principal, state.store.repo.find descendant = some agent ∧
      state.store.repo.find ancestor = some principal ∧
      (∃ agentID, agent.subject = "agent:" ++ agentID) ∧
      ∀ name ∈ rbac.resolvePolicyNames agent.policies,
        name ∈ rbac.resolvePolicyNames principal.policies := by
  induction chain with
  | single delegated => exact lineage _ _ delegated
  | tail _ delegated ih =>
    obtain ⟨middle, principal, foundMiddle, foundPrincipal, -, outer⟩ := ih
    obtain ⟨agent, parent, foundAgent, foundParent, subject, inner⟩ := lineage _ _ delegated
    rw [foundMiddle, Option.some.injEq] at foundParent
    subst foundParent
    exact ⟨agent, principal, foundAgent, foundPrincipal, subject,
      fun name expanded => outer name (inner name expanded)⟩

/-- A token that may still make the request apart from the need of an allow
policy: it is active, speaks for its namespace, its own scope covers the request,
and none of its policies denies it. -/
def InForce (platform : Platform) (clock : Time) (rbac : RBAC) (routes : Routes)
    (store : TokenStore) (id : String) (request : Request) : Prop :=
  ∃ record ns tenant, store.authenticate clock id = .ok record ∧
    request.Admits routes.tenantMode record.subject ns tenant ∧
    actionAllowedForPrincipal (principalOf record) request.capability = true ∧
    (hasPrefix request.resource "secrets/kv/" = true →
      kvPathAllowedForPrincipal (principalOf record) request.resource = true) ∧
    ∀ name ∈ rbac.resolvePolicyNames record.policies,
      rbac.decision platform clock request.resource request.capability
        (request.policyContext record ns (routes.labels tenant request)) name ≠ some .deny

/-- Where an agent is admitted, every other subject has the same tenant. -/
theorem tenant_of_agent {tenantMode : Bool} {request : Request}
    {agentID subject ns ns' tenant tenant' : String}
    (agent : request.Admits tenantMode ("agent:" ++ agentID) ns tenant)
    (other : request.Admits tenantMode subject ns' tenant') : tenant' = tenant := by
  obtain ⟨-, enforced⟩ := agent
  obtain ⟨resolved', enforced'⟩ := other
  unfold tenantEnforcement at enforced enforced'
  cases tenantMode with
  | false =>
    simp only [Bool.not_false, if_true] at enforced enforced'
    exact (Except.ok.inj enforced').symm.trans (Except.ok.inj enforced)
  | true =>
    -- the agent names a namespace, so the header does, and no other one is accepted
    simp only [Bool.not_true, Bool.false_eq_true, if_false, resolveTenantNamespace_agent,
      resolved', bind, Except.bind] at enforced enforced'
    split at enforced
    · cases enforced
    rename_i named
    split at enforced'
    · cases enforced'
    obtain same | blank := resolveTenantNamespace_ok resolved'
    · rw [← same] at enforced'
      exact (Except.ok.inj enforced').symm.trans (Except.ok.inj enforced)
    · exact absurd blank named

/-- A policy that allows the agent allows every token whose namespace resolves. -/
theorem decision_transfer {platform : Platform} {clock : Time} {request : Request}
    {labels : StringMap} (noAgent : rbac.NoAgentConditions) {agent principal : ClientToken}
    {ns name : String} {effect : Effect}
    (resolved : resolveTenantNamespace request.namespaceHeader principal.subject = .ok ns)
    (decided : rbac.decision platform clock request.resource request.capability
      (request.policyContext agent (trimSpace request.namespaceHeader) labels) name =
        some effect) :
    rbac.decision platform clock request.resource request.capability
      (request.policyContext principal ns labels) name = some effect := by
  unfold RBAC.decision at decided ⊢
  cases stored : rbac.policy name with
  | none => simp [stored] at decided
  | some policy =>
    simp only [stored, policyMatches, Option.ite_none_right_eq_some, Bool.and_eq_true] at decided ⊢
    obtain ⟨⟨covered, conditions⟩, same⟩ := decided
    have renamed := @conditionsMatch_renamed policy.conditions platform clock
      (request.policyContext agent (trimSpace request.namespaceHeader) labels) ns
      principal.agentID (noAgent name policy stored) (resolveTenantNamespace_ok resolved)
      conditions
    exact ⟨⟨covered, renamed⟩, same⟩

/-- Whatever a delegated token may do, at any later time and through any chain
of delegations, its ancestor may do exactly if the ancestor is still in force:
active, within its own scope and not denied. Delegation itself only ensures that
some policy of the ancestor allows the request. -/
theorem delegated_authorised_iff (platform : Platform) (rbac : RBAC) (routes : Routes)
    (noAgent : rbac.NoAgentConditions) (start : TokenStore) (calls : List TokenCall)
    (draws : AllSteps (step rbac) Draws ⟨start, ∅⟩ calls) (ancestor descendant : String)
    (chain : Relation.TransGen (run (step rbac) ⟨start, ∅⟩ calls).DelegatedFrom ancestor descendant)
    (clock : Time) (request : Request)
    (authorised : handleRequest platform clock rbac routes
      (run (step rbac) ⟨start, ∅⟩ calls).store descendant request = .ok ()) :
    handleRequest platform clock rbac routes (run (step rbac) ⟨start, ∅⟩ calls).store ancestor
        request = .ok () ↔
      InForce platform clock rbac routes (run (step rbac) ⟨start, ∅⟩ calls).store ancestor
        request := by
  have lineage : (run (step rbac) ⟨start, ∅⟩ calls).Lineage rbac :=
    draws.invariant (step_lineage rbac) (by simp [Lineage])
  generalize run (step rbac) ⟨start, ∅⟩ calls = state at *
  obtain ⟨agent, principal, foundAgent, foundPrincipal, ⟨agentID, subject⟩, narrower⟩ :=
    lineage.chain chain
  rw [handleRequest_ok_iff]
  constructor
  · rintro ⟨record, ns, tenant, authenticated, admitted, action, path, allowed⟩
    exact ⟨record, ns, tenant, authenticated, admitted, action, path,
      (RBAC.authorize_iff.mp allowed).2⟩
  · rintro ⟨record, ns, tenant, authenticated, admitted, action, path, undenied⟩
    refine ⟨record, ns, tenant, authenticated, admitted, action, path,
      RBAC.authorize_iff.mpr ⟨?_, undenied⟩⟩
    obtain ⟨active, agentNs, agentTenant, activeAgent, agentAdmitted, -, -, agentAllowed⟩ :=
      handleRequest_ok_iff.mp authorised
    have agentStored := ((TokenStore.authenticate_ok_iff clock).mp activeAgent).1
    have principalStored := ((TokenStore.authenticate_ok_iff clock).mp authenticated).1
    rw [foundAgent, Option.some.injEq] at agentStored
    rw [foundPrincipal, Option.some.injEq] at principalStored
    subst agentStored principalStored
    rw [subject] at agentAdmitted
    obtain rfl := tenant_of_agent agentAdmitted admitted
    have agentResolved := agentAdmitted.1
    rw [resolveTenantNamespace_agent, Except.ok.injEq] at agentResolved
    subst agentResolved
    obtain ⟨⟨name, expanded, effect, allows, decided⟩, -⟩ := RBAC.authorize_iff.mp agentAllowed
    exact ⟨name, narrower name expanded, effect, allows,
      decision_transfer noAgent admitted.1 decided⟩

/-- Reading secrets is allowed, except those with a label. -/
def readerUnlessRestricted : RBAC :=
  (RBAC.upsertPolicy ⟨∅⟩ (allowPolicy "reader" ["secrets/*"] ["read"])).upsertPolicy {
    name := "no-restricted", effect := .deny, resources := ["secrets/*"], actions := ["*"]
    conditions := (∅ : Fields).insert "resource_label" (.string "class")
      |>.insert "resource_label_value" (.string "restricted") }

/-- One secret has the label. -/
def labelledRoutes : Routes where
  labelsForPath _ path :=
    if path = "agent/x/db" then (∅ : StringMap).insert "class" "restricted" else ∅

/-- A token that holds both policies. -/
def readerStore : TokenStore where
  repo := Table.empty.put {
    id := "parent", subject := "user", policies := ["reader", "no-restricted"]
    expiresAt := ⟨100, 0⟩ } (by decide)
  ttl := hours 24

/-- It delegates the allow policy alone. -/
def delegateReader : TokenCall :=
  .delegate ⟨10, 0⟩ "parent" "child" {
    agentID := "x", pathPrefix := "agent/x", allowedActions := ["read"], policies := ["reader"] }

def delegatedState : AuthState :=
  run (step readerUnlessRestricted) ⟨readerStore, ∅⟩ [delegateReader]

/-- Reading a secret below the path of the agent. -/
def readAgentSecret (name : String) : Request where
  resource := "secrets/kv/agent/x/" ++ name
  capability := "read"
  labelPath := some ("agent/x/" ++ name)

theorem readerUnlessRestricted_noAgentConditions : readerUnlessRestricted.NoAgentConditions := by
  intro name policy stored
  simp only [readerUnlessRestricted, RBAC.policy, RBAC.upsertPolicy, getElem?_insert] at stored
  split at stored
  · cases stored; simp
  · split at stored
    · cases stored; simp [allowPolicy]
    · simp at stored

theorem delegateReader_delegates : delegatedState.DelegatedFrom "parent" "child" := by
  unfold DelegatedFrom delegatedState
  decide +kernel

/-- Where no deny policy matches, the parent of the agent is in force. -/
theorem delegated_authorised_api :
    InForce plainPlatform ⟨20, 0⟩ readerUnlessRestricted labelledRoutes delegatedState.store
      "parent" (readAgentSecret "api") :=
  (delegated_authorised_iff plainPlatform readerUnlessRestricted labelledRoutes
    readerUnlessRestricted_noAgentConditions readerStore [delegateReader]
    ⟨by unfold Draws delegateReader; decide, trivial⟩ "parent" "child"
    (.single delegateReader_delegates) ⟨20, 0⟩ (readAgentSecret "api") (by decide +kernel)).mp
      (by decide +kernel)

/-- The agent reads what a deny policy of its parent forbids the parent. -/
theorem delegation_drops_deny :
    readerUnlessRestricted.NoAgentConditions ∧
    AllSteps (step readerUnlessRestricted) Draws ⟨readerStore, ∅⟩ [delegateReader] ∧
    delegatedState.DelegatedFrom "parent" "child" ∧
    handleRequest plainPlatform ⟨20, 0⟩ readerUnlessRestricted labelledRoutes
      delegatedState.store "child" (readAgentSecret "db") = .ok () ∧
    handleRequest plainPlatform ⟨20, 0⟩ readerUnlessRestricted labelledRoutes
        delegatedState.store "parent" (readAgentSecret "db") =
      failWith .forbidden "access denied" :=
  ⟨readerUnlessRestricted_noAgentConditions, ⟨by unfold Draws delegateReader; decide, trivial⟩,
    delegateReader_delegates, by decide +kernel, by decide +kernel⟩

end AuthState

end KnxVault.Auth
