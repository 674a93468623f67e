import KnxVault.Domain.Auth
import KnxVault.Std.Postorder

/-!
# Policy evaluation

`conditionsMatch` and `policyMatches` follow `internal/auth/evaluator.go`, the
policy engine `internal/auth/rbac.go` and `internal/auth/authz.go`. Parsing of
addresses, networks and RFC 3339 times belongs to the platform.
-/

namespace KnxVault.Auth

open KnxVault.Std KnxVault.Domain

/-- What the evaluator takes from the platform: whether a text is an IP address,
membership in a CIDR network if the text is one, and time parsing. -/
structure Platform where
  validIP : String → Bool
  cidrContains : String → Option (String → Bool)
  parseRFC3339 : String → Option Time

/-- A platform to run the model with, which parses nothing. -/
def plainPlatform : Platform where
  validIP _ := false
  cidrContains _ := none
  parseRFC3339 _ := none

structure RequestContext where
  clientIP : String := ""
  «namespace» : String := ""
  resource : String := ""
  action : String := ""
  agentID : String := ""
  now : Time := {}
  cluster : String := ""
  environment : String := ""
  requestPath : String := ""
  requestID : String := ""
  resourceLabels : StringMap := ∅

/-! ### Conditions -/

def matchIPCIDR (platform : Platform) (cidrs : List Value) (clientIP : String) : Bool :=
  clientIP ≠ "" && platform.validIP clientIP && cidrs.any fun raw =>
    match raw with
    | .string pattern =>
      pattern ≠ "" &&
        match platform.cidrContains pattern with
        | some contains => contains clientIP
        | none => pattern = clientIP
    | _ => false

def matchIPCIDRAny (platform : Platform) (raw : Value) (clientIP : String) : Bool :=
  match raw with
  | .string text => trimSpace text ≠ "" && matchIPCIDR platform [.string text] clientIP
  | .array items => items ≠ [] && matchIPCIDR platform items clientIP
  | _ => false

/-- A condition that only a non-empty text sets. -/
def requireText (conditions : Fields) (key : String) (check : String → Bool) : Bool :=
  match textField conditions key with
  | some text => text = "" || check text
  | none => true

def conditionsMatch (platform : Platform) (clock : Time) (conditions : Fields)
    (req : RequestContext) : Bool :=
  let now := if req.now.isZero then clock.utc else req.now
  (match conditions["ip_cidr"]? with
    | none => true
    | some .null => true
    | some raw => matchIPCIDRAny platform raw req.clientIP) &&
  requireText conditions "time_after" (fun text =>
    match platform.parseRFC3339 text with
    | some time => !now.before time
    | none => false) &&
  requireText conditions "time_before" (fun text =>
    match platform.parseRFC3339 text with
    | some time => now.before time
    | none => false) &&
  requireText conditions "path_prefix" (fun start => hasPrefix req.resource start) &&
  requireText conditions "namespace" (fun ns => req.namespace = ns) &&
  requireText conditions "agent_id" (fun agent => req.agentID = agent) &&
  requireText conditions "cluster" (fun cluster => req.cluster = cluster) &&
  requireText conditions "environment" (fun env => req.environment = env) &&
  requireText conditions "request_path" (fun path =>
    req.requestPath = path || hasPrefix req.requestPath path) &&
  requireText conditions "resource_label" (fun label =>
    match textField conditions "resource_label_value" with
    | none => false
    | some expected => expected ≠ "" && req.resourceLabels.getD label "" = expected) &&
  requireText conditions "owner_match" (fun owner => req.resourceLabels.getD "owner" "" = owner)

/-! ### Policies -/

def normalizeCapabilities (capabilities actions : List String) : List String :=
  if capabilities ≠ [] then capabilities else actions

def policyMatchesResourceAction (policy : Policy) (resource action : String) : Bool :=
  let actions := if policy.capabilities ≠ [] then policy.capabilities else policy.actions
  policy.resources.any fun pattern =>
    matchResource pattern resource && actions.any fun allowed => matchAction allowed action

def policyMatches (platform : Platform) (clock : Time) (policy : Policy)
    (resource action : String) (req : RequestContext) : Bool :=
  policyMatchesResourceAction policy resource action &&
    conditionsMatch platform clock policy.conditions { req with resource, action }

/-- The policies by name. -/
structure RBAC where
  policies : Std.ExtTreeMap String Policy

structure AuthzResult where
  allowed : Bool
  matchedPolicy : String := ""
  reason : String
  deniedBy : String := ""
deriving DecidableEq, Repr

def allowPolicy (name : String) (resources actions : List String) : Policy :=
  { name, effect := .allow, resources, actions }

def defaultPolicies : List Policy :=
  [allowPolicy "admin" ["*"] ["*"],
   allowPolicy "pki-admin" ["pki/*"] ["*"],
   allowPolicy "secrets-admin" ["secrets/*"] ["*"],
   allowPolicy "secrets-reader" ["secrets/*"] ["read"],
   allowPolicy "audit-reader" ["audit/*"] ["read"],
   allowPolicy "policy-admin" ["sys/policies", "sys/roles"] ["*"],
   allowPolicy "inject-reader" ["inject/*"] ["read"],
   allowPolicy "agent-delegator" ["auth/agent/*"] ["write"]]

namespace RBAC

def upsertPolicy (rbac : RBAC) (policy : Policy) : RBAC :=
  ⟨rbac.policies.insert policy.name policy⟩

def new : RBAC :=
  defaultPolicies.foldl upsertPolicy ⟨∅⟩

/-- The built-in policies, overlaid by the persisted ones. -/
def reloadFromPersisted (policies : List Policy) : RBAC :=
  policies.foldl upsertPolicy new

def policy (rbac : RBAC) (name : String) : Option Policy :=
  rbac.policies[name]?

variable (platform : Platform) (clocks : String → Time) (clock : Time)

/-- The evaluation loop; `matchedAllow` is the last policy that allowed. A request without a
time is judged by the clock at the moment when the policy of a name is evaluated. -/
def authorizeLoop (rbac : RBAC) (resource action : String) (req : RequestContext)
    (matchedAllow : Option String) : List String → AuthzResult
  | [] =>
    match matchedAllow with
    | none => { allowed := false, reason := "default deny: no matching allow policy" }
    | some name => { allowed := true, matchedPolicy := name, reason := "allowed by " ++ name }
  | name :: rest =>
    match rbac.policy name with
    | none => authorizeLoop rbac resource action req matchedAllow rest
    | some policy =>
      let actions := normalizeCapabilities policy.capabilities policy.actions
      if !policyMatches platform (clocks name) { policy with actions } resource action req then
        authorizeLoop rbac resource action req matchedAllow rest
      else if policy.effect = .deny then
        { allowed := false, matchedPolicy := policy.name, deniedBy := policy.name,
          reason := "explicit deny" }
      else authorizeLoop rbac resource action req (some policy.name) rest

def authorizeDetailedAt (rbac : RBAC) (policyNames : List String) (resource action : String)
    (req : RequestContext) : AuthzResult :=
  rbac.authorizeLoop platform clocks resource action req none policyNames

/-- All evaluations at one reading of the clock. -/
def authorizeDetailed (rbac : RBAC) (policyNames : List String) (resource action : String)
    (req : RequestContext) : AuthzResult :=
  rbac.authorizeDetailedAt platform (fun _ => clock) policyNames resource action req

/-- The policies that a policy includes; a name that is not stored includes none. -/
def includesOf (rbac : RBAC) (name : String) : List String :=
  match rbac.policy name with
  | none => []
  | some policy => policy.includes

/-- Expand includes depth first, each name once and after what it includes. -/
def resolvePolicyNames (rbac : RBAC) (names : List String) : List String :=
  postorder rbac.includesOf rbac.policies.keys.length names

def authorizeAt (rbac : RBAC) (policyNames : List String) (resource action : String)
    (req : RequestContext) : Bool :=
  (rbac.authorizeDetailedAt platform clocks (rbac.resolvePolicyNames policyNames) resource action
    req).allowed

def authorize (rbac : RBAC) (policyNames : List String) (resource action : String)
    (req : RequestContext) : Bool :=
  (rbac.authorizeDetailed platform clock (rbac.resolvePolicyNames policyNames) resource action
    req).allowed

/-! ### What the engine decides -/

/-- The effect of a named policy on a request, if it is stored and matches. -/
def decision (rbac : RBAC) (resource action : String) (req : RequestContext) (name : String) :
    Option Effect :=
  match rbac.policy name with
  | none => none
  | some policy =>
    if policyMatches platform clock policy resource action req then some policy.effect else none

variable {platform clocks clock} {rbac : RBAC} {resource action : String} {req : RequestContext}

/-- Normalising the actions first does not change what matches. -/
theorem policyMatches_normalized (policy : Policy) :
    policyMatches platform clock
        { policy with actions := normalizeCapabilities policy.capabilities policy.actions }
        resource action req =
      policyMatches platform clock policy resource action req := by
  unfold policyMatches policyMatchesResourceAction normalizeCapabilities
  by_cases declared : policy.capabilities ≠ []
  · simp [declared]
  · simp only [if_neg declared]

theorem authorizeLoop_allowed_iff (matchedAllow : Option String) (names : List String) :
    (rbac.authorizeLoop platform clocks resource action req matchedAllow names).allowed = true ↔
      (matchedAllow.isSome ∨ ∃ name ∈ names, ∃ effect ≠ Effect.deny,
          rbac.decision platform (clocks name) resource action req name = some effect) ∧
        ∀ name ∈ names,
          rbac.decision platform (clocks name) resource action req name ≠ some .deny := by
  induction names generalizing matchedAllow with
  | nil => cases matchedAllow <;> simp [authorizeLoop]
  | cons name rest ih =>
    simp only [List.forall_mem_cons, List.exists_mem_cons_iff]
    cases stored : rbac.policy name with
    | none =>
      have silent : rbac.decision platform (clocks name) resource action req name = none := by
        simp [decision, stored]
      simp [authorizeLoop, stored, silent, ih]
    | some policy =>
      have decided : rbac.decision platform (clocks name) resource action req name =
          if policyMatches platform (clocks name) policy resource action req then
            some policy.effect
          else none := by
        simp [decision, stored]
      simp only [authorizeLoop, stored, policyMatches_normalized, decided]
      by_cases found : policyMatches platform (clocks name) policy resource action req = true
      · by_cases deny : policy.effect = .deny
        · simp [found, deny]
        · simp [found, deny, ih]
      · simp [found, ih]

variable {names : List String}

/-- A request is allowed exactly if some listed policy allows it and none denies
it; the order of the names does not matter. -/
theorem authorizeDetailedAt_allowed_iff :
    (rbac.authorizeDetailedAt platform clocks names resource action req).allowed = true ↔
      (∃ name ∈ names, ∃ effect ≠ Effect.deny,
          rbac.decision platform (clocks name) resource action req name = some effect) ∧
        ∀ name ∈ names,
          rbac.decision platform (clocks name) resource action req name ≠ some .deny := by
  rw [authorizeDetailedAt, authorizeLoop_allowed_iff]
  simp

theorem authorizeDetailed_allowed_iff :
    (rbac.authorizeDetailed platform clock names resource action req).allowed = true ↔
      (∃ name ∈ names, ∃ effect ≠ Effect.deny,
          rbac.decision platform clock resource action req name = some effect) ∧
        ∀ name ∈ names, rbac.decision platform clock resource action req name ≠ some .deny :=
  authorizeDetailedAt_allowed_iff

/-- Only stored policies include others. -/
theorem mem_keys_of_includes (source : String) (including : rbac.includesOf source ≠ []) :
    source ∈ rbac.policies.keys := by
  rw [Std.ExtTreeMap.mem_keys, ← Std.ExtTreeMap.isSome_getElem?_iff_mem]
  unfold includesOf policy at including
  cases stored : rbac.policies[source]? with
  | none => simp [stored] at including
  | some _ => rfl

variable {name : String}

/-- The walk expands includes completely. -/
theorem mem_resolvePolicyNames_iff :
    name ∈ rbac.resolvePolicyNames names ↔ Reached rbac.includesOf names name :=
  mem_postorder_iff mem_keys_of_includes

/-- Expanding a list is expanding its members one by one. -/
theorem mem_resolvePolicyNames_singleton_iff :
    name ∈ rbac.resolvePolicyNames names ↔
      ∃ listed ∈ names, name ∈ rbac.resolvePolicyNames [listed] := by
  simp [mem_resolvePolicyNames_iff, Reached]

theorem authorize_iff :
    rbac.authorize platform clock names resource action req = true ↔
      (∃ name ∈ rbac.resolvePolicyNames names, ∃ effect ≠ Effect.deny,
          rbac.decision platform clock resource action req name = some effect) ∧
        ∀ name ∈ rbac.resolvePolicyNames names,
          rbac.decision platform clock resource action req name ≠ some .deny :=
  authorizeDetailed_allowed_iff

/-! ### Semantics of authorisation -/

/-- The policy is stored under a name in the include-closure of the names, and matches the
request. -/
def Applies (rbac : RBAC) (platform : Platform) (clocks : String → Time) (names : List String)
    (resource action : String) (req : RequestContext) (policy : Policy) : Prop :=
  ∃ name, Reached rbac.includesOf names name ∧ rbac.policy name = some policy ∧
    policyMatches platform (clocks name) policy resource action req = true

theorem exists_applies_iff {Of : Effect → Prop} :
    (∃ policy, rbac.Applies platform clocks names resource action req policy ∧ Of policy.effect) ↔
      ∃ name ∈ rbac.resolvePolicyNames names, ∃ effect, Of effect ∧
        rbac.decision platform (clocks name) resource action req name = some effect := by
  constructor
  · rintro ⟨policy, ⟨name, reached, stored, found⟩, isOf⟩
    exact ⟨name, mem_resolvePolicyNames_iff.mpr reached, policy.effect, isOf,
      by simp [decision, stored, found]⟩
  · rintro ⟨name, listed, effect, isOf, decided⟩
    unfold decision at decided
    split at decided
    · cases decided
    · rename_i policy stored
      split at decided
      · rename_i found
        cases decided
        exact ⟨policy, ⟨name, mem_resolvePolicyNames_iff.mp listed, stored, found⟩, isOf⟩
      · cases decided

/-- A request is allowed exactly if a policy that does not deny applies to it and none that
denies does. -/
theorem authorizeAt_iff :
    rbac.authorizeAt platform clocks names resource action req = true ↔
      (∃ policy, rbac.Applies platform clocks names resource action req policy ∧
        policy.effect ≠ .deny) ∧
      ¬ ∃ policy, rbac.Applies platform clocks names resource action req policy ∧
        policy.effect = .deny := by
  rw [authorizeAt, authorizeDetailedAt_allowed_iff, @exists_applies_iff _ _ _ _ _ _ _ (· ≠ .deny),
    @exists_applies_iff _ _ _ _ _ _ _ (· = .deny)]
  simp

variable {policy : Policy}

theorem Applies.of_subset {more : List String} (subset : ∀ name ∈ names, name ∈ more)
    (applies : rbac.Applies platform clocks names resource action req policy) :
    rbac.Applies platform clocks more resource action req policy := by
  obtain ⟨name, ⟨root, listed, path⟩, found⟩ := applies
  exact ⟨name, ⟨root, subset root listed, path⟩, found⟩

/-- What applies by a longer list applies by one of its parts. -/
theorem Applies.of_union {added longer : List String}
    (union : ∀ name ∈ longer, name ∈ names ∨ name ∈ added)
    (applies : rbac.Applies platform clocks longer resource action req policy) :
    rbac.Applies platform clocks names resource action req policy ∨
      ∃ name, Reached rbac.includesOf added name ∧ rbac.policy name = some policy := by
  obtain ⟨name, ⟨root, listed, path⟩, stored, found⟩ := applies
  rcases union root listed with old | new
  · exact .inl ⟨name, ⟨root, old, path⟩, stored, found⟩
  · exact .inr ⟨name, ⟨root, new, path⟩, stored⟩

/-- What Authorize answers. The policy engine takes every effect other than deny for an
allow; where each stored policy allows or denies, it is one that allows. -/
structure AuthorizeSemantics (rbac : RBAC) (platform : Platform) (clocks : String → Time)
    (names : List String) (resource action : String) (req : RequestContext) : Prop where
  /-- The walk over includes ends: a greater bound on its depth changes nothing. -/
  terminates : ∀ bound, rbac.policies.keys.length ≤ bound →
    postorder rbac.includesOf bound names = rbac.resolvePolicyNames names
  allowed_iff : rbac.authorizeAt platform clocks names resource action req = true ↔
    (∃ policy, rbac.Applies platform clocks names resource action req policy ∧
      policy.effect ≠ .deny) ∧
    ¬ ∃ policy, rbac.Applies platform clocks names resource action req policy ∧
      policy.effect = .deny
  allowed_iff_allow : (∀ name policy, rbac.policy name = some policy →
      policy.effect = .allow ∨ policy.effect = .deny) →
    (rbac.authorizeAt platform clocks names resource action req = true ↔
      (∃ policy, rbac.Applies platform clocks names resource action req policy ∧
        policy.effect = .allow) ∧
      ¬ ∃ policy, rbac.Applies platform clocks names resource action req policy ∧
        policy.effect = .deny)
  unordered : ∀ listed : List String, (∀ name, name ∈ listed ↔ name ∈ names) →
    rbac.authorizeAt platform clocks listed resource action req =
      rbac.authorizeAt platform clocks names resource action req
  extended : ∀ added longer : List String,
    (∀ name, name ∈ longer ↔ name ∈ names ∨ name ∈ added) →
    (∀ name policy, Reached rbac.includesOf added name → rbac.policy name = some policy →
      policy.effect ≠ .deny) →
    rbac.authorizeAt platform clocks names resource action req = true →
    rbac.authorizeAt platform clocks longer resource action req = true

theorem authorize_semantics (rbac : RBAC) (platform : Platform) (clocks : String → Time)
    (names : List String) (resource action : String) (req : RequestContext) :
    rbac.AuthorizeSemantics platform clocks names resource action req where
  terminates bound enough := postorder_deeper mem_keys_of_includes enough names
  allowed_iff := authorizeAt_iff
  allowed_iff_allow declared := by
    rw [authorizeAt_iff]
    refine and_congr_left fun _ => exists_congr fun policy => and_congr_right fun applies => ?_
    obtain ⟨name, -, stored, -⟩ := applies
    rcases declared name policy stored with allow | deny
    · simp [allow]
    · simp [deny]
  unordered listed same := by
    have agrees (policy : Policy) :
        rbac.Applies platform clocks listed resource action req policy ↔
          rbac.Applies platform clocks names resource action req policy :=
      ⟨.of_subset fun name => (same name).mp, .of_subset fun name => (same name).mpr⟩
    rw [Bool.eq_iff_iff, authorizeAt_iff, authorizeAt_iff]
    simp only [agrees]
  extended added longer union mild allowed := by
    obtain ⟨⟨policy, applies, allows⟩, undenied⟩ := authorizeAt_iff.mp allowed
    refine authorizeAt_iff.mpr ⟨⟨policy, ?_, allows⟩, ?_⟩
    · exact applies.of_subset fun name listed => (union name).mpr (.inl listed)
    · rintro ⟨denying, applies, denies⟩
      rcases applies.of_union (fun name => (union name).mp) with old | ⟨name, reached, stored⟩
      · exact undenied ⟨denying, old, denies⟩
      · exact mild name denying reached stored denies

/-- The last policy of a name counts. -/
theorem policy_foldl_upsertPolicy (rbac : RBAC) (policies : List Policy) (name : String) :
    (policies.foldl upsertPolicy rbac).policy name =
      (policies.reverse.find? fun policy => policy.name = name).or (rbac.policy name) := by
  induction policies generalizing rbac with
  | nil => rfl
  | cons first rest ih =>
    rw [List.foldl_cons, ih, List.reverse_cons, List.find?_append]
    have overlaid : (rbac.upsertPolicy first).policy name =
        if first.name = name then some first else rbac.policy name :=
      getElem?_insert rbac.policies first.name name first
    rw [overlaid]
    cases rest.reverse.find? fun policy => policy.name = name with
    | some _ => rfl
    | none => by_cases named : first.name = name <;> simp [named]

/-- The built-in policies list actions and include nothing. -/
theorem policy_new (builtin : new.policy name = some policy) :
    policy.capabilities = [] ∧ policy.includes = [] := by
  have plain : ∀ policy ∈ defaultPolicies, policy.capabilities = [] ∧ policy.includes = [] := by
    simp [defaultPolicies, allowPolicy]
  have absent : (⟨∅⟩ : RBAC).policy name = none := by simp [RBAC.policy]
  rw [new, policy_foldl_upsertPolicy, absent, Option.or_none] at builtin
  exact plain policy (List.mem_reverse.mp (List.mem_of_find?_eq_some builtin))

/-- No policy has a condition on the agent. -/
def NoAgentConditions (rbac : RBAC) : Prop :=
  ∀ name policy, rbac.policy name = some policy → policy.conditions["agent_id"]? = none

end RBAC

variable {conditions : Fields}

theorem requireText_of_none {key : String} {check : String → Bool}
    (unset : conditions[key]? = none) :
    requireText conditions key check = true := by
  simp [requireText, textField, unset]

theorem requireText_mono {key : String} {check weaker : String → Bool}
    (weaken : ∀ text, text ≠ "" → check text = true → weaker text = true)
    (required : requireText conditions key check = true) :
    requireText conditions key weaker = true := by
  unfold requireText at required ⊢
  cases set : textField conditions key with
  | none => rfl
  | some text =>
    simp only [set, Bool.or_eq_true, decide_eq_true_eq] at required ⊢
    by_cases blank : text = ""
    · exact .inl blank
    · exact .inr (weaken text blank (required.resolve_left blank))

/-- Conditions without an agent that hold for a request hold as well for one in
another namespace, if the first one names no namespace at all. -/
theorem conditionsMatch_renamed {platform : Platform} {clock : Time} {req : RequestContext}
    {ns agentID : String} (noAgent : conditions["agent_id"]? = none)
    (renamed : req.namespace = ns ∨ req.namespace = "")
    (holds : conditionsMatch platform clock conditions req = true) :
    conditionsMatch platform clock conditions { req with «namespace» := ns, agentID } = true := by
  simp only [conditionsMatch, Bool.and_eq_true] at holds ⊢
  obtain ⟨⟨⟨⟨⟨⟨⟨earlier, namespaced⟩, -⟩, cluster⟩, environment⟩, path⟩, label⟩, owner⟩ := holds
  refine ⟨⟨⟨⟨⟨⟨⟨earlier, requireText_mono ?_ namespaced⟩, requireText_of_none noAgent⟩, cluster⟩,
    environment⟩, path⟩, label⟩, owner⟩
  intro text filled same
  have inNamespace : req.namespace = text := of_decide_eq_true same
  obtain equal | unnamed := renamed
  · exact decide_eq_true (equal.symm.trans inNamespace)
  · exact absurd (inNamespace.symm.trans unnamed) filled

end KnxVault.Auth
