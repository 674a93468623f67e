import KnxVault.Auth.Rbac

/-!
# What policies can tell apart

Policies see the resource, the action and the labels of a request. Two requests
that differ in one of these are separated by some policies: they let the first
pass and not the second. So a check on one request says nothing about another
one that does not agree with it in all three.
-/

namespace KnxVault.Auth

open KnxVault.Std KnxVault.Domain

variable {platform : Platform} {clock : Time} {resource other action operation : String}
  {req req' : RequestContext}

/-- Without includes the listed policies decide. -/
theorem RBAC.authorize_flat_iff {rbac : RBAC} (flat : ∀ name, rbac.includesOf name = [])
    {names : List String} :
    rbac.authorize platform clock names resource action req = true ↔
      (∃ name ∈ names, ∃ effect ≠ Effect.deny,
          rbac.decision platform clock resource action req name = some effect) ∧
        ∀ name ∈ names, rbac.decision platform clock resource action req name ≠ some .deny := by
  rw [RBAC.authorize_iff]
  simp only [RBAC.mem_resolvePolicyNames_iff, reached_of_leaves _ flat]

/-- A policy for every resource and action, with conditions. -/
def blanketPolicy (name : String) (effect : Effect) (conditions : Fields) : Policy :=
  { name, effect, resources := ["*"], actions := ["*"], conditions }

variable {conditions : Fields}

theorem policyMatches_blanket {name : String} {effect : Effect} :
    policyMatches platform clock (blanketPolicy name effect conditions) resource action req =
      conditionsMatch platform clock conditions { req with resource, action } := by
  simp [policyMatches, policyMatchesResourceAction, blanketPolicy, matchResource, matchAction]

theorem conditionsMatch_empty : conditionsMatch platform clock ∅ req = true := by
  simp [conditionsMatch, requireText, textField]

/-- Everything is allowed, apart from what the policy denies. -/
def RBAC.allExcept (policy : Policy) : RBAC :=
  ⟨((∅ : Std.ExtTreeMap String Policy).insert "all" (blanketPolicy "all" .allow ∅)).insert "except"
    { policy with effect := .deny }⟩

/-- Only what the policy allows is allowed. -/
def RBAC.only (policy : Policy) : RBAC :=
  ⟨(∅ : Std.ExtTreeMap String Policy).insert "only" { policy with effect := .allow }⟩

variable {policy : Policy}

theorem RBAC.authorize_allExcept (flat : policy.includes = []) :
    (RBAC.allExcept policy).authorize platform clock ["all", "except"] resource action req =
      !policyMatches platform clock policy resource action req := by
  have leaves : ∀ name, (RBAC.allExcept policy).includesOf name = [] := by
    intro name
    unfold RBAC.includesOf RBAC.policy RBAC.allExcept
    rw [getElem?_insert, getElem?_insert]
    split_ifs <;> simp [flat, blanketPolicy]
  have stored : (RBAC.allExcept policy).policy "all" = some (blanketPolicy "all" .allow ∅) := by
    unfold RBAC.policy RBAC.allExcept
    rw [getElem?_insert, getElem?_insert]
    rfl
  have all : (RBAC.allExcept policy).decision platform clock resource action req "all" =
      some .allow := by
    simp only [RBAC.decision, stored, policyMatches_blanket, conditionsMatch_empty, if_true]
    rfl
  have except : (RBAC.allExcept policy).decision platform clock resource action req "except" =
      if policyMatches platform clock policy resource action req then some .deny else none := by
    simp [RBAC.decision, RBAC.policy, RBAC.allExcept, policyMatches,
      policyMatchesResourceAction]
  rw [Bool.eq_iff_iff, RBAC.authorize_flat_iff leaves]
  simp [all, except]

theorem RBAC.authorize_only (flat : policy.includes = []) :
    (RBAC.only policy).authorize platform clock ["only"] resource action req =
      policyMatches platform clock policy resource action req := by
  have leaves : ∀ name, (RBAC.only policy).includesOf name = [] := by
    intro name
    unfold RBAC.includesOf RBAC.policy RBAC.only
    rw [getElem?_insert]
    split_ifs <;> simp [flat]
  have only : (RBAC.only policy).decision platform clock resource action req "only" =
      if policyMatches platform clock policy resource action req then some .allow else none := by
    simp [RBAC.decision, RBAC.policy, RBAC.only, policyMatches, policyMatchesResourceAction]
  rw [Bool.eq_iff_iff, RBAC.authorize_flat_iff leaves]
  simp [only]

/-- Some policies let the first request pass and not the second. -/
def Separated (platform : Platform) (clock : Time) (resource action : String)
    (req : RequestContext) (other operation : String) (req' : RequestContext) : Prop :=
  ∃ (rbac : RBAC) (names : List String),
    rbac.authorize platform clock names resource action req = true ∧
      rbac.authorize platform clock names other operation req' = false

/-- A policy that matches only one of two requests separates them: as the only
one that allows, or as an exception. -/
theorem separated_of_match (flat : policy.includes = [])
    (differ : policyMatches platform clock policy resource action req ≠
      policyMatches platform clock policy other operation req') :
    Separated platform clock resource action req other operation req' := by
  cases first : policyMatches platform clock policy resource action req with
  | true =>
    refine ⟨RBAC.only policy, ["only"], ?_, ?_⟩
    · rw [RBAC.authorize_only flat, first]
    · rw [RBAC.authorize_only flat]
      simpa [first] using differ
  | false =>
    refine ⟨RBAC.allExcept policy, ["all", "except"], ?_, ?_⟩
    · rw [RBAC.authorize_allExcept flat, first]
      rfl
    · rw [RBAC.authorize_allExcept flat]
      simpa [first] using differ

theorem separated_of_conditions
    (differ : conditionsMatch platform clock conditions { req with resource, action } ≠
      conditionsMatch platform clock conditions
        { req' with resource := other, action := operation }) :
    Separated platform clock resource action req other operation req' := by
  refine separated_of_match (@rfl _ (blanketPolicy "" .allow conditions).includes) ?_
  rwa [policyMatches_blanket, policyMatches_blanket]

theorem separated_of_resource (differ : resource ≠ other) (filled : resource ≠ "" ∧ other ≠ "") :
    Separated platform clock resource action req other operation req' := by
  have starts : ∀ (start text : String) (context : RequestContext), start ≠ "" →
      conditionsMatch platform clock
        ((∅ : Fields).insert "path_prefix" (.string start)) { context with resource := text } =
      hasPrefix text start := by
    intro start text context nonempty
    simp [conditionsMatch, requireText, textField, nonempty]
  have whole : ∀ text, hasPrefix text text = true := fun text =>
    hasPrefix_iff.mpr ⟨[], (List.append_nil _).symm⟩
  by_cases within : hasPrefix other resource = true
  · -- The second resource is longer, so it is not the start of the first.
    have longer : hasPrefix resource other = false := by
      rw [Bool.eq_false_iff]
      intro back
      apply differ
      apply String.toList_injective
      rw [hasPrefix, List.isPrefixOf_iff_prefix] at within back
      exact within.eq_of_length (within.length_le.antisymm back.length_le)
    apply separated_of_conditions
    rw [starts other resource { req with action } filled.2,
      starts other other { req' with action := operation } filled.2, longer, whole]
    decide
  · apply separated_of_conditions
    rw [starts resource resource { req with action } filled.1,
      starts resource other { req' with action := operation } filled.1, whole]
    exact fun same => within same.symm

theorem separated_of_action (differ : action ≠ operation) (plain : action ≠ "*") :
    Separated platform clock resource action req other operation req' := by
  refine @separated_of_match _ _ _ _ _ _ _ _
    { name := "", effect := .allow, resources := ["*"], actions := [action] } rfl ?_
  simp [policyMatches, policyMatchesResourceAction, matchResource, matchAction,
    conditionsMatch_empty, differ, plain]

/-- Labels that no policy tells apart: an unset label reads as the empty text, and
no policy asks for an empty text. -/
def LabelsAlike (labels labels' : StringMap) : Prop :=
  ∀ key ≠ "", labels.getD key "" = labels'.getD key ""

theorem requireText_congr {key : String} {check check' : String → Bool}
    (same : ∀ text, text ≠ "" → check text = check' text) :
    requireText conditions key check = requireText conditions key check' := by
  unfold requireText
  cases textField conditions key with
  | none => rfl
  | some text =>
    by_cases blank : text = ""
    · simp [blank]
    · simp [blank, same text blank]

theorem conditionsMatch_alike {labels labels' : StringMap} (alike : LabelsAlike labels labels') :
    conditionsMatch platform clock conditions { req with resourceLabels := labels } =
      conditionsMatch platform clock conditions { req with resourceLabels := labels' } := by
  dsimp only [conditionsMatch]
  congr 1
  · congr 1
    apply requireText_congr
    intro label named
    rw [alike label named]
  · apply requireText_congr
    intro owner _
    rw [alike "owner" (by decide)]

theorem RBAC.authorize_alike {rbac : RBAC} {names : List String} {labels labels' : StringMap}
    (alike : LabelsAlike labels labels') :
    rbac.authorize platform clock names resource action { req with resourceLabels := labels } =
      rbac.authorize platform clock names resource action
        { req with resourceLabels := labels' } := by
  have decisions : rbac.decision platform clock resource action
        { req with resourceLabels := labels } =
      rbac.decision platform clock resource action { req with resourceLabels := labels' } := by
    funext name
    have same : ∀ policy, policyMatches platform clock policy resource action
          { req with resourceLabels := labels } =
        policyMatches platform clock policy resource action
          { req with resourceLabels := labels' } := fun policy =>
      congrArg (policyMatchesResourceAction policy resource action && ·)
        (@conditionsMatch_alike platform clock { req with resource, action } policy.conditions
          labels labels' alike)
    simp only [RBAC.decision, same]
  rw [Bool.eq_iff_iff, RBAC.authorize_iff, RBAC.authorize_iff, decisions]

theorem separated_of_labels (differ : ¬ LabelsAlike req.resourceLabels req'.resourceLabels) :
    Separated platform clock resource action req other operation req' := by
  unfold LabelsAlike at differ
  push Not at differ
  obtain ⟨key, named, apart⟩ := differ
  have asks : ∀ (value : String) (context : RequestContext), value ≠ "" →
      conditionsMatch platform clock (((∅ : Fields).insert "resource_label" (.string key)).insert
        "resource_label_value" (.string value)) context =
      decide (context.resourceLabels.getD key "" = value) := by
    intro value context nonempty
    have label : textField (((∅ : Fields).insert "resource_label" (.string key)).insert
        "resource_label_value" (.string value)) "resource_label" = some key := by
      unfold textField
      rw [getElem?_insert, getElem?_insert]
      rfl
    have expected : textField (((∅ : Fields).insert "resource_label" (.string key)).insert
        "resource_label_value" (.string value)) "resource_label_value" = some value := by
      unfold textField
      rw [getElem?_insert]
      rfl
    have unset : ∀ name : String, name ≠ "resource_label" ∧ name ≠ "resource_label_value" →
        (((∅ : Fields).insert "resource_label" (.string key)).insert "resource_label_value"
          (.string value))[name]? = none := by
      intro name other
      rw [getElem?_insert, if_neg other.2.symm, getElem?_insert, if_neg other.1.symm]
      rfl
    dsimp only [conditionsMatch]
    rw [unset "ip_cidr" (by decide), requireText_of_none (unset "time_after" (by decide)),
      requireText_of_none (unset "time_before" (by decide)),
      requireText_of_none (unset "path_prefix" (by decide)),
      requireText_of_none (unset "namespace" (by decide)),
      requireText_of_none (unset "agent_id" (by decide)),
      requireText_of_none (unset "cluster" (by decide)),
      requireText_of_none (unset "environment" (by decide)),
      requireText_of_none (unset "request_path" (by decide)),
      requireText_of_none (unset "owner_match" (by decide))]
    simp [requireText, label, expected, named, nonempty]
  by_cases unset : req.resourceLabels.getD key "" = ""
  · have set : req'.resourceLabels.getD key "" ≠ "" := fun blank => apart (unset.trans blank.symm)
    apply separated_of_conditions
    rw [asks _ _ set, asks _ _ set]
    simp [apart]
  · apply separated_of_conditions
    rw [asks _ _ unset, asks _ _ unset]
    simp [apart.symm]

end KnxVault.Auth
