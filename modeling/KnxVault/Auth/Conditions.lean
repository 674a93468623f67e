import KnxVault.Auth.Rbac

/-!
# What policy conditions require

The evaluator reads eleven conditions, ten of them behind a type assertion. `Holds` says
what the value of a condition expresses about a request, whatever its type; `conditionsMatch_iff`
says which values the evaluator enforces. The two differ on the values of another type, which
the evaluator takes for conditions that are not set.
-/

namespace KnxVault.Auth

open KnxVault.Std KnxVault.Domain

/-- The conditions that the evaluator knows. The label of a resource is one condition with
two keys: the value to compare is read beside it. -/
inductive Condition where
  | ipCIDR
  | timeAfter
  | timeBefore
  | pathPrefix
  | «namespace»
  | agentID
  | cluster
  | environment
  | requestPath
  | resourceLabel
  | ownerMatch
deriving DecidableEq, Repr

namespace Condition

def key : Condition → String
  | ipCIDR => "ip_cidr"
  | timeAfter => "time_after"
  | timeBefore => "time_before"
  | pathPrefix => "path_prefix"
  | «namespace» => "namespace"
  | agentID => "agent_id"
  | cluster => "cluster"
  | environment => "environment"
  | requestPath => "request_path"
  | resourceLabel => "resource_label"
  | ownerMatch => "owner_match"

/-! ### Meaning -/

/-- The moment at which a request is judged. -/
def requestTime (clock : Time) (req : RequestContext) : Time :=
  if req.now.isZero then clock.utc else req.now

/-- The client has an address, and the pattern is a network around it or the address itself. -/
def Covers (platform : Platform) (pattern clientIP : String) : Prop :=
  (clientIP ≠ "" ∧ platform.validIP clientIP = true) ∧ pattern ≠ "" ∧
    match platform.cidrContains pattern with
    | some contains => contains clientIP = true
    | none => pattern = clientIP

section Meaning

variable (platform : Platform) (clock : Time) (conditions : Fields) (req : RequestContext)

/-- What a text asks of a request. A text that does not parse asks for the impossible. -/
def Asks : Condition → String → Prop
  | ipCIDR, text => Covers platform text req.clientIP
  | timeAfter, text => ∃ time, platform.parseRFC3339 text = some time ∧
      (requestTime clock req).before time = false
  | timeBefore, text => ∃ time, platform.parseRFC3339 text = some time ∧
      (requestTime clock req).before time = true
  | pathPrefix, text => hasPrefix req.resource text = true
  | «namespace», text => req.namespace = text
  | agentID, text => req.agentID = text
  | cluster, text => req.cluster = text
  | environment, text => req.environment = text
  | requestPath, text => hasPrefix req.requestPath text = true
  | resourceLabel, text => ∃ expected, expected ≠ "" ∧
      conditions["resource_label_value"]? = some (.string expected) ∧
      req.resourceLabels[text]? = some expected
  | ownerMatch, text => req.resourceLabels["owner"]? = some text

/-- What a condition of a value expresses about a request: a list of networks that one of
them covers the client. A blank text is no network, and a value of another type holds of no
request. -/
def Holds (condition : Condition) : Value → Prop
  | .string text => (condition = ipCIDR → trimSpace text ≠ "") ∧
      condition.Asks platform clock conditions req text
  | .array items => condition = ipCIDR ∧
      ∃ text, .string text ∈ items ∧ condition.Asks platform clock conditions req text
  | _ => False

end Meaning

/-- The type that a condition expects of its value. -/
def Typed (condition : Condition) : Value → Prop
  | .string _ => True
  | .array items => condition = ipCIDR ∧ ∀ item ∈ items, ∃ text, item = .string text
  | _ => False

/-- The value under the key of a condition is neither null nor the empty text. -/
def IsSet (conditions : Fields) (condition : Condition) (value : Value) : Prop :=
  conditions[condition.key]? = some value ∧ value ≠ .null ∧ value ≠ .string ""

/-- Every condition that is set has a value of the type it expects. -/
def WellTyped (conditions : Fields) : Prop :=
  ∀ condition value, IsSet conditions condition value → condition.Typed value

/-! ### What the evaluator enforces -/

/-- The values that the evaluator looks at: every list of networks that is not null, and of
the other conditions those that are texts. -/
def Enforced (conditions : Fields) (condition : Condition) (value : Value) : Prop :=
  conditions[condition.key]? = some value ∧
    (condition = ipCIDR ∧ value ≠ .null ∨ ∃ text, value = .string text ∧ text ≠ "")

variable {platform : Platform} {clock : Time} {conditions : Fields} {req : RequestContext}

theorem requireText_iff {key : String} {check : String → Bool} :
    requireText conditions key check = true ↔
      ∀ text, conditions[key]? = some (.string text) → text ≠ "" → check text = true := by
  unfold requireText textField
  cases conditions[key]? with
  | none => simp
  | some value => cases value <;> simp [or_iff_not_imp_left]

theorem matchIPCIDR_iff {items : List Value} {clientIP : String} :
    matchIPCIDR platform items clientIP = true ↔
      ∃ text, .string text ∈ items ∧ Covers platform text clientIP := by
  have covered (text : String) : (decide (text ≠ "") &&
      match platform.cidrContains text with
      | some contains => contains clientIP
      | none => decide (text = clientIP)) = true ↔
      text ≠ "" ∧ match platform.cidrContains text with
      | some contains => contains clientIP = true
      | none => text = clientIP := by
    cases platform.cidrContains text <;> simp
  simp only [matchIPCIDR, Bool.and_eq_true, decide_eq_true_eq, List.any_eq_true, Covers]
  constructor
  · rintro ⟨client, item, listed, matched⟩
    cases item with
    | string text => exact ⟨text, listed, client, (covered text).mp matched⟩
    | _ => cases matched
  · rintro ⟨text, listed, client, matched⟩
    exact ⟨client, .string text, listed, (covered text).mpr matched⟩

theorem matchIPCIDRAny_iff (clock : Time) (conditions : Fields) {value : Value} :
    matchIPCIDRAny platform value req.clientIP = true ↔
      ipCIDR.Holds platform clock conditions req value := by
  cases value with
  | string text => simp [matchIPCIDRAny, matchIPCIDR_iff, Holds, Asks]
  | array items =>
    simp only [matchIPCIDRAny, Bool.and_eq_true, decide_eq_true_eq, matchIPCIDR_iff, Holds, Asks,
      true_and]
    refine and_iff_right_of_imp ?_
    rintro ⟨text, listed, -⟩
    exact List.ne_nil_of_mem listed
  | _ => simp [matchIPCIDRAny, Holds]

/-- The enforced values of a condition hold. -/
def Passes (platform : Platform) (clock : Time) (conditions : Fields) (req : RequestContext)
    (condition : Condition) : Prop :=
  ∀ value, Enforced conditions condition value →
    condition.Holds platform clock conditions req value

theorem passes_ipCIDR :
    (match conditions["ip_cidr"]? with
      | none => true
      | some .null => true
      | some raw => matchIPCIDRAny platform raw req.clientIP) = true ↔
      ipCIDR.Passes platform clock conditions req := by
  unfold Passes Enforced key
  cases conditions["ip_cidr"]? with
  | none => simp
  | some value =>
    cases value with
    | null => simp
    | _ => simp [matchIPCIDRAny_iff clock conditions]

theorem passes_text (condition : Condition) {check : String → Bool}
    (other : condition ≠ ipCIDR)
    (asks : ∀ text, text ≠ "" →
      (check text = true ↔ condition.Asks platform clock conditions req text)) :
    requireText conditions condition.key check = true ↔
      condition.Passes platform clock conditions req := by
  rw [requireText_iff]
  constructor
  · rintro required value ⟨stored, ⟨rfl, -⟩ | ⟨text, rfl, filled⟩⟩
    · exact absurd rfl other
    · exact ⟨fun same => absurd same other, (asks text filled).mp (required text stored filled)⟩
  · intro passes text stored filled
    exact (asks text filled).mpr (passes (.string text) ⟨stored, .inr ⟨text, rfl, filled⟩⟩).2

theorem forall_iff {P : Condition → Prop} :
    (∀ condition, P condition) ↔
      (((((((((P ipCIDR ∧ P timeAfter) ∧ P timeBefore) ∧ P pathPrefix) ∧ P «namespace») ∧
        P agentID) ∧ P cluster) ∧ P environment) ∧ P requestPath) ∧ P resourceLabel) ∧
        P ownerMatch := by
  constructor
  · intro all
    simp only [all, and_self]
  · rintro ⟨⟨⟨⟨⟨⟨⟨⟨⟨⟨_, _⟩, _⟩, _⟩, _⟩, _⟩, _⟩, _⟩, _⟩, _⟩, _⟩ condition
    cases condition <;> assumption

/-- The time of a text compares as asked, and the text is a time at all. -/
theorem parsed_iff {text : String} {compare : Time → Bool} :
    (match platform.parseRFC3339 text with
      | some time => compare time
      | none => false) = true ↔
      ∃ time, platform.parseRFC3339 text = some time ∧ compare time = true := by
  cases platform.parseRFC3339 text <;> simp

theorem getD_label_iff {labels : StringMap} {name expected : String} (filled : expected ≠ "") :
    labels.getD name "" = expected ↔ labels[name]? = some expected := by
  rw [Std.ExtTreeMap.getD_eq_getD_getElem?]
  cases labels[name]? with
  | none => simp [filled.symm]
  | some _ => simp

/-- The value to compare with is set beside the name of the label. -/
theorem label_iff {name : String} :
    (match textField conditions "resource_label_value" with
      | none => false
      | some expected => decide (expected ≠ "") &&
          decide (req.resourceLabels.getD name "" = expected)) = true ↔
      resourceLabel.Asks platform clock conditions req name := by
  unfold Asks textField
  cases conditions["resource_label_value"]? with
  | none => simp
  | some value =>
    cases value with
    | string expected =>
      simp only [Bool.and_eq_true, decide_eq_true_eq, Option.some.injEq, Value.string.injEq]
      constructor
      · rintro ⟨filled, same⟩
        exact ⟨expected, filled, rfl, (getD_label_iff filled).mp same⟩
      · rintro ⟨_, filled, rfl, same⟩
        exact ⟨filled, (getD_label_iff filled).mpr same⟩
    | _ => simp

/-- The evaluator accepts a request exactly if every value that it enforces holds of it. -/
theorem conditionsMatch_iff :
    conditionsMatch platform clock conditions req = true ↔
      ∀ condition, Passes platform clock conditions req condition := by
  rw [forall_iff]
  simp only [conditionsMatch, Bool.and_eq_true]
  refine and_congr (and_congr (and_congr (and_congr (and_congr (and_congr (and_congr (and_congr
    (and_congr (and_congr passes_ipCIDR ?after) ?before) ?start) ?ns) ?agent) ?group) ?env)
    ?path) ?label) ?owner
  case after =>
    refine passes_text timeAfter (by decide) fun text _ => parsed_iff.trans ?_
    simp only [Bool.not_eq_true', Asks, requestTime]
  case before => exact passes_text timeBefore (by decide) fun text _ => parsed_iff
  case start => exact passes_text pathPrefix (by decide) fun text _ => Iff.rfl
  case ns => exact passes_text «namespace» (by decide) fun text _ => decide_eq_true_iff
  case agent => exact passes_text agentID (by decide) fun text _ => decide_eq_true_iff
  case group => exact passes_text cluster (by decide) fun text _ => decide_eq_true_iff
  case env => exact passes_text environment (by decide) fun text _ => decide_eq_true_iff
  case path =>
    refine passes_text requestPath (by decide) fun text _ => ?_
    simp only [Bool.or_eq_true, decide_eq_true_eq, Asks, or_iff_right_iff_imp]
    rintro rfl
    exact hasPrefix_iff.mpr ⟨[], by simp⟩
  case label => exact passes_text resourceLabel (by decide) fun text _ => label_iff
  case owner =>
    refine passes_text ownerMatch (by decide) fun text filled => ?_
    rw [decide_eq_true_iff]
    exact getD_label_iff filled

/-- A value of the expected type that is set is one the evaluator enforces. -/
theorem Typed.enforced {condition : Condition} {value : Value} (typed : condition.Typed value)
    (isSet : IsSet conditions condition value) : Enforced conditions condition value := by
  obtain ⟨stored, notNull, filled⟩ := isSet
  refine ⟨stored, ?_⟩
  cases value with
  | string text => exact .inr ⟨text, rfl, fun blank => filled (blank ▸ rfl)⟩
  | array items => exact .inl ⟨typed.1, notNull⟩
  | _ => exact typed.elim

end Condition

/-! ### Failing closed -/

open Condition

/-- Where a policy allows and matches, each of its conditions that is set has the type it
expects, and what it expresses holds of the request. -/
def FailsClosed (platform : Platform) (clock : Time) (policy : Policy) (resource action : String)
    (req : RequestContext) : Prop :=
  policy.effect = .allow → policyMatches platform clock policy resource action req = true →
    ∀ condition value, IsSet policy.conditions condition value →
      condition.Typed value ∧
        condition.Holds platform clock policy.conditions { req with resource, action } value

/-- The conditions of a policy have the types they expect, or something else keeps the policy
from the request: its effect, its resources and actions, or a condition that is enforced. -/
def ClosedBy (platform : Platform) (clock : Time) (policy : Policy) (resource action : String)
    (req : RequestContext) : Prop :=
  WellTyped policy.conditions ∨ policy.effect ≠ .allow ∨
    policyMatchesResourceAction policy resource action = false ∨
    ∃ condition value, Enforced policy.conditions condition value ∧
      ¬ condition.Holds platform clock policy.conditions { req with resource, action } value

theorem policyMatches_iff {platform : Platform} {clock : Time} {policy : Policy}
    {resource action : String} {req : RequestContext} :
    policyMatches platform clock policy resource action req = true ↔
      policyMatchesResourceAction policy resource action = true ∧
        ∀ condition,
          Passes platform clock policy.conditions { req with resource, action } condition := by
  rw [policyMatches, Bool.and_eq_true, conditionsMatch_iff]

/-- A policy whose conditions have the types they expect applies only where they all hold. -/
theorem Condition.WellTyped.holds {platform : Platform} {clock : Time} {policy : Policy}
    {resource action : String} {req : RequestContext} (typed : WellTyped policy.conditions)
    (found : policyMatches platform clock policy resource action req = true)
    {condition : Condition} {value : Value} (isSet : IsSet policy.conditions condition value) :
    condition.Holds platform clock policy.conditions { req with resource, action } value :=
  (policyMatches_iff.mp found).2 condition value ((typed condition value isSet).enforced isSet)

theorem fails_closed_iff (platform : Platform) (clock : Time) (policy : Policy)
    (resource action : String) (req : RequestContext) :
    FailsClosed platform clock policy resource action req ↔
      ClosedBy platform clock policy resource action req := by
  constructor
  · intro closed
    by_cases allows : policy.effect = .allow
    · by_cases found : policyMatches platform clock policy resource action req = true
      · exact .inl fun condition value isSet => (closed allows found condition value isSet).1
      · -- what does not match is kept away by its patterns or by an enforced condition
        rw [policyMatches_iff, not_and_or, Bool.not_eq_true] at found
        obtain unnamed | failing := found
        · exact .inr (.inr (.inl unnamed))
        · simp only [Passes, not_forall] at failing
          obtain ⟨condition, value, enforced, fails⟩ := failing
          exact .inr (.inr (.inr ⟨condition, value, enforced, fails⟩))
    · exact .inr (.inl allows)
  · rintro (typed | denies | unnamed | ⟨failing, value, enforced, fails⟩) allows found
    · exact fun condition value isSet => ⟨typed condition value isSet, typed.holds found isSet⟩
    · exact absurd allows denies
    · exact absurd (policyMatches_iff.mp found).1 (by simp [unnamed])
    · exact absurd ((policyMatches_iff.mp found).2 failing value enforced) fails

/-- A policy meant for one namespace, written as a list the way networks are. -/
def listedNamespace : Policy :=
  { name := "team", effect := .allow, resources := ["secrets/*"], actions := ["read"],
    conditions := .insert ∅ "namespace" (.array [.string "prod"]) }

theorem listedNamespace_found :
    policyMatches plainPlatform {} listedNamespace "secrets/db" "read" { «namespace» := "dev" } =
      true := by
  refine policyMatches_iff.mpr ⟨by decide, fun condition value enforced => ?_⟩
  obtain ⟨stored, kind⟩ := enforced
  have only : condition.key = "namespace" ∧ value = .array [.string "prod"] := by
    simpa [listedNamespace, getElem?_insert, eq_comm] using stored
  obtain ⟨named, rfl⟩ := only
  obtain ⟨rfl, -⟩ | ⟨_, text, -⟩ := kind
  · simp [key] at named
  · cases text

/-- The policy can be saved, and it lets a request from another namespace read. -/
theorem mistyped_condition_allows :
    listedNamespace.validate = .ok () ∧
      ¬ FailsClosed plainPlatform {} listedNamespace "secrets/db" "read"
        { «namespace» := "dev" } ∧
      ((RBAC.new.upsertPolicy listedNamespace).authorizeDetailed plainPlatform {} ["team"]
        "secrets/db" "read" { «namespace» := "dev" }).allowed = true := by
  have stored : (RBAC.new.upsertPolicy listedNamespace).policy "team" = some listedNamespace := by
    simp [RBAC.upsertPolicy, RBAC.policy, listedNamespace]
  have decided : (RBAC.new.upsertPolicy listedNamespace).decision plainPlatform {} "secrets/db"
      "read" { «namespace» := "dev" } "team" = some .allow := by
    rw [RBAC.decision, stored]
    exact if_pos listedNamespace_found
  refine ⟨by decide, fun closed => ?_, ?_⟩
  · have isSet : IsSet listedNamespace.conditions .namespace (.array [.string "prod"]) := by
      simp [IsSet, listedNamespace, key]
    cases (closed rfl listedNamespace_found .namespace _ isSet).1.1
  · rw [RBAC.authorizeDetailed_allowed_iff]
    simp [decided]

end KnxVault.Auth
