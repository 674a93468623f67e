import KnxVault.Rotation.Target

/-!
# Rotations beside changes of policies

Callers put and delete policies while rotations run. A rotation reads a policy, writes a
secret, and then saves the whole policy that it has read. The policies should be as the
puts and deletions have left them, in the order in which these took effect: `intended`.
-/

namespace KnxVault.Rotation

open KnxVault.Std KnxVault.Domain KnxVault.Repository KnxVault.Engine

/-! ### What callers set -/

structure Settings where
  interval : Int
  generator : String
deriving DecidableEq, Repr

/-- How often a policy is rotated, and to what. -/
def settings (policy : RotationPolicy) : Settings := ⟨policy.interval, policy.generator⟩

def RotationStores.settings (stores : RotationStores) (path : String) : Option Settings :=
  (stores.policies.find path).map Rotation.settings

inductive PolicyChange where
  | put (policy : RotationPolicy)
  | delete (path : String)
deriving DecidableEq

namespace PolicyChange

/-- The path that a change is about. -/
def path : PolicyChange → String
  | put policy => policy.path
  | delete path => path

/-- What is set by a change. -/
def sets : PolicyChange → Option Settings
  | put policy => some (settings policy)
  | delete _ => none

/-- What a change leaves. -/
def apply (current : String → Option Settings) (change : PolicyChange) : String → Option Settings :=
  Function.update current change.path change.sets

/-- A change stays in force until the next one about its path. -/
theorem run_apply_other {path : String} (changes : List PolicyChange)
    (current : String → Option Settings) (others : ∀ change ∈ changes, change.path ≠ path) :
    run apply current changes path = current path := by
  induction changes generalizing current with
  | nil => rfl
  | cons change changes ih =>
    rw [run_cons, ih _ fun other listed => others other (List.mem_cons_of_mem _ listed)]
    exact Function.update_of_ne (others change List.mem_cons_self).symm _ _

end PolicyChange

/-- What changes in turn leave. -/
def intended (start : RotationStores) (changes : List PolicyChange) : String → Option Settings :=
  run PolicyChange.apply start.settings changes

/-! ### Stores that keep a record of the changes -/

structure RotationWorld where
  stores : RotationStores
  /-- The puts and deletions that succeeded, in the order in which they took effect. -/
  changes : List PolicyChange

namespace RotationOp

def change : (op : RotationOp) → op.Answer → List PolicyChange
  | savePolicy policy, answer => if answer.isOk then [.put policy] else []
  | deletePolicy path, answer => if answer.isOk then [.delete path] else []
  | saveRotated _, _ | getPolicy _, _ | listPolicies, _ | putAtomic _, _ => []

def perform (range : MapRange) (op : RotationOp) (world : RotationWorld) :
    op.Answer × RotationWorld :=
  ((op.exec range world.stores).1,
    ⟨(op.exec range world.stores).2,
      world.changes ++ op.change (op.exec range world.stores).1⟩)

/-- A rotation saves a policy as it is set in the store. -/
def Meets (world : RotationWorld) : RotationOp → Prop
  | saveRotated policy => policy.validate = .ok () →
      world.stores.settings policy.path = some (settings policy)
  | _ => True

instance Meets.decidable (world : RotationWorld) : (op : RotationOp) → Decidable (op.Meets world)
  | saveRotated policy => inferInstanceAs (Decidable (policy.validate = .ok () → _ = some _))
  | savePolicy _ | deletePolicy _ | getPolicy _ | listPolicies | putAtomic _ => isTrue trivial

variable {range : MapRange} {stores : RotationStores}

/-- Everything that a saved policy can do to the settings. -/
theorem save_cases (stores : RotationStores) (policy : RotationPolicy) :
    (policy.validate ≠ .ok () ∧ (∃ err, stores.policies.save policy = .error err)) ∨
    ∃ policies, policy.validate = .ok () ∧ stores.policies.save policy = .ok policies ∧
      RotationStores.settings { stores with policies } =
        Function.update stores.settings policy.path (some (settings policy)) := by
  cases checked : policy.validate with
  | error err => exact .inl ⟨by simp, _, saveRow_of_error checked⟩
  | ok _ =>
    refine .inr ⟨_, rfl, saveRow_ok_iff.mpr ⟨checked, rfl⟩, funext fun path => ?_⟩
    rw [Function.update_apply]
    unfold RotationStores.settings
    rw [stores.policies.find_put policy checked path]
    simp only [eq_comm]
    split <;> rfl

theorem delete_cases (stores : RotationStores) (path : String) :
    (∃ err, stores.policies.delete path = .error err) ∨
    ∃ policies, stores.policies.delete path = .ok policies ∧
      RotationStores.settings { stores with policies } =
        Function.update stores.settings path none := by
  cases found : stores.policies.find path with
  | none =>
    refine .inl ⟨{ code := .notFound, message := "rotation policy not found" }, ?_⟩
    unfold RotationPolicyRepository.delete deleteRow
    rw [found]
  | some policy =>
    refine .inr ⟨_, deleteRow_ok_iff.mpr ⟨⟨_, found⟩, rfl⟩, funext fun other => ?_⟩
    rw [Function.update_apply]
    unfold RotationStores.settings
    rw [stores.policies.find_remove path other]
    simp only [eq_comm]
    split <;> rfl

/-- A rotation that saves sets what it has read; every other operation sets what it records. -/
theorem settings_exec (range : MapRange) (op : RotationOp) (stores : RotationStores) :
    (∃ policy, op = saveRotated policy ∧ policy.validate = .ok () ∧
      (op.exec range stores).2.settings =
        Function.update stores.settings policy.path (some (settings policy))) ∨
    (∀ policy, op = saveRotated policy → policy.validate ≠ .ok ()) ∧
      (op.exec range stores).2.settings =
        run PolicyChange.apply stores.settings (op.change (op.exec range stores).1) := by
  cases op with
  | savePolicy policy =>
    refine .inr ⟨fun _ same => (by cases same), ?_⟩
    obtain ⟨-, err, failed⟩ | ⟨policies, -, saved, left⟩ := save_cases stores policy
    · simp only [exec, changePolicies, failed, change]
      rfl
    · simp only [exec, changePolicies, saved, change]
      exact left
  | saveRotated policy =>
    obtain ⟨invalid, err, failed⟩ | ⟨policies, valid, saved, left⟩ := save_cases stores policy
    · refine .inr ⟨fun _ same => by cases same; exact invalid, ?_⟩
      simp only [exec, changePolicies, failed, change]
      rfl
    · refine .inl ⟨policy, rfl, valid, ?_⟩
      simp only [exec, changePolicies, saved]
      exact left
  | deletePolicy path =>
    refine .inr ⟨fun _ same => (by cases same), ?_⟩
    obtain ⟨err, failed⟩ | ⟨policies, dropped, left⟩ := delete_cases stores path
    · simp only [exec, changePolicies, failed, change]
      rfl
    · simp only [exec, changePolicies, dropped, change]
      exact left
  | putAtomic write =>
    refine .inr ⟨fun _ same => (by cases same), ?_⟩
    simp only [exec, change, run_nil]
    split <;> rfl
  | getPolicy path => exact .inr ⟨fun _ same => (by cases same), rfl⟩
  | listPolicies => exact .inr ⟨fun _ same => (by cases same), rfl⟩

/-- From settings as intended, an operation leads to such settings just if it meets them. -/
theorem perform_intended {start : RotationStores} {world : RotationWorld} (range : MapRange)
    (op : RotationOp) (holds : world.stores.settings = intended start world.changes) :
    (op.perform range world).2.stores.settings =
        intended start (op.perform range world).2.changes ↔ op.Meets world := by
  obtain ⟨policy, rfl, valid, left⟩ | ⟨others, left⟩ := settings_exec range op world.stores
  · change (_ = intended start (world.changes ++ [])) ↔ (_ → _)
    rw [List.append_nil, ← holds]
    change (RotationOp.exec range (saveRotated policy) world.stores).2.settings = _ ↔ _
    rw [left, Function.update_eq_self_iff]
    exact ⟨fun same _ => same.symm, fun meets => (meets valid).symm⟩
  · refine iff_of_true ?_ ?_
    · change (op.exec range world.stores).2.settings = run PolicyChange.apply start.settings
        (world.changes ++ op.change (op.exec range world.stores).1)
      rw [left, run_append, holds]
      rfl
    · cases op with
      | saveRotated policy => exact fun valid => absurd valid (others policy rfl)
      | savePolicy _ | deletePolicy _ | getPolicy _ | listPolicies | putAtomic _ => exact trivial

end RotationOp

/-! ### Calls side by side -/

inductive RotationCall where
  | putPolicy (tenant : String) (policy : RotationPolicy)
  | deletePolicy (tenant path : String)
  | getPolicy (path : String)
  | rotatePath (tenant : String) (draw : RotationDraw) (policy : RotationPolicy)
  | runDue (tenant : String) (draws : String → RotationDraw) (now : Time)
  | reportExposure (tenant : String) (draw : RotationDraw) (path : String)

namespace RotationCall

abbrev Value : RotationCall → Type
  | putPolicy .. | deletePolicy .. | rotatePath .. | reportExposure .. => Unit
  | getPolicy .. => RotationPolicy
  | runDue .. => RunReport

def program (service : SecretsService) : (call : RotationCall) → RotationProgram call.Value
  | putPolicy tenant policy => RotationService.putPolicy service tenant policy
  | deletePolicy tenant path => RotationService.deletePolicy service tenant path
  | getPolicy path => RotationService.getPolicy path
  | rotatePath tenant draw policy => RotationService.rotatePath service tenant draw policy
  | runDue tenant draws now => RotationService.runDue service tenant draws now
  | reportExposure tenant draw path => RotationService.reportExposure service tenant draw path

/-- The change that a call is to make: the put or the deletion at the scoped path. -/
def asks (service : SecretsService) : RotationCall → Option PolicyChange
  | putPolicy tenant policy => (service.scopePath tenant policy.path).toOption.map fun path =>
      .put { policy with enabled := true, path }
  | deletePolicy tenant path => (service.scopePath tenant path).toOption.map .delete
  | getPolicy .. | rotatePath .. | runDue .. | reportExposure .. => none

end RotationCall

abbrev rotationNodes (service : SecretsService) : Interleaving where
  State := RotationWorld
  Op := RotationOp
  Answer := RotationOp.Answer
  Draw := MapRange
  exec := RotationOp.perform
  Call := RotationCall
  Result call := Except GoError call.Value
  program call := (call.program service).run

namespace RotationCall

variable {service : SecretsService} {change : PolicyChange}

/-- A call that asks for a change does not succeed on answers that do not record it. -/
theorem program_ensures (call : RotationCall) :
    ((rotationNodes service).program call).Ensures (fun op answer => change ∉ op.change answer)
      fun result => ¬ (call.asks service = some change ∧ result.isOk = true) := by
  cases call with
  | putPolicy tenant policy =>
    change ((RotationService.putPolicy service tenant policy).run).Ensures _ _
    refine (Fallible.ensures_bind _ _).mpr ?_
    rw [Fallible.run_ofExcept]
    cases scoping : service.scopePath tenant policy.path with
    | error err => exact fun asked => (nomatch asked.2)
    | ok path =>
      rintro (err | done) unrecorded ⟨asked, succeeded⟩
      · cases succeeded
      · rw [asks, scoping] at asked
        cases asked
        exact unrecorded (List.mem_singleton_self _)
  | deletePolicy tenant path =>
    change ((RotationService.deletePolicy service tenant path).run).Ensures _ _
    refine (Fallible.ensures_bind _ _).mpr ?_
    rw [Fallible.run_ofExcept]
    cases scoping : service.scopePath tenant path with
    | error err => exact fun asked => (nomatch asked.2)
    | ok path =>
      rintro (err | done) unrecorded ⟨asked, succeeded⟩
      · cases succeeded
      · rw [asks, scoping] at asked
        cases asked
        exact unrecorded (List.mem_singleton_self _)
  | getPolicy | rotatePath | runDue | reportExposure =>
    exact Program.Ensures.of_post (fun _ asked => (nomatch asked.1)) _

end RotationCall

section Runs

open Interleaving.Pool (step Performs)

variable {service : SecretsService} {start : RotationStores}
  {events : List (rotationNodes service).Event}

/-- The stores at the start, before any call. -/
def rotationStart (service : SecretsService) (start : RotationStores) :
    (rotationNodes service).Pool :=
  (rotationNodes service).idle ⟨start, []⟩

/-- The policies are set as the puts and deletions so far have left them. -/
def AsIntended (start : RotationStores) (pool : (rotationNodes service).Pool) : Prop :=
  pool.state.stores.settings = intended start pool.state.changes

/-- The policies are as intended all along a run just if each rotation of it saves a policy as it
is set. -/
theorem asIntended_iff (events : List (rotationNodes service).Event) :
    (∀ count, AsIntended start (run step (rotationStart service start) (events.take count))) ↔
      AllSteps step (Performs fun world op => RotationOp.Meets world op)
        (rotationStart service start) events :=
  @Interleaving.Pool.iff_invariant (rotationNodes service) _
    (fun world : RotationWorld => world.stores.settings = intended start world.changes)
    (fun range op _ holds => RotationOp.perform_intended range op holds)
    (rotationStart service start) rfl events

/-- A put or a deletion that returned success is on record. -/
theorem recorded_of_returned {place : Nat} {call : RotationCall}
    {result : Except GoError call.Value} {change : PolicyChange}
    (returned : (run step (rotationStart service start) events).Returned place call result)
    (succeeded : result.isOk = true) (asked : call.asks service = some change) :
    change ∈ (run step (rotationStart service start) events).state.changes := by
  refine @Interleaving.Pool.fact_of_returned (rotationNodes service) (fun _ _ => True)
    (fun world : RotationWorld => change ∈ world.changes)
    (fun op answer => change ∉ RotationOp.change op answer)
    (fun call result => call.asks service = some change ∧ result.isOk = true)
    (fun range op world _ recorded => List.mem_append_left _ recorded)
    (fun range op world _ unrecorded => fun recorded =>
      unrecorded (List.mem_append_right _ recorded))
    RotationCall.program_ensures ⟨start, []⟩ events ?_ place call result returned
    ⟨asked, succeeded⟩
  exact AllSteps.of_take fun _ _ _ _ _ => trivial

end Runs

section Undoing

open Interleaving.Pool (step Performs)

/-- In every run of calls side by side the policies are at all times as the puts and deletions
have left them, if and only if each rotation saves a policy as it is set at that time. What a call
reports as done is among these puts and deletions; so a deleted policy is gone until it is put
again, and what was put stays until the next change about its path. -/
theorem rotation_keeps_changes_iff (service : SecretsService) (start : RotationStores)
    (events : List (rotationNodes service).Event) :
    ((∀ count, AsIntended start (run step (rotationStart service start) (events.take count))) ↔
      AllSteps step (Performs fun world op => RotationOp.Meets world op)
        (rotationStart service start) events) ∧
    (∀ (place : Nat) (call : RotationCall) (result : Except GoError call.Value)
      (change : PolicyChange),
      (run step (rotationStart service start) events).Returned place call result →
      result.isOk = true → call.asks service = some change →
      change ∈ (run step (rotationStart service start) events).state.changes) ∧
    (AllSteps step (Performs fun world op => RotationOp.Meets world op)
        (rotationStart service start) events →
      (∀ earlier path later,
        (run step (rotationStart service start) events).state.changes =
          earlier ++ .delete path :: later →
        (∀ change ∈ later, change.path ≠ path) →
        (run step (rotationStart service start) events).state.stores.policies.find path = none) ∧
      ∀ earlier policy later,
        (run step (rotationStart service start) events).state.changes =
          earlier ++ .put policy :: later →
        (∀ change ∈ later, change.path ≠ policy.path) →
        ∃ stored, (run step (rotationStart service start) events).state.stores.policies.find
            policy.path = some stored ∧
          stored.interval = policy.interval ∧ stored.generator = policy.generator) := by
  refine ⟨asIntended_iff events, fun place call result change returned succeeded asked =>
    recorded_of_returned returned succeeded asked, fun meets => ?_⟩
  have holds := (asIntended_iff events).mpr meets events.length
  rw [List.take_length] at holds
  generalize run step (rotationStart service start) events = pool at holds
  have left {earlier later : List PolicyChange} {change : PolicyChange}
      (recorded : pool.state.changes = earlier ++ change :: later)
      (others : ∀ other ∈ later, other.path ≠ change.path) :
      pool.state.stores.settings change.path = change.sets := by
    rw [holds, intended, recorded, run_append, run_cons,
      PolicyChange.run_apply_other later _ others]
    exact Function.update_self change.path _ _
  constructor
  · intro earlier path later recorded others
    exact Option.map_eq_none_iff.mp (left recorded others)
  · intro earlier policy later recorded others
    obtain ⟨stored, found, same⟩ := Option.map_eq_some_iff.mp (left recorded others)
    exact ⟨stored, found, congrArg Settings.interval same, congrArg Settings.generator same⟩

/-- A rotation that ends before a policy is deleted. -/
theorem rotation_before_deletion :
    (run step (rotationStart sampleSecrets sampleStores)
      [.start (.runDue "red" (fun _ => sampleDraw) ⟨1, 0⟩), .advance 0 .sorted, .advance 0 .sorted,
        .advance 0 .sorted, .start (.deletePolicy "red" "db"),
        .advance 1 .sorted]).state.stores.policies.find "red/db" = none :=
  ((rotation_keeps_changes_iff sampleSecrets sampleStores _).2.2 (by decide +kernel)).1 []
    "red/db" [] (by decide +kernel) (by simp)

/-- A rotation that has read the policy when it is deleted, or put anew, saves what it has read. -/
theorem rotation_undoes :
    (let pool := run step (rotationStart sampleSecrets sampleStores)
      [.start (.runDue "red" (fun _ => sampleDraw) ⟨1, 0⟩), .advance 0 .sorted,
        .start (.deletePolicy "red" "db"), .advance 1 .sorted, .advance 0 .sorted,
        .advance 0 .sorted]
     pool.endsWith 1 (fun _ result => result.isOk) = true ∧
      pool.state.stores.settings "red/db" = some ⟨60, "random_password"⟩) ∧
    (let pool := run step (rotationStart sampleSecrets sampleStores)
      [.start (.runDue "red" (fun _ => sampleDraw) ⟨1, 0⟩), .advance 0 .sorted,
        .start (.putPolicy "red" { path := "db", interval := 3600, generator := "script_ref",
                                   scriptRef := "next" }),
        .advance 1 .sorted, .advance 0 .sorted, .advance 0 .sorted]
     pool.endsWith 1 (fun _ result => result.isOk) = true ∧
      pool.state.stores.settings "red/db" = some ⟨60, "random_password"⟩) := by
  decide +kernel

end Undoing

end KnxVault.Rotation
