import Mathlib

/-!
# Runs of a deterministic state machine

A machine is a step function on states. `run` takes a list of inputs to the
state reached; the rules here turn a fact about one step into one about runs.
-/

namespace KnxVault.Std

variable {State Input Output : Type*}

/-- The state reached from `start` by the inputs in turn. -/
def run (step : State → Input → State) (start : State) (inputs : List Input) : State :=
  inputs.foldl step start

/-- What the machine gives out along a run. -/
def outputs (step : State → Input → State) (output : State → Input → Output) :
    State → List Input → List Output
  | _, [] => []
  | state, input :: inputs => output state input :: outputs step output (step state input) inputs

/-- Every input of the run meets `Allowed` in the state where it is taken. -/
def AllSteps (step : State → Input → State) (Allowed : State → Input → Prop) :
    State → List Input → Prop
  | _, [] => True
  | state, input :: inputs => Allowed state input ∧ AllSteps step Allowed (step state input) inputs

instance AllSteps.decidable (step : State → Input → State) (Allowed : State → Input → Prop)
    [∀ state input, Decidable (Allowed state input)] :
    (start : State) → (inputs : List Input) → Decidable (AllSteps step Allowed start inputs)
  | _, [] => isTrue trivial
  | start, input :: inputs =>
    have := decidable step Allowed (step start input) inputs
    inferInstanceAs (Decidable (Allowed start input ∧ _))

variable {step : State → Input → State} {start : State}

@[simp] theorem run_nil : run step start [] = start := rfl

@[simp] theorem run_cons (input : Input) (inputs : List Input) :
    run step start (input :: inputs) = run step (step start input) inputs := rfl

theorem run_append (first second : List Input) :
    run step start (first ++ second) = run step (run step start first) second := by
  simp [run]

variable {Allowed : State → Input → Prop} {Inv : State → Prop} {inputs : List Input}

/-- What every allowed step preserves holds after a run of allowed steps. -/
theorem AllSteps.invariant
    (preserved : ∀ state input, Allowed state input → Inv state → Inv (step state input))
    (allowed : AllSteps step Allowed start inputs) (initial : Inv start) :
    Inv (run step start inputs) := by
  induction inputs generalizing start with
  | nil => exact initial
  | cons input inputs ih => exact ih allowed.2 (preserved _ _ allowed.1 initial)

theorem AllSteps.append {first second : List Input} :
    AllSteps step Allowed start (first ++ second) ↔
      AllSteps step Allowed start first ∧ AllSteps step Allowed (run step start first) second := by
  induction first generalizing start with
  | nil => simp [AllSteps]
  | cons input inputs ih =>
    rw [List.cons_append, AllSteps, AllSteps, ih, run_cons, and_assoc]

theorem AllSteps.and {Permitted : State → Input → Prop}
    (allowed : AllSteps step Allowed start inputs)
    (permitted : AllSteps step Permitted start inputs) :
    AllSteps step (fun state input => Allowed state input ∧ Permitted state input) start
      inputs := by
  induction inputs generalizing start with
  | nil => trivial
  | cons input inputs ih =>
    exact ⟨⟨allowed.1, permitted.1⟩, ih allowed.2 permitted.2⟩

theorem AllSteps.imp {Permitted : State → Input → Prop}
    (weaker : ∀ state input, Allowed state input → Permitted state input)
    (allowed : AllSteps step Allowed start inputs) : AllSteps step Permitted start inputs := by
  induction inputs generalizing start with
  | nil => trivial
  | cons input inputs ih => exact ⟨weaker _ _ allowed.1, ih allowed.2⟩

/-- What an invariant allows in every state is allowed along a run. -/
theorem AllSteps.of_invariant (allows : ∀ state input, Inv state → Allowed state input)
    (preserved : ∀ state input, Allowed state input → Inv state → Inv (step state input))
    (inputs : List Input) (initial : Inv start) : AllSteps step Allowed start inputs := by
  induction inputs generalizing start with
  | nil => trivial
  | cons input inputs ih =>
    have allowed := allows start input initial
    exact ⟨allowed, ih (preserved start input allowed initial)⟩

/-- What is allowed at every place of the run. -/
theorem AllSteps.of_take
    (allowed : ∀ place input, inputs[place]? = some input →
      Allowed (run step start (inputs.take place)) input) : AllSteps step Allowed start inputs := by
  induction inputs generalizing start with
  | nil => trivial
  | cons input inputs ih =>
    exact ⟨allowed 0 input rfl, ih fun place later found => allowed (place + 1) later found⟩

/-- What is allowed along the run is allowed at each place of it. -/
theorem AllSteps.get (allowed : AllSteps step Allowed start inputs) {place : Nat} {input : Input}
    (found : inputs[place]? = some input) : Allowed (run step start (inputs.take place)) input := by
  induction inputs generalizing start place with
  | nil => cases found
  | cons first inputs ih =>
    cases place with
    | zero =>
      cases found
      exact allowed.1
    | succ place => exact ih allowed.2 found

theorem AllSteps.take (allowed : AllSteps step Allowed start inputs) (count : Nat) :
    AllSteps step Allowed start (inputs.take count) := by
  rw [← List.take_append_drop count inputs] at allowed
  exact (AllSteps.append.mp allowed).1

/-- If a step preserves the invariant just where it is allowed, the invariant holds all along a run
just if all its steps are allowed. -/
theorem AllSteps.iff_invariant
    (steps : ∀ state input, Inv state → (Inv (step state input) ↔ Allowed state input))
    (initial : Inv start) (inputs : List Input) :
    (∀ count, Inv (run step start (inputs.take count))) ↔ AllSteps step Allowed start inputs := by
  constructor
  · intro always
    refine AllSteps.of_take fun place input found => ?_
    refine (steps _ input (always place)).mp ?_
    have next := always (place + 1)
    rwa [List.take_add_one, found, Option.toList_some, run_append, run_cons, run_nil] at next
  · intro allowed count
    exact (allowed.take count).invariant (fun state input isAllowed inv =>
      (steps state input inv).mpr isAllowed) initial

/-- A fact that came about in a run was brought about by one of its steps. -/
theorem exists_step_of_change {Fact : State → Prop} (unset : ¬ Fact start)
    (set : Fact (run step start inputs)) :
    ∃ before input after, inputs = before ++ input :: after ∧
      ¬ Fact (run step start before) ∧ Fact (step (run step start before) input) := by
  induction inputs generalizing start with
  | nil => exact absurd set unset
  | cons input inputs ih =>
    by_cases fact : Fact (step start input)
    · exact ⟨[], input, inputs, rfl, unset, fact⟩
    · obtain ⟨before, later, after, split, held, changed⟩ := ih fact set
      exact ⟨input :: before, later, after, by rw [split, List.cons_append], held, changed⟩

/-- What every step preserves holds after every run. -/
theorem run_invariant (preserved : ∀ state input, Inv state → Inv (step state input))
    (inputs : List Input) (initial : Inv start) : Inv (run step start inputs) := by
  induction inputs generalizing start with
  | nil => exact initial
  | cons input inputs ih => exact ih (preserved _ _ initial)

/-- Two runs over similar inputs agree if allowed steps on similar inputs do. -/
theorem AllSteps.lockstep {output : State → Input → Output} {Similar : Input → Input → Prop}
    (agree : ∀ state input other, Allowed state input → Similar input other →
      step state input = step state other ∧ output state input = output state other)
    {first second : List Input} (similar : List.Forall₂ Similar first second)
    (allowed : AllSteps step Allowed start first) :
    run step start first = run step start second ∧
      outputs step output start first = outputs step output start second := by
  induction similar generalizing start with
  | nil => exact ⟨rfl, rfl⟩
  | @cons input other _ _ same _ ih =>
    obtain ⟨sameStep, sameOutput⟩ := agree start input other allowed.1 same
    obtain ⟨sameRun, sameOutputs⟩ := ih allowed.2
    rw [run_cons, run_cons, outputs, outputs, ← sameStep, sameOutput, sameOutputs]
    exact ⟨sameRun, rfl⟩

end KnxVault.Std
