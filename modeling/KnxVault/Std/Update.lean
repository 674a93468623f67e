import Mathlib

/-!
# Updates that may fail halfway

A computation on a state may change the state and fail afterwards; what it has
changed stays changed. `Computes` says that it does not: it is one step, which
fails and leaves the state or does what a function of the state says.
-/

namespace KnxVault.Std

/-- A computation that changes a state and may fail. -/
abbrev Update (State Error : Type) := ExceptT Error (StateM State)

namespace Update

variable {State Part Error Other α β : Type}

/-- The result of an update, and the state that it leaves. -/
def exec (program : Update State Error α) (state : State) : Except Error α × State :=
  program.run.run state

/-- An update of a part of the state. -/
def within (view : State → Part) (put : State → Part → State) (program : Update Part Error α) :
    Update State Error α :=
  ExceptT.mk fun state =>
    let (result, part) := program.exec (view state)
    (result, put state part)

def wrapError (wrap : Error → Other) (program : Update State Error α) : Update State Other α :=
  ExceptT.mk fun state =>
    let (result, later) := program.exec state
    (result.mapError wrap, later)

def ofExcept (result : Except Error α) : Update State Error α :=
  ExceptT.mk (pure result)

@[simp] theorem exec_pure (value : α) (state : State) :
    (pure value : Update State Error α).exec state = (.ok value, state) := rfl

@[simp] theorem exec_throw (err : Error) (state : State) :
    (throw err : Update State Error α).exec state = (.error err, state) := rfl

@[simp] theorem exec_set (later state : State) :
    (set later : Update State Error Unit).exec state = (.ok (), later) := rfl

@[simp] theorem exec_modify (change : State → State) (state : State) :
    (modify change : Update State Error Unit).exec state = (.ok (), change state) := rfl

@[simp] theorem exec_ofExcept (result : Except Error α) (state : State) :
    (ofExcept result : Update State Error α).exec state = (result, state) := rfl

theorem exec_bind (first : Update State Error α) (next : α → Update State Error β)
    (state : State) :
    (first >>= next).exec state =
      match first.exec state with
      | (.ok value, later) => (next value).exec later
      | (.error err, later) => (.error err, later) := by
  change (let outcome := first.exec state
    (ExceptT.bindCont next outcome.1).run outcome.2) = _
  generalize first.exec state = outcome
  obtain ⟨result, later⟩ := outcome
  cases result <;> rfl

@[simp] theorem exec_get_bind (next : State → Update State Error α) (state : State) :
    (get >>= next).exec state = (next state).exec state :=
  exec_bind _ _ _

/-- The outcome of one step: an error leaves the state. -/
def settle (state : State) : Except Error (State × α) → Except Error α × State
  | .ok (later, value) => (.ok value, later)
  | .error err => (.error err, state)

@[simp] theorem settle_ok (state later : State) (value : α) :
    settle state (.ok (later, value) : Except Error (State × α)) = (.ok value, later) := rfl

@[simp] theorem settle_error (state : State) (err : Error) :
    settle state (.error err : Except Error (State × α)) = (.error err, state) := rfl

/-- The update is the step that the function describes. -/
def Computes (program : Update State Error α) (step : State → Except Error (State × α)) : Prop :=
  ∀ state, program.exec state = settle state (step state)

variable {program : Update State Error α} {step : State → Except Error (State × α)}

/-- One step that fails changes nothing. -/
theorem Computes.unchanged (computes : program.Computes step) {state : State} {err : Error}
    (failed : (program.exec state).1 = .error err) : (program.exec state).2 = state := by
  rw [computes state] at failed ⊢
  cases outcome : step state with
  | ok result => simp [outcome, settle] at failed
  | error err => rfl

theorem Computes.wrapError (computes : program.Computes step) (wrap : Error → Other) :
    (program.wrapError wrap).Computes fun state => (step state).mapError wrap := by
  intro state
  change ((program.exec state).1.mapError wrap, (program.exec state).2) = _
  rw [computes state]
  cases outcome : step state <;> simp [settle, outcome, Except.mapError]

/-- A step on a part is a step on the whole, if putting the part back changes
nothing. -/
theorem Computes.within {program : Update Part Error α} {step : Part → Except Error (Part × α)}
    (computes : program.Computes step) (view : State → Part) (put : State → Part → State)
    (back : ∀ state, put state (view state) = state) :
    (program.within view put).Computes fun state =>
      (step (view state)).map fun (later, value) => (put state later, value) := by
  intro state
  change ((program.exec (view state)).1, put state (program.exec (view state)).2) = _
  rw [computes (view state)]
  cases outcome : step (view state) with
  | ok result => simp [settle, outcome, Except.map]
  | error err => simp [settle, outcome, Except.map, back]

/-- A step followed by what cannot fail and changes nothing. -/
theorem Computes.map (computes : program.Computes step) (change : α → β) :
    (program >>= fun value => pure (change value)).Computes fun state =>
      (step state).map fun (later, value) => (later, change value) := by
  intro state
  rw [exec_bind, computes state]
  cases outcome : step state <;> simp [settle, outcome, Except.map]

end Update

end KnxVault.Std
