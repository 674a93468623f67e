import KnxVault.Std.Concurrent

/-!
# Executions of a single call

A call that meets no other call performs its operations one after the other on one
state. What the operations take from outside is not known, so that a call has many
executions; `Runs` relates a state to every result and state in which one may end.
-/

namespace KnxVault.Std

namespace Program

variable {Op : Type} {Answer : Op → Type} {State Draw : Type*} {α β : Type}

/-- The program may end with the result and leave the state `later`. -/
inductive Runs (exec : Draw → (op : Op) → State → Answer op × State) :
    Program Op Answer α → State → α → State → Prop
  | done (result : α) (state : State) : Runs exec (.done result) state result state
  | call {op : Op} {next : Answer op → Program Op Answer α} {state later : State} {result : α}
      (draw : Draw) (rest : Runs exec (next (exec draw op state).1) (exec draw op state).2 result
        later) : Runs exec (.call op next) state result later

variable {exec : Draw → (op : Op) → State → Answer op × State} {state later : State} {result : α}

theorem runs_done {value : α} :
    Runs exec (.done value : Program Op Answer α) state result later ↔
      result = value ∧ later = state := by
  constructor
  · rintro ⟨⟩
    exact ⟨rfl, rfl⟩
  · rintro ⟨rfl, rfl⟩
    exact .done _ _

theorem runs_call {op : Op} {next : Answer op → Program Op Answer α} :
    Runs exec (.call op next) state result later ↔
      ∃ draw, Runs exec (next (exec draw op state).1) (exec draw op state).2 result later := by
  constructor
  · intro runs
    cases runs with
    | call draw rest => exact ⟨draw, rest⟩
  · rintro ⟨draw, rest⟩
    exact .call draw rest

theorem runs_perform {op : Op} {result : Answer op} :
    Runs exec (perform op) state result later ↔
      ∃ draw, result = (exec draw op state).1 ∧ later = (exec draw op state).2 :=
  runs_call.trans (exists_congr fun _ => runs_done)

theorem runs_bind {first : Program Op Answer α} {rest : α → Program Op Answer β} {result : β} :
    Runs exec (first >>= rest) state result later ↔
      ∃ value middle, Runs exec first state value middle ∧
        Runs exec (rest value) middle result later := by
  induction first generalizing state with
  | done value =>
    constructor
    · exact fun runs => ⟨value, state, .done _ _, runs⟩
    · rintro ⟨_, _, ended, runs⟩
      obtain ⟨rfl, rfl⟩ := runs_done.mp ended
      exact runs
  | call op next ih =>
    refine runs_call.trans ?_
    constructor
    · rintro ⟨draw, runs⟩
      obtain ⟨value, middle, first, rest⟩ := (ih _).mp runs
      exact ⟨value, middle, .call draw first, rest⟩
    · rintro ⟨value, middle, first, rest⟩
      obtain ⟨draw, first⟩ := runs_call.mp first
      exact ⟨draw, (ih _).mpr ⟨value, middle, first, rest⟩⟩

/-- The execution in which the operations take one thing after the other from outside. -/
def fed (exec : Draw → (op : Op) → State → Answer op × State) :
    Program Op Answer α → (draws : Nat → Draw) → State → α × State
  | done result, _, state => (result, state)
  | call op next, draws, state =>
    (next (exec (draws 0) op state).1).fed exec (fun place => draws (place + 1))
      (exec (draws 0) op state).2

/-- If all that comes from outside is as `Allowed` says, the call runs on such draws. -/
theorem runs_fed {Allowed : Draw → Prop} (program : Program Op Answer α) {draws : Nat → Draw}
    (allowed : ∀ place, Allowed (draws place)) (state : State) :
    Runs (fun draw : { draw // Allowed draw } => exec draw.1) program state
      (program.fed exec draws state).1 (program.fed exec draws state).2 := by
  induction program generalizing state draws with
  | done result => exact .done _ _
  | call op next ih => exact .call ⟨draws 0, allowed 0⟩ (ih _ (fun place => allowed _) _)

/-- Every execution is fed by some sequence of draws. -/
theorem Runs.exists_fed {Allowed : Draw → Prop} {program : Program Op Answer α}
    (runs : Runs (fun draw : { draw // Allowed draw } => exec draw.1) program state result later)
    (last : Draw) (allowed : Allowed last) :
    ∃ draws, (∀ place, Allowed (draws place)) ∧ program.fed exec draws state = (result, later) := by
  induction runs with
  | done => exact ⟨fun _ => last, fun _ => allowed, rfl⟩
  | call draw rest ih =>
    obtain ⟨draws, fit, fed⟩ := ih
    refine ⟨fun | 0 => draw.1 | place + 1 => draws place, fun place => ?_, fed⟩
    cases place with
    | zero => exact draw.2
    | succ place => exact fit place

/-- The draws as part of the state: each operation takes the next one. -/
def threaded (exec : Draw → (op : Op) → State → Answer op × State) (_ : Unit) (op : Op)
    (state : State × (Nat → Draw)) : Answer op × (State × (Nat → Draw)) :=
  ((exec (state.2 0) op state.1).1,
    ((exec (state.2 0) op state.1).2, fun place => state.2 (place + 1)))

/-- The call with its draws as part of the state. -/
theorem runs_threaded (program : Program Op Answer α) (draws : Nat → Draw) (state : State) :
    ∃ rest, Runs (threaded exec) program (state, draws) (program.fed exec draws state).1
      ((program.fed exec draws state).2, rest) := by
  induction program generalizing state draws with
  | done result => exact ⟨draws, .done _ _⟩
  | call op next ih =>
    obtain ⟨rest, runs⟩ := ih _ (fun place => draws (place + 1)) _
    exact ⟨rest, .call () runs⟩

/-- What every operation of the program keeps holds at its end. -/
theorem Runs.invariant {Fit : Op → Prop} {Inv : State → Prop}
    (kept : ∀ draw op state, Fit op → Inv state → Inv (exec draw op state).2)
    {program : Program Op Answer α} (runs : Runs exec program state result later)
    (issues : program.Issues Fit) (holds : Inv state) : Inv later := by
  induction runs with
  | done => exact holds
  | call draw rest ih => exact ih (issues.2 _) (kept draw _ _ issues.1 holds)

end Program

namespace Fallible

variable {Op : Type} {Answer : Op → Type} {State Draw : Type*} {Error α β : Type}
  (exec : Draw → (op : Op) → State → Answer op × State)

/-- The call may end with the result, an error included, and leave the state `later`. -/
def Runs (program : Fallible Op Answer Error α) (state : State) (result : Except Error α)
    (later : State) : Prop :=
  Program.Runs exec program.run state result later

variable {exec} {state later : State} {result : Except Error α}

theorem runs_pure {value : α} :
    Runs exec (pure value : Fallible Op Answer Error α) state result later ↔
      result = .ok value ∧ later = state :=
  Program.runs_done

theorem runs_throw {err : Error} :
    Runs exec (throw err : Fallible Op Answer Error α) state result later ↔
      result = .error err ∧ later = state :=
  Program.runs_done

variable {first : Fallible Op Answer Error α} {rest : α → Fallible Op Answer Error β}

/-- The first part fails, or both parts run one after the other. -/
theorem runs_bind {result : Except Error β} :
    Runs exec (first >>= rest) state result later ↔
      (∃ err, result = .error err ∧ Runs exec first state (.error err) later) ∨
      ∃ value middle, Runs exec first state (.ok value) middle ∧
        Runs exec (rest value) middle result later := by
  refine (@Program.runs_bind _ _ _ _ _ _ exec state later first.run (ExceptT.bindCont rest)
    result).trans ?_
  constructor
  · rintro ⟨value | value, middle, ended, runs⟩
    · obtain ⟨rfl, rfl⟩ := Program.runs_done.mp runs
      exact .inl ⟨value, rfl, ended⟩
    · exact .inr ⟨value, middle, ended, runs⟩
  · rintro (⟨err, rfl, ended⟩ | ⟨value, middle, ended, runs⟩)
    · exact ⟨.error err, later, ended, .done _ _⟩
    · exact ⟨.ok value, middle, ended, runs⟩

/-- A sequence that succeeds does so in both parts. -/
theorem Runs.bind_ok {value : β} (runs : Runs exec (first >>= rest) state (.ok value) later) :
    ∃ value' middle, Runs exec first state (.ok value') middle ∧
      Runs exec (rest value') middle (.ok value) later := by
  obtain ⟨err, failed, -⟩ | ended := runs_bind.mp runs
  · cases failed
  · exact ended

/-- A first part that leaves the state fails, or the rest starts there. -/
theorem Runs.bind_reading {Shows : Except Error α → Prop} {result : Except Error β}
    (reads : ∀ {result later}, Runs exec first state result later → Shows result ∧ later = state)
    (runs : Runs exec (first >>= rest) state result later) :
    (∃ err, Shows (.error err) ∧ result = .error err ∧ later = state) ∨
      ∃ value, Shows (.ok value) ∧ Runs exec (rest value) state result later := by
  obtain ⟨err, rfl, failed⟩ | ⟨value, middle, read, going⟩ := runs_bind.mp runs
  · obtain ⟨shown, rfl⟩ := reads failed
    exact .inl ⟨err, shown, rfl, rfl⟩
  · obtain ⟨shown, rfl⟩ := reads read
    exact .inr ⟨value, shown, going⟩

/-- A program without errors. -/
theorem runs_lift {program : Program Op Answer α} :
    Runs exec (ExceptT.lift program : Fallible Op Answer Error α) state result later ↔
      ∃ value, result = .ok value ∧ Program.Runs exec program state value later := by
  refine (@Program.runs_bind _ _ _ _ _ _ exec state later program _ result).trans ?_
  constructor
  · rintro ⟨value, middle, runs, rest⟩
    obtain ⟨rfl, rfl⟩ := Program.runs_done.mp rest
    exact ⟨value, rfl, runs⟩
  · rintro ⟨value, rfl, runs⟩
    exact ⟨value, later, runs, .done _ _⟩

/-- A part that cannot fail, and a rest. -/
theorem runs_lift_bind {program : Program Op Answer α} {result : Except Error β} :
    Runs exec ((ExceptT.lift program : Fallible Op Answer Error α) >>= rest) state result later ↔
      ∃ value middle, Program.Runs exec program state value middle ∧
        Runs exec (rest value) middle result later := by
  rw [runs_bind]
  constructor
  · rintro (⟨err, rfl, ended⟩ | ⟨value, middle, ended, runs⟩)
    · obtain ⟨_, same, -⟩ := runs_lift.mp ended
      cases same
    · obtain ⟨_, same, ended⟩ := runs_lift.mp ended
      cases same
      exact ⟨value, middle, ended, runs⟩
  · rintro ⟨value, middle, first, runs⟩
    exact .inr ⟨value, middle, runs_lift.mpr ⟨value, rfl, first⟩, runs⟩

/-- A part whose errors are handled, and a rest. -/
theorem runs_outcome_bind {program : Fallible Op Answer Error α}
    {rest : Except Error α → Fallible Op Answer Error β} {result : Except Error β} :
    Runs exec (program.outcome >>= rest) state result later ↔
      ∃ ended middle, Runs exec program state ended middle ∧
        Runs exec (rest ended) middle result later :=
  runs_lift_bind

/-- An operation that always answers, and a rest. -/
theorem runs_perform_bind {op : Op} {rest : Answer op → Fallible Op Answer Error β}
    {result : Except Error β} :
    Runs exec (perform op >>= rest) state result later ↔
      ∃ draw, Runs exec (rest (exec draw op state).1) (exec draw op state).2 result later := by
  refine runs_lift_bind.trans ⟨?_, fun ⟨draw, runs⟩ => ⟨_, _, .call draw (.done _ _), runs⟩⟩
  rintro ⟨value, middle, ended, runs⟩
  obtain ⟨draw, rfl, rfl⟩ := Program.runs_perform.mp ended
  exact ⟨draw, runs⟩

theorem runs_ofExcept {value : Except Error α} :
    Runs exec (ofExcept value : Fallible Op Answer Error α) state result later ↔
      result = value ∧ later = state := by
  rw [Runs, run_ofExcept]
  exact Program.runs_done

/-- An error of the program is changed, a value is not. -/
theorem runs_adapt {program : Fallible Op Answer Error α} {convert : Error → Error} :
    Runs exec (program.adapt convert) state result later ↔
      ∃ ended, Runs exec program state ended later ∧ result = ended.mapError convert := by
  refine (@Program.runs_bind _ _ _ _ _ _ exec state later program.run _ result).trans ?_
  constructor
  · rintro ⟨ended, middle, runs, rest⟩
    obtain ⟨rfl, rfl⟩ := Program.runs_done.mp rest
    exact ⟨ended, runs, rfl⟩
  · rintro ⟨ended, runs, rfl⟩
    exact ⟨ended, later, runs, .done _ _⟩

end Fallible

end KnxVault.Std
