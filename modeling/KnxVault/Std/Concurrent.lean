import KnxVault.Std.Run

/-!
# Concurrent calls over shared state

A call is a program whose only access to the shared state is through operations,
each of them atomic. Calls of a system interleave at these operations in any
order. A program is judged by the answers it may get (`Program.Ensures`), the
pool of running calls by what one operation keeps (`Interleaving.Pool.invariant`).
-/

namespace KnxVault.Std

/-- A computation that performs operations and ends with a result. -/
inductive Program (Op : Type) (Answer : Op → Type) (α : Type) where
  | done (result : α)
  | call (op : Op) (next : Answer op → Program Op Answer α)

namespace Program

variable {Op : Type} {Answer : Op → Type} {α β : Type}

def andThen : Program Op Answer α → (α → Program Op Answer β) → Program Op Answer β
  | done result, rest => rest result
  | call op next, rest => call op fun answer => (next answer).andThen rest

instance : Monad (Program Op Answer) where
  pure := done
  bind := andThen

def perform (op : Op) : Program Op Answer (Answer op) := call op done

/-- The program run with nothing in between. -/
def alone {State : Type} (exec : (op : Op) → State → Answer op × State) :
    Program Op Answer α → State → α × State
  | done result, state => (result, state)
  | call op next, state => (next (exec op state).1).alone exec (exec op state).2

theorem alone_bind {State : Type} {exec : (op : Op) → State → Answer op × State}
    (first : Program Op Answer α) (rest : α → Program Op Answer β) (state : State) :
    (first >>= rest).alone exec state =
      (rest (first.alone exec state).1).alone exec (first.alone exec state).2 := by
  induction first generalizing state with
  | done result => rfl
  | call op next ih => exact ih _ _

/-- If every answer is as `Answered` says, the result is as `Post` says. -/
def Ensures (Answered : (op : Op) → Answer op → Prop) (Post : α → Prop) :
    Program Op Answer α → Prop
  | done result => Post result
  | call op next => ∀ answer, Answered op answer → (next answer).Ensures Answered Post

variable {Answered : (op : Op) → Answer op → Prop}

theorem ensures_bind {Post : β → Prop} (first : Program Op Answer α)
    (rest : α → Program Op Answer β) :
    (first >>= rest).Ensures Answered Post ↔
      first.Ensures Answered fun result => (rest result).Ensures Answered Post := by
  induction first with
  | done result => rfl
  | call op next ih => exact forall_congr' fun answer => imp_congr_right fun _ => ih answer

theorem Ensures.of_post {Post : α → Prop} (always : ∀ result, Post result)
    (program : Program Op Answer α) : program.Ensures Answered Post := by
  induction program with
  | done result => exact always result
  | call op next ih => exact fun answer _ => ih answer

theorem Ensures.mono {Post Weaker : α → Prop} (weaker : ∀ result, Post result → Weaker result)
    {program : Program Op Answer α} (ensures : program.Ensures Answered Post) :
    program.Ensures Answered Weaker := by
  induction program with
  | done result => exact weaker result ensures
  | call op next ih => exact fun answer answered => ih answer (ensures answer answered)

/-- Every operation that the program may perform is as `Fit` says. -/
def Issues (Fit : Op → Prop) : Program Op Answer α → Prop
  | done _ => True
  | call op next => Fit op ∧ ∀ answer, (next answer).Issues Fit

theorem Issues.bind {Fit : Op → Prop} {first : Program Op Answer α}
    {rest : α → Program Op Answer β} (issues : first.Issues Fit)
    (later : ∀ result, (rest result).Issues Fit) : (first >>= rest).Issues Fit := by
  induction first with
  | done result => exact later result
  | call op next ih => exact ⟨issues.1, fun answer => ih answer (issues.2 answer)⟩

end Program

/-- A program that may fail. -/
abbrev Fallible (Op : Type) (Answer : Op → Type) (Error : Type) :=
  ExceptT Error (Program Op Answer)

namespace Fallible

variable {Op : Type} {Answer : Op → Type} {Error α β : Type}

/-- An operation that always answers. -/
def perform (op : Op) : Fallible Op Answer Error (Answer op) := ExceptT.lift (.perform op)

/-- The value of a pure step, or its error. Irreducible, so that no proof about a program
evaluates the step. -/
@[irreducible] def ofExcept (result : Except Error α) : Fallible Op Answer Error α :=
  ExceptT.mk (pure result)

theorem run_ofExcept (result : Except Error α) :
    (ofExcept result : Fallible Op Answer Error α).run = .done result := by
  unfold ofExcept
  rfl

/-- The result of a program, an error included, as a value. -/
def outcome (program : Fallible Op Answer Error α) :
    Fallible Op Answer Error (Except Error α) :=
  ExceptT.lift program.run

/-- If every answer is as `Answered` says, a value returned is as `Post` says. -/
def Yields (Answered : (op : Op) → Answer op → Prop) (Post : α → Prop)
    (program : Fallible Op Answer Error α) : Prop :=
  program.run.Ensures Answered fun result => ∀ value, result = .ok value → Post value

section Alone

variable {State : Type} {exec : (op : Op) → State → Answer op × State} {state : State}

theorem alone_bind_ok {first : Fallible Op Answer Error α} {value : α} {later : State}
    (alone : first.run.alone exec state = (.ok value, later))
    (rest : α → Fallible Op Answer Error β) :
    (first >>= rest).run.alone exec state = (rest value).run.alone exec later := by
  refine (Program.alone_bind first.run (ExceptT.bindCont rest) state).trans ?_
  rw [alone]
  rfl

theorem alone_bind_error {first : Fallible Op Answer Error α} {err : Error} {later : State}
    (alone : first.run.alone exec state = (.error err, later))
    (rest : α → Fallible Op Answer Error β) :
    (first >>= rest).run.alone exec state = (.error err, later) := by
  refine (Program.alone_bind first.run (ExceptT.bindCont rest) state).trans ?_
  rw [alone]
  rfl

theorem alone_outcome (program : Fallible Op Answer Error α) :
    (outcome program).run.alone exec state =
      (.ok (program.run.alone exec state).1, (program.run.alone exec state).2) :=
  Program.alone_bind program.run _ state

theorem alone_ofExcept_ok {result : Except Error α} {value : α} (passed : result = .ok value)
    (rest : α → Fallible Op Answer Error β) :
    (ofExcept result >>= rest).run.alone exec state = (rest value).run.alone exec state := by
  refine alone_bind_ok ?_ rest
  rw [run_ofExcept, passed]
  rfl

theorem alone_ofExcept_error {result : Except Error α} {err : Error}
    (failed : result = .error err) (rest : α → Fallible Op Answer Error β) :
    (ofExcept result >>= rest).run.alone exec state = (.error err, state) := by
  refine alone_bind_error ?_ rest
  rw [run_ofExcept, failed]
  rfl

theorem alone_adapt (program : Fallible Op Answer Error α) (convert : Error → Error) :
    (program.adapt convert).run.alone exec state =
      ((program.run.alone exec state).1.mapError convert, (program.run.alone exec state).2) :=
  Program.alone_bind program.run _ state

end Alone

variable {Answered : (op : Op) → Answer op → Prop} {Post : β → Prop}

theorem yields_pure (value : β) :
    Yields Answered Post (pure value : Fallible Op Answer Error β) ↔ Post value :=
  ⟨fun yields => yields value rfl, fun post _ same => Except.ok.inj same ▸ post⟩

@[simp] theorem yields_throw (err : Error) :
    Yields Answered Post (throw err : Fallible Op Answer Error β) :=
  fun _ same => by cases same

theorem yields_bind (first : Fallible Op Answer Error α)
    (rest : α → Fallible Op Answer Error β) :
    Yields Answered Post (first >>= rest) ↔
      Yields Answered (fun value => Yields Answered Post (rest value)) first := by
  refine (Program.ensures_bind first.run (ExceptT.bindCont rest)).trans ?_
  unfold Yields
  rw [iff_iff_eq]
  congr 1
  funext result
  cases result with
  | ok value => simp [ExceptT.bindCont, ExceptT.run]
  | error err =>
    simp only [reduceCtorEq, false_implies, implies_true, eq_iff_iff, iff_true]
    exact fun _ same => by cases same

theorem yields_outcome_bind (first : Fallible Op Answer Error α)
    (rest : Except Error α → Fallible Op Answer Error β) :
    Yields Answered Post (outcome first >>= rest) ↔
      first.run.Ensures Answered fun result => Yields Answered Post (rest result) := by
  refine (yields_bind _ _).trans ((Program.ensures_bind first.run _).trans ?_)
  rw [iff_iff_eq]
  congr 1
  funext result
  simp [Program.Ensures]

theorem ensures_bind {Post : Except Error β → Prop} (first : Fallible Op Answer Error α)
    (rest : α → Fallible Op Answer Error β) :
    (first >>= rest).run.Ensures Answered Post ↔
      first.run.Ensures Answered fun result =>
        match result with
        | .ok value => (rest value).run.Ensures Answered Post
        | .error err => Post (.error err) := by
  refine (Program.ensures_bind first.run (ExceptT.bindCont rest)).trans ?_
  rw [iff_iff_eq]
  congr 1
  funext result
  cases result <;> rfl

theorem ensures_outcome {Post : Except Error (Except Error α) → Prop}
    (program : Fallible Op Answer Error α) :
    (outcome program).run.Ensures Answered Post ↔
      program.run.Ensures Answered fun result => Post (.ok result) :=
  Program.ensures_bind program.run _

theorem issues_bind {Fit : Op → Prop} {first : Fallible Op Answer Error α}
    {rest : α → Fallible Op Answer Error β} (issues : first.run.Issues Fit)
    (later : ∀ value, (rest value).run.Issues Fit) : (first >>= rest).run.Issues Fit := by
  refine Program.Issues.bind issues fun result => ?_
  cases result with
  | ok value => exact later value
  | error err => trivial

theorem issues_outcome {Fit : Op → Prop} {program : Fallible Op Answer Error α}
    (issues : program.run.Issues Fit) : (outcome program).run.Issues Fit :=
  Program.Issues.bind issues fun _ => trivial

theorem Yields.mono {Stronger : β → Prop} (weaker : ∀ value, Stronger value → Post value)
    {program : Fallible Op Answer Error β} (yields : Yields Answered Stronger program) :
    Yields Answered Post program :=
  Program.Ensures.mono (fun _ post value same => weaker value (post value same)) yields

theorem Yields.of_post (always : ∀ value, Post value) (program : Fallible Op Answer Error β) :
    Yields Answered Post program :=
  Program.Ensures.of_post (fun _ value _ => always value) _

/-- Whatever the first part returns. -/
theorem Yields.bind_any {first : Fallible Op Answer Error α}
    {rest : α → Fallible Op Answer Error β} (later : ∀ value, Yields Answered Post (rest value)) :
    Yields Answered Post (first >>= rest) :=
  (yields_bind _ _).mpr (.of_post later _)

end Fallible

/-- An operation that fails leaves the state. -/
def attempt {State Error : Type} (result : Except Error State) (state : State) :
    Except Error Unit × State :=
  match result with
  | .ok later => (.ok (), later)
  | .error err => (.error err, state)

@[simp] theorem attempt_ok {State Error : Type} (later state : State) :
    attempt (.ok later : Except Error State) state = (.ok (), later) := rfl

@[simp] theorem attempt_error {State Error : Type} (err : Error) (state : State) :
    attempt (.error err) state = (.error err, state) := rfl

/-- How a store answers: as it should, or with an error, before or after the operation took
effect. -/
inductive Reply (Error : Type) where
  | answer
  | failure (err : Error) (performed : Bool)

/-- Calls, the operations they perform, and what an operation does to the state. -/
structure Interleaving.{u} where
  State : Type
  Op : Type
  Answer : Op → Type
  /-- What an operation takes from outside, such as a clock reading. -/
  Draw : Type u
  exec : Draw → (op : Op) → State → Answer op × State
  Call : Type
  Result : Call → Type
  program : (call : Call) → Program Op Answer (Result call)

namespace Interleaving

/-- A call and what is left of it. -/
structure Running (system : Interleaving) where
  call : system.Call
  rest : Program system.Op system.Answer (system.Result call)

/-- The calls in the order of their start. -/
structure Pool (system : Interleaving) where
  state : system.State
  calls : List system.Running

inductive Event (system : Interleaving) where
  | start (call : system.Call)
  | advance (place : Nat) (draw : system.Draw)

variable {system : Interleaving}

def idle (system : Interleaving) (state : system.State) : system.Pool := ⟨state, []⟩

namespace Pool

def step (pool : system.Pool) : system.Event → system.Pool
  | .start call => { pool with calls := pool.calls ++ [⟨call, system.program call⟩] }
  | .advance place draw =>
    match pool.calls[place]? with
    | some ⟨call, .call op next⟩ =>
      let (answer, state) := system.exec draw op pool.state
      ⟨state, pool.calls.set place ⟨call, next answer⟩⟩
    | _ => pool

def Returned (pool : system.Pool) (place : Nat) (call : system.Call)
    (result : system.Result call) : Prop :=
  pool.calls[place]? = some ⟨call, .done result⟩

/-- Whether the call at a place has returned a result that passes a test. -/
def endsWith (pool : system.Pool) (place : Nat)
    (test : (call : system.Call) → system.Result call → Bool) : Bool :=
  match pool.calls[place]? with
  | some ⟨call, .done result⟩ => test call result
  | _ => false

theorem endsWith_iff {pool : system.Pool} {place : Nat}
    {test : (call : system.Call) → system.Result call → Bool} :
    pool.endsWith place test = true ↔
      ∃ call result, pool.Returned place call result ∧ test call result = true := by
  unfold endsWith Returned
  split
  · rename_i call result found
    constructor
    · exact fun passed => ⟨call, result, found, passed⟩
    · rintro ⟨other, result', same, passed⟩
      rw [found] at same
      cases same
      exact passed
  · rename_i unfinished
    simp only [Bool.false_eq_true, false_iff]
    rintro ⟨call, result, found, -⟩
    exact unfinished call result found

/-- The operation that the event performs. -/
def pending (pool : system.Pool) : system.Event → Option system.Op
  | .start _ => none
  | .advance place _ =>
    match pool.calls[place]? with
    | some ⟨_, .call op _⟩ => some op
    | _ => none

def Performs (Allowed : system.State → system.Op → Prop) (pool : system.Pool)
    (event : system.Event) : Prop :=
  ∀ op ∈ pool.pending event, Allowed pool.state op

instance Performs.decidable (Allowed : system.State → system.Op → Prop)
    [∀ state op, Decidable (Allowed state op)] (pool : system.Pool) (event : system.Event) :
    Decidable (pool.Performs Allowed event) :=
  inferInstanceAs (Decidable (∀ op ∈ pool.pending event, Allowed pool.state op))

instance allSteps_performs_decidable (Allowed : system.State → system.Op → Prop)
    [∀ state op, Decidable (Allowed state op)] (pool : system.Pool)
    (events : List system.Event) : Decidable (AllSteps step (Performs Allowed) pool events) :=
  AllSteps.decidable step (Performs Allowed) pool events

theorem performs_and {Allowed Permitted : system.State → system.Op → Prop} {pool : system.Pool}
    {events : List system.Event} (allowed : AllSteps step (Performs Allowed) pool events)
    (permitted : AllSteps step (Performs Permitted) pool events) :
    AllSteps step (Performs fun state op => Allowed state op ∧ Permitted state op) pool events :=
  (allowed.and permitted).imp fun _ _ both op performed =>
    ⟨both.1 op performed, both.2 op performed⟩

theorem step_advance {pool : system.Pool} {place : Nat} {call : system.Call} {op : system.Op}
    {next : system.Answer op → Program system.Op system.Answer (system.Result call)}
    (found : pool.calls[place]? = some ⟨call, .call op next⟩) (draw : system.Draw) :
    pool.step (.advance place draw) =
      ⟨(system.exec draw op pool.state).2,
        pool.calls.set place ⟨call, next (system.exec draw op pool.state).1⟩⟩ := by
  simp only [step, found]

/-- Everything that an event can do. -/
theorem step_cases (pool : system.Pool) (event : system.Event) :
    (∃ call, event = .start call ∧
      pool.step event = { pool with calls := pool.calls ++ [⟨call, system.program call⟩] }) ∨
    (∃ place draw call op next, event = .advance place draw ∧
      pool.calls[place]? = some ⟨call, .call op next⟩ ∧
      pool.step event = ⟨(system.exec draw op pool.state).2,
        pool.calls.set place ⟨call, next (system.exec draw op pool.state).1⟩⟩) ∨
    pool.step event = pool := by
  cases event with
  | start call => exact .inl ⟨call, rfl, rfl⟩
  | advance place draw =>
    cases found : pool.calls[place]? with
    | none => exact .inr (.inr (by simp only [step, found]))
    | some running =>
      obtain ⟨call, rest⟩ := running
      cases rest with
      | done result => exact .inr (.inr (by simp only [step, found]))
      | call op next =>
        exact .inr (.inl ⟨place, draw, call, op, next, rfl, found, step_advance found draw⟩)

theorem pending_advance {pool : system.Pool} {place : Nat} {draw : system.Draw}
    {call : system.Call} {op : system.Op}
    {next : system.Answer op → Program system.Op system.Answer (system.Result call)}
    (found : pool.calls[place]? = some ⟨call, .call op next⟩) :
    pool.pending (.advance place draw) = some op := by
  simp only [pending, found]

/-- An event performs one operation, or leaves the state. -/
theorem state_step (pool : system.Pool) (event : system.Event) :
    (pool.pending event = none ∧ (pool.step event).state = pool.state) ∨
    ∃ draw op, pool.pending event = some op ∧
      (pool.step event).state = (system.exec draw op pool.state).2 := by
  cases event with
  | start call => exact .inl ⟨rfl, rfl⟩
  | advance place draw =>
    cases found : pool.calls[place]? with
    | none => exact .inl (by simp only [step, pending, found, and_self])
    | some running =>
      obtain ⟨call, rest⟩ := running
      cases rest with
      | done result => exact .inl (by simp only [step, pending, found, and_self])
      | call op next =>
        exact .inr ⟨draw, op, pending_advance found, by rw [step_advance found draw]⟩

/-- If an operation preserves the invariant just where it is allowed, the invariant holds all along
a run just if all its operations are allowed. -/
theorem iff_invariant {Allowed : system.State → system.Op → Prop} {Inv : system.State → Prop}
    (ops : ∀ draw op state, Inv state → (Inv (system.exec draw op state).2 ↔ Allowed state op))
    {pool : system.Pool} (initial : Inv pool.state) (events : List system.Event) :
    (∀ count, Inv (run step pool (events.take count)).state) ↔
      AllSteps step (Performs Allowed) pool events := by
  have steps (pool : system.Pool) (event : system.Event) (holds : Inv pool.state) :
      Inv (pool.step event).state ↔ pool.Performs Allowed event := by
    obtain ⟨none, kept⟩ | ⟨draw, op, performed, moved⟩ := pool.state_step event
    · rw [kept]
      exact iff_of_true holds fun op performed => by rw [none] at performed; cases performed
    · rw [moved, ops draw op pool.state holds]
      refine ⟨fun allowed other same => ?_, fun allowed => allowed op performed⟩
      rw [performed] at same
      cases same
      exact allowed
  exact AllSteps.iff_invariant steps initial events

section Invariants

variable {Allowed : system.State → system.Op → Prop} (Inv : system.State → Prop)
  (Each : Nat → system.State → (call : system.Call) →
    Program system.Op system.Answer (system.Result call) → Prop)

/-- The state is as `Inv` says, and every call is as `Each` says. -/
def Outlined (pool : system.Pool) : Prop :=
  Inv pool.state ∧ ∀ place running, pool.calls[place]? = some running →
    Each place pool.state running.call running.rest

section Rule

variable (starts : ∀ place state call, Inv state → Each place state call (system.program call))
  (own : ∀ place draw op state call next, Allowed state op → Inv state →
    Each place state call (.call op next) → Inv (system.exec draw op state).2 ∧
      Each place (system.exec draw op state).2 call (next (system.exec draw op state).1))
  (others : ∀ place draw op state call next, Allowed state op → Inv state →
    Each place state call (.call op next) → ∀ other running rest, other ≠ place →
      Each other state running rest → Each other (system.exec draw op state).2 running rest)

include starts own others

theorem outlined_step (pool : system.Pool) (event : system.Event)
    (performs : pool.Performs Allowed event) (outlined : pool.Outlined Inv Each) :
    (pool.step event).Outlined Inv Each := by
  obtain ⟨inv, each⟩ := outlined
  obtain ⟨call, rfl, stepped⟩ | ⟨place, draw, call, op, next, rfl, found, stepped⟩ | stepped :=
    pool.step_cases event
  · rw [stepped]
    refine ⟨inv, fun place running found => ?_⟩
    rcases Nat.lt_trichotomy place pool.calls.length with older | rfl | beyond
    · rw [List.getElem?_append_left older] at found
      exact each place running found
    · rw [List.getElem?_concat_length] at found
      cases found
      exact starts _ _ _ inv
    · rw [List.getElem?_eq_none (by simp; omega)] at found
      cases found
  · have isAllowed := performs op (pending_advance found)
    have asserted := each place _ found
    obtain ⟨kept, moved⟩ := own place draw op _ call next isAllowed inv asserted
    rw [stepped]
    refine ⟨kept, fun other running held => ?_⟩
    by_cases same : place = other
    · subst same
      rw [List.getElem?_set_self (List.getElem?_eq_some_iff.mp found).1] at held
      cases held
      exact moved
    · rw [List.getElem?_set_ne same] at held
      exact others place draw op _ call next isAllowed inv asserted other _ _ (Ne.symm same)
        (each other running held)
  · rw [stepped]
    exact ⟨inv, each⟩

/-- A proof outline: what is asserted of each call holds at its start, follows
from its own operations, and is kept by the operations of the others. -/
theorem invariant {pool : system.Pool} {events : List system.Event}
    (allowed : AllSteps step (Performs Allowed) pool events) (outlined : pool.Outlined Inv Each) :
    (run step pool events).Outlined Inv Each :=
  allowed.invariant (outlined_step Inv Each starts own others) outlined

end Rule

end Invariants

section Lasting

variable {Allowed : system.State → system.Op → Prop} {Fact : system.State → Prop}
  {Answered : (op : system.Op) → system.Answer op → Prop}
  {Goal Post : (call : system.Call) → system.Result call → Prop}

/-- What every allowed operation keeps holds after a run of them. -/
theorem fact_kept
    (kept : ∀ draw op state, Allowed state op → Fact state → Fact (system.exec draw op state).2)
    {pool : system.Pool} {events : List system.Event}
    (allowed : AllSteps step (Performs Allowed) pool events) (fact : Fact pool.state) :
    Fact (run step pool events).state :=
  (invariant Fact (fun _ _ _ _ => True) (fun _ _ _ _ => trivial)
    (fun _ draw op state _ _ isAllowed fact _ => ⟨kept draw op state isAllowed fact, trivial⟩)
    (fun _ _ _ _ _ _ _ _ _ _ _ _ _ _ => trivial) allowed ⟨fact, fun _ _ _ => trivial⟩).1

/-- If a result cannot come about by the answers given while a fact does not hold,
then the fact holds once a call has returned it. -/
theorem fact_of_returned
    (kept : ∀ draw op state, Allowed state op → Fact state → Fact (system.exec draw op state).2)
    (shows : ∀ draw op state, Allowed state op → ¬ Fact (system.exec draw op state).2 →
      Answered op (system.exec draw op state).1)
    (needs : ∀ call, (system.program call).Ensures Answered fun result => ¬ Goal call result)
    {state : system.State} {events : List system.Event}
    (allowed : AllSteps step (Performs Allowed) (system.idle state) events)
    {place : Nat} {call : system.Call} {result : system.Result call}
    (returned : (run step (system.idle state) events).Returned place call result)
    (reached : Goal call result) : Fact (run step (system.idle state) events).state := by
  have outlined := invariant (fun _ => True)
    (fun _ state call rest => ¬ Fact state →
      rest.Ensures Answered fun result => ¬ Goal call result)
    (fun _ _ call _ _ => needs call)
    (fun _ draw op state call next isAllowed _ ensures => by
      refine ⟨trivial, fun unset => ?_⟩
      exact ensures (fun fact => unset (kept draw op state isAllowed fact)) _
        (shows draw op state isAllowed unset))
    (fun _ draw op state _ _ isAllowed _ _ _ _ _ _ ensures unset =>
      ensures fun fact => unset (kept draw op state isAllowed fact))
    allowed ⟨trivial, fun _ _ found => by cases found⟩
  by_contra unset
  exact outlined.2 place _ returned unset reached

/-- While the fact holds, the answers show it to every call started since. -/
theorem post_of_fact
    (kept : ∀ draw op state, Allowed state op → Fact state → Fact (system.exec draw op state).2)
    (shows : ∀ draw op state, Allowed state op → Fact state →
      Answered op (system.exec draw op state).1)
    (ensures : ∀ call, (system.program call).Ensures Answered (Post call))
    {pool : system.Pool} {events : List system.Event}
    (allowed : AllSteps step (Performs Allowed) pool events) (fact : Fact pool.state)
    {place : Nat} (started : pool.calls.length ≤ place) {call : system.Call}
    {result : system.Result call} (returned : (run step pool events).Returned place call result) :
    Post call result := by
  have outlined := invariant Fact
    (fun place _ call rest => pool.calls.length ≤ place → rest.Ensures Answered (Post call))
    (fun _ _ call _ _ => ensures call)
    (fun _ draw op state _ _ isAllowed fact ensures =>
      ⟨kept draw op state isAllowed fact, fun later =>
        ensures later _ (shows draw op state isAllowed fact)⟩)
    (fun _ _ _ _ _ _ _ _ _ _ _ _ _ ensures => ensures)
    allowed
    ⟨fact, fun place running found later => by
      rw [List.getElem?_eq_none later] at found
      cases found⟩
  exact outlined.2 place _ returned started

end Lasting

/-- A fact that came about in a run was brought about by one of its operations. -/
theorem exists_operation_of_change {Allowed : system.State → system.Op → Prop}
    {Fact : system.State → Prop} {pool : system.Pool} {events : List system.Event}
    (allowed : AllSteps step (Performs Allowed) pool events) (unset : ¬ Fact pool.state)
    (set : Fact (run step pool events).state) :
    ∃ before event after op draw, events = before ++ event :: after ∧
      (run step pool before).pending event = some op ∧
      Allowed (run step pool before).state op ∧ ¬ Fact (run step pool before).state ∧
      Fact (system.exec draw op (run step pool before).state).2 := by
  obtain ⟨before, event, after, rfl, unset, set⟩ :=
    @exists_step_of_change _ _ step pool events (fun pool => Fact pool.state) unset set
  have performs := (AllSteps.append.mp allowed).2.1
  obtain ⟨call, rfl, stepped⟩ | ⟨place, draw, call, op, next, rfl, found, stepped⟩ | stepped :=
    (run step pool before).step_cases event
  · rw [stepped] at set
    exact absurd set unset
  · rw [stepped] at set
    have performed := @pending_advance _ _ _ draw _ _ _ found
    exact ⟨before, _, after, op, draw, rfl, performed, performs op performed, unset, set⟩
  · rw [stepped] at set
    exact absurd set unset

/-- A run performs only operations that the programs issue. -/
theorem performs_of_issues {Fit : system.Op → Prop}
    (issues : ∀ call, (system.program call).Issues Fit) (state : system.State)
    (events : List system.Event) :
    AllSteps step (Performs fun _ op => Fit op) (system.idle state) events := by
  let each := fun (_ : Nat) (_ : system.State) (call : system.Call)
    (rest : Program system.Op system.Answer (system.Result call)) => rest.Issues Fit
  have initial : (system.idle state).Outlined (fun _ => True) each :=
    ⟨trivial, fun _ _ found => by cases found⟩
  refine AllSteps.of_invariant (fun pool event outlined op performed => ?_) ?_ events initial
  · cases event with
    | start call => cases performed
    | advance place draw =>
      simp only [pending] at performed
      split at performed
      · rename_i call other next found
        cases performed
        exact (outlined.2 place _ found).1
      · cases performed
  · exact outlined_step _ each (fun _ _ call _ => issues call)
      (fun _ _ _ _ _ _ _ _ issued => ⟨trivial, issued.2 _⟩)
      (fun _ _ _ _ _ _ _ _ _ _ _ _ _ issued => issued)

end Pool

end Interleaving

end KnxVault.Std
