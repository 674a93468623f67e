import KnxVault.Infra.Leader
import KnxVault.Std.Run

/-!
# The flag of an elector and its jobs

The loop of `Run` in `internal/infra/k8s/leader.go` with the jobs it starts and their
contexts. The flag that `IsLeader` reads and the cancel function of the current job are set on
different branches of the loop: a failed round lowers the flag and keeps the job, and a round
that acquires the lease raises the flag only where it starts a job.
-/

namespace KnxVault.Infra

open KnxVault.Std

/-- What `tryAcquire` returns in a round. -/
inductive Outcome where
  | acquired
  | refused
  | failed
deriving DecidableEq, Repr

/-- A goroutine that runs `onLeadership`. -/
structure LeadJob where
  /-- Whether the cancel function of its own context has been called. -/
  cancelled : Bool := false
  returned : Bool := false
deriving DecidableEq, Repr

structure LeaderLoop where
  leader : Bool := false
  /-- The job whose context `leadCancel` cancels. -/
  leadCancel : Option Nat := none
  /-- The jobs in the order they were started. -/
  jobs : List LeadJob := []
  /-- What the latest round returned. -/
  latest : Option Outcome := none
  /-- Whether the context of `Run`, from which those of the jobs derive, is cancelled. -/
  done : Bool := false
  returned : Bool := false
deriving DecidableEq, Repr

inductive LoopEvent where
  /-- The ticker fires. -/
  | round (outcome : Outcome)
  /-- The context of `Run` is cancelled. -/
  | cancel
  /-- The loop sees that its context is cancelled. -/
  | quit
  /-- A job sees that its context is cancelled and returns. -/
  | finish (job : Nat)

namespace LeaderLoop

/-- Call `leadCancel` and forget it. -/
def release (loop : LeaderLoop) : LeaderLoop :=
  match loop.leadCancel with
  | some job => { loop with
      jobs := loop.jobs.modify job fun started => { started with cancelled := true }
      leadCancel := none }
  | none => loop

def round (loop : LeaderLoop) : Outcome → LeaderLoop
  | .failed => { loop with leader := false, latest := some .failed }
  | .acquired =>
    match loop.leadCancel with
    | none => { loop with
        leader := true
        leadCancel := some loop.jobs.length
        jobs := loop.jobs ++ [{}]
        latest := some .acquired }
    | some _ => { loop with latest := some .acquired }
  | .refused => { loop.release with leader := false, latest := some .refused }

def step (loop : LeaderLoop) : LoopEvent → LeaderLoop
  | .round outcome =>
    -- requests under a cancelled context fail
    if loop.returned then loop else loop.round (if loop.done then .failed else outcome)
  | .cancel => { loop with done := true }
  | .quit =>
    if loop.done && !loop.returned then { loop.release with leader := false, returned := true }
    else loop
  | .finish job => { loop with
      jobs := loop.jobs.modify job fun started =>
        { started with returned := started.returned || started.cancelled || loop.done } }

/-- The job runs and its context has not been cancelled. -/
def Active (loop : LeaderLoop) (job : Nat) : Prop :=
  ∃ started, loop.jobs[job]? = some started ∧ started.returned = false ∧
    started.cancelled = false ∧ loop.done = false

/-- `IsLeader` holds exactly if the latest round acquired the lease and a job is active, and
no two jobs are. -/
def FlagMatchesJob (loop : LeaderLoop) : Prop :=
  (loop.leader = true ↔ loop.latest = some .acquired ∧ ∃ job, loop.Active job) ∧
    ∀ job other, loop.Active job → loop.Active other → job = other

/-- The lease is not acquired while a job is kept whose flag has been lowered. -/
def Flagged (loop : LeaderLoop) : LoopEvent → Prop
  | .round .acquired => loop.done = true ∨ loop.leader = true ∨ loop.leadCancel = none
  | _ => True

instance Flagged.decidable (loop : LeaderLoop) : (event : LoopEvent) →
    Decidable (loop.Flagged event)
  | .round .acquired => inferInstanceAs (Decidable (_ ∨ _ ∨ _))
  | .round .refused | .round .failed | .cancel | .quit | .finish _ => isTrue trivial

/-! ### What every step keeps -/

/-- The one job that is not cancelled is the one `leadCancel` cancels, and the flag is up only
while there is one. -/
structure Tracked (loop : LeaderLoop) : Prop where
  current : ∀ (job : Nat) (started : LeadJob), loop.jobs[job]? = some started →
    (started.cancelled = false ↔ loop.leadCancel = some job)
  known : ∀ job, loop.leadCancel = some job → job < loop.jobs.length
  ends : ∀ (job : Nat) (started : LeadJob), loop.jobs[job]? = some started →
    started.returned = true → started.cancelled = true ∨ loop.done = true
  flag : loop.leader = true → loop.leadCancel.isSome ∧ loop.latest = some .acquired
  ended : loop.returned = true → loop.done = true ∧ loop.leader = false

variable {loop : LeaderLoop}

theorem Tracked.active_iff (tracked : loop.Tracked) (job : Nat) :
    loop.Active job ↔ loop.leadCancel = some job ∧ loop.done = false := by
  constructor
  · rintro ⟨started, listed, -, uncancelled, live⟩
    exact ⟨(tracked.current job started listed).mp uncancelled, live⟩
  · rintro ⟨kept, live⟩
    have listed := List.getElem?_eq_getElem (tracked.known job kept)
    have uncancelled := (tracked.current job _ listed).mpr kept
    refine ⟨_, listed, ?_, uncancelled, live⟩
    by_contra returned
    rcases tracked.ends job _ listed (by simpa using returned) with cancelled | ended
    · rw [uncancelled] at cancelled
      cases cancelled
    · rw [live] at ended
      cases ended

theorem Tracked.flagMatchesJob_iff (tracked : loop.Tracked) :
    loop.FlagMatchesJob ↔ (loop.leader = true ↔
      loop.latest = some .acquired ∧ loop.leadCancel.isSome = true ∧ loop.done = false) := by
  have active : (∃ job, loop.Active job) ↔
      loop.leadCancel.isSome = true ∧ loop.done = false := by
    simp only [tracked.active_iff, exists_and_right, Option.isSome_iff_exists]
  rw [FlagMatchesJob, active]
  refine and_iff_left fun job other first second => ?_
  have kept := ((tracked.active_iff job).mp first).1
  rw [((tracked.active_iff other).mp second).1] at kept
  exact (Option.some.inj kept).symm

theorem tracked_initial : Tracked {} where
  current _ _ listed := nomatch listed
  known _ kept := nomatch kept
  ends _ _ listed := nomatch listed
  flag raised := nomatch raised
  ended returned := nomatch returned

theorem leadCancel_release (loop : LeaderLoop) : loop.release.leadCancel = none := by
  unfold release
  split
  · rfl
  · assumption

theorem done_release (loop : LeaderLoop) : loop.release.done = loop.done := by
  unfold release
  split <;> rfl

theorem returned_release (loop : LeaderLoop) : loop.release.returned = loop.returned := by
  unfold release
  split <;> rfl

/-- After the release every job is cancelled. -/
theorem Tracked.jobs_release (tracked : loop.Tracked) {job : Nat} {started : LeadJob}
    (listed : loop.release.jobs[job]? = some started) :
    started.cancelled = true := by
  unfold release at listed
  split at listed
  · rename_i current kept
    rw [List.getElem?_modify] at listed
    obtain ⟨earlier, before, rfl⟩ := Option.map_eq_some_iff.mp listed
    by_cases same : current = job
    · rw [if_pos same]
    · rw [if_neg same, ← Bool.not_eq_false, tracked.current job earlier before, kept]
      exact fun equal => same (Option.some.inj equal)
  · rename_i none
    rw [← Bool.not_eq_false, tracked.current job started listed, none]
    exact nofun

theorem Tracked.releases {later : LeaderLoop} (tracked : loop.Tracked)
    (jobs : later.jobs = loop.release.jobs) (kept : later.leadCancel = none)
    (flag : later.leader = false) (ended : later.returned = true → later.done = true) :
    later.Tracked where
  current job started listed := by
    rw [jobs] at listed
    rw [tracked.jobs_release listed, kept]
    exact iff_of_false nofun nofun
  known job current := by
    rw [kept] at current
    cases current
  ends job started listed _ := by
    rw [jobs] at listed
    exact .inl (tracked.jobs_release listed)
  flag raised := by
    rw [flag] at raised
    cases raised
  ended returned := ⟨ended returned, flag⟩

theorem tracked_round (tracked : loop.Tracked) (outcome : Outcome)
    (goesOn : loop.returned = false) :
    (loop.round outcome).Tracked := by
  cases outcome with
  | failed =>
    exact ⟨tracked.current, tracked.known, tracked.ends, nofun,
      fun returned => ⟨(tracked.ended returned).1, rfl⟩⟩
  | refused =>
    refine tracked.releases rfl (leadCancel_release loop) rfl fun returned => ?_
    have returned := (returned_release loop).symm.trans returned
    rw [goesOn] at returned
    cases returned
  | acquired =>
    have ended : ∀ {p : Prop}, loop.returned = true → p := fun returned => by
      rw [goesOn] at returned
      cases returned
    cases kept : loop.leadCancel with
    | some job =>
      have same : loop.round .acquired = { loop with latest := some .acquired } := by
        simp only [round, kept]
      rw [same]
      exact ⟨tracked.current, tracked.known, tracked.ends,
        fun raised => ⟨(tracked.flag raised).1, rfl⟩, ended⟩
    | none =>
      simp only [round, kept]
      -- a job is added behind the others, which are all cancelled
      have cancelled : ∀ (job : Nat) (started : LeadJob), loop.jobs[job]? = some started →
          started.cancelled = true := by
        intro job started listed
        rw [← Bool.not_eq_false, tracked.current job started listed, kept]
        exact nofun
      have listing : ∀ (job : Nat) (started : LeadJob),
          (loop.jobs ++ [({} : LeadJob)])[job]? = some started →
            loop.jobs[job]? = some started ∧ job ≠ loop.jobs.length ∨
              job = loop.jobs.length ∧ started = {} := by
        intro job started listed
        rw [List.getElem?_append] at listed
        split at listed
        · exact .inl ⟨listed, by omega⟩
        · obtain ⟨inside, rfl⟩ := List.getElem?_eq_some_iff.mp listed
          rw [List.length_singleton] at inside
          exact .inr ⟨by omega, List.getElem_singleton ..⟩
      refine ⟨fun job started listed => ?_, fun job current => ?_,
        fun job started listed finished => ?_, fun _ => ⟨rfl, rfl⟩, ended⟩
      · obtain ⟨before, apart⟩ | ⟨rfl, rfl⟩ := listing job started listed
        · rw [cancelled job started before]
          exact iff_of_false nofun fun same => apart (Option.some.inj same).symm
        · exact iff_of_true rfl rfl
      · obtain rfl := Option.some.inj current
        simp
      · obtain ⟨before, -⟩ | ⟨-, rfl⟩ := listing job started listed
        · exact .inl (cancelled job started before)
        · cases finished

theorem tracked_step (loop : LeaderLoop) (event : LoopEvent) (tracked : loop.Tracked) :
    (loop.step event).Tracked := by
  cases event with
  | round outcome =>
    simp only [step]
    split
    · exact tracked
    · rename_i goesOn
      exact tracked_round tracked _ (by simpa using goesOn)
  | cancel =>
    exact ⟨tracked.current, tracked.known, fun _ _ _ _ => .inr rfl, tracked.flag,
      fun returned => ⟨rfl, (tracked.ended returned).2⟩⟩
  | quit =>
    simp only [step]
    split
    · rename_i ends
      refine tracked.releases rfl (leadCancel_release loop) rfl fun _ => ?_
      rw [Bool.and_eq_true] at ends
      exact (done_release loop).trans ends.1
    · exact tracked
  | finish job =>
    have listing : ∀ (other : Nat) (started : LeadJob),
        (loop.step (.finish job)).jobs[other]? = some started →
          ∃ earlier : LeadJob, loop.jobs[other]? = some earlier ∧
            started.cancelled = earlier.cancelled ∧ (started.returned = true →
              earlier.returned = true ∨ earlier.cancelled = true ∨ loop.done = true) := by
      intro other started listed
      rw [step, List.getElem?_modify] at listed
      obtain ⟨earlier, before, rfl⟩ := Option.map_eq_some_iff.mp listed
      refine ⟨earlier, before, ?_⟩
      split
      · exact ⟨rfl, by simp [or_assoc]⟩
      · exact ⟨rfl, .inl⟩
    refine ⟨fun other started listed => ?_, fun other current => ?_,
      fun other started listed finished => ?_, tracked.flag, tracked.ended⟩
    · obtain ⟨earlier, before, same, -⟩ := listing other started listed
      rw [same]
      exact tracked.current other earlier before
    · exact (tracked.known other current).trans_eq (List.length_modify ..).symm
    · obtain ⟨earlier, before, same, why⟩ := listing other started listed
      rw [same]
      obtain returned | cancelled | ended := why finished
      · exact tracked.ends other earlier before returned
      · exact .inl cancelled
      · exact .inr ended

/-- A round leaves flag and job in agreement exactly if it does not meet a job whose flag has
been lowered. -/
theorem flagMatchesJob_round_iff (tracked : loop.Tracked) (outcome : Outcome) :
    (loop.step (.round outcome)).FlagMatchesJob ↔ loop.Flagged (.round outcome) := by
  rw [(tracked_step loop (.round outcome) tracked).flagMatchesJob_iff]
  cases returned : loop.returned with
  | true =>
    obtain ⟨done, lowered⟩ := tracked.ended returned
    have ready : loop.Flagged (.round outcome) := by
      cases outcome with
      | acquired => exact .inl done
      | refused => trivial
      | failed => trivial
    simp [step, returned, done, lowered, ready]
  | false =>
    cases done : loop.done with
    | true =>
      have ready : loop.Flagged (.round outcome) := by
        cases outcome with
        | acquired => exact .inl done
        | refused => trivial
        | failed => trivial
      simp [step, returned, done, round, ready]
    | false =>
      cases outcome with
      | failed => simp [step, returned, done, round, Flagged]
      | refused => simp [step, returned, done, round, Flagged]
      | acquired =>
        cases kept : loop.leadCancel with
        | none => simp [step, returned, done, round, kept, Flagged]
        | some job => simp [step, returned, done, round, kept, Flagged]

/-- After each round the flag matches the job, and at most one job is active, exactly if no
round acquires the lease while a job is kept whose flag has been lowered. -/
theorem leader_flag_iff (events : List LoopEvent) :
    (∀ place outcome, events[place]? = some (.round outcome) →
      (run step {} (events.take (place + 1))).FlagMatchesJob) ↔
    AllSteps step Flagged {} events := by
  have next : ∀ place event, events[place]? = some event →
      run step {} (events.take (place + 1)) = step (run step {} (events.take place)) event := by
    intro place event found
    rw [List.take_add_one, found, Option.toList_some, run_append, run_cons, run_nil]
  have tracked : ∀ place, (run step {} (events.take place)).Tracked :=
    fun place => run_invariant tracked_step _ tracked_initial
  constructor
  · intro matching
    refine AllSteps.of_take fun place event found => ?_
    cases event with
    | round outcome =>
      rw [← flagMatchesJob_round_iff (tracked place), ← next place _ found]
      exact matching place outcome found
    | cancel => trivial
    | quit => trivial
    | finish job => trivial
  · intro flagged place outcome found
    rw [next place _ found, flagMatchesJob_round_iff (tracked place)]
    exact flagged.get found

example : AllSteps step Flagged {}
    [.round .acquired, .round .acquired, .round .refused, .round .failed, .round .acquired] := by
  decide

/-- A failed round between two that acquire the lease: the job goes on, the flag stays down. -/
theorem flag_down_after_failure :
    let loop := run step {} [.round .acquired, .round .failed, .round .acquired]
    loop.leader = false ∧ loop.latest = some .acquired ∧ loop.Active 0 ∧ ¬ loop.FlagMatchesJob := by
  have tracked : (run step {} [.round .acquired, .round .failed, .round .acquired]).Tracked :=
    run_invariant tracked_step _ tracked_initial
  refine ⟨by decide, by decide, (tracked.active_iff 0).mpr (by decide), ?_⟩
  rw [tracked.flagMatchesJob_iff]
  decide

/-! ### The electors of a cluster -/

/-- The elector whose loop this is, at some place in its round. -/
def elector (loop : LeaderLoop) (phase : Phase) : Elector where
  phase := phase
  leader := loop.leader
  leadCancel := loop.leadCancel.isSome
  done := loop.done

end LeaderLoop

/-- Where an elector is when `tryAcquire` has returned. -/
def Outcome.phase : Outcome → Phase
  | .acquired => .acquired
  | .refused => .refused
  | .failed => .failed

/-- What an elector of a cluster makes of a result is what the loop makes of it. -/
theorem settle_elector {Replica : Type} [DecidableEq Replica] {state : ElectionState Replica}
    {replica : Replica} {loop : LeaderLoop} {outcome : Outcome}
    (same : state.electors replica = loop.elector outcome.phase) :
    (state.settle replica).electors replica = (loop.round outcome).elector .waiting := by
  cases outcome with
  | failed =>
    simp only [ElectionState.settle, same, LeaderLoop.elector, Outcome.phase,
      ElectionState.electors_set, if_pos, LeaderLoop.round]
  | refused =>
    simp only [ElectionState.settle, same, LeaderLoop.elector, Outcome.phase,
      ElectionState.electors_set, if_pos, LeaderLoop.round, LeaderLoop.leadCancel_release,
      LeaderLoop.done_release, Option.isSome_none]
  | acquired =>
    simp only [ElectionState.settle, same, LeaderLoop.elector, Outcome.phase,
      ElectionState.electors_set, if_pos]
    cases kept : loop.leadCancel with
    | none => simp [LeaderLoop.round, kept]
    | some job => simp [LeaderLoop.round, kept]

end KnxVault.Infra
