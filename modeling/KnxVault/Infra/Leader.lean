import KnxVault.Domain.Common
import KnxVault.Std.Concurrent

/-!
# Leader election by a Kubernetes lease

`internal/infra/k8s/leader.go`: every replica reads the lease, decides by its clock
whether it may take or renew it, and writes it back without a resource version. A
replica that leads runs a job until it is refused. Two replicas can both take a lease
that has expired, and a leader that cannot renew keeps its job. Where a lease is written
back only over the one that was read, and time does not pass the expiry of a lease while
its holder leads, at most one job runs.
-/

namespace KnxVault.Infra

open KnxVault.Std KnxVault.Domain

structure LeaseSpec where
  holderIdentity : Option String := none
  leaseDurationSeconds : Option Int := none
  acquireTime : Option String := none
  renewTime : Option String := none
deriving DecidableEq, Repr

/-- The replicas, and the texts of times in RFC 3339. -/
structure Cluster (Replica : Type) where
  identity : Replica → String
  identity_injective : Function.Injective identity
  identity_filled : ∀ replica, identity replica ≠ ""
  formatTime : Time → String
  parseRFC3339 : String → Option Time

/-- Where a replica is in its loop: what it has read, what it is about to send, or what
`tryAcquire` has returned. -/
inductive Phase where
  | waiting
  | absent
  | found (lease : LeaseSpec)
  | creating (lease : LeaseSpec)
  | updating (read lease : LeaseSpec)
  | acquired
  | refused
  | failed
  | returned
deriving DecidableEq, Repr

structure Elector where
  phase : Phase := .waiting
  leader : Bool := false
  /-- Whether `leadCancel` is set: a job was started and not cancelled since. -/
  leadCancel : Bool := false
  /-- Whether the context of `Run`, and with it that of the job, has been cancelled. -/
  done : Bool := false
deriving DecidableEq, Repr

/-- A job runs whose context has not been cancelled. -/
def Elector.jobRunning (elector : Elector) : Bool := elector.leadCancel && !elector.done

structure ElectionState (Replica : Type) where
  /-- The lease at the API server. -/
  lease : Option LeaseSpec
  now : Time
  electors : Replica → Elector

inductive ElectionEvent (Replica : Type) where
  /-- The ticker fires and the lease is requested. -/
  | getLease (replica : Replica) (reply : Reply String)
  /-- The replica reads the clock and decides. -/
  | choose (replica : Replica)
  /-- The lease is created or written back. -/
  | putLease (replica : Replica) (reply : Reply String)
  /-- `tryAcquire` has returned, and the loop goes on. -/
  | settle (replica : Replica)
  | cancel (replica : Replica)
  /-- The loop sees that its context is cancelled. -/
  | quit (replica : Replica)
  | elapse (duration : Nat)

namespace Cluster

variable {Replica : Type} (cluster : Cluster Replica)

def parseTime (raw : Option String) : Time :=
  match raw with
  | none => {}
  | some text => if text = "" then {} else (cluster.parseRFC3339 text).getD {}

def leaseDuration (lease : LeaseSpec) : Int :=
  match lease.leaseDurationSeconds with
  | some seconds =>
    if 0 < seconds then seconds * nanosecondsPerSecond else 15 * nanosecondsPerSecond
  | none => 15 * nanosecondsPerSecond

def holder (lease : LeaseSpec) : String := lease.holderIdentity.getD ""

/-- Whether the lease has not run out. -/
def unexpired (lease : LeaseSpec) (now : Time) : Bool :=
  ((cluster.parseTime lease.renewTime).add (leaseDuration lease)).after now

/-- The lease that a replica creates where there is none. -/
def newLease (replica : Replica) (now : Time) : LeaseSpec where
  holderIdentity := some (cluster.identity replica)
  leaseDurationSeconds := some 15
  acquireTime := some (cluster.formatTime now.utc)
  renewTime := some (cluster.formatTime now.utc)

/-- What a replica that has found a lease writes back, unless another one holds it. -/
def renewal (replica : Replica) (now : Time) (lease : LeaseSpec) : Option LeaseSpec :=
  if holder lease = cluster.identity replica then
    some { lease with renewTime := some (cluster.formatTime now.utc) }
  else if holder lease ≠ "" ∧ cluster.unexpired lease now.utc then none
  else some { lease with
    holderIdentity := some (cluster.identity replica)
    renewTime := some (cluster.formatTime now.utc)
    leaseDurationSeconds := some (leaseDuration lease / nanosecondsPerSecond) }

/-- How a request to read the lease ends; a failed one counts as no lease. -/
def readLease (stored : Option LeaseSpec) : Reply String → Phase
  | .answer => match stored with
    | some lease => .found lease
    | none => .absent
  | .failure _ _ => .absent

/-- How a request to write ends: the server's lease, and what the replica is told. -/
def write (stored later : Option LeaseSpec) (accepted : Bool) :
    Reply String → Option LeaseSpec × Phase
  | .answer => if accepted then (later, .acquired) else (stored, .failed)
  | .failure _ performed => (if accepted && performed then later else stored, .failed)

end Cluster

namespace ElectionState

variable {Replica : Type} [DecidableEq Replica]

def set (state : ElectionState Replica) (replica : Replica) (elector : Elector) :
    ElectionState Replica :=
  { state with electors := Function.update state.electors replica elector }

def setPhase (state : ElectionState Replica) (replica : Replica) (phase : Phase) :
    ElectionState Replica :=
  state.set replica { state.electors replica with phase }

/-- The server creates a lease only where there is none, and replaces only one that is
there, whatever it has become. -/
def send (state : ElectionState Replica) (replica : Replica) (lease : LeaseSpec) (update : Bool)
    (reply : Reply String) : ElectionState Replica :=
  let (stored, phase) := Cluster.write state.lease (some lease) (state.lease.isSome = update) reply
  { state.setPhase replica phase with lease := stored }

/-- What the loop makes of the result of `tryAcquire`. -/
def settle (state : ElectionState Replica) (replica : Replica) : ElectionState Replica :=
  let elector := state.electors replica
  match elector.phase with
  | .acquired =>
    state.set replica { elector with
      phase := .waiting, leader := elector.leader || !elector.leadCancel, leadCancel := true }
  | .refused => state.set replica { elector with
      phase := .waiting, leader := false, leadCancel := false }
  | .failed => state.set replica { elector with phase := .waiting, leader := false }
  | _ => state

end ElectionState

namespace Cluster

variable {Replica : Type} [DecidableEq Replica] (cluster : Cluster Replica)

def choose (state : ElectionState Replica) (replica : Replica) : ElectionState Replica :=
  match (state.electors replica).phase with
  | .absent => state.setPhase replica (.creating (cluster.newLease replica state.now))
  | .found lease =>
    match cluster.renewal replica state.now lease with
    | some written => state.setPhase replica (.updating lease written)
    | none => state.setPhase replica .refused
  | _ => state

def step (state : ElectionState Replica) : ElectionEvent Replica → ElectionState Replica
  | .getLease replica reply =>
    match (state.electors replica).phase with
    | .waiting => state.setPhase replica (readLease state.lease reply)
    | _ => state
  | .choose replica => cluster.choose state replica
  | .putLease replica reply =>
    match (state.electors replica).phase with
    | .creating lease => state.send replica lease false reply
    | .updating _ lease => state.send replica lease true reply
    | _ => state
  | .settle replica => state.settle replica
  | .cancel replica => state.set replica { state.electors replica with done := true }
  | .quit replica =>
    match (state.electors replica).phase, (state.electors replica).done with
    | .waiting, true => state.set replica { state.electors replica with
        phase := .returned, leader := false }
    | _, _ => state
  | .elapse duration => { state with now := state.now.add duration }

/-! ### The property and when it holds -/

/-- No two replicas have a job running. -/
def SingleLeader (state : ElectionState Replica) : Prop :=
  ∀ replica other, (state.electors replica).jobRunning = true →
    (state.electors other).jobRunning = true → replica = other

/-- The replica runs its job, or is about to start it. -/
def Leads (state : ElectionState Replica) (replica : Replica) : Prop :=
  (state.electors replica).jobRunning = true ∨ (state.electors replica).phase = .acquired

/-- What is about to be written has not run out, and goes over the lease that was read. -/
def InTime (state : ElectionState Replica) : Phase → Prop
  | .creating lease => cluster.unexpired lease state.now = true
  | .updating read lease => state.lease = some read ∧ cluster.unexpired lease state.now = true
  | _ => True

/-- A lease is written before it runs out, and written back only over the one that was read;
time does not pass the expiry of the lease while a replica leads. -/
def Timely (state : ElectionState Replica) : ElectionEvent Replica → Prop
  | .putLease replica _ => cluster.InTime state (state.electors replica).phase
  | .elapse duration => ∀ replica, Leads state replica → ∀ lease ∈ state.lease,
      cluster.unexpired lease (state.now.add duration) = true
  | _ => True

end Cluster

namespace ElectionState

variable {Replica : Type} [DecidableEq Replica]

theorem electors_set (state : ElectionState Replica) (replica other : Replica)
    (elector : Elector) : (state.set replica elector).electors other =
      if other = replica then elector else state.electors other :=
  Function.update_apply ..

theorem electors_send (state : ElectionState Replica) (replica other : Replica)
    (lease : LeaseSpec) (update : Bool) (reply : Reply String) :
    (state.send replica lease update reply).electors other =
      if other = replica then { state.electors replica with
        phase := (Cluster.write state.lease (some lease) (state.lease.isSome = update) reply).2 }
      else state.electors other :=
  electors_set ..

theorem lease_send (state : ElectionState Replica) (replica : Replica)
    (lease : LeaseSpec) (update : Bool) (reply : Reply String) :
    (state.send replica lease update reply).lease =
      (Cluster.write state.lease (some lease) (state.lease.isSome = update) reply).1 := rfl

theorem now_send (state : ElectionState Replica) (replica : Replica)
    (lease : LeaseSpec) (update : Bool) (reply : Reply String) :
    (state.send replica lease update reply).now = state.now := rfl

end ElectionState

namespace Cluster

variable {Replica : Type} [DecidableEq Replica] {cluster : Cluster Replica}
  {state : ElectionState Replica}

/-- The server took the lease, or nothing has changed and the replica was told of a failure. -/
theorem write_cases (stored later : Option LeaseSpec) (accepted : Bool) (reply : Reply String) :
    (accepted = true ∧ (write stored later accepted reply).1 = later ∧
      ((write stored later accepted reply).2 = .acquired ∨
        (write stored later accepted reply).2 = .failed)) ∨
    ((write stored later accepted reply).1 = stored ∧
      (write stored later accepted reply).2 = .failed) := by
  cases accepted with
  | false =>
    right
    cases reply <;> exact ⟨rfl, rfl⟩
  | true =>
    rcases reply with _ | ⟨err, _ | _⟩
    · exact .inl ⟨rfl, rfl, .inl rfl⟩
    · exact .inr ⟨rfl, rfl⟩
    · exact .inl ⟨rfl, rfl, .inr rfl⟩

variable {replica : Replica} {lease : LeaseSpec}

omit [DecidableEq Replica] in
/-- What a replica writes back names it as holder, and the lease found was its own or free. -/
theorem renewal_eq_some {now : Time} {written : LeaseSpec}
    (renewed : cluster.renewal replica now lease = some written) :
    holder written = cluster.identity replica ∧
      (holder lease = cluster.identity replica ∨ holder lease = "" ∨
        cluster.unexpired lease now = false) := by
  unfold renewal at renewed
  split at renewed
  · rename_i own
    cases renewed
    exact ⟨own, .inl own⟩
  · split at renewed
    · cases renewed
    · rename_i free
      cases renewed
      refine ⟨rfl, .inr ?_⟩
      by_contra held
      rw [not_or, Bool.not_eq_false] at held
      exact free held

omit [DecidableEq Replica] in
theorem unexpired_earlier {now later : Time} (sooner : now.instant ≤ later.instant)
    (unexpired : cluster.unexpired lease later = true) :
    cluster.unexpired lease now = true := by
  simp only [Cluster.unexpired, Time.after, decide_eq_true_eq] at unexpired ⊢
  exact lt_of_le_of_lt sooner unexpired

variable (cluster)

/-- A replica that leads holds the lease, which has not run out; what a replica is about to
write names it, over a lease that was its own or free. -/
structure Orderly (state : ElectionState Replica) : Prop where
  leads : ∀ replica, Leads state replica → ∃ lease, state.lease = some lease ∧
    holder lease = cluster.identity replica ∧ cluster.unexpired lease state.now = true
  creates : ∀ replica lease, (state.electors replica).phase = .creating lease →
    holder lease = cluster.identity replica
  updates : ∀ replica read lease, (state.electors replica).phase = .updating read lease →
    holder lease = cluster.identity replica ∧ (holder read = cluster.identity replica ∨
      holder read = "" ∨ cluster.unexpired read state.now = false)

variable {cluster}

omit [DecidableEq Replica] in
theorem Orderly.singleLeader (orderly : cluster.Orderly state) : SingleLeader state := by
  intro replica other running running'
  obtain ⟨lease, stored, held, -⟩ := orderly.leads replica (.inl running)
  obtain ⟨lease', stored', held', -⟩ := orderly.leads other (.inl running')
  rw [stored] at stored'
  cases stored'
  exact cluster.identity_injective (held.symm.trans held')

/-- A replica that changes only its own phase or job, neither of them to leading, leaves the
order; what it is about to write is in order as well. -/
theorem Orderly.set {elector : Elector} (orderly : cluster.Orderly state)
    (leads : elector.jobRunning = true ∨ elector.phase = .acquired → Leads state replica)
    (creates : ∀ lease, elector.phase = .creating lease → holder lease = cluster.identity replica)
    (updates : ∀ read lease, elector.phase = .updating read lease →
      holder lease = cluster.identity replica ∧ (holder read = cluster.identity replica ∨
        holder read = "" ∨ cluster.unexpired read state.now = false)) :
    cluster.Orderly (state.set replica elector) where
  leads other leading := by
    unfold Leads at leading
    rw [ElectionState.electors_set] at leading
    split at leading
    · rename_i same
      subst same
      exact orderly.leads other (leads leading)
    · exact orderly.leads other leading
  creates other lease phase := by
    rw [ElectionState.electors_set] at phase
    split at phase
    · rename_i same
      subst same
      exact creates lease phase
    · exact orderly.creates other lease phase
  updates other read lease phase := by
    rw [ElectionState.electors_set] at phase
    split at phase
    · rename_i same
      subst same
      exact updates read lease phase
    · exact orderly.updates other read lease phase

/-- A phase in which the replica neither has acquired the lease nor is about to write it. -/
theorem Orderly.setPhase {phase : Phase} (orderly : cluster.Orderly state)
    (unacquired : phase ≠ .acquired)
    (creates : ∀ lease, phase = .creating lease → holder lease = cluster.identity replica)
    (updates : ∀ read lease, phase = .updating read lease →
      holder lease = cluster.identity replica ∧ (holder read = cluster.identity replica ∨
        holder read = "" ∨ cluster.unexpired read state.now = false)) :
    cluster.Orderly (state.setPhase replica phase) :=
  orderly.set (fun leading => .inl (leading.resolve_right unacquired)) creates updates

/-- Writing a lease that names the writer, while no other replica leads. -/
theorem Orderly.send {update : Bool} {reply : Reply String} (orderly : cluster.Orderly state)
    (named : holder lease = cluster.identity replica)
    (fresh : cluster.unexpired lease state.now = true)
    (alone : state.lease.isSome = update → ∀ other, Leads state other → other = replica) :
    cluster.Orderly (state.send replica lease update reply) := by
  obtain ⟨accepted, stored, told⟩ | ⟨stored, told⟩ :=
    write_cases state.lease (some lease) (state.lease.isSome = update) reply
  · refine ⟨fun other leading => ?_, fun other written phase => ?_,
      fun other read written phase => ?_⟩
    · rw [ElectionState.lease_send, stored, ElectionState.now_send]
      refine ⟨lease, rfl, ?_, fresh⟩
      by_cases same : other = replica
      · rw [same, named]
      · unfold Leads at leading
        rw [ElectionState.electors_send, if_neg same] at leading
        exact absurd (alone (of_decide_eq_true accepted) other leading) same
    · rw [ElectionState.electors_send] at phase
      split at phase
      · rcases told with told | told <;> rw [told] at phase <;> cases phase
      · exact orderly.creates other written phase
    · rw [ElectionState.electors_send] at phase
      split at phase
      · rcases told with told | told <;> rw [told] at phase <;> cases phase
      · exact orderly.updates other read written phase
  · have unchanged : state.send replica lease update reply = state.setPhase replica .failed := by
      unfold ElectionState.send
      rw [Prod.ext_iff.mpr (show _ = (state.lease, Phase.failed).1 ∧ _ from ⟨stored, told⟩)]
      rfl
    rw [unchanged]
    exact orderly.setPhase (by decide) (by rintro _ ⟨⟩) (by rintro _ _ ⟨⟩)

/-! ### Every timely event keeps the order -/

theorem orderly_choose (orderly : cluster.Orderly state) (replica : Replica) :
    cluster.Orderly (cluster.choose state replica) := by
  unfold Cluster.choose
  split
  · refine orderly.setPhase (by rintro ⟨⟩) (fun lease same => ?_) (by rintro _ _ ⟨⟩)
    cases same
    rfl
  · split
    · rename_i lease _ written renewed
      refine orderly.setPhase (by rintro ⟨⟩) (by rintro _ ⟨⟩) (fun read other same => ?_)
      cases same
      exact renewal_eq_some renewed
    · exact orderly.setPhase (by decide) (by rintro _ ⟨⟩) (by rintro _ _ ⟨⟩)
  · exact orderly

theorem orderly_putLease (orderly : cluster.Orderly state) (replica : Replica)
    (reply : Reply String) (timely : cluster.Timely state (.putLease replica reply)) :
    cluster.Orderly (cluster.step state (.putLease replica reply)) := by
  simp only [Timely] at timely
  simp only [step]
  split
  · rename_i lease phase
    rw [phase] at timely
    refine orderly.send (orderly.creates replica lease phase) timely fun absent other leading => ?_
    -- a replica that leads holds a lease, but there is none
    obtain ⟨held, stored, -⟩ := orderly.leads other leading
    rw [stored] at absent
    cases absent
  · rename_i read lease phase
    rw [phase] at timely
    obtain ⟨isRead, fresh⟩ := timely
    obtain ⟨named, free⟩ := orderly.updates replica read lease phase
    refine orderly.send named fresh fun _ other leading => ?_
    -- the lease that was read is still there, and was free or the replica's own
    obtain ⟨held, stored, isOther, unexpired⟩ := orderly.leads other leading
    rw [isRead] at stored
    cases stored
    rcases free with own | unheld | expired
    · exact cluster.identity_injective (isOther.symm.trans own)
    · exact absurd (isOther.symm.trans unheld) (cluster.identity_filled other)
    · rw [expired] at unexpired
      cases unexpired
  · exact orderly

theorem orderly_settle (orderly : cluster.Orderly state) (replica : Replica) :
    cluster.Orderly (state.settle replica) := by
  simp only [ElectionState.settle]
  split
  · rename_i acquired
    exact orderly.set (fun _ => .inr acquired) (by rintro _ ⟨⟩) (by rintro _ _ ⟨⟩)
  · refine orderly.set (fun leading => ?_) (by rintro _ ⟨⟩) (by rintro _ _ ⟨⟩)
    rcases leading with running | ⟨⟨⟩⟩
    cases running
  · refine orderly.set (fun leading => ?_) (by rintro _ ⟨⟩) (by rintro _ _ ⟨⟩)
    rcases leading with running | ⟨⟨⟩⟩
    exact .inl running
  · exact orderly

theorem orderly_step (state : ElectionState Replica) (event : ElectionEvent Replica)
    (timely : cluster.Timely state event) (orderly : cluster.Orderly state) :
    cluster.Orderly (cluster.step state event) := by
  cases event with
  | getLease replica reply =>
    simp only [step]
    split
    · have read : ∀ phase, readLease state.lease reply = phase →
          phase = .absent ∨ ∃ lease, phase = .found lease := by
        rintro _ rfl
        unfold readLease
        split
        · split
          · exact .inr ⟨_, rfl⟩
          · exact .inl rfl
        · exact .inl rfl
      refine orderly.setPhase (fun same => ?_) (fun _ same => ?_) (fun _ _ same => ?_)
      all_goals
        obtain wrong | ⟨_, wrong⟩ := read _ same
        all_goals cases wrong
    · exact orderly
  | choose replica => exact orderly_choose orderly replica
  | putLease replica reply => exact orderly_putLease orderly replica reply timely
  | settle replica => exact orderly_settle orderly replica
  | cancel replica =>
    refine orderly.set (fun leading => ?_) (orderly.creates replica) (orderly.updates replica)
    rcases leading with running | acquired
    · simp [Elector.jobRunning] at running
    · exact .inr acquired
  | quit replica =>
    simp only [step]
    split
    · rename_i cancelled
      refine orderly.set (fun leading => ?_) (by rintro _ ⟨⟩) (by rintro _ _ ⟨⟩)
      rcases leading with running | ⟨⟨⟩⟩
      exact .inl running
    · exact orderly
  | elapse duration =>
    have later : state.now.instant ≤ (state.now.add duration).instant :=
      Int.le_add_of_nonneg_right (Int.natCast_nonneg duration)
    refine ⟨fun replica leading => ?_, orderly.creates, fun replica read lease phase => ?_⟩
    · obtain ⟨lease, stored, held, -⟩ := orderly.leads replica leading
      exact ⟨lease, stored, held, timely replica leading lease stored⟩
    · obtain ⟨named, free⟩ := orderly.updates replica read lease phase
      refine ⟨named, free.imp_right (Or.imp_right fun expired => ?_)⟩
      by_contra unexpired
      rw [Bool.not_eq_false] at unexpired
      rw [unexpired_earlier later unexpired] at expired
      cases expired

/-- Replicas that have just started, with whatever lease is at the server. -/
def initial (lease : Option LeaseSpec) (now : Time) : ElectionState Replica where
  lease := lease
  now := now
  electors _ := {}

omit [DecidableEq Replica] in
theorem orderly_initial (cluster : Cluster Replica) (lease : Option LeaseSpec) (now : Time) :
    cluster.Orderly (initial lease now) := by
  refine ⟨fun replica leading => ?_, fun _ _ phase => ?_, fun _ _ _ phase => ?_⟩
  · rcases leading with running | acquired
    · cases running
    · cases acquired
  · cases phase
  · cases phase

/-- In every state of a run of timely events at most one replica has a job running. -/
theorem single_leader (cluster : Cluster Replica) (lease : Option LeaseSpec) (now : Time)
    {events : List (ElectionEvent Replica)}
    (timely : AllSteps cluster.step cluster.Timely (initial lease now) events) (count : Nat) :
    SingleLeader (run cluster.step (initial lease now) (events.take count)) :=
  ((timely.take count).invariant orderly_step (orderly_initial cluster lease now)).singleLeader

/-! ### Sample runs -/

/-- Two replicas; a time is written as that many strokes. -/
def sampleCluster : Cluster Bool where
  identity replica := if replica then "knxvault-1" else "knxvault-0"
  identity_injective := by
    intro replica other
    revert replica other
    decide
  identity_filled := by decide
  formatTime time := String.ofList (List.replicate (time.instant / nanosecondsPerSecond).toNat '|')
  parseRFC3339 text := some ⟨text.length * nanosecondsPerSecond, 0⟩

/-- A lease that a replica which is gone has left, and a minute later. -/
def abandonedLease : LeaseSpec where
  holderIdentity := some "knxvault-2"
  leaseDurationSeconds := some 15
  renewTime := some "|"

def aMinuteLater : Time := ⟨60 * nanosecondsPerSecond, 0⟩

/-- One replica takes the lease, the other one is refused, then the first renews. -/
def orderlyElection : List (ElectionEvent Bool) :=
  [.getLease false .answer, .choose false, .putLease false .answer, .settle false,
    .getLease true .answer, .choose true, .settle true, .elapse 2000000000,
    .getLease false .answer, .choose false, .putLease false .answer, .settle false]

/-- Both replicas find the lease expired, and both take it. -/
def racingElection : List (ElectionEvent Bool) :=
  [.getLease false .answer, .getLease true .answer, .choose false, .choose true,
    .putLease false .answer, .putLease true .answer, .settle false, .settle true]

/-- A leader that cannot reach the server keeps its job, and another replica takes the lease
once it has run out. -/
def partitionedElection : List (ElectionEvent Bool) :=
  [.getLease false .answer, .choose false, .putLease false .answer, .settle false,
    .getLease false (.failure "connection refused" false), .choose false,
    .putLease false (.failure "connection refused" false), .settle false, .elapse 20000000000,
    .getLease true .answer, .choose true, .putLease true .answer, .settle true]

instance Leads.decidable (state : ElectionState Replica) (replica : Replica) :
    Decidable (Leads state replica) :=
  inferInstanceAs (Decidable (_ ∨ _))

instance InTime.decidable (cluster : Cluster Replica) (state : ElectionState Replica) :
    (phase : Phase) → Decidable (cluster.InTime state phase)
  | .creating lease => inferInstanceAs (Decidable (cluster.unexpired lease state.now = true))
  | .updating _ _ => inferInstanceAs (Decidable (_ ∧ _))
  | .waiting | .absent | .found _ | .acquired | .refused | .failed | .returned => isTrue trivial

instance Timely.decidable (state : ElectionState Bool) : (event : ElectionEvent Bool) →
    Decidable (sampleCluster.Timely state event)
  | .putLease replica _ => InTime.decidable sampleCluster state (state.electors replica).phase
  | .elapse _ =>
    inferInstanceAs (Decidable (∀ replica, Leads state replica → ∀ lease ∈ state.lease, _))
  | .getLease .. | .choose _ | .settle _ | .cancel _ | .quit _ => isTrue trivial

theorem single_leader_orderlyElection : SingleLeader
    (run sampleCluster.step (initial (some abandonedLease) aMinuteLater)
      (orderlyElection.take 12)) :=
  single_leader sampleCluster _ _ (by decide +kernel) 12

theorem two_leaders : ¬ ∀ events : List (ElectionEvent Bool),
    SingleLeader (run sampleCluster.step (initial (some abandonedLease) aMinuteLater) events) := by
  intro single
  have both := single racingElection false true (by decide +kernel) (by decide +kernel)
  cases both

example : ¬ SingleLeader
    (run sampleCluster.step (initial (some abandonedLease) aMinuteLater) partitionedElection) := by
  intro single
  have both := single false true (by decide +kernel) (by decide +kernel)
  cases both

end Cluster

end KnxVault.Infra
