import KnxVault.Leases.Revocation
import KnxVault.Std.Execution

/-!
# How long leases live

The engines resolve the lifetime of a lease from the tuning of its role and what the
caller asks for. Lifetimes are whole seconds, but they are compared, and added to the
clock, as 64-bit durations in nanoseconds.
-/

namespace KnxVault.Engine

open KnxVault.Std KnxVault.Domain KnxVault.Repository

/-! ### Durations -/

/-- The most seconds whose nanoseconds fit into a duration. -/
def maxDurationSeconds : Int := 9223372036

theorem seconds_eq_iff {count : Int} (positive : 0 < count) :
    seconds count = count * nanosecondsPerSecond ↔ count ≤ maxDurationSeconds := by
  unfold seconds wrap64 maxDurationSeconds nanosecondsPerSecond
  rw [Int.bmod_def]
  split <;> omega

theorem seconds_le {count : Int} (nonneg : 0 ≤ count) :
    seconds count ≤ count * nanosecondsPerSecond := by
  unfold seconds wrap64 nanosecondsPerSecond
  rw [Int.bmod_def]
  split <;> omega

theorem seconds_lt (count : Int) : seconds count < 2 ^ 63 := by
  unfold seconds wrap64 nanosecondsPerSecond
  rw [Int.bmod_def]
  split <;> omega

/-- A duration in whole seconds is no longer than the seconds it comes from. -/
theorem tdiv_seconds_le {most : Int} (positive : 0 < most)
    (whole : 0 < (seconds most).tdiv nanosecondsPerSecond) :
    (seconds most).tdiv nanosecondsPerSecond ≤ most ∧
      (seconds most).tdiv nanosecondsPerSecond ≤ maxDurationSeconds := by
  have le := seconds_le positive.le
  have lt := seconds_lt most
  rw [Int.tdiv_eq_ediv] at whole ⊢
  unfold maxDurationSeconds
  unfold nanosecondsPerSecond at *
  split at whole <;> simp only [Int.sign] at * <;> omega

/-! ### Resolved lifetimes -/

/-- The lease lives for a positive time of at most `most` seconds, and expires just then. -/
structure LivesFrom (clock : Time) (most : Int) (lease : Lease) : Prop where
  positive : 0 < lease.ttlSeconds
  bounded : lease.ttlSeconds ≤ most
  expires : lease.expiresAt = clock.add (lease.ttlSeconds * nanosecondsPerSecond)

variable {clock : Time}

theorem add_eq_iff {duration other : Int} :
    clock.add duration = clock.add other ↔ duration = other := by
  simp [Time.add]

variable {lease : Lease}

theorem livesFrom_iff {most : Int} (positive : 0 < lease.ttlSeconds)
    (expires : lease.expiresAt = clock.add (seconds lease.ttlSeconds)) :
    LivesFrom clock most lease ↔
      lease.ttlSeconds ≤ most ∧ lease.ttlSeconds ≤ maxDurationSeconds := by
  rw [← seconds_eq_iff positive, ← @add_eq_iff clock, ← expires]
  exact ⟨fun lives => ⟨lives.bounded, lives.expires⟩, fun holds => ⟨positive, holds.1, holds.2⟩⟩

namespace LeaseTuning

variable (tuning : LeaseTuning)

/-- The lifetime that an issue is to have: the period of the role, what is asked for, or the
default of the role. -/
def issued (requested : Int) : Int :=
  if 0 < tuning.period then tuning.period
  else if 0 < requested then requested
  else tuning.defaultTTL

/-- The lifetime that a renewal is to have: the period of the role, what is asked for, or the
current one. -/
def renewed (requested currentTTL : Int) : Int :=
  if 0 < tuning.period then tuning.period
  else if 0 < requested then requested
  else currentTTL

variable {tuning}

theorem resolveIssueTTL_ok {requested ttl : Int}
    (resolved : tuning.resolveIssueTTL requested = .ok ttl) :
    ttl = tuning.issued requested ∧ 0 < ttl ∧ ttl ≤ tuning.maxTTL := by
  unfold resolveIssueTTL at resolved
  change (if tuning.issued requested ≤ 0 then _
    else if tuning.maxTTL < tuning.issued requested then _
    else Except.ok (tuning.issued requested)) = _ at resolved
  split at resolved
  · cases resolved
  split at resolved
  · cases resolved
  · obtain rfl := Except.ok.inj resolved
    omega

theorem resolveRenewTTL_eq (requested currentTTL : Int) (now : Time) :
    tuning.resolveRenewTTL requested currentTTL now =
      if seconds tuning.maxTTL < seconds (tuning.renewed requested currentTTL) then
        (seconds tuning.maxTTL).tdiv nanosecondsPerSecond
      else tuning.renewed requested currentTTL := by
  have turned : (if requested ≤ 0 then currentTTL else requested) =
      if 0 < requested then requested else currentTTL := by
    split <;> split <;> omega
  unfold resolveRenewTTL renewed
  simp only [turned, Time.after, Time.add, decide_eq_true_eq, Int.add_lt_add_iff_left]

/-- The maximum of a role is never left unset. -/
theorem maxTTL_withDefaults_pos (ttlSeconds : Int) (tuning : LeaseTuning) :
    0 < (tuning.withDefaults ttlSeconds).maxTTL :=
  orDefault_pos _ (orDefault_pos _ (by decide))

end LeaseTuning

/-- A new lease lives as it should just if its lifetime fits into a duration. -/
theorem livesFrom_issued {tuning : LeaseTuning} {requested : Int}
    (resolved : tuning.resolveIssueTTL requested = .ok lease.ttlSeconds)
    (expires : lease.expiresAt = clock.add (seconds lease.ttlSeconds)) :
    LivesFrom clock tuning.maxTTL lease ↔ tuning.issued requested ≤ maxDurationSeconds := by
  obtain ⟨same, positive, bounded⟩ := LeaseTuning.resolveIssueTTL_ok resolved
  rw [livesFrom_iff positive expires, ← same]
  exact ⟨fun holds => holds.2, fun fits => ⟨bounded, fits⟩⟩

/-- A renewed lease lives as it should just if the lifetime it is to have fits into a duration, or
is cut to the maximum. -/
theorem livesFrom_renewed {tuning : LeaseTuning} {requested currentTTL : Int}
    (most : 0 < tuning.maxTTL) (positive : 0 < lease.ttlSeconds)
    (resolved : lease.ttlSeconds = tuning.resolveRenewTTL requested currentTTL clock)
    (expires : lease.expiresAt = clock.add (seconds lease.ttlSeconds)) :
    LivesFrom clock tuning.maxTTL lease ↔
      tuning.renewed requested currentTTL ≤ maxDurationSeconds ∨
        seconds tuning.maxTTL < seconds (tuning.renewed requested currentTTL) := by
  rw [livesFrom_iff positive expires]
  rw [LeaseTuning.resolveRenewTTL_eq] at resolved
  split at resolved
  · rename_i cut
    rw [resolved] at positive ⊢
    exact iff_of_true (tdiv_seconds_le most positive) (.inr cut)
  · rename_i uncut
    rw [← resolved] at uncut ⊢
    constructor
    · exact fun holds => .inl holds.2
    · rintro (fits | cut)
      · have fitted := (seconds_eq_iff positive).mpr fits
        have le := seconds_le most.le
        unfold nanosecondsPerSecond at fitted le
        exact ⟨by omega, fits⟩
      · exact absurd cut uncut

/-! ### Calls that succeed -/

/-- The operation does not write to the leases. -/
def LeaseOp.LeavesLeases : LeaseOp → Prop
  | saveLease _ | revokeLease _ _ => False
  | _ => True

theorem LeaseOp.exec_leases {lib : Library} {op : LeaseOp} (leaves : op.LeavesLeases)
    (draw : LeaseDraw) (stores : LeaseStores lib) :
    (op.exec draw stores).2.leases = stores.leases := by
  cases op with
  | saveLease | revokeLease => exact leaves.elim
  | putAtomic write =>
    simp only [exec]
    split <;> rfl
  | destroyVersion path version =>
    simp only [exec]
    cases stores.secrets.destroyVersion path version <;> rfl
  | _ => rfl

namespace LeaseProgram

variable {lib : Library} {α β : Type}

/-- The call succeeds with the value; the draws that it takes are counted. -/
abbrev Answers (program : LeaseProgram α) (start : LeaseStores lib × (Nat → LeaseDraw)) (value : α)
    (finish : LeaseStores lib × (Nat → LeaseDraw)) : Prop :=
  Fallible.Runs (Program.threaded LeaseOp.exec) program start (.ok value) finish

theorem answers_of_fed {program : LeaseProgram α} {draws : Nat → LeaseDraw}
    {stores later : LeaseStores lib} {value : α}
    (done : program.run.fed LeaseOp.exec draws stores = (.ok value, later)) :
    ∃ rest, Answers program (stores, draws) value (later, rest) := by
  obtain ⟨rest, runs⟩ := @Program.runs_threaded _ _ _ _ _ LeaseOp.exec program.run draws stores
  rw [done] at runs
  exact ⟨rest, runs⟩

section Operations

variable {stores : LeaseStores lib} {draws : Nat → LeaseDraw}
  {finish : LeaseStores lib × (Nat → LeaseDraw)} {value : α}

/-- A check has passed if the call succeeds. -/
theorem answers_else {refused : Prop} [Decidable refused] {err : GoError} {program : LeaseProgram α}
    (runs : Answers (if refused then throw err else program) (stores, draws) value finish) :
    Answers program (stores, draws) value finish := by
  split at runs
  · obtain ⟨failed, -⟩ := Fallible.runs_throw.mp runs
    cases failed
  · exact runs

theorem answers_now_bind {rest : Time → LeaseProgram α}
    (runs : Answers (now >>= rest) (stores, draws) value finish) :
    Answers (rest (draws 0).env.now) (stores, fun place => draws (place + 1)) value finish := by
  obtain ⟨_, going⟩ := Fallible.runs_perform_bind.mp runs
  exact going

theorem answers_lift_bind {β : Type} {result : Except GoError β} {rest : β → LeaseProgram α}
    (runs : Answers (lift result >>= rest) (stores, draws) value finish) :
    ∃ passed, result = .ok passed ∧ Answers (rest passed) (stores, draws) value finish := by
  obtain ⟨passed, _, lifted, going⟩ := runs.bind_ok
  obtain ⟨same, rfl⟩ := Program.runs_done.mp lifted
  exact ⟨passed, same.symm, going⟩

variable {lease : Lease}

theorem answers_getLease {id : String} (runs : Answers (getLease id) (stores, draws) lease finish) :
    stores.leases.find id = some lease ∧ finish = (stores, fun place => draws (place + 1)) := by
  obtain ⟨_, read, rfl⟩ := Program.runs_perform.mp runs
  exact ⟨getRow_ok_iff.mp (mapError_ok_iff.mp read.symm), rfl⟩

theorem answers_getDatabaseRole {name : String} {role : DatabaseRole}
    (runs : Answers (getDatabaseRole name) (stores, draws) role finish) :
    stores.databaseRoles.find name = some role ∧
      finish = (stores, fun place => draws (place + 1)) := by
  obtain ⟨_, read, rfl⟩ := Program.runs_perform.mp runs
  exact ⟨getRow_ok_iff.mp (mapError_ok_iff.mp read.symm), rfl⟩

theorem answers_getSSHRole {name : String} {role : SSHRole}
    (runs : Answers (getSSHRole name) (stores, draws) role finish) :
    stores.sshRoles.find name = some role ∧
      finish = (stores, fun place => draws (place + 1)) := by
  obtain ⟨_, read, rfl⟩ := Program.runs_perform.mp runs
  exact ⟨getRow_ok_iff.mp (mapError_ok_iff.mp read.symm), rfl⟩

theorem answers_getLatest {path : String} {latest : SecretVersion}
    (runs : Answers (getLatest path) (stores, draws) latest finish) :
    finish = (stores, fun place => draws (place + 1)) := by
  obtain ⟨-, -, rfl⟩ := Program.runs_perform.mp runs
  rfl

/-- A program without writes to the leases leaves them. -/
theorem answers_leases {program : LeaseProgram α}
    (runs : Answers program (stores, draws) value finish)
    (issues : program.run.Issues LeaseOp.LeavesLeases) : finish.1.leases = stores.leases :=
  @Program.Runs.invariant _ _ _ _ _ _ _ _ _ LeaseOp.LeavesLeases
    (fun state => state.1.leases = stores.leases)
    (fun _ _ state leaves same => (LeaseOp.exec_leases leaves (state.2 0) state.1).trans same)
    _ runs issues rfl

/-- A checked lease has a positive lifetime. -/
theorem ttlSeconds_pos (passed : lease.validate = .ok ()) :
    0 < lease.ttlSeconds := by
  by_contra spent
  unfold Lease.validate at passed
  rw [if_pos (not_lt.mp spent)] at passed
  repeat' split at passed
  all_goals cases passed

/-- The lease is checked, and stored as it is. -/
theorem answers_saveLease (runs : Answers (saveLease lease) (stores, draws) () finish) :
    0 < lease.ttlSeconds ∧ finish.1.leases.find lease.id = some lease := by
  obtain ⟨_, saved, rfl⟩ := Program.runs_perform.mp runs
  simp only [Program.threaded, LeaseOp.exec] at saved ⊢
  cases done : stores.leases.save lease with
  | error err =>
    rw [done] at saved
    cases saved
  | ok leases =>
    obtain ⟨passed, rfl⟩ := saveRow_ok_iff.mp done
    exact ⟨ttlSeconds_pos passed, Table.find_put_self stores.leases lease passed⟩

/-- The credentials of a lease are stored apart from the leases. -/
theorem answers_storeSecret {library : Library} {crypto : LeaseCrypto} {path leaseID : String}
    {ttlSeconds : Int} {expiresAt : Time} {data : Fields}
    (runs : Answers (crypto.storeSecret library path leaseID ttlSeconds expiresAt data)
      (stores, draws) () finish) : finish.1.leases = stores.leases := by
  refine answers_leases runs ?_
  refine Fallible.issues_bind ⟨trivial, fun _ => trivial⟩ fun drawn => ?_
  refine Fallible.issues_bind trivial fun write => ?_
  exact Fallible.issues_bind ⟨trivial, fun _ => trivial⟩ fun _ => trivial

/-- The quota is checked on the list of the leases and a clock, unless the role has none. -/
def quotaReads (tuning : LeaseTuning) : Nat := if tuning.maxLeases ≤ 0 then 0 else 2

theorem answers_checkMaxLeases {engine role : String} {tuning : LeaseTuning}
    (runs : Answers (checkMaxLeases engine role tuning) (stores, draws) () finish) :
    finish = (stores, fun place => draws (place + quotaReads tuning)) := by
  unfold checkMaxLeases at runs
  unfold quotaReads
  split at runs
  · rename_i unlimited
    obtain ⟨-, rfl⟩ := Fallible.runs_pure.mp runs
    rw [if_pos unlimited]
    rfl
  rename_i limited
  rw [if_neg limited]
  obtain ⟨count, middle, counted, deciding⟩ := runs.bind_ok
  obtain ⟨_, clocking⟩ := Fallible.runs_perform_bind.mp counted
  have counting := answers_now_bind clocking
  obtain ⟨-, rfl⟩ := Fallible.runs_pure.mp counting
  exact (Fallible.runs_pure.mp (answers_else deciding)).2

theorem answers_saveNewLease (runs : Answers (saveNewLease lease) (stores, draws) () finish) :
    0 < lease.ttlSeconds ∧ finish.1.leases.find lease.id = some lease := by
  obtain ⟨ended, middle, saved, rest⟩ := Fallible.runs_outcome_bind.mp runs
  cases ended with
  | ok _ =>
    obtain ⟨-, rfl⟩ := Fallible.runs_pure.mp rest
    exact answers_saveLease saved
  | error err =>
    obtain ⟨_, _, -, failed⟩ := Fallible.runs_outcome_bind.mp rest
    obtain ⟨failed, -⟩ := Fallible.runs_throw.mp failed
    cases failed

end Operations

end LeaseProgram

/-! ### The database engine -/

namespace DatabaseEngine

open LeaseProgram

variable {lib : Library} {engine : DatabaseEngine} {stores : LeaseStores lib}
  {draws : Nat → LeaseDraw} {finish : LeaseStores lib × (Nat → LeaseDraw)} {result : CredsResult}

/-- Statements that succeed leave the leases. -/
theorem answers_runCreation {role : DatabaseRole} {lease : Lease} {statements : List String}
    (runs : Answers (engine.runCreation role lease statements) (stores, draws) () finish) :
    finish.1.leases = stores.leases := by
  obtain ⟨connURL, middle, connected, running⟩ := runs.bind_ok
  have reads : (engine.adminConnectionURL role).run.Issues LeaseOp.LeavesLeases := by
    unfold adminConnectionURL
    split
    · exact trivial
    · refine Fallible.issues_bind ⟨trivial, fun _ => trivial⟩ fun latest => ?_
      exact Fallible.issues_bind trivial fun data => trivial
  rw [← answers_leases connected reads]
  split at running
  · obtain ⟨failed, -⟩ := Fallible.runs_throw.mp running
    cases failed
  obtain ⟨ended, middle', executed, rest⟩ := Fallible.runs_outcome_bind.mp running
  cases ended with
  | ok _ =>
    obtain ⟨-, rfl⟩ := Fallible.runs_pure.mp rest
    exact answers_leases executed ⟨trivial, fun _ => trivial⟩
  | error err =>
    obtain ⟨_, _, -, rest⟩ := Fallible.runs_outcome_bind.mp rest
    obtain ⟨_, _, -, failed⟩ := Fallible.runs_outcome_bind.mp rest
    obtain ⟨failed, -⟩ := Fallible.runs_throw.mp failed
    cases failed

theorem answers_finishIssue {role : DatabaseRole} {lease : Lease} {username password : String}
    {maxTTL : Int}
    (runs : Answers (engine.finishIssue role lease username password maxTTL) (stores, draws) result
      finish) : result.leaseID = lease.id ∧ finish.1.leases = stores.leases := by
  obtain ⟨_, middle, created, ended⟩ := runs.bind_ok
  obtain ⟨same, rfl⟩ := Fallible.runs_pure.mp ended
  obtain rfl := Except.ok.inj same
  refine ⟨rfl, ?_⟩
  split at created
  · exact answers_runCreation created
  · obtain ⟨-, rfl⟩ := Fallible.runs_pure.mp created
    rfl

/-- What a successful issue stores: a lease of the resolved lifetime, from the clock that is
read once the quota is checked. -/
theorem generateCredentials_stores {req : CredsRequest} {texts : IssueDraws}
    (runs : Answers (engine.generateCredentials req texts) (stores, draws) result finish) :
    ∃ role lease, stores.databaseRoles.find req.role = some role ∧
      finish.1.leases.find result.leaseID = some lease ∧
      (LeaseTuning.fromDatabaseRole role).resolveIssueTTL req.ttlSecond = .ok lease.ttlSeconds ∧
      lease.expiresAt = (draws (quotaReads (.fromDatabaseRole role) + 1)).env.now.utc.add
        (seconds lease.ttlSeconds) := by
  unfold generateCredentials at runs
  obtain ⟨role, _, read, checking⟩ := (answers_else runs).bind_ok
  obtain ⟨found, rfl⟩ := answers_getDatabaseRole read
  have normal : role.normalize = role := (Table.valid_of_find found).2
  rw [normal] at checking
  obtain ⟨_, _, checked, resolving⟩ := checking.bind_ok
  obtain rfl := answers_checkMaxLeases checked
  obtain ⟨ttlSeconds, resolved, generating⟩ := answers_lift_bind resolving
  obtain ⟨generated, -, naming⟩ := answers_lift_bind generating
  obtain ⟨username, -, naming⟩ := answers_lift_bind naming
  obtain ⟨password, -, clocking⟩ := answers_lift_bind naming
  have storing := answers_now_bind clocking
  obtain ⟨_, _, -, saving⟩ := storing.bind_ok
  obtain ⟨_, _, saved, finishing⟩ := saving.bind_ok
  obtain ⟨named, same⟩ := answers_finishIssue finishing
  have kept := (answers_saveNewLease saved).2
  rw [← same, ← named] at kept
  refine ⟨role, _, found, kept, mapError_ok_iff.mp resolved, ?_⟩
  dsimp only
  rw [Nat.zero_add]

/-- What a successful renewal stores. -/
theorem renew_stores {leaseID : String} {ttlSeconds : Int}
    (runs : Answers (engine.renew leaseID ttlSeconds) (stores, draws) result finish) :
    ∃ lease role renewed, stores.leases.find leaseID = some lease ∧
      stores.databaseRoles.find lease.roleName = some role ∧
      finish.1.leases.find leaseID = some renewed ∧ 0 < renewed.ttlSeconds ∧
      renewed.ttlSeconds = (LeaseTuning.fromDatabaseRole role).resolveRenewTTL ttlSeconds
        lease.ttlSeconds (draws 1).env.now.utc ∧
      renewed.expiresAt = (draws 1).env.now.utc.add (seconds renewed.ttlSeconds) := by
  obtain ⟨lease, _, read, clocking⟩ := runs.bind_ok
  obtain ⟨found, rfl⟩ := answers_getLease read
  have checking := answers_now_bind clocking
  dsimp only at checking
  replace checking := answers_else (answers_else checking)
  obtain ⟨role, _, read, reading⟩ := checking.bind_ok
  obtain ⟨named, rfl⟩ := answers_getDatabaseRole read
  obtain ⟨latest, _, read, opening⟩ := reading.bind_ok
  obtain rfl := answers_getLatest read
  obtain ⟨data, -, saving⟩ := answers_lift_bind opening
  obtain ⟨_, middle, saved, storing⟩ := saving.bind_ok
  obtain ⟨_, _, stored, ended⟩ := storing.bind_ok
  obtain ⟨-, rfl⟩ := Fallible.runs_pure.mp ended
  obtain ⟨positive, kept⟩ := answers_saveLease saved
  refine ⟨lease, role, _, found, named, ?_, positive, rfl, rfl⟩
  rw [answers_storeSecret stored, ← Table.key_of_find found]
  exact kept

end DatabaseEngine

/-! ### The SSH engine -/

namespace SshEngine

open LeaseProgram

variable {lib : Library} {engine : SshEngine} {stores : LeaseStores lib}
  {draws : Nat → LeaseDraw} {finish : LeaseStores lib × (Nat → LeaseDraw)} {result : CredsResult}

theorem answers_loadCASigner {path key : String}
    (runs : Answers (engine.loadCASigner path) (stores, draws) key finish) :
    finish = (stores, fun place => draws (place + 1)) := by
  obtain ⟨latest, _, read, opening⟩ := runs.bind_ok
  obtain ⟨ended, read, same⟩ := Fallible.runs_adapt.mp read
  obtain rfl := answers_getLatest ((mapError_ok_iff.mp same.symm) ▸ read)
  obtain ⟨data, -, parsing⟩ := answers_lift_bind opening
  extract_lets text keyPEM at parsing
  clear_value keyPEM
  split at parsing
  · obtain ⟨failed, -⟩ := Fallible.runs_throw.mp parsing
    cases failed
  obtain ⟨_, -, ended⟩ := answers_lift_bind parsing
  exact (Fallible.runs_pure.mp ended).2

/-- What a successful issue stores; the key of the authority is read before the clock. -/
theorem generateCredentials_stores {req : CredsRequest} {texts : IssueDraws}
    (runs : Answers (engine.generateCredentials req texts) (stores, draws) result finish) :
    ∃ role lease, stores.sshRoles.find req.role = some role ∧
      finish.1.leases.find result.leaseID = some lease ∧
      (LeaseTuning.fromSSHRole role).resolveIssueTTL req.ttlSecond = .ok lease.ttlSeconds ∧
      lease.expiresAt = (draws (quotaReads (.fromSSHRole role) + 2)).env.now.utc.add
        (seconds lease.ttlSeconds) := by
  unfold generateCredentials at runs
  obtain ⟨role, _, read, checking⟩ := (answers_else runs).bind_ok
  obtain ⟨found, rfl⟩ := answers_getSSHRole read
  have normal : role.normalize = role := (Table.valid_of_find found).2
  rw [normal] at checking
  obtain ⟨_, _, checked, resolving⟩ := checking.bind_ok
  obtain rfl := answers_checkMaxLeases checked
  obtain ⟨username, -, resolving⟩ := answers_lift_bind resolving
  obtain ⟨ttlSeconds, resolved, loading⟩ := answers_lift_bind resolving
  obtain ⟨caKey, _, loaded, generating⟩ := loading.bind_ok
  obtain rfl := answers_loadCASigner loaded
  obtain ⟨privateKey, -, clocking⟩ := answers_lift_bind generating
  have signing := answers_now_bind clocking
  obtain ⟨signedKey, -, naming⟩ := answers_lift_bind signing
  obtain ⟨generated, -, storing⟩ := answers_lift_bind naming
  obtain ⟨_, _, -, saving⟩ := storing.bind_ok
  obtain ⟨_, _, saved, ended⟩ := saving.bind_ok
  obtain ⟨same, rfl⟩ := Fallible.runs_pure.mp ended
  obtain rfl := Except.ok.inj same
  refine ⟨role, _, found, (answers_saveNewLease saved).2, mapError_ok_iff.mp resolved, ?_⟩
  have place : 0 + 1 + quotaReads (.fromSSHRole role) + 1 =
      quotaReads (.fromSSHRole role) + 2 := by omega
  dsimp only
  rw [place]

/-- What a successful renewal stores. -/
theorem renew_stores {leaseID : String} {ttlSeconds : Int}
    (runs : Answers (engine.renew leaseID ttlSeconds) (stores, draws) result finish) :
    ∃ lease role renewed, stores.leases.find leaseID = some lease ∧
      stores.sshRoles.find lease.roleName = some role ∧
      finish.1.leases.find leaseID = some renewed ∧ 0 < renewed.ttlSeconds ∧
      renewed.ttlSeconds = (LeaseTuning.fromSSHRole role).resolveRenewTTL ttlSeconds
        lease.ttlSeconds (draws 1).env.now.utc ∧
      renewed.expiresAt = (draws 1).env.now.utc.add (seconds renewed.ttlSeconds) := by
  obtain ⟨lease, _, read, owning⟩ := runs.bind_ok
  obtain ⟨found, rfl⟩ := answers_getLease read
  have checking := answers_now_bind (answers_else owning)
  dsimp only at checking
  replace checking := answers_else (answers_else checking)
  obtain ⟨role, _, read, reading⟩ := checking.bind_ok
  obtain ⟨named, rfl⟩ := answers_getSSHRole read
  obtain ⟨latest, _, read, opening⟩ := reading.bind_ok
  obtain rfl := answers_getLatest read
  obtain ⟨data, -, parsing⟩ := answers_lift_bind opening
  obtain ⟨_, -, loading⟩ := answers_lift_bind parsing
  obtain ⟨caKey, _, loaded, signing⟩ := loading.bind_ok
  obtain rfl := answers_loadCASigner loaded
  obtain ⟨signedKey, -, saving⟩ := answers_lift_bind signing
  obtain ⟨_, middle, saved, storing⟩ := saving.bind_ok
  obtain ⟨_, _, stored, ended⟩ := storing.bind_ok
  obtain ⟨-, rfl⟩ := Fallible.runs_pure.mp ended
  obtain ⟨positive, kept⟩ := answers_saveLease saved
  refine ⟨lease, role, _, found, named, ?_, positive, rfl, rfl⟩
  rw [answers_storeSecret stored, ← Table.key_of_find found]
  exact kept

end SshEngine

/-! ### Both engines -/

open LeaseProgram in
/-- A lease that an engine has issued or renewed lives for a positive time within the maximum of
its role, and expires just then, if and only if the lifetime it is to have fits into a duration;
one that does not is harmless only where a renewal cuts it. -/
theorem lease_lifetime_iff {lib : Library} (database : DatabaseEngine) (ssh : SshEngine)
    (stores : LeaseStores lib) (draws : Nat → LeaseDraw) :
    (∀ req texts result later,
      (database.generateCredentials req texts).run.fed LeaseOp.exec draws stores =
        (.ok result, later) →
      ∃ role lease, stores.databaseRoles.find req.role = some role ∧
        later.leases.find result.leaseID = some lease ∧
        (LivesFrom (draws (quotaReads (.fromDatabaseRole role) + 1)).env.now.utc
            (LeaseTuning.fromDatabaseRole role).maxTTL lease ↔
          (LeaseTuning.fromDatabaseRole role).issued req.ttlSecond ≤ maxDurationSeconds)) ∧
    (∀ req texts result later,
      (ssh.generateCredentials req texts).run.fed LeaseOp.exec draws stores =
        (.ok result, later) →
      ∃ role lease, stores.sshRoles.find req.role = some role ∧
        later.leases.find result.leaseID = some lease ∧
        (LivesFrom (draws (quotaReads (.fromSSHRole role) + 2)).env.now.utc
            (LeaseTuning.fromSSHRole role).maxTTL lease ↔
          (LeaseTuning.fromSSHRole role).issued req.ttlSecond ≤ maxDurationSeconds)) ∧
    (∀ leaseID ttlSeconds result later,
      (database.renew leaseID ttlSeconds).run.fed LeaseOp.exec draws stores = (.ok result, later) →
      ∃ lease role renewed, stores.leases.find leaseID = some lease ∧
        stores.databaseRoles.find lease.roleName = some role ∧
        later.leases.find leaseID = some renewed ∧
        (LivesFrom (draws 1).env.now.utc (LeaseTuning.fromDatabaseRole role).maxTTL renewed ↔
          (LeaseTuning.fromDatabaseRole role).renewed ttlSeconds lease.ttlSeconds ≤
              maxDurationSeconds ∨
            seconds (LeaseTuning.fromDatabaseRole role).maxTTL <
              seconds ((LeaseTuning.fromDatabaseRole role).renewed ttlSeconds
                lease.ttlSeconds))) ∧
    ∀ leaseID ttlSeconds result later,
      (ssh.renew leaseID ttlSeconds).run.fed LeaseOp.exec draws stores = (.ok result, later) →
      ∃ lease role renewed, stores.leases.find leaseID = some lease ∧
        stores.sshRoles.find lease.roleName = some role ∧
        later.leases.find leaseID = some renewed ∧
        (LivesFrom (draws 1).env.now.utc (LeaseTuning.fromSSHRole role).maxTTL renewed ↔
          (LeaseTuning.fromSSHRole role).renewed ttlSeconds lease.ttlSeconds ≤
              maxDurationSeconds ∨
            seconds (LeaseTuning.fromSSHRole role).maxTTL <
              seconds ((LeaseTuning.fromSSHRole role).renewed ttlSeconds lease.ttlSeconds)) := by
  refine ⟨?_, ?_, ?_, ?_⟩
  · intro req texts result later done
    obtain ⟨rest, runs⟩ := answers_of_fed done
    obtain ⟨role, lease, found, stored, resolved, expires⟩ :=
      DatabaseEngine.generateCredentials_stores runs
    exact ⟨role, lease, found, stored, livesFrom_issued resolved expires⟩
  · intro req texts result later done
    obtain ⟨rest, runs⟩ := answers_of_fed done
    obtain ⟨role, lease, found, stored, resolved, expires⟩ :=
      SshEngine.generateCredentials_stores runs
    exact ⟨role, lease, found, stored, livesFrom_issued resolved expires⟩
  · intro leaseID ttlSeconds result later done
    obtain ⟨rest, runs⟩ := answers_of_fed done
    obtain ⟨lease, role, renewed, found, named, stored, positive, resolved, expires⟩ :=
      DatabaseEngine.renew_stores runs
    exact ⟨lease, role, renewed, found, named, stored,
      livesFrom_renewed (LeaseTuning.maxTTL_withDefaults_pos _ _) positive resolved expires⟩
  · intro leaseID ttlSeconds result later done
    obtain ⟨rest, runs⟩ := answers_of_fed done
    obtain ⟨lease, role, renewed, found, named, stored, positive, resolved, expires⟩ :=
      SshEngine.renew_stores runs
    exact ⟨lease, role, renewed, found, named, stored,
      livesFrom_renewed (LeaseTuning.maxTTL_withDefaults_pos _ _) positive resolved expires⟩

section Samples

open Leases

/-- Asked for more than its role allows, a renewal is cut to 100 seconds from the clock. -/
theorem lease_lifetime_cut :
    ∃ renewed, ((sampleDatabase.renew "l" 500).run.fed LeaseOp.exec (fun _ => drawAt 10)
        leasedStores).2.leases.find "l" = some renewed ∧
      LivesFrom ⟨10 * nanosecondsPerSecond, 0⟩ 100 renewed := by
  have succeeds : ((sampleDatabase.renew "l" 500).run.fed LeaseOp.exec (fun _ => drawAt 10)
      leasedStores).1.isOk = true := by decide +kernel
  generalize done : (sampleDatabase.renew "l" 500).run.fed LeaseOp.exec (fun _ => drawAt 10)
    leasedStores = ended at succeeds ⊢
  obtain ⟨outcome, later⟩ := ended
  obtain ⟨result, rfl⟩ := isOk_iff.mp succeeds
  obtain ⟨lease, role, renewed, found, named, stored, lives⟩ :=
    (lease_lifetime_iff sampleDatabase sampleSsh leasedStores fun _ => drawAt 10).2.2.1 "l" 500
      result later done
  have app : (leasedStores.leases.find "l").map Lease.roleName = some "app" := by decide +kernel
  have tuning : (leasedStores.databaseRoles.find "app").map (fun role =>
      ((LeaseTuning.fromDatabaseRole role).maxTTL, (LeaseTuning.fromDatabaseRole role).period)) =
        some (100, 0) := by decide +kernel
  rw [found, Option.map_some, Option.some.injEq] at app
  rw [app] at named
  rw [named, Option.map_some, Option.some.injEq, Prod.mk.injEq] at tuning
  refine ⟨renewed, stored, ?_⟩
  rw [tuning.1] at lives
  refine lives.mpr (.inl ?_)
  rw [LeaseTuning.renewed, tuning.2, if_neg (by decide), if_pos (by decide)]
  decide

/-- A renewal for so many seconds that their nanoseconds wrap around is stored as it is, far
beyond the maximum of the role, and expires within the same second. -/
theorem lease_lifetime_wraps :
    (((sampleDatabase.renew "l" 18446744074).run.fed LeaseOp.exec (fun _ => drawAt 10)
        leasedStores).2.leases.find "l").map (fun lease => (lease.ttlSeconds, lease.expiresAt)) =
      some (18446744074, ⟨10 * nanosecondsPerSecond + 290448384, 0⟩) ∧
    (leasedStores.databaseRoles.find "app").map
      (fun role => (LeaseTuning.fromDatabaseRole role).maxTTL) = some 100 := by
  decide +kernel

end Samples

end KnxVault.Engine
