import KnxVault.Leases.Service
import KnxVault.Repository.Locality
import KnxVault.Std.Execution

/-!
# Executions of the lease engines

What one call of the database or the SSH engine does to the repositories and to the
managed databases when no other call runs. The clock, the random bits and the replies
of the databases are arbitrary.
-/

namespace KnxVault.Engine

open KnxVault.Std KnxVault.Domain KnxVault.Crypto KnxVault.Repository

/-- The repositories, and the statements that managed databases have executed, with
the connection. -/
@[ext] structure LeaseWorld (lib : Library) where
  stores : LeaseStores lib
  executed : List (String × List String) := []

namespace LeaseWorld

variable {lib : Library}

def withLeases (world : LeaseWorld lib) (leases : LeaseRepository) : LeaseWorld lib :=
  { world with stores := { world.stores with leases } }

def withSecrets (world : LeaseWorld lib) (secrets : SecretRepository) : LeaseWorld lib :=
  { world with stores := { world.stores with secrets } }

end LeaseWorld

/-- What the databases have executed after an operation. -/
def LeaseOp.record (draw : LeaseDraw) (executed : List (String × List String)) :
    LeaseOp → List (String × List String)
  | .execStatements connURL statements =>
    match draw.sql with
    | .ok _ => executed ++ [(connURL, statements)]
    | .error _ => executed
  | _ => executed

def LeaseOp.perform {lib : Library} (draw : LeaseDraw) (op : LeaseOp) (world : LeaseWorld lib) :
    op.Answer × LeaseWorld lib :=
  ((op.exec draw world.stores).1,
    { stores := (op.exec draw world.stores).2
      executed := op.record draw world.executed })

namespace LeaseProgram

variable {lib : Library} {α : Type} {Allowed : LeaseDraw → Prop}

/-- The call with what its operations take from outside in turn. -/
def execute (program : LeaseProgram α) (draws : Nat → LeaseDraw) (world : LeaseWorld lib) :
    Except GoError α × LeaseWorld lib :=
  program.run.fed LeaseOp.perform draws world

variable (Allowed) in
/-- The call may end with the result and leave the world `later`, if what comes from
outside is as `Allowed` says. -/
abbrev Runs (program : LeaseProgram α) (world : LeaseWorld lib) (result : Except GoError α)
    (later : LeaseWorld lib) : Prop :=
  Fallible.Runs (fun draw : { draw // Allowed draw } => LeaseOp.perform draw.1) program world
    result later

theorem runs_execute (program : LeaseProgram α) {draws : Nat → LeaseDraw}
    (allowed : ∀ place, Allowed (draws place)) (world : LeaseWorld lib) :
    Runs Allowed program world (program.execute draws world).1 (program.execute draws world).2 :=
  Program.runs_fed program.run allowed world

variable {world later : LeaseWorld lib}

/-! ### Single operations -/

section Operations

theorem runs_now_bind {rest : Time → LeaseProgram α} {result : Except GoError α}
    (runs : Runs Allowed (now >>= rest) world result later) :
    ∃ draw, Allowed draw ∧ Runs Allowed (rest draw.env.now) world result later := by
  obtain ⟨⟨draw, allowed⟩, going⟩ := Fallible.runs_perform_bind.mp runs
  exact ⟨draw, allowed, going⟩

/-- There is no such lease, or the rest goes on with it. -/
theorem runs_getLease_bind {id : String} {rest : Lease → LeaseProgram α}
    {result : Except GoError α} (runs : Runs Allowed (getLease id >>= rest) world result later) :
    (world.stores.leases.find id = none ∧ (∃ err, result = .error err) ∧ later = world) ∨
    ∃ lease, world.stores.leases.find id = some lease ∧
      Runs Allowed (rest lease) world result later := by
  have reads : ∀ {result : Except GoError Lease} {later : LeaseWorld lib},
      Runs Allowed (getLease id) world result later →
        result = (world.stores.leases.get id).mapError KNXVaultError.asGoError ∧ later = world := by
    intro result later runs
    obtain ⟨⟨draw, allowed⟩, rfl, rfl⟩ := Program.runs_perform.mp runs
    exact ⟨rfl, rfl⟩
  obtain ⟨err, missing, failed, same⟩ | ⟨lease, read, going⟩ := runs.bind_reading reads
  · refine .inl ⟨Option.eq_none_iff_forall_ne_some.mpr fun lease found => ?_, ⟨err, failed⟩, same⟩
    rw [LeaseRepository.get, getRow_ok_iff.mpr found] at missing
    cases missing
  · exact .inr ⟨lease, getRow_ok_iff.mp (mapError_ok_iff.mp read.symm), going⟩

theorem runs_saveLease {lease : Lease} {result : Except GoError Unit}
    (runs : Runs Allowed (saveLease lease) world result later) :
    (lease.validate ≠ .ok () ∧ (∃ err, result = .error err) ∧ later = world) ∨
    ∃ leases, world.stores.leases.save lease = .ok leases ∧ result = .ok () ∧
      later = world.withLeases leases := by
  obtain ⟨⟨draw, allowed⟩, rfl, rfl⟩ := Program.runs_perform.mp runs
  cases saved : world.stores.leases.save lease with
  | error err =>
    refine .inl ⟨fun valid => ?_, ?_⟩
    · cases saved.symm.trans (saveRow_ok_iff.mpr ⟨valid, rfl⟩)
    · simp only [LeaseOp.perform, LeaseOp.exec, saved]
      exact ⟨⟨_, rfl⟩, rfl⟩
  | ok leases =>
    refine .inr ⟨leases, rfl, ?_⟩
    simp only [LeaseOp.perform, LeaseOp.exec, saved]
    exact ⟨rfl, rfl⟩

theorem runs_markRevoked {id : String} {revokedAt : Time} {result : Except GoError Unit}
    (runs : Runs Allowed (markRevoked id revokedAt) world result later) :
    (world.stores.leases.find id = none ∧ (∃ err, result = .error err) ∧ later = world) ∨
    ∃ leases, world.stores.leases.revoke id revokedAt = .ok leases ∧ result = .ok () ∧
      later = world.withLeases leases := by
  obtain ⟨⟨draw, allowed⟩, rfl, rfl⟩ := Program.runs_perform.mp runs
  cases revoked : world.stores.leases.revoke id revokedAt with
  | error err =>
    refine .inl ⟨?_, ?_⟩
    · by_contra present
      obtain ⟨lease, found⟩ := Option.ne_none_iff_exists'.mp present
      have done : world.stores.leases.revoke id revokedAt = .ok _ := changeRow_of_find found
      rw [revoked] at done
      cases done
    · simp only [LeaseOp.perform, LeaseOp.exec, revoked]
      exact ⟨⟨_, rfl⟩, rfl⟩
  | ok leases =>
    refine .inr ⟨leases, rfl, ?_⟩
    simp only [LeaseOp.perform, LeaseOp.exec, revoked]
    exact ⟨rfl, rfl⟩

theorem runs_getDatabaseRole {name : String} {result : Except GoError DatabaseRole}
    (runs : Runs Allowed (getDatabaseRole name) world result later) :
    result = (world.stores.databaseRoles.get name).mapError KNXVaultError.asGoError ∧
      later = world := by
  obtain ⟨⟨draw, allowed⟩, rfl, rfl⟩ := Program.runs_perform.mp runs
  exact ⟨rfl, rfl⟩

theorem runs_getSSHRole {name : String} {result : Except GoError SSHRole}
    (runs : Runs Allowed (getSSHRole name) world result later) :
    result = (world.stores.sshRoles.get name).mapError KNXVaultError.asGoError ∧
      later = world := by
  obtain ⟨⟨draw, allowed⟩, rfl, rfl⟩ := Program.runs_perform.mp runs
  exact ⟨rfl, rfl⟩

/-- The newest version of a path, read in whatever order. -/
theorem runs_getLatest {path : String} {result : Except GoError SecretVersion}
    (runs : Runs Allowed (getLatest path) world result later) :
    result = (world.stores.secrets.getLatest .sorted path).mapError KNXVaultError.asGoError ∧
      later = world := by
  obtain ⟨⟨draw, allowed⟩, rfl, rfl⟩ := Program.runs_perform.mp runs
  refine ⟨?_, rfl⟩
  simp only [LeaseOp.perform, LeaseOp.exec]
  rw [world.stores.secrets.getLatest_range draw.env.range .sorted]

theorem runs_putAtomic {write : SecretWrite} {result : Except GoError Int}
    (runs : Runs Allowed (putAtomic write) world result later) :
    (∃ err, result = .error err ∧ later = world) ∨
    ∃ secrets version, world.stores.secrets.putAtomic .sorted write.secret write.casVersion
        write.maxVersions = .ok (secrets, version) ∧ result = .ok version ∧
      later = world.withSecrets secrets := by
  obtain ⟨⟨draw, allowed⟩, rfl, rfl⟩ := Program.runs_perform.mp runs
  have order := world.stores.secrets.putAtomic_range draw.env.range .sorted write.secret
    write.casVersion write.maxVersions
  simp only [LeaseOp.perform, LeaseOp.exec, order]
  cases world.stores.secrets.putAtomic .sorted write.secret write.casVersion
      write.maxVersions with
  | error err => exact .inl ⟨_, rfl, rfl⟩
  | ok result =>
    obtain ⟨secrets, version⟩ := result
    exact .inr ⟨secrets, version, rfl, rfl, rfl⟩

theorem runs_destroyVersion {path : String} {version : Int} {result : Except GoError Unit}
    (runs : Runs Allowed (destroyVersion path version) world result later) :
    (∃ err, world.stores.secrets.destroyVersion path version = .error err ∧
      result = .error err.asGoError ∧ later = world) ∨
    ∃ secrets, world.stores.secrets.destroyVersion path version = .ok secrets ∧ result = .ok () ∧
      later = world.withSecrets secrets := by
  obtain ⟨⟨draw, allowed⟩, rfl, rfl⟩ := Program.runs_perform.mp runs
  simp only [LeaseOp.perform, LeaseOp.exec]
  cases world.stores.secrets.destroyVersion path version with
  | error err => exact .inl ⟨err, rfl, rfl, rfl⟩
  | ok secrets => exact .inr ⟨secrets, rfl, rfl, rfl⟩

theorem runs_execStatements {connURL : String} {statements : List String}
    {result : Except GoError Unit}
    (runs : Runs Allowed (execStatements connURL statements) world result later) :
    later.stores = world.stores ∧
      ((∃ err draw, result = .error err ∧ Allowed draw ∧ draw.sql = .error err ∧
          later.executed = world.executed) ∨
        (result = .ok () ∧ later.executed = world.executed ++ [(connURL, statements)])) := by
  obtain ⟨⟨draw, allowed⟩, rfl, rfl⟩ := Program.runs_perform.mp runs
  refine ⟨rfl, ?_⟩
  simp only [LeaseOp.perform, LeaseOp.exec, LeaseOp.record]
  cases reply : draw.sql with
  | error err => exact .inl ⟨err, draw, rfl, allowed, reply, rfl⟩
  | ok _ => exact .inr ⟨rfl, rfl⟩

theorem runs_lift {value result : Except GoError α}
    (runs : Runs Allowed (lift value) world result later) :
    result = value ∧ later = world :=
  Program.runs_done.mp runs

/-- A reading with its error wrapped. -/
theorem runs_wrapping {code : ErrorCode} {message : String} {program : LeaseProgram α}
    {value result : Except GoError α}
    (reads : ∀ {result later}, Runs Allowed program world result later →
      result = value ∧ later = world)
    (runs : Runs Allowed (wrapping code message program) world result later) :
    result = value.mapError (fun err => wrapCause code message err.text) ∧ later = world := by
  obtain ⟨ended, read, rfl⟩ := Fallible.runs_adapt.mp runs
  obtain ⟨rfl, rfl⟩ := reads read
  exact ⟨rfl, rfl⟩

theorem runs_fail {code : ErrorCode} {message : String} {result : Except GoError α}
    (runs : Runs Allowed (fail code message : LeaseProgram α) world result later) :
    (∃ err, result = .error err) ∧ later = world := by
  obtain ⟨rfl, rfl⟩ := Fallible.runs_throw.mp runs
  exact ⟨⟨_, rfl⟩, rfl⟩

end Operations

/-! ### Stored credentials -/

section Credentials

/-- The secrets once the newest live version of a path is destroyed. -/
def destroyLatest (secrets : SecretRepository) (path : String) : SecretRepository :=
  match secrets.getLatest .sorted path with
  | .error _ => secrets
  | .ok latest => (secrets.destroyVersion path latest.version).toOption.getD secrets

theorem destroyLatest_cases (secrets : SecretRepository) (path : String) :
    (destroyLatest secrets path = secrets ∧ (∃ err, secrets.getLatest .sorted path = .error err) ∧
      ∀ secret, ¬ secrets.Live path secret) ∨
    ∃ latest, secrets.getLatest .sorted path = .ok latest ∧ latest.destroyed = false ∧
      secrets.destroyVersion path latest.version = .ok (destroyLatest secrets path) := by
  unfold destroyLatest
  cases read : secrets.getLatest .sorted path with
  | error err =>
    refine .inl ⟨rfl, ⟨err, rfl⟩, fun secret live => ?_⟩
    unfold SecretRepository.getLatest at read
    split at read
    · cases read
    · rename_i none_latest
      have empty := (SecretRepository.foldl_newer_eq_none.mp none_latest).1
      have listed := (List.mem_filter (p := fun secret : SecretVersion =>
        secret.path = path && !secret.destroyed)).mpr
        ⟨(@Table.mem_visit _ _ _ _ _ _ _ _ MapRange.sorted _).mpr live.1, by
          simp [live.2.1, live.2.2]⟩
      rw [empty] at listed
      cases listed
  | ok latest =>
    obtain ⟨⟨stored, onPath, live⟩, -⟩ := SecretRepository.getLatest_ok_iff.mp read
    refine .inr ⟨latest, rfl, live, ?_⟩
    obtain ⟨found, -⟩ | ⟨row, found, destroyed, -⟩ | ⟨row, valid, -, -, done⟩ :=
      secrets.destroyVersion_cases path latest.version
    · rw [← onPath] at found
      rw [secretKey, found] at stored
      cases stored
    · rw [← onPath] at found
      rw [secretKey, found] at stored
      cases stored
      rw [live] at destroyed
      cases destroyed
    · dsimp only
      rw [done]
      rfl

theorem destroyLatest_elsewhere (secrets : SecretRepository) {path elsewhere : String}
    (apart : elsewhere ≠ path) : (destroyLatest secrets path).SameAt secrets elsewhere := by
  obtain ⟨same, -⟩ | ⟨latest, -, -, destroyed⟩ := destroyLatest_cases secrets path
  · rw [same]
    exact fun _ => rfl
  · exact SecretRepository.find_destroyVersion_elsewhere destroyed apart

theorem destroySecret_runs {path : String} {result : Except GoError Unit}
    (runs : Runs Allowed (destroySecret path) world result later) :
    result = .ok () ∧
      later = world.withSecrets (destroyLatest world.stores.secrets path) := by
  obtain ⟨ended, middle, read, rest⟩ := Fallible.runs_outcome_bind.mp runs
  obtain ⟨rfl, rfl⟩ := runs_getLatest read
  obtain ⟨same, ⟨err, failed⟩, -⟩ | ⟨latest, found, live, destroyed⟩ :=
    destroyLatest_cases middle.stores.secrets path
  · rw [failed] at rest
    obtain ⟨rfl, rfl⟩ := Fallible.runs_pure.mp rest
    rw [same]
    exact ⟨rfl, rfl⟩
  · rw [found] at rest
    simp only [Except.mapError, live, Bool.false_eq_true, if_false] at rest
    obtain ⟨err, failed, -⟩ | ⟨secrets, done, rfl, rfl⟩ := runs_destroyVersion rest
    · rw [destroyed] at failed
      cases failed
    · rw [destroyed] at done
      cases done
      exact ⟨rfl, rfl⟩

/-- A new version of the credentials at a path. -/
inductive Stored (secrets : SecretRepository) (path : String) : SecretRepository → Prop
  | put {secret : SecretVersion} {later : SecretRepository} {version : Int}
      (onPath : secret.path = path) (live : secret.destroyed = false)
      (put : secrets.putAtomic .sorted secret none 0 = .ok (later, version)) :
      Stored secrets path later

theorem Stored.elsewhere {secrets later : SecretRepository} {path elsewhere : String}
    (stored : Stored secrets path later) (apart : elsewhere ≠ path) :
    later.SameAt secrets elsewhere := by
  obtain ⟨onPath, -, put⟩ := stored
  rw [← onPath] at apart
  exact SecretRepository.find_putAtomic_elsewhere put apart

theorem storeSecret_runs {library : Library} {crypto : LeaseCrypto} {path leaseID : String}
    {ttlSeconds : Int} {expiresAt : Time} {data : Fields} {result : Except GoError Unit}
    (runs : Runs Allowed (crypto.storeSecret library path leaseID ttlSeconds expiresAt data) world
      result later) :
    ((∃ err, result = .error err) ∧ later = world) ∨
    ∃ secrets, Stored world.stores.secrets path secrets ∧ result = .ok () ∧
      later = world.withSecrets secrets := by
  unfold LeaseCrypto.storeSecret at runs
  obtain ⟨draw, sealedWrite⟩ := Fallible.runs_perform_bind.mp runs
  change Runs Allowed (lift _ >>= _) world result later at sealedWrite
  obtain ⟨err, -, failed, same⟩ | ⟨write, made, stores⟩ := sealedWrite.bind_reading runs_lift
  · exact .inl ⟨⟨err, failed⟩, same⟩
  obtain ⟨onPath, live, cas, unlimited⟩ := storeCredentials_ok made.symm
  obtain ⟨err, rfl, failed⟩ | ⟨version, _, stored, ended⟩ := Fallible.runs_bind.mp stores
  · obtain ⟨_, -, rfl⟩ | ⟨_, _, _, failed, -⟩ := runs_putAtomic failed
    · exact .inl ⟨⟨err, rfl⟩, rfl⟩
    · cases failed
  obtain ⟨rfl, rfl⟩ := Fallible.runs_pure.mp ended
  obtain ⟨_, failed, -⟩ | ⟨secrets, _, put, -, rfl⟩ := runs_putAtomic stored
  · cases failed
  · rw [cas, unlimited] at put
    exact .inr ⟨secrets, .put onPath live put, rfl, rfl⟩

end Credentials

/-! ### Background jobs -/

section Jobs

variable {Inv : LeaseWorld lib → Prop}

/-- What every single renewal keeps, the job keeps. -/
theorem renewEach_runs {renew : Lease → LeaseProgram α} {skips : Lease → Bool} {limit : Int}
    {leases : List Lease}
    (kept : ∀ lease ∈ leases, skips lease = false → ∀ {world later result}, Inv world →
      Runs Allowed (renew lease) world result later → Inv later)
    {renewed : List String} {result : Except GoError (List String)}
    (runs : Runs Allowed (renewEach renew skips limit renewed leases) world result later)
    (holds : Inv world) : Inv later := by
  induction leases generalizing renewed world with
  | nil =>
    obtain ⟨-, rfl⟩ := Fallible.runs_pure.mp runs
    exact holds
  | cons lease leases ih =>
    have rest := fun {renewed : List String} {world : LeaseWorld lib} => @ih world
      (fun other listed => kept other (List.mem_cons_of_mem _ listed)) renewed
    unfold renewEach at runs
    split at runs
    · obtain ⟨-, rfl⟩ := Fallible.runs_pure.mp runs
      exact holds
    split at runs
    · exact rest runs holds
    rename_i visited
    obtain ⟨ended, middle, renewing, going⟩ := Fallible.runs_outcome_bind.mp runs
    have still := kept lease List.mem_cons_self (by simpa using visited) holds renewing
    cases ended with
    | error err => exact rest going still
    | ok value => exact rest going still

/-- What every single revocation keeps, the job keeps. -/
theorem revokeEach_runs {Item : Type} {idOf : Item → String} {revoke : Item → LeaseProgram α}
    {skips : Item → Bool} {items : List Item}
    (kept : ∀ item ∈ items, skips item = false → ∀ {world later result}, Inv world →
      Runs Allowed (revoke item) world result later → Inv later)
    {done : List String × Option GoError} {result : Except GoError (List String × Option GoError)}
    (runs : Runs Allowed (revokeEach idOf revoke skips done items) world result later)
    (holds : Inv world) : Inv later := by
  induction items generalizing done world with
  | nil =>
    obtain ⟨-, rfl⟩ := Fallible.runs_pure.mp runs
    exact holds
  | cons item items ih =>
    have rest := fun {done : List String × Option GoError} {world : LeaseWorld lib} => @ih world
      (fun other listed => kept other (List.mem_cons_of_mem _ listed)) done
    unfold revokeEach at runs
    split at runs
    · exact rest runs holds
    rename_i visited
    obtain ⟨ended, middle, revoking, going⟩ := Fallible.runs_outcome_bind.mp runs
    have still := kept item List.mem_cons_self (by simpa using visited) holds revoking
    cases ended with
    | error err => exact rest going still
    | ok value => exact rest going still

/-- What the revocation of one item brings about, and every other keeps, holds after the
job. -/
theorem revokeEach_reaches {Item : Type} {idOf : Item → String} {revoke : Item → LeaseProgram α}
    {skips : Item → Bool} {Fact : LeaseWorld lib → Prop} {items : List Item}
    (kept : ∀ item ∈ items, skips item = false → ∀ {world later result}, Inv world →
      Runs Allowed (revoke item) world result later → Inv later)
    (stays : ∀ item ∈ items, skips item = false → ∀ {world later result}, Fact world →
      Runs Allowed (revoke item) world result later → Fact later)
    {item : Item} (listed : item ∈ items) (visited : skips item = false)
    (reached : ∀ {world later result}, Inv world → Runs Allowed (revoke item) world result later →
      Fact later)
    {done : List String × Option GoError} {result : Except GoError (List String × Option GoError)}
    (runs : Runs Allowed (revokeEach idOf revoke skips done items) world result later)
    (holds : Inv world) : Fact later := by
  induction items generalizing done world with
  | nil => cases listed
  | cons first items ih =>
    have others : ∀ other ∈ items, other ∈ first :: items := fun _ => List.mem_cons_of_mem _
    have rest := fun {done : List String × Option GoError} {world : LeaseWorld lib} inside => @ih
      world (fun other inside => kept other (others other inside))
      (fun other inside => stays other (others other inside)) inside done
    unfold revokeEach at runs
    split at runs
    · rename_i skipped
      obtain rfl | inside := List.mem_cons.mp listed
      · rw [visited] at skipped
        cases skipped
      · exact rest inside runs holds
    rename_i firstVisited
    have firstVisited : skips first = false := by simpa using firstVisited
    obtain ⟨ended, middle, revoking, going⟩ := Fallible.runs_outcome_bind.mp runs
    have still := kept first List.mem_cons_self firstVisited holds revoking
    obtain rfl | inside := List.mem_cons.mp listed
    · have fact := reached holds revoking
      have staying := fun other inside => stays other (others other inside)
      cases ended with
      | error err => exact revokeEach_runs staying going fact
      | ok value => exact revokeEach_runs staying going fact
    · cases ended with
      | error err => exact rest inside going still
      | ok value => exact rest inside going still

theorem revokeEach_ok {Item : Type} {idOf : Item → String} {revoke : Item → LeaseProgram α}
    {skips : Item → Bool} {items : List Item} {done : List String × Option GoError}
    {result : Except GoError (List String × Option GoError)}
    (runs : Runs Allowed (revokeEach idOf revoke skips done items) world result later) :
    ∃ ended, result = .ok ended := by
  induction items generalizing done world with
  | nil => exact ⟨done, (Fallible.runs_pure.mp runs).1⟩
  | cons item items ih =>
    unfold revokeEach at runs
    split at runs
    · exact ih runs
    obtain ⟨ended, middle, -, going⟩ := Fallible.runs_outcome_bind.mp runs
    cases ended with
    | error err => exact ih going
    | ok value => exact ih going

/-- What a successful revocation brings about, and every other keeps, holds for all that
the job names. -/
theorem revokeEach_named {Item : Type} {idOf : Item → String} {revoke : Item → LeaseProgram α}
    {skips : Item → Bool} {Fact : String → LeaseWorld lib → Prop} {items : List Item}
    (reached : ∀ item ∈ items, ∀ {world later value},
      Runs Allowed (revoke item) world (.ok value) later → Fact (idOf item) later)
    (stays : ∀ id, ∀ item ∈ items, ∀ {world later result}, Fact id world →
      Runs Allowed (revoke item) world result later → Fact id later)
    {done ended : List String × Option GoError}
    (runs : Runs Allowed (revokeEach idOf revoke skips done items) world (.ok ended) later)
    (before : ∀ id ∈ done.1, Fact id world) : ∀ id ∈ ended.1, Fact id later := by
  induction items generalizing done world with
  | nil =>
    obtain ⟨same, rfl⟩ := Fallible.runs_pure.mp runs
    cases same
    exact before
  | cons item items ih =>
    have rest := fun {done : List String × Option GoError} {world : LeaseWorld lib} => @ih world
      (fun other inside => reached other (List.mem_cons_of_mem _ inside))
      (fun id other inside => stays id other (List.mem_cons_of_mem _ inside)) done
    unfold revokeEach at runs
    split at runs
    · exact rest runs before
    obtain ⟨result, middle, revoking, going⟩ := Fallible.runs_outcome_bind.mp runs
    have kept : ∀ id ∈ done.1, Fact id middle :=
      fun id inside => stays id item List.mem_cons_self (before id inside) revoking
    cases result with
    | error err => exact rest going kept
    | ok value =>
      refine rest going fun id inside => ?_
      obtain inside | same := List.mem_append.mp inside
      · exact kept id inside
      · rw [List.mem_singleton.mp same]
        exact reached item List.mem_cons_self revoking

/-- The leases that a renewal job visits are those that were stored when it began. -/
theorem renewJob_runs {renew : Lease → LeaseProgram α} {skips : Time → Lease → Bool} {limit : Int}
    (kept : ∀ lease now, world.stores.leases.find lease.id = some lease → skips now lease = false →
      ∀ {world later result}, Inv world → Runs Allowed (renew lease) world result later →
        Inv later)
    {result : Except GoError (List String)}
    (runs : Runs Allowed (do
      let now := (← now).utc
      let leases ← listLeases
      renewEach renew (skips now) limit [] leases) world result later)
    (holds : Inv world) : Inv later := by
  obtain ⟨draw, -, listing⟩ := runs_now_bind runs
  obtain ⟨draw, renewing⟩ := Fallible.runs_perform_bind.mp listing
  change Runs Allowed (renewEach renew _ limit [] (world.stores.leases.list draw.1.env.range))
    world result later at renewing
  exact renewEach_runs (fun lease listed visited => kept lease _ (mem_listBy.mp listed) visited)
    renewing holds

/-- The leases that a cleanup job visits were stored when it began, and not revoked. -/
theorem cleanupJob_runs {revoke : Lease → LeaseProgram α} {skips : Lease → Bool} {limit : Int}
    (kept : ∀ lease, world.stores.leases.find lease.id = some lease → lease.revokedAt = none →
      skips lease = false → ∀ {world later result}, Inv world →
        Runs Allowed (revoke lease) world result later → Inv later)
    {result : Except GoError (List String × Option GoError)}
    (runs : Runs Allowed (do
      let now := (← now).utc
      let expired ← listExpired now limit
      revokeEach Lease.id revoke skips ([], none) expired) world result later)
    (holds : Inv world) : Inv later := by
  obtain ⟨draw, -, listing⟩ := runs_now_bind runs
  obtain ⟨draw, revoking⟩ := Fallible.runs_perform_bind.mp listing
  change Runs Allowed (revokeEach Lease.id revoke skips ([], none)
    (world.stores.leases.listExpired draw.1.env.range _ limit))
    world result later at revoking
  refine revokeEach_runs (fun lease listed visited => ?_) revoking holds
  have stored := List.mem_filter.mp (mem_sortBy.mp (List.mem_of_mem_take listed))
  intro world later result
  exact kept lease (Table.mem_visit.mp stored.1) (by
    simpa using (Bool.and_eq_true_iff.mp stored.2).1) visited

end Jobs

end LeaseProgram

/-- A renewal of a lease: its times are saved, and if it succeeds its credentials are
stored once more. -/
inductive Renewal {lib : Library} {α : Type} (world : LeaseWorld lib) (lease : Lease) :
    Except GoError α → LeaseWorld lib → Prop
  | saved {ttlSeconds : Int} {expiresAt : Time} {leases : LeaseRepository} {err : GoError}
      (save : world.stores.leases.save { lease with ttlSeconds, expiresAt } = .ok leases) :
      Renewal world lease (.error err) (world.withLeases leases)
  | stored {ttlSeconds : Int} {expiresAt : Time} {leases : LeaseRepository}
      {secrets : SecretRepository} {value : α}
      (save : world.stores.leases.save { lease with ttlSeconds, expiresAt } = .ok leases)
      (store : LeaseProgram.Stored world.stores.secrets lease.path secrets) :
      Renewal world lease (.ok value) ((world.withLeases leases).withSecrets secrets)

/-- The last steps of a renewal: the new times are refused, or the lease has them. -/
theorem Renewal.of_runs {lib library : Library} {α : Type} {Allowed : LeaseDraw → Prop}
    {crypto : LeaseCrypto} {world later : LeaseWorld lib} {lease : Lease} {leaseID : String}
    {ttlSeconds : Int} {expiresAt : Time} {data : Fields} {value : α} {result : Except GoError α}
    (runs : LeaseProgram.Runs Allowed (do
      LeaseProgram.saveLease { lease with ttlSeconds, expiresAt }
      crypto.storeSecret library lease.path leaseID ttlSeconds expiresAt data
      pure value) world result later) :
    (later = world ∧ (∃ err, result = .error err) ∧
      ({ lease with ttlSeconds, expiresAt }).validate ≠ .ok ()) ∨
    ({ lease with ttlSeconds, expiresAt }).validate = .ok () ∧ Renewal world lease result later ∧
      later.stores.leases.find lease.id = some { lease with ttlSeconds, expiresAt } := by
  obtain ⟨err, rfl, failed⟩ | ⟨_, middle, saved, storing⟩ := Fallible.runs_bind.mp runs
  · obtain ⟨invalid, -, rfl⟩ | ⟨_, _, failed, -⟩ := LeaseProgram.runs_saveLease failed
    · exact .inl ⟨rfl, ⟨err, rfl⟩, invalid⟩
    · cases failed
  obtain ⟨_, ⟨_, failed⟩, -⟩ | ⟨leases, save, -, rfl⟩ := LeaseProgram.runs_saveLease saved
  · cases failed
  obtain ⟨valid, rfl⟩ := saveRow_ok_iff.mp save
  have kept := world.stores.leases.find_put_self { lease with ttlSeconds, expiresAt } valid
  obtain ⟨err, rfl, failed⟩ | ⟨_, middle, stored, ended⟩ := Fallible.runs_bind.mp storing
  · obtain ⟨-, rfl⟩ | ⟨_, _, failed, -⟩ := LeaseProgram.storeSecret_runs failed
    · exact .inr ⟨valid, .saved save, kept⟩
    · cases failed
  obtain ⟨rfl, rfl⟩ := Fallible.runs_pure.mp ended
  obtain ⟨⟨_, failed⟩, -⟩ | ⟨secrets, store, -, rfl⟩ := LeaseProgram.storeSecret_runs stored
  · cases failed
  · exact .inr ⟨valid, .stored save store, kept⟩

/-! ### The database engine -/

namespace DatabaseEngine

open LeaseProgram Database

variable {lib : Library} {Allowed : LeaseDraw → Prop} {engine : DatabaseEngine}
  {world later : LeaseWorld lib}

/-- The user and password that are stored at a path, blank if they cannot be read. -/
def credentialsIn (engine : DatabaseEngine) (secrets : SecretRepository) (path : String) :
    String × String :=
  match secrets.getLatest .sorted path with
  | .error _ => ("", "")
  | .ok latest =>
    match engine.crypto.openFields "decrypt credentials" "unmarshal credentials" latest with
    | .error _ => ("", "")
    | .ok data => ((textField data "username").getD "", (textField data "password").getD "")

theorem storedCredentials_runs {path : String} {result : Except GoError (String × String)}
    (runs : Runs Allowed (engine.storedCredentials path) world result later) :
    result = .ok (engine.credentialsIn world.stores.secrets path) ∧ later = world := by
  obtain ⟨ended, middle, read, rest⟩ := Fallible.runs_outcome_bind.mp runs
  obtain ⟨rfl, rfl⟩ := runs_getLatest read
  unfold credentialsIn
  cases found : middle.stores.secrets.getLatest .sorted path with
  | error err =>
    rw [found] at rest
    exact Fallible.runs_pure.mp rest
  | ok latest =>
    rw [found] at rest
    simp only [Except.mapError] at rest
    dsimp only
    cases opened : engine.crypto.openFields
      "decrypt credentials" "unmarshal credentials" latest with
    | error err =>
      rw [opened] at rest
      exact Fallible.runs_pure.mp rest
    | ok data =>
      rw [opened] at rest
      exact Fallible.runs_pure.mp rest

/-- The connection of the administrator of a role, as the stored secrets have it. -/
def adminURLIn (engine : DatabaseEngine) (secrets : SecretRepository) (role : DatabaseRole) :
    Except GoError String := do
  if role.adminCredentialsPath = "" then
    refuse .validation "admin_credentials_path is required for managed mode"
  else
    let latest ← ((secrets.getLatest .sorted role.adminCredentialsPath).mapError
      KNXVaultError.asGoError).mapError fun err =>
        wrapCause .validation "read admin credentials from kv" err.text
    let data ← engine.crypto.openFields "decrypt admin credentials" "unmarshal admin credentials"
      latest
    (buildConnectionURL engine.formats data role.config).mapError
      (wrapCause .validation "admin credentials")

theorem adminConnectionURL_runs {role : DatabaseRole} {result : Except GoError String}
    (runs : Runs Allowed (engine.adminConnectionURL role) world result later) :
    result = engine.adminURLIn world.stores.secrets role ∧ later = world := by
  unfold adminConnectionURL at runs
  unfold adminURLIn
  split at runs
  · rename_i blank
    rw [if_pos blank]
    exact Fallible.runs_throw.mp runs
  rename_i named
  rw [if_neg named]
  obtain ⟨err, wrapped, rfl, rfl⟩ | ⟨latest, wrapped, opening⟩ :=
    runs.bind_reading (runs_wrapping runs_getLatest)
  · rw [← wrapped]
    exact ⟨rfl, rfl⟩
  rw [← wrapped]
  obtain ⟨err, cause, rfl, rfl⟩ | ⟨data, fields, building⟩ := opening.bind_reading runs_lift
  · dsimp only [bind, Except.bind]
    rw [← cause]
    exact ⟨rfl, rfl⟩
  obtain ⟨rfl, rfl⟩ := runs_lift building
  dsimp only [bind, Except.bind]
  rw [← fields]
  exact ⟨rfl, rfl⟩

/-- Either there is nothing to execute, or it fails, or the statements are executed. -/
theorem runRevocation_runs {role : DatabaseRole} {statements : List String}
    {result : Except GoError Unit}
    (runs : Runs Allowed (engine.runRevocation role statements) world result later) :
    later.stores = world.stores ∧
    ((statements = [] ∧ result = .ok () ∧ later.executed = world.executed) ∨
    (statements ≠ [] ∧ (∃ err, result = .error err) ∧ later.executed = world.executed ∧
      ((∃ err, engine.adminURLIn world.stores.secrets role = .error err) ∨
        engine.hasRunner = false ∨ ∃ draw err, Allowed draw ∧ draw.sql = .error err)) ∨
    (statements ≠ [] ∧ result = .ok () ∧ ∃ connURL, engine.adminURLIn world.stores.secrets role =
      .ok connURL ∧ later.executed = world.executed ++ [(connURL, statements)])) := by
  unfold runRevocation at runs
  split at runs
  · rename_i empty
    obtain ⟨rfl, rfl⟩ := Fallible.runs_pure.mp runs
    exact ⟨rfl, .inl ⟨empty, rfl, rfl⟩⟩
  rename_i nonempty
  obtain ⟨err, wrapped, rfl, rfl⟩ | ⟨connURL, wrapped, executing⟩ :=
    runs.bind_reading (runs_wrapping adminConnectionURL_runs)
  · refine ⟨rfl, .inr (.inl ⟨nonempty, ⟨err, rfl⟩, rfl, .inl ?_⟩)⟩
    cases unread : engine.adminURLIn later.stores.secrets role with
    | error err => exact ⟨err, rfl⟩
    | ok connURL =>
      rw [unread] at wrapped
      cases wrapped
  have readURL := mapError_ok_iff.mp wrapped.symm
  split at executing
  · rename_i noRunner
    obtain ⟨failed, rfl⟩ := runs_fail executing
    exact ⟨rfl, .inr (.inl ⟨nonempty, failed, rfl, .inr (.inl (by simpa using noRunner))⟩)⟩
  obtain ⟨ended, executed, rfl⟩ := Fallible.runs_adapt.mp executing
  obtain ⟨stores, ⟨err, draw, rfl, allowed, reply, log⟩ | ⟨rfl, log⟩⟩ :=
    runs_execStatements executed
  · exact ⟨stores, .inr (.inl ⟨nonempty, ⟨_, rfl⟩, log, .inr (.inr ⟨draw, err, allowed, reply⟩)⟩)⟩
  · exact ⟨stores, .inr (.inr ⟨nonempty, rfl, connURL, readURL, log⟩)⟩

/-- The managed role of a lease. -/
def managedRole (stores : LeaseStores lib) (lease : Lease) : Option DatabaseRole :=
  (stores.databaseRoles.get lease.roleName).toOption.filter fun role =>
    role.executionMode = executionModeManaged

/-- The statements that take back the credentials of a lease. -/
def statementsIn (engine : DatabaseEngine) (stores : LeaseStores lib) (lease : Lease)
    (now : Time) : List String :=
  match stores.databaseRoles.get lease.roleName with
  | .ok role =>
    if (engine.credentialsIn stores.secrets lease.path).1 = "" then []
    else renderStatementsForRole engine.formats role.revocationStatements role
      (engine.credentialsIn stores.secrets lease.path).1
      (engine.credentialsIn stores.secrets lease.path).2 now
  | .error _ => []

/-- Everything that a revocation can do: nothing, because there is no such lease or it is
revoked; or mark the lease, and then fail, or take back the credentials and destroy their
newest version. -/
theorem revokeLease_runs {leaseID : String} {result : Except GoError RevokeResult}
    (runs : Runs Allowed (engine.revokeLease leaseID) world result later) :
    (later = world ∧ ((world.stores.leases.find leaseID = none ∧ ∃ err, result = .error err) ∨
      ∃ lease, world.stores.leases.find leaseID = some lease ∧ lease.revokedAt.isSome ∧
        ∃ value, result = .ok value)) ∨
    ∃ lease now leases, world.stores.leases.find leaseID = some lease ∧ lease.revokedAt = none ∧
      world.stores.leases.revoke leaseID now = .ok leases ∧
      ((∃ role err, managedRole world.stores lease = some role ∧
          engine.statementsIn world.stores lease now ≠ [] ∧ result = .error err ∧
          ((∃ err, engine.adminURLIn world.stores.secrets role = .error err) ∨
            engine.hasRunner = false ∨ ∃ draw err, Allowed draw ∧ draw.sql = .error err) ∧
          later = world.withLeases leases) ∨
        (∃ value, result = .ok value) ∧
          later.stores = ((world.withLeases leases).withSecrets
            (destroyLatest world.stores.secrets lease.path)).stores ∧
          ((later.executed = world.executed ∧ (managedRole world.stores lease = none ∨
              engine.statementsIn world.stores lease now = [])) ∨
            ∃ connURL, later.executed =
              world.executed ++ [(connURL, engine.statementsIn world.stores lease now)])) := by
  unfold revokeLease at runs
  obtain ⟨absent, failed, same⟩ | ⟨lease, found, clocked⟩ := runs_getLease_bind runs
  · exact .inl ⟨same, .inl ⟨absent, failed⟩⟩
  obtain ⟨draw, -, revoking⟩ := runs_now_bind clocked
  generalize draw.env.now = clock at revoking
  split at revoking
  · rename_i revoked
    obtain ⟨rfl, rfl⟩ := Fallible.runs_pure.mp revoking
    exact .inl ⟨rfl, .inr ⟨lease, found, revoked, _, rfl⟩⟩
  rename_i unrevoked
  right
  obtain ⟨err, failed, -⟩ | ⟨⟨username, password⟩, credentials, looking⟩ :=
    revoking.bind_reading storedCredentials_runs
  · cases failed
  obtain ⟨looked, middle, lookup, marking⟩ := Fallible.runs_outcome_bind.mp looking
  obtain ⟨rfl, rfl⟩ := runs_getDatabaseRole lookup
  have pair := Except.ok.inj credentials
  have isUnrevoked : lease.revokedAt = none := by simpa using unrevoked
  obtain ⟨err, rfl, failed⟩ | ⟨_, marked, marks, running⟩ := Fallible.runs_bind.mp marking
  · obtain ⟨absent, -⟩ | ⟨_, _, failed, -⟩ := runs_markRevoked failed
    · rw [found] at absent
      cases absent
    · cases failed
  obtain ⟨_, ⟨_, failed⟩, -⟩ | ⟨leases, revoked, -, rfl⟩ := runs_markRevoked marks
  · cases failed
  refine ⟨lease, clock.utc, leases, found, isUnrevoked, revoked, ?_⟩
  -- what is left: the statements of a managed role, and the destruction of the credentials
  have destroying : ∀ {between : LeaseWorld lib} {value : RevokeResult},
      Runs Allowed (do destroySecret lease.path; pure value) between result later →
      (∃ value, result = .ok value) ∧
        later = between.withSecrets (destroyLatest between.stores.secrets lease.path) := by
    intro between value ends
    obtain ⟨err, rfl, failed⟩ | ⟨_, last, destroyed, ended⟩ := Fallible.runs_bind.mp ends
    · obtain ⟨failed, -⟩ := destroySecret_runs failed
      cases failed
    · obtain ⟨-, rfl⟩ := destroySecret_runs destroyed
      obtain ⟨rfl, rfl⟩ := Fallible.runs_pure.mp ended
      exact ⟨⟨_, rfl⟩, rfl⟩
  cases lookedUp : middle.stores.databaseRoles.get lease.roleName with
  | error err =>
    have unmanaged : managedRole middle.stores lease = none := by
      rw [managedRole, lookedUp]
      rfl
    simp only [lookedUp, Except.mapError, Except.toOption, Option.filter_none] at running
    obtain ⟨succeeded, rfl⟩ := destroying running
    exact .inr ⟨succeeded, rfl, .inl ⟨rfl, .inl unmanaged⟩⟩
  | ok role =>
    have rendered : engine.statementsIn middle.stores lease clock.utc =
        if username = "" then []
        else renderStatementsForRole engine.formats role.revocationStatements role username
          password clock.utc := by
      rw [statementsIn, lookedUp, ← pair]
    have managed : managedRole middle.stores lease = (some role).filter fun role =>
        decide (role.executionMode = executionModeManaged) := by
      rw [managedRole, lookedUp]
      rfl
    simp only [lookedUp, Except.mapError, Except.toOption] at running
    rw [← rendered, ← managed] at running
    cases isManaged : managedRole middle.stores lease with
    | none =>
      simp only [isManaged] at running
      obtain ⟨succeeded, rfl⟩ := destroying running
      exact .inr ⟨succeeded, rfl, .inl ⟨rfl, .inl rfl⟩⟩
    | some role =>
      simp only [isManaged] at running
      obtain ⟨err, rfl, failed⟩ | ⟨_, between, executed, ends⟩ := Fallible.runs_bind.mp running
      · obtain ⟨stores, ⟨_, failed, -⟩ | ⟨nonempty, -, log, cause⟩ | ⟨_, failed, -⟩⟩ :=
          runRevocation_runs failed
        · cases failed
        · exact .inl ⟨role, err, rfl, nonempty, rfl, cause, LeaseWorld.ext stores log⟩
        · cases failed
      · obtain ⟨succeeded, rfl⟩ := destroying ends
        obtain ⟨stores, ⟨empty, -, log⟩ | ⟨_, ⟨_, failed⟩, -⟩ | ⟨-, -, connURL, -, log⟩⟩ :=
          runRevocation_runs executed
        · refine .inr ⟨succeeded, ?_, .inl ⟨log, .inr empty⟩⟩
          simp only [LeaseWorld.withSecrets, stores]
          rfl
        · cases failed
        · refine .inr ⟨succeeded, ?_, .inr ⟨connURL, log⟩⟩
          simp only [LeaseWorld.withSecrets, stores]
          rfl

/-- A revocation leaves its lease marked, and only adds to what was executed. -/
theorem revokeLease_marks {id : String} {result : Except GoError RevokeResult}
    (runs : Runs Allowed (engine.revokeLease id) world result later) :
    (∀ lease, later.stores.leases.find id = some lease → lease.revokedAt.isSome) ∧
      ∃ log, later.executed = world.executed ++ log := by
  obtain ⟨rfl, ⟨absent, -⟩ | ⟨revoked, found, marked, -⟩⟩ | ⟨revoked, now, leases, found, -, marked,
    ended⟩ := revokeLease_runs runs
  · refine ⟨fun lease stored => ?_, [], (List.append_nil _).symm⟩
    rw [absent] at stored
    cases stored
  · refine ⟨fun lease stored => ?_, [], (List.append_nil _).symm⟩
    rw [found] at stored
    cases stored
    exact marked
  have finds : leases.find id = some { revoked with revokedAt := some now } := by
    rw [find_of_changeRow marked (fun _ => rfl), if_pos rfl, found, Option.map_some]
  obtain ⟨_, _, -, -, -, -, rfl⟩ | ⟨-, stores, log⟩ := ended
  · refine ⟨fun lease stored => ?_, [], (List.append_nil _).symm⟩
    rw [LeaseWorld.withLeases, finds] at stored
    cases stored
    rfl
  · constructor
    · intro lease stored
      rw [stores, LeaseWorld.withSecrets, LeaseWorld.withLeases, finds] at stored
      cases stored
      rfl
    · obtain ⟨same, -⟩ | ⟨connURL, grown⟩ := log
      · exact ⟨[], same.trans (List.append_nil _).symm⟩
      · exact ⟨_, grown⟩

/-- The newest credentials at a path can be read. -/
def Readable (engine : DatabaseEngine) (secrets : SecretRepository) (path : String) : Prop :=
  ∃ latest data, secrets.getLatest .sorted path = .ok latest ∧
    engine.crypto.openFields "decrypt credentials" "unmarshal credentials" latest = .ok data

/-- The lease with its times once it is renewed. -/
def renewedAt (role : DatabaseRole) (requested : Int) (lease : Lease) (now : Time) : Lease :=
  let ttlSeconds :=
    (LeaseTuning.fromDatabaseRole role).resolveRenewTTL requested lease.ttlSeconds now
  { lease with ttlSeconds, expiresAt := now.add (seconds ttlSeconds) }

/-- A renewal at that time saves the lease. -/
structure Renews (engine : DatabaseEngine) (stores : LeaseStores lib) (requested : Int)
    (lease : Lease) (now : Time) : Prop where
  active : lease.active now = true
  renewable : lease.renewable = true
  named : ∃ role, stores.databaseRoles.find lease.roleName = some role ∧
    (renewedAt role requested lease now).validate = .ok ()
  readable : engine.Readable stores.secrets lease.path

/-- Everything that a renewal can do: nothing, because it would not save the lease when it
reads the clock, or renew the lease. -/
theorem renew_runs {leaseID : String} {ttlSeconds : Int} {result : Except GoError CredsResult}
    (runs : Runs Allowed (engine.renew leaseID ttlSeconds) world result later) :
    (later = world ∧ (∃ err, result = .error err) ∧
      ∀ lease, world.stores.leases.find leaseID = some lease → ∃ draw, Allowed draw ∧
        ¬ engine.Renews world.stores ttlSeconds lease draw.env.now.utc) ∨
    ∃ lease role draw, world.stores.leases.find leaseID = some lease ∧ Allowed draw ∧
      world.stores.databaseRoles.find lease.roleName = some role ∧
      engine.Renews world.stores ttlSeconds lease draw.env.now.utc ∧
      Renewal world lease result later ∧ later.stores.leases.find lease.id =
        some (renewedAt role ttlSeconds lease draw.env.now.utc) := by
  unfold renew at runs
  obtain ⟨absent, failed, same⟩ | ⟨lease, found, clocked⟩ := runs_getLease_bind runs
  · refine .inl ⟨same, failed, fun lease found => ?_⟩
    rw [absent] at found
    cases found
  obtain ⟨draw, allowed, checking⟩ := runs_now_bind clocked
  -- a check that fails ends the call before anything is written
  have refused (failed : ∃ err, result = .error err) (same : later = world)
      (fails : ¬ engine.Renews world.stores ttlSeconds lease draw.env.now.utc) :
      later = world ∧ (∃ err, result = .error err) ∧
        ∀ lease, world.stores.leases.find leaseID = some lease → ∃ draw, Allowed draw ∧
          ¬ engine.Renews world.stores ttlSeconds lease draw.env.now.utc := by
    refine ⟨same, failed, fun other stored => ?_⟩
    cases found.symm.trans stored
    exact ⟨draw, allowed, fails⟩
  dsimp only at checking
  split at checking
  · rename_i inactive
    obtain ⟨failed, same⟩ := runs_fail checking
    exact .inl (refused failed same fun renews => by simp [renews.active] at inactive)
  rename_i active
  split at checking
  · rename_i fixed
    obtain ⟨failed, same⟩ := runs_fail checking
    exact .inl (refused failed same fun renews => by simp [renews.renewable] at fixed)
  rename_i renewable
  obtain ⟨err, missing, failed, same⟩ | ⟨role, named, reading⟩ :=
    checking.bind_reading runs_getDatabaseRole
  · refine .inl (refused ⟨err, failed⟩ same fun renews => ?_)
    obtain ⟨role, named, -⟩ := renews.named
    rw [DatabaseRoleRepository.get, getRow_ok_iff.mpr named] at missing
    cases missing
  have named := getRow_ok_iff.mp (mapError_ok_iff.mp named.symm)
  obtain ⟨err, missing, failed, same⟩ | ⟨latest, newest, opening⟩ :=
    reading.bind_reading runs_getLatest
  · refine .inl (refused ⟨err, failed⟩ same fun renews => ?_)
    obtain ⟨latest, data, read, -⟩ := renews.readable
    rw [read] at missing
    cases missing
  have newest := mapError_ok_iff.mp newest.symm
  obtain ⟨err, unreadable, failed, same⟩ | ⟨data, fields, renewing⟩ :=
    opening.bind_reading runs_lift
  · refine .inl (refused ⟨err, failed⟩ same fun renews => ?_)
    obtain ⟨_, data, read, opens⟩ := renews.readable
    cases newest.symm.trans read
    cases unreadable.trans opens
  obtain ⟨same, failed, invalid⟩ | ⟨valid, renewal, kept⟩ := Renewal.of_runs renewing
  · refine .inl (refused failed same fun renews => ?_)
    obtain ⟨_, named', valid⟩ := renews.named
    cases named.symm.trans named'
    exact invalid valid
  · refine .inr ⟨lease, role, draw, found, allowed, named, ⟨?_, ?_, ⟨role, named, valid⟩, ?_⟩,
      renewal, kept⟩
    · simpa using active
    · simpa using renewable
    · exact ⟨latest, data, newest, fields.symm⟩

end DatabaseEngine

/-! ### The SSH engine -/

namespace SshEngine

open LeaseProgram Ssh

variable {lib : Library} {Allowed : LeaseDraw → Prop} {engine : SshEngine}
  {world later : LeaseWorld lib}

theorem loadCASigner_runs {path : String} {result : Except GoError String}
    (runs : Runs Allowed (engine.loadCASigner path) world result later) : later = world := by
  unfold loadCASigner at runs
  obtain ⟨err, -, -, same⟩ | ⟨latest, -, opening⟩ :=
    runs.bind_reading (runs_wrapping runs_getLatest)
  · exact same
  obtain ⟨err, -, -, same⟩ | ⟨data, -, parsing⟩ := opening.bind_reading runs_lift
  · exact same
  extract_lets text keyPEM at parsing
  clear_value keyPEM
  split at parsing
  · exact (runs_fail parsing).2
  obtain ⟨err, -, -, same⟩ | ⟨_, -, ended⟩ := parsing.bind_reading runs_lift
  · exact same
  exact (Fallible.runs_pure.mp ended).2

/-- Everything that a revocation can do. -/
theorem revokeLease_runs {leaseID : String} {result : Except GoError Unit}
    (runs : Runs Allowed (revokeLease leaseID) world result later) :
    (later = world ∧ ((∃ err, result = .error err) ∨
      ∃ lease, world.stores.leases.find leaseID = some lease ∧ lease.engine = engineName ∧
        lease.revokedAt.isSome ∧ result = .ok ())) ∨
    ∃ lease now leases, world.stores.leases.find leaseID = some lease ∧
      lease.engine = engineName ∧ lease.revokedAt = none ∧
      world.stores.leases.revoke leaseID now = .ok leases ∧ result = .ok () ∧
      later = (world.withLeases leases).withSecrets
        (destroyLatest world.stores.secrets lease.path) := by
  unfold revokeLease at runs
  obtain ⟨-, failed, same⟩ | ⟨lease, found, checking⟩ := runs_getLease_bind runs
  · exact .inl ⟨same, .inl failed⟩
  split at checking
  · obtain ⟨failed, rfl⟩ := runs_fail checking
    exact .inl ⟨rfl, .inl failed⟩
  rename_i own
  have own : lease.engine = engineName := by simpa using own
  obtain ⟨draw, -, revoking⟩ := runs_now_bind checking
  split at revoking
  · rename_i revoked
    obtain ⟨rfl, rfl⟩ := Fallible.runs_pure.mp revoking
    exact .inl ⟨rfl, .inr ⟨lease, found, own, revoked, rfl⟩⟩
  rename_i unrevoked
  have isUnrevoked : lease.revokedAt = none := by simpa using unrevoked
  obtain ⟨err, rfl, failed⟩ | ⟨_, marked, marks, destroying⟩ := Fallible.runs_bind.mp revoking
  · obtain ⟨absent, -⟩ | ⟨_, _, failed, -⟩ := runs_markRevoked failed
    · rw [found] at absent
      cases absent
    · cases failed
  obtain ⟨_, ⟨_, failed⟩, -⟩ | ⟨leases, revoked, -, rfl⟩ := runs_markRevoked marks
  · cases failed
  obtain ⟨rfl, rfl⟩ := destroySecret_runs destroying
  exact .inr ⟨lease, _, leases, found, own, isUnrevoked, revoked, rfl, rfl⟩

/-- A renewal fails and changes nothing, or it renews an SSH lease. -/
theorem renew_runs {leaseID : String} {ttlSeconds : Int} {result : Except GoError CredsResult}
    (runs : Runs Allowed (engine.renew leaseID ttlSeconds) world result later) :
    ((∃ err, result = .error err) ∧ later = world) ∨
    ∃ lease, world.stores.leases.find leaseID = some lease ∧
      lease.engine = engineName ∧ Renewal world lease result later := by
  unfold renew at runs
  obtain ⟨-, failed, same⟩ | ⟨lease, found, owning⟩ := runs_getLease_bind runs
  · exact .inl ⟨failed, same⟩
  split at owning
  · exact .inl (runs_fail owning)
  rename_i own
  obtain ⟨draw, -, checking⟩ := runs_now_bind owning
  dsimp only at checking
  split at checking
  · exact .inl (runs_fail checking)
  split at checking
  · exact .inl (runs_fail checking)
  obtain ⟨err, -, failed, same⟩ | ⟨role, -, reading⟩ := checking.bind_reading runs_getSSHRole
  · exact .inl ⟨⟨err, failed⟩, same⟩
  obtain ⟨err, -, failed, same⟩ | ⟨latest, -, opening⟩ := reading.bind_reading runs_getLatest
  · exact .inl ⟨⟨err, failed⟩, same⟩
  obtain ⟨err, -, failed, same⟩ | ⟨data, -, parsing⟩ := opening.bind_reading runs_lift
  · exact .inl ⟨⟨err, failed⟩, same⟩
  obtain ⟨err, -, failed, same⟩ | ⟨_, -, loading⟩ := parsing.bind_reading runs_lift
  · exact .inl ⟨⟨err, failed⟩, same⟩
  obtain ⟨err, -, failed, same⟩ | ⟨caKey, -, signing⟩ := loading.bind_reading fun loads =>
    ⟨trivial, loadCASigner_runs loads⟩
  · exact .inl ⟨⟨err, failed⟩, same⟩
  obtain ⟨err, -, failed, same⟩ | ⟨signedKey, -, renewing⟩ := signing.bind_reading runs_lift
  · exact .inl ⟨⟨err, failed⟩, same⟩
  obtain ⟨same, failed, -⟩ | ⟨-, renewal, -⟩ := Renewal.of_runs renewing
  · exact .inl ⟨failed, same⟩
  · exact .inr ⟨lease, found, by simpa using own, renewal⟩

end SshEngine

end KnxVault.Engine
