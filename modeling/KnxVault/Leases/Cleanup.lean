import KnxVault.Leases.Cascade
import KnxVault.Std.Selection

/-!
# Cleaning up expired leases

`CleanupExpired` of the database and the SSH engine lists the leases of all engines
that have expired, the earliest first and no more than a limit, and revokes its own
among them. When it finds none, there may be some behind the limit.
-/

namespace KnxVault.Leases

open KnxVault.Std KnxVault.Domain KnxVault.Repository KnxVault.Engine LeaseProgram

/-! ### The job of both engines -/

/-- An engine that cleans up. -/
inductive Cleaner where
  | database (engine : DatabaseEngine)
  | ssh

namespace Cleaner

def name : Cleaner → String
  | database _ => Database.engineName
  | ssh => Ssh.engineName

def cleanupExpired (limit : Int) : Cleaner → LeaseProgram (List String × Option GoError)
  | database engine => engine.cleanupExpired limit
  | ssh => SshEngine.cleanupExpired limit

end Cleaner

/-- The job over what an engine does to one lease. -/
def cleanupJob {α : Type} (name : String) (revoke : Lease → LeaseProgram α) (limit : Int) :
    LeaseProgram (List String × Option GoError) := do
  let now := (← now).utc
  let expired ← listExpired now limit
  revokeEach Lease.id revoke (fun lease => lease.engine ≠ name) ([], none) expired

section Job

variable {lib : Library} {Allowed : LeaseDraw → Prop} {α : Type} {name : String}
  {revoke : Lease → LeaseProgram α} {limit : Int} {world later : LeaseWorld lib}

/-- The job reads the clock and lists, and the rest is its loop. -/
theorem cleanupJob_runs_iff {result : Except GoError (List String × Option GoError)} :
    Runs Allowed (cleanupJob name revoke limit) world result later ↔
      ∃ clock lister : LeaseDraw, Allowed clock ∧ Allowed lister ∧
        Runs Allowed (revokeEach Lease.id revoke (fun lease => lease.engine ≠ name) ([], none)
          (world.stores.leases.listExpired lister.env.range clock.env.now.utc limit)) world result
          later := by
  constructor
  · intro runs
    obtain ⟨⟨clock, atClock⟩, listing⟩ := Fallible.runs_perform_bind.mp runs
    obtain ⟨⟨lister, atLister⟩, going⟩ := Fallible.runs_perform_bind.mp listing
    exact ⟨clock, lister, atClock, atLister, going⟩
  · rintro ⟨clock, lister, atClock, atLister, going⟩
    refine Fallible.runs_perform_bind.mpr ⟨⟨clock, atClock⟩, ?_⟩
    exact Fallible.runs_perform_bind.mpr ⟨⟨lister, atLister⟩, going⟩

/-- A loop that skips every item does nothing. -/
theorem revokeEach_skipped {items : List Lease} {skips : Lease → Bool}
    (skipped : ∀ item ∈ items, skips item = true) (done : List String × Option GoError) :
    revokeEach Lease.id revoke skips done items = pure done := by
  induction items with
  | nil => rfl
  | cons item items ih =>
    rw [revokeEach, if_pos (skipped item List.mem_cons_self)]
    exact ih fun other listed => skipped other (List.mem_cons_of_mem _ listed)

/-- A loop that names no lease and no error has skipped every item. -/
theorem skipped_of_revokeEach {items : List Lease} {skips : Lease → Bool}
    {done : List String × Option GoError}
    (runs : Runs Allowed (revokeEach Lease.id revoke skips done items) world (.ok ([], none))
      later) : done = ([], none) ∧ ∀ item ∈ items, skips item = true := by
  induction items generalizing done world with
  | nil =>
    obtain ⟨same, -⟩ := Fallible.runs_pure.mp runs
    exact ⟨(Except.ok.inj same).symm, fun _ listed => nomatch listed⟩
  | cons item items ih =>
    unfold revokeEach at runs
    split at runs
    · rename_i skipped
      obtain ⟨same, rest⟩ := ih runs
      exact ⟨same, List.forall_mem_cons.mpr ⟨skipped, rest⟩⟩
    · obtain ⟨ended, middle, -, going⟩ := Fallible.runs_outcome_bind.mp runs
      cases ended with
      | error err =>
        obtain ⟨same, -⟩ := ih going
        have absent := (Prod.mk.inj same).2
        cases reported : done.2 <;> simp [reported] at absent
      | ok value =>
        obtain ⟨same, -⟩ := ih going
        exact absurd (Prod.mk.inj same).1 (by simp)

end Job

/-! ### What a loop without errors revokes -/

/-- An engine marks at most the lease it is given, and marks it when it succeeds. -/
def Marking (Allowed : LeaseDraw → Prop) (lib : Library) {α : Type}
    (revoke : Lease → LeaseProgram α) : Prop :=
  ∀ (lease : Lease) (world later : LeaseWorld lib) (result : Except GoError α),
    Runs Allowed (revoke lease) world result later →
      MarksOnly lease.id world later ∧ (result.isOk = true → Revoked lease.id later)

section Revoking

variable {lib : Library} {Allowed : LeaseDraw → Prop} {α : Type} {name : String}
  {revoke : Lease → LeaseProgram α} {limit : Int} {world later : LeaseWorld lib}
  (marking : Marking Allowed lib revoke)
include marking

theorem revoked_of_revokeEach {items : List Lease} {skips : Lease → Bool}
    {done : List String × Option GoError} {named : List String}
    (runs : Runs Allowed (revokeEach Lease.id revoke skips done items) world (.ok (named, none))
      later) : done.2 = none ∧ ∀ item ∈ items, skips item = false → Revoked item.id later := by
  induction items generalizing done world with
  | nil =>
    obtain ⟨same, -⟩ := Fallible.runs_pure.mp runs
    cases same
    exact ⟨rfl, fun _ listed => nomatch listed⟩
  | cons item items ih =>
    unfold revokeEach at runs
    split at runs
    · rename_i skipped
      obtain ⟨none, rest⟩ := ih runs
      refine ⟨none, List.forall_mem_cons.mpr ⟨fun visited => ?_, rest⟩⟩
      rw [visited] at skipped
      cases skipped
    · obtain ⟨ended, middle, revoking, going⟩ := Fallible.runs_outcome_bind.mp runs
      cases ended with
      | error err =>
        obtain ⟨absent, -⟩ := ih going
        cases reported : done.2 <;> simp [reported] at absent
      | ok value =>
        obtain ⟨none, rest⟩ := ih going
        refine ⟨none, List.forall_mem_cons.mpr ⟨fun _ => ?_, rest⟩⟩
        have first := (marking item _ _ _ revoking).2 rfl
        have stays : ∀ other ∈ items, skips other = false → ∀ {world later : LeaseWorld lib}
            {result : Except GoError α}, Revoked item.id world →
              Runs Allowed (revoke other) world result later → Revoked item.id later :=
          fun other _ _ _ _ _ revoked again => revoked.marks (marking other _ _ _ again).1
        exact revokeEach_runs stays going first

/-- A lease that is not revoked afterwards was there before, as it is. -/
theorem unrevoked_of_revokeEach {items : List Lease} {skips : Lease → Bool}
    {done : List String × Option GoError} {result : Except GoError (List String × Option GoError)}
    (runs : Runs Allowed (revokeEach Lease.id revoke skips done items) world result later)
    {lease : Lease} (stored : later.stores.leases.find lease.id = some lease)
    (unrevoked : lease.revokedAt = none) : world.stores.leases.find lease.id = some lease := by
  have kept : ∀ other ∈ items, skips other = false → ∀ {before after : LeaseWorld lib}
      {result : Except GoError α}, (before.stores.leases.find lease.id = some lease →
        world.stores.leases.find lease.id = some lease) →
      Runs Allowed (revoke other) before result after →
        (after.stores.leases.find lease.id = some lease →
          world.stores.leases.find lease.id = some lease) := ?_
  · exact revokeEach_runs kept runs id stored
  intro other _ _ before after result earlier again found
  have marks := (marking other _ _ _ again).1
  by_cases same : lease.id = other.id
  · obtain unchanged | ⟨now, marked⟩ := marks
    · rw [unchanged] at found
      exact earlier found
    · have revoked := Revoked.of_mark marked lease (same ▸ found)
      rw [unrevoked] at revoked
      cases revoked
  · rw [marks.elsewhere same] at found
    exact earlier found

end Revoking

/-! ### Leases that are due -/

section Due

variable {lib : Library}

/-- The lease has expired by the time and is not revoked. -/
def expiredBy (time : Time) (lease : Lease) : Bool :=
  lease.revokedAt.isNone && !lease.expiresAt.after time

/-- A stored lease of the engine that has expired and is not revoked. -/
structure Due (name : String) (time : Time) (world : LeaseWorld lib) (lease : Lease) : Prop where
  stored : world.stores.leases.find lease.id = some lease
  own : lease.engine = name
  expired : expiredBy time lease = true

/-- How many leases of other engines are not revoked and expire no later. -/
def ahead (name : String) (world : LeaseWorld lib) (lease : Lease) : Nat :=
  (world.stores.leases.visit .sorted).countP fun other =>
    other.revokedAt.isNone &&
      (!decide (other.engine = name) && decide (other.expiresAt.instant ≤ lease.expiresAt.instant))

variable {name : String} {time : Time} {world : LeaseWorld lib} {lease : Lease}

theorem Due.expires (due : Due name time world lease) : lease.expiresAt.instant ≤ time.instant := by
  have expired := due.expired
  simp only [expiredBy, Time.after, Bool.and_eq_true, Bool.not_eq_true', decide_eq_false_iff_not,
    not_lt] at expired
  exact expired.2

theorem Due.unrevoked (due : Due name time world lease) : lease.revokedAt = none := by
  have expired := due.expired
  simp only [expiredBy, Bool.and_eq_true, Option.isNone_iff_eq_none] at expired
  exact expired.1

/-- What expires before a lease that is due has expired as well. -/
theorem countP_expired (range : MapRange) {clock : Time} (due : Due name time world lease)
    (reached : time.instant ≤ clock.instant) :
    ((world.stores.leases.visit range).filter (expiredBy clock)).countP (fun other =>
      !decide (other.engine = name) &&
        decide (other.expiresAt.instant ≤ lease.expiresAt.instant)) = ahead name world lease := by
  rw [List.countP_filter, (world.stores.leases.perm_visit range .sorted).countP_eq, ahead]
  refine List.countP_congr fun other _ => ?_
  have expires := due.expires
  simp only [expiredBy, Time.after, Bool.and_eq_true, Bool.not_eq_true', decide_eq_true_eq,
    decide_eq_false_iff_not, not_lt]
  constructor
  · rintro ⟨⟨foreign, earlier⟩, unrevoked, -⟩
    exact ⟨unrevoked, foreign, earlier⟩
  · rintro ⟨unrevoked, foreign, earlier⟩
    exact ⟨⟨foreign, earlier⟩, unrevoked, by omega⟩

theorem listExpired_eq {limit : Int} (positive : 0 < limit) (range : MapRange) (clock : Time) :
    world.stores.leases.listExpired range clock limit =
      (sortBy (lessBy fun lease : Lease => lease.expiresAt.instant)
        ((world.stores.leases.visit range).filter (expiredBy clock))).take limit.toNat := by
  unfold LeaseRepository.listExpired limited
  rw [if_neg (by omega)]
  rfl

/-- If fewer leases than the limit are ahead of one that is due, a lease of the engine
that expires no later is listed. -/
theorem exists_listed {limit : Int} (range : MapRange) {clock : Time}
    (due : Due name time world lease) (reached : time.instant ≤ clock.instant)
    (few : (ahead name world lease : Int) < limit) :
    ∃ first ∈ world.stores.leases.listExpired range clock limit, Due name time world first := by
  have expires := due.expires
  rw [listExpired_eq (by omega)]
  have sorted := sorted_sortBy (fun lease : Lease => lease.expiresAt.instant)
    ((world.stores.leases.visit range).filter (expiredBy clock))
  have perm := perm_sortBy (lessBy fun lease : Lease => lease.expiresAt.instant)
    ((world.stores.leases.visit range).filter (expiredBy clock))
  have late : expiredBy clock lease = true := by
    have unrevoked := due.unrevoked
    simp only [expiredBy, unrevoked, Time.after]
    simp
    omega
  have listed := perm.mem_iff.mpr
    (List.mem_filter.mpr ⟨Table.mem_visit.mpr due.stored, late⟩)
  have fewer : (sortBy (lessBy fun lease : Lease => lease.expiresAt.instant)
      ((world.stores.leases.visit range).filter (expiredBy clock))).countP (fun other =>
        !decide (other.engine = name) &&
          decide (other.expiresAt.instant ≤ lease.expiresAt.instant)) < limit.toNat := by
    rw [perm.countP_eq, countP_expired range due reached]
    omega
  obtain ⟨first, taken, own, earlier⟩ :=
    exists_mem_take sorted listed (decide_eq_true due.own) fewer
  have stored := List.mem_filter.mp (perm.mem_iff.mp (List.mem_of_mem_take taken))
  refine ⟨first, taken, Table.mem_visit.mp stored.1, by simpa using own, ?_⟩
  have unrevoked := (Bool.and_eq_true_iff.mp stored.2).1
  simp only [expiredBy, unrevoked, Time.after]
  simp
  omega

/-! ### Jobs that find every lease -/

/-- If the job revokes no lease and reports no error, no lease of the engine is due. -/
def Conclusive (cleaner : Cleaner) (limit : Int) (time : Time) (world : LeaseWorld lib) : Prop :=
  ∀ later, Runs (fun draw => time.instant ≤ draw.env.now.instant) (cleaner.cleanupExpired limit)
    world (.ok ([], none)) later → ∀ lease, ¬ Due cleaner.name time later lease

/-- If leases of the engine are due, fewer than the limit are ahead of one of them. -/
def Reaches (cleaner : Cleaner) (limit : Int) (time : Time) (world : LeaseWorld lib) : Prop :=
  ∀ lease, Due cleaner.name time world lease →
    ∃ first, Due cleaner.name time world first ∧ (ahead cleaner.name world first : Int) < limit

/-- Calls one after another that report no error and that reach a lease each. -/
inductive CleanRun (cleaner : Cleaner) (limit : Int) (time : Time) (world : LeaseWorld lib) :
    Nat → LeaseWorld lib → Prop
  | start : CleanRun cleaner limit time world 0 world
  | call {calls : Nat} {middle later : LeaseWorld lib} {named : List String}
      (earlier : CleanRun cleaner limit time world calls middle)
      (reaches : Reaches cleaner limit time middle)
      (runs : Runs (fun draw => time.instant ≤ draw.env.now.instant)
        (cleaner.cleanupExpired limit) middle (.ok (named, none)) later) :
      CleanRun cleaner limit time world (calls + 1) later

/-- The leases of the engine that are due. -/
def dueLeases (name : String) (time : Time) (world : LeaseWorld lib) : List Lease :=
  (world.stores.leases.visit .sorted).filter fun lease =>
    decide (lease.engine = name) && expiredBy time lease

theorem mem_dueLeases : lease ∈ dueLeases name time world ↔ Due name time world lease := by
  rw [dueLeases, List.mem_filter, Table.mem_visit, Bool.and_eq_true, decide_eq_true_eq]
  exact ⟨fun ⟨stored, own, expired⟩ => ⟨stored, own, expired⟩,
    fun due => ⟨due.stored, due.own, due.expired⟩⟩

theorem nodup_dueLeases (name : String) (time : Time) (world : LeaseWorld lib) :
    (dueLeases name time world).Nodup :=
  (List.Nodup.of_map _ (world.stores.leases.nodup_visit .sorted)).filter _

section Job

variable {α : Type} {revoke : Lease → LeaseProgram α} {limit : Int} {Allowed : LeaseDraw → Prop}
  {later : LeaseWorld lib}

theorem not_due_of_job (limited : ∀ draw, Allowed draw → time.instant ≤ draw.env.now.instant)
    (few : (ahead name world lease : Int) < limit)
    (runs : Runs Allowed (cleanupJob name revoke limit) world (.ok ([], none)) later) :
    ¬ Due name time world lease := by
  intro due
  obtain ⟨clock, lister, atClock, -, going⟩ := cleanupJob_runs_iff.mp runs
  obtain ⟨first, listed, found⟩ := exists_listed lister.env.range due (limited clock atClock) few
  have skipped := (skipped_of_revokeEach going).2 first listed
  exact of_decide_eq_true skipped found.own

/-- If too many leases are ahead of all that are due, the job may find none. -/
theorem job_finds_none (positive : 0 < limit)
    (allowed : ∀ draw : LeaseDraw, draw.env.now = time → Allowed draw)
    (crowded : ∀ lease, Due name time world lease → limit ≤ ahead name world lease) :
    Runs Allowed (cleanupJob name revoke limit) world (.ok ([], none)) world := by
  have behind : ∀ lease ∈ (world.stores.leases.visit .sorted).filter (expiredBy time.utc),
      decide (lease.engine = name) = true → limit.toNat ≤
        ((world.stores.leases.visit .sorted).filter (expiredBy time.utc)).countP fun other =>
          !decide (other.engine = name) &&
            decide (other.expiresAt.instant ≤ lease.expiresAt.instant) := by
    intro lease listed own
    obtain ⟨stored, expired⟩ := List.mem_filter.mp listed
    have due : Due name time world lease :=
      ⟨Table.mem_visit.mp stored, of_decide_eq_true own, expired⟩
    have enough := crowded lease due
    have reached : time.instant ≤ time.utc.instant := le_refl _
    rw [countP_expired .sorted due reached]
    omega
  obtain ⟨range, others⟩ := exists_range_unselected behind
  let draw : LeaseDraw :=
    ⟨{ Env.sample 0 with now := time, range := range }, .sample, .ok ()⟩
  refine cleanupJob_runs_iff.mpr ⟨draw, draw, allowed _ rfl, allowed _ rfl, ?_⟩
  rw [listExpired_eq positive, revokeEach_skipped]
  · exact Fallible.runs_pure.mpr ⟨rfl, rfl⟩
  · intro lease listed
    have other : decide (lease.engine = name) = false := others lease listed
    simpa using other

/-- A job without errors that reaches a lease leaves fewer that are due. -/
theorem dueLeases_job (limited : ∀ draw, Allowed draw → time.instant ≤ draw.env.now.instant)
    (marking : Marking Allowed lib revoke) {named : List String}
    (runs : Runs Allowed (cleanupJob name revoke limit) world (.ok (named, none)) later) :
    (∀ lease, Due name time later lease → Due name time world lease) ∧
      ∀ lease, Due name time world lease → (ahead name world lease : Int) < limit →
        ∃ first, Due name time world first ∧ ¬ Due name time later first := by
  obtain ⟨clock, lister, atClock, -, going⟩ := cleanupJob_runs_iff.mp runs
  constructor
  · intro lease due
    have stored := unrevoked_of_revokeEach marking going due.stored due.unrevoked
    exact ⟨stored, due.own, due.expired⟩
  · intro lease due few
    obtain ⟨first, listed, found⟩ := exists_listed lister.env.range due (limited clock atClock) few
    refine ⟨first, found, fun still => ?_⟩
    have visited : decide (first.engine ≠ name) = false := by simpa using found.own
    have revoked := (revoked_of_revokeEach marking going).2 first listed visited first still.stored
    rw [still.unrevoked] at revoked
    cases revoked

end Job

variable {cleaner : Cleaner} {limit : Int} {later : LeaseWorld lib} {Allowed : LeaseDraw → Prop}

/-- Both engines do the same job, each with its own revocation. -/
theorem Cleaner.exists_job (cleaner : Cleaner) (positive : 0 < limit) :
    ∃ (α : Type) (revoke : Lease → LeaseProgram α),
      cleaner.cleanupExpired limit = cleanupJob cleaner.name revoke limit ∧
        ∀ (Allowed : LeaseDraw → Prop) (lib : Library), Marking Allowed lib revoke := by
  cases cleaner with
  | database engine =>
    refine ⟨_, fun lease => engine.revokeLease lease.id, rfl, fun _ _ lease _ _ _ runs => ?_⟩
    obtain ⟨marks, revoked⟩ := database_marksOnly runs
    exact ⟨marks, fun _ => revoked⟩
  | ssh =>
    refine ⟨_, fun lease => SshEngine.revokeLease lease.id, ?_, fun _ _ lease _ _ _ runs =>
      ssh_marksOnly runs⟩
    have asked : (if limit ≤ 0 then 50 else limit) = limit := if_neg (by omega)
    unfold Cleaner.cleanupExpired SshEngine.cleanupExpired
    rw [asked]
    rfl

theorem conclusive_iff_reaches (positive : 0 < limit) :
    Conclusive cleaner limit time world ↔ Reaches cleaner limit time world := by
  obtain ⟨α, revoke, job, -⟩ := cleaner.exists_job positive
  unfold Conclusive
  rw [job]
  constructor
  · intro conclusive lease due
    by_contra missing
    push Not at missing
    refine conclusive world (job_finds_none positive ?_ missing) lease due
    intro draw atTime
    rw [atTime]
  · intro reaches later runs lease due
    obtain ⟨_, _, -, -, going⟩ := cleanupJob_runs_iff.mp runs
    rw [revokeEach_skipped (skipped_of_revokeEach going).2] at going
    obtain ⟨-, rfl⟩ := Fallible.runs_pure.mp going
    obtain ⟨first, found, few⟩ := reaches lease due
    exact not_due_of_job (fun _ reached => reached) few runs found

theorem dueLeases_call (positive : 0 < limit) (reaches : Reaches cleaner limit time world)
    {named : List String} (runs : Runs (fun draw => time.instant ≤ draw.env.now.instant)
      (cleaner.cleanupExpired limit) world (.ok (named, none)) later) :
    (dueLeases cleaner.name time later).length ≤
      (dueLeases cleaner.name time world).length - 1 := by
  obtain ⟨α, revoke, job, marking⟩ := cleaner.exists_job positive
  rw [job] at runs
  obtain ⟨kept, fewer⟩ := dueLeases_job (fun _ reached => reached) (marking _ _) runs
  have within : dueLeases cleaner.name time later ⊆ dueLeases cleaner.name time world :=
    fun lease listed => mem_dueLeases.mpr (kept lease (mem_dueLeases.mp listed))
  have subperm := List.subperm_of_subset (nodup_dueLeases cleaner.name time later) within
  by_cases same : (dueLeases cleaner.name time world).length = 0
  · have short := subperm.length_le
    omega
  obtain ⟨lease, listed⟩ := List.exists_mem_of_length_pos (Nat.pos_of_ne_zero same)
  obtain ⟨early, found, few⟩ := reaches lease (mem_dueLeases.mp listed)
  obtain ⟨first, due, gone⟩ := fewer early found few
  -- a sublist of the same length would hold the lease that is gone
  by_contra long
  have perm := subperm.perm_of_length_le (by omega)
  exact gone (mem_dueLeases.mp (perm.mem_iff.mpr (mem_dueLeases.mpr due)))

theorem CleanRun.dueLeases_length (positive : 0 < limit) {calls : Nat}
    (run : CleanRun cleaner limit time world calls later) :
    (dueLeases cleaner.name time later).length ≤
      (dueLeases cleaner.name time world).length - calls := by
  induction run with
  | start => exact Nat.le_refl _
  | call earlier reaches runs ih =>
    have fewer := dueLeases_call positive reaches runs
    omega

end Due

/-- The job finds every lease of its engine that is due just if, as long as there are
any, fewer leases of other engines than the limit are ahead of one; and calls that
report no error and meet this leave none after as many as were due. -/
theorem cleanup_progress_iff {lib : Library} (cleaner : Cleaner) (limit : Int)
    (positive : 0 < limit) (time : Time) (world : LeaseWorld lib) :
    (Conclusive cleaner limit time world ↔ Reaches cleaner limit time world) ∧
      ∀ calls later, CleanRun cleaner limit time world calls later →
        (dueLeases cleaner.name time world).length ≤ calls →
          ∀ lease, ¬ Due cleaner.name time later lease := by
  refine ⟨conclusive_iff_reaches positive, fun calls later run enough lease due => ?_⟩
  have left := run.dueLeases_length positive
  have listed := List.length_pos_of_mem (mem_dueLeases.mpr due)
  omega

/-- The stores with a lease of the SSH engine that expires before the lease of a database. -/
def crowdedWorld : LeaseWorld .sample where
  stores := { leasedStores with
    leases := leasedStores.leases.put {
      id := "s", path := "ssh/creds/app/s", roleName := "app", engine := "ssh", ttlSeconds := 50
      expiresAt := ⟨50 * nanosecondsPerSecond, 0⟩, renewable := true } (by decide) }

def cleanedWorld (limit : Int) :
    Except GoError (List String × Option GoError) × LeaseWorld .sample :=
  (sampleDatabase.cleanupExpired limit).execute (fun _ => drawAt 200) crowdedWorld

theorem crowdedWorld_reaches :
    Reaches (.database sampleDatabase) 2 ⟨200 * nanosecondsPerSecond, 0⟩ crowdedWorld := by
  intro lease due
  have few : ∀ lease ∈ crowdedWorld.stores.leases.visit .sorted,
      (ahead Database.engineName crowdedWorld lease : Int) < 2 := by
    decide +kernel
  exact ⟨lease, due, few lease (Table.mem_visit.mpr due.stored)⟩

theorem cleanup_progress_two :
    Conclusive (.database sampleDatabase) 2 ⟨200 * nanosecondsPerSecond, 0⟩ crowdedWorld ∧
      ∀ lease, ¬ Due Database.engineName ⟨200 * nanosecondsPerSecond, 0⟩ (cleanedWorld 2).2
        lease := by
  have progress := cleanup_progress_iff (.database sampleDatabase) 2 (by decide)
    ⟨200 * nanosecondsPerSecond, 0⟩ crowdedWorld
  refine ⟨progress.1.mpr crowdedWorld_reaches, progress.2 1 _ ?_ (by decide +kernel)⟩
  have ended : (cleanedWorld 2).1 = .ok (["l"], none) := by decide +kernel
  have runs : Runs (fun draw => 200 * nanosecondsPerSecond ≤ draw.env.now.instant)
      (sampleDatabase.cleanupExpired 2) crowdedWorld (.ok (["l"], none)) (cleanedWorld 2).2 := by
    rw [← ended]
    refine runs_execute _ (fun place => ?_) crowdedWorld
    exact le_refl (200 * nanosecondsPerSecond)
  exact .call .start crowdedWorld_reaches runs

/-- With a limit of one the database engine lists only the lease of the SSH engine: it
reports that it revoked none, each time, and the expired lease of a database stays. -/
theorem cleanup_starved :
    (cleanedWorld 1).1 = .ok ([], none) ∧
    ((sampleDatabase.cleanupExpired 1).execute (fun _ => drawAt 201) (cleanedWorld 1).2).1 =
      .ok ([], none) ∧
    (((sampleDatabase.cleanupExpired 1).execute (fun _ => drawAt 201)
      (cleanedWorld 1).2).2.stores.leases.find "l").any (fun lease =>
        decide (lease.engine = Database.engineName) &&
          expiredBy ⟨200 * nanosecondsPerSecond, 0⟩ lease) = true := by
  decide +kernel

end KnxVault.Leases
