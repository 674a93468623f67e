import KnxVault.Leases.Executions
import KnxVault.Leases.Lifetimes

/-!
# Leases of other engines

All engines share one table of leases and one store of secrets. A call of an engine
should change only leases of that engine and the credentials at their paths. The SSH
engine checks the engine of every lease it changes; the database engine does so in one
of its four calls. The others reach a lease of another engine if it is not revoked, and a
renewal if its role has the name of a database role and its credentials can be read.
-/

namespace KnxVault.Leases

open KnxVault.Std KnxVault.Domain KnxVault.Repository KnxVault.Engine LeaseProgram

variable {lib : Library} {world middle later : LeaseWorld lib} {engine : String} {lease : Lease}

/-- Only leases of the engine, and credentials at their paths, differ. -/
structure OwnOnly (engine : String) (world later : LeaseWorld lib) : Prop where
  leases : ∀ lease, lease.engine ≠ engine →
    (later.stores.leases.find lease.id = some lease ↔
      world.stores.leases.find lease.id = some lease)
  origin : ∀ lease, later.stores.leases.find lease.id = some lease → lease.engine = engine →
    ∃ before, world.stores.leases.find lease.id = some before ∧ before.engine = engine ∧
      before.path = lease.path
  secrets : ∀ path, (∀ lease, world.stores.leases.find lease.id = some lease →
    lease.engine = engine → lease.path ≠ path) →
    later.stores.secrets.SameAt world.stores.secrets path

namespace OwnOnly

theorem refl (world : LeaseWorld lib) : OwnOnly engine world world where
  leases _ _ := Iff.rfl
  origin lease found own := ⟨lease, found, own, rfl⟩
  secrets _ _ _ := rfl

theorem trans (first : OwnOnly engine world middle) (second : OwnOnly engine middle later) :
    OwnOnly engine world later where
  leases lease foreign := (second.leases lease foreign).trans (first.leases lease foreign)
  origin lease found own := by
    obtain ⟨between, found, own, same⟩ := second.origin lease found own
    have named : between.id = lease.id := Table.key_of_find found
    rw [← named] at found
    obtain ⟨before, found, own, path⟩ := first.origin between found own
    rw [named] at found
    exact ⟨before, found, own, path.trans same⟩
  secrets path others number := by
    refine (second.secrets path ?_ number).trans (first.secrets path others number)
    intro lease found own onPath
    obtain ⟨before, found, own, same⟩ := first.origin lease found own
    have named : before.id = lease.id := Table.key_of_find found
    rw [← named] at found
    exact others before found own (same.trans onPath)

variable {leases : LeaseRepository}

/-- A lease of the engine is replaced by one with its identifier, engine and path. -/
theorem replace {changed : Lease} (found : world.stores.leases.find lease.id = some lease)
    (own : lease.engine = engine)
    (finds : ∀ id, leases.find id = if lease.id = id then some changed
      else world.stores.leases.find id) (sameEngine : changed.engine = lease.engine)
    (samePath : changed.path = lease.path) :
    OwnOnly engine world (world.withLeases leases) where
  leases other foreign := by
    rw [LeaseWorld.withLeases, finds]
    split
    · rename_i same
      rw [← same, found]
      constructor <;> intro equal <;> cases equal
      · exact absurd (sameEngine.trans own) foreign
      · exact absurd own foreign
    · rfl
  origin other stored own' := by
    rw [LeaseWorld.withLeases, finds] at stored
    split at stored
    · rename_i same
      cases stored
      exact ⟨lease, same ▸ found, own, samePath.symm⟩
    · exact ⟨other, stored, own', rfl⟩
  secrets _ _ _ := rfl

theorem save {ttlSeconds : Int} {expiresAt : Time}
    (found : world.stores.leases.find lease.id = some lease) (own : lease.engine = engine)
    (saved : world.stores.leases.save { lease with ttlSeconds, expiresAt } = .ok leases) :
    OwnOnly engine world (world.withLeases leases) := by
  obtain ⟨valid, rfl⟩ := saveRow_ok_iff.mp saved
  exact replace found own (fun id => Table.find_put ..) rfl rfl

theorem mark {now : Time} (found : world.stores.leases.find lease.id = some lease)
    (own : lease.engine = engine) (marked : world.stores.leases.revoke lease.id now = .ok leases) :
    OwnOnly engine world (world.withLeases leases) := by
  refine @replace lib world engine lease leases { lease with revokedAt := some now } found own
    (fun id => ?_) rfl rfl
  rw [find_of_changeRow marked (fun _ => rfl)]
  split
  · rename_i same
    rw [← same, found, Option.map_some]
  · rfl

/-- The credentials of a lease of the engine are changed. -/
theorem withSecrets {secrets : SecretRepository}
    (found : world.stores.leases.find lease.id = some lease) (own : lease.engine = engine)
    (apart : ∀ path ≠ lease.path, secrets.SameAt world.stores.secrets path) :
    OwnOnly engine world (world.withSecrets secrets) where
  leases _ _ := Iff.rfl
  origin other found own := ⟨other, found, own, rfl⟩
  secrets path others := apart path (Ne.symm (others lease found own))

theorem renewal {α : Type} {result : Except GoError α}
    (found : world.stores.leases.find lease.id = some lease)
    (own : lease.engine = engine) (renewal : Renewal world lease result later) :
    OwnOnly engine world later := by
  cases renewal with
  | saved saved => exact save found own saved
  | @stored _ _ _ secrets _ saved stored =>
    have kept : (world.withSecrets secrets).stores.leases.find lease.id = some lease := found
    have first : OwnOnly engine world (world.withSecrets secrets) :=
      withSecrets found own fun path apart => stored.elsewhere apart
    exact first.trans (save kept own saved)

theorem revocation {now : Time} (found : world.stores.leases.find lease.id = some lease)
    (own : lease.engine = engine) (marked : world.stores.leases.revoke lease.id now = .ok leases)
    (stores : later.stores = ((world.withLeases leases).withSecrets
      (destroyLatest world.stores.secrets lease.path)).stores) : OwnOnly engine world later := by
  have kept : (world.withSecrets (destroyLatest world.stores.secrets lease.path)).stores.leases.find
      lease.id = some lease := found
  have first : OwnOnly engine world
      (world.withSecrets (destroyLatest world.stores.secrets lease.path)) :=
    withSecrets found own fun path apart => destroyLatest_elsewhere world.stores.secrets apart
  obtain ⟨foreign, origin, secrets⟩ := first.trans (mark kept own marked)
  constructor <;> rw [stores]
  · exact foreign
  · exact origin
  · exact secrets

end OwnOnly

/-! ### The SSH engine -/

section Ssh

open SshEngine Ssh

variable {Allowed : LeaseDraw → Prop} {ssh : SshEngine} {id : String}

theorem ssh_renew_own {ttlSeconds : Int} {result : Except GoError CredsResult}
    (runs : Runs Allowed (ssh.renew id ttlSeconds) world result later) :
    OwnOnly engineName world later := by
  obtain ⟨-, rfl⟩ | ⟨lease, found, own, renewal⟩ := renew_runs runs
  · exact .refl _
  · rw [← Table.key_of_find found] at found
    exact .renewal found own renewal

theorem ssh_revokeLease_own {result : Except GoError Unit}
    (runs : Runs Allowed (revokeLease id) world result later) :
    OwnOnly engineName world later := by
  obtain ⟨rfl, -⟩ | ⟨lease, now, leases, found, own, -, marked, -, rfl⟩ := revokeLease_runs runs
  · exact .refl _
  · have key : lease.id = id := Table.key_of_find found
    rw [← key] at found marked
    exact .revocation found own marked rfl

theorem ssh_renewExpiring_own {grace limit : Int} {result : Except GoError (List String)}
    (runs : Runs Allowed (ssh.renewExpiring grace limit) world result later) :
    OwnOnly engineName world later := by
  refine @renewJob_runs lib _ _ world _ (OwnOnly engineName world) _
    (fun now lease => lease.engine ≠ engineName || !lease.active now || !lease.renewable ||
      lease.expiresAt.after (now.add grace)) _ ?_ _ runs (.refl _)
  intro visited now _ _ middle later result own runs
  exact own.trans (ssh_renew_own runs)

theorem ssh_cleanupExpired_own {limit : Int}
    {result : Except GoError (List String × Option GoError)}
    (runs : Runs Allowed (cleanupExpired limit) world result later) :
    OwnOnly engineName world later := by
  refine cleanupJob_runs ?_ runs (.refl _)
  intro visited _ _ _ middle later result own runs
  exact own.trans (ssh_revokeLease_own runs)

end Ssh

/-! ### The database engine -/

section Database

open DatabaseEngine Database

variable {Allowed : LeaseDraw → Prop} {database : DatabaseEngine} {id : String}

/-- Only leases of the engine differ, and no lease has become renewable. -/
structure Confined (database : DatabaseEngine) (world later : LeaseWorld lib) : Prop where
  own : OwnOnly engineName world later
  renews : ∀ requested lease now, database.Renews later.stores requested lease now →
    database.Renews world.stores requested lease now

theorem Confined.refl (world : LeaseWorld lib) : Confined database world world :=
  ⟨.refl _, fun _ _ _ renews => renews⟩

theorem Confined.trans (first : Confined database world middle)
    (second : Confined database middle later) : Confined database world later :=
  ⟨first.own.trans second.own,
    fun _ _ _ renews => first.renews _ _ _ (second.renews _ _ _ renews)⟩

theorem Confined.renewal {result : Except GoError CredsResult}
    (found : world.stores.leases.find lease.id = some lease)
    (own : lease.engine = engineName) (renewal : Renewal world lease result later)
    (readable : database.Readable world.stores.secrets lease.path) :
    Confined database world later := by
  refine ⟨.renewal found own renewal, ?_⟩
  rintro requested other now ⟨active, renewable, named, latest, data, read, opened⟩
  cases renewal with
  | saved => exact ⟨active, renewable, named, latest, data, read, opened⟩
  | stored _ stored =>
    refine ⟨active, renewable, named, ?_⟩
    by_cases same : other.path = lease.path
    · rw [same]
      exact readable
    · exact ⟨latest, data, (stored.elsewhere same).getLatest .sorted ▸ read, opened⟩

theorem database_renew_confined {ttlSeconds : Int} {result : Except GoError CredsResult}
    (spared : ∀ lease ∈ world.stores.leases.find id, lease.engine ≠ engineName → ∀ draw,
      Allowed draw → ¬ database.Renews world.stores ttlSeconds lease draw.env.now.utc)
    (runs : Runs Allowed (database.renew id ttlSeconds) world result later) :
    Confined database world later := by
  obtain ⟨rfl, -⟩ | ⟨lease, -, draw, found, allowed, -, renews, renewal, -⟩ := renew_runs runs
  · exact .refl _
  have own : lease.engine = engineName := by
    by_contra foreign
    exact spared lease found foreign draw allowed renews
  rw [← Table.key_of_find found] at found
  exact .renewal found own renewal renews.readable

theorem database_revokeLease_own {result : Except GoError RevokeResult}
    (own : ∀ lease, world.stores.leases.find lease.id = some lease → lease.id = id →
      lease.engine = engineName ∨ lease.revokedAt.isSome)
    (runs : Runs Allowed (database.revokeLease id) world result later) :
    OwnOnly engineName world later := by
  obtain ⟨rfl, -⟩ | ⟨lease, now, leases, found, unrevoked, marked, ended⟩ := revokeLease_runs runs
  · exact .refl _
  have key : lease.id = id := Table.key_of_find found
  rw [← key] at found marked
  have own : lease.engine = engineName := by
    obtain own | revoked := own lease found key
    · exact own
    · rw [unrevoked] at revoked
      cases revoked
  obtain ⟨_, _, -, -, -, -, rfl⟩ | ⟨-, stores, -⟩ := ended
  · exact .mark found own marked
  · exact .revocation found own marked stores

/-- The renewal job, once it has read the clock and listed the leases. -/
def visit (database : DatabaseEngine) (now : Time) (grace limit : Int)
    (leases : List Lease) : LeaseProgram (List String) :=
  renewEach (fun lease => database.renew lease.id lease.ttlSeconds)
    (fun lease => !lease.active now || !lease.renewable || lease.expiresAt.after (now.add grace))
    (if limit ≤ 0 then 50 else limit) [] leases

theorem database_visit_confined {now : Time} {grace limit : Int} {leases : List Lease}
    {result : Except GoError (List String)}
    (stored : ∀ lease ∈ leases, world.stores.leases.find lease.id = some lease)
    (spared : ∀ lease ∈ leases, lease.engine ≠ engineName → lease.active now = true →
      lease.expiresAt.after (now.add grace) = false → ∀ draw, Allowed draw →
        ¬ database.Renews world.stores lease.ttlSeconds lease draw.env.now.utc)
    (runs : Runs Allowed (visit database now grace limit leases) world result later) :
    Confined database world later := by
  refine renewEach_runs ?_ runs (.refl _)
  intro lease listed visited middle later result confined runs
  refine confined.trans (database_renew_confined (fun current found foreign => ?_) runs)
  -- a lease of another engine is still as it was when the job began
  have named : current.id = lease.id := Table.key_of_find found
  have before := (confined.own.leases current foreign).mp (named ▸ found)
  rw [named, stored lease listed] at before
  cases before
  simp only [Bool.or_eq_false_iff, Bool.not_eq_false'] at visited
  exact fun draw allowed renews => spared lease listed foreign visited.1.1 visited.2 draw allowed
    (confined.renews _ _ _ renews)

theorem database_cleanupExpired_own {limit : Int}
    {result : Except GoError (List String × Option GoError)}
    (runs : Runs Allowed (database.cleanupExpired limit) world result later) :
    OwnOnly engineName world later := by
  refine cleanupJob_runs ?_ runs (.refl _)
  intro visited origin _ visits middle later result own runs
  refine own.trans (database_revokeLease_own (fun lease found named => .inl ?_) runs)
  by_contra foreign
  have stored := (own.leases lease foreign).mp found
  rw [named, origin] at stored
  cases stored
  exact foreign (by simpa using visits)

end Database

/-! ### Calls -/

/-- The clock reads `now` at first, and nothing earlier afterwards. -/
structure Reads (now : Time) (draws : Nat → LeaseDraw) : Prop where
  first : (draws 0).env.now = now
  onwards : ∀ place, now.instant ≤ (draws place).env.now.instant

/-- From `now` on, the database engine does not renew the lease. -/
def Spares (database : DatabaseEngine) (stores : LeaseStores lib) (now : Time) (requested : Int)
    (lease : Lease) : Prop :=
  ∀ reading : Time, now.instant ≤ reading.instant →
    ¬ database.Renews stores requested lease reading.utc

namespace LeaseCall

/-- The engine that a call is made to. -/
def engine? : LeaseCall → Option String
  | databaseRenew .. | databaseRenewExpiring .. | databaseRevokeLease _
  | databaseCleanupExpired _ => some Database.engineName
  | sshRenew .. | sshRenewExpiring .. | sshRevokeLease _ | sshCleanupExpired _ =>
    some Ssh.engineName
  | _ => none

/-- The call reaches no lease of another engine: a renewal none that the database engine
would renew, the renewal job none of these that is active and within the grace period, and
a revocation none that is not revoked. -/
def Apart (database : DatabaseEngine) (stores : LeaseStores lib) (now : Time) : LeaseCall → Prop
  | databaseRenew id ttlSeconds => ∀ lease ∈ stores.leases.find id,
    lease.engine ≠ Database.engineName → Spares database stores now ttlSeconds lease
  | databaseRenewExpiring grace _ => ∀ lease, stores.leases.find lease.id = some lease →
    lease.engine ≠ Database.engineName → lease.active now.utc = true →
    lease.expiresAt.after (now.utc.add grace) = false →
      Spares database stores now lease.ttlSeconds lease
  | databaseRevokeLease id => ∀ lease ∈ stores.leases.find id,
    lease.engine ≠ Database.engineName → lease.revokedAt.isSome
  | _ => True

end LeaseCall

def LeaseNode.after (node : LeaseNode) (call : LeaseCall) (draws : Nat → LeaseDraw)
    (world : LeaseWorld lib) : LeaseWorld lib :=
  ((node.program call).execute draws world).2

theorem own_of_apart {node : LeaseNode} {call : LeaseCall} {now : Time}
    (apart : call.Apart node.database world.stores now) {draws : Nat → LeaseDraw}
    (reads : Reads now draws) :
    ∀ engine ∈ call.engine?, OwnOnly engine world (node.after call draws world) := by
  obtain ⟨rfl, onwards⟩ := reads
  intro engine called
  have runs := @runs_execute lib _ (fun draw => (draws 0).env.now.instant ≤ draw.env.now.instant)
    (node.program call) draws onwards world
  cases call with
  | databaseRenew id ttlSeconds =>
    cases called
    exact (database_renew_confined (fun lease found foreign draw => apart lease found foreign _)
      runs).own
  | databaseRenewExpiring grace limit =>
    cases called
    -- the job reads the clock and lists the leases, then it visits them
    have runs := @runs_execute lib _ (fun draw => (draws 0).env.now.instant ≤ draw.env.now.instant)
      (visit node.database (draws 0).env.now.utc grace limit
        (world.stores.leases.list (draws 1).env.range))
      (fun place => draws (place + 2)) (fun place => onwards _) world
    exact (database_visit_confined (fun lease listed => mem_listBy.mp listed)
      (fun lease listed foreign active within draw =>
        apart lease (mem_listBy.mp listed) foreign active within _) runs).own
  | databaseRevokeLease id =>
    cases called
    refine database_revokeLease_own (fun lease found named => ?_) runs
    rw [named] at found
    exact or_iff_not_imp_left.mpr (apart lease found)
  | databaseCleanupExpired limit =>
    cases called
    exact database_cleanupExpired_own runs
  | sshRenew id ttlSeconds =>
    cases called
    exact ssh_renew_own runs
  | sshRenewExpiring grace limit =>
    cases called
    exact ssh_renewExpiring_own runs
  | sshRevokeLease id =>
    cases called
    exact ssh_revokeLease_own runs
  | sshCleanupExpired limit =>
    cases called
    exact ssh_cleanupExpired_own runs
  | renew | revoke | bulkRevoke | revokePrefix | tidy | revokeByTokenID => cases called

/-! ### Leases that are reached -/

section Reached

open DatabaseEngine

variable {database : DatabaseEngine} {now : Time} {requested : Int}

theorem active_iff : lease.active now = true ↔
    lease.revokedAt = none ∧ now.instant < lease.expiresAt.instant := by
  simp [Lease.active, Time.before]

theorem dvd_seconds (count : Int) : 512 ∣ seconds count := by
  unfold seconds wrap64 nanosecondsPerSecond
  rw [Int.bmod_def]
  split <;> omega

theorem validate_expiresAt {expiresAt : Time} (valid : lease.validate = .ok ())
    (nonzero : expiresAt.isZero = false) : ({ lease with expiresAt }).validate = .ok () := by
  unfold Lease.validate at valid ⊢
  split_ifs at valid ⊢ <;> simp_all

/-- A lease that is renewed with the times that it has is renewed with others shortly
after. -/
theorem exists_change {stores : LeaseStores lib} {role : DatabaseRole}
    (named : stores.databaseRoles.find lease.roleName = some role)
    (renews : database.Renews stores requested lease now.utc) :
    ∃ reading : Time, now.instant ≤ reading.instant ∧
      database.Renews stores requested lease reading.utc ∧
      renewedAt role requested lease reading.utc ≠ lease := by
  by_cases same : renewedAt role requested lease now.utc = lease
  · obtain ⟨active, renewable, ⟨_, named', valid⟩, readable⟩ := renews
    cases named.symm.trans named'
    have expires : now.instant + seconds _ = lease.expiresAt.instant :=
      congrArg (fun lease => lease.expiresAt.instant) same
    obtain ⟨unrevoked, before⟩ := active_iff.mp active
    change now.instant < lease.expiresAt.instant at before
    have whole := dvd_seconds
      ((LeaseTuning.fromDatabaseRole role).resolveRenewTTL requested lease.ttlSeconds now.utc)
    -- the new expiry must not be the zero time
    obtain ⟨delay, positive, short, nonzero⟩ : ∃ delay : Int, 0 < delay ∧ delay ≤ 2 ∧
        lease.expiresAt.instant + delay ≠ 0 := by
      by_cases zero : lease.expiresAt.instant = -1
      · exact ⟨2, by omega⟩
      · exact ⟨1, by omega⟩
    have shifted : renewedAt role requested lease (now.add delay).utc =
        { renewedAt role requested lease now.utc with
          expiresAt := (now.add delay).utc.add (seconds
            ((LeaseTuning.fromDatabaseRole role).resolveRenewTTL requested lease.ttlSeconds
              now.utc)) } := by
      simp only [renewedAt, LeaseTuning.resolveRenewTTL_eq]
    refine ⟨now.add delay, ?_, ⟨?_, renewable, ⟨role, named, ?_⟩, readable⟩, ?_⟩
    · simp only [Time.add]
      omega
    · refine active_iff.mpr ⟨unrevoked, ?_⟩
      change now.instant + delay < lease.expiresAt.instant
      omega
    · rw [shifted]
      refine validate_expiresAt valid (decide_eq_false ?_)
      change now.instant + delay + seconds _ ≠ 0
      omega
    · rw [shifted]
      intro unchanged
      have again : now.instant + delay + seconds _ = lease.expiresAt.instant :=
        congrArg (fun lease => lease.expiresAt.instant) unchanged
      omega
  · exact ⟨now, le_rfl, renews, same⟩

/-- The draw of an operation when the clock reads that time. -/
def drawOn (clock : Time) : LeaseDraw := ⟨{ Env.sample 0 with now := clock }, .sample, .ok ()⟩

/-- If the clock reads such a time at every operation, the lease does not stay as it is. -/
theorem exists_touch {reading : Time} (found : world.stores.leases.find lease.id = some lease)
    (renews : database.Renews world.stores requested lease reading.utc) :
    ∃ clock : Time, reading.instant ≤ clock.instant ∧
      ((database.renew lease.id requested).execute
        (fun _ => drawOn clock) world).2.stores.leases.find
        lease.id ≠ some lease := by
  obtain ⟨role, named, -⟩ := renews.named
  obtain ⟨clock, later, renews, changes⟩ := exists_change named renews
  refine ⟨clock, later, ?_⟩
  obtain ⟨-, -, refused⟩ | ⟨_, _, _, found', rfl, named', -, -, kept⟩ :=
    renew_runs (@runs_execute lib _ (· = drawOn clock) (database.renew lease.id requested)
      (fun _ => drawOn clock) (fun _ => rfl) world)
  · obtain ⟨_, rfl, fails⟩ := refused lease found
    exact absurd renews fails
  · cases found.symm.trans found'
    cases named.symm.trans named'
    rw [kept]
    exact fun same => changes (Option.some.inj same)

/-- Once the lease has expired, its renewal fails and changes nothing. -/
theorem exists_idle (id : String) (world : LeaseWorld lib) :
    ∃ err, Runs (fun draw => now.instant ≤ draw.env.now.instant) (database.renew id requested) world
      (.error err) world := by
  obtain ⟨clock, onwards, expired⟩ : ∃ clock : Time, now.instant ≤ clock.instant ∧
      ∀ lease ∈ world.stores.leases.find id, lease.expiresAt.instant ≤ clock.instant := by
    cases found : world.stores.leases.find id with
    | none => exact ⟨now, le_rfl, by simp⟩
    | some lease =>
      exact ⟨⟨max now.instant lease.expiresAt.instant, 0⟩, le_max_left _ _, by simp⟩
  obtain ⟨same, ⟨err, failed⟩, -⟩ | ⟨lease, _, _, found, rfl, -, renews, -⟩ :=
    renew_runs (@runs_execute lib _ (· = drawOn clock) (database.renew id requested)
      (fun _ => drawOn clock) (fun _ => rfl) world)
  · have runs := @runs_execute lib _ (fun draw => now.instant ≤ draw.env.now.instant)
      (database.renew id requested) (fun _ => drawOn clock) (fun _ => onwards) world
    rw [failed, same] at runs
    exact ⟨err, runs⟩
  · have unexpired : clock.instant < lease.expiresAt.instant := (active_iff.mp renews.active).2
    have := expired lease found
    omega

theorem renewEach_idle {renew : Lease → LeaseProgram CredsResult} {skips : Lease → Bool}
    {limit : Int} {Allowed : LeaseDraw → Prop}
    (idle : ∀ lease, ∃ err, Runs Allowed (renew lease) world (.error err) world)
    (leases : List Lease) (renewed : List String) :
    ∃ result, Runs Allowed (renewEach renew skips limit renewed leases) world result world := by
  induction leases with
  | nil => exact ⟨_, Fallible.runs_pure.mpr ⟨rfl, rfl⟩⟩
  | cons lease leases ih =>
    unfold renewEach
    split
    · exact ⟨_, Fallible.runs_pure.mpr ⟨rfl, rfl⟩⟩
    split
    · exact ih
    obtain ⟨err, failed⟩ := idle lease
    obtain ⟨result, rest⟩ := ih
    exact ⟨result, Fallible.runs_outcome_bind.mpr ⟨.error err, world, failed, rest⟩⟩

/-- The job may fail to renew all leases but one. -/
theorem renewEach_visits {renew : Lease → LeaseProgram CredsResult} {skips : Lease → Bool}
    {limit : Int} {Allowed : LeaseDraw → Prop} {leases : List Lease} (listed : lease ∈ leases)
    (visited : skips lease = false) (positive : 0 < limit) {ended : Except GoError CredsResult}
    (renewing : Runs Allowed (renew lease) world ended later)
    (idle : ∀ (world : LeaseWorld lib) lease, ∃ err,
      Runs Allowed (renew lease) world (.error err) world) :
    ∃ result, Runs Allowed (renewEach renew skips limit [] leases) world result later := by
  induction leases with
  | nil => cases listed
  | cons first leases ih =>
    unfold renewEach
    rw [if_neg (by simpa using positive)]
    obtain rfl | inside := List.mem_cons.mp listed
    · rw [visited, if_neg Bool.false_ne_true]
      cases ended with
      | error err =>
        obtain ⟨result, rest⟩ := renewEach_idle (idle later) leases []
        exact ⟨result, Fallible.runs_outcome_bind.mpr ⟨_, _, renewing, rest⟩⟩
      | ok value =>
        obtain ⟨result, rest⟩ := renewEach_idle (idle later) leases ([] ++ [lease.id])
        exact ⟨result, Fallible.runs_outcome_bind.mpr ⟨_, _, renewing, rest⟩⟩
    obtain ⟨result, rest⟩ := ih inside
    split
    · exact ⟨result, rest⟩
    obtain ⟨err, failed⟩ := idle world first
    exact ⟨result, Fallible.runs_outcome_bind.mpr ⟨_, _, failed, rest⟩⟩

/-- The first operation draws on its own. -/
def drawFirst (draw : LeaseDraw) (draws : Nat → LeaseDraw) : Nat → LeaseDraw
  | 0 => draw
  | place + 1 => draws place

theorem reads_drawFirst {draws : Nat → LeaseDraw}
    (onwards : ∀ place, now.instant ≤ (draws place).env.now.instant) :
    Reads now (drawFirst (drawOn now) draws) := by
  refine ⟨rfl, fun place => ?_⟩
  cases place with
  | zero => exact le_rfl
  | succ place => exact onwards place

theorem apart_of_own {node : LeaseNode} {call : LeaseCall}
    (own : ∀ engine ∈ call.engine?, ∀ draws, Reads now draws →
      OwnOnly engine world (node.after call draws world)) :
    call.Apart node.database world.stores now := by
  cases call with
  | databaseRenew id ttlSeconds =>
    intro lease found foreign reading later renews
    obtain rfl : lease.id = id := Table.key_of_find found
    obtain ⟨clock, after, touched⟩ := exists_touch found renews
    -- the first operation does not read the clock
    have kept := own _ rfl _ (@reads_drawFirst now (fun _ => drawOn clock) fun _ =>
      later.trans after)
    exact touched ((kept.leases lease foreign).mpr found)
  | databaseRenewExpiring grace limit =>
    intro lease found foreign active within reading later renews
    obtain ⟨clock, after, touched⟩ := exists_touch found renews
    have onwards := later.trans after
    obtain ⟨result, runs⟩ : ∃ result, Runs (fun draw => now.instant ≤ draw.env.now.instant)
        (visit node.database now.utc grace limit (world.stores.leases.list .sorted)) world result
        ((node.database.renew lease.id lease.ttlSeconds).execute (fun _ => drawOn clock) world).2 :=
      renewEach_visits (mem_listBy.mpr found) (by simp [active, within, renews.renewable])
        (by split <;> omega) (runs_execute _ (fun _ => onwards) world)
        (fun world lease => exists_idle lease.id world)
    obtain ⟨draws, fit, fed⟩ := runs.exists_fed (drawOn now) (le_refl now.instant)
    have kept := own _ rfl _ (reads_drawFirst (reads_drawFirst fit).onwards)
    have ended : node.after (.databaseRenewExpiring grace limit)
        (drawFirst (drawOn now) (drawFirst (drawOn now) draws)) world = _ :=
      congrArg Prod.snd fed
    rw [ended] at kept
    exact touched ((kept.leases lease foreign).mpr found)
  | databaseRevokeLease id =>
    intro lease found foreign
    by_contra unrevoked
    have kept := own _ rfl (fun _ => drawOn now) ⟨rfl, fun _ => le_rfl⟩
    obtain rfl : lease.id = id := Table.key_of_find found
    have marked := (revokeLease_marks (@runs_execute lib _ (fun _ => True)
      (node.database.revokeLease lease.id) (fun _ => drawOn now) (fun _ => trivial) world)).1
    exact unrevoked (marked lease ((kept.leases lease foreign).mpr found))
  | _ => trivial

end Reached

/-- A call of an engine changes only leases of that engine and their credentials, whatever
the clock reads from `now` on, exactly if it reaches no lease of another engine. -/
theorem engines_touch_own_leases_iff (node : LeaseNode) (world : LeaseWorld lib) (call : LeaseCall)
    (now : Time) :
    (∀ engine ∈ call.engine?, ∀ draws, Reads now draws →
      OwnOnly engine world (node.after call draws world)) ↔
        call.Apart node.database world.stores now :=
  ⟨apart_of_own, fun apart engine called _ reads => own_of_apart apart reads engine called⟩

/-- The stores with a lease of the SSH engine whose role has the name of a database role. -/
def sharedWorld : LeaseWorld .sample where
  stores := { leasedStores with
    leases := leasedStores.leases.put {
      id := "s", path := "ssh/creds/app/s", roleName := "app", engine := "ssh", ttlSeconds := 100
      expiresAt := ⟨100 * nanosecondsPerSecond, 0⟩, renewable := true } (by decide)
    secrets := ((storeCredentials .sample .doubling .sample (.sample 2) .sample
      "ssh/creds/app/s" "s"
      100 ⟨100 * nanosecondsPerSecond, 0⟩ ∅).toOption.bind fun write =>
        (leasedCredentials.putAtomic .sorted write.secret none 0).toOption.map Prod.fst).get
      (by decide +kernel) }

/-- The background renewal of the database engine renews the lease of the SSH engine and
stores its credentials again, and its revocation revokes that lease. -/
theorem ssh_lease_touched :
    ((sharedWorld.stores.leases.find "s").any fun lease => lease.engine = "ssh" &&
      lease.expiresAt.instant = 100 * nanosecondsPerSecond && lease.revokedAt.isNone) = true ∧
    (sharedWorld.stores.secrets.find (toLex ("ssh/creds/app/s", 2))).isNone = true ∧
    (let renewed := sampleNode.after (.databaseRenewExpiring (60 * nanosecondsPerSecond) 0)
      (fun _ => drawAt 50) sharedWorld
    ((renewed.stores.leases.find "s").any fun lease =>
        lease.expiresAt.instant = 150 * nanosecondsPerSecond) = true ∧
    (renewed.stores.secrets.find (toLex ("ssh/creds/app/s", 2))).isSome = true) ∧
    (((sampleNode.after (.databaseRevokeLease "s")
      (fun _ => drawAt 50) sharedWorld).stores.leases.find
      "s").any fun lease => lease.revokedAt.isSome) = true := by
  decide +kernel

end KnxVault.Leases
