import KnxVault.Leases.Executions
import KnxVault.Leases.Revocation

/-!
# Revoking the credentials of a lease

A renewal stores the credentials of a lease once more; a revocation marks the lease,
lets a managed database execute the statements of the role, and destroys the newest
version of the credentials.
-/

namespace KnxVault.Leases

open KnxVault.Std KnxVault.Domain KnxVault.Repository KnxVault.Engine LeaseProgram

variable {lib : Library}

/-! ### Revoked credentials -/

section Gone

variable {secrets : SecretRepository} {path : String}

/-- No version at the path is live. -/
def Gone (secrets : SecretRepository) (path : String) : Prop :=
  ∀ secret, ¬ secrets.Live path secret

/-- At most one version at the path is live. -/
def AtMostOneLive (secrets : SecretRepository) (path : String) : Prop :=
  ∀ secret other, secrets.Live path secret → secrets.Live path other →
    secret.version = other.version

instance : Decidable (Gone secrets path) :=
  decidable_of_iff (secrets.liveVersions .sorted path = []) (by
    simp only [List.eq_nil_iff_forall_not_mem, SecretRepository.mem_liveVersions, Gone])

instance : Decidable (AtMostOneLive secrets path) :=
  decidable_of_iff (∀ secret ∈ secrets.liveVersions .sorted path,
      ∀ other ∈ secrets.liveVersions .sorted path, secret.version = other.version) (by
    simp only [SecretRepository.mem_liveVersions, AtMostOneLive]
    exact forall_congr' fun _ => ⟨fun one other live => one live other,
      fun one live other => one other live⟩)

theorem gone_destroyLatest_iff :
    Gone (destroyLatest secrets path) path ↔ AtMostOneLive secrets path := by
  obtain ⟨same, -, none_live⟩ | ⟨latest, found, -, destroyed⟩ := destroyLatest_cases secrets path
  · rw [same]
    exact ⟨fun gone secret _ live => absurd live (gone secret), fun _ => none_live⟩
  have newest := (SecretRepository.getLatest_ok_iff.mp found).1
  constructor
  · intro gone
    -- a live version with another number would be left
    have isLatest : ∀ secret, secrets.Live path secret → secret.version = latest.version := by
      intro secret live
      by_contra differs
      exact gone secret ((SecretRepository.live_of_destroyVersion destroyed).mpr
        ⟨live, fun same => differs same.2⟩)
    exact fun secret other live live' =>
      (isLatest secret live).trans (isLatest other live').symm
  · intro one secret live
    obtain ⟨live, apart⟩ := (SecretRepository.live_of_destroyVersion destroyed).mp live
    exact apart ⟨rfl, one secret latest live newest⟩

/-- What has to hold before a lease is revoked for its credentials to be gone. -/
def Revocable (stores : LeaseStores lib) (lease : Lease) : Prop :=
  if lease.revokedAt.isSome then Gone stores.secrets lease.path
  else AtMostOneLive stores.secrets lease.path

instance (stores : LeaseStores lib) (lease : Lease) : Decidable (Revocable stores lease) :=
  inferInstanceAs (Decidable (ite _ _ _))

variable {world later : LeaseWorld lib} {id : String} {lease : Lease}

theorem database_gone_iff {Allowed : LeaseDraw → Prop} {engine : DatabaseEngine}
    (found : world.stores.leases.find id = some lease)
    {result : Except GoError DatabaseEngine.RevokeResult} (succeeds : result.isOk = true)
    (runs : Runs Allowed (engine.revokeLease id) world result later) :
    Gone later.stores.secrets lease.path ↔ Revocable world.stores lease := by
  unfold Revocable
  obtain ⟨rfl, ⟨absent, -⟩ | ⟨_, found', revoked, -⟩⟩ | ⟨_, now, leases, found', unrevoked, -,
    ⟨_, _, -, -, rfl, -⟩ | ⟨-, stores, -⟩⟩ := DatabaseEngine.revokeLease_runs runs
  · rw [found] at absent
    cases absent
  · rw [found] at found'
    cases found'
    rw [if_pos revoked]
  · cases succeeds
  · rw [found] at found'
    cases found'
    rw [unrevoked, stores]
    exact gone_destroyLatest_iff

theorem ssh_gone_iff {Allowed : LeaseDraw → Prop} (found : world.stores.leases.find id = some lease)
    {result : Except GoError Unit} (succeeds : result.isOk = true)
    (runs : Runs Allowed (SshEngine.revokeLease id) world result later) :
    Gone later.stores.secrets lease.path ↔ Revocable world.stores lease := by
  unfold Revocable
  obtain ⟨rfl, ⟨_, rfl⟩ | ⟨_, found', -, revoked, -⟩⟩ | ⟨_, now, leases, found', -, unrevoked,
    -, -, rfl⟩ := SshEngine.revokeLease_runs runs
  · cases succeeds
  · rw [found] at found'
    cases found'
    rw [if_pos revoked]
  · rw [found] at found'
    cases found'
    rw [unrevoked]
    exact gone_destroyLatest_iff

/-- When a revocation succeeds, no live version of the credentials is left if and only
if there was at most one before, and none for a lease that was already revoked. -/
theorem revoked_credentials_gone_iff (engine : DatabaseEngine) (draws : Nat → LeaseDraw)
    (world : LeaseWorld lib) (id : String) (lease : Lease)
    (found : world.stores.leases.find id = some lease) :
    (((engine.revokeLease id).execute draws world).1.isOk = true →
      (Gone ((engine.revokeLease id).execute draws world).2.stores.secrets lease.path ↔
        Revocable world.stores lease)) ∧
    (((SshEngine.revokeLease id).execute draws world).1.isOk = true →
      (Gone ((SshEngine.revokeLease id).execute draws world).2.stores.secrets lease.path ↔
        Revocable world.stores lease)) := by
  constructor
  · intro succeeds
    have runs := @runs_execute lib _ (fun _ => True) (engine.revokeLease id) draws
      (fun _ => trivial) world
    exact database_gone_iff found succeeds runs
  · intro succeeds
    have runs := @runs_execute lib _ (fun _ => True) (SshEngine.revokeLease id) draws
      (fun _ => trivial) world
    exact ssh_gone_iff found succeeds runs

def leasedWorld : LeaseWorld .sample := { stores := leasedStores }

theorem revoked_credentials_gone_issued :
    Gone ((sampleDatabase.revokeLease "l").execute
      (fun _ => drawAt 10) leasedWorld).2.stores.secrets
      "database/creds/app/l" := by
  have found : leasedWorld.stores.leases.find "l" = some _ := Table.find_put_self _ _ (by decide)
  have succeeds : ((sampleDatabase.revokeLease "l").execute (fun _ => drawAt 10)
      leasedWorld).1.isOk = true := by
    decide +kernel
  exact ((revoked_credentials_gone_iff sampleDatabase (fun _ => drawAt 10) leasedWorld "l" _
    found).1 succeeds).mpr (by decide +kernel)

/-- A lease that was renewed once: its revocation succeeds and leaves the first version. -/
theorem renewed_credentials_left :
    ((sampleDatabase.revokeLease "l").execute (fun _ => drawAt 11)
      ((sampleDatabase.renew "l" 0).execute (fun _ => drawAt 10) leasedWorld).2).1.isOk = true ∧
    (((sampleDatabase.revokeLease "l").execute (fun _ => drawAt 11)
      ((sampleDatabase.renew "l" 0).execute (fun _ => drawAt 10) leasedWorld).2
      ).2.stores.secrets.find (toLex ("database/creds/app/l", 1))).any
        (fun secret => !secret.destroyed) = true := by
  decide +kernel

/-! ### Renewed credentials -/

theorem atMostOneLive_iff :
    AtMostOneLive secrets path ↔ (secrets.liveVersions .sorted path).length ≤ 1 := by
  have sorted := secrets.liveVersions_sorted .sorted path
  unfold AtMostOneLive
  simp only [← @SecretRepository.mem_liveVersions secrets .sorted path]
  generalize secrets.liveVersions .sorted path = versions at sorted
  match versions with
  | [] => simp
  | [only] => simp
  | first :: second :: rest =>
    have apart := List.rel_of_pairwise_cons sorted List.mem_cons_self
    refine iff_of_false (fun one => ?_) (by simp)
    have same := one first second List.mem_cons_self (List.mem_cons_of_mem _ List.mem_cons_self)
    omega

/-- The lease is where it was, and so many live versions were added at its path. -/
structure Grown (world : LeaseWorld lib) (id path : String) (count : Nat)
    (later : LeaseWorld lib) : Prop where
  fits : later.stores.secrets.Fits
  kept : ∃ lease, later.stores.leases.find id = some lease ∧ lease.path = path
  live : (later.stores.secrets.liveVersions .sorted path).length =
    (world.stores.secrets.liveVersions .sorted path).length + count

variable {count : Nat}

theorem Grown.renewal {α : Type} {value : α} {middle : LeaseWorld lib}
    (grown : Grown world id path count middle) (found : middle.stores.leases.find id = some lease)
    (renewal : Renewal middle lease (.ok value) later) :
    Grown world id path (count + 1) later := by
  obtain ⟨_, kept, rfl⟩ := grown.kept
  cases found.symm.trans kept
  cases renewal with
  | @stored ttlSeconds expiresAt _ _ _ save store =>
    obtain ⟨onPath, live, put⟩ := store
    obtain ⟨valid, rfl⟩ := saveRow_ok_iff.mp save
    have versions := SecretRepository.liveVersions_putAtomic grown.fits put .sorted
    rw [if_neg (by decide), SecretRepository.liveWith, live, onPath] at versions
    refine ⟨(SecretRepository.putAtomic_puts grown.fits put).fits grown.fits,
      ⟨{ lease with ttlSeconds, expiresAt }, ?_, rfl⟩, ?_⟩
    · rw [← Table.key_of_find found]
      exact middle.stores.leases.find_put_self { lease with ttlSeconds, expiresAt } valid
    · have one := (congrArg List.length versions).trans List.length_append
      have before := grown.live
      simp only [Bool.false_eq_true, if_false, List.length_singleton] at one
      dsimp only [LeaseWorld.withSecrets]
      omega

/-- Renewals of one lease that succeed, by either engine. -/
inductive Renewed (database : DatabaseEngine) (ssh : SshEngine) (id : String)
    (world : LeaseWorld lib) : Nat → LeaseWorld lib → Prop
  | none : Renewed database ssh id world 0 world
  | database {middle later : LeaseWorld lib} {count : Nat} {ttlSeconds : Int}
      {creds : DatabaseEngine.CredsResult} (earlier : Renewed database ssh id world count middle)
      (runs : Runs (fun _ => True) (database.renew id ttlSeconds) middle (.ok creds) later) :
      Renewed database ssh id world (count + 1) later
  | ssh {middle later : LeaseWorld lib} {count : Nat} {ttlSeconds : Int}
      {creds : SshEngine.CredsResult} (earlier : Renewed database ssh id world count middle)
      (runs : Runs (fun _ => True) (ssh.renew id ttlSeconds) middle (.ok creds) later) :
      Renewed database ssh id world (count + 1) later

theorem Renewed.grown {database : DatabaseEngine} {ssh : SshEngine}
    (fits : world.stores.secrets.Fits) (found : world.stores.leases.find id = some lease)
    (renewed : Renewed database ssh id world count later) :
    Grown world id lease.path count later := by
  induction renewed with
  | none => exact ⟨fits, ⟨lease, found, rfl⟩, rfl⟩
  | database earlier runs ih =>
    obtain ⟨-, ⟨_, failed⟩, -⟩ | ⟨_, _, _, stored, -, -, -, renewal, -⟩ :=
      DatabaseEngine.renew_runs runs
    · cases failed
    · exact ih.renewal stored renewal
  | ssh earlier runs ih =>
    obtain ⟨⟨_, failed⟩, -⟩ | ⟨_, stored, -, renewal⟩ := SshEngine.renew_runs runs
    · cases failed
    · exact ih.renewal stored renewal

/-- Every renewal counts as a live version of its own when the lease is revoked. -/
theorem Renewed.atMostOneLive_iff {database : DatabaseEngine} {ssh : SshEngine}
    (fits : world.stores.secrets.Fits) (found : world.stores.leases.find id = some lease)
    (renewed : Renewed database ssh id world count later) :
    AtMostOneLive later.stores.secrets lease.path ↔
      (world.stores.secrets.liveVersions .sorted lease.path).length + count ≤ 1 := by
  rw [Leases.atMostOneLive_iff, (renewed.grown fits found).live]

end Gone

/-! ### Managed databases -/

section Managed

open DatabaseEngine

inductive RevocationCall where
  | revokeLease (id : String)
  | cleanupExpired (limit : Int)

/-- A call with what its operations take from outside. -/
structure RevocationInput where
  call : RevocationCall
  draws : Nat → LeaseDraw

def revocationStep (engine : DatabaseEngine) (world : LeaseWorld lib) (input : RevocationInput) :
    LeaseWorld lib :=
  match input.call with
  | .revokeLease id => ((engine.revokeLease id).execute input.draws world).2
  | .cleanupExpired limit => ((engine.cleanupExpired limit).execute input.draws world).2

/-- The role of the lease is managed and has statements for its revocation. -/
def Owed (stores : LeaseStores lib) (lease : Lease) : Prop :=
  ∃ role, managedRole stores lease = some role ∧ role.revocationStatements ≠ []

/-- The statements of the lease have been executed. -/
def TakenBack (engine : DatabaseEngine) (stores : LeaseStores lib) (lease : Lease)
    (world : LeaseWorld lib) : Prop :=
  ∃ now connURL, engine.statementsIn stores lease now ≠ [] ∧
    (connURL, engine.statementsIn stores lease now) ∈ world.executed

/-- Nothing keeps the statements of the lease from being executed. -/
structure Executable (engine : DatabaseEngine) (stores : LeaseStores lib) (lease : Lease)
    (Allowed : LeaseDraw → Prop) : Prop where
  readable : (engine.credentialsIn stores.secrets lease.path).1 ≠ ""
  connected : ∀ role, managedRole stores lease = some role →
    (engine.adminURLIn stores.secrets role).isOk = true
  runner : engine.hasRunner = true
  executed : ∀ draw, Allowed draw → draw.sql.isOk = true

/-- The leases that a call may revoke. -/
def RevocationCall.Touches : RevocationCall → Lease → Prop
  | revokeLease id, lease => lease.id = id
  | cleanupExpired _, lease => lease.engine = Database.engineName

/-- The call can execute the statements of every lease that it may revoke. -/
def Unhindered (engine : DatabaseEngine) (world : LeaseWorld lib) (input : RevocationInput) :
    Prop :=
  ∀ lease, world.stores.leases.find lease.id = some lease → lease.revokedAt = none →
    input.call.Touches lease → Owed world.stores lease →
    Executable engine world.stores lease fun draw => ∃ place, input.draws place = draw

/-- Leases that are not revoked have credentials of their own, and none of them are the
credentials of an administrator. -/
structure Separate (stores : LeaseStores lib) : Prop where
  leases : ∀ lease other, stores.leases.find lease.id = some lease → lease.revokedAt = none →
    stores.leases.find other.id = some other → other.revokedAt = none → lease.path = other.path →
    lease.id = other.id
  admin : ∀ lease, stores.leases.find lease.id = some lease → lease.revokedAt = none →
    ∀ role, stores.databaseRoles.find role.name = some role → role.adminCredentialsPath ≠ lease.path

/-- What revocations have left of `base`. -/
structure Remains (engine : DatabaseEngine) (base : LeaseStores lib) (world : LeaseWorld lib) :
    Prop where
  roles : world.stores.databaseRoles = base.databaseRoles
  unrevoked : ∀ lease, world.stores.leases.find lease.id = some lease → lease.revokedAt = none →
    base.leases.find lease.id = some lease ∧
      world.stores.secrets.SameAt base.secrets lease.path
  elsewhere : ∀ path, (∀ lease, base.leases.find lease.id = some lease → lease.revokedAt = none →
    lease.path ≠ path) → world.stores.secrets.SameAt base.secrets path
  owed : ∀ lease, base.leases.find lease.id = some lease → lease.revokedAt = none →
    Owed base lease → TakenBack engine base lease world ∨
      world.stores.leases.find lease.id = some lease

variable {engine : DatabaseEngine} {base : LeaseStores lib} {world later : LeaseWorld lib}
  {Allowed : LeaseDraw → Prop} {lease : Lease}

theorem Remains.refl (engine : DatabaseEngine) (world : LeaseWorld lib) :
    Remains engine world.stores world where
  roles := rfl
  unrevoked _ found _ := ⟨found, fun _ => rfl⟩
  elsewhere _ _ _ := rfl
  owed _ found _ _ := .inr found

variable {stores : LeaseStores lib}

theorem managedRole_congr (same : stores.databaseRoles = base.databaseRoles) :
    managedRole stores lease = managedRole base lease := by
  rw [managedRole, managedRole, same]

theorem owed_congr (same : stores.databaseRoles = base.databaseRoles) :
    Owed stores lease ↔ Owed base lease := by
  rw [Owed, Owed, managedRole_congr same]

theorem credentialsIn_congr {secrets other : SecretRepository} {path : String}
    (same : secrets.SameAt other path) :
    engine.credentialsIn secrets path = engine.credentialsIn other path := by
  rw [credentialsIn, credentialsIn, same.getLatest]

variable {role : DatabaseRole}

theorem adminURLIn_congr {secrets other : SecretRepository}
    (same : secrets.SameAt other role.adminCredentialsPath) :
    engine.adminURLIn secrets role = engine.adminURLIn other role := by
  rw [adminURLIn, adminURLIn, same.getLatest]

theorem statementsIn_congr (roles : stores.databaseRoles = base.databaseRoles)
    (same : stores.secrets.SameAt base.secrets lease.path) (now : Time) :
    engine.statementsIn stores lease now = engine.statementsIn base lease now := by
  rw [statementsIn, statementsIn, roles, credentialsIn_congr same]

theorem find_of_managedRole (managed : managedRole stores lease = some role) :
    stores.databaseRoles.get lease.roleName = .ok role := by
  unfold managedRole at managed
  cases found : stores.databaseRoles.get lease.roleName with
  | error err =>
    rw [found] at managed
    cases managed
  | ok stored =>
    rw [found] at managed
    rw [Option.filter_eq_some_iff] at managed
    cases managed.1
    rfl

theorem statementsIn_ne_nil_iff (managed : managedRole stores lease = some role) (now : Time) :
    engine.statementsIn stores lease now ≠ [] ↔
      (engine.credentialsIn stores.secrets lease.path).1 ≠ "" ∧ role.revocationStatements ≠ [] := by
  rw [statementsIn, find_of_managedRole managed]
  dsimp only
  by_cases blank : (engine.credentialsIn stores.secrets lease.path).1 = ""
  · simp [blank]
  · simp [blank, Database.renderStatementsForRole]

theorem TakenBack.mono {log : List (String × List String)}
    (taken : TakenBack engine stores lease world) (grows : later.executed = world.executed ++ log) :
    TakenBack engine stores lease later := by
  obtain ⟨now, connURL, nonempty, inside⟩ := taken
  refine ⟨now, connURL, nonempty, ?_⟩
  rw [grows]
  exact List.mem_append_left _ inside

variable {result : Except GoError RevokeResult}

/-- What the revocation of one lease keeps, if nothing hinders it. -/
theorem Remains.revokeLease (separate : Separate base) (remains : Remains engine base world)
    {id : String}
    (ready : ∀ lease, world.stores.leases.find lease.id = some lease → lease.revokedAt = none →
      lease.id = id → Owed world.stores lease → Executable engine world.stores lease Allowed)
    (runs : Runs Allowed (engine.revokeLease id) world result later) :
    Remains engine base later := by
  obtain ⟨rfl, -⟩ | ⟨revoked, now, leases, found, unrevoked, marked, ended⟩ :=
    revokeLease_runs runs
  · exact remains
  have named : revoked.id = id := Table.key_of_find found
  rw [← named] at found marked
  have ready := ready revoked found unrevoked named
  have finds := find_of_changeRow marked fun _ => rfl
  obtain ⟨role, err, managed, nonempty, rfl, hindered, rfl⟩ | ⟨-, stores, log⟩ := ended
  · -- a failure means that something was in the way
    have templates := (statementsIn_ne_nil_iff managed now).mp nonempty
    have executable := ready ⟨role, managed, templates.2⟩
    obtain ⟨_, unread⟩ | noRunner | ⟨draw, err, allowed, reply⟩ := hindered
    · have connected := executable.connected role managed
      rw [unread] at connected
      cases connected
    · rw [executable.runner] at noRunner
      cases noRunner
    · have executed := executable.executed draw allowed
      rw [reply] at executed
      cases executed
  obtain ⟨origin, samePath⟩ := remains.unrevoked revoked found unrevoked
  have laterLeases : later.stores.leases = leases := congrArg LeaseStores.leases stores
  have laterSecrets : later.stores.secrets = destroyLatest world.stores.secrets revoked.path :=
    congrArg LeaseStores.secrets stores
  have apart : ∀ path ≠ revoked.path, later.stores.secrets.SameAt world.stores.secrets path := by
    intro path differs
    rw [laterSecrets]
    exact destroyLatest_elsewhere world.stores.secrets differs
  refine ⟨(congrArg LeaseStores.databaseRoles stores).trans remains.roles, ?_, ?_, ?_⟩
  · intro lease stored live
    rw [laterLeases, finds] at stored
    split at stored
    · rename_i same
      rw [← same, found] at stored
      cases stored
      cases live
    · rename_i differs
      obtain ⟨origin', same⟩ := remains.unrevoked lease stored live
      refine ⟨origin', fun number => ?_⟩
      have paths : lease.path ≠ revoked.path := fun equal =>
        differs (separate.leases lease revoked origin' live origin unrevoked equal).symm
      exact (apart lease.path paths number).trans (same number)
  · intro path others number
    exact (apart path (Ne.symm (others revoked origin unrevoked)) number).trans
      (remains.elsewhere path others number)
  · intro lease origin' live owed
    obtain taken | stored := remains.owed lease origin' live owed
    · obtain ⟨same, -⟩ | ⟨connURL, grown⟩ := log
      · exact .inl (taken.mono (by rw [same, List.append_nil]))
      · exact .inl (taken.mono grown)
    by_cases same : lease.id = revoked.id
    · rw [same, found] at stored
      cases stored
      obtain ⟨role, managed, templates⟩ := (owed_congr remains.roles).mpr owed
      have executable := ready ⟨role, managed, templates⟩
      have nonempty := (statementsIn_ne_nil_iff managed now).mpr ⟨executable.readable, templates⟩
      obtain ⟨-, unmanaged | empty⟩ | ⟨connURL, grown⟩ := log
      · rw [unmanaged] at managed
        cases managed
      · exact absurd empty nonempty
      · rw [statementsIn_congr remains.roles samePath] at nonempty grown
        exact .inl ⟨now, connURL, nonempty, by rw [grown]; simp⟩
    · right
      rw [laterLeases, finds, if_neg (Ne.symm same)]
      exact stored

/-- The leases that remain keep what their revocation needs. -/
theorem Remains.executable (separate : Separate base) (remains : Remains engine base world)
    (found : world.stores.leases.find lease.id = some lease) (unrevoked : lease.revokedAt = none)
    (executable : Executable engine base lease Allowed) :
    Executable engine world.stores lease Allowed := by
  obtain ⟨origin, same⟩ := remains.unrevoked lease found unrevoked
  refine ⟨?_, fun role managed => ?_, executable.runner, executable.executed⟩
  · rw [credentialsIn_congr same]
    exact executable.readable
  · rw [managedRole_congr remains.roles] at managed
    have stored := getRow_ok_iff.mp (find_of_managedRole managed)
    rw [← Table.key_of_find stored] at stored
    rw [adminURLIn_congr (remains.elsewhere role.adminCredentialsPath ?_)]
    · exact executable.connected role managed
    · intro other found unrevoked
      exact (separate.admin other found unrevoked role stored).symm

theorem Remains.separate (separate : Separate base) (remains : Remains engine base world) :
    Separate world.stores where
  leases lease other found unrevoked found' unrevoked' :=
    separate.leases lease other (remains.unrevoked lease found unrevoked).1 unrevoked
      (remains.unrevoked other found' unrevoked').1 unrevoked'
  admin lease found unrevoked role stored := by
    rw [remains.roles] at stored
    exact separate.admin lease (remains.unrevoked lease found unrevoked).1 unrevoked role stored

/-- What a cleanup keeps at each of its revocations: what remains of the stores of the
run, and of those in which the cleanup began. -/
theorem Remains.visit {start : LeaseWorld lib} (separate : Separate base)
    (separate' : Separate start.stores)
    (ready : ∀ lease, start.stores.leases.find lease.id = some lease → lease.revokedAt = none →
      lease.engine = Database.engineName → Owed start.stores lease →
      Executable engine start.stores lease Allowed) {visited : Lease}
    (origin : start.stores.leases.find visited.id = some visited)
    (own : visited.engine = Database.engineName)
    (remains : Remains engine base world ∧ Remains engine start.stores world)
    (runs : Runs Allowed (engine.revokeLease visited.id) world result later) :
    Remains engine base later ∧ Remains engine start.stores later := by
  have ready : ∀ lease, world.stores.leases.find lease.id = some lease → lease.revokedAt = none →
      lease.id = visited.id → Owed world.stores lease →
      Executable engine world.stores lease Allowed := by
    intro lease found unrevoked named owed
    have stored := (remains.2.unrevoked lease found unrevoked).1
    rw [named, origin] at stored
    cases stored
    exact remains.2.executable separate' found unrevoked
      (ready visited origin unrevoked own ((owed_congr remains.2.roles).mp owed))
  exact ⟨remains.1.revokeLease separate ready runs, remains.2.revokeLease separate' ready runs⟩

theorem Remains.step (separate : Separate base) (remains : Remains engine base world)
    {input : RevocationInput} (unhindered : Unhindered engine world input) :
    Remains engine base (revocationStep engine world input) := by
  obtain ⟨call, draws⟩ := input
  cases call with
  | revokeLease id =>
    exact remains.revokeLease separate unhindered
      (runs_execute (engine.revokeLease id) (fun place => ⟨place, rfl⟩) world)
  | cleanupExpired limit =>
    have runs : Runs (fun draw => ∃ place, draws place = draw) (engine.cleanupExpired limit) world
        _ _ := runs_execute (engine.cleanupExpired limit) (fun place => ⟨place, rfl⟩) world
    refine And.left (@cleanupJob_runs lib _ _ world _
      (fun later => Remains engine base later ∧ Remains engine world.stores later) _ _ _ ?_ _ runs
      ⟨remains, Remains.refl engine world⟩)
    intro visited origin _ visits middle later result kept runs
    exact Remains.visit separate (remains.separate separate) unhindered origin
      (by simpa using visits) kept runs

/-- The revocation of a lease whose statements are owed executes them. -/
theorem Remains.takenBack (remains : Remains engine base later)
    (origin : base.leases.find lease.id = some lease) (unrevoked : lease.revokedAt = none)
    (owed : Owed base lease)
    (runs : Runs Allowed (engine.revokeLease lease.id) world result later) :
    TakenBack engine base lease later := by
  obtain taken | stored := remains.owed lease origin unrevoked owed
  · exact taken
  · have marked := (revokeLease_marks runs).1 lease stored
    rw [unrevoked] at marked
    cases marked

/-- The statements of the lease are still to be executed: the lease is not recorded as
revoked, its credentials are there, and the next call that revokes it executes them. -/
structure Pending (engine : DatabaseEngine) (stores : LeaseStores lib) (lease : Lease)
    (world : LeaseWorld lib) : Prop where
  unrecorded : world.stores.leases.find lease.id = some lease ∧ lease.revokedAt = none
  available : world.stores.secrets.SameAt stores.secrets lease.path
  revocation : ∀ draws, Unhindered engine world ⟨.revokeLease lease.id, draws⟩ →
    TakenBack engine stores lease (revocationStep engine world ⟨.revokeLease lease.id, draws⟩)
  cleanup : ∀ limit draws, Unhindered engine world ⟨.cleanupExpired limit, draws⟩ →
    lease.engine = Database.engineName →
    lease ∈ world.stores.leases.listExpired (draws 1).env.range (draws 0).env.now.utc limit →
    TakenBack engine stores lease (revocationStep engine world ⟨.cleanupExpired limit, draws⟩)

theorem Remains.pending (separate : Separate base) (remains : Remains engine base world)
    (unrevoked : lease.revokedAt = none) (owed : Owed base lease)
    (found : world.stores.leases.find lease.id = some lease) : Pending engine base lease world := by
  obtain ⟨origin, same⟩ := remains.unrevoked lease found unrevoked
  refine ⟨⟨found, unrevoked⟩, same, fun draws unhindered => ?_,
    fun limit draws unhindered own listed => ?_⟩
  · exact (remains.step separate unhindered).takenBack origin unrevoked owed
      (@runs_execute lib _ (fun _ => True) (engine.revokeLease lease.id) draws
        (fun _ => trivial) world)
  · have separate' := remains.separate separate
    have stored : ∀ other ∈ world.stores.leases.listExpired (draws 1).env.range
        (draws 0).env.now.utc limit, world.stores.leases.find other.id = some other :=
      fun other listed => Table.mem_visit.mp
        (List.mem_of_mem_filter (mem_sortBy.mp (List.mem_of_mem_take listed)))
    simp only [revocationStep]
    have runs := @runs_execute lib _ (fun draw => ∃ place, draws place = draw)
      (revokeEach Lease.id (fun lease => engine.revokeLease lease.id)
        (fun lease => lease.engine ≠ Database.engineName) ([], none)
        (world.stores.leases.listExpired (draws 1).env.range (draws 0).env.now.utc limit))
      (fun place => draws (place + 2)) (fun place => ⟨place + 2, rfl⟩) world
    refine @revokeEach_reaches lib _ _ world _
      (fun later => Remains engine base later ∧ Remains engine world.stores later) _ _ _ _
      (TakenBack engine base lease) _ ?_ ?_ lease listed (by simpa using own) ?_ _ _ runs
      ⟨remains, Remains.refl engine world⟩
    · intro other listed visits middle later result kept runs
      exact Remains.visit separate separate' unhindered (stored other listed)
        (by simpa using visits) kept runs
    · intro other _ _ middle later result taken runs
      obtain ⟨log, grown⟩ := (revokeLease_marks runs).2
      exact taken.mono grown
    · intro middle later result kept runs
      have left := Remains.visit separate separate' unhindered found own kept runs
      exact left.1.takenBack origin unrevoked owed runs

/-- In every run in which nothing hinders the statements of the leases that its calls
revoke: a lease of a managed role is recorded as revoked only if its statements were
executed, and until then the next call that revokes it executes them. -/
theorem managed_revocation_kept (engine : DatabaseEngine) (stores : LeaseStores lib)
    (inputs : List RevocationInput) (separate : Separate stores)
    (unhindered : AllSteps (revocationStep engine) (Unhindered engine) { stores } inputs)
    (lease : Lease) (found : stores.leases.find lease.id = some lease)
    (unrevoked : lease.revokedAt = none) (owed : Owed stores lease) :
    TakenBack engine stores lease (run (revocationStep engine) { stores } inputs) ∨
      Pending engine stores lease (run (revocationStep engine) { stores } inputs) := by
  have remains : Remains engine stores (run (revocationStep engine) { stores } inputs) :=
    unhindered.invariant (fun _ _ ready remains => remains.step separate ready)
      (Remains.refl engine { stores })
  obtain taken | stored := remains.owed lease found unrevoked owed
  · exact .inl taken
  · exact .inr (remains.pending separate unrevoked owed stored)

/-- The sample engine on secrets that hold a user and a connection. -/
def managedDatabase : DatabaseEngine :=
  { sampleDatabase with
    crypto := { sampleCrypto with
      unmarshal _ := .ok (textFields [("username", "app-user"), ("connection_url", "pg")]) } }

def managedLease : Lease := {
  id := "l", path := "database/creds/app/l", roleName := "app", engine := "database"
  ttlSeconds := 100, expiresAt := ⟨100 * nanosecondsPerSecond, 0⟩, renewable := true }

def managedStores : LeaseStores .sample where
  leases := Table.empty.put managedLease (by decide)
  databaseRoles := (DatabaseRoleRepository.save .empty .sorted {
    name := "app", ttlSeconds := 100, usernamePrefix := "v-"
    executionMode := "managed", adminCredentialsPath := "db/admin"
    creationStatements := ["CREATE ROLE \x7b\x7busername\x7d\x7d"]
    revocationStatements := ["DROP ROLE \x7b\x7busername\x7d\x7d"] }).toOption.get
      (by decide +kernel)
  sshRoles := .empty
  secrets := ((storeCredentials .sample .doubling .sample (.sample 2) .sample "db/admin" "a" 100
    ⟨100 * nanosecondsPerSecond, 0⟩ ∅).toOption.bind fun write =>
      (leasedCredentials.putAtomic .sorted write.secret none 0).toOption.map Prod.fst).get
    (by decide +kernel)

theorem managedStores_only {lease : Lease}
    (found : managedStores.leases.find lease.id = some lease) : lease = managedLease := by
  rw [managedStores, Table.find_put] at found
  split at found
  · exact (Option.some.inj found).symm
  · rw [Table.find_empty] at found
    cases found

theorem managedStores_separate : Separate managedStores where
  leases lease other found _ found' _ _ := by
    rw [managedStores_only found, managedStores_only found']
  admin lease found _ role stored := by
    have listed := (@Table.mem_visit _ _ _ _ _ _ _ _ MapRange.sorted _).mpr stored
    have apart : ∀ role ∈ managedStores.databaseRoles.visit .sorted,
        role.adminCredentialsPath ≠ managedLease.path := by
      decide +kernel
    rw [managedStores_only found]
    exact apart role listed

/-- The databases execute what they are sent. -/
def revokeOnce : RevocationInput := ⟨.revokeLease "l", fun _ => drawAt 10⟩

theorem managed_revocation_kept_once :
    TakenBack managedDatabase managedStores managedLease
      (run (revocationStep managedDatabase) { stores := managedStores } [revokeOnce]) ∨
    Pending managedDatabase managedStores managedLease
      (run (revocationStep managedDatabase) { stores := managedStores } [revokeOnce]) := by
  have owed : Owed managedStores managedLease := by
    obtain ⟨role, managed, templates⟩ := (Option.any_eq_true _ _).mp
      (show (managedRole managedStores managedLease).any
        (fun role => role.revocationStatements ≠ []) = true by decide +kernel)
    exact ⟨role, managed, by simpa using templates⟩
  refine managed_revocation_kept managedDatabase managedStores [revokeOnce] managedStores_separate
    ⟨?_, trivial⟩ managedLease (Table.find_put_self _ _ (by decide)) rfl owed
  intro lease found _ _ _
  rw [managedStores_only found]
  refine ⟨by decide +kernel, fun role managed => ?_, rfl, ?_⟩
  · have connected : (managedRole managedStores managedLease).all (fun role =>
        (managedDatabase.adminURLIn managedStores.secrets role).isOk) = true := by
      decide +kernel
    rw [managed] at connected
    exact connected
  · rintro draw ⟨place, rfl⟩
    rfl

/-- The database fails to execute the statements. -/
def failingRevocation : RevocationInput :=
  ⟨.revokeLease "l", fun _ => { drawAt 10 with sql := .error { text := "connection refused" } }⟩

/-- A failed revocation leaves the lease revoked and its statements unexecuted; the next
one succeeds and does not execute them either. -/
theorem managed_revocation_lost :
    ((revocationStep managedDatabase { stores := managedStores } failingRevocation
      ).stores.leases.find "l").any (fun lease => lease.revokedAt.isSome) = true ∧
    (revocationStep managedDatabase { stores := managedStores } failingRevocation).executed = [] ∧
    ((managedDatabase.revokeLease "l").execute (fun _ => drawAt 11)
      (revocationStep managedDatabase { stores := managedStores } failingRevocation)).1.isOk =
        true ∧
    (run (revocationStep managedDatabase) { stores := managedStores }
      [failingRevocation, revokeOnce]).executed = [] := by
  decide +kernel

end Managed

end KnxVault.Leases
