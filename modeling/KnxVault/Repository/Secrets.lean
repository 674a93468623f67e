import KnxVault.Domain.DatabaseRole
import KnxVault.Repository.Audit

/-!
# Repositories of secret versions, credential roles, leases and rotation policies

The repositories of `internal/repository/memory` for `internal/domain/secrets`.
-/

namespace KnxVault.Repository

open KnxVault.Std KnxVault.Domain

/-- The path and the version of a secret. -/
def secretKey (secret : SecretVersion) : String ×ₗ Int :=
  toLex (secret.path, secret.version)

abbrev SecretRepository := Table secretKey fun secret => secret.validate = .ok ()

namespace SecretRepository

def saveVersion (repo : SecretRepository) (secret : SecretVersion) :
    Except KNXVaultError SecretRepository :=
  match checked : secret.validate with
  | .error cause =>
    .error { code := .validation, message := "invalid secret version", cause := some cause }
  | .ok _ =>
    if (repo.find (secretKey secret)).isSome then
      failWith .validation "secret version already exists"
    else .ok (repo.put secret checked)

variable {repo : SecretRepository} {secret : SecretVersion}

/-- A valid version that is not stored yet is stored. -/
theorem saveVersion_of_ok (checked : secret.validate = .ok ())
    (absent : repo.find (secretKey secret) = none) :
    repo.saveVersion secret = .ok (repo.put secret checked) := by
  unfold saveVersion
  split
  · simp_all
  · simp [absent]

theorem saveVersion_ok_iff {later : SecretRepository} :
    repo.saveVersion secret = .ok later ↔
      ∃ checked : secret.validate = .ok (),
        repo.find (secretKey secret) = none ∧ later = repo.put secret checked := by
  unfold saveVersion
  split
  · simp_all
  · rename_i checked
    cases repo.find (secretKey secret) <;> simp [checked, eq_comm]

/-- Keep the newer of two versions; the first of equal ones. -/
def newer (latest : Option SecretVersion) (secret : SecretVersion) : Option SecretVersion :=
  match latest with
  | none => some secret
  | some kept => if kept.version < secret.version then some secret else some kept

/-- The newest version of a path that is not destroyed. -/
def latestNonDestroyed (repo : SecretRepository) (range : MapRange) (path : String) :
    Option SecretVersion :=
  ((repo.visit range).filter fun secret => secret.path = path && !secret.destroyed).foldl newer none

def getLatest (repo : SecretRepository) (range : MapRange) (path : String) :
    Except KNXVaultError SecretVersion :=
  match repo.latestNonDestroyed range path with
  | some secret => .ok secret
  | none => failWith .notFound "secret version not found"

def getVersion (repo : SecretRepository) (path : String) (version : Int) :
    Except KNXVaultError SecretVersion :=
  getRow repo "secret version not found" (toLex (path, version))

def listByPath (repo : SecretRepository) (range : MapRange) (pathPrefix : String) :
    List SecretVersion :=
  sortBy (lessBy secretKey) ((repo.visit range).filter fun secret =>
    hasPrefix secret.path pathPrefix)

/-- One more than the greatest version of a path. -/
def nextVersion (repo : SecretRepository) (range : MapRange) (path : String) : Int :=
  wrap64 (((repo.visit range).filter fun secret => secret.path = path).foldl
    (fun greatest secret => max greatest secret.version) 0 + 1)

/-- The versions of a path that are not destroyed, the oldest first. -/
def liveVersions (repo : SecretRepository) (range : MapRange) (path : String) :
    List SecretVersion :=
  sortBy (lessBy SecretVersion.version)
    ((repo.visit range).filter fun secret => secret.path = path && !secret.destroyed)

/-- Drop the oldest versions that are not destroyed until `maxVersions` remain. -/
def trimVersions (repo : SecretRepository) (range : MapRange) (path : String)
    (maxVersions : Int) : SecretRepository :=
  let versions := repo.liveVersions range path
  (versions.take (versions.length - maxVersions).toNat).foldl
    (fun kept secret => kept.remove (secretKey secret)) repo

/-- Whether the newest version of the path is the expected one. -/
def casHolds (repo : SecretRepository) (range : MapRange) (path : String) (expected : Int) :
    Bool :=
  match repo.latestNonDestroyed range path with
  | some latest => latest.version = expected
  | none => false

/-- Store a secret as the next version of its path. -/
def putAtomic (repo : SecretRepository) (range : MapRange) (secret : SecretVersion)
    (casVersion : Option Int) (maxVersions : Int) :
    Except KNXVaultError (SecretRepository × Int) := do
  if casVersion.any fun expected => !repo.casHolds range secret.path expected then
    failWith .validation "cas version mismatch"
  else
    let version := repo.nextVersion range secret.path
    let saved ← repo.saveVersion { secret with version }
    pure (if 0 < maxVersions then saved.trimVersions range secret.path maxVersions else saved,
      version)

/-! ### The visiting order does not matter -/

/-- The kept version is one of the visited ones and none is newer. -/
theorem foldl_newer {secrets : List SecretVersion} {start : Option SecretVersion}
    {latest : SecretVersion} (kept : secrets.foldl newer start = some latest) :
    (latest ∈ secrets ∨ start = some latest) ∧
      (∀ secret ∈ secrets, secret.version ≤ latest.version) ∧
      ∀ first, start = some first → first.version ≤ latest.version := by
  induction secrets generalizing start with
  | nil =>
    rw [List.foldl_nil] at kept
    simp [kept]
  | cons secret rest ih =>
    obtain ⟨source, newest, above⟩ := ih kept
    have step : ∃ first, newer start secret = some first ∧ secret.version ≤ first.version ∧
        (first = secret ∨ start = some first) ∧
        ∀ earlier, start = some earlier → earlier.version ≤ first.version := by
      unfold newer
      split
      · exact ⟨secret, rfl, le_rfl, .inl rfl, by simp⟩
      · rename_i earlier
        split
        · exact ⟨secret, rfl, le_rfl, .inl rfl, by rintro _ ⟨⟩; omega⟩
        · exact ⟨earlier, rfl, by omega, .inr rfl, by rintro _ ⟨⟩; exact le_rfl⟩
    obtain ⟨first, stepped, covers, origin, grows⟩ := step
    refine ⟨?_, ?_, fun earlier from_ => (grows earlier from_).trans (above first stepped)⟩
    · rcases source with listed | same
      · exact .inl (List.mem_cons_of_mem _ listed)
      · rw [stepped] at same
        cases same
        rcases origin with rfl | earlier
        · exact .inl List.mem_cons_self
        · exact .inr earlier
    · intro other listed
      rcases List.mem_cons.mp listed with rfl | later
      · exact covers.trans (above first stepped)
      · exact newest other later

theorem foldl_newer_eq_none {secrets : List SecretVersion} {start : Option SecretVersion} :
    secrets.foldl newer start = none ↔ secrets = [] ∧ start = none := by
  induction secrets generalizing start with
  | nil => simp
  | cons secret rest ih =>
    rw [List.foldl_cons, ih]
    unfold newer
    split
    · simp
    · split <;> simp

/-- Stored versions of one path are told apart by their number. -/
theorem eq_of_version {range : MapRange} {path : String} {keep : SecretVersion → Bool}
    {first second : SecretVersion}
    (inFirst : first ∈ (repo.visit range).filter fun secret => secret.path = path && keep secret)
    (inSecond : second ∈ (repo.visit range).filter fun secret => secret.path = path && keep secret)
    (same : first.version = second.version) : first = second := by
  simp only [List.mem_filter, Table.mem_visit, Bool.and_eq_true, decide_eq_true_eq]
    at inFirst inSecond
  have keys : secretKey first = secretKey second := by
    unfold secretKey
    rw [inFirst.2.1, inSecond.2.1, same]
  have stored := inFirst.1
  rw [keys, inSecond.1] at stored
  exact (Option.some.inj stored).symm

theorem latestNonDestroyed_range (repo : SecretRepository) (range other : MapRange)
    (path : String) :
    repo.latestNonDestroyed range path = repo.latestNonDestroyed other path := by
  have perm := (repo.perm_visit range other).filter fun secret =>
    secret.path = path && !secret.destroyed
  unfold latestNonDestroyed
  cases inFirst : ((repo.visit range).filter fun secret =>
      secret.path = path && !secret.destroyed).foldl newer none with
  | none =>
    have empty := (foldl_newer_eq_none.mp inFirst).1
    rw [empty] at perm
    rw [perm.nil_eq.symm]
    rfl
  | some first =>
    cases inSecond : ((repo.visit other).filter fun secret =>
        secret.path = path && !secret.destroyed).foldl newer none with
    | none =>
      have empty := (foldl_newer_eq_none.mp inSecond).1
      rw [empty] at perm
      rw [perm.eq_nil] at inFirst
      cases inFirst
    | some second =>
      obtain ⟨source, newest, -⟩ := foldl_newer inFirst
      obtain ⟨source', newest', -⟩ := foldl_newer inSecond
      simp only [reduceCtorEq, or_false] at source source'
      have back := perm.mem_iff.mpr source'
      exact congrArg some (eq_of_version source back
        (le_antisymm (newest' first (perm.mem_iff.mp source)) (newest second back)))

theorem getLatest_range (repo : SecretRepository) (range other : MapRange) (path : String) :
    repo.getLatest range path = repo.getLatest other path := by
  rw [getLatest, getLatest, latestNonDestroyed_range repo range other]

theorem listByPath_range (repo : SecretRepository) (range other : MapRange)
    (pathPrefix : String) :
    repo.listByPath range pathPrefix = repo.listByPath other pathPrefix := by
  refine sortBy_eq_of_perm ((repo.perm_visit range other).filter _) ?_
  intro secret visited secret' visited' same
  have stored := Table.mem_visit.mp (List.mem_of_mem_filter visited)
  have stored' := Table.mem_visit.mp (List.mem_of_mem_filter visited')
  rw [same, stored'] at stored
  exact (Option.some.inj stored).symm

theorem nextVersion_range (repo : SecretRepository) (range other : MapRange) (path : String) :
    repo.nextVersion range path = repo.nextVersion other path := by
  have perm := (repo.perm_visit range other).filter fun secret => secret.path = path
  have greatest := perm.foldl_eq' (f := fun greatest secret => max greatest secret.version)
    (fun first _ second _ greatest => max_right_comm greatest first.version second.version) 0
  unfold nextVersion
  rw [greatest]

theorem trimVersions_range (repo : SecretRepository) (range other : MapRange) (path : String)
    (maxVersions : Int) :
    repo.trimVersions range path maxVersions = repo.trimVersions other path maxVersions := by
  have versions : repo.liveVersions range path = repo.liveVersions other path :=
    sortBy_eq_of_perm ((repo.perm_visit range other).filter _)
      fun first inFirst second inSecond same => eq_of_version inFirst inSecond same
  unfold trimVersions
  rw [versions]

theorem putAtomic_range (repo : SecretRepository) (range other : MapRange)
    (secret : SecretVersion) (casVersion : Option Int) (maxVersions : Int) :
    repo.putAtomic range secret casVersion maxVersions =
      repo.putAtomic other secret casVersion maxVersions := by
  have cas : repo.casHolds range = repo.casHolds other := by
    funext path expected
    unfold casHolds
    rw [repo.latestNonDestroyed_range range other]
  simp only [putAtomic, cas, repo.nextVersion_range range other,
    fun saved : SecretRepository => saved.trimVersions_range range other]

/-- Another key for the data stays acceptable. -/
theorem validate_dekEnc {dekEnc : Bytes} (nonempty : dekEnc ≠ [])
    (valid : secret.validate = .ok ()) :
    ({ secret with dekEnc }).validate = .ok () := by
  unfold SecretVersion.validate at valid ⊢
  split_ifs at valid ⊢ <;> simp_all

theorem validate_of_accepted {path : String} {version : Int} {dekEnc : Bytes}
    (accepted : ¬ (path = "" ∨ version < 1 ∨ dekEnc = [])) (secret : SecretVersion)
    (valid : secret.validate = .ok ()) : ({ secret with dekEnc }).validate = .ok () :=
  validate_dekEnc (fun empty => accepted (.inr (.inr empty))) valid

def updateDEKEnc (repo : SecretRepository) (path : String) (version : Int) (dekEnc : Bytes) :
    Except KNXVaultError SecretRepository :=
  if rejected : path = "" ∨ version < 1 ∨ dekEnc = [] then
    failWith .validation "invalid dek update request"
  else
    changeRow repo "secret version not found" (toLex (path, version))
      (fun secret => { secret with dekEnc })
      (validate_of_accepted rejected)

def destroyVersion (repo : SecretRepository) (path : String) (version : Int) :
    Except KNXVaultError SecretRepository :=
  match repo.find (toLex (path, version)) with
  | none => failWith .notFound "secret version not found"
  | some secret =>
    if secret.destroyed then failWith .validation "secret version already destroyed"
    else changeRow repo "secret version not found" (toLex (path, version))
      (fun stored => { stored with destroyed := true }) fun _ valid => valid

end SecretRepository

/-- A stored role passes its check and has its defaults set. -/
def StoredDatabaseRole (lib : Library) (role : DatabaseRole) : Prop :=
  role.check lib MapRange.sorted = .ok () ∧ role.normalize = role

abbrev DatabaseRoleRepository (lib : Library) := Table DatabaseRole.name (StoredDatabaseRole lib)

namespace DatabaseRoleRepository

variable {lib : Library}

def save (repo : DatabaseRoleRepository lib) (range : MapRange) (role : DatabaseRole) :
    Except KNXVaultError (DatabaseRoleRepository lib) :=
  saveRow repo "invalid database role" role.normalize (role.validate lib range) fun passed =>
    ⟨(DatabaseRole.check_range lib range MapRange.sorted _).mp passed, role.normalize_normalize⟩

/-- The visiting order decides neither what is saved nor what is reported. -/
theorem save_range (repo : DatabaseRoleRepository lib) (range other : MapRange)
    (role : DatabaseRole) :
    (repo.save range role).mapError (fun err => (err.code, err.message)) =
      (repo.save other role).mapError fun err => (err.code, err.message) :=
  saveRow_alike (DatabaseRole.check_range lib range other _)

def get (repo : DatabaseRoleRepository lib) (name : String) : Except KNXVaultError DatabaseRole :=
  getRow repo "database role not found" name

def list (repo : DatabaseRoleRepository lib) (range : MapRange) : List DatabaseRole :=
  listBy DatabaseRole.name range repo

def delete (repo : DatabaseRoleRepository lib) (name : String) :
    Except KNXVaultError (DatabaseRoleRepository lib) :=
  deleteRow repo "database role not found" name

end DatabaseRoleRepository

/-- A stored role passes its check and has its defaults set. -/
def StoredSSHRole (role : SSHRole) : Prop :=
  role.check = .ok () ∧ role.normalize = role

abbrev SSHRoleRepository := Table SSHRole.name StoredSSHRole

namespace SSHRoleRepository

theorem valid_normalize (role : SSHRole) (passed : role.validate = .ok ()) :
    StoredSSHRole role.normalize :=
  ⟨passed, role.normalize_normalize⟩

def save (repo : SSHRoleRepository) (role : SSHRole) : Except KNXVaultError SSHRoleRepository :=
  saveRow repo "invalid ssh role" role.normalize role.validate (valid_normalize role)

def get (repo : SSHRoleRepository) (name : String) : Except KNXVaultError SSHRole :=
  getRow repo "ssh role not found" name

def list (repo : SSHRoleRepository) (range : MapRange) : List SSHRole :=
  listBy SSHRole.name range repo

def delete (repo : SSHRoleRepository) (name : String) : Except KNXVaultError SSHRoleRepository :=
  deleteRow repo "ssh role not found" name

end SSHRoleRepository

abbrev LeaseRepository := Table Lease.id fun lease => lease.validate = .ok ()

namespace LeaseRepository

def save (repo : LeaseRepository) (lease : Lease) : Except KNXVaultError LeaseRepository :=
  saveRow repo "invalid lease" lease lease.validate fun passed => passed

def get (repo : LeaseRepository) (id : String) : Except KNXVaultError Lease :=
  getRow repo "lease not found" id

def list (repo : LeaseRepository) (range : MapRange) : List Lease :=
  listBy Lease.id range repo

/-- Leases not revoked that expire by a time, the earliest first. -/
def listExpired (repo : LeaseRepository) (range : MapRange) (before : Time) (limit : Int) :
    List Lease :=
  limited 100 limit (sortBy (lessBy fun lease : Lease => lease.expiresAt.instant)
    ((repo.visit range).filter fun lease =>
      lease.revokedAt.isNone && !lease.expiresAt.after before))

def countActive (repo : LeaseRepository) (range : MapRange) (now : Time) : Nat :=
  (repo.visit range).countP fun lease => lease.active now

def revoke (repo : LeaseRepository) (id : String) (revokedAt : Time) :
    Except KNXVaultError LeaseRepository :=
  changeRow repo "lease not found" id (fun lease => { lease with revokedAt := some revokedAt })
    fun _ valid => valid

end LeaseRepository

abbrev RotationPolicyRepository :=
  Table RotationPolicy.path fun policy => policy.validate = .ok ()

namespace RotationPolicyRepository

def save (repo : RotationPolicyRepository) (policy : RotationPolicy) :
    Except KNXVaultError RotationPolicyRepository :=
  saveRow repo "invalid rotation policy" policy policy.validate fun passed => passed

def get (repo : RotationPolicyRepository) (path : String) :
    Except KNXVaultError RotationPolicy :=
  getRow repo "rotation policy not found" path

def list (repo : RotationPolicyRepository) (range : MapRange) : List RotationPolicy :=
  listBy RotationPolicy.path range repo

def delete (repo : RotationPolicyRepository) (path : String) :
    Except KNXVaultError RotationPolicyRepository :=
  deleteRow repo "rotation policy not found" path

end RotationPolicyRepository

end KnxVault.Repository
