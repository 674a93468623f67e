import KnxVault.Repository.History
import KnxVault.Std.Relate

/-!
# What a call of the secret store depends on

Two stores may hold the same versions of some paths and differ elsewhere. A call
at one of these paths answers alike on both and leaves them alike.
-/

namespace KnxVault.Repository

open KnxVault.Std KnxVault.Domain

namespace SecretRepository

/-- The stores hold the same versions of the path. -/
def SameAt (repo other : SecretRepository) (path : String) : Prop :=
  ∀ number, repo.find (toLex (path, number)) = other.find (toLex (path, number))

/-- The stores hold the same versions of the paths in `Region`. -/
def AlikeOn (Region : String → Prop) (repo other : SecretRepository) : Prop :=
  ∀ path, Region path → SameAt repo other path

variable {repo other : SecretRepository} {path : String} {Region : String → Prop}

theorem AlikeOn.refl (repo : SecretRepository) : AlikeOn Region repo repo :=
  fun _ _ _ => rfl

/-- Stores that agree at a path after a change there, and keep the other paths. -/
theorem AlikeOn.change {later later' : SecretRepository} (alike : AlikeOn Region repo other)
    (here : SameAt later later' path)
    (apart : ∀ elsewhere ≠ path, SameAt later repo elsewhere)
    (apart' : ∀ elsewhere ≠ path, SameAt later' other elsewhere) :
    AlikeOn Region later later' := by
  intro wanted inside number
  by_cases same : wanted = path
  · rw [same]
    exact here number
  · rw [apart wanted same number, apart' wanted same number]
    exact alike wanted inside number

variable {secret : SecretVersion}

theorem SameAt.stored (same : SameAt repo other path) (onPath : secret.path = path) :
    repo.find (secretKey secret) = other.find (secretKey secret) := by
  rw [secretKey, onPath]
  exact same secret.version

theorem SameAt.live (same : SameAt repo other path) (secret : SecretVersion) :
    repo.Live path secret ↔ other.Live path secret := by
  unfold Live
  constructor <;> rintro ⟨found, onPath, live⟩
  · exact ⟨(same.stored onPath).symm.trans found, onPath, live⟩
  · exact ⟨(same.stored onPath).trans found, onPath, live⟩

theorem SameAt.latestNonDestroyed (same : SameAt repo other path) (range : MapRange) :
    repo.latestNonDestroyed range path = other.latestNonDestroyed range path := by
  refine Option.ext fun secret => ?_
  simp only [latestNonDestroyed_eq_some, same.live]

theorem SameAt.newestVersion (same : SameAt repo other path) :
    repo.newestVersion path = other.newestVersion path := by
  have le : ∀ {repo other : SecretRepository}, SameAt repo other path →
      repo.newestVersion path ≤ other.newestVersion path := by
    intro repo other same
    obtain ⟨nonneg, covers, -⟩ := other.newestVersion_spec path
    obtain ⟨-, -, below⟩ := repo.newestVersion_spec path
    refine Int.lt_add_one_iff.mp (below _ (by omega) fun secret found onPath => ?_)
    have := covers secret ((same.stored onPath).symm.trans found) onPath
    omega
  exact le_antisymm (le same) (le fun number => (same number).symm)

theorem SameAt.getLatest (same : SameAt repo other path) (range : MapRange) :
    repo.getLatest range path = other.getLatest range path := by
  rw [SecretRepository.getLatest, SecretRepository.getLatest, same.latestNonDestroyed]

theorem SameAt.getVersion (same : SameAt repo other path) (version : Int) :
    repo.getVersion path version = other.getVersion path version := by
  rw [SecretRepository.getVersion, SecretRepository.getVersion, getRow, getRow, same version]

theorem SameAt.casHolds (same : SameAt repo other path) (range : MapRange) (expected : Int) :
    repo.casHolds range path expected = other.casHolds range path expected := by
  rw [SecretRepository.casHolds, SecretRepository.casHolds, same.latestNonDestroyed]

theorem SameAt.liveVersions (same : SameAt repo other path) (range : MapRange) :
    repo.liveVersions range path = other.liveVersions range path :=
  liveVersions_eq range (other.liveVersions_sorted range path) fun secret =>
    mem_liveVersions.trans (same.live secret).symm

theorem SameAt.nextVersion (same : SameAt repo other path) (range : MapRange) :
    repo.nextVersion range path = other.nextVersion range path := by
  have perm : ((repo.visit range).filter fun secret => secret.path = path).Perm
      ((other.visit range).filter fun secret => secret.path = path) := by
    refine (List.perm_ext_iff_of_nodup ((repo.nodup_visit range).of_map.filter _)
      ((other.nodup_visit range).of_map.filter _)).mpr fun secret => ?_
    simp only [List.mem_filter, Table.mem_visit, decide_eq_true_eq]
    refine and_congr_left fun onPath => ?_
    rw [same.stored onPath]
  have greatest := perm.foldl_eq' (f := fun greatest secret => max greatest secret.version)
    (fun first _ second _ greatest => max_right_comm greatest first.version second.version) 0
  rw [SecretRepository.nextVersion, SecretRepository.nextVersion, greatest]

theorem SameAt.put (same : SameAt repo other path) (valid : secret.validate = .ok ()) :
    SameAt (Table.put repo secret valid) (Table.put other secret valid) path := by
  intro number
  rw [Table.find_put, Table.find_put, same number]

theorem SameAt.trimVersions (same : SameAt repo other path) (range : MapRange)
    (maxVersions : Int) :
    SameAt (repo.trimVersions range path maxVersions) (other.trimVersions range path maxVersions)
      path := by
  intro number
  unfold SecretRepository.trimVersions
  rw [Table.find_foldl_remove, Table.find_foldl_remove, same.liveVersions, same number]

theorem saveVersion_agree (same : SameAt repo other secret.path) :
    Agree (fun saved saved' => SameAt saved saved' secret.path) (repo.saveVersion secret)
      (other.saveVersion secret) := by
  unfold saveVersion
  split
  · exact .error _
  · rename_i checked
    rw [same.stored rfl]
    split
    · exact .error _
    · exact .ok (same.put checked)

/-- A put answers alike on stores that agree at its path. -/
theorem putAtomic_agree (alike : AlikeOn Region repo other) (same : SameAt repo other secret.path)
    (range : MapRange) (casVersion : Option Int) (maxVersions : Int) :
    Agree (fun result result' => AlikeOn Region result.1 result'.1 ∧ result.2 = result'.2)
      (repo.putAtomic range secret casVersion maxVersions)
      (other.putAtomic range secret casVersion maxVersions) := by
  have result : Agree (fun result result' => SameAt result.1 result'.1 secret.path ∧
      result.2 = result'.2) (repo.putAtomic range secret casVersion maxVersions)
      (other.putAtomic range secret casVersion maxVersions) := by
    unfold putAtomic
    simp only [same.casHolds, same.nextVersion]
    split
    · exact .error _
    · refine (@saveVersion_agree repo other { secret with
        version := other.nextVersion range secret.path } same).bind fun saved saved' same => ?_
      refine .ok ⟨?_, rfl⟩
      dsimp only
      split
      · exact same.trimVersions range maxVersions
      · exact same
  obtain ⟨err, failed, failed'⟩ | ⟨result, result', stored, stored', here, version⟩ := result.cases
  · rw [failed, failed']
    exact .error err
  · rw [stored, stored']
    refine .ok ⟨alike.change here (fun _ differ => find_putAtomic_elsewhere stored differ)
      (fun _ differ => find_putAtomic_elsewhere stored' differ), version⟩

theorem find_destroyVersion_elsewhere {later : SecretRepository} {version : Int}
    (destroyed : repo.destroyVersion path version = .ok later) {elsewhere : String}
    (apart : elsewhere ≠ path) : SameAt later repo elsewhere := by
  obtain ⟨row, valid, found, rfl⟩ := destroyVersion_ok destroyed
  intro number
  have key : secretKey row = toLex (path, version) := Table.key_of_find found
  refine find_put_elsewhere valid (fun same => apart (same.trans ?_)) number
  exact congrArg (fun key => (ofLex key).1) key

/-- Everything that destroying a version can do. -/
theorem destroyVersion_cases (repo : SecretRepository) (path : String) (version : Int) :
    (repo.find (toLex (path, version)) = none ∧ repo.destroyVersion path version =
      failWith .notFound "secret version not found") ∨
    (∃ row, repo.find (toLex (path, version)) = some row ∧ row.destroyed = true ∧
      repo.destroyVersion path version = failWith .validation "secret version already destroyed") ∨
    ∃ (row : SecretVersion) (valid : ({ row with destroyed := true }).validate = .ok ()),
      repo.find (toLex (path, version)) = some row ∧ row.destroyed = false ∧
      repo.destroyVersion path version = .ok (repo.put { row with destroyed := true } valid) := by
  cases found : repo.find (toLex (path, version)) with
  | none => exact .inl ⟨rfl, by simp only [destroyVersion, found]⟩
  | some row =>
    cases destroyed : row.destroyed with
    | true => exact .inr (.inl ⟨row, rfl, destroyed, by simp [destroyVersion, found, destroyed]⟩)
    | false =>
      have valid := Table.valid_of_find found
      refine .inr (.inr ⟨row, valid, rfl, destroyed, ?_⟩)
      simp only [destroyVersion, found, destroyed, Bool.false_eq_true, if_false]
      exact changeRow_ok_iff.mpr ⟨row, found, rfl⟩

/-- Destroying a version answers alike on stores that agree at its path. -/
theorem destroyVersion_agree (alike : AlikeOn Region repo other) (same : SameAt repo other path)
    (version : Int) :
    Agree (AlikeOn Region) (repo.destroyVersion path version)
      (other.destroyVersion path version) := by
  have here := same version
  obtain ⟨found, result⟩ | ⟨row, found, destroyed, result⟩ | ⟨row, valid, found, live, result⟩ :=
    repo.destroyVersion_cases path version
  all_goals
    obtain ⟨found', result'⟩ | ⟨row', found', destroyed', result'⟩ |
      ⟨row', valid', found', live', result'⟩ := other.destroyVersion_cases path version
    all_goals
      rw [found, found'] at here
      cases here
  · rw [result, result']
    exact .error _
  · rw [result, result']
    exact .error _
  · rw [destroyed] at live'
    cases live'
  · rw [live] at destroyed'
    cases destroyed'
  · rw [result, result']
    refine .ok (alike.change (same.put valid) ?_ ?_)
    · exact fun _ apart => find_destroyVersion_elsewhere result apart
    · exact fun _ apart => find_destroyVersion_elsewhere result' apart

/-- A listing shows alike what is kept of it, if the stores hold the same of that. -/
theorem listByPath_filter (range : MapRange) (pathPrefix : String) (keep : SecretVersion → Bool)
    (same : ∀ secret, keep secret = true → hasPrefix secret.path pathPrefix = true →
      SameAt repo other secret.path) :
    (repo.listByPath range pathPrefix).filter keep =
      (other.listByPath range pathPrefix).filter keep := by
  have nodup : ∀ store : SecretRepository,
      ((store.listByPath range pathPrefix).filter keep).Nodup := fun store =>
    ((perm_sortBy _ _).nodup_iff.mpr ((store.nodup_visit range).of_map.filter _)).filter _
  have members : ∀ secret, secret ∈ (repo.listByPath range pathPrefix).filter keep ↔
      secret ∈ (other.listByPath range pathPrefix).filter keep := by
    intro secret
    simp only [SecretRepository.listByPath, List.mem_filter, mem_sortBy, Table.mem_visit]
    refine and_congr_left fun kept => and_congr_left fun inside => ?_
    rw [(same secret kept inside).stored rfl]
  have perm := (List.perm_ext_iff_of_nodup (nodup repo) (nodup other)).mpr members
  refine perm.eq_of_pairwise ?_ ((sorted_sortBy secretKey _).filter _)
    ((sorted_sortBy secretKey _).filter _)
  intro first second inFirst inSecond below above
  have stored : ∀ {secret}, secret ∈ (other.listByPath range pathPrefix).filter keep →
      other.find (secretKey secret) = some secret := fun listed =>
    Table.mem_visit.mp (List.mem_of_mem_filter (mem_sortBy.mp (List.mem_of_mem_filter listed)))
  have found := stored ((members first).mp inFirst)
  rw [le_antisymm below above, stored inSecond] at found
  exact (Option.some.inj found).symm

theorem updateDEKEnc_agree (same : SameAt repo other path) (version : Int) (dekEnc : Bytes) :
    Agree (fun later later' => SameAt later later' path) (repo.updateDEKEnc path version dekEnc)
      (other.updateDEKEnc path version dekEnc) := by
  unfold updateDEKEnc
  split
  · exact .error _
  · have here := same version
    cases found : repo.find (toLex (path, version)) with
    | none =>
      rw [changeRow_of_none found, changeRow_of_none (here.symm.trans found)]
      exact .error _
    | some row =>
      rw [changeRow_of_find found, changeRow_of_find (here.symm.trans found)]
      exact .ok (same.put _)

/-- A call at a path of the region answers alike on stores that agree there. -/
theorem step_agree {input : VersionInput} (alike : AlikeOn Region repo other)
    (inside : Region input.call.path) :
    AlikeOn Region (step repo input) (step other input) := by
  have same := alike _ inside
  have agree : Agree (fun later later' => SameAt later later' input.call.path)
      (input.call.perform input.range repo) (input.call.perform input.range other) := by
    obtain ⟨range, call⟩ := input
    cases call with
    | putAtomic secret casVersion maxVersions =>
      have put := @putAtomic_agree repo other (fun path => path = secret.path) secret
        (fun _ onPath => onPath ▸ same) same range casVersion maxVersions
      obtain ⟨err, failed, failed'⟩ | ⟨result, result', stored, stored', here, -⟩ := put.cases
      · simp only [VersionCall.perform, failed, failed']
        exact .error err
      · simp only [VersionCall.perform, stored, stored']
        exact .ok (here _ rfl)
    | saveVersion secret fits => exact saveVersion_agree same
    | updateDEKEnc path version dekEnc => exact updateDEKEnc_agree same version dekEnc
    | destroyVersion path version =>
      have destroyed := @destroyVersion_agree repo other path (fun other => other = path)
        (fun _ onPath => onPath ▸ same) same version
      obtain ⟨err, failed, failed'⟩ | ⟨later, later', done, done', here⟩ := destroyed.cases
      · simp only [VersionCall.perform, failed, failed']
        exact .error err
      · simp only [VersionCall.perform, done, done']
        exact .ok (here _ rfl)
  refine @AlikeOn.change _ _ input.call.path _ _ _ alike ?_
    (fun _ apart => find_step_elsewhere apart)
    (fun _ apart => find_step_elsewhere apart)
  unfold step
  obtain ⟨err, failed, failed'⟩ | ⟨later, later', done, done', here⟩ := agree.cases
  · rw [failed, failed']
    exact same
  · rw [done, done']
    exact here

end SecretRepository

end KnxVault.Repository
