import KnxVault.Repository.Versions
import KnxVault.Std.Run

/-!
# Histories of the secret version store

What any sequence of `PutAtomic`, `SaveVersion`, `UpdateDEKEnc` and `DestroyVersion`
calls keeps. The next version is counted from what is still stored, so the argument
is that the greatest stored version of a path never falls: trimming spares the
newest live version, and destroyed ones are never trimmed.
-/

namespace KnxVault.Repository

open KnxVault.Std KnxVault.Domain

namespace SecretRepository

/-! ### The live versions of a path -/

/-- A stored version of the path that is not destroyed. -/
def Live (repo : SecretRepository) (path : String) (secret : SecretVersion) : Prop :=
  repo.find (secretKey secret) = some secret ∧ secret.path = path ∧ secret.destroyed = false

variable {repo : SecretRepository} {range : MapRange} {path : String} {secret : SecretVersion}

theorem mem_liveVersions :
    secret ∈ repo.liveVersions range path ↔ repo.Live path secret := by
  rw [liveVersions, mem_sortBy, List.mem_filter, Table.mem_visit, Live]
  simp

theorem Live.eq_of_version {first second : SecretVersion} (live : repo.Live path first)
    (live' : repo.Live path second) (same : first.version = second.version) : first = second := by
  have keys : secretKey first = secretKey second := by
    rw [secretKey, secretKey, live.2.1, live'.2.1, same]
  have stored := live.1
  rw [keys, live'.1] at stored
  exact (Option.some.inj stored).symm

theorem liveVersions_sorted (repo : SecretRepository) (range : MapRange) (path : String) :
    (repo.liveVersions range path).Pairwise fun first second => first.version < second.version := by
  have unique : (repo.liveVersions range path).Nodup :=
    (perm_sortBy _ _).nodup_iff.mpr ((repo.nodup_visit range).of_map.filter _)
  have sorted : (repo.liveVersions range path).Pairwise fun first second =>
      first.version ≤ second.version := sorted_sortBy SecretVersion.version _
  refine (List.Pairwise.and_mem.mp (sorted.and unique)).imp ?_
  rintro first second ⟨inFirst, inSecond, below, differ⟩
  refine lt_of_le_of_ne below fun same => differ ?_
  exact (mem_liveVersions.mp inFirst).eq_of_version (mem_liveVersions.mp inSecond) same

/-- The live versions are the one list of them in order. -/
theorem liveVersions_eq (range : MapRange) {versions : List SecretVersion}
    (sorted : versions.Pairwise fun first second => first.version < second.version)
    (members : ∀ secret, secret ∈ versions ↔ repo.Live path secret) :
    repo.liveVersions range path = versions := by
  have nodup : ∀ {secrets : List SecretVersion},
      (secrets.Pairwise fun first second => first.version < second.version) → secrets.Nodup :=
    fun ordered => ordered.imp fun {first second} below same => by
      rw [same] at below
      exact lt_irrefl _ below
  have perm : (repo.liveVersions range path).Perm versions :=
    (List.perm_ext_iff_of_nodup (nodup (repo.liveVersions_sorted range path)) (nodup sorted)).mpr
      fun secret => mem_liveVersions.trans (members secret).symm
  refine perm.eq_of_pairwise ?_ (repo.liveVersions_sorted range path) sorted
  intro first second _ _ below above
  exact absurd (below.trans above) (lt_irrefl _)

theorem liveVersions_range (repo : SecretRepository) (range other : MapRange) (path : String) :
    repo.liveVersions range path = repo.liveVersions other path :=
  liveVersions_eq range (repo.liveVersions_sorted other path) fun _ => mem_liveVersions

/-- Trimming leaves the newest live versions. -/
theorem liveVersions_trimVersions (repo : SecretRepository) (range other : MapRange)
    (path : String) (maxVersions : Int) :
    (repo.trimVersions range path maxVersions).liveVersions other path =
      (repo.liveVersions range path).drop
        ((repo.liveVersions range path).length - maxVersions).toNat := by
  have sorted := repo.liveVersions_sorted range path
  have members := fun secret => @mem_liveVersions repo range path secret
  unfold trimVersions
  generalize repo.liveVersions range path = versions at *
  dsimp only
  generalize (versions.length - maxVersions).toNat = count
  refine liveVersions_eq other (sorted.sublist (List.drop_sublist _ _)) fun secret => ?_
  have split : secret ∈ versions ↔ secret ∈ versions.take count ∨ secret ∈ versions.drop count := by
    conv_lhs => rw [← List.take_append_drop count versions]
    exact List.mem_append
  rw [Live, Table.find_foldl_remove]
  constructor
  · intro kept
    have live := (members secret).mp (List.mem_of_mem_drop kept)
    refine ⟨?_, live.2⟩
    rw [if_neg, live.1]
    intro dropped
    obtain ⟨removed, taken, same⟩ := List.mem_map.mp dropped
    have found := ((members removed).mp (List.mem_of_mem_take taken)).1
    rw [same, live.1, Option.some.injEq] at found
    have apart := List.pairwise_append.mp ((List.take_append_drop count versions).symm ▸ sorted)
    exact lt_irrefl _ (apart.2.2 secret (found ▸ taken) secret kept)
  · rintro ⟨found, live⟩
    split at found
    · cases found
    · rename_i spared
      have listed := (members secret).mpr ⟨found, live⟩
      exact (split.mp listed).resolve_left fun taken => spared (List.mem_map_of_mem taken)

/-- The live versions of the path with the new one. -/
def liveWith (repo : SecretRepository) (range : MapRange) (secret : SecretVersion) :
    List SecretVersion :=
  repo.liveVersions range secret.path ++ if secret.destroyed then [] else [secret]

/-- A version above all of its path comes last. -/
theorem liveWith_sorted (range : MapRange)
    (newest : ∀ other : SecretVersion, repo.find (secretKey other) = some other →
      other.path = secret.path → other.version < secret.version) :
    (repo.liveWith range secret).Pairwise fun first second => first.version < second.version := by
  refine List.pairwise_append.mpr ⟨repo.liveVersions_sorted range _, by split <;> simp, ?_⟩
  intro first listed last new
  have live := mem_liveVersions.mp listed
  split at new
  · cases new
  · rw [List.mem_singleton.mp new]
    exact newest first live.1 live.2.1

theorem liveVersions_put (range : MapRange) (checked : secret.validate = .ok ())
    (newest : ∀ other : SecretVersion, repo.find (secretKey other) = some other →
      other.path = secret.path → other.version < secret.version) :
    liveVersions (repo.put secret checked) range secret.path = repo.liveWith range secret := by
  refine liveVersions_eq range (liveWith_sorted range newest) fun other => ?_
  rw [liveWith, List.mem_append, mem_liveVersions, Live, Live, Table.find_put]
  by_cases same : secretKey secret = secretKey other
  · obtain ⟨paths, versions⟩ := Prod.mk.inj (congrArg ofLex same)
    rw [if_pos same, Option.some.injEq]
    constructor
    · rintro (⟨found, onPath, -⟩ | new)
      · exact absurd (newest other found onPath) (by omega)
      · split at new
        · cases new
        · rename_i live
          rw [List.mem_singleton.mp new]
          exact ⟨rfl, rfl, by simpa using live⟩
    · rintro ⟨rfl, -, live⟩
      exact .inr (by simp [live])
  · rw [if_neg same, or_iff_left]
    intro new
    split at new
    · cases new
    · exact same (by rw [List.mem_singleton.mp new])

/-- The given version is the newest live one. -/
def IsNewestLive (repo : SecretRepository) (path : String) (version : Int) : Prop :=
  ∃ secret, repo.Live path secret ∧ secret.version = version ∧
    ∀ other, repo.Live path other → other.version ≤ version

theorem latestNonDestroyed_eq_some : repo.latestNonDestroyed range path = some secret ↔
      repo.Live path secret ∧ ∀ other, repo.Live path other → other.version ≤ secret.version := by
  have members : ∀ secret, secret ∈ (repo.visit range).filter (fun secret =>
      secret.path = path && !secret.destroyed) ↔ repo.Live path secret := by
    intro secret
    rw [List.mem_filter, Table.mem_visit, Live]
    simp
  unfold latestNonDestroyed
  cases kept : ((repo.visit range).filter fun secret =>
      secret.path = path && !secret.destroyed).foldl newer none with
  | none =>
    rw [(foldl_newer_eq_none.mp kept).1] at members
    simp only [reduceCtorEq, false_iff]
    rintro ⟨live, -⟩
    exact absurd ((members secret).mpr live) List.not_mem_nil
  | some latest =>
    obtain ⟨source, newest, -⟩ := foldl_newer kept
    have live := (members latest).mp (source.resolve_right (by simp))
    have top := fun other live => newest other ((members other).mpr live)
    rw [Option.some.injEq]
    constructor
    · rintro rfl
      exact ⟨live, top⟩
    · rintro ⟨live', top'⟩
      exact live.eq_of_version live' (le_antisymm (top' latest live) (top secret live'))

theorem getLatest_ok_iff : repo.getLatest range path = .ok secret ↔
      repo.Live path secret ∧ ∀ other, repo.Live path other → other.version ≤ secret.version := by
  rw [← @latestNonDestroyed_eq_some repo range, getLatest]
  cases repo.latestNonDestroyed range path <;> simp

theorem casHolds_iff {expected : Int} :
    repo.casHolds range path expected = true ↔ repo.IsNewestLive path expected := by
  have latest := @latestNonDestroyed_eq_some repo range path
  unfold casHolds
  constructor
  · intro holds
    split at holds
    · rename_i secret found
      obtain ⟨live, top⟩ := latest.mp found
      have same : secret.version = expected := by simpa using holds
      exact ⟨secret, live, same, same ▸ top⟩
    · cases holds
  · rintro ⟨secret, live, rfl, top⟩
    rw [latest.mpr ⟨live, top⟩]
    simp

/-! ### Puts -/

variable {later : SecretRepository} {casVersion : Option Int} {maxVersions version : Int}

theorem liveVersions_putAtomic (fits : repo.Fits)
    (stored : repo.putAtomic range secret casVersion maxVersions = .ok (later, version))
    (other : MapRange) :
    later.liveVersions other secret.path =
      if 0 < maxVersions then (repo.liveWith range { secret with version }).rtake maxVersions.toNat
      else repo.liveWith range { secret with version } := by
  have newest := (putAtomic_puts fits stored).newest
  unfold putAtomic at stored
  split at stored
  · cases stored
  obtain ⟨saved, saving, rest⟩ := bind_eq_ok stored
  obtain ⟨checked, absent, rfl⟩ := saveVersion_ok_iff.mp saving
  cases rest
  have put := fun range => liveVersions_put range checked newest
  split
  · refine (liveVersions_trimVersions _ range other _ _).trans ?_
    rw [put, List.rtake]
    congr 1
    omega
  · rw [liveWith, liveVersions_range repo range other]
    exact put other

/-- When a put succeeds. -/
theorem putAtomic_ok_iff (fits : repo.Fits) :
    (∃ result, repo.putAtomic range secret casVersion maxVersions = .ok result) ↔
      (∀ expected ∈ casVersion, repo.IsNewestLive secret.path expected) ∧
        ({ secret with version := repo.nextVersion range secret.path } : SecretVersion).validate =
          .ok () := by
  have cas : (casVersion.any fun expected => !repo.casHolds range secret.path expected) = false ↔
      ∀ expected ∈ casVersion, repo.IsNewestLive secret.path expected := by
    cases casVersion with
    | none => simp
    | some expected => simpa using casHolds_iff
  unfold putAtomic
  constructor
  · rintro ⟨result, stored⟩
    split at stored
    · cases stored
    · rename_i holds
      obtain ⟨saved, saving, -⟩ := bind_eq_ok stored
      exact ⟨cas.mp (by simpa using holds), (saveVersion_ok_iff.mp saving).1⟩
  · rintro ⟨holds, checked⟩
    have absent : repo.find (secretKey { secret with
        version := repo.nextVersion range secret.path }) = none := by
      by_contra present
      obtain ⟨row, found⟩ := Option.ne_none_iff_exists'.mp present
      have key := Table.key_of_find found
      obtain ⟨path, version⟩ := Prod.mk.inj (congrArg ofLex key)
      have below := (lt_nextVersion fits (SecretVersion.required checked).2.1).2 row
        (by rw [key, found]) path
      exact absurd below (by rw [version]; exact lt_irrefl _)
    rw [if_neg (by simpa using cas.mpr holds)]
    dsimp only
    rw [saveVersion_of_ok checked absent]
    exact ⟨_, rfl⟩

theorem find_trimVersions_elsewhere {other : String} (apart : other ≠ path) (number : Int) :
    (repo.trimVersions range path maxVersions).find (toLex (other, number)) =
      repo.find (toLex (other, number)) := by
  unfold trimVersions
  rw [Table.find_foldl_remove, if_neg]
  intro dropped
  obtain ⟨removed, taken, same⟩ := List.mem_map.mp dropped
  have onPath := (mem_liveVersions.mp (List.mem_of_mem_take taken)).2.1
  exact apart ((congrArg (fun key => (ofLex key).1) same).symm.trans onPath)

theorem live_of_destroyVersion {secrets : SecretRepository} {other : String}
    (destroyed : secrets.destroyVersion other version = .ok later) :
    later.Live path secret ↔
      secrets.Live path secret ∧ ¬ (path = other ∧ secret.version = version) := by
  obtain ⟨row, valid, found, rfl⟩ := destroyVersion_ok destroyed
  have key : secretKey row = toLex (other, version) := Table.key_of_find found
  have key' : secretKey { row with destroyed := true } = toLex (other, version) := key
  unfold Live
  rw [Table.find_put, key']
  by_cases same : toLex (other, version) = secretKey secret
  · rw [if_pos same]
    obtain ⟨onPath, number⟩ := Prod.mk.inj (congrArg ofLex same)
    constructor
    · rintro ⟨replaced, -, live⟩
      cases Option.some.inj replaced
      cases live
    · rintro ⟨⟨-, rfl, -⟩, apart⟩
      exact absurd ⟨onPath.symm, number.symm⟩ apart
  · rw [if_neg same]
    constructor
    · rintro ⟨stored, rfl, live⟩
      refine ⟨⟨stored, rfl, live⟩, ?_⟩
      rintro ⟨onPath, number⟩
      exact same (by rw [secretKey, ← onPath, ← number])
    · exact fun kept => kept.1

/-- A put leaves the other paths. -/
theorem find_putAtomic_elsewhere
    (stored : repo.putAtomic range secret casVersion maxVersions = .ok (later, version))
    (apart : path ≠ secret.path) (number : Int) :
    later.find (toLex (path, number)) = repo.find (toLex (path, number)) := by
  unfold putAtomic at stored
  split at stored
  · cases stored
  obtain ⟨saved, saving, rest⟩ := bind_eq_ok stored
  obtain ⟨checked, -, rfl⟩ := saveVersion_ok_iff.mp saving
  cases rest
  have kept : Table.find (repo.put _ checked) (toLex (path, number)) =
      repo.find (toLex (path, number)) := by
    rw [Table.find_put, if_neg]
    exact fun same => apart (congrArg (fun key => (ofLex key).1) same).symm
  by_cases trims : 0 < maxVersions
  · simp only [if_pos trims]
    exact (find_trimVersions_elsewhere apart number).trans kept
  · simpa only [if_neg trims] using kept

end SecretRepository

/-! ### Runs -/

/-- A call that changes the store. Versions are 64-bit numbers. -/
inductive VersionCall where
  | putAtomic (secret : SecretVersion) (casVersion : Option Int) (maxVersions : Int)
  | saveVersion (secret : SecretVersion) (fits : secret.version < 2 ^ 63)
  | updateDEKEnc (path : String) (version : Int) (dekEnc : Bytes)
  | destroyVersion (path : String) (version : Int)

namespace VersionCall

def path : VersionCall → String
  | putAtomic secret _ _ => secret.path
  | saveVersion secret _ => secret.path
  | updateDEKEnc path _ _ => path
  | destroyVersion path _ => path

/-- The store that the call leaves, with the order in which the map is visited. -/
def perform (call : VersionCall) (range : MapRange) (repo : SecretRepository) :
    Except KNXVaultError SecretRepository :=
  match call with
  | putAtomic secret casVersion maxVersions =>
    (repo.putAtomic range secret casVersion maxVersions).map Prod.fst
  | saveVersion secret _ => repo.saveVersion secret
  | updateDEKEnc path version dekEnc => repo.updateDEKEnc path version dekEnc
  | destroyVersion path version => repo.destroyVersion path version

/-- Everything that a call can do: store a version with the next number or with a
given one, or change a stored version without its number. -/
theorem perform_cases {call : VersionCall} {range : MapRange} {repo later : SecretRepository}
    (performed : call.perform range repo = .ok later) :
    (∃ secret casVersion maxVersions version, call = putAtomic secret casVersion maxVersions ∧
      repo.putAtomic range secret casVersion maxVersions = .ok (later, version)) ∨
    ∃ (secret : SecretVersion) (valid : secret.validate = .ok ()), secret.path = call.path ∧
      later = repo.put secret valid ∧
      ((secret.version < 2 ^ 63 ∧ repo.find (secretKey secret) = none) ∨
        ∃ row, repo.find (secretKey secret) = some row ∧
          (secret.destroyed = row.destroyed ∨
            ∃ version, call = destroyVersion secret.path version)) := by
  cases call with
  | putAtomic secret casVersion maxVersions =>
    left
    obtain ⟨⟨later, version⟩, stored, rfl⟩ := map_eq_ok performed
    exact ⟨secret, casVersion, maxVersions, version, rfl, stored⟩
  | saveVersion secret small =>
    right
    obtain ⟨checked, absent, rfl⟩ := SecretRepository.saveVersion_ok_iff.mp performed
    exact ⟨secret, checked, rfl, rfl, .inl ⟨small, absent⟩⟩
  | updateDEKEnc path version dekEnc =>
    right
    simp only [perform, SecretRepository.updateDEKEnc] at performed
    split at performed
    · cases performed
    · obtain ⟨row, found, rfl⟩ := changeRow_ok_iff.mp performed
      have key : secretKey row = toLex (path, version) := Table.key_of_find found
      refine ⟨{ row with dekEnc }, _, congrArg (fun key => (ofLex key).1) key, rfl,
        .inr ⟨row, ?_, .inl rfl⟩⟩
      exact (congrArg repo.find key).trans found
  | destroyVersion path version =>
    right
    obtain ⟨row, valid, found, rfl⟩ := SecretRepository.destroyVersion_ok performed
    have key : secretKey row = toLex (path, version) := Table.key_of_find found
    have onPath : row.path = path := congrArg (fun key => (ofLex key).1) key
    refine ⟨{ row with destroyed := true }, valid, onPath, rfl, .inr ⟨row, ?_, .inr ⟨version, ?_⟩⟩⟩
    · exact (congrArg repo.find key).trans found
    · rw [onPath]

end VersionCall

namespace SecretRepository

variable {repo : SecretRepository} {secret : SecretVersion} {path : String}

theorem find_put_elsewhere (valid : secret.validate = .ok ()) (apart : path ≠ secret.path)
    (number : Int) :
    Table.find (repo.put secret valid) (toLex (path, number)) =
      repo.find (toLex (path, number)) := by
  rw [Table.find_put, if_neg]
  intro same
  exact apart (congrArg (fun key => (ofLex key).1) same).symm

theorem fits_put_of_lt (fits : repo.Fits) (valid : secret.validate = .ok ())
    (small : secret.version < 2 ^ 63) :
    Fits (repo.put secret valid) := by
  intro other stored
  rw [Table.find_put] at stored
  split at stored
  · cases stored
    exact small
  · exact fits other stored

/-- A live version of the path has a number above the given one. -/
def LiveAbove (path : String) (version : Int) (repo : SecretRepository) : Prop :=
  ∃ secret, repo.Live path secret ∧ version < secret.version

variable {later : SecretRepository} {expected : Int}

/-- The newest live version is not trimmed. -/
theorem liveAbove_putAtomic {range : MapRange} {casVersion : Option Int} {maxVersions version : Int}
    (fits : repo.Fits)
    (stored : repo.putAtomic range secret casVersion maxVersions = .ok (later, version))
    (above : ∃ live ∈ repo.liveWith range { secret with version }, expected < live.version) :
    later.LiveAbove secret.path expected := by
  have equal := liveVersions_putAtomic fits stored range
  obtain ⟨live, listed, above⟩ := above
  by_cases trims : 0 < maxVersions
  · rw [if_pos trims, List.rtake] at equal
    have sorted : (repo.liveWith range { secret with version }).Pairwise _ :=
      liveWith_sorted range (putAtomic_puts fits stored).newest
    generalize repo.liveWith range { secret with version } = versions at *
    -- either it is kept, or it is older than what is kept
    rw [← List.take_append_drop (versions.length - maxVersions.toNat) versions] at listed sorted
    rcases List.mem_append.mp listed with dropped | kept
    · have filled : versions.drop (versions.length - maxVersions.toNat) ≠ [] := by
        have some_ := List.length_pos_of_mem (List.mem_of_mem_take dropped)
        rw [ne_eq, List.drop_eq_nil_iff]
        omega
      obtain ⟨newer, kept⟩ := List.exists_mem_of_ne_nil _ filled
      refine ⟨newer, mem_liveVersions.mp (equal ▸ kept), above.trans ?_⟩
      exact (List.pairwise_append.mp sorted).2.2 live dropped newer kept
    · exact ⟨live, mem_liveVersions.mp (equal ▸ kept), above⟩
  · rw [if_neg trims] at equal
    exact ⟨live, mem_liveVersions.mp (equal ▸ listed), above⟩

theorem Live.of_find (live : repo.Live path secret)
    (kept : later.find (secretKey secret) = repo.find (secretKey secret)) :
    later.Live path secret :=
  ⟨kept.trans live.1, live.2⟩

/-- Only destroying a version of the path lowers its newest live version. -/
theorem liveAbove_perform {range : MapRange} {call : VersionCall} (fits : repo.Fits)
    (performed : call.perform range repo = .ok later)
    (spared : ∀ version, call ≠ .destroyVersion path version)
    (above : repo.LiveAbove path expected) :
    later.LiveAbove path expected := by
  obtain ⟨live, found, above⟩ := above
  obtain ⟨secret, casVersion, maxVersions, version, rfl, stored⟩ |
    ⟨secret, valid, -, rfl, change⟩ := VersionCall.perform_cases performed
  · by_cases onPath : path = secret.path
    · subst onPath
      refine liveAbove_putAtomic fits stored ⟨live, ?_, above⟩
      exact List.mem_append_left _ (mem_liveVersions.mpr found)
    · refine ⟨live, found.of_find ?_, above⟩
      have apart : live.path ≠ secret.path := by rw [found.2.1]; exact onPath
      exact find_putAtomic_elsewhere stored apart live.version
  · by_cases same : secretKey secret = secretKey live
    · obtain ⟨samePath, sameVersion⟩ := Prod.mk.inj (congrArg ofLex same)
      rw [same, found.1] at change
      obtain ⟨-, absent⟩ | ⟨row, stored, unchanged⟩ := change
      · cases absent
      · cases stored
        rcases unchanged with kept | ⟨version, destroys⟩
        · refine ⟨secret, ⟨Table.find_put_self .., ?_, ?_⟩, ?_⟩
          · rw [samePath, found.2.1]
          · rw [kept, found.2.2]
          · rw [sameVersion]
            exact above
        · rw [samePath, found.2.1] at destroys
          exact absurd destroys (spared version)
    · exact ⟨live, found.of_find (by rw [Table.find_put, if_neg same]), above⟩

/-- A call, with the order in which it visits the map. -/
structure VersionInput where
  range : MapRange
  call : VersionCall

/-- A call that fails leaves the store as it was. -/
def step (repo : SecretRepository) (input : VersionInput) : SecretRepository :=
  match input.call.perform input.range repo with
  | .ok later => later
  | .error _ => repo

/-- What every successful call keeps, every step keeps. -/
theorem step_keeps (Inv : SecretRepository → Prop) {input : VersionInput}
    (kept : ∀ later, input.call.perform input.range repo = .ok later → Inv later)
    (holds : Inv repo) :
    Inv (step repo input) := by
  unfold step
  split
  · exact kept _ ‹_›
  · exact holds

theorem fits_step (input : VersionInput) (fits : repo.Fits) :
    (step repo input).Fits := by
  refine step_keeps Fits (fun later performed => ?_) fits
  obtain ⟨secret, casVersion, maxVersions, version, -, stored⟩ |
    ⟨secret, valid, -, rfl, ⟨small, -⟩ | ⟨row, found, -⟩⟩ := VersionCall.perform_cases performed
  · exact (putAtomic_puts fits stored).fits fits
  · exact fits_put_of_lt fits valid small
  · exact fits_put fits found valid

theorem reaches_step (input : VersionInput) (fits : repo.Fits) :
    Reaches repo (step repo input) := by
  refine step_keeps (Reaches repo) (fun later performed => ?_) (Reaches.refl repo)
  obtain ⟨secret, casVersion, maxVersions, version, -, stored⟩ | ⟨secret, valid, -, rfl, -⟩ :=
    VersionCall.perform_cases performed
  · exact (putAtomic_puts fits stored).evolves.reached
  · exact reaches_put valid

theorem find_step_elsewhere {input : VersionInput} (apart : path ≠ input.call.path) (number : Int) :
    (step repo input).find (toLex (path, number)) = repo.find (toLex (path, number)) := by
  refine step_keeps (fun later => later.find _ = repo.find _) (fun later performed => ?_) rfl
  obtain ⟨secret, casVersion, maxVersions, version, isPut, stored⟩ |
    ⟨secret, valid, onPath, rfl, -⟩ := VersionCall.perform_cases performed
  · rw [isPut] at apart
    exact find_putAtomic_elsewhere stored apart number
  · exact find_put_elsewhere valid (by rw [onPath]; exact apart) number

theorem fits_run (fits : repo.Fits) (inputs : List VersionInput) :
    (run step repo inputs).Fits :=
  run_invariant (fun _ input fits => fits_step input fits) inputs fits

theorem reaches_run (fits : repo.Fits) (inputs : List VersionInput) :
    Reaches repo (run step repo inputs) := by
  induction inputs generalizing repo with
  | nil => exact (Reaches.refl repo)
  | cons input inputs ih => exact (reaches_step input fits).trans (ih (fits_step input fits))

theorem liveAbove_run {inputs : List VersionInput} (fits : repo.Fits)
    (spared : ∀ input ∈ inputs, ∀ version, input.call ≠ .destroyVersion path version)
    (above : repo.LiveAbove path expected) : (run step repo inputs).LiveAbove path expected := by
  induction inputs generalizing repo with
  | nil => exact above
  | cons input inputs ih =>
    refine ih (fits_step input fits) (fun later listed => spared later (.tail _ listed)) ?_
    refine step_keeps (LiveAbove path expected) (fun later performed => ?_) above
    exact liveAbove_perform fits performed (spared input (.head _)) above

/-- In every run of calls on a store whose versions fit the machine, wherever the run stands:
what a put returns is above all that was returned for its path, a limit keeps the newest
live versions, a check-and-set put succeeds exactly when it names the newest live version
and the record is acceptable, and until a version of the path is destroyed no other put
with the same expectation does. -/
theorem version_history (start : SecretRepository) (fits : start.Fits)
    (before : List VersionInput) (repo : SecretRepository)
    (reached : run step start before = repo) :
    (∀ range secret casVersion maxVersions later version,
      repo.putAtomic range secret casVersion maxVersions = .ok (later, version) →
      (∀ middle range' (secret' : SecretVersion) casVersion' maxVersions' last version',
        secret'.path = secret.path →
        (run step later middle).putAtomic range' secret' casVersion' maxVersions' =
          .ok (last, version') → version < version') ∧
      (0 < maxVersions → ∀ order,
        (later.liveVersions order secret.path).length ≤ maxVersions ∧
        later.liveVersions order secret.path =
          (repo.liveVersions range secret.path ++
            if secret.destroyed then [] else [{ secret with version }]).rtake maxVersions.toNat) ∧
      (∀ expected ∈ casVersion, secret.destroyed = false →
        ∀ middle : List VersionInput,
          (∀ input ∈ middle, ∀ number, input.call ≠ .destroyVersion secret.path number) →
          ∀ range' (secret' : SecretVersion) maxVersions' result, secret'.path = secret.path →
            (run step later middle).putAtomic range' secret' (some expected) maxVersions' ≠
              .ok result)) ∧
    (∀ range secret expected maxVersions,
      (∃ result, repo.putAtomic range secret (some expected) maxVersions = .ok result) ↔
        repo.IsNewestLive secret.path expected ∧
        ({ secret with version := repo.nextVersion range secret.path } : SecretVersion).validate =
          .ok ()) ∧
    (∀ input err, input.call.perform input.range repo = .error err → step repo input = repo) ∧
    ∀ input path number, path ≠ input.call.path →
      (step repo input).find (toLex (path, number)) = repo.find (toLex (path, number)) := by
  have fits : repo.Fits := reached ▸ fits_run fits before
  refine ⟨fun range secret casVersion maxVersions later version stored => ?_, ?_, ?_, ?_⟩
  · have puts := putAtomic_puts fits stored
    have laterFits := puts.fits fits
    refine ⟨?_, ?_, ?_⟩
    · intro middle range' secret' casVersion' maxVersions' last version' samePath stored'
      obtain ⟨newest, found, onPath, above⟩ := reaches_run laterFits middle _ puts.stored
      have puts' := putAtomic_puts (fits_run laterFits middle) stored'
      exact above.trans_lt (puts'.newest newest found (onPath.trans samePath.symm))
    · intro positive order
      have equal := liveVersions_putAtomic fits stored order
      rw [if_pos positive] at equal
      refine ⟨?_, equal⟩
      rw [equal, List.rtake, List.length_drop]
      omega
    · intro expected asked live middle spared range' secret' maxVersions' result samePath stored'
      -- the new version stands above the expected one until a version is destroyed
      obtain ⟨cas, -⟩ := (putAtomic_ok_iff fits).mp ⟨_, stored⟩
      obtain ⟨old, oldLive, rfl, -⟩ := cas expected asked
      have above : later.LiveAbove secret.path old.version := by
        refine liveAbove_putAtomic fits stored
          ⟨{ secret with version }, List.mem_append_right _ ?_, ?_⟩
        · simp [live]
        · exact puts.newest old oldLive.1 oldLive.2.1
      obtain ⟨newer, newerLive, above⟩ := liveAbove_run laterFits spared above
      obtain ⟨cas', -⟩ := (putAtomic_ok_iff (fits_run laterFits middle)).mp ⟨_, stored'⟩
      obtain ⟨-, -, -, top⟩ := cas' old.version rfl
      rw [samePath] at top
      exact absurd (top newer newerLive) (not_le.mpr above)
  · intro range secret expected maxVersions
    rw [putAtomic_ok_iff fits]
    simp
  · intro input err failed
    rw [step, failed]
  · intro input path number apart
    exact find_step_elsewhere apart number

def sampleVersion : SecretVersion where
  id := 1
  path := "app"
  version := 0
  dataEnc := [0]
  dekEnc := [0]

/-- A put of the secret with the order of the keys and no limit. -/
def putSample (secret : SecretVersion) (casVersion : Option Int) : VersionInput :=
  ⟨MapRange.sorted, .putAtomic secret casVersion 0⟩

/-- Once the first version is replaced, no put that expects it succeeds. -/
theorem version_history_replaced :
    ∃ later, (run step Table.empty [putSample sampleVersion none]).putAtomic MapRange.sorted
        sampleVersion (some 1) 1 = .ok (later, 2) ∧
      (later.liveVersions MapRange.sorted "app").length ≤ (1 : Int) ∧
      ¬ ∃ result, (run step later [putSample sampleVersion none]).putAtomic MapRange.sorted
        sampleVersion (some 1) 1 = .ok result := by
  have fits : Fits Table.empty := fun secret found => by cases found
  have put : ((run step Table.empty [putSample sampleVersion none]).putAtomic MapRange.sorted
      sampleVersion (some 1) 1).map Prod.snd = .ok 2 := by
    decide +kernel
  obtain ⟨⟨later, version⟩, stored, rfl⟩ := map_eq_ok put
  obtain ⟨puts, -⟩ := version_history Table.empty fits [putSample sampleVersion none] _ rfl
  obtain ⟨-, limit, once⟩ := puts _ _ _ _ _ _ stored
  refine ⟨later, stored, (limit (by decide) _).1, ?_⟩
  rintro ⟨result, again⟩
  refine once 1 rfl rfl [putSample sampleVersion none] ?_ _ _ _ _ rfl again
  rintro input listed number destroys
  cases List.mem_singleton.mp listed
  cases destroys

/-- A put that names the newest live version is refused when the record has no data, two puts
of records marked as destroyed name the same version, and without a limit nothing is
trimmed. -/
theorem version_history_refused :
    (run step Table.empty [putSample sampleVersion none]).IsNewestLive "app" 1 ∧
    ((run step Table.empty [putSample sampleVersion none]).putAtomic MapRange.sorted
      { sampleVersion with dataEnc := [] } (some 1) 0).isOk = false ∧
    ((run step Table.empty [putSample sampleVersion none]).putAtomic MapRange.sorted
      { sampleVersion with destroyed := true } (some 1) 0).map Prod.snd = .ok 2 ∧
    ((run step Table.empty [putSample sampleVersion none,
      putSample { sampleVersion with destroyed := true } (some 1)]).putAtomic MapRange.sorted
      { sampleVersion with destroyed := true } (some 1) 0).map Prod.snd = .ok 3 ∧
    ¬ ((run step Table.empty [putSample sampleVersion none]).liveVersions MapRange.sorted
      "app").length ≤ 0 := by
  refine ⟨(@casHolds_iff _ MapRange.sorted _ _).mp ?_, ?_, ?_, ?_, ?_⟩ <;> decide +kernel

end SecretRepository

end KnxVault.Repository
