import KnxVault.Repository.Secrets

/-!
# How the secret store changes

Whatever is done to the store of secret versions, the data stored under a path
and a version never changes, and a version that was dropped is never allocated
again. A reader that holds a listed version can rely on this.
-/

namespace KnxVault.Repository

open KnxVault.Std KnxVault.Domain

namespace SecretRepository

/-- Every version fits the machine. -/
def Fits (repo : SecretRepository) : Prop :=
  ∀ secret : SecretVersion, repo.find (secretKey secret) = some secret → secret.version < 2 ^ 63

theorem foldl_max {secrets : List SecretVersion} {start : Int} :
    start ≤ secrets.foldl (fun greatest secret => max greatest secret.version) start ∧
      (∀ secret ∈ secrets, secret.version ≤
        secrets.foldl (fun greatest secret => max greatest secret.version) start) ∧
      ∀ bound, start < bound → (∀ secret ∈ secrets, secret.version < bound) →
        secrets.foldl (fun greatest secret => max greatest secret.version) start < bound := by
  induction secrets generalizing start with
  | nil => simp
  | cons secret secrets ih =>
    obtain ⟨above, covers, below⟩ := @ih (max start secret.version)
    refine ⟨(le_max_left _ _).trans above, ?_, ?_⟩
    · intro other listed
      rcases List.mem_cons.mp listed with rfl | later
      · exact (le_max_right _ _).trans above
      · exact covers other later
    · intro bound small all
      refine below bound (max_lt small (all secret List.mem_cons_self)) ?_
      exact fun other later => all other (List.mem_cons_of_mem _ later)

variable {repo : SecretRepository} {range : MapRange} {path : String}

/-- An allocated version that can be stored is above every stored one. -/
theorem lt_nextVersion (fits : repo.Fits) (positive : 1 ≤ repo.nextVersion range path) :
    repo.nextVersion range path < 2 ^ 63 ∧
      ∀ secret : SecretVersion, repo.find (secretKey secret) = some secret →
        secret.path = path → secret.version < repo.nextVersion range path := by
  obtain ⟨above, covers, below⟩ :=
    @foldl_max ((repo.visit range).filter fun secret => secret.path = path) 0
  have small := below (2 ^ 63) (by decide) fun secret listed =>
    fits secret (Table.mem_visit.mp (List.mem_of_mem_filter listed))
  unfold nextVersion at positive ⊢
  generalize ((repo.visit range).filter fun secret => secret.path = path).foldl
    (fun greatest secret => max greatest secret.version) 0 = greatest at *
  -- One above the greatest 64-bit number wraps to a negative version, which is refused.
  have room : greatest + 1 < 2 ^ 63 := by
    by_contra full
    rw [show greatest = 2 ^ 63 - 1 by omega] at positive
    revert positive
    decide
  rw [wrap64_of_lt (by omega) room]
  refine ⟨room, fun secret stored same => ?_⟩
  have := covers secret (List.mem_filter.mpr ⟨Table.mem_visit.mpr stored, by simpa using same⟩)
  omega

variable {maxVersions : Int} {secret : SecretVersion}

/-- Trimming drops live versions of its path only, and never the newest one. -/
theorem find_trimVersions (positive : 0 < maxVersions)
    (stored : repo.find (secretKey secret) = some secret)
    (safe : secret.path ≠ path ∨ ∀ other : SecretVersion,
      repo.find (secretKey other) = some other → other.path = path →
        other.version ≤ secret.version) :
    (repo.trimVersions range path maxVersions).find (secretKey secret) = some secret := by
  unfold trimVersions
  rw [Table.find_foldl_remove, if_neg, stored]
  intro dropped
  obtain ⟨other, taken, same⟩ := List.mem_map.mp dropped
  have live : ∀ version ∈ repo.liveVersions range path,
      repo.find (secretKey version) = some version ∧ version.path = path := by
    intro version listed
    have kept := List.mem_filter.mp (mem_sortBy.mp listed)
    simp only [Bool.and_eq_true, decide_eq_true_eq] at kept
    exact ⟨Table.mem_visit.mp kept.1, kept.2.1⟩
  obtain ⟨found, onPath⟩ := live other (List.mem_of_mem_take taken)
  rw [same, stored, Option.some.injEq] at found
  subst found
  have newest := safe.resolve_left (not_not.mpr onPath)
  -- The list is sorted, so the last version is the newest, and it is not taken.
  obtain ⟨index, inside, here⟩ := List.mem_iff_getElem.mp taken
  rw [List.length_take] at inside
  rw [List.getElem_take] at here
  have unique : (repo.liveVersions range path).Nodup :=
    (perm_sortBy _ _).nodup_iff.mpr ((repo.nodup_visit range).of_map.filter _)
  have sorted : (repo.liveVersions range path).Pairwise fun first second =>
      first.version ≤ second.version := sorted_sortBy SecretVersion.version _
  generalize repo.liveVersions range path = versions at *
  have ending : versions.length - 1 < versions.length := by omega
  obtain ⟨lastFound, lastOnPath⟩ := live _ (List.getElem_mem ending)
  have below := List.pairwise_iff_getElem.mp sorted index (versions.length - 1) (by omega) ending
    (by omega)
  rw [here] at below
  have equal := le_antisymm below (newest _ lastFound lastOnPath)
  have key : secretKey secret = secretKey versions[versions.length - 1] := by
    rw [secretKey, secretKey, onPath, lastOnPath, equal]
  rw [← key, stored, Option.some.injEq] at lastFound
  have same := unique.getElem_inj_iff.mp (here.trans lastFound)
  omega

theorem find_of_trimVersions {wanted : String ×ₗ Int}
    (kept : (repo.trimVersions range path maxVersions).find wanted = some secret) :
    repo.find wanted = some secret := by
  unfold trimVersions at kept
  rw [Table.find_foldl_remove] at kept
  split at kept
  · cases kept
  · exact kept

/-- What `putAtomic` does when it succeeds: the secret gets a version above every
stored one, other paths keep everything, and nothing else appears. -/
structure Puts (before after : SecretRepository) (secret : SecretVersion) (version : Int) :
    Prop where
  valid : ({ secret with version } : SecretVersion).validate = .ok ()
  small : version < 2 ^ 63
  newest : ∀ other : SecretVersion, before.find (secretKey other) = some other →
    other.path = secret.path → other.version < version
  stored : after.find (secretKey { secret with version }) = some { secret with version }
  elsewhere : ∀ other : SecretVersion, before.find (secretKey other) = some other →
    other.path ≠ secret.path → after.find (secretKey other) = some other
  nothingElse : ∀ other : SecretVersion, after.find (secretKey other) = some other →
    other = { secret with version } ∨ before.find (secretKey other) = some other

variable {later : SecretRepository} {version : Int}

theorem putAtomic_puts {casVersion : Option Int} (fits : repo.Fits)
    (stored : repo.putAtomic range secret casVersion maxVersions = .ok (later, version)) :
    Puts repo later secret version := by
  unfold putAtomic at stored
  split at stored
  · cases stored
  · obtain ⟨saved, saving, rest⟩ := bind_eq_ok stored
    obtain ⟨checked, absent, rfl⟩ := saveVersion_ok_iff.mp saving
    cases rest
    have positive : 1 ≤ repo.nextVersion range secret.path := (SecretVersion.required checked).2.1
    obtain ⟨small, newest⟩ := lt_nextVersion fits positive
    generalize repo.nextVersion range secret.path = version at *
    have found : ∀ other : SecretVersion,
        (repo.put { secret with version } checked).find (secretKey other) = some other →
          other = { secret with version } ∨ repo.find (secretKey other) = some other := by
      intro other here
      rw [Table.find_put] at here
      split at here
      · exact .inl (Option.some.inj here).symm
      · exact .inr here
    have kept : ∀ other : SecretVersion, repo.find (secretKey other) = some other →
        (repo.put { secret with version } checked).find (secretKey other) = some other := by
      intro other here
      rw [Table.find_put, if_neg, here]
      intro same
      rw [same, here] at absent
      cases absent
    have newestSaved : ∀ other : SecretVersion,
        (repo.put { secret with version } checked).find (secretKey other) = some other →
          other.path = secret.path → other.version ≤ version := by
      intro other here onPath
      rcases found other here with rfl | earlier
      · exact le_refl _
      · exact (newest other earlier onPath).le
    by_cases trims : 0 < maxVersions
    · simp only [if_pos trims]
      refine ⟨checked, small, newest, ?_, ?_, ?_⟩
      · exact find_trimVersions trims (Table.find_put_self ..) (.inr newestSaved)
      · exact fun other here apart => find_trimVersions trims (kept other here) (.inl apart)
      · exact fun other here => found other (find_of_trimVersions here)
    · simp only [if_neg trims]
      exact ⟨checked, small, newest, Table.find_put_self .., fun other here _ => kept other here,
        found⟩

/-- A change that keeps the data of every version and reuses no version. -/
structure Evolves (before after : SecretRepository) : Prop where
  /-- A version found afterwards has its old data or is newer than all of its path. -/
  data : ∀ secret : SecretVersion, after.find (secretKey secret) = some secret →
    (∃ earlier, before.find (secretKey secret) = some earlier ∧
      earlier.dataEnc = secret.dataEnc) ∨
    ∀ other : SecretVersion, before.find (secretKey other) = some other →
      other.path = secret.path → other.version < secret.version
  /-- The newest version number of a path does not fall. -/
  reached : ∀ secret : SecretVersion, before.find (secretKey secret) = some secret →
    ∃ later : SecretVersion, after.find (secretKey later) = some later ∧
      later.path = secret.path ∧ secret.version ≤ later.version

variable {before after : SecretRepository}

theorem Puts.evolves (puts : Puts before after secret version) : Evolves before after where
  data other found := by
    rcases puts.nothingElse other found with rfl | earlier
    · exact .inr puts.newest
    · exact .inl ⟨other, earlier, rfl⟩
  reached other found := by
    by_cases onPath : other.path = secret.path
    · exact ⟨_, puts.stored, onPath.symm, (puts.newest other found onPath).le⟩
    · exact ⟨other, puts.elsewhere other found onPath, rfl, le_refl _⟩

theorem Puts.fits (puts : Puts before after secret version) (fits : before.Fits) : after.Fits := by
  intro other found
  rcases puts.nothingElse other found with rfl | earlier
  · exact puts.small
  · exact fits other earlier

/-- The newest version number of no path falls. -/
def Reaches (before after : SecretRepository) : Prop :=
  ∀ secret : SecretVersion, before.find (secretKey secret) = some secret →
    ∃ later : SecretVersion, after.find (secretKey later) = some later ∧
      later.path = secret.path ∧ secret.version ≤ later.version

theorem reaches_put (valid : secret.validate = .ok ()) : Reaches repo (repo.put secret valid) := by
  intro other stored
  by_cases same : secretKey secret = secretKey other
  · obtain ⟨path, version⟩ := Prod.mk.inj (congrArg ofLex same)
    exact ⟨secret, Table.find_put_self .., path, version.ge⟩
  · exact ⟨other, by rw [Table.find_put, if_neg same, stored], rfl, le_refl _⟩

theorem fits_put {row changed : SecretVersion} (fits : repo.Fits)
    (found : repo.find (secretKey changed) = some row) (valid : changed.validate = .ok ()) :
    Fits (repo.put changed valid) := by
  intro secret stored
  rw [Table.find_put] at stored
  split at stored
  · cases stored
    have key := Table.key_of_find found
    have version : row.version = changed.version := (Prod.mk.inj (congrArg ofLex key)).2
    rw [← version]
    exact fits row (by rw [key, found])
  · exact fits secret stored

/-- A change by which versions appear under new numbers, become destroyed or go. -/
structure Continues (before after : SecretRepository) : Prop where
  origin : ∀ secret : SecretVersion, after.find (secretKey secret) = some secret →
    (∃ earlier, before.find (secretKey secret) = some earlier ∧
      (secret = earlier ∨ secret = { earlier with destroyed := true })) ∨
    ∀ other : SecretVersion, before.find (secretKey other) = some other →
      other.path = secret.path → other.version < secret.version
  reached : Reaches before after

theorem Reaches.refl (repo : SecretRepository) : Reaches repo repo :=
  fun secret stored => ⟨secret, stored, rfl, le_refl _⟩

theorem Reaches.trans {first second third : SecretRepository} (reaches : Reaches first second)
    (later : Reaches second third) : Reaches first third := by
  intro secret stored
  obtain ⟨next, stored, path, above⟩ := reaches secret stored
  obtain ⟨last, stored, path', above'⟩ := later next stored
  exact ⟨last, stored, path'.trans path, above.trans above'⟩

/-- Some version of the path is stored, destroyed or not. -/
def Versioned (repo : SecretRepository) (path : String) : Prop :=
  ∃ secret : SecretVersion, repo.find (secretKey secret) = some secret ∧ secret.path = path

theorem Reaches.versioned (reaches : Reaches before after) (versioned : before.Versioned path) :
    after.Versioned path := by
  obtain ⟨secret, stored, rfl⟩ := versioned
  obtain ⟨later, stored, onPath, -⟩ := reaches secret stored
  exact ⟨later, stored, onPath⟩

theorem destroyVersion_ok (destroyed : repo.destroyVersion path version = .ok later) :
    ∃ (row : SecretVersion) (valid : ({ row with destroyed := true }).validate = .ok ()),
      repo.find (toLex (path, version)) = some row ∧
      later = repo.put { row with destroyed := true } valid := by
  unfold destroyVersion at destroyed
  split at destroyed
  · cases destroyed
  split at destroyed
  · cases destroyed
  · obtain ⟨row, found, rfl⟩ := changeRow_ok_iff.mp destroyed
    exact ⟨row, _, found, rfl⟩

theorem destroyVersion_continues (destroyed : repo.destroyVersion path version = .ok later) :
    Continues repo later := by
  obtain ⟨row, valid, found, rfl⟩ := destroyVersion_ok destroyed
  have key : secretKey row = toLex (path, version) := Table.key_of_find found
  refine ⟨fun secret stored => .inl ?_, reaches_put valid⟩
  rw [Table.find_put] at stored
  split at stored
  · cases stored
    exact ⟨row, (congrArg repo.find key).trans found, .inr rfl⟩
  · exact ⟨secret, stored, .inl rfl⟩

/-! ### The newest version number -/

/-- The greatest version number of a path, destroyed versions included, or zero. -/
def newestVersion (repo : SecretRepository) (path : String) : Int :=
  ((repo.visit .sorted).filter fun secret => secret.path = path).foldl
    (fun greatest secret => max greatest secret.version) 0

theorem newestVersion_spec (repo : SecretRepository) (path : String) :
    0 ≤ repo.newestVersion path ∧
      (∀ secret : SecretVersion, repo.find (secretKey secret) = some secret →
        secret.path = path → secret.version ≤ repo.newestVersion path) ∧
      ∀ bound, 0 < bound → (∀ secret : SecretVersion,
        repo.find (secretKey secret) = some secret → secret.path = path →
          secret.version < bound) → repo.newestVersion path < bound := by
  obtain ⟨above, covers, below⟩ :=
    @foldl_max ((repo.visit .sorted).filter fun secret => secret.path = path) 0
  refine ⟨above, fun secret stored onPath => ?_, fun bound positive small => ?_⟩
  · exact covers secret (List.mem_filter.mpr ⟨Table.mem_visit.mpr stored, by simpa using onPath⟩)
  · refine below bound positive fun secret listed => ?_
    obtain ⟨visited, onPath⟩ := List.mem_filter.mp listed
    exact small secret (Table.mem_visit.mp visited) (by simpa using onPath)

/-- A version number is left exactly if the newest one is not the greatest. -/
theorem one_le_nextVersion_iff (fits : repo.Fits) (range : MapRange) (path : String) :
    1 ≤ repo.nextVersion range path ↔ repo.newestVersion path < 2 ^ 63 - 1 := by
  obtain ⟨nonneg, -, below⟩ := repo.newestVersion_spec path
  have small := below (2 ^ 63) (by decide) fun secret found _ => fits secret found
  rw [nextVersion_range repo range .sorted]
  change 1 ≤ wrap64 (repo.newestVersion path + 1) ↔ _
  by_cases room : repo.newestVersion path < 2 ^ 63 - 1
  · rw [wrap64_of_lt (by omega) (by omega)]
    exact iff_of_true (by omega) room
  · rw [show repo.newestVersion path = 2 ^ 63 - 1 by omega]
    decide

/-- Every put counts up the newest version of its path. -/
theorem newestVersion_putAtomic {casVersion : Option Int} (fits : repo.Fits)
    (stored : repo.putAtomic range secret casVersion maxVersions = .ok (later, version)) :
    later.newestVersion secret.path = repo.newestVersion secret.path + 1 := by
  have puts := putAtomic_puts fits stored
  obtain ⟨nonneg, covers, below⟩ := repo.newestVersion_spec secret.path
  obtain ⟨-, covers', below'⟩ := later.newestVersion_spec secret.path
  have positive : 1 ≤ version := (SecretVersion.required puts.valid).2.1
  -- the version is allocated one above the newest, as it does not wrap around
  have allocated : version = repo.newestVersion secret.path + 1 := by
    unfold putAtomic at stored
    split at stored
    · cases stored
    obtain ⟨saved, saving, rest⟩ := bind_eq_ok stored
    obtain rfl := (Prod.mk.inj (Except.ok.inj rest)).2
    have room := (one_le_nextVersion_iff fits range _).mp positive
    rw [nextVersion_range repo range .sorted]
    change wrap64 (repo.newestVersion secret.path + 1) = _
    exact wrap64_of_lt (by omega) (by omega)
  have top := covers' _ puts.stored rfl
  have bound := below' (version + 1) (by omega) fun other found onPath => by
    rcases puts.nothingElse other found with rfl | earlier
    · exact Int.lt_succ _
    · have := puts.newest other earlier onPath
      omega
  dsimp only at top
  omega

end SecretRepository

end KnxVault.Repository
