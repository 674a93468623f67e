import KnxVault.Domain.Pki
import KnxVault.Repository.Basic

/-!
# Repositories of authorities, PKI roles, issued certificates and revocations

The repositories of `internal/repository/memory` for `internal/domain/pki`.
Identifiers are compared as numbers, which orders them as their texts.
-/

namespace KnxVault.Repository

open KnxVault.Std KnxVault.Domain

/-- Authorities by identifier; no two have the same name. -/
structure CARepository where
  byID : Table CA.id fun ca => ca.validate = .ok ()
  distinct : ∀ {first second : CA}, byID.find first.id = some first →
    byID.find second.id = some second → first.name = second.name → first = second

namespace CARepository

def empty : CARepository where
  byID := .empty
  distinct found := by simp at found

@[ext] theorem ext {first second : CARepository} (same : first.byID = second.byID) :
    first = second := by
  cases first
  cases second
  cases same
  rfl

/-- Whether another authority has the name. -/
def nameTaken (repo : CARepository) (ca : CA) : Bool :=
  repo.byID.anyRow fun existing => existing.id ≠ ca.id && existing.name = ca.name

theorem nameTaken_iff {repo : CARepository} {ca : CA} :
    repo.nameTaken ca = true ↔
      ∃ existing, repo.byID.find existing.id = some existing ∧ existing.id ≠ ca.id ∧
        existing.name = ca.name := by
  simp [nameTaken, Table.anyRow_iff]

/-- Store an authority whose name no other one has. -/
def put (repo : CARepository) (ca : CA) (isValid : ca.validate = .ok ())
    (free : repo.nameTaken ca = false) : CARepository where
  byID := repo.byID.put ca isValid
  distinct := by
    have noOther : ∀ other, repo.byID.find other.id = some other → other.id ≠ ca.id →
        other.name ≠ ca.name := by
      intro other found differs same
      have taken := nameTaken_iff.mpr ⟨other, found, differs, same⟩
      rw [free] at taken
      cases taken
    intro first second foundFirst foundSecond same
    rw [Table.find_put] at foundFirst foundSecond
    split at foundFirst <;> split at foundSecond
    · cases foundFirst
      cases foundSecond
      rfl
    · cases foundFirst
      exact absurd same.symm (noOther second foundSecond (Ne.symm ‹_›))
    · cases foundSecond
      exact absurd same (noOther first foundFirst (Ne.symm ‹_›))
    · exact repo.distinct foundFirst foundSecond same

def save (repo : CARepository) (ca : CA) : Except KNXVaultError CARepository :=
  match checked : ca.validate with
  | .error cause => .error { code := .validation, message := "invalid ca", cause := some cause }
  | .ok _ =>
    if free : repo.nameTaken ca = false then .ok (repo.put ca checked free)
    else failWith .validation "ca name already exists"

def getByID (repo : CARepository) (id : Uuid) : Except KNXVaultError CA :=
  getRow repo.byID "ca not found" id

def getByName (repo : CARepository) (range : MapRange) (name : String) :
    Except KNXVaultError CA :=
  match (repo.byID.visit range).find? fun ca => ca.name = name with
  | some ca => .ok ca
  | none => failWith .notFound "ca not found"

def list (repo : CARepository) (range : MapRange) : List CA :=
  listBy (fun ca : CA => ca.createdAt.instant) range repo.byID

theorem save_ok_iff {repo later : CARepository} {ca : CA} :
    repo.save ca = .ok later ↔
      ∃ (checked : ca.validate = .ok ()) (free : repo.nameTaken ca = false),
        later = repo.put ca checked free := by
  unfold save
  split
  · simp_all
  · rename_i checked
    split
    · rename_i free
      simp [checked, free, eq_comm]
    · rename_i taken
      simp [taken]

/-- Names are unique, so the visiting order does not matter. -/
theorem getByName_ok_iff {repo : CARepository} {range : MapRange} {name : String} {ca : CA} :
    repo.getByName range name = .ok ca ↔ repo.byID.find ca.id = some ca ∧ ca.name = name := by
  unfold getByName
  split
  · rename_i found first
    have listed := Table.mem_visit.mp (List.mem_of_find?_eq_some first)
    have named : found.name = name := by simpa using List.find?_some first
    simp only [Except.ok.injEq]
    constructor
    · rintro rfl
      exact ⟨listed, named⟩
    · rintro ⟨stored, same⟩
      exact repo.distinct listed stored (named.trans same.symm)
  · rename_i none
    have missing := List.find?_eq_none.mp none
    simp only [reduceCtorEq, false_iff, not_and]
    intro stored same
    exact missing ca (Table.mem_visit.mpr stored) (by simpa using same)

theorem getByName_range (repo : CARepository) (range other : MapRange) (name : String) :
    repo.getByName range name = repo.getByName other name := by
  cases found : repo.getByName range name with
  | ok ca => exact (getByName_ok_iff.mpr (getByName_ok_iff.mp found)).symm
  | error err =>
    cases found' : repo.getByName other name with
    | ok ca =>
      rw [getByName_ok_iff.mpr (getByName_ok_iff.mp found')] at found
      cases found
    | error err' =>
      unfold getByName at found found'
      split at found <;> cases found
      split at found' <;> cases found'
      rfl

end CARepository

/-- A stored role passes its check and has its usage set. -/
def StoredPKIRole (role : PKIRole) : Prop :=
  role.validate = .ok () ∧ role.normalize = role

abbrev PKIRoleRepository := Table PKIRole.name StoredPKIRole

namespace PKIRoleRepository

/-- Store a role; the check sets its usage. -/
def save (repo : PKIRoleRepository) (role : PKIRole) : Except KNXVaultError PKIRoleRepository :=
  saveRow repo "invalid pki role" role.normalize role.validate fun passed =>
    ⟨role.validate_normalize.trans passed, role.normalize_normalize⟩

def get (repo : PKIRoleRepository) (name : String) : Except KNXVaultError PKIRole :=
  getRow repo "pki role not found" name

def list (repo : PKIRoleRepository) (range : MapRange) : List PKIRole :=
  listBy PKIRole.name range repo

end PKIRoleRepository

/-- The authority and the serial of a certificate. -/
def certKey (cert : IssuedCertificate) : Uuid ×ₗ String :=
  toLex (cert.caID, cert.serial)

abbrev IssuedCertRepository := Table certKey fun cert => cert.validate = .ok ()

namespace IssuedCertRepository

def save (repo : IssuedCertRepository) (cert : IssuedCertificate) :
    Except KNXVaultError IssuedCertRepository :=
  saveRow repo "invalid issued certificate" cert cert.validate fun passed => passed

def getBySerial (repo : IssuedCertRepository) (caID : Uuid) (serial : String) :
    Except KNXVaultError IssuedCertificate :=
  getRow repo "issued certificate not found" (toLex (caID, serial))

def list (repo : IssuedCertRepository) (range : MapRange) : List IssuedCertificate :=
  listBy (fun cert : IssuedCertificate => toLex (cert.caID.toNat, cert.serial)) range repo

theorem list_range (repo : IssuedCertRepository) (range other : MapRange) :
    repo.list range = repo.list other := by
  refine listBy_range ?_ range other
  intro cert cert' stored stored' same
  have sameKey : certKey cert = certKey cert' := by
    simp only [EmbeddingLike.apply_eq_iff_eq, Prod.mk.injEq] at same
    rw [certKey, certKey, BitVec.eq_of_toNat_eq same.1, same.2]
  rw [sameKey, stored'] at stored
  exact (Option.some.inj stored).symm

/-- Certificates to renew that expire by a time, the earliest first. -/
def listExpiring (repo : IssuedCertRepository) (range : MapRange) (before : Time) (limit : Int) :
    List IssuedCertificate :=
  limited 100 limit (sortBy (lessBy fun cert : IssuedCertificate => cert.expiresAt.instant)
    ((repo.visit range).filter fun cert => cert.autoRenew && !cert.expiresAt.after before))

end IssuedCertRepository

structure RevokedCertificate where
  serial : String
  caID : Uuid
  revokedAt : Time := {}
  reason : String := ""
deriving DecidableEq, Repr

/-- Revocations by serial and, in order of arrival, by authority. Both maps hold
the same certificates. -/
structure RevocationRepository where
  serial : Table RevokedCertificate.serial fun _ => True
  byCA : Std.ExtTreeMap Uuid (List RevokedCertificate)
  agree : ∀ {cert : RevokedCertificate},
    serial.find cert.serial = some cert ↔ cert ∈ byCA[cert.caID]?.getD []
  owned : ∀ {caID : Uuid} {certs : List RevokedCertificate}, byCA[caID]? = some certs →
    certs ≠ [] ∧ (∀ cert ∈ certs, cert.caID = caID) ∧
      (certs.map RevokedCertificate.serial).Nodup

namespace RevocationRepository

def empty : RevocationRepository where
  serial := .empty
  byCA := ∅
  agree := by simp
  owned found := by simp at found

def listByCA (repo : RevocationRepository) (caID : Uuid) : List RevokedCertificate :=
  repo.byCA[caID]?.getD []

def isRevoked (repo : RevocationRepository) (serial : String) : Bool :=
  (repo.serial.find serial).isSome

theorem mem_listByCA {repo : RevocationRepository} {caID : Uuid} {cert : RevokedCertificate} :
    cert ∈ repo.listByCA caID ↔ repo.serial.find cert.serial = some cert ∧ cert.caID = caID := by
  unfold listByCA
  constructor
  · intro listed
    cases found : repo.byCA[caID]? with
    | none => simp [found] at listed
    | some certs =>
      have own : cert.caID = caID := (repo.owned found).2.1 cert (by simpa [found] using listed)
      rw [← own] at listed
      exact ⟨repo.agree.mpr listed, own⟩
  · rintro ⟨stored, rfl⟩
    exact repo.agree.mp stored

theorem nodup_listByCA (repo : RevocationRepository) (caID : Uuid) :
    ((repo.listByCA caID).map RevokedCertificate.serial).Nodup := by
  unfold listByCA
  cases found : repo.byCA[caID]? with
  | none => simp
  | some certs => exact (repo.owned found).2.2

/-- The lists by authority determine the repository. -/
@[ext] theorem ext {first second : RevocationRepository}
    (same : ∀ caID, first.listByCA caID = second.listByCA caID) : first = second := by
  have byCA : first.byCA = second.byCA := by
    refine Std.ExtTreeMap.ext_getElem? fun caID => ?_
    have lists := same caID
    unfold listByCA at lists
    cases inFirst : first.byCA[caID]? with
    | none =>
      cases inSecond : second.byCA[caID]? with
      | none => rfl
      | some certs =>
        rw [inFirst, inSecond] at lists
        exact absurd lists.symm (second.owned inSecond).1
    | some certs =>
      cases inSecond : second.byCA[caID]? with
      | none =>
        rw [inFirst, inSecond] at lists
        exact absurd lists (first.owned inFirst).1
      | some others =>
        rw [inFirst, inSecond] at lists
        exact congrArg some lists
  have serial : first.serial = second.serial := by
    refine Table.ext fun wanted => Option.ext fun cert => ?_
    constructor <;> intro found <;> obtain rfl := Table.key_of_find found
    · exact second.agree.mpr (byCA ▸ first.agree.mp found)
    · exact first.agree.mpr (byCA.symm ▸ second.agree.mp found)
  cases first
  cases second
  cases byCA
  cases serial
  rfl

/-- Record a certificate whose serial is not yet revoked. -/
def insert (repo : RevocationRepository) (cert : RevokedCertificate)
    (fresh : repo.serial.find cert.serial = none) : RevocationRepository where
  serial := repo.serial.put cert trivial
  byCA := repo.byCA.insert cert.caID (repo.listByCA cert.caID ++ [cert])
  agree := by
    intro other
    rw [Table.find_put, getElem?_insert]
    by_cases sameCA : cert.caID = other.caID
    · rw [if_pos sameCA, Option.getD_some, List.mem_append, List.mem_singleton, mem_listByCA]
      by_cases sameSerial : cert.serial = other.serial
      · rw [if_pos sameSerial, ← sameSerial, fresh]
        simp [eq_comm]
      · rw [if_neg sameSerial]
        have differs : other ≠ cert := fun same => sameSerial (same ▸ rfl)
        simp [differs, sameCA]
    · rw [if_neg sameCA, ← listByCA, mem_listByCA]
      by_cases sameSerial : cert.serial = other.serial
      · rw [if_pos sameSerial, ← sameSerial, fresh]
        have differs : cert ≠ other := fun same => sameCA (same ▸ rfl)
        simp [differs]
      · rw [if_neg sameSerial]
        simp
  owned := by
    intro caID certs found
    rw [getElem?_insert] at found
    split at found
    · rename_i same
      cases found
      refine ⟨by simp, ?_, ?_⟩
      · intro other listed
        rcases List.mem_append.mp listed with earlier | last
        · exact (mem_listByCA.mp earlier).2.trans same
        · rw [List.mem_singleton.mp last, same]
      · rw [List.map_append, List.nodup_append]
        refine ⟨repo.nodup_listByCA _, by simp, ?_⟩
        intro serial listed _ last equal
        obtain ⟨other, earlier, rfl⟩ := List.mem_map.mp listed
        have stored := (mem_listByCA.mp earlier).1
        simp only [List.map_cons, List.map_nil, List.mem_singleton] at last
        rw [equal, last, fresh] at stored
        cases stored
    · exact repo.owned found

/-- Record a certificate; a serial that is already revoked stays as it is. -/
def revoke (repo : RevocationRepository) (cert : RevokedCertificate) : RevocationRepository :=
  if fresh : repo.serial.find cert.serial = none then repo.insert cert fresh else repo

theorem listByCA_insert (repo : RevocationRepository) (cert : RevokedCertificate)
    (fresh : repo.serial.find cert.serial = none) (caID : Uuid) :
    (repo.insert cert fresh).listByCA caID =
      if cert.caID = caID then repo.listByCA caID ++ [cert] else repo.listByCA caID := by
  rw [listByCA, insert, getElem?_insert]
  split
  · rename_i same
    rw [same, Option.getD_some]
  · rfl

theorem find_insert (repo : RevocationRepository) (cert : RevokedCertificate)
    (fresh : repo.serial.find cert.serial = none) (serial : String) :
    (repo.insert cert fresh).serial.find serial =
      if cert.serial = serial then some cert else repo.serial.find serial :=
  Table.find_put repo.serial cert trivial serial

/-- Fresh certificates of distinct serials are all recorded, in order. -/
theorem listByCA_foldl_revoke {repo : RevocationRepository} {certs : List RevokedCertificate}
    (distinct : (certs.map RevokedCertificate.serial).Nodup)
    (fresh : ∀ cert ∈ certs, repo.serial.find cert.serial = none) (caID : Uuid) :
    (certs.foldl revoke repo).listByCA caID =
      repo.listByCA caID ++ certs.filter fun cert => cert.caID = caID := by
  induction certs generalizing repo with
  | nil => simp
  | cons cert rest ih =>
    have isFresh := fresh cert List.mem_cons_self
    rw [List.map_cons, List.nodup_cons] at distinct
    have stillFresh : ∀ other ∈ rest,
        (repo.insert cert isFresh).serial.find other.serial = none := by
      intro other listed
      have differs : cert.serial ≠ other.serial := fun same =>
        distinct.1 (List.mem_map.mpr ⟨other, listed, same.symm⟩)
      rw [find_insert, if_neg differs]
      exact fresh other (List.mem_cons_of_mem _ listed)
    rw [List.foldl_cons, revoke, dif_pos isFresh, ih distinct.2 stillFresh, listByCA_insert]
    by_cases own : cert.caID = caID <;> simp [own]

end RevocationRepository

end KnxVault.Repository
