import KnxVault.Domain.Audit
import KnxVault.Repository.Basic

/-!
# The audit log

Entries are numbered as they are appended. A listing orders them by time and
cuts out a page; a page outside the listing makes the slice expression of the
source panic, which is `none` here.
-/

namespace KnxVault.Repository

open KnxVault.Std KnxVault.Domain

/-- A sum as the 64-bit machine computes it. -/
def wrap64 (number : Int) : Int :=
  number.bmod (2 ^ 64)

theorem wrap64_of_lt {number : Int} (nonneg : 0 ≤ number) (fits : number < 2 ^ 63) :
    wrap64 number = number := by
  unfold wrap64
  rw [Int.bmod_def]
  split <;> omega

structure AuditListOptions where
  since : Option Time := none
  limit : Int := 0
  offset : Int := 0
  orderAsc : Bool := false
deriving DecidableEq, Repr

structure AuditRepository where
  entries : List Entry
  nextID : Int
  numbered : ∀ {index : Nat} {entry : Entry}, entries[index]? = some entry → entry.id = index + 1
  next : nextID = entries.length + 1
  valid : ∀ entry ∈ entries, entry.validate = .ok ()

namespace AuditRepository

def empty : AuditRepository where
  entries := []
  nextID := 1
  numbered found := by simp at found
  next := rfl
  valid := by simp

/-- Two logs with the same entries are the same. -/
@[ext] theorem ext {first second : AuditRepository} (same : first.entries = second.entries) :
    first = second := by
  cases first with
  | mk entries nextID numbered next valid =>
    cases second with
    | mk _ _ _ other _ =>
      cases same
      cases next
      cases other
      rfl

/-- The log with one more entry, which gets the next number. -/
def push (repo : AuditRepository) (entry : Entry) (isValid : entry.validate = .ok ()) :
    AuditRepository where
  entries := repo.entries ++ [{ entry with id := repo.nextID }]
  nextID := repo.nextID + 1
  numbered := by
    intro index stored found
    rw [List.getElem?_append] at found
    split at found
    · exact repo.numbered found
    · rename_i past
      rw [List.getElem?_singleton] at found
      split at found
      · cases found
        have next := repo.next
        simp only
        omega
      · cases found
  next := by
    have next := repo.next
    simp only [List.length_append, List.length_singleton]
    omega
  valid := by
    intro stored listed
    rcases List.mem_append.mp listed with earlier | last
    · exact repo.valid stored earlier
    · rw [List.mem_singleton.mp last]
      exact isValid

/-- The log after the entry, and the entry with its number. -/
def append (repo : AuditRepository) (entry : Entry) :
    Except KNXVaultError (AuditRepository × Entry) :=
  match checked : entry.validate with
  | .ok _ => .ok (repo.push entry checked, { entry with id := repo.nextID })
  | .error cause =>
    .error { code := .validation, message := "invalid audit entry", cause := some cause }

theorem append_ok_iff {repo : AuditRepository} {entry : Entry}
    {result : AuditRepository × Entry} :
    repo.append entry = .ok result ↔
      ∃ valid : entry.validate = .ok (),
        result = (repo.push entry valid, { entry with id := repo.nextID }) := by
  unfold append
  split
  · rename_i checked
    simp [checked, eq_comm]
  · simp_all

theorem append_of_error {repo : AuditRepository} {entry : Entry} {cause : String}
    (failed : entry.validate = .error cause) :
    repo.append entry =
      .error { code := .validation, message := "invalid audit entry", cause := some cause } := by
  unfold append
  split <;> simp_all

/-- The numbers of the entries give their order. -/
theorem eq_of_perm {log other : AuditRepository} (perm : log.entries.Perm other.entries) :
    log = other := by
  have increasing : ∀ log : AuditRepository,
      log.entries.Pairwise fun first second => first.id ≤ second.id := by
    intro log
    rw [List.pairwise_iff_getElem]
    intro index later inside inside' before
    rw [log.numbered (List.getElem?_eq_getElem inside),
      log.numbered (List.getElem?_eq_getElem inside')]
    omega
  refine ext (perm.eq_of_pairwise ?_ (increasing log) (increasing other))
  intro first second inLog inOther below above
  -- Both logs hold the entry at the place that its number names.
  obtain ⟨index, found⟩ := List.mem_iff_getElem?.mp inLog
  obtain ⟨index', found'⟩ := List.mem_iff_getElem?.mp (perm.mem_iff.mpr inOther)
  have place := log.numbered found
  have place' := log.numbered found'
  obtain rfl : index = index' := by omega
  exact Option.some.inj (found.symm.trans found')

/-- By time and then by number, or the other way round. -/
def rank (orderAsc : Bool) (entry : Entry) : Int ×ₗ Int :=
  if orderAsc then toLex (entry.timestamp.instant, entry.id)
  else toLex (-entry.timestamp.instant, -entry.id)

/-- The slice from `start` of at most `limit` rows. -/
def page {Row : Type} (start limit : Int) (rows : List Row) : Option (List Row) :=
  if rows.length < start then some []
  else
    let stop := min (wrap64 (start + limit)) rows.length
    if 0 ≤ start ∧ start ≤ stop then some ((rows.drop start.toNat).take (stop - start).toNat)
    else none

def list (repo : AuditRepository) (opts : AuditListOptions) : Option (List Entry) :=
  let filtered := repo.entries.filter fun entry =>
    opts.since.all fun since => !entry.timestamp.before since
  page opts.offset (if opts.limit ≤ 0 then 100 else opts.limit)
    (sortBy (lessBy (rank opts.orderAsc)) filtered)

def latestHash (repo : AuditRepository) : String :=
  (repo.entries.getLast?.map Entry.hash).getD ""

end AuditRepository

/-- The entries of the log in order of time. -/
def orderedEntries (repo : AuditRepository) : List Entry :=
  sortBy (lessBy (AuditRepository.rank true)) repo.entries

/-- A first page that the machine can count to is a first part of the rows. -/
theorem page_zero {Row : Type} {rows : List Row} {limit : Int} (positive : 0 < limit)
    (fits : limit < 2 ^ 63) : AuditRepository.page 0 limit rows = some (rows.take limit.toNat) := by
  unfold AuditRepository.page
  rw [if_neg (by omega), Int.zero_add, wrap64_of_lt positive.le fits]
  simp only [Int.sub_zero, Int.toNat_zero, List.drop_zero]
  rw [if_pos (by omega)]
  rcases le_total limit rows.length with short | long
  · rw [min_eq_left short]
  · rw [min_eq_right long, Int.toNat_natCast, List.take_length,
      List.take_of_length_le (by omega)]

/-- A first page of the log in order of time. -/
theorem list_asc {repo : AuditRepository} {limit : Int} (positive : 0 < limit)
    (fits : limit < 2 ^ 63) :
    repo.list { limit, orderAsc := true } = some ((orderedEntries repo).take limit.toNat) := by
  have everything : repo.entries.filter
      (fun entry => (none : Option Time).all fun since => !entry.timestamp.before since) =
      repo.entries := List.filter_eq_self.mpr fun _ _ => rfl
  simp only [AuditRepository.list, if_neg (not_le.mpr positive), everything]
  exact page_zero positive fits

/-- Entries in order of time keep their place. -/
theorem orderedEntries_of_sorted {log : AuditRepository}
    (sorted : log.entries.Pairwise fun first second =>
      first.timestamp.instant ≤ second.timestamp.instant) :
    orderedEntries log = log.entries := by
  refine List.Pairwise.insertionSort_eq ?_
  rw [List.pairwise_iff_getElem] at sorted ⊢
  intro index later inside inside' before
  have first := log.numbered (List.getElem?_eq_getElem inside)
  have second := log.numbered (List.getElem?_eq_getElem inside')
  have times := sorted index later inside inside' before
  simp only [lessBy, AuditRepository.rank, if_true, decide_eq_false_iff_not, not_lt,
    Prod.Lex.toLex_le_toLex]
  omega

end KnxVault.Repository
