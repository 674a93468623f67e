import KnxVault.Domain.Common
import KnxVault.Std.Table

/-!
# Operations shared by the in-memory repositories

The repositories of `internal/repository/memory` are maps from a field of the
stored record to the record. Saving checks the record, reading and deleting
report a missing record, and listing sorts what a loop over the map collects.
-/

namespace KnxVault.Repository

open KnxVault.Std KnxVault.Domain

variable {Key Row Rank : Type} [Ord Key] [Std.TransOrd Key] {key : Row → Key}
  {Valid : Row → Prop}

def getRow (table : Table key Valid) (missing : String) (wanted : Key) :
    Except KNXVaultError Row :=
  match table.find wanted with
  | some row => .ok row
  | none => failWith .notFound missing

variable {table : Table key Valid} {missing : String} {wanted : Key} {row : Row}

theorem getRow_ok_iff :
    getRow table missing wanted = .ok row ↔ table.find wanted = some row := by
  unfold getRow
  cases table.find wanted <;> simp

/-- All rows by increasing rank. -/
def listBy [LinearOrder Rank] (rank : Row → Rank) (range : MapRange) (table : Table key Valid) :
    List Row :=
  sortBy (lessBy rank) (table.visit range)

/-- The first rows of a list; a limit that is not positive means the default. -/
def limited (default limit : Int) (rows : List Row) : List Row :=
  rows.take (if limit ≤ 0 then default else limit).toNat

theorem mem_listBy [Std.LawfulEqOrd Key] [LinearOrder Rank] {rank : Row → Rank} {range : MapRange} :
    row ∈ listBy rank range table ↔ table.find (key row) = some row := by
  rw [listBy, mem_sortBy, Table.mem_visit]

theorem nodup_listBy [Std.LawfulEqOrd Key] [LinearOrder Rank] (rank : Row → Rank)
    (range : MapRange) (table : Table key Valid) : ((listBy rank range table).map key).Nodup :=
  ((perm_sortBy _ _).map key).nodup_iff.mpr (table.nodup_visit range)

/-- A rank that separates the rows hides the visiting order. -/
theorem listBy_range [LinearOrder Rank] {rank : Row → Rank}
    (separated : ∀ row other, table.find (key row) = some row →
      table.find (key other) = some other → rank row = rank other → row = other)
    [Std.LawfulEqOrd Key] (range other : MapRange) :
    listBy rank range table = listBy rank other table := by
  refine sortBy_eq_of_perm ((range.perm _).trans (other.perm _).symm) ?_
  intro row inTable other inTable' same
  exact separated row other (Table.mem_visit.mp inTable) (Table.mem_visit.mp inTable') same

/-- The name that is the key separates the rows. -/
theorem listBy_name_range {name : Row → String} (table : Table name Valid)
    (range other : MapRange) : listBy name range table = listBy name other table := by
  refine listBy_range ?_ range other
  intro row row' stored stored' same
  rw [same, stored'] at stored
  exact (Option.some.inj stored).symm

variable [Std.LawfulEqOrd Key] [DecidableEq Key]

/-- The row of a key, looked up in a list of all rows. -/
theorem find?_reverse_listBy [LinearOrder Rank] (rank : Row → Rank) (range : MapRange)
    (table : Table key Valid) (wanted : Key) :
    (listBy rank range table).reverse.find? (fun row => key row = wanted) = table.find wanted :=
  Table.find?_reverse_rows (fun _ => mem_listBy) wanted

/-- What a check that passed shows. -/
theorem valid_of_passed {value : Unit}
    (sound : (Except.ok value : Except String Unit) = .ok () → Valid row) : Valid row :=
  sound rfl

/-- Store a row if its check passes; a row that passes is valid. -/
def saveRow (table : Table key Valid) (invalid : String) (row : Row) (check : Except String Unit)
    (sound : check = .ok () → Valid row) : Except KNXVaultError (Table key Valid) :=
  match check, sound with
  | .ok _, sound => .ok (table.put row (valid_of_passed sound))
  | .error cause, _ => .error { code := .validation, message := invalid, cause := some cause }

def deleteRow (table : Table key Valid) (missing : String) (dropped : Key) :
    Except KNXVaultError (Table key Valid) :=
  match table.find dropped with
  | some _ => .ok (table.remove dropped)
  | none => failWith .notFound missing

/-- Replace the row under a key by a changed one, which stays valid. -/
def changeRow (table : Table key Valid) (missing : String) (wanted : Key) (change : Row → Row)
    (stays : ∀ row, Valid row → Valid (change row)) : Except KNXVaultError (Table key Valid) :=
  match found : table.find wanted with
  | some row => .ok (table.put (change row) (stays row (Table.valid_of_find found)))
  | none => failWith .notFound missing

variable {invalid : String} {check : Except String Unit} {sound : check = .ok () → Valid row}

/-- A row that passes is stored. -/
theorem saveRow_of_ok {stored : Row} (passed : check = .ok ()) (same : row = stored)
    (isValid : Valid stored) :
    saveRow table invalid row check sound = .ok (table.put stored isValid) := by
  subst same
  subst passed
  rfl

theorem saveRow_of_error {cause : String} (failed : check = .error cause) :
    saveRow table invalid row check sound =
      .error { code := .validation, message := invalid, cause := some cause } := by
  subst failed
  rfl

variable {later : Table key Valid}

theorem saveRow_ok_iff :
    saveRow table invalid row check sound = .ok later ↔
      ∃ passed : check = .ok (), later = table.put row (sound passed) := by
  cases check <;> simp [saveRow, eq_comm]

/-- Two checks that pass alike save alike and report alike. -/
theorem saveRow_alike {other : Except String Unit} {sound' : other = .ok () → Valid row}
    (alike : check = .ok () ↔ other = .ok ()) :
    (saveRow table invalid row check sound).mapError (fun err => (err.code, err.message)) =
      (saveRow table invalid row other sound').mapError fun err => (err.code, err.message) := by
  cases check <;> cases other <;> simp_all [saveRow, Except.mapError]

theorem deleteRow_ok_iff {dropped : Key} :
    deleteRow table missing dropped = .ok later ↔
      (∃ row, table.find dropped = some row) ∧ later = table.remove dropped := by
  unfold deleteRow
  cases table.find dropped <;> simp [eq_comm]

variable {change : Row → Row} {stays : ∀ row, Valid row → Valid (change row)}

theorem changeRow_of_none (absent : table.find wanted = none) :
    changeRow table missing wanted change stays = failWith .notFound missing := by
  unfold changeRow
  split <;> simp_all

theorem changeRow_ok_iff :
    changeRow table missing wanted change stays = .ok later ↔
      ∃ row, ∃ found : table.find wanted = some row,
        later = table.put (change row) (stays row (Table.valid_of_find found)) := by
  unfold changeRow
  split
  · rename_i row found
    simp [found, eq_comm]
  · rename_i missing
    simp [missing]

theorem changeRow_of_find (found : table.find wanted = some row) :
    changeRow table missing wanted change stays =
      .ok (table.put (change row) (stays row (Table.valid_of_find found))) :=
  changeRow_ok_iff.mpr ⟨row, found, rfl⟩

/-- A change that leaves the key is found under it, and nothing else changes. -/
theorem find_of_changeRow (changed : changeRow table missing wanted change stays = .ok later)
    (keeps : ∀ row, key (change row) = key row) (other : Key) :
    later.find other = if wanted = other then (table.find other).map change
      else table.find other := by
  obtain ⟨row, found, rfl⟩ := changeRow_ok_iff.mp changed
  rw [Table.find_put, keeps, Table.key_of_find found]
  split
  · rename_i same
    subst same
    rw [found, Option.map_some]
  · rfl

end KnxVault.Repository
