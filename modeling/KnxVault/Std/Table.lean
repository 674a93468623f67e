import KnxVault.Std.Data

/-!
# Tables of rows that carry their key

A table holds valid rows under a key computed from the row. Listing a table
visits it in some order and then sorts; if the sort order separates the rows,
the visiting order does not show.
-/

namespace KnxVault.Std

/-- Valid rows stored under their own key. -/
structure Table {Key Row : Type} [Ord Key] [Std.TransOrd Key] (key : Row → Key)
    (Valid : Row → Prop) where
  rows : Std.ExtTreeMap Key Row
  keyed : ∀ {stored : Key} {row : Row}, rows[stored]? = some row → key row = stored
  valid : ∀ {stored : Key} {row : Row}, rows[stored]? = some row → Valid row

namespace Table

variable {Key Row : Type} [Ord Key] [Std.TransOrd Key] {key : Row → Key}
  {Valid : Row → Prop}

def empty : Table key Valid where
  rows := ∅
  keyed found := by simp at found
  valid found := by simp at found

def find (table : Table key Valid) (wanted : Key) : Option Row :=
  table.rows[wanted]?

/-- The rows in the order of a loop over the table. -/
def visit (table : Table key Valid) (range : MapRange) : List Row :=
  range.order (table.rows.toList.map Prod.snd)

@[simp] theorem find_empty (wanted : Key) : (empty : Table key Valid).find wanted = none := by
  simp [find, empty]

theorem key_of_find {table : Table key Valid} {wanted : Key} {row : Row}
    (found : table.find wanted = some row) : key row = wanted :=
  table.keyed found

theorem valid_of_find {table : Table key Valid} {wanted : Key} {row : Row}
    (found : table.find wanted = some row) : Valid row :=
  table.valid found

theorem perm_visit (table : Table key Valid) (range other : MapRange) :
    (table.visit range).Perm (table.visit other) :=
  (range.perm _).trans (other.perm _).symm

variable [Std.LawfulEqOrd Key]

@[ext] theorem ext {first second : Table key Valid}
    (same : ∀ wanted, first.find wanted = second.find wanted) : first = second := by
  have rows : first.rows = second.rows := Std.ExtTreeMap.ext_getElem? same
  cases first
  cases second
  cases rows
  rfl

theorem mem_visit {table : Table key Valid} {range : MapRange} {row : Row} :
    row ∈ table.visit range ↔ table.find (key row) = some row := by
  rw [visit, MapRange.mem_order, List.mem_map]
  constructor
  · rintro ⟨⟨stored, _⟩, listed, rfl⟩
    have found := Std.ExtTreeMap.mem_toList_iff_getElem?_eq_some.mp listed
    rw [find, table.keyed found]
    exact found
  · intro found
    exact ⟨(key row, row), Std.ExtTreeMap.mem_toList_iff_getElem?_eq_some.mpr found, rfl⟩

/-- No two visited rows have the same key. -/
theorem nodup_visit (table : Table key Valid) (range : MapRange) :
    ((table.visit range).map key).Nodup := by
  refine ((range.perm _).map key).nodup_iff.mpr ?_
  have keys : (table.rows.toList.map Prod.snd).map key = table.rows.keys := by
    rw [List.map_map, ← Std.ExtTreeMap.map_fst_toList_eq_keys]
    refine List.map_congr_left fun binding listed => ?_
    exact table.keyed (Std.ExtTreeMap.mem_toList_iff_getElem?_eq_some.mp listed)
  rw [keys]
  exact table.rows.distinct_keys.imp fun distinct equal =>
    distinct (Std.LawfulEqOrd.compare_eq_iff_eq.mpr equal)

omit [Std.LawfulEqOrd Key] in
/-- Among all rows of a table, the last of a key is the stored one. -/
theorem find?_reverse_rows [DecidableEq Key] {table : Table key Valid} {rows : List Row}
    (members : ∀ row, row ∈ rows ↔ table.find (key row) = some row) (wanted : Key) :
    rows.reverse.find? (fun row => key row = wanted) = table.find wanted := by
  cases found : rows.reverse.find? fun row => key row = wanted with
  | some row =>
    have listed := List.mem_reverse.mp (List.mem_of_find?_eq_some found)
    have keyed : key row = wanted := by simpa using List.find?_some found
    rw [← keyed, (members row).mp listed]
  | none =>
    cases stored : table.find wanted with
    | none => rfl
    | some row =>
      have keyed : key row = wanted := key_of_find stored
      have listed : row ∈ rows.reverse :=
        List.mem_reverse.mpr ((members row).mpr (by rw [keyed, stored]))
      simpa [keyed] using List.find?_eq_none.mp found row listed

/-- Whether some row satisfies a test; the visiting order does not matter. -/
def anyRow (table : Table key Valid) (test : Row → Bool) : Bool :=
  (table.visit MapRange.sorted).any test

theorem anyRow_iff {table : Table key Valid} {test : Row → Bool} :
    table.anyRow test = true ↔ ∃ row, table.find (key row) = some row ∧ test row = true := by
  simp [anyRow, mem_visit]

variable [DecidableEq Key]

def put (table : Table key Valid) (row : Row) (isValid : Valid row) : Table key Valid where
  rows := table.rows.insert (key row) row
  keyed found := by
    rw [getElem?_insert] at found
    split at found
    · cases found; assumption
    · exact table.keyed found
  valid found := by
    rw [getElem?_insert] at found
    split at found
    · cases found; exact isValid
    · exact table.valid found

def remove (table : Table key Valid) (dropped : Key) : Table key Valid where
  rows := table.rows.erase dropped
  keyed found := by
    rw [getElem?_erase] at found
    split at found
    · cases found
    · exact table.keyed found
  valid found := by
    rw [getElem?_erase] at found
    split at found
    · cases found
    · exact table.valid found

theorem find_put (table : Table key Valid) (row : Row) (isValid : Valid row) (wanted : Key) :
    (table.put row isValid).find wanted =
      if key row = wanted then some row else table.find wanted :=
  getElem?_insert ..

@[simp] theorem find_put_self (table : Table key Valid) (row : Row) (isValid : Valid row) :
    (table.put row isValid).find (key row) = some row := by
  rw [find_put, if_pos rfl]

theorem find_remove (table : Table key Valid) (dropped wanted : Key) :
    (table.remove dropped).find wanted =
      if dropped = wanted then none else table.find wanted :=
  getElem?_erase ..

theorem find_foldl_remove (table : Table key Valid) (dropped : List Row) (wanted : Key) :
    (dropped.foldl (fun kept row => kept.remove (key row)) table).find wanted =
      if wanted ∈ dropped.map key then none else table.find wanted := by
  induction dropped generalizing table with
  | nil => simp
  | cons row dropped ih =>
    rw [List.foldl_cons, ih, find_remove]
    by_cases later : wanted ∈ dropped.map key
    · have member : wanted ∈ (row :: dropped).map key := List.mem_cons_of_mem _ later
      rw [if_pos later, if_pos member]
    · have member : wanted ∈ (row :: dropped).map key ↔ key row = wanted := by
        rw [List.map_cons, List.mem_cons, or_iff_left later, eq_comm]
      simp only [if_neg later, member]

end Table

/-! ### Sorting by a strict order -/

/-- Sort by a strict comparison. -/
def sortBy {Row : Type} (less : Row → Row → Bool) (rows : List Row) : List Row :=
  rows.insertionSort fun first second => less second first = false

theorem perm_sortBy {Row : Type} (less : Row → Row → Bool) (rows : List Row) :
    (sortBy less rows).Perm rows :=
  List.perm_insertionSort _ rows

@[simp] theorem mem_sortBy {Row : Type} {less : Row → Row → Bool} {rows : List Row} {row : Row} :
    row ∈ sortBy less rows ↔ row ∈ rows :=
  (perm_sortBy less rows).mem_iff

/-- A comparison of some rank in a linear order. -/
def lessBy {Row Rank : Type} [LinearOrder Rank] (rank : Row → Rank) (first second : Row) : Bool :=
  rank first < rank second

theorem sorted_sortBy {Row Rank : Type} [LinearOrder Rank] (rank : Row → Rank) (rows : List Row) :
    (sortBy (lessBy rank) rows).Pairwise (fun first second => rank first ≤ rank second) := by
  have : Std.Total fun first second : Row => lessBy rank second first = false :=
    ⟨fun first second => by simpa [lessBy] using le_total (rank first) (rank second)⟩
  have : IsTrans Row fun first second : Row => lessBy rank second first = false :=
    ⟨fun first second third => by simpa [lessBy] using le_trans⟩
  have sorted := List.pairwise_insertionSort
    (fun first second : Row => lessBy rank second first = false) rows
  exact sorted.imp fun ordered => by simpa [lessBy] using ordered

/-- Rows of distinct rank have one sorted order. -/
theorem sortBy_eq_of_perm {Row Rank : Type} [LinearOrder Rank] {rank : Row → Rank}
    {first second : List Row} (perm : first.Perm second)
    (separated : ∀ row ∈ first, ∀ other ∈ first, rank row = rank other → row = other) :
    sortBy (lessBy rank) first = sortBy (lessBy rank) second := by
  have sorted := ((perm_sortBy (lessBy rank) first).trans perm).trans
    (perm_sortBy (lessBy rank) second).symm
  refine sorted.eq_of_pairwise ?_ (sorted_sortBy rank first) (sorted_sortBy rank second)
  intro row other inFirst inSecond below above
  exact separated row (mem_sortBy.mp inFirst) other
    (perm.mem_iff.mpr (mem_sortBy.mp inSecond)) (le_antisymm below above)

/-- Sorted lists of the same rows agree on as many rows as come before any tie. -/
theorem take_eq_of_sorted {Row Rank : Type} [LinearOrder Rank] {rank : Row → Rank} {count : Nat}
    {first second : List Row} (perm : first.Perm second)
    (sorted : first.Pairwise fun row other => rank row ≤ rank other)
    (sorted' : second.Pairwise fun row other => rank row ≤ rank other)
    (untied : ∀ row ∈ first, ∀ other ∈ first, rank row = rank other → row ≠ other →
      count ≤ first.countP fun earlier => rank earlier < rank row) :
    first.take count = second.take count := by
  induction first generalizing second count with
  | nil => rw [perm.nil_eq]
  | cons row rest ih =>
    cases count with
    | zero => rfl
    | succ count =>
      cases second with
      | nil => exact absurd perm.symm (by simp)
      | cons other rest' =>
        rw [List.pairwise_cons] at sorted sorted'
        have least : ∀ next ∈ row :: rest, rank row ≤ rank next := by
          simpa using sorted.1
        have least' : ∀ next ∈ other :: rest', rank other ≤ rank next := by
          simpa using sorted'.1
        have inFirst : other ∈ row :: rest := perm.mem_iff.mpr (by simp)
        have level : rank row = rank other :=
          le_antisymm (least other inFirst) (least' row (perm.mem_iff.mp (by simp)))
        -- Nothing comes before the first row, so it is not part of a tie.
        have same : row = other := by
          by_contra differs
          have early := untied row (by simp) other inFirst level differs
          have none : (row :: rest).countP (fun earlier => rank earlier < rank row) = 0 := by
            rw [List.countP_eq_zero]
            intro next listed
            simpa using least next listed
          omega
        subst same
        rw [List.take_succ_cons, List.take_succ_cons, ih (List.Perm.cons_inv perm) sorted.2
          sorted'.2]
        intro next inRest tied inRest' equal differs
        have early := untied next (by simp [inRest]) tied (by simp [inRest']) equal differs
        rw [List.countP_cons] at early
        split at early <;> omega

/-! ### Saving records one after another -/

/-- Save records in turn. The first error stops the loop and leaves the state
that was reached. -/
def saveEach {State Record Error : Type} (save : State → Record → Except Error State) :
    State → List Record → Except (Error × State) State
  | state, [] => .ok state
  | state, record :: rest =>
    match save state record with
    | .ok next => saveEach save next rest
    | .error err => .error (err, state)

/-- If the loop ends, every record was saved at some state. -/
theorem saveEach_saved {State Record Error : Type} {save : State → Record → Except Error State}
    {state later : State} {records : List Record} (ended : saveEach save state records = .ok later)
    {record : Record} (listed : record ∈ records) :
    ∃ before after, save before record = .ok after := by
  induction records generalizing state with
  | nil => cases listed
  | cons first rest ih =>
    rw [saveEach] at ended
    split at ended
    · rename_i next saved
      rcases List.mem_cons.mp listed with rfl | later
      · exact ⟨state, next, saved⟩
      · exact ih ended later
    · cases ended

/-- A loop that ends does so for every save that accepts as much. -/
theorem saveEach_mono {State Record Error : Type} {save other : State → Record → Except Error State}
    (accepts : ∀ state record next, save state record = .ok next → other state record = .ok next)
    {state later : State} {records : List Record}
    (ended : saveEach save state records = .ok later) :
    saveEach other state records = .ok later := by
  induction records generalizing state with
  | nil => exact ended
  | cons record rest ih =>
    rw [saveEach] at ended ⊢
    split at ended
    · rename_i next saved
      rw [accepts state record next saved]
      exact ih ended
    · cases ended

/-- If what a save reports does not depend on the state, neither does what the
loop reports. -/
theorem saveEach_report {State Record Error Report : Type}
    {save other : State → Record → Except Error State} (report : Error → Report)
    (alike : ∀ state state' record,
      ((save state record).mapError report).map (fun _ => ()) =
        ((other state' record).mapError report).map fun _ => ())
    (state state' : State) (records : List Record) :
    ((saveEach save state records).mapError fun failed => report failed.1).map (fun _ => ()) =
      ((saveEach other state' records).mapError fun failed => report failed.1).map
        fun _ => () := by
  induction records generalizing state state' with
  | nil => rfl
  | cons record rest ih =>
    have same := alike state state' record
    rw [saveEach, saveEach]
    cases saved : save state record <;> cases saved' : other state' record <;>
      rw [saved, saved'] at same
    · simpa [Except.mapError, Except.map] using same
    · simp [Except.mapError, Except.map] at same
    · simp [Except.mapError, Except.map] at same
    · exact ih _ _

section SaveTable

variable {Key Row State Record Error : Type} [Ord Key] [Std.TransOrd Key] [Std.LawfulEqOrd Key]
  [DecidableEq Key] {key : Row → Key} {Valid : Row → Prop}

/-- Saving records of distinct keys into an empty table stores exactly their
rows, if a save is accepted whenever the table holds rows of other records only. -/
theorem saveEach_table {save : State → Record → Except Error State}
    (view : State → Table key Valid) (row : Record → Row) {start : State} {records : List Record}
    (blank : ∀ wanted, (view start).find wanted = none)
    (valid : ∀ record ∈ records, Valid (row record))
    (distinct : (records.map fun record => key (row record)).Nodup)
    (accepted : ∀ (state : State) (record : Record) (listed : record ∈ records),
      (∀ stored, (view state).find (key stored) = some stored →
        key stored ≠ key (row record) ∧ ∃ earlier ∈ records, row earlier = stored) →
      ∃ next, save state record = .ok next ∧
        view next = (view state).put (row record) (valid record listed)) :
    ∃ later, saveEach save start records = .ok later ∧
      ∀ stored, (view later).find (key stored) = some stored ↔
        ∃ record ∈ records, row record = stored := by
  -- The records still to come have keys that the table does not hold yet.
  suffices loop : ∀ (done rest : List Record) (state : State), records = done ++ rest →
      (∀ stored, (view state).find (key stored) = some stored ↔
        ∃ record ∈ done, row record = stored) →
      ∃ later, saveEach save state rest = .ok later ∧
        ∀ stored, (view later).find (key stored) = some stored ↔
          ∃ record ∈ records, row record = stored by
    exact loop [] records start rfl (by simp [blank])
  intro done rest
  induction rest generalizing done with
  | nil =>
    intro state split holds
    rw [List.append_nil] at split
    exact ⟨state, rfl, split ▸ holds⟩
  | cons record rest ih =>
    intro state split holds
    have listed : record ∈ records := by simp [split]
    have fresh : ∀ stored, (view state).find (key stored) = some stored →
        key stored ≠ key (row record) := by
      intro stored found same
      obtain ⟨earlier, inDone, rfl⟩ := (holds stored).mp found
      rw [split, List.map_append, List.nodup_append] at distinct
      exact distinct.2.2 _ (List.mem_map_of_mem inDone) _ (by simp) same
    obtain ⟨next, saved, stores⟩ := accepted state record listed fun stored found => by
      obtain ⟨earlier, inDone, same⟩ := (holds stored).mp found
      exact ⟨fresh stored found, earlier, by simp [split, inDone], same⟩
    have extended : ∀ stored, (view next).find (key stored) = some stored ↔
        ∃ earlier ∈ done ++ [record], row earlier = stored := by
      intro stored
      have last : (∃ earlier ∈ done ++ [record], row earlier = stored) ↔
          (∃ earlier ∈ done, row earlier = stored) ∨ row record = stored := by
        simp [or_and_right, exists_or]
      rw [stores, Table.find_put, last, ← holds stored]
      by_cases same : key (row record) = key stored
      · rw [if_pos same, Option.some.injEq]
        have absent : (view state).find (key stored) ≠ some stored := fun found =>
          fresh stored found same.symm
        simp [absent]
      · rw [if_neg same]
        have differs : row record ≠ stored := fun equal => same (equal ▸ rfl)
        simp [differs]
    obtain ⟨later, ended, final⟩ := ih (done ++ [record]) next (by simp [split]) extended
    refine ⟨later, ?_, final⟩
    rw [saveEach, saved]
    exact ended

/-- The rows of the table, each as `shown`, are those of the list. -/
def Table.Holds (table : Table key Valid) (shown : Row → Row) (rows : List Row) : Prop :=
  ∀ row, (∃ stored, table.find (key stored) = some stored ∧ shown stored = row) ↔ row ∈ rows

/-- Every stored row is in the list, and every key in the list is stored. -/
structure Table.Covers (table : Table key Valid) (shown : Row → Row) (rows : List Row) :
    Prop where
  sound : ∀ stored, table.find (key stored) = some stored → shown stored ∈ rows
  complete : ∀ row ∈ rows, (table.find (key row)).isSome

/-- Rows with the same key are the same. -/
def Consistent {Key Row : Type} (key : Row → Key) (rows : List Row) : Prop :=
  ∀ first ∈ rows, ∀ second ∈ rows, key first = key second → first = second

theorem Consistent.of_nodup {Key Row : Type} {key : Row → Key} {rows : List Row}
    (distinct : (rows.map key).Nodup) : Consistent key rows :=
  fun _ inFirst _ inSecond same => List.inj_on_of_nodup_map distinct inFirst inSecond same

omit [Std.LawfulEqOrd Key] [DecidableEq Key] in
/-- Of several rows with one key only one is held. -/
theorem Table.Covers.holds_iff {table : Table key Valid} {shown : Row → Row} {rows : List Row}
    (covers : table.Covers shown rows) (sameKey : ∀ row, key (shown row) = key row) :
    table.Holds shown rows ↔ Consistent key rows := by
  constructor
  · intro holds first inFirst second inSecond same
    obtain ⟨stored, found, rfl⟩ := (holds first).mpr inFirst
    obtain ⟨other, found', rfl⟩ := (holds second).mpr inSecond
    rw [sameKey, sameKey] at same
    rw [same, found'] at found
    cases found
    rfl
  · intro consistent row
    constructor
    · rintro ⟨stored, found, rfl⟩
      exact covers.sound stored found
    · intro listed
      obtain ⟨stored, found⟩ := Option.isSome_iff_exists.mp (covers.complete row listed)
      have own : key stored = key row := Table.key_of_find found
      have inRows := covers.sound stored (own ▸ found)
      exact ⟨stored, own ▸ found,
        consistent _ inRows row listed ((sameKey stored).trans own)⟩

section

variable {table : Table key Valid} {shown : Row → Row} {rows : List Row}

omit [Std.LawfulEqOrd Key] [DecidableEq Key]

theorem Table.Holds.covers (holds : table.Holds shown rows)
    (sameKey : ∀ row, key (shown row) = key row) : table.Covers shown rows := by
  refine ⟨fun stored found => (holds _).mp ⟨stored, found, rfl⟩, fun row listed => ?_⟩
  obtain ⟨stored, found, rfl⟩ := (holds row).mpr listed
  rw [sameKey, found]
  rfl

theorem Table.Covers.map (covers : table.Covers id rows)
    (sameKey : ∀ row, key (shown row) = key row) : table.Covers shown (rows.map shown) := by
  refine ⟨fun stored found => List.mem_map_of_mem (covers.sound stored found), fun row listed => ?_⟩
  obtain ⟨source, inRows, rfl⟩ := List.mem_map.mp listed
  rw [sameKey]
  exact covers.complete source inRows

/-- A table that covers the records of the rows of another holds what these rows
become. -/
theorem Table.Covers.find_of_listed {Stored : Row → Prop} {source : Table key Stored}
    {records : List Record} {convert : Row → Record} {back : Record → Row}
    (covers : table.Covers id (records.map back)) (exported : records = rows.map convert)
    (listed : ∀ row, row ∈ rows ↔ source.find (key row) = some row)
    (sameKey : ∀ row, key (back (convert row)) = key row) (wanted : Key) :
    table.find wanted = (source.find wanted).map fun row => back (convert row) := by
  subst exported
  have origin : ∀ {stored : Row}, table.find wanted = some stored →
      ∃ row, source.find wanted = some row ∧ back (convert row) = stored := by
    intro stored found
    obtain rfl := Table.key_of_find found
    obtain ⟨_, inRecords, same⟩ := List.mem_map.mp (covers.sound stored found)
    obtain ⟨row, inRows, rfl⟩ := List.mem_map.mp inRecords
    obtain rfl : back (convert row) = stored := same
    exact ⟨row, sameKey row ▸ (listed row).mp inRows, rfl⟩
  cases found : table.find wanted with
  | some stored =>
    obtain ⟨row, inSource, rfl⟩ := origin found
    rw [inSource]
    rfl
  | none =>
    cases inSource : source.find wanted with
    | none => rfl
    | some row =>
      obtain rfl := Table.key_of_find inSource
      have kept := covers.complete _ (List.mem_map_of_mem (List.mem_map_of_mem
        ((listed row).mpr inSource)))
      rw [sameKey, found] at kept
      cases kept

end

omit [Std.LawfulEqOrd Key] [DecidableEq Key] in
theorem Table.covers_empty : (Table.empty : Table key Valid).Covers id [] := by
  constructor <;> simp

theorem Table.Covers.put {table : Table key Valid} {rows : List Row}
    (covers : table.Covers id rows) (stored : Row) (isValid : Valid stored) :
    (table.put stored isValid).Covers id (rows ++ [stored]) := by
  constructor
  · intro other found
    rw [Table.find_put] at found
    split at found
    · cases found
      simp
    · exact List.mem_append_left _ (covers.sound other found)
  · intro row listed
    rw [Table.find_put]
    split
    · rfl
    · rename_i other
      rcases List.mem_append.mp listed with earlier | last
      · exact covers.complete row earlier
      · rw [List.mem_singleton.mp last] at other
        exact absurd rfl other

/-- Saves that overwrite leave a table that covers the records. -/
theorem saveEach_covers {save : Table key Valid → Record → Except Error (Table key Valid)}
    {records : List Record} (row : Record → Row)
    (accepted : ∀ table, ∀ record ∈ records, ∃ isValid : Valid (row record),
      save table record = .ok (table.put (row record) isValid)) :
    ∃ later, saveEach save .empty records = .ok later ∧ later.Covers id (records.map row) := by
  suffices loop : ∀ (rest : List Record) (table : Table key Valid) (rows : List Row),
      (∀ record ∈ rest, record ∈ records) → table.Covers id rows →
      ∃ later, saveEach save table rest = .ok later ∧
        later.Covers id (rows ++ rest.map row) from
    loop records .empty [] (fun _ listed => listed) Table.covers_empty
  intro rest
  induction rest with
  | nil =>
    intro table rows _ covers
    exact ⟨table, rfl, by simpa using covers⟩
  | cons record rest ih =>
    intro table rows inside covers
    obtain ⟨first, others⟩ := List.forall_mem_cons.mp inside
    obtain ⟨isValid, saved⟩ := accepted table record first
    obtain ⟨later, ended, final⟩ := ih _ _ others (covers.put (row record) isValid)
    refine ⟨later, ?_, by simpa using final⟩
    rw [saveEach, saved]
    exact ended

end SaveTable

end KnxVault.Std
