import Mathlib

/-!
# Bytes, errors and maps

A map is a `Std.ExtTreeMap`: two maps with the same bindings are equal. A loop
over a map may visit the bindings in any order; `MapRange` is one such choice.
Results that quantify over it hold for every visiting order.
-/

namespace KnxVault.Std

abbrev Byte := BitVec 8

abbrev Bytes := List Byte

instance transOrdByte : Std.TransOrd Byte := inferInstance

theorem isLE_compare_byte {first second : Byte} :
    (compare first second).isLE = true ↔ first.toNat ≤ second.toNat :=
  isLE_compareOfLessAndEq (by bv_omega) (by bv_omega) (by bv_omega)

theorem toNat_byte_pos {byte : Byte} (nonzero : byte ≠ 0) : 0 < byte.toNat := by
  bv_omega

variable {ε α β : Type} {first : Except ε α} {result : β}

/-- A sequence that succeeds does so in both parts. -/
theorem bind_eq_ok {next : α → Except ε β} (bound : (first >>= next) = .ok result) :
    ∃ value, first = .ok value ∧ next value = .ok result := by
  cases first with
  | error err => cases bound
  | ok value => exact ⟨value, rfl, bound⟩

theorem bind_ok_iff {next : α → Except ε β} :
    (first >>= next) = .ok result ↔ ∃ value, first = .ok value ∧ next value = .ok result := by
  refine ⟨bind_eq_ok, ?_⟩
  rintro ⟨value, rfl, continued⟩
  exact continued

theorem mem_toOption_iff {result : Except ε α} {value : α} :
    value ∈ result.toOption ↔ result = .ok value := by
  cases result <;> simp [Except.toOption, eq_comm]

theorem isOk_iff {result : Except ε α} :
    result.isOk = true ↔ ∃ value, result = .ok value := by
  cases result with
  | error err => exact ⟨fun failed => (nomatch failed), fun ⟨_, same⟩ => nomatch same⟩
  | ok value => exact ⟨fun _ => ⟨value, rfl⟩, fun _ => rfl⟩

theorem map_eq_ok {change : α → β} (mapped : first.map change = .ok result) :
    ∃ value, first = .ok value ∧ change value = result := by
  cases first with
  | error err => cases mapped
  | ok value => exact ⟨value, rfl, Except.ok.inj mapped⟩

theorem mapError_ok_iff {ε' : Type} {result : Except ε α} {convert : ε → ε'} {value : α} :
    result.mapError convert = .ok value ↔ result = .ok value := by
  cases result <;> simp [Except.mapError]

/-- Pairs in lexicographic order can be keys. -/
instance lawfulEqOrdLex {α β : Type*} [Ord α] [Ord β] [Std.LawfulEqOrd α] [Std.LawfulEqOrd β] :
    Std.LawfulEqOrd (α ×ₗ β) where
  compare_self := by
    intro pair
    simp [Prod.Lex.compare_def, compareLex, compareOn]
  eq_of_compare := by
    intro pair other same
    simp only [Prod.Lex.compare_def, compareLex, compareOn, Ordering.then_eq_eq,
      Std.LawfulEqOrd.compare_eq_iff_eq] at same
    exact ofLex.injective (Prod.ext same.1 same.2)

section Map

variable {K V : Type*} [Ord K] [Std.TransOrd K] [Std.LawfulEqOrd K] [DecidableEq K]
  (map : Std.ExtTreeMap K V) (key other : K)

theorem getElem?_insert (value : V) :
    (map.insert key value)[other]? = if key = other then some value else map[other]? := by
  simp only [Std.ExtTreeMap.getElem?_insert, Std.LawfulEqOrd.compare_eq_iff_eq]

theorem getElem?_erase :
    (map.erase key)[other]? = if key = other then none else map[other]? := by
  simp only [Std.ExtTreeMap.getElem?_erase, Std.LawfulEqOrd.compare_eq_iff_eq]

end Map

/-- An order in which loops visit the elements of a map. -/
structure MapRange where
  order : {α : Type} → List α → List α
  perm : ∀ {α : Type} (elements : List α), (order elements).Perm elements

namespace MapRange

/-- Visit the elements in key order. -/
def sorted : MapRange where
  order elements := elements
  perm _ := .refl _

variable (range : MapRange) {α : Type}

variable {elements : List α}

@[simp] theorem mem_order {element : α} :
    element ∈ range.order elements ↔ element ∈ elements :=
  (range.perm elements).mem_iff

@[simp] theorem length_order (elements : List α) :
    (range.order elements).length = elements.length :=
  (range.perm elements).length_eq

theorem nodup_order (distinct : elements.Nodup) :
    (range.order elements).Nodup :=
  (range.perm elements).nodup_iff.mpr distinct

/-- A list may be visited in any order. -/
theorem exists_order {visited : List α} (perm : visited.Perm elements) :
    ∃ range : MapRange, range.order elements = visited := by
  classical
  refine ⟨{
    order := fun {β} rows =>
      if same : ∃ equal : β = α, equal ▸ rows = elements then same.choose ▸ visited else rows
    perm := ?_ }, ?_⟩
  · intro β rows
    split
    · rename_i same
      obtain ⟨rfl, rfl⟩ := same
      exact perm
    · exact .refl _
  · have here : ∃ equal : α = α, equal ▸ elements = elements := ⟨rfl, rfl⟩
    exact dif_pos here

end MapRange

end KnxVault.Std
