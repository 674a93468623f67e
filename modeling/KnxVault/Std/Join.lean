import Mathlib

/-!
# Parts joined by a separator

A list of at least two parts can be read back from the joined list exactly if no
part holds the separator.
-/

namespace KnxVault.Std

variable {α : Type} {sep : α} {first second rest other : List α}

/-- Two ways to write a list around a separator. -/
theorem append_cons_cases (same : first ++ sep :: rest = second ++ sep :: other) :
    (first = second ∧ rest = other) ∨
      (∃ extra, second = first ++ sep :: extra ∧ rest = extra ++ sep :: other) ∨
      ∃ extra, first = second ++ sep :: extra ∧ other = extra ++ sep :: rest := by
  obtain ⟨extra, split, tails⟩ | ⟨extra, split, tails⟩ := List.append_eq_append_iff.mp same
  · cases extra with
    | nil => exact .inl ⟨by simpa using split.symm, (List.cons.inj tails).2⟩
    | cons char extra =>
      obtain ⟨rfl, later⟩ := List.cons.inj tails
      exact .inr (.inl ⟨extra, split, later⟩)
  · cases extra with
    | nil => exact .inl ⟨by simpa using split, (List.cons.inj tails).2.symm⟩
    | cons char extra =>
      obtain ⟨rfl, later⟩ := List.cons.inj tails
      exact .inr (.inr ⟨extra, split, later⟩)

/-- A list without the separator ends at the first separator, or at a later one. -/
theorem append_cons_cases_of_plain (plain : sep ∉ first)
    (same : first ++ sep :: rest = second ++ sep :: other) :
    (first = second ∧ rest = other) ∨
      ∃ extra, second = first ++ sep :: extra ∧ rest = extra ++ sep :: other := by
  obtain equal | longer | ⟨extra, rfl, -⟩ := append_cons_cases same
  · exact .inl equal
  · exact .inr longer
  · simp at plain

/-- What comes before the first separator and what comes after. -/
theorem append_cons_inj_of_plain (plain : sep ∉ first) (plain' : sep ∉ second)
    (same : first ++ sep :: rest = second ++ sep :: other) :
    first = second ∧ rest = other := by
  obtain equal | ⟨extra, rfl, -⟩ := append_cons_cases_of_plain plain same
  · exact equal
  · simp at plain'

/-- What follows a separator is determined if neither ending follows one in the other. -/
theorem append_cons_inj_of_unsplit {ending : List α}
    (unsplit : ∀ extra, ending ≠ extra ++ sep :: other)
    (unsplit' : ∀ extra, other ≠ extra ++ sep :: ending)
    (same : first ++ sep :: ending = second ++ sep :: other) :
    first = second ∧ ending = other := by
  obtain equal | ⟨extra, -, split⟩ | ⟨extra, -, split⟩ := append_cons_cases same
  · exact equal
  · exact absurd split (unsplit extra)
  · exact absurd split (unsplit' extra)

/-! ### Reading the parts back -/

variable [DecidableEq α]

theorem count_join (sep : α) (parts : List (List α)) (filled : parts ≠ []) :
    ([sep].intercalate parts).count sep + 1 = parts.length + parts.flatten.count sep := by
  induction parts with
  | nil => exact absurd rfl filled
  | cons part rest ih =>
    cases rest with
    | nil => simp [Nat.add_comm]
    | cons next rest =>
      have counted := ih (by simp)
      rw [List.intercalate_cons_cons, List.count_append, List.count_append, List.length_cons,
        List.flatten_cons, List.count_append, List.count_singleton_self]
      omega

variable {parts : List (List α)}

theorem count_flatten_eq_zero_iff :
    parts.flatten.count sep = 0 ↔ ∀ part ∈ parts, sep ∉ part := by
  rw [List.count_eq_zero, List.mem_flatten]
  simp

theorem join_inj_of_plain {others : List (List α)} (plain : ∀ part ∈ parts, sep ∉ part)
    (filled : parts ≠ []) (lengths : others.length = parts.length)
    (same : [sep].intercalate others = [sep].intercalate parts) : others = parts := by
  have filled' : others ≠ [] := by
    rintro rfl
    exact filled (List.length_eq_zero_iff.mp lengths.symm)
  -- the separators of the joined list are used up between the parts
  have counts := count_join sep parts filled
  have counts' := count_join sep others filled'
  rw [count_flatten_eq_zero_iff.mpr plain, ← same] at counts
  have plain' : ∀ part ∈ others, sep ∉ part := count_flatten_eq_zero_iff.mp (by omega)
  rw [← List.splitOn_intercalate sep plain filled, ← List.splitOn_intercalate sep plain' filled',
    same]

/-- A separator in a part can be taken for one between parts. -/
theorem exists_join_eq (several : 2 ≤ parts.length) (separated : ∃ part ∈ parts, sep ∈ part) :
    ∃ others, others.length = parts.length ∧
      [sep].intercalate others = [sep].intercalate parts ∧ others ≠ parts := by
  induction parts with
  | nil => simp at several
  | cons part rest ih =>
    obtain ⟨next, rest, rfl⟩ := List.exists_cons_of_length_pos
      (Nat.lt_of_succ_le (by simpa using several))
    by_cases own : sep ∈ part
    · obtain ⟨before, after, rfl⟩ := List.append_of_mem own
      refine ⟨before :: (after ++ sep :: next) :: rest, rfl, ?_, ?_⟩
      · cases rest <;> simp [List.intercalate_cons_cons]
      · intro same
        have shorter := congrArg List.length (List.cons.inj same).1
        simp at shorter
    · by_cases later : rest = []
      · subst later
        have last : sep ∈ next := by
          obtain ⟨found, listed, holds⟩ := separated
          rcases List.mem_cons.mp listed with rfl | last
          · exact absurd holds own
          · rw [List.mem_singleton.mp last] at holds
            exact holds
        obtain ⟨before, after, rfl⟩ := List.append_of_mem last
        refine ⟨[part ++ sep :: before, after], rfl, ?_, ?_⟩
        · simp [List.intercalate_cons_cons]
        · intro same
          have longer := congrArg List.length (List.cons.inj same).1
          simp at longer
      · have separated' : ∃ part ∈ next :: rest, sep ∈ part := by
          obtain ⟨found, listed, holds⟩ := separated
          rcases List.mem_cons.mp listed with rfl | later
          · exact absurd holds own
          · exact ⟨found, later, holds⟩
        obtain ⟨others, lengths, same, differ⟩ := ih
          (by simpa [Nat.one_le_iff_ne_zero] using later) separated'
        have filled : others ≠ [] := by
          rintro rfl
          simp at lengths
        refine ⟨part :: others, by simp [lengths], ?_, fun same => differ (List.cons.inj same).2⟩
        rw [List.intercalate_cons_of_ne_nil filled, List.intercalate_cons_cons, same]

end KnxVault.Std
