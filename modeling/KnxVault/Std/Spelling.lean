import Mathlib

/-!
# Texts that are spelled by tokens

A text is spelled by a list of tokens if it is cut into parts, one for each token. Whether a
token derives its part may depend on what follows the part.
-/

namespace KnxVault.Std

variable {Token α : Type}

/-- The text consists of one part for each token, and every token derives its part. -/
inductive Spells (derives : Token → List α → List α → Prop) : List Token → List α → Prop
  | nil : Spells derives [] []
  | cons {token : Token} {tokens : List Token} {part rest : List α} :
      derives token part rest → Spells derives tokens rest →
        Spells derives (token :: tokens) (part ++ rest)

variable {derives other : Token → List α → List α → Prop} {tokens : List Token} {token : Token}
  {text : List α}

@[simp] theorem spells_nil_iff : Spells derives [] text ↔ text = [] := by
  constructor
  · intro spelled
    cases spelled
    rfl
  · rintro rfl
    exact .nil

theorem spells_cons_iff : Spells derives (token :: tokens) text ↔
    ∃ part rest, text = part ++ rest ∧ derives token part rest ∧ Spells derives tokens rest := by
  constructor
  · intro spelled
    cases spelled with
    | cons own later => exact ⟨_, _, rfl, own, later⟩
  · rintro ⟨part, rest, rfl, own, later⟩
    exact .cons own later

/-- A token that derives single items takes the first one. -/
theorem spells_single_iff {accepts : α → Prop}
    (single : ∀ part rest, derives token part rest ↔ ∃ item, part = [item] ∧ accepts item) :
    Spells derives (token :: tokens) text ↔
      ∃ item rest, text = item :: rest ∧ accepts item ∧ Spells derives tokens rest := by
  rw [spells_cons_iff]
  constructor
  · rintro ⟨part, rest, rfl, own, later⟩
    obtain ⟨item, rfl, accepted⟩ := (single part rest).mp own
    exact ⟨item, rest, rfl, accepted, later⟩
  · rintro ⟨item, rest, rfl, accepted, later⟩
    exact ⟨[item], rest, rfl, (single _ _).mpr ⟨item, rfl, accepted⟩, later⟩

/-- The parts, by the place where the first one ends. -/
theorem spells_cons_drop_iff {start : Nat} (inside : start ≤ text.length) :
    Spells derives (token :: tokens) (text.drop start) ↔
      ∃ stop, start ≤ stop ∧ stop ≤ text.length ∧
        derives token ((text.drop start).take (stop - start)) (text.drop stop) ∧
        Spells derives tokens (text.drop stop) := by
  rw [spells_cons_iff]
  constructor
  · rintro ⟨part, rest, split, own, later⟩
    have lengths := congrArg List.length split
    rw [List.length_drop, List.length_append] at lengths
    have dropped : text.drop (start + part.length) = rest := by
      rw [← List.drop_drop, split, List.drop_left]
    refine ⟨start + part.length, by omega, by omega, ?_, by rwa [dropped]⟩
    rwa [dropped, Nat.add_sub_cancel_left, split, List.take_left]
  · rintro ⟨stop, least, most, own, later⟩
    refine ⟨_, _, ?_, own, later⟩
    have dropped : text.drop stop = (text.drop start).drop (stop - start) := by
      rw [List.drop_drop, Nat.add_sub_cancel' least]
    rw [dropped, List.take_append_drop]

theorem Spells.mono (weaker : ∀ token part rest, derives token part rest → other token part rest)
    (spelled : Spells derives tokens text) : Spells other tokens text := by
  induction spelled with
  | nil => exact .nil
  | cons own _ ih => exact .cons (weaker _ _ _ own) ih

end KnxVault.Std
