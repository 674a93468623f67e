import Mathlib

/-!
# Hexadecimal numerals

Integers written to the base sixteen with an optional sign. Reading takes either
case and leading zeros; writing gives one text per number.
-/

namespace KnxVault.Std

def hexDigit (char : Char) : Option Nat :=
  if '0' ≤ char ∧ char ≤ '9' then some (char.toNat - '0'.toNat)
  else if 'a' ≤ char ∧ char ≤ 'f' then some (char.toNat - 'a'.toNat + 10)
  else if 'A' ≤ char ∧ char ≤ 'F' then some (char.toNat - 'A'.toNat + 10)
  else none

/-- The number that the digits go on to, after those that gave `value`. -/
def hexNat (value : Nat) : List Char → Option Nat
  | [] => some value
  | char :: rest =>
    match hexDigit char with
    | some digit => hexNat (16 * value + digit) rest
    | none => none

/-- Whether there is a minus sign, and what follows the sign. -/
def splitSign : List Char → Bool × List Char
  | '-' :: rest => (true, rest)
  | '+' :: rest => (false, rest)
  | rest => (false, rest)

/-- The number a text denotes. -/
def ofHex (text : String) : Option Int :=
  let (negative, digits) := splitSign text.toList
  if digits = [] then none
  else (hexNat 0 digits).map fun value : Nat => if negative then -(value : Int) else value

/-- The text of a number. -/
def toHex (number : Int) : String :=
  String.ofList ((if number < 0 then ['-'] else []) ++ Nat.toDigits 16 number.natAbs)

example : ofHex "00Af" = some 175 ∧ toHex 175 = "af" ∧ ofHex "a:f" = none := by decide

theorem hexDigit_digitChar {digit : Nat} (small : digit < 16) :
    hexDigit (Nat.digitChar digit) = some digit := by
  have all : ∀ digit < 16, hexDigit (Nat.digitChar digit) = some digit := by decide
  exact all digit small

theorem hexNat_append (value : Nat) (first second : List Char) :
    hexNat value (first ++ second) = (hexNat value first).bind (hexNat · second) := by
  induction first generalizing value with
  | nil => rfl
  | cons char rest ih =>
    rw [List.cons_append, hexNat, hexNat]
    cases hexDigit char with
    | none => rfl
    | some digit => exact ih _

theorem hexNat_toDigits (count : Nat) : hexNat 0 (Nat.toDigits 16 count) = some count := by
  induction count using Nat.strongRecOn with
  | ind count ih =>
    rcases Nat.lt_or_ge count 16 with small | large
    · rw [Nat.toDigits_of_lt_base small, hexNat, hexDigit_digitChar small]
      simp [hexNat]
    · have last := hexDigit_digitChar (Nat.mod_lt count (by decide : 0 < 16))
      rw [Nat.toDigits_of_base_le (by decide) large, hexNat_append,
        ih (count / 16) (by omega), Option.bind_some, hexNat, last]
      simp only [hexNat, Option.some.injEq]
      omega

/-- Only digits are read. -/
theorem not_mem_of_hexNat {char : Char} (other : hexDigit char = none) {value result : Nat}
    {digits : List Char} (read : hexNat value digits = some result) : char ∉ digits := by
  induction digits generalizing value with
  | nil => exact List.not_mem_nil
  | cons first rest ih =>
    rw [hexNat] at read
    rw [List.mem_cons, not_or]
    cases known : hexDigit first with
    | none => simp [known] at read
    | some digit =>
      rw [known] at read
      refine ⟨?_, ih read⟩
      rintro rfl
      rw [other] at known
      cases known

theorem mem_splitSign {char : Char} {text : List Char} (minus : char ≠ '-') (plus : char ≠ '+')
    (mem : char ∈ text) : char ∈ (splitSign text).2 := by
  unfold splitSign
  split
  · exact (List.mem_cons.mp mem).resolve_left minus
  · exact (List.mem_cons.mp mem).resolve_left plus
  · exact mem

theorem not_mem_of_ofHex {char : Char} (other : hexDigit char = none) (minus : char ≠ '-')
    (plus : char ≠ '+') {text : String} {number : Int} (read : ofHex text = some number) :
    char ∉ text.toList := by
  intro mem
  unfold ofHex at read
  dsimp only at read
  split at read
  · cases read
  · obtain ⟨value, digits, -⟩ := Option.map_eq_some_iff.mp read
    exact not_mem_of_hexNat other digits (mem_splitSign minus plus mem)

theorem splitSign_toDigits (count : Nat) :
    splitSign (Nat.toDigits 16 count) = (false, Nat.toDigits 16 count) := by
  have minus : '-' ∉ Nat.toDigits 16 count := not_mem_of_hexNat rfl (hexNat_toDigits count)
  have plus : '+' ∉ Nat.toDigits 16 count := not_mem_of_hexNat rfl (hexNat_toDigits count)
  unfold splitSign
  split
  · rename_i rest text
    exact absurd (text ▸ List.mem_cons_self) minus
  · rename_i rest text
    exact absurd (text ▸ List.mem_cons_self) plus
  · rfl

/-- A written number reads back. -/
theorem ofHex_toHex (number : Int) : ofHex (toHex number) = some number := by
  unfold ofHex toHex
  rw [String.toList_ofList]
  have filled : Nat.toDigits 16 number.natAbs ≠ [] := Nat.toDigits_ne_nil
  by_cases negative : number < 0
  · have signed : splitSign (['-'] ++ Nat.toDigits 16 number.natAbs) =
        (true, Nat.toDigits 16 number.natAbs) := rfl
    rw [if_pos negative, signed]
    simp only [if_neg filled, hexNat_toDigits, Option.map_some, if_true, Option.some.injEq]
    omega
  · rw [if_neg negative, List.nil_append, splitSign_toDigits]
    simp only [if_neg filled, hexNat_toDigits, Option.map_some, Option.some.injEq]
    simp only [Bool.false_eq_true, if_false]
    omega

end KnxVault.Std
