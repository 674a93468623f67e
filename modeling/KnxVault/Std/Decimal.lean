import KnxVault.Std.Text

/-!
# Decimal numerals

The number that a text of decimal digits denotes, and how a 64-bit machine reads
and multiplies it.
-/

namespace KnxVault.Std

/-- The number of a list of digits. -/
def decimal (digits : List Char) : Nat :=
  digits.foldl (fun value digit => 10 * value + (digit.toNat - '0'.toNat)) 0

/-- At least one character, and digits only. -/
def Digits (chars : List Char) : Prop := chars ≠ [] ∧ ∀ char ∈ chars, char.isDigit = true

instance : DecidablePred Digits := fun chars =>
  have : Decidable (∀ char ∈ chars, char.isDigit = true) := List.decidableBAll _ chars
  inferInstanceAs (Decidable (chars ≠ [] ∧ ∀ char ∈ chars, char.isDigit = true))

/-- A text of digits is read exactly if its number fits. -/
theorem atoi_digits {digits : List Char} (isNumber : Digits digits) :
    (atoi (String.ofList digits)).toOption =
      if (decimal digits : Int) < 2 ^ 63 then some (decimal digits : Int) else none := by
  obtain ⟨filled, allDigits⟩ := isNumber
  unfold atoi
  rw [String.toList_ofList]
  cases digits with
  | nil => exact absurd rfl filled
  | cons first rest =>
    have digit := allDigits first List.mem_cons_self
    have minus : first ≠ '-' := by
      rintro rfl
      cases digit
    have plus : first ≠ '+' := by
      rintro rfl
      cases digit
    have numeric : ¬ (first :: rest = [] ∨ ¬ (first :: rest).all Char.isDigit = true) := by
      simpa using ⟨digit, fun char mem => allDigits char (List.mem_cons_of_mem _ mem)⟩
    split
    rename_i negative digits sign
    obtain ⟨rfl, rfl⟩ : negative = false ∧ digits = first :: rest := by
      split at sign <;> simp_all
    dsimp only
    rw [if_neg numeric]
    change Except.toOption (if 2 ^ 63 - 1 < decimal (first :: rest) then _ else _) = _
    by_cases fits : (decimal (first :: rest) : Int) < 2 ^ 63
    · rw [if_neg (by omega), if_pos fits]
      rfl
    · rw [if_pos (by omega), if_neg fits]
      rfl

/-- What is read has digits only, after a sign. -/
theorem not_mem_of_atoi {char : Char} (other : char.isDigit = false) (minus : char ≠ '-')
    (plus : char ≠ '+') {text : String} {number : Int} (read : atoi text = .ok number) :
    char ∉ text.toList := by
  intro held
  unfold atoi at read
  split at read
  rename_i negative digits sign
  have kept : char ∈ digits := by
    split at sign
    · rename_i rest signed
      cases sign
      rw [signed] at held
      exact (List.mem_cons.mp held).resolve_left minus
    · rename_i rest signed
      cases sign
      rw [signed] at held
      exact (List.mem_cons.mp held).resolve_left plus
    · cases sign
      exact held
  dsimp only at read
  have refused : digits = [] ∨ ¬ digits.all Char.isDigit = true := by
    refine .inr fun all => ?_
    rw [List.all_eq_true.mp all char kept] at other
    cases other
  rw [if_pos refused] at read
  cases read

theorem not_isSpace_of_isDigit {char : Char} (digit : char.isDigit = true) :
    isSpace char = false := by
  have range : 48 ≤ char.toNat ∧ char.toNat ≤ 57 := by
    simpa [Char.isDigit, Char.le_def, UInt32.le_iff_toNat_le] using digit
  simp [isSpace]
  omega

/-- A text takes at least one byte for each of two parts. -/
theorem two_le_utf8ByteSize {first second : List Char} (filled : first ≠ [])
    (filled' : second ≠ []) : 2 ≤ (String.ofList (first ++ second)).utf8ByteSize := by
  have size : ∀ {part : List Char}, part ≠ [] → (String.ofList part).utf8ByteSize ≠ 0 := by
    intro part nonempty zero
    rw [String.utf8ByteSize_eq_zero_iff] at zero
    exact nonempty (by simpa using congrArg String.toList zero)
  rw [String.ofList_append, String.utf8ByteSize_append]
  have := size filled
  have := size filled'
  omega

end KnxVault.Std
