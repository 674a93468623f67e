import KnxVault.Std.Text

/-!
# Domain names

A domain name is a sequence of labels with points between them. A label has up to
63 letters, digits and hyphens, and no hyphen at its ends.
-/

namespace KnxVault.Std

def labelChar (char : Char) : Bool := char.isAlphanum || char = '-'

def validLabel (label : List Char) : Bool :=
  label ≠ [] && label.length ≤ 63 && label.all labelChar && label.head? ≠ some '-' &&
    label.getLast? ≠ some '-'

/-- The labels of a text, which may not be valid. -/
def labelsOf (name : String) : List (List Char) := name.toList.splitOn '.'

def validName (name : String) : Bool := (labelsOf name).all validLabel

/-- The first name has more labels in front of those of the second. -/
def Below (name above : String) : Prop :=
  ∃ front, front ≠ [] ∧ labelsOf name = front ++ labelsOf above

/-- Behind a point, a text is a name above. -/
theorem below_of_hasSuffix {name above : String}
    (ends : hasSuffix name ("." ++ above) = true) : Below name above := by
  obtain ⟨front, split⟩ := hasSuffix_iff.mp ends
  refine ⟨front.splitOn '.', List.splitOn_ne_nil _ _, ?_⟩
  have text : name.toList = front ++ '.' :: above.toList := by
    rw [split, String.toList_append]
    rfl
  rw [labelsOf, text, List.splitOn_append_cons_self, labelsOf]

/-! ### Characters of names -/

/-- A character other than the separator is in one of the parts. -/
theorem mem_splitOn {sep char : Char} {text : List Char} (mem : char ∈ text)
    (other : char ≠ sep) : ∃ part ∈ text.splitOn sep, char ∈ part := by
  induction text with
  | nil => cases mem
  | cons first rest ih =>
    rw [List.splitOn_cons_eq_if_modifyHead]
    obtain ⟨part, parts, split⟩ := List.exists_cons_of_ne_nil (List.splitOn_ne_nil sep rest)
    rw [split] at ih ⊢
    by_cases isSep : first = sep
    · rw [if_pos (by simpa using isSep)]
      rcases List.mem_cons.mp mem with rfl | later
      · exact absurd isSep other
      · obtain ⟨found, listed, within⟩ := ih later
        exact ⟨found, List.mem_cons_of_mem _ listed, within⟩
    · rw [if_neg (by simpa using isSep), List.modifyHead_cons]
      rcases List.mem_cons.mp mem with rfl | later
      · exact ⟨_, List.mem_cons_self, List.mem_cons_self⟩
      · obtain ⟨found, listed, within⟩ := ih later
        rcases List.mem_cons.mp listed with rfl | further
        · exact ⟨_, List.mem_cons_self, List.mem_cons_of_mem _ within⟩
        · exact ⟨found, List.mem_cons_of_mem _ further, within⟩

theorem not_isSpace_of_labelChar {char : Char} (part : labelChar char = true) :
    isSpace char = false := by
  have range : 45 ≤ char.toNat ∧ char.toNat ≤ 122 := by
    simp only [labelChar, Char.isAlphanum, Char.isAlpha, Char.isUpper, Char.isLower, Char.isDigit,
      Bool.or_eq_true, Bool.and_eq_true, decide_eq_true_eq, ge_iff_le,
      UInt32.le_iff_toNat_le] at part
    rcases part with ((⟨least, most⟩ | ⟨least, most⟩) | ⟨least, most⟩) | rfl
    · exact ⟨le_trans (by decide) least, le_trans most (by decide)⟩
    · exact ⟨le_trans (by decide) least, le_trans most (by decide)⟩
    · exact ⟨le_trans (by decide) least, le_trans most (by decide)⟩
    · decide
  simp [isSpace]
  omega

/-- A valid name has no white space. -/
theorem not_isSpace_of_validName {name : String} (valid : validName name = true) :
    ∀ char ∈ name.toList, isSpace char = false := by
  intro char mem
  by_cases point : char = '.'
  · rw [point]
    decide
  · obtain ⟨label, listed, within⟩ := mem_splitOn mem point
    have isValid := List.all_eq_true.mp valid label listed
    simp only [validLabel, Bool.and_eq_true, List.all_eq_true] at isValid
    exact not_isSpace_of_labelChar (isValid.1.1.2 char within)

/-- A valid name is not empty. -/
theorem validName_ne_empty {name : String} (valid : validName name = true) : name ≠ "" := by
  rintro rfl
  exact absurd valid (by decide)

theorem trimSpace_of_validName {name : String} (valid : validName name = true) :
    trimSpace name = name :=
  trimSpace_of_unspaced (not_isSpace_of_validName valid)

end KnxVault.Std
