import Mathlib

/-!
# Operations on text

Prefix, suffix and search operations on strings as lists of characters, and
trimming. On well-formed text they agree with the byte-wise operations.
-/

namespace KnxVault.Std

def hasPrefix (text start : String) : Bool :=
  start.toList.isPrefixOf text.toList

def hasSuffix (text ending : String) : Bool :=
  ending.toList.isSuffixOf text.toList

/-- The text without the start, or the text itself if it does not start so. -/
def trimPrefix (text start : String) : String :=
  if hasPrefix text start then String.ofList (text.toList.drop start.toList.length) else text

/-- The text without the ending, or the text itself if it does not end so. -/
def trimSuffix (text ending : String) : String :=
  if hasSuffix text ending then
    String.ofList (text.toList.take (text.toList.length - ending.toList.length))
  else text

/-- Whether the second list occurs in the first. -/
def isInfixOf (part : List Char) : List Char → Bool
  | [] => part.isEmpty
  | char :: rest => part.isPrefixOf (char :: rest) || isInfixOf part rest

def containsText (text part : String) : Bool :=
  isInfixOf part.toList text.toList

def containsAny (text chars : String) : Bool :=
  text.toList.any (· ∈ chars.toList)

/-- Remove characters that satisfy `drop` at both ends. -/
def trimBoth (drop : Char → Bool) (text : String) : String :=
  String.ofList ((text.toList.dropWhile drop).reverse.dropWhile drop).reverse

/-- The white space characters of Unicode. -/
def isSpace (char : Char) : Bool :=
  char.toNat ∈ [0x9, 0xa, 0xb, 0xc, 0xd, 0x20, 0x85, 0xa0, 0x1680, 0x2028, 0x2029, 0x202f,
    0x205f, 0x3000] || (0x2000 ≤ char.toNat && char.toNat ≤ 0x200a)

def trimSpace (text : String) : String :=
  trimBoth isSpace text

/-- Trimming leaves nothing to trim. -/
theorem trimBoth_trimBoth (drop : Char → Bool) (text : String) :
    trimBoth drop (trimBoth drop text) = trimBoth drop text := by
  have front : ∀ kept : List Char, kept <+: text.toList.dropWhile drop →
      kept.dropWhile drop = kept := by
    rintro kept ⟨rest, split⟩
    rw [List.dropWhile_eq_self_iff]
    intro nonempty
    have head := List.head?_dropWhile_not drop text.toList
    rw [← split] at head
    cases kept with
    | nil => cases nonempty
    | cons char kept => simpa using head
  have back : (((text.toList.dropWhile drop).reverse.dropWhile drop).reverse) <+:
      text.toList.dropWhile drop := by
    rw [← List.reverse_suffix, List.reverse_reverse]
    exact List.dropWhile_suffix drop
  simp only [trimBoth, String.toList_ofList, front _ back, List.reverse_reverse,
    List.dropWhile_idempotent]

/-- Trimming changed characters trims those that change to trimmed ones. -/
theorem toList_trimBoth_map (drop : Char → Bool) (change : Char → Char) (chars : List Char) :
    (trimBoth drop (String.ofList (chars.map change))).toList =
      (trimBoth (drop ∘ change) (String.ofList chars)).toList.map change := by
  simp only [trimBoth, String.toList_ofList, List.dropWhile_map, ← List.map_reverse]

theorem trimSpace_trimSpace (text : String) : trimSpace (trimSpace text) = trimSpace text :=
  trimBoth_trimBoth isSpace text

/-- A text whose ends are kept is not trimmed. -/
theorem trimSpace_of_ends {chars : List Char} {first last : Char}
    (begins : chars.head? = some first) (ends : chars.getLast? = some last)
    (firstKept : isSpace first = false) (lastKept : isSpace last = false) :
    trimSpace (String.ofList chars) = String.ofList chars := by
  have front : chars.dropWhile isSpace = chars := by
    rw [List.dropWhile_eq_self_iff]
    intro filled
    rw [List.head?_eq_some_head (List.ne_nil_of_length_pos filled), Option.some.injEq] at begins
    rw [List.head_eq_getElem] at begins
    simp [begins, firstKept]
  have back : chars.reverse.dropWhile isSpace = chars.reverse := by
    rw [List.dropWhile_eq_self_iff]
    intro filled
    rw [List.getLast?_eq_head?_reverse,
      List.head?_eq_some_head (List.ne_nil_of_length_pos filled), Option.some.injEq,
      List.head_eq_getElem] at ends
    simp [ends, lastKept]
  rw [trimSpace, trimBoth, String.toList_ofList, front, back, List.reverse_reverse]

theorem trimSpace_of_unspaced {text : String}
    (plain : ∀ char ∈ text.toList, isSpace char = false) : trimSpace text = text := by
  by_cases filled : text.toList = []
  · rw [← String.ofList_toList (s := text), filled]
    rfl
  · have kept := trimSpace_of_ends (List.head?_eq_some_head filled)
      (List.getLast?_eq_some_getLast filled) (plain _ (List.head_mem filled))
      (plain _ (List.getLast_mem filled))
    rwa [String.ofList_toList] at kept

/-! ### Starts of texts -/

theorem hasPrefix_iff {text start : String} :
    hasPrefix text start = true ↔ ∃ rest, text.toList = start.toList ++ rest := by
  rw [hasPrefix, List.isPrefixOf_iff_prefix]
  exact ⟨fun ⟨rest, split⟩ => ⟨rest, split.symm⟩, fun ⟨rest, split⟩ => ⟨rest, split.symm⟩⟩

theorem hasPrefix_append (start rest : String) : hasPrefix (start ++ rest) start = true :=
  hasPrefix_iff.mpr ⟨rest.toList, String.toList_append⟩

/-- Trimming keeps a start whose first and last characters stay. -/
theorem hasPrefix_trimBoth {drop : Char → Bool} {text start : String} {first last : Char}
    (begins : start.toList.head? = some first) (ends : start.toList.getLast? = some last)
    (firstKept : drop first = false) (lastKept : drop last = false)
    (prefixed : hasPrefix text start = true) : hasPrefix (trimBoth drop text) start = true := by
  obtain ⟨rest, split⟩ := hasPrefix_iff.mp prefixed
  have front : (start.toList ++ rest).dropWhile drop = start.toList ++ rest := by
    cases chars : start.toList with
    | nil => rw [chars] at begins; cases begins
    | cons char chars' =>
      rw [chars, List.head?_cons, Option.some.injEq] at begins
      rw [List.cons_append, List.dropWhile_cons_of_neg (by rw [begins, firstKept]; simp)]
  have back : start.toList.reverse.dropWhile drop = start.toList.reverse := by
    cases chars : start.toList.reverse with
    | nil => rw [List.reverse_eq_nil_iff.mp chars] at ends; cases ends
    | cons char chars' =>
      rw [List.getLast?_eq_head?_reverse, chars, List.head?_cons, Option.some.injEq] at ends
      rw [List.dropWhile_cons_of_neg (by rw [ends, lastKept]; simp)]
  refine hasPrefix_iff.mpr ⟨(rest.reverse.dropWhile drop).reverse, ?_⟩
  rw [trimBoth, String.toList_ofList, split, front, List.reverse_append, List.dropWhile_append]
  split
  · rename_i all
    rw [List.isEmpty_iff] at all
    rw [all, back, List.reverse_reverse, List.reverse_nil, List.append_nil]
  · rw [List.reverse_append, List.reverse_reverse]

/-! ### Ends of texts -/

theorem hasSuffix_iff {text ending : String} :
    hasSuffix text ending = true ↔ ∃ front, text.toList = front ++ ending.toList := by
  rw [hasSuffix, List.isSuffixOf_iff_suffix]
  exact ⟨fun ⟨front, split⟩ => ⟨front, split.symm⟩, fun ⟨front, split⟩ => ⟨front, split.symm⟩⟩

/-! ### Parts of texts -/

theorem isInfixOf_iff {part text : List Char} : isInfixOf part text = true ↔ part <:+: text := by
  induction text with
  | nil => rw [isInfixOf, List.isEmpty_iff, List.infix_nil]
  | cons char rest ih =>
    rw [isInfixOf, Bool.or_eq_true, List.isPrefixOf_iff_prefix, ih, List.infix_cons_iff]

theorem containsText_iff {text part : String} :
    containsText text part = true ↔ part.toList <:+: text.toList :=
  isInfixOf_iff

/-! ### Lists in texts -/

/-- The trimmed items between commas that are not empty. -/
def splitCSV (text : String) : List String :=
  (((trimSpace text).toList.splitOn ',').map fun item => trimSpace (String.ofList item)).filter
    (· ≠ "")

/-! ### Slash-separated paths -/

/-- The segments kept so far after one more: empty ones and `.` disappear, `..`
removes the one in front of it. -/
def pushSegment (kept : List (List Char)) (segment : List Char) : List (List Char) :=
  if segment = [] ∨ segment = ['.'] then kept
  else if segment = ['.', '.'] then kept.dropLast
  else kept ++ [segment]

/-- The clean form of the path that consists of a slash and the text. -/
def cleanRooted (text : String) : String :=
  String.ofList ('/' :: ['/'].intercalate ((text.toList.splitOn '/').foldl pushSegment []))

example : cleanRooted "a//b/./c/../d/" = "/a/b/d" := by decide

/-! ### Counting and escaping -/

/-- How often a two-character text occurs, without overlaps. -/
def countPair (first second : Char) : List Char → Nat
  | a :: b :: rest =>
    if a = first ∧ b = second then countPair first second rest + 1
    else countPair first second (b :: rest)
  | _ => 0

/-- The number that a text denotes in decimal, as a 64-bit integer. -/
def atoi (text : String) : Except String Int :=
  let (negative, digits) := match text.toList with
    | '-' :: rest => (true, rest)
    | '+' :: rest => (false, rest)
    | rest => (false, rest)
  let value := digits.foldl (fun value digit => 10 * value + (digit.toNat - '0'.toNat)) 0
  let refuse (reason : String) : Except String Int :=
    .error ("strconv.Atoi: parsing \"" ++ text ++ "\": " ++ reason)
  if digits = [] ∨ ¬ digits.all Char.isDigit then refuse "invalid syntax"
  else if (if negative then 2 ^ 63 else 2 ^ 63 - 1) < value then refuse "value out of range"
  else .ok (if negative then -value else value)

/-- Replace each occurrence of a first text by its second, from left to right; where
several begin, the earliest pair counts. `skip` characters are already replaced. -/
def replaceEach (pairs : List (String × String)) : (skip : Nat) → List Char → List Char
  | _, [] => []
  | skip + 1, _ :: rest => replaceEach pairs skip rest
  | 0, char :: rest =>
    match pairs.find? fun pair => pair.1.toList.isPrefixOf (char :: rest) with
    | some pair => pair.2.toList ++ replaceEach pairs (pair.1.toList.length - 1) rest
    | none => char :: replaceEach pairs 0 rest

def replaceAll (pairs : List (String × String)) (text : String) : String :=
  String.ofList (replaceEach pairs 0 text.toList)

example : replaceAll [("ab", "x"), ("b", "ba")] "abbc" = "xbac" := by decide

/-- Replacing one character by another changes the text character by character. -/
theorem toList_replaceAll_char {find put : String} {old new : Char} (one : find.toList = [old])
    (other : put.toList = [new]) (text : String) :
    (replaceAll [(find, put)] text).toList =
      text.toList.map fun char => if char = old then new else char := by
  rw [replaceAll, String.toList_ofList]
  induction text.toList with
  | nil => rfl
  | cons char rest ih =>
    rw [replaceEach, List.map_cons]
    by_cases same : char = old
    · rw [if_pos same, same, List.find?_cons_of_pos (by simp [one])]
      simp only [one, other, List.length_singleton, Nat.sub_self, ih]
      rfl
    · rw [if_neg same, List.find?_cons_of_neg (by simpa [one] using Ne.symm same)]
      simp only [List.find?_nil, ih]

/-- A text that does not occur is not replaced. -/
theorem replaceAll_of_absent {find put text : String} (absent : containsText text find = false) :
    replaceAll [(find, put)] text = text := by
  rw [replaceAll]
  unfold containsText at absent
  refine String.toList_inj.mp ((String.toList_ofList ..).trans ?_)
  generalize text.toList = chars at absent
  induction chars with
  | nil => rfl
  | cons char rest ih =>
    rw [isInfixOf, Bool.or_eq_false_iff] at absent
    rw [replaceEach, List.find?_cons_of_neg (by simp [absent.1]), List.find?_nil]
    exact congrArg (char :: ·) (ih absent.2)

/-- Replace every `"//"`, read from the left without overlaps, by `"/"`. -/
def collapseSlashes : List Char → List Char
  | '/' :: '/' :: rest => '/' :: collapseSlashes rest
  | char :: rest => char :: collapseSlashes rest
  | [] => []

/-- Two hexadecimal digits. -/
def hexByte (value : Nat) : List Char :=
  [Nat.digitChar (value / 16), Nat.digitChar (value % 16)]

/-- Escape a character inside a quoted text. -/
def escapeChar (char : Char) : List Char :=
  if char = '"' then ['\\', '"']
  else if char = '\\' then ['\\', '\\']
  else if char.toNat = 0x7 then ['\\', 'a']
  else if char.toNat = 0x8 then ['\\', 'b']
  else if char.toNat = 0x9 then ['\\', 't']
  else if char.toNat = 0xa then ['\\', 'n']
  else if char.toNat = 0xb then ['\\', 'v']
  else if char.toNat = 0xc then ['\\', 'f']
  else if char.toNat = 0xd then ['\\', 'r']
  else if char.toNat < 0x20 ∨ char.toNat = 0x7f then '\\' :: 'x' :: hexByte char.toNat
  else [char]

/-- The text in double quotes, with control characters escaped. -/
def quoted (text : String) : String :=
  "\"" ++ String.ofList (text.toList.flatMap escapeChar) ++ "\""

/-- The bytes of the text in UTF-8. -/
def utf8Bytes (text : String) : List UInt8 :=
  text.toUTF8.data.toList

/-! ### Numbers as texts -/

theorem not_mem_toDigits {char : Char} (other : char.isDigit = false) (count : Nat) :
    char ∉ Nat.toDigits 10 count := by
  intro listed
  rw [Nat.isDigit_of_mem_toDigits (by decide) (by decide) listed] at other
  cases other

end KnxVault.Std
