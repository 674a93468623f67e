import KnxVault.Std.Text

/-!
# Adding to JSON documents

The `add` operation of JSON Patch (RFC 6902) on documents over arbitrary scalars, at places
that are named by JSON pointers (RFC 6901). An operation fails where a value above its place
is missing, and `-` names the place behind the last item of an array.
-/

namespace KnxVault.Std

inductive Json (Scalar : Type) where
  | scalar (value : Scalar)
  | array (items : List (Json Scalar))
  | object (members : List (String × Json Scalar))

namespace Json

variable {Scalar : Type}

/-- Replace the member of the name, or add it. -/
def setMember (members : List (String × Json Scalar)) (name : String) (value : Json Scalar) :
    List (String × Json Scalar) :=
  match members with
  | [] => [(name, value)]
  | (other, old) :: rest =>
    if other = name then (name, value) :: rest else (other, old) :: setMember rest name value

/-- The number whose decimal text the token is. -/
def arrayIndex (token : String) : Option Nat :=
  let number := Nat.ofDigitChars 10 token.toList 0
  if token.toList = Nat.toDigits 10 number then some number else none

theorem arrayIndex_toString (number : Nat) : arrayIndex (toString number) = some number := by
  have digits : (toString number).toList = Nat.toDigits 10 number := String.toList_ofList
  have value : Nat.ofDigitChars 10 (Nat.toDigits 10 number) 0 = number :=
    Nat.ofDigitChars_ten_toDigits
  unfold arrayIndex
  rw [digits, value]
  exact if_pos rfl

/-- Add a value at the place that the tokens lead to. -/
def add : (tokens : List String) → (value document : Json Scalar) → Option (Json Scalar)
  | [], value, _ => some value
  | [token], value, object members => some (object (setMember members token value))
  | [token], value, array items =>
    if token = "-" then some (array (items ++ [value]))
    else (arrayIndex token).bind fun place =>
      if place ≤ items.length then some (array (items.insertIdx place value)) else none
  | token :: next :: tokens, value, object members =>
    (members.lookup token).bind fun child =>
      (add (next :: tokens) value child).map fun changed =>
        object (setMember members token changed)
  | token :: next :: tokens, value, array items =>
    (arrayIndex token).bind fun place =>
      items[place]?.bind fun child =>
        (add (next :: tokens) value child).map fun changed => array (items.set place changed)
  | _ :: _, _, scalar _ => none

/-- To add inside an item of an array. -/
theorem add_item {items : List (Json Scalar)} {place : Nat} {child : Json Scalar}
    (found : items[place]? = some child) (next : String) (tokens : List String)
    (value : Json Scalar) :
    add (toString place :: next :: tokens) value (array items) =
      (add (next :: tokens) value child).map fun changed => array (items.set place changed) := by
  rw [add, arrayIndex_toString, Option.bind_some, found, Option.bind_some]

/-- The characters that a token of a pointer stands for. -/
def unescape : List Char → List Char
  | '~' :: '1' :: rest => '/' :: unescape rest
  | '~' :: '0' :: rest => '~' :: unescape rest
  | char :: rest => char :: unescape rest
  | [] => []

/-- The tokens of a pointer. -/
def pointer (text : String) : Option (List String) :=
  match text.toList with
  | [] => some []
  | '/' :: rest => some ((rest.splitOn '/').map fun token => String.ofList (unescape token))
  | _ :: _ => none

theorem unescape_plain {token : List Char} (plain : '~' ∉ token) : unescape token = token := by
  induction token with
  | nil => rfl
  | cons char rest ih =>
    rw [List.mem_cons, not_or] at plain
    rw [unescape, ih plain.2]
    · rintro _ rfl
      exact absurd rfl plain.1
    · rintro _ rfl
      exact absurd rfl plain.1

/-- Tokens without special characters stand for themselves. -/
theorem pointer_join {tokens : List String} (filled : tokens ≠ [])
    (plain : ∀ token ∈ tokens, '/' ∉ token.toList ∧ '~' ∉ token.toList) :
    pointer (String.ofList ('/' :: ['/'].intercalate (tokens.map String.toList))) =
      some tokens := by
  have split : (['/'].intercalate (tokens.map String.toList)).splitOn '/' =
      tokens.map String.toList := by
    refine List.splitOn_intercalate '/' ?_ (by simpa using filled)
    intro part listed
    obtain ⟨token, inside, rfl⟩ := List.mem_map.mp listed
    exact (plain token inside).1
  simp only [pointer, String.toList_ofList, split, List.map_map]
  refine congrArg some ((List.map_congr_left fun token inside => ?_).trans (List.map_id _))
  rw [Function.comp_apply, unescape_plain (plain token inside).2, String.ofList_toList]
  rfl

end Json

/-- An operation of a patch. -/
inductive PatchOp (Scalar : Type) where
  | add (path : String) (value : Json Scalar)

variable {Scalar : Type}

def PatchOp.apply (document : Json Scalar) : PatchOp Scalar → Option (Json Scalar)
  | add path value => (Json.pointer path).bind fun tokens => Json.add tokens value document

/-- Apply the operations in turn; none is applied if one fails. -/
def applyPatch (ops : List (PatchOp Scalar)) (document : Json Scalar) : Option (Json Scalar) :=
  ops.foldlM PatchOp.apply document

example : applyPatch [.add "/a/0/b~1/-" (.scalar 2)]
    (.object [("a", .array [.object [("b/", .array [.scalar 1])]])]) =
      some (.object [("a", .array [.object [("b/", .array [.scalar 1, .scalar 2])]])]) := by
  rfl

end KnxVault.Std
