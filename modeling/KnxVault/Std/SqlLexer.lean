import Mathlib

/-!
# The tokens of a PostgreSQL statement

A lexer that reads one letter at a time, with `standard_conforming_strings` on: words,
quoted names, literals with doubled marks and with a letter in front, dollar quoted
texts, line comments, nested block comments and single symbols. A letter is a character
or a hole, so that templates have tokens as well.

A literal goes on at a mark in a later line, with only blanks and line comments in
between, and keeps its kind. A number is a word of digits, so that a letter behind it may
start a literal; the letter of a national literal is a word in front of it.
-/

namespace KnxVault.Std.Sql

/-- A character, or a hole to be filled. -/
inductive Letter (Hole : Type) where
  | char (char : Char)
  | hole (hole : Hole)
deriving DecidableEq, Repr

/-- The quotations with marks: `'…'`, `e'…'`, `b'…'` or `x'…'`, `u&'…'`, `"…"` and `u&"…"`. -/
inductive Quotation where
  | literal
  | escape
  | bits
  | unicode
  | name
  | unicodeName
deriving DecidableEq, Repr

namespace Quotation

def mark : Quotation → Char
  | literal | escape | bits | unicode => '\''
  | name | unicodeName => '"'

/-- Whether two marks stand for one mark in the text. -/
def doubles (kind : Quotation) : Bool := kind ≠ bits

end Quotation

inductive Token (Hole : Type) where
  | word (text : List Char)
  | quoted (kind : Quotation) (text : List (Letter Hole))
  | dollar (text : List (Letter Hole))
  | symbol (char : Char)
  | hole (hole : Hole)
  /-- A hole in a comment. -/
  | lost (hole : Hole)
  /-- The statement ends inside of a quotation or a comment. -/
  | unended (text : List (Letter Hole))
deriving DecidableEq, Repr

/-- What stands behind a literal that may go on: blanks, perhaps with a new line, then a
dash that may start a comment, or a comment. -/
inductive Gap where
  | blank (newline : Bool)
  | dash
  | comment
deriving DecidableEq, Repr

/-- What the lexer has read of a token. -/
inductive State (Hole : Type) where
  | gap
  | word (text : List Char)
  /-- After `u&`. -/
  | ampersand (text : List Char)
  | symbol (char : Char)
  | hole (hole : Hole)
  | quoted (kind : Quotation) (text : List (Letter Hole))
  /-- After a backslash in an escape literal. -/
  | backslash (text : List (Letter Hole))
  /-- After a mark that may be the first of two. -/
  | closing (kind : Quotation) (text : List (Letter Hole))
  /-- After a literal that may go on. -/
  | pause (kind : Quotation) (text : List (Letter Hole)) (gap : Gap)
  | line
  /-- In a comment inside of `depth` others, after the given character. -/
  | block (depth : Nat) (last : Char)
  /-- After a dollar sign and the start of a tag. -/
  | tag (text : List Char)
  | body (tag : List Char) (text : List (Letter Hole))
deriving DecidableEq, Repr

variable {Hole : Type}

/-! ### Characters -/

def isBlank (char : Char) : Bool :=
  char ∈ [' ', '\t', '\n', '\r', '\x0b', '\x0c']

def isNewline (char : Char) : Bool := char = '\n' || char = '\r'

def isNameStart (char : Char) : Bool :=
  ('a' ≤ char && char ≤ 'z') || ('A' ≤ char && char ≤ 'Z') || char = '_' || 128 ≤ char.toNat

def isDigit (char : Char) : Bool := '0' ≤ char && char ≤ '9'

/-- The first character of a word: a name, a keyword or a number. -/
def isWordStart (char : Char) : Bool := isNameStart char || isDigit char

/-- A number goes on with digits, a name with letters, digits and dollar signs. -/
def goesOn (text : List Char) (char : Char) : Bool :=
  if text.all isDigit then isDigit char else isWordStart char || char = '$'

/-! ### Steps -/

/-- The first letter of a token. -/
def start : Letter Hole → State Hole
  | .hole hole => .hole hole
  | .char char =>
    if isBlank char then .gap
    else if isWordStart char then .word [char]
    else if char = '\'' then .quoted .literal []
    else if char = '"' then .quoted .name []
    else if char = '$' then .tag []
    else .symbol char

/-- The quotation that a word opens together with a mark. -/
def quotationAfter (text : List Char) : Option Quotation :=
  if text ∈ [['e'], ['E']] then some .escape
  else if text ∈ [['b'], ['B'], ['x'], ['X']] then some .bits
  else none

/-- The delimiter of a dollar quoted text. -/
def delimiter (tag : List Char) : List (Letter Hole) :=
  (('$' :: tag) ++ ['$']).map .char

/-- A word that goes on, or opens a quotation. -/
def extendWord (text : List Char) : Letter Hole → Option (State Hole)
  | .hole _ => none
  | .char char =>
    if goesOn text char then some (.word (text ++ [char]))
    else if char = '\'' then (quotationAfter text).map fun kind => .quoted kind []
    else if char = '&' ∧ text ∈ [['u'], ['U']] then some (.ampersand text)
    else none

/-- A literal that goes on, or may do so. -/
def resume (kind : Quotation) (text : List (Letter Hole)) :
    Gap → Letter Hole → Option (List (Token Hole) × State Hole)
  | .blank _, .hole _ | .dash, .hole _ => none
  | .blank newline, .char char =>
    if isBlank char then some ([], .pause kind text (.blank (newline || isNewline char)))
    else if char = '-' then some ([], .pause kind text .dash)
    else if newline ∧ char = '\'' then some ([], .quoted kind text)
    else none
  | .dash, .char char => if char = '-' then some ([], .pause kind text .comment) else none
  | .comment, .hole hole => some ([.lost hole], .pause kind text .comment)
  | .comment, .char char =>
    some ([], .pause kind text (if isNewline char then .blank true else .comment))

/-- A character in a block comment. -/
def stepBlock (depth : Nat) (last char : Char) : State Hole :=
  if last = '/' ∧ char = '*' then .block (depth + 1) ' '
  else if last = '*' ∧ char = '/' then
    match depth with
    | 0 => .gap
    | depth + 1 => .block depth ' '
  else .block depth char

/-- A letter that is part of what has been read. -/
def extend [DecidableEq Hole] :
    State Hole → Letter Hole → Option (List (Token Hole) × State Hole)
  | .gap, _ | .hole _, _ | .tag _, .hole _ => none
  | .word text, letter => (extendWord text letter).map fun state => ([], state)
  | .ampersand _, letter =>
    if letter = .char '\'' then some ([], .quoted .unicode [])
    else if letter = .char '"' then some ([], .quoted .unicodeName [])
    else none
  | .symbol char, letter =>
    if char = '-' ∧ letter = .char '-' then some ([], .line)
    else if char = '/' ∧ letter = .char '*' then some ([], .block 0 ' ')
    else none
  | .quoted kind text, letter =>
    if letter = .char kind.mark then some ([], .closing kind text)
    else if kind = .escape ∧ letter = .char '\\' then some ([], .backslash text)
    else some ([], .quoted kind (text ++ [letter]))
  | .backslash text, letter => some ([], .quoted .escape (text ++ [.char '\\', letter]))
  | .closing kind text, letter =>
    if kind.doubles ∧ letter = .char kind.mark then some ([], .quoted kind (text ++ [letter]))
    else if kind.mark = '\'' then resume kind text (.blank false) letter
    else none
  | .pause kind text gap, letter => resume kind text gap letter
  | .line, .hole hole => some ([.lost hole], .line)
  | .line, .char char => if isNewline char then none else some ([], .line)
  | .block depth _, .hole hole => some ([.lost hole], .block depth ' ')
  | .block depth last, .char char => some ([], stepBlock depth last char)
  | .tag text, .char char =>
    if char = '$' then some ([], .body text [])
    else if isWordStart char ∧ (text = [] → isNameStart char) then
      some ([], .tag (text ++ [char]))
    -- the dollar sign stands alone, and what follows it is a word
    else (extendWord text (.char char)).map fun state => ([.symbol '$'], state)
  | .body tag text, letter =>
    if delimiter tag <:+ text ++ [letter] then
      some ([.dollar ((text ++ [letter]).take (text.length + 1 - (tag.length + 2)))], .gap)
    else some ([], .body tag (text ++ [letter]))

/-- What is left at the end of the statement. -/
def finish : State Hole → List (Token Hole)
  | .gap | .line => []
  | .word text => [.word text]
  | .ampersand text => [.word text, .symbol '&']
  | .symbol char => [.symbol char]
  | .hole hole => [.hole hole]
  | .quoted _ text | .body _ text => [.unended text]
  | .backslash text => [.unended (text ++ [.char '\\'])]
  | .closing kind text | .pause kind text (.blank _) | .pause kind text .comment =>
    [.quoted kind text]
  | .pause kind text .dash => [.quoted kind text, .symbol '-']
  | .block _ _ => [.unended []]
  | .tag text => if text = [] then [.symbol '$'] else [.symbol '$', .word text]

variable [DecidableEq Hole]

/-- A letter that is not part of what has been read starts a token. -/
def step (state : State Hole) (letter : Letter Hole) : List (Token Hole) × State Hole :=
  (extend state letter).getD (finish state, start letter)

def lexFrom : State Hole → List (Letter Hole) → List (Token Hole)
  | state, [] => finish state
  | state, letter :: rest => (step state letter).1 ++ lexFrom (step state letter).2 rest

def lex (letters : List (Letter Hole)) : List (Token Hole) := lexFrom .gap letters

end KnxVault.Std.Sql
