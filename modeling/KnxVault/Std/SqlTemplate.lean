import KnxVault.Std.SqlLexer
import KnxVault.Std.Text

/-!
# Templates of SQL statements

A template is a statement with holes. Filling a hole inside of a quotation doubles the
marks of its text, and a hole between tokens becomes a quoted name. If the holes stand
where the filling expects them, the tokens of the filled template are those of the
template, filled.
-/

namespace KnxVault.Std.Sql

variable {Hole : Type}

/-! ### Fillings -/

/-- Where a hole has to stand: alone in a quoted name, alone in a literal or between
tokens. -/
inductive Place where
  | name
  | literal
  | between
deriving DecidableEq, Repr

def Place.quotation : Place → Quotation
  | name | between => .name
  | literal => .literal

/-- The text with every mark doubled. -/
def doubled (mark : Char) (text : List Char) : List Char :=
  text.flatMap fun char => if char = mark then [char, char] else [char]

theorem doubled_of_notMem {mark : Char} {text : List Char} (absent : mark ∉ text) :
    doubled mark text = text := by
  induction text with
  | nil => rfl
  | cons char text ih =>
    have differs : char ≠ mark := fun same => absent (same ▸ List.mem_cons_self)
    rw [doubled, List.flatMap_cons, if_neg differs]
    exact congrArg (char :: ·) (ih fun listed => absent (List.mem_cons_of_mem _ listed))

/-- The places and the values of the holes. -/
structure Filling (Hole : Type) where
  place : Hole → Place
  value : Hole → List Char

namespace Filling

variable (filling : Filling Hole)

/-- What is put into a hole. -/
def put (hole : Hole) : List Char :=
  let mark := (filling.place hole).quotation.mark
  match filling.place hole with
  | .name | .literal => doubled mark (filling.value hole)
  | .between => mark :: doubled mark (filling.value hole) ++ [mark]

/-- The filled template. -/
def letters (template : List (Letter Hole)) : List (Letter Hole) :=
  template.flatMap fun letter => match letter with
    | .char char => [.char char]
    | .hole hole => (filling.put hole).map .char

/-- The text of a quotation with the values of its holes. -/
def text (quotation : List (Letter Hole)) : List (Letter Hole) :=
  quotation.flatMap fun letter => match letter with
    | .char char => [.char char]
    | .hole hole => (filling.value hole).map .char

/-- A hole between tokens becomes a quoted name. -/
def token : Token Hole → Token Hole
  | .quoted kind text => .quoted kind (filling.text text)
  | .dollar text => .dollar (filling.text text)
  | .unended text => .unended (filling.text text)
  | .hole hole => .quoted .name ((filling.value hole).map .char)
  | .word text => .word text
  | .symbol char => .symbol char
  | .lost hole => .lost hole

def state : State Hole → State Hole
  | .quoted kind text => .quoted kind (filling.text text)
  | .backslash text => .backslash (filling.text text)
  | .closing kind text => .closing kind (filling.text text)
  | .pause kind text gap => .pause kind (filling.text text) gap
  | .body tag text => .body tag (filling.text text)
  | .hole hole => .closing .name ((filling.value hole).map .char)
  | .gap => .gap
  | .word text => .word text
  | .ampersand text => .ampersand text
  | .symbol char => .symbol char
  | .line => .line
  | .block depth last => .block depth last
  | .tag text => .tag text

end Filling

/-! ### Templates whose holes stand where they have to -/

def Letter.isHole : Letter Hole → Bool
  | .hole _ => true
  | .char _ => false

def Letter.isBlank : Letter Hole → Bool
  | .char sign => Sql.isBlank sign
  | .hole _ => false

/-- Every hole of the token stands in its place, alone. -/
def Token.Expected (place : Hole → Place) : Token Hole → Prop
  | .word _ | .symbol _ => True
  | .quoted kind text => (∀ letter ∈ text, letter.isHole = false) ∨
      ∃ alone, text = [.hole alone] ∧ place alone ≠ .between ∧ kind = (place alone).quotation
  | .dollar text | .unended text => ∀ letter ∈ text, letter.isHole = false
  | .hole unfilled => place unfilled = .between
  | .lost _ => False

instance decidableAlone (holds : Hole → Prop) [DecidablePred holds] :
    (text : List (Letter Hole)) → Decidable (∃ alone, text = [.hole alone] ∧ holds alone)
  | [.hole alone] => decidable_of_iff (holds alone)
    ⟨fun yes => ⟨alone, rfl, yes⟩, fun ⟨_, same, yes⟩ =>
      Letter.hole.inj (List.head_eq_of_cons_eq same) ▸ yes⟩
  | [] => isFalse fun ⟨_, same, _⟩ => nomatch same
  | [.char _] => isFalse fun ⟨_, same, _⟩ => nomatch same
  | _ :: _ :: _ => isFalse fun ⟨_, same, _⟩ => nomatch same

instance (place : Hole → Place) : DecidablePred (Token.Expected place)
  | .word _ | .symbol _ => inferInstanceAs (Decidable True)
  | .quoted _ text => inferInstanceAs (Decidable ((∀ letter ∈ text, letter.isHole = false) ∨ _))
  | .dollar text | .unended text =>
    inferInstanceAs (Decidable (∀ letter ∈ text, letter.isHole = false))
  | .hole _ => inferInstanceAs (Decidable (_ = _))
  | .lost _ => inferInstanceAs (Decidable False)

/-- Holes between tokens have blanks around them; `blank` tells whether the letter in
front is one. -/
def Spaced (place : Hole → Place) (blank : Bool) : List (Letter Hole) → Prop
  | [] => True
  | .char char :: rest => Spaced place (isBlank char) rest
  | .hole hole :: rest =>
    (place hole = .between → blank = true ∧ ∀ letter ∈ rest.head?, letter.isBlank = true) ∧
      Spaced place false rest

instance decidableSpaced (place : Hole → Place) :
    (blank : Bool) → (template : List (Letter Hole)) → Decidable (Spaced place blank template)
  | _, [] => inferInstanceAs (Decidable True)
  | _, .char char :: rest => decidableSpaced place (isBlank char) rest
  | _, .hole _ :: rest =>
    have := decidableSpaced place false rest
    inferInstanceAs (Decidable ((_ → _) ∧ _))

/-- The holes of the template stand in their places. -/
structure Fits [DecidableEq Hole] (place : Hole → Place) (template : List (Letter Hole)) :
    Prop where
  expected : ∀ token ∈ lex template, token.Expected place
  spaced : Spaced place true template

instance [DecidableEq Hole] (place : Hole → Place) : DecidablePred (Fits place) := fun template =>
  decidable_of_iff ((∀ token ∈ lex template, token.Expected place) ∧ Spaced place true template)
    ⟨fun ⟨expected, spaced⟩ => ⟨expected, spaced⟩, fun fits => ⟨fits.expected, fits.spaced⟩⟩

/-! ### Reading templates -/

/-- The template with holes for its markers, read from the left. -/
def readHoles (markers : List (String × Hole)) : (skip : Nat) → List Char → List (Letter Hole)
  | _, [] => []
  | skip + 1, _ :: rest => readHoles markers skip rest
  | 0, char :: rest =>
    match markers.find? fun marker => marker.1.toList.isPrefixOf (char :: rest) with
    | some marker => .hole marker.2 :: readHoles markers (marker.1.toList.length - 1) rest
    | none => .char char :: readHoles markers 0 rest

/-- Replacing the markers fills the holes. -/
theorem replaceEach_markers (filling : Filling Hole) (markers : List (String × Hole)) (skip : Nat)
    (text : List Char) :
    (replaceEach (markers.map fun marker => (marker.1, String.ofList (filling.put marker.2))) skip
      text).map .char = filling.letters (readHoles markers skip text) := by
  induction text generalizing skip with
  | nil => cases skip <;> rfl
  | cons char rest ih =>
    cases skip with
    | succ skip => exact ih skip
    | zero =>
      rw [replaceEach, readHoles, List.find?_map]
      cases found : markers.find? fun marker => marker.1.toList.isPrefixOf (char :: rest) with
      | none =>
        have none : markers.find? ((fun pair : String × String =>
            pair.1.toList.isPrefixOf (char :: rest)) ∘ fun marker : String × Hole =>
              (marker.1, String.ofList (filling.put marker.2))) = none := found
        rw [none]
        exact congrArg (Letter.char char :: ·) (ih 0)
      | some marker =>
        have some : markers.find? ((fun pair : String × String =>
            pair.1.toList.isPrefixOf (char :: rest)) ∘ fun marker : String × Hole =>
              (marker.1, String.ofList (filling.put marker.2))) = some marker := found
        rw [some]
        simp only [Option.map_some, List.map_append, String.toList_ofList, ih]
        rfl

/-- Replacing a mark by two doubles it. -/
theorem replaceEach_doubled {once twice : String} {mark : Char} (one : once.toList = [mark])
    (two : twice.toList = [mark, mark]) (text : List Char) :
    replaceEach [(once, twice)] 0 text = doubled mark text := by
  induction text with
  | nil => rfl
  | cons char rest ih =>
    rw [replaceEach, doubled, List.flatMap_cons]
    by_cases same : char = mark
    · rw [if_pos same, same, List.find?_cons_of_pos (by simp [one])]
      simp only [one, two, List.length_singleton, Nat.sub_self, ih]
      rfl
    · rw [if_neg same, List.find?_cons_of_neg (by simpa [one] using Ne.symm same)]
      simp only [List.find?_nil, ih]
      rfl

/-! ### Steps of a filled template -/

namespace Filling

variable (filling : Filling Hole)

theorem text_append (front back : List (Letter Hole)) :
    filling.text (front ++ back) = filling.text front ++ filling.text back :=
  List.flatMap_append

theorem text_char (char : Char) : filling.text [.char char] = [.char char] := rfl

theorem text_hole (hole : Hole) : filling.text [.hole hole] = (filling.value hole).map .char :=
  List.append_nil _

theorem text_of_plain {text : List (Letter Hole)} (plain : ∀ letter ∈ text, letter.isHole = false) :
    filling.text text = text := by
  induction text with
  | nil => rfl
  | cons letter text ih =>
    have rest := ih fun other listed => plain other (List.mem_cons_of_mem _ listed)
    cases letter with
    | char char => exact congrArg (Letter.char char :: ·) rest
    | hole hole => cases plain _ List.mem_cons_self

/-- The tokens and the state after a step. -/
def output (out : List (Token Hole) × State Hole) : List (Token Hole) × State Hole :=
  (out.1.map filling.token, filling.state out.2)

theorem state_start (char : Char) : filling.state (start (.char char)) = start (.char char) := by
  simp only [start]
  split_ifs <;> rfl

theorem output_extendWord (text : List Char) (char : Char) (tokens : List (Token Hole)) :
    ((extendWord text (.char char)).map fun state => (tokens, state)).map filling.output =
      (extendWord text (.char char)).map fun state => (tokens.map filling.token, state) := by
  simp only [extendWord]
  split_ifs
  · rfl
  · cases quotationAfter text <;> rfl
  · rfl
  · rfl

theorem resume_char (kind : Quotation) (text : List (Letter Hole)) (gap : Gap) (char : Char) :
    resume kind (filling.text text) gap (.char char) =
      (resume kind text gap (.char char)).map filling.output := by
  cases gap with
  | comment => rfl
  | _ =>
    simp only [resume]
    split_ifs <;> rfl

theorem finish_state (state : State Hole) :
    finish (filling.state state) = (finish state).map filling.token := by
  cases state with
  | backslash text =>
    simp only [Filling.state, finish, List.map_cons, token, text_append, text_char, List.map_nil]
  | tag text =>
    simp only [Filling.state, finish]
    split_ifs <;> rfl
  | pause kind text gap => cases gap <;> rfl
  | _ => rfl

variable [DecidableEq Hole]

/-- What a character extends, it extends in the filled template. -/
theorem extend_char {state : State Hole} {char : Char}
    (blank : ∀ hole, state = .hole hole → isBlank char = true)
    (plain : ∀ tag text, state = .body tag text → ∀ letter ∈ text, letter.isHole = false) :
    extend (filling.state state) (.char char) =
      (extend state (.char char)).map filling.output := by
  cases state with
  | gap => rfl
  | word text => exact (filling.output_extendWord text char []).symm
  | hole hole =>
    have other : char ≠ '"' := by
      rintro rfl
      cases blank hole rfl
    simp only [Filling.state, extend]
    rw [if_neg fun twice => other (Letter.char.inj twice.2), if_neg (by decide)]
    rfl
  | quoted kind text =>
    simp only [Filling.state, extend]
    split_ifs
    · rfl
    · rfl
    · simp only [Option.map_some, output, Filling.state, text_append, text_char, List.map_nil]
  | backslash text =>
    simp only [Filling.state, extend, Option.map_some, output, text_append, List.map_nil]
    rfl
  | closing kind text =>
    simp only [Filling.state, extend]
    split_ifs
    · simp only [Option.map_some, output, Filling.state, text_append, text_char, List.map_nil]
    · exact filling.resume_char kind text _ char
    · rfl
  | pause kind text gap => exact filling.resume_char kind text gap char
  | block depth last =>
    simp only [Filling.state, extend, stepBlock]
    split_ifs
    · rfl
    · cases depth <;> rfl
    · rfl
  | tag text =>
    simp only [Filling.state, extend]
    split_ifs
    · rfl
    · rfl
    · exact (filling.output_extendWord text char [.symbol '$']).symm
  | body tag text =>
    have same := filling.text_of_plain (plain tag text rfl)
    have more : filling.text (text ++ [.char char]) = text ++ [.char char] := by
      rw [text_append, same, text_char]
    simp only [Filling.state, extend, same]
    split_ifs
    · have kept :
          filling.text ((text ++ [Letter.char char]).take (text.length + 1 - (tag.length + 2))) =
            (text ++ [Letter.char char]).take (text.length + 1 - (tag.length + 2)) := by
        refine filling.text_of_plain fun letter listed => ?_
        obtain old | new := List.mem_append.mp (List.mem_of_mem_take listed)
        · exact plain tag text rfl letter old
        · rw [List.mem_singleton.mp new]
          rfl
      exact congrArg (fun text => some ([Token.dollar text], State.gap)) kept.symm
    · simp only [Option.map_some, output, Filling.state, more, List.map_nil]
  | ampersand | symbol | line =>
    simp only [Filling.state, extend]
    split_ifs <;> rfl

/-- A character has the same effect in the filled template. -/
theorem step_char {state : State Hole} {char : Char}
    (blank : ∀ hole, state = .hole hole → isBlank char = true)
    (plain : ∀ tag text, state = .body tag text → ∀ letter ∈ text, letter.isHole = false) :
    step (filling.state state) (.char char) = filling.output (step state (.char char)) := by
  unfold step
  rw [filling.extend_char blank plain]
  cases extend state (.char char) with
  | none => exact Prod.ext (filling.finish_state state) (filling.state_start char).symm
  | some out => rfl

end Filling

/-! ### Where the holes go -/

section Holes

variable {filling : Filling Hole}

/-- The quotation that is open. -/
def State.quotation? : State Hole → Option Quotation
  | .quoted kind _ | .closing kind _ | .pause kind _ _ => some kind
  | .backslash _ => some .escape
  | _ => none

def State.text : State Hole → List (Letter Hole)
  | .quoted _ text | .closing _ text | .pause _ text _ | .backslash text | .body _ text => text
  | _ => []

def Token.quotation? : Token Hole → Option Quotation
  | .quoted kind _ => some kind
  | _ => none

def Token.text : Token Hole → List (Letter Hole)
  | .quoted _ text | .dollar text | .unended text => text
  | _ => []

/-- The delimiter has no holes. -/
theorem mem_take_of_delimiter {hole : Hole} {tag : List Char} {text : List (Letter Hole)}
    {letter : Letter Hole} (closes : delimiter tag <:+ text ++ [letter])
    (read : .hole hole ∈ text) :
    .hole hole ∈ (text ++ [letter]).take (text.length + 1 - (tag.length + 2)) := by
  obtain ⟨front, split⟩ := closes
  have size := congrArg List.length split
  simp only [delimiter, List.length_append, List.length_map, List.length_cons,
    List.length_nil] at size
  have place : text.length + 1 - (tag.length + 2) = front.length := by omega
  have held : Letter.hole hole ∈ front ++ delimiter tag := split ▸ List.mem_append_left _ read
  rw [place, ← split, List.take_left]
  obtain front | back := List.mem_append.mp held
  · exact front
  · obtain ⟨char, -, same⟩ := List.mem_map.mp back
    cases same

/-- A token that holds a hole where it is expected is a quotation of its place. -/
theorem Token.Expected.quotation {token : Token Hole} (expected : token.Expected filling.place)
    {hole : Hole} (held : .hole hole ∈ token.text) :
    token.quotation? = some (filling.place hole).quotation ∧ filling.place hole ≠ .between := by
  cases token <;> simp only [Token.text, List.not_mem_nil] at held
  case quoted kind text =>
    obtain plain | ⟨alone, rfl, enclosed, rfl⟩ := expected
    · cases plain _ held
    · obtain rfl := Letter.hole.inj (List.mem_singleton.mp held)
      exact ⟨rfl, enclosed⟩
  case dollar text => cases expected _ held
  case unended text => cases expected _ held

/-- No token is open that a blank would end. -/
def State.settled : State Hole → Bool
  | .gap | .quoted _ _ | .line | .block _ _ | .body _ _ => true
  | .pause _ _ (.blank _) | .pause _ _ .comment => true
  | _ => false

def State.isHole : State Hole → Bool
  | .hole _ => true
  | _ => false

theorem ne_of_blank {char : Char} (blank : isBlank char = true) (other : Char)
    (solid : isBlank other = false) : char ≠ other := by
  rintro rfl
  rw [solid] at blank
  cases blank

theorem other_of_blank {char : Char} (blank : isBlank char = true) :
    isDigit char = false ∧ isWordStart char = false := by
  simp only [isBlank, decide_eq_true_eq, List.mem_cons, List.not_mem_nil, or_false] at blank
  rcases blank with rfl | rfl | rfl | rfl | rfl | rfl <;> exact ⟨rfl, rfl⟩

theorem Quotation.solid_mark (kind : Quotation) : isBlank kind.mark = false := by
  cases kind <;> rfl

/-- What is kept of a state that a letter extends. -/
structure Extends (state : State Hole) (letter : Letter Hole)
    (out : List (Token Hole) × State Hole) : Prop where
  solid : out.2.isHole = false
  /-- A hole that has been read stays in the quotation, or goes into a token. -/
  text : ∀ hole, .hole hole ∈ state.text →
    .hole hole ∈ out.2.text ∧ out.2.quotation? = state.quotation? ∨
      ∃ token ∈ out.1, .hole hole ∈ token.text ∧ token.quotation? = none
  settled : letter.isBlank = true → out.2.settled = true

variable {state : State Hole} {letter : Letter Hole} {out : List (Token Hole) × State Hole}

theorem Extends.of_fresh (fresh : state.text = []) (solid : out.2.isHole = false)
    (settled : letter.isBlank = true → out.2.settled = true) : Extends state letter out := by
  refine ⟨solid, fun hole read => ?_, settled⟩
  rw [fresh] at read
  cases read

/-- A word is not extended by a blank. -/
theorem extendWord_some {text : List Char} {next : State Hole}
    (extended : extendWord text letter = some next) :
    next.isHole = false ∧ letter.isBlank ≠ true := by
  cases letter with
  | hole hole => cases extended
  | char char =>
    refine ⟨?_, fun blank => ?_⟩
    · simp only [extendWord] at extended
      split_ifs at extended
      · cases extended
        rfl
      · obtain ⟨kind, -, rfl⟩ := Option.map_eq_some_iff.mp extended
        rfl
      · cases extended
        rfl
    · have stops : goesOn text char = false := by
        unfold goesOn
        split
        · exact (other_of_blank blank).1
        · rw [(other_of_blank blank).2, Bool.false_or]
          exact decide_eq_false (ne_of_blank blank '$' rfl)
      simp only [extendWord, stops, ne_of_blank blank '\'' rfl,
        ne_of_blank blank '&' rfl, false_and, if_false, Bool.false_eq_true] at extended
      cases extended

/-- A literal that may go on keeps its text. -/
theorem resume_some {kind : Quotation} {text : List (Letter Hole)} {gap : Gap}
    (shown : state.text = text) (quoted : state.quotation? = some kind)
    (extended : resume kind text gap letter = some out) : Extends state letter out := by
  have kept {next : State Hole} (same : next.text = text) (kind : next.quotation? = some kind) :
      ∀ hole, .hole hole ∈ state.text → .hole hole ∈ next.text ∧
        next.quotation? = state.quotation? :=
    fun hole read => ⟨same ▸ shown ▸ read, kind.trans quoted.symm⟩
  cases gap <;> cases letter <;> simp only [resume] at extended
  case blank.char newline char =>
    split_ifs at extended with blank dash goes <;> cases extended
    · exact ⟨rfl, fun hole read => .inl (kept rfl rfl hole read), fun _ => rfl⟩
    · exact ⟨rfl, fun hole read => .inl (kept rfl rfl hole read), fun spaced => absurd spaced blank⟩
    · exact ⟨rfl, fun hole read => .inl (kept rfl rfl hole read), fun _ => rfl⟩
  case dash.char char =>
    split_ifs at extended
    cases extended
    exact ⟨rfl, fun hole read => .inl (kept rfl rfl hole read), fun _ => rfl⟩
  case comment.char char =>
    cases extended
    refine ⟨rfl, fun hole read => .inl (kept rfl rfl hole read), fun _ => ?_⟩
    dsimp only
    split <;> rfl
  case comment.hole hole =>
    cases extended
    exact ⟨rfl, fun hole read => .inl (kept rfl rfl hole read), fun spaced => nomatch spaced⟩
  all_goals cases extended

theorem exists_finish_of_hole {hole : Hole} (read : .hole hole ∈ state.text) :
    ∃ token ∈ finish state, .hole hole ∈ token.text ∧
      (token.quotation? = state.quotation? ∨ token.quotation? = none) := by
  cases state <;> simp only [State.text, List.not_mem_nil] at read
  case quoted kind text => exact ⟨_, List.mem_cons_self, read, .inr rfl⟩
  case backslash text => exact ⟨_, List.mem_cons_self, List.mem_append_left _ read, .inr rfl⟩
  case closing kind text => exact ⟨_, List.mem_cons_self, read, .inl rfl⟩
  case pause kind text gap => cases gap <;> exact ⟨_, List.mem_cons_self, read, .inl rfl⟩
  case body tag text => exact ⟨_, List.mem_cons_self, read, .inr rfl⟩

variable [DecidableEq Hole]

/-- Everything that a letter can extend. -/
theorem extends_of_extend (extended : extend state letter = some out) :
    Extends state letter out := by
  cases state with
  | gap | hole => cases extended
  | word text =>
    obtain ⟨next, stepped, rfl⟩ := Option.map_eq_some_iff.mp extended
    obtain ⟨solid, unspaced⟩ := extendWord_some stepped
    exact .of_fresh rfl solid fun spaced => absurd spaced unspaced
  | ampersand | symbol =>
    simp only [extend] at extended
    split_ifs at extended <;> cases extended <;> exact .of_fresh rfl rfl fun _ => rfl
  | quoted kind text =>
    simp only [extend] at extended
    split_ifs at extended with marked escapes <;> cases extended
    · refine ⟨rfl, fun hole read => .inl ⟨read, rfl⟩, fun spaced => ?_⟩
      rw [marked, Letter.isBlank, kind.solid_mark] at spaced
      cases spaced
    · refine ⟨rfl, fun hole read => .inl ⟨read, congrArg some escapes.1.symm⟩, fun spaced => ?_⟩
      rw [escapes.2] at spaced
      cases spaced
    · exact ⟨rfl, fun hole read => .inl ⟨List.mem_append_left _ read, rfl⟩, fun _ => rfl⟩
  | backslash text =>
    cases extended
    exact ⟨rfl, fun hole read => .inl ⟨List.mem_append_left _ read, rfl⟩, fun _ => rfl⟩
  | closing kind text =>
    simp only [extend] at extended
    split_ifs at extended
    · cases extended
      exact ⟨rfl, fun hole read => .inl ⟨List.mem_append_left _ read, rfl⟩, fun _ => rfl⟩
    · exact resume_some rfl rfl extended
  | pause kind text gap => exact resume_some rfl rfl extended
  | line =>
    cases letter with
    | hole hole => cases extended; exact .of_fresh rfl rfl fun _ => rfl
    | char char =>
      simp only [extend] at extended
      split_ifs at extended
      cases extended
      exact .of_fresh rfl rfl fun _ => rfl
  | block depth last =>
    cases letter with
    | hole hole => cases extended; exact .of_fresh rfl rfl fun _ => rfl
    | char char =>
      cases extended
      have stays : (stepBlock depth last char : State Hole).isHole = false ∧
          (stepBlock depth last char : State Hole).settled = true := by
        unfold stepBlock
        split_ifs
        · exact ⟨rfl, rfl⟩
        · cases depth <;> exact ⟨rfl, rfl⟩
        · exact ⟨rfl, rfl⟩
      exact .of_fresh rfl stays.1 fun _ => stays.2
  | tag text =>
    cases letter with
    | hole hole => cases extended
    | char char =>
      simp only [extend] at extended
      split_ifs at extended with closes goes
      · cases extended
        exact .of_fresh rfl rfl fun _ => rfl
      · cases extended
        refine .of_fresh rfl rfl fun spaced => ?_
        rw [(other_of_blank spaced).2] at goes
        cases goes.1
      · obtain ⟨next, stepped, rfl⟩ := Option.map_eq_some_iff.mp extended
        obtain ⟨solid, unspaced⟩ := extendWord_some stepped
        exact .of_fresh rfl solid fun spaced => absurd spaced unspaced
  | body tag text =>
    simp only [extend] at extended
    split_ifs at extended with closes <;> cases extended
    · refine ⟨rfl, fun hole read => .inr ?_, fun _ => rfl⟩
      exact ⟨_, List.mem_singleton_self _, mem_take_of_delimiter closes read, rfl⟩
    · exact ⟨rfl, fun hole read => .inl ⟨List.mem_append_left _ read, rfl⟩, fun _ => rfl⟩

/-- A text with doubled marks adds itself to the quotation. -/
theorem lexFrom_doubled {kind : Quotation} (doubles : kind.doubles = true)
    (noEscape : kind ≠ .escape) (text : List (Letter Hole)) (chars : List Char)
    (rest : List (Letter Hole)) :
    lexFrom (.quoted kind text) ((doubled kind.mark chars).map .char ++ rest) =
      lexFrom (.quoted kind (text ++ chars.map .char)) rest := by
  induction chars generalizing text with
  | nil => rw [List.map_nil, List.append_nil]; rfl
  | cons char chars ih =>
    have more : text ++ (char :: chars).map Letter.char =
        (text ++ [.char char]) ++ chars.map .char := by
      simp
    rw [more, ← ih, doubled, List.flatMap_cons]
    by_cases same : char = kind.mark
    · rw [if_pos same, same]
      simp [lexFrom, step, extend, doubles, doubled]
    · rw [if_neg same]
      simp [lexFrom, step, extend, same, noEscape, doubled]

/-- A hole that has been read is in a token of the open quotation or in the text at
the end. -/
theorem exists_token_of_hole {hole : Hole} {state : State Hole} (read : .hole hole ∈ state.text)
    (rest : List (Letter Hole)) :
    ∃ token ∈ lexFrom state rest, .hole hole ∈ token.text ∧
      (token.quotation? = state.quotation? ∨ token.quotation? = none) := by
  induction rest generalizing state with
  | nil => exact exists_finish_of_hole read
  | cons letter rest ih =>
    rw [lexFrom, step]
    cases extended : extend state letter with
    | none =>
      obtain ⟨token, emitted, held⟩ := exists_finish_of_hole read
      exact ⟨token, List.mem_append_left _ emitted, held⟩
    | some out =>
      obtain ⟨stays, same⟩ | ⟨token, emitted, held, kind⟩ :=
        (extends_of_extend extended).text hole read
      · obtain ⟨token, emitted, held⟩ := ih stays
        exact ⟨token, List.mem_append_right _ emitted, same ▸ held⟩
      · exact ⟨token, List.mem_append_left _ emitted, held, .inr kind⟩

/-- A hole inside of a quotation is one that belongs there. -/
theorem quotation_of_expected {state : State Hole} {rest : List (Letter Hole)}
    (expected : ∀ token ∈ lexFrom state rest, token.Expected filling.place) {hole : Hole}
    (read : .hole hole ∈ state.text) :
    state.quotation? = some (filling.place hole).quotation ∧ filling.place hole ≠ .between := by
  obtain ⟨token, emitted, held, kind⟩ := exists_token_of_hole read rest
  obtain ⟨quotation, enclosed⟩ := (expected token emitted).quotation held
  refine ⟨?_, enclosed⟩
  obtain same | none := kind
  · rw [← same, quotation]
  · rw [quotation] at none
    cases none

end Holes

/-! ### The tokens of a filled template -/

theorem start_char_isHole (char : Char) :
    (start (.char char) : State Hole).isHole = false := by
  simp only [start]
  split_ifs <;> rfl

variable [DecidableEq Hole] {filling : Filling Hole}

theorem settled_step (state : State Hole) {char : Char} (blank : isBlank char = true) :
    (step state (.char char)).2.settled = true := by
  unfold step
  cases extended : extend state (.char char) with
  | none => exact congrArg State.settled (if_pos blank)
  | some out => exact (extends_of_extend extended).settled blank

theorem step_char_isHole (state : State Hole) (char : Char) :
    (step state (.char char)).2.isHole = false := by
  unfold step
  cases extended : extend state (.char char) with
  | none => exact start_char_isHole char
  | some out => exact (extends_of_extend extended).solid

/-- A mark starts a token where a hole does. -/
theorem extend_mark {state : State Hole} {hole : Hole} (settled : state.settled = true)
    (starts : extend state (.hole hole) = none) :
    extend (filling.state state) (.char '"') = none := by
  cases state with
  | gap => rfl
  | pause kind text gap =>
    cases gap with
    | blank newline => cases newline <;> rfl
    | dash => cases settled
    | comment => cases starts
  | quoted kind text =>
    simp only [extend] at starts
    split_ifs at starts
  | body tag text =>
    simp only [extend] at starts
    split_ifs at starts
  | line | block => cases starts
  | _ => cases settled

theorem hole_mem_lexFrom (hole : Hole) (rest : List (Letter Hole)) :
    .hole hole ∈ lexFrom (.hole hole) rest := by
  cases rest <;> exact List.mem_cons_self

/-- The tokens of what is filled are the tokens, filled. -/
theorem lexFrom_letters {template : List (Letter Hole)} {state : State Hole} {blank : Bool}
    (expected : ∀ token ∈ lexFrom state template, token.Expected filling.place)
    (spaced : Spaced filling.place blank template) (settled : blank = true → state.settled = true)
    (follows : state.isHole = true → ∀ letter ∈ template.head?, letter.isBlank = true) :
    lexFrom (filling.state state) (filling.letters template) =
      (lexFrom state template).map filling.token := by
  induction template generalizing state blank with
  | nil => exact filling.finish_state state
  | cons letter rest ih =>
    have later : ∀ token ∈ lexFrom (step state letter).2 rest, token.Expected filling.place :=
      fun token emitted => expected token (List.mem_append_right _ emitted)
    cases letter with
    | char char =>
      have same : step (filling.state state) (.char char) =
          filling.output (step state (.char char)) := by
        refine filling.step_char ?_ ?_
        · rintro hole rfl
          exact follows rfl _ rfl
        · rintro tag text rfl letter read
          cases letter with
          | char char => rfl
          | hole hole => cases (quotation_of_expected expected read).1
      have tail := ih later spaced (settled_step state) fun stands => by
        rw [step_char_isHole state char] at stands
        cases stands
      show lexFrom (filling.state state) (.char char :: filling.letters rest) = _
      rw [lexFrom, same, Filling.output, tail, lexFrom, List.map_append]
    | hole hole =>
      obtain ⟨around, spaced⟩ := spaced
      show lexFrom (filling.state state) ((filling.put hole).map .char ++ filling.letters rest) = _
      cases extended : extend state (.hole hole) with
      | none =>
        -- the hole starts a token: it stands between tokens
        have starts : step state (.hole hole) = (finish state, .hole hole) := by
          rw [step, extended]
          rfl
        rw [starts] at later
        have place : filling.place hole = .between := later _ (hole_mem_lexFrom hole rest)
        have opens : step (filling.state state) (.char '"') =
            (finish (filling.state state), .quoted .name []) := by
          rw [step, extend_mark (settled (around place).1) extended]
          rfl
        have put : filling.put hole = '"' :: doubled '"' (filling.value hole) ++ ['"'] := by
          simp only [Filling.put, place]
          rfl
        have tail := ih later spaced (fun blank => nomatch blank) fun _ => (around place).2
        rw [lexFrom, starts, List.map_append, ← filling.finish_state, ← tail, put]
        simp only [List.cons_append, List.map_cons, List.map_append, List.append_assoc, lexFrom,
          opens]
        refine congrArg (finish (filling.state state) ++ ·) ?_
        exact lexFrom_doubled rfl (by decide) [] (filling.value hole) _
      | some out =>
        have stepped : step state (.hole hole) = out := by
          rw [step, extended]
          rfl
        cases state with
        | quoted kind text =>
          obtain rfl : out = ([], .quoted kind (text ++ [.hole hole])) := by
            simp only [extend] at extended
            rw [if_neg (by simp), if_neg (by simp)] at extended
            exact (Option.some.inj extended).symm
          rw [stepped] at later
          have tail := ih later spaced (fun blank => nomatch blank) fun stands => nomatch stands
          obtain ⟨quotation, enclosed⟩ := quotation_of_expected later
            (List.mem_append_right _ (List.mem_singleton_self _))
          obtain rfl := Option.some.inj quotation
          have put : filling.put hole =
              doubled (filling.place hole).quotation.mark (filling.value hole) := by
            unfold Filling.put
            cases place : filling.place hole with
            | name => rfl
            | literal => rfl
            | between => exact absurd place enclosed
          rw [lexFrom, stepped, List.map_append, ← tail, put]
          refine (lexFrom_doubled ?_ ?_ _ _ _).trans ?_
          · cases filling.place hole <;> rfl
          · cases filling.place hole <;> exact Quotation.noConfusion
          · rw [Filling.state, Filling.text_append, Filling.text_hole]
            rfl
        | backslash text =>
          cases extended
          rw [stepped] at later
          obtain ⟨quotation, -⟩ := quotation_of_expected later
            (List.mem_append_right _ (List.mem_cons_of_mem _ (List.mem_singleton_self _)))
          cases place : filling.place hole <;> rw [place] at quotation <;> cases quotation
        | body tag text =>
          have goes : ¬ delimiter tag <:+ text ++ [.hole hole] := by
            rintro ⟨front, split⟩
            have last := congrArg List.getLast? split
            rw [delimiter, List.map_append, ← List.append_assoc, List.map_singleton,
              List.getLast?_concat, List.getLast?_concat] at last
            cases last
          simp only [extend, if_neg goes] at extended
          cases extended
          rw [stepped] at later
          cases (quotation_of_expected later
            (List.mem_append_right _ (List.mem_singleton_self _))).1
        | line | block =>
          cases extended
          cases expected _ (List.mem_append_left _ List.mem_cons_self)
        | pause kind text gap =>
          cases gap <;> cases extended
          cases expected _ (List.mem_append_left _ List.mem_cons_self)
        | ampersand | symbol | closing => simp [extend, resume] at extended
        | _ => cases extended

theorem Fits.lex_letters {template : List (Letter Hole)} (fits : Fits filling.place template) :
    lex (filling.letters template) = (lex template).map filling.token :=
  lexFrom_letters fits.expected fits.spaced (fun _ => rfl) fun stands => nomatch stands

end KnxVault.Std.Sql
