import KnxVault.Domain.Auth
import KnxVault.Std.Spelling

/-!
# Glob patterns

The matcher that authorisation uses is `globMatch` of `internal/domain/auth/policy.go`, the
documented one is `matchGlob` of `internal/auth/glob.go`. They differ in the loop for a single
star. Both are decided by the tokens of the pattern.
-/

namespace KnxVault.Auth.Glob

open KnxVault.Std KnxVault.Domain

/-! ### The matchers -/

section

variable (crosses : Bool) (pat str : List UInt8)

mutual

/-- The rest of the pattern from `pi` matches the rest of the text from `si`. A single star may
cross a slash or not. -/
def matchFrom (pi si : Nat) : Bool :=
  if pi < pat.length then
    if pat[pi]? = some 42 then
      if pat[pi + 1]? = some 42 then
        if pat[pi + 2]? = some 47 then segmentLoop (pi + 3) si
        else everyLoop (pi + 2) si
      else starLoop (pi + 1) si
    else if pat[pi]? = some 63 then
      if str.length ≤ si ∨ str[si]? = some 47 then false else matchFrom (pi + 1) (si + 1)
    else
      if str.length ≤ si ∨ pat[pi]? ≠ str[si]? then false else matchFrom (pi + 1) (si + 1)
  else si = str.length
termination_by (pat.length - pi, str.length + 1 - si, 0)

/-- The loop for two stars and a slash. -/
def segmentLoop (pi si : Nat) : Bool :=
  if si ≤ str.length then
    if matchFrom pi si then true
    else if si = str.length then false
    else
      match (str.drop si).idxOf? 47 with
      | none => segmentLoop pi str.length
      | some next => segmentLoop pi (si + next + 1)
  else false
termination_by (pat.length - pi, str.length + 1 - si, 1)

/-- The loop for two stars. -/
def everyLoop (pi si : Nat) : Bool :=
  if si ≤ str.length then
    if matchFrom pi si then true else everyLoop pi (si + 1)
  else false
termination_by (pat.length - pi, str.length + 1 - si, 1)

/-- The loop for a single star. -/
def starLoop (pi si : Nat) : Bool :=
  if si ≤ str.length then
    if matchFrom pi si then true
    else if crosses = false ∧ si < str.length ∧ str[si]? = some 47 then false
    else starLoop pi (si + 1)
  else false
termination_by (pat.length - pi, str.length + 1 - si, 1)

end

end

/-- The enforced matcher, whose single star crosses slashes. -/
def globMatch (pat str : List UInt8) (pi si : Nat) : Bool := matchFrom true pat str pi si

/-- The documented matcher, whose single star stays within a segment. -/
def matchGlob (pat str : List UInt8) (pi si : Nat) : Bool := matchFrom false pat str pi si

/-! ### The language of a pattern -/

inductive Token where
  /-- Two stars and a slash. -/
  | segments
  /-- Two stars. -/
  | every
  | star
  | one
  | plain (byte : UInt8)
deriving DecidableEq, Repr

/-- The tokens of a pattern, read from the left. -/
def tokens : List UInt8 → List Token
  | [] => []
  | 42 :: 42 :: 47 :: rest => .segments :: tokens rest
  | 42 :: 42 :: rest => .every :: tokens rest
  | 42 :: rest => .star :: tokens rest
  | 63 :: rest => .one :: tokens rest
  | byte :: rest => .plain byte :: tokens rest

/-- The token derives the part of a text, in front of the rest. -/
def Token.Derives (crosses : Bool) : Token → List UInt8 → List UInt8 → Prop
  | segments, part, rest => part = [] ∨ part.getLast? = some 47 ∨ rest = []
  | every, _, _ => True
  | star, part, _ => crosses = true ∨ 47 ∉ part
  | one, part, _ => ∃ byte, part = [byte] ∧ byte ≠ 47
  | plain byte, part, _ => part = [byte]

/-- The text is a concatenation of parts that the tokens of the pattern derive. -/
def Reads (crosses : Bool) (pattern text : List UInt8) : Prop :=
  Spells (Token.Derives crosses) (tokens pattern) text

theorem Reads.crossing {pattern text : List UInt8} (reads : Reads false pattern text) :
    Reads true pattern text := by
  refine Spells.mono (fun token part rest derived => ?_) reads
  cases token with
  | star => exact Or.inl rfl
  | segments | every | one | plain _ => exact derived

/-! ### The loops -/

section

variable {crosses : Bool} {pat str : List UInt8} {pi si : Nat}

theorem everyLoop_iff : everyLoop crosses pat str pi si = true ↔
    ∃ stop, si ≤ stop ∧ stop ≤ str.length ∧ matchFrom crosses pat str pi stop = true := by
  induction left : str.length + 1 - si generalizing si with
  | zero =>
    rw [everyLoop, if_neg (by omega)]
    simp only [Bool.false_eq_true, false_iff, not_exists, not_and]
    intro stop least most
    omega
  | succ left ih =>
    rw [everyLoop, if_pos (by omega)]
    by_cases here : matchFrom crosses pat str pi si = true
    · rw [if_pos here]
      exact ⟨fun _ => ⟨si, by omega, by omega, here⟩, fun _ => rfl⟩
    · rw [if_neg here, ih (by omega)]
      constructor
      · rintro ⟨stop, least, most, found⟩
        exact ⟨stop, by omega, most, found⟩
      · rintro ⟨stop, least, most, found⟩
        have later : si ≠ stop := by
          rintro rfl
          exact here found
        exact ⟨stop, by omega, most, found⟩

theorem starLoop_iff : starLoop crosses pat str pi si = true ↔
    ∃ stop, si ≤ stop ∧ stop ≤ str.length ∧
      (crosses = true ∨ 47 ∉ (str.drop si).take (stop - si)) ∧
      matchFrom crosses pat str pi stop = true := by
  induction left : str.length + 1 - si generalizing si with
  | zero =>
    rw [starLoop, if_neg (by omega)]
    simp only [Bool.false_eq_true, false_iff, not_exists, not_and]
    intro stop least most
    omega
  | succ left ih =>
    rw [starLoop, if_pos (by omega)]
    by_cases here : matchFrom crosses pat str pi si = true
    · rw [if_pos here]
      exact ⟨fun _ => ⟨si, by omega, by omega, .inr (by simp), here⟩, fun _ => rfl⟩
    rw [if_neg here]
    have later {stop : Nat} (least : si ≤ stop) (found : matchFrom crosses pat str pi stop = true) :
        si < stop := by
      refine Nat.lt_of_le_of_ne least ?_
      rintro rfl
      exact here found
    -- the part up to a later stop starts with the byte at `si`
    have part {stop : Nat} (after : si < stop) (most : stop ≤ str.length) :
        (str.drop si).take (stop - si) =
          str[si] :: (str.drop (si + 1)).take (stop - (si + 1)) := by
      rw [List.drop_eq_getElem_cons (by omega : si < str.length),
        show stop - si = (stop - (si + 1)) + 1 by omega, List.take_succ_cons]
    split
    · rename_i stopped
      obtain ⟨within, inside, slash⟩ := stopped
      simp only [Bool.false_eq_true, false_iff, not_exists, not_and]
      rintro stop least most (crossed | free) found
      · rw [within] at crossed
        cases crossed
      · rw [part (later least found) most] at free
        rw [List.getElem?_eq_getElem inside, Option.some.injEq] at slash
        exact free (by simp [slash])
    · rename_i goes
      rw [ih (by omega)]
      constructor
      · rintro ⟨stop, least, most, free, found⟩
        refine ⟨stop, by omega, most, ?_, found⟩
        by_cases crossed : crosses = true
        · exact .inl crossed
        · have free := free.resolve_left crossed
          have other : str[si]? ≠ some 47 := fun slash =>
            goes ⟨by simpa using crossed, by omega, slash⟩
          rw [List.getElem?_eq_getElem (by omega), Ne, Option.some.injEq] at other
          rw [part (by omega) most]
          exact .inr fun member => (List.mem_cons.mp member).elim (fun same => other same.symm) free
      · rintro ⟨stop, least, most, free, found⟩
        have after := later least found
        refine ⟨stop, by omega, most, free.imp_right fun free => ?_, found⟩
        rw [part after most] at free
        exact fun member => free (List.mem_cons_of_mem _ member)

/-- Where two stars and a slash may stop. -/
def Stops (str : List UInt8) (si stop : Nat) : Prop :=
  stop = si ∨ (si < stop ∧ str[stop - 1]? = some 47) ∨ stop = str.length

theorem stops_iff {stop : Nat} (least : si ≤ stop) (most : stop ≤ str.length) :
    Token.Derives crosses .segments ((str.drop si).take (stop - si)) (str.drop stop) ↔
      Stops str si stop := by
  have last : ((str.drop si).take (stop - si)).getLast? = some 47 ↔
      si < stop ∧ str[stop - 1]? = some 47 := by
    rw [List.getLast?_take]
    by_cases same : stop = si
    · simp [same]
    · have inside : (str.drop si)[stop - si - 1]? = str[stop - 1]? := by
        rw [List.getElem?_drop, show si + (stop - si - 1) = stop - 1 by omega]
      rw [if_neg (by omega), inside, List.getElem?_eq_getElem (by omega), Option.some_or]
      exact ⟨fun slash => ⟨by omega, slash⟩, fun slash => slash.2⟩
  have first : (str.drop si).take (stop - si) = [] ↔ stop = si := by
    rw [List.take_eq_nil_iff, List.drop_eq_nil_iff]
    omega
  have end' : str.drop stop = [] ↔ stop = str.length := by
    rw [List.drop_eq_nil_iff]
    omega
  rw [Token.Derives, first, last, end', Stops]

theorem segmentLoop_iff (inside : si ≤ str.length) :
    segmentLoop crosses pat str pi si = true ↔
      ∃ stop, si ≤ stop ∧ stop ≤ str.length ∧ Stops str si stop ∧
        matchFrom crosses pat str pi stop = true := by
  induction left : str.length - si using Nat.strong_induction_on generalizing si with
  | _ left ih =>
    rw [segmentLoop, if_pos inside]
    by_cases here : matchFrom crosses pat str pi si = true
    · rw [if_pos here]
      exact ⟨fun _ => ⟨si, le_rfl, inside, .inl rfl, here⟩, fun _ => rfl⟩
    rw [if_neg here]
    have later {stop : Nat} (found : matchFrom crosses pat str pi stop = true) : stop ≠ si := by
      rintro rfl
      exact here found
    by_cases last : si = str.length
    · rw [if_pos last]
      simp only [Bool.false_eq_true, false_iff, not_exists, not_and]
      intro stop least most _ found
      exact later found (by omega)
    rw [if_neg last]
    cases slashes : (str.drop si).idxOf? 47 with
    | none =>
      -- there is no slash behind `si`
      rw [List.idxOf?_eq_none_iff] at slashes
      rw [ih (str.length - str.length) (by omega) le_rfl rfl]
      constructor
      · rintro ⟨stop, least, most, -, found⟩
        exact ⟨stop, by omega, most, .inr (.inr (by omega)), found⟩
      · rintro ⟨stop, least, most, stops, found⟩
        obtain same | ⟨after, slash⟩ | ending := stops
        · exact absurd same (later found)
        · refine absurd ?_ slashes
          rw [List.mem_iff_getElem?]
          exact ⟨stop - 1 - si, by rw [List.getElem?_drop, ← slash]; congr 1; omega⟩
        · exact ⟨stop, by omega, most, .inl ending, found⟩
    | some next =>
      obtain ⟨bound, slash, before⟩ := List.idxOf?_eq_some_iff.mp slashes
      rw [List.length_drop] at bound
      rw [List.getElem_drop] at slash
      have first : ∀ place, si ≤ place → place < si + next → str[place]? ≠ some 47 := by
        intro place least most other
        have apart := before (place - si) (by omega)
        rw [List.getElem_drop] at apart
        refine apart ?_
        rw [← Option.some.injEq, ← other, ← List.getElem?_eq_getElem]
        congr 1
        omega
      rw [ih (str.length - (si + next + 1)) (by omega) (by omega) rfl]
      constructor
      · rintro ⟨stop, least, most, stops, found⟩
        refine ⟨stop, by omega, most, ?_, found⟩
        obtain rfl | ⟨-, slash⟩ | ending := stops
        · exact .inr (.inl ⟨by omega, by rw [← slash]; exact List.getElem?_eq_getElem (by omega)⟩)
        · exact .inr (.inl ⟨by omega, slash⟩)
        · exact .inr (.inr ending)
      · rintro ⟨stop, least, most, stops, found⟩
        obtain same | ⟨after, other⟩ | ending := stops
        · exact absurd same (later found)
        · have passed : si + next + 1 ≤ stop := by
            by_contra short
            exact first (stop - 1) (by omega) (by omega) other
          refine ⟨stop, passed, most, ?_, found⟩
          rcases Nat.eq_or_lt_of_le passed with same | beyond
          · exact .inl same.symm
          · exact .inr (.inl ⟨beyond, other⟩)
        · exact ⟨stop, by omega, most, .inr (.inr ending), found⟩

end

/-! ### Tokens, one after the other -/

theorem tokens_every {rest : List UInt8} (other : rest.head? ≠ some 47) :
    tokens (42 :: 42 :: rest) = .every :: tokens rest := by
  rw [tokens]
  rintro later rfl
  exact other rfl

theorem tokens_star {rest : List UInt8} (other : rest.head? ≠ some 42) :
    tokens (42 :: rest) = .star :: tokens rest := by
  rw [tokens]
  · rintro later rfl
    exact other rfl
  · rintro later rfl
    exact other rfl

theorem tokens_one (rest : List UInt8) : tokens (63 :: rest) = .one :: tokens rest := by
  rw [tokens]

theorem tokens_plain {byte : UInt8} (star : byte ≠ 42) (question : byte ≠ 63)
    (rest : List UInt8) : tokens (byte :: rest) = .plain byte :: tokens rest := by
  rw [tokens] <;> simp [star, question]

section

variable {crosses : Bool} {pat str : List UInt8} {pi si : Nat}

theorem derives_one_iff {part rest : List UInt8} : Token.Derives crosses .one part rest ↔
    ∃ byte, part = [byte] ∧ byte ≠ 47 := Iff.rfl

theorem derives_plain_iff {own : UInt8} {part rest : List UInt8} :
    Token.Derives crosses (.plain own) part rest ↔ ∃ byte, part = [byte] ∧ own = byte := by
  rw [Token.Derives]
  exact ⟨fun same => ⟨own, same, rfl⟩, fun ⟨_, part, same⟩ => same ▸ part⟩

/-- The first byte of the rest of the text, in front of what is left. -/
theorem spells_single_drop_iff {token : Token} {later : List Token} {accepts : UInt8 → Prop}
    (single : ∀ part rest, Token.Derives crosses token part rest ↔
      ∃ byte, part = [byte] ∧ accepts byte) :
    Spells (Token.Derives crosses) (token :: later) (str.drop si) ↔
      ∃ byte, str[si]? = some byte ∧ accepts byte ∧
        Spells (Token.Derives crosses) later (str.drop (si + 1)) := by
  rw [spells_single_iff single]
  constructor
  · rintro ⟨byte, rest, split, accepted, spelled⟩
    refine ⟨byte, ?_, accepted, ?_⟩
    · rw [← List.head?_drop, split, List.head?_cons]
    · rwa [← List.tail_drop, split, List.tail_cons]
  · rintro ⟨byte, here, accepted, spelled⟩
    obtain ⟨inside, rfl⟩ := List.getElem?_eq_some_iff.mp here
    exact ⟨_, _, List.drop_eq_getElem_cons inside, accepted, spelled⟩

/-- The rest of a pattern that starts with a byte. -/
theorem drop_of_getElem? {byte : UInt8} (here : pat[pi]? = some byte) :
    pat.drop pi = byte :: pat.drop (pi + 1) := by
  obtain ⟨inside, rfl⟩ := List.getElem?_eq_some_iff.mp here
  exact List.drop_eq_getElem_cons inside

theorem matchFrom_iff (inside : si ≤ str.length) : matchFrom crosses pat str pi si = true ↔
    Reads crosses (pat.drop pi) (str.drop si) := by
  induction left : pat.length - pi using Nat.strong_induction_on generalizing pi si with
  | _ left ih =>
    by_cases ended : pat.length ≤ pi
    · rw [matchFrom, if_neg (by omega), Reads, List.drop_eq_nil_of_le ended, tokens,
        spells_nil_iff, List.drop_eq_nil_iff, decide_eq_true_eq]
      omega
    -- the rest of the pattern behind its first token
    have later {pi' stop : Nat} (forward : pi < pi') (most : stop ≤ str.length) :
        matchFrom crosses pat str pi' stop = true ↔
          Spells (Token.Derives crosses) (tokens (pat.drop pi')) (str.drop stop) :=
      ih (pat.length - pi') (by omega) most rfl
    have single {accepts : UInt8 → Prop} {refused : Prop} [Decidable refused]
        (kept : ¬ refused ↔ ∃ byte, str[si]? = some byte ∧ accepts byte) :
        (if refused then false else matchFrom crosses pat str (pi + 1) (si + 1)) = true ↔
          ∃ byte, str[si]? = some byte ∧ accepts byte ∧
            Spells (Token.Derives crosses) (tokens (pat.drop (pi + 1))) (str.drop (si + 1)) := by
      by_cases accepted : refused
      · rw [if_pos accepted]
        simp only [Bool.false_eq_true, false_iff, not_exists, not_and]
        exact fun byte here own _ => kept.mpr ⟨byte, here, own⟩ accepted
      · obtain ⟨byte, here, own⟩ := kept.mp accepted
        have more := (List.getElem?_eq_some_iff.mp here).1
        rw [if_neg accepted, later (by omega) (by omega)]
        exact ⟨fun spelled => ⟨byte, here, own, spelled⟩, fun ⟨_, _, _, spelled⟩ => spelled⟩
    rw [matchFrom, if_pos (by omega), Reads]
    by_cases star : pat[pi]? = some 42
    · rw [if_pos star, drop_of_getElem? star]
      by_cases second : pat[pi + 1]? = some 42
      · rw [if_pos second, drop_of_getElem? second]
        by_cases slash : pat[pi + 2]? = some 47
        · rw [if_pos slash, drop_of_getElem? slash, segmentLoop_iff inside, tokens,
            spells_cons_drop_iff inside]
          refine exists_congr fun stop => and_congr_right fun least =>
            and_congr_right fun most => ?_
          rw [stops_iff least most, later (by omega) most]
        · rw [if_neg slash, everyLoop_iff, tokens_every (by rwa [List.head?_drop]),
            spells_cons_drop_iff inside]
          refine exists_congr fun stop => and_congr_right fun least =>
            and_congr_right fun most => ?_
          rw [later (by omega) most]
          exact (iff_of_eq (true_and _)).symm
      · rw [if_neg second, starLoop_iff, tokens_star (by rwa [List.head?_drop]),
          spells_cons_drop_iff inside]
        refine exists_congr fun stop => and_congr_right fun least => and_congr_right fun most => ?_
        rw [later (by omega) most]
        exact Iff.rfl
    rw [if_neg star]
    by_cases question : pat[pi]? = some 63
    · rw [if_pos question, drop_of_getElem? question, tokens_one,
        spells_single_drop_iff fun _ _ => derives_one_iff]
      apply single
      cases here : str[si]? with
      | none => simp [List.getElem?_eq_none_iff.mp here]
      | some byte =>
        have more := (List.getElem?_eq_some_iff.mp here).1
        simp [Nat.not_le.mpr more]
    · obtain ⟨own, first⟩ : ∃ own, pat[pi]? = some own := ⟨_, List.getElem?_eq_getElem (by omega)⟩
      rw [first, Option.some.injEq] at star question
      rw [if_neg (by simpa [first] using question), drop_of_getElem? first,
        tokens_plain star question, spells_single_drop_iff fun _ _ => derives_plain_iff]
      apply single
      cases here : str[si]? with
      | none => simp [List.getElem?_eq_none_iff.mp here]
      | some byte =>
        have more := (List.getElem?_eq_some_iff.mp here).1
        rw [first]
        simp only [Nat.not_le.mpr more, ne_eq, Option.some.injEq, false_or, not_not,
          exists_eq_left']

end

/-- Both matchers decide the language of the pattern. -/
theorem matchers_decide (pat str : List UInt8) :
    (globMatch pat str 0 0 = true ↔ Reads true pat str) ∧
      (matchGlob pat str 0 0 = true ↔ Reads false pat str) ∧
      (matchGlob pat str 0 0 = true → globMatch pat str 0 0 = true) := by
  have enforced : globMatch pat str 0 0 = true ↔ Reads true pat str := matchFrom_iff (Nat.zero_le _)
  have documented : matchGlob pat str 0 0 = true ↔ Reads false pat str :=
    matchFrom_iff (Nat.zero_le _)
  exact ⟨enforced, documented, fun found => enforced.mpr (documented.mp found).crossing⟩

end KnxVault.Auth.Glob
