import KnxVault.Std.Decimal

/-!
# Times in RFC 3339

The seconds since the start of the year one as a date and a time of day in UTC. A text is read
as the second that is written so, and a second of the years to 9999 is read back.
-/

namespace KnxVault.Std

/-! ### Numbers of a fixed width -/

def padded : Nat → Nat → List Char
  | 0, _ => []
  | width + 1, number => padded width (number / 10) ++ [(number % 10).digitChar]

theorem decimal_padded {width number : Nat} (fits : number < 10 ^ width) :
    decimal (padded width number) = number := by
  induction width generalizing number with
  | zero => simpa [padded, decimal] using (Nat.lt_one_iff.mp fits).symm
  | succ width ih =>
    have higher : number / 10 < 10 ^ width := by omega
    have last : (number % 10).digitChar.toNat - '0'.toNat = number % 10 := by
      have digit : ∀ digit < 10, (Nat.digitChar digit).toNat - '0'.toNat = digit := by decide
      exact digit _ (Nat.mod_lt _ (by decide))
    have front := ih higher
    unfold decimal at front ⊢
    rw [padded, List.foldl_append, front]
    simp only [List.foldl_cons, List.foldl_nil, last]
    omega

/-! ### Dates -/

/-- The days of so many years from the year one on. -/
def daysOfYears (years : Nat) : Nat := 365 * years + years / 4 - years / 100 + years / 400

theorem daysOfYears_bounds (years : Nat) :
    146097 * years ≤ 400 * daysOfYears years + 595 ∧
      400 * daysOfYears years ≤ 146097 * years + 292 := by
  unfold daysOfYears
  -- centuries are counted in spans of four years, so that the remainders fit together
  have centuries : years / 100 = years / 4 / 25 := by omega
  have cycles : years / 400 = years / 4 / 25 / 4 := by omega
  omega

theorem daysOfYears_succ_le (years : Nat) :
    daysOfYears (years + 1) ≤ daysOfYears years + 366 := by
  unfold daysOfYears
  omega

/-- The years that are over on a day. -/
def yearsBefore (day : Nat) : Nat :=
  let years := (day + 2) * 400 / 146097
  if day < daysOfYears years then years - 1 else years

theorem yearsBefore_spec (day : Nat) :
    daysOfYears (yearsBefore day) ≤ day ∧ day < daysOfYears (yearsBefore day) + 366 := by
  have estimate := daysOfYears_bounds ((day + 2) * 400 / 146097)
  unfold yearsBefore
  dsimp only
  split
  · rename_i early
    cases counted : (day + 2) * 400 / 146097 with
    | zero =>
      rw [counted] at early
      cases early
    | succ years =>
      rw [counted] at early
      have lower := (daysOfYears_bounds years).2
      have upper := daysOfYears_succ_le years
      rw [Nat.add_sub_cancel]
      omega
  · omega

def isLeap (years : Nat) : Bool := daysOfYears (years + 1) = daysOfYears years + 366

def daysOfMonths (leap : Bool) (months : Nat) : Nat :=
  ([31, if leap then 29 else 28, 31, 30, 31, 30, 31, 31, 30, 31, 30].take months).sum

/-- The months that are over on a day of a year. -/
def monthsBefore (leap : Bool) (day : Nat) : Nat :=
  (List.range 11).countP fun months => daysOfMonths leap (months + 1) ≤ day

theorem monthsBefore_spec : ∀ leap, ∀ day < 366, monthsBefore leap day < 12 ∧
    daysOfMonths leap (monthsBefore leap day) ≤ day ∧
      day < daysOfMonths leap (monthsBefore leap day) + 32 := by
  decide +kernel

/-! ### Texts -/

def dateChars (day : Nat) : List Char :=
  let years := yearsBefore day
  let rest := day - daysOfYears years
  let months := monthsBefore (isLeap years) rest
  padded 4 (years + 1) ++ '-' :: padded 2 (months + 1) ++ '-' ::
    padded 2 (rest - daysOfMonths (isLeap years) months + 1)

def clockChars (second : Nat) : List Char :=
  padded 2 (second / 3600) ++ ':' :: padded 2 (second / 60 % 60) ++ ':' :: padded 2 (second % 60)

def rfc3339 (second : Nat) : String :=
  String.ofList (dateChars (second / 86400) ++ 'T' :: clockChars (second % 86400) ++ ['Z'])

def field (text : List Char) (start width : Nat) : Nat := decimal ((text.drop start).take width)

def dayOf (text : List Char) : Nat :=
  let years := field text 0 4 - 1
  daysOfYears years + (daysOfMonths (isLeap years) (field text 5 2 - 1) + (field text 8 2 - 1))

def parseRFC3339 (text : String) : Option Nat :=
  let chars := text.toList
  let second := dayOf chars * 86400 + (field chars 11 2 * 3600 + field chars 14 2 * 60 +
    field chars 17 2)
  if rfc3339 second = text then some second else none

theorem dayOf_dateChars {day : Nat} (early : day < 3652059) (rest : List Char) :
    dayOf (dateChars day ++ rest) = day := by
  obtain ⟨lower, upper⟩ := yearsBefore_spec day
  obtain ⟨inYear, started, ends⟩ := monthsBefore_spec (isLeap (yearsBefore day))
    (day - daysOfYears (yearsBefore day)) (by omega)
  have years := (daysOfYears_bounds (yearsBefore day)).1
  have year : field (dateChars day ++ rest) 0 4 = _ := @decimal_padded 4 _ (by omega)
  have month : field (dateChars day ++ rest) 5 2 = _ := @decimal_padded 2 _ (by omega)
  have date : field (dateChars day ++ rest) 8 2 = _ := @decimal_padded 2 _ (by omega)
  rw [dayOf, year, month, date]
  simp only [Nat.add_sub_cancel]
  omega

theorem parseRFC3339_rfc3339 {second : Nat} (early : second < 315537897600) :
    parseRFC3339 (rfc3339 second) = some second := by
  have chars : (rfc3339 second).toList =
      dateChars (second / 86400) ++ 'T' :: clockChars (second % 86400) ++ ['Z'] :=
    String.toList_ofList
  have day : dayOf (rfc3339 second).toList = second / 86400 := by
    rw [chars, List.append_assoc]
    exact dayOf_dateChars (by omega) _
  have hour : field (rfc3339 second).toList 11 2 = second % 86400 / 3600 := by
    rw [chars]
    exact @decimal_padded 2 _ (by omega)
  have minute : field (rfc3339 second).toList 14 2 = second % 86400 / 60 % 60 := by
    rw [chars]
    exact @decimal_padded 2 _ (by omega)
  have rest : field (rfc3339 second).toList 17 2 = second % 86400 % 60 := by
    rw [chars]
    exact @decimal_padded 2 _ (by omega)
  have whole : second / 86400 * 86400 + (second % 86400 / 3600 * 3600 +
      second % 86400 / 60 % 60 * 60 + second % 86400 % 60) = second := by omega
  rw [parseRFC3339, day, hour, minute, rest, whole, if_pos rfl]

theorem rfc3339_ne_empty (second : Nat) : rfc3339 second ≠ "" := by
  intro empty
  have chars := congrArg String.toList empty
  rw [rfc3339, String.toList_ofList] at chars
  simp at chars

example : rfc3339 63113904000 = "2001-01-01T00:00:00Z" := by decide +kernel

end KnxVault.Std
