import KnxVault.Repository.Audit
import KnxVault.Std.Decimal

/-!
# Reading lifetimes

`ParseTTL` of `internal/utils/duration.go`. What the standard library does not read is
a count and a unit, multiplied on 64 bits before the product is compared with the
maximum.
-/

namespace KnxVault.Utils

open KnxVault.Std KnxVault.Domain KnxVault.Repository

def minute : Int := 60 * nanosecondsPerSecond

def hour : Int := 60 * minute

def maxParseTTL : Int := 10 * 365 * 24 * hour

/-- The units of one letter that the standard library reads. -/
def durationUnit : Char → Option Int
  | 'h' => some hour
  | 'm' => some minute
  | 's' => some nanosecondsPerSecond
  | _ => none

/-- The units that a lifetime may have. -/
def ttlUnit : Char → Option Int
  | 'd' => some (24 * hour)
  | unit => durationUnit unit

/-- `time.ParseDuration`. A count with one unit is read unless it overflows; there are
no days. -/
structure TimeLibrary where
  parseDuration : String → Option Int
  parse_unit : ∀ {digits : List Char} {unit : Char} {size : Int}, Digits digits →
    durationUnit unit = some size → parseDuration (String.ofList (digits ++ [unit])) =
      if decimal digits * size < 2 ^ 63 then some (decimal digits * size) else none
  parse_days : ∀ {digits : List Char}, Digits digits →
    parseDuration (String.ofList (digits ++ ['d'])) = none

/-- The product of a count and a unit as the machine computes it. -/
def unitTTL (value : Int) : Char → Option Int
  | 'd' => some (wrap64 (wrap64 (value * 24) * hour))
  | 'h' => some (wrap64 (value * hour))
  | 'm' => some (wrap64 (value * minute))
  | 's' => some (wrap64 (value * nanosecondsPerSecond))
  | _ => none

def boundedTTL (duration : Int) : Except String Int :=
  if duration ≤ 0 then .error "ttl must be positive"
  else if maxParseTTL < duration then .error "ttl exceeds maximum of 87600h0m0s"
  else .ok duration

/-- A count with a unit of one letter. -/
def countTTL (raw : String) : Except String Int :=
  match raw.toList.getLast? with
  | none => .error ("invalid ttl " ++ quoted raw)
  | some unit =>
    if raw.utf8ByteSize < 2 ∨ 128 ≤ unit.toNat then .error ("invalid ttl " ++ quoted raw)
    else match atoi (String.ofList raw.toList.dropLast) with
      | .error _ => .error ("invalid ttl " ++ quoted raw)
      | .ok value =>
        if value ≤ 0 then .error "ttl must be positive"
        else match unitTTL value unit with
          | none => .error ("unsupported ttl unit in " ++ quoted raw)
          | some duration => boundedTTL duration

def parseTTL (library : TimeLibrary) (text : String) : Except String Int :=
  let raw := trimSpace text
  if raw = "" then .error "ttl is required"
  else match library.parseDuration raw with
    | some duration => boundedTTL duration
    | none => countTTL raw

/-- What a lifetime may be. -/
def InRange (duration : Int) : Prop := 0 < duration ∧ duration ≤ maxParseTTL

instance : DecidablePred InRange := fun duration =>
  inferInstanceAs (Decidable (0 < duration ∧ duration ≤ maxParseTTL))

theorem boundedTTL_ok_iff {duration result : Int} :
    boundedTTL duration = .ok result ↔ result = duration ∧ InRange duration := by
  unfold boundedTTL InRange
  split
  · simp
    omega
  · split
    · simp
      omega
    · simp only [Except.ok.injEq]
      omega

theorem inRange_of_countTTL {raw : String} {result : Int} (read : countTTL raw = .ok result) :
    InRange result := by
  unfold countTTL at read
  split at read
  · cases read
  · split at read
    · cases read
    · split at read
      · cases read
      · split at read
        · cases read
        · split at read
          · cases read
          · obtain ⟨rfl, inRange⟩ := boundedTTL_ok_iff.mp read
            exact inRange

theorem inRange_of_parseTTL {library : TimeLibrary} {text : String} {result : Int}
    (read : parseTTL library text = .ok result) : InRange result := by
  unfold parseTTL at read
  dsimp only at read
  split at read
  · cases read
  · split at read
    · obtain ⟨rfl, inRange⟩ := boundedTTL_ok_iff.mp read
      exact inRange
    · exact inRange_of_countTTL read

/-! ### Counts with a unit -/

theorem wrap64_mul (number factor : Int) :
    wrap64 (wrap64 number * factor) = wrap64 (number * factor) :=
  Int.bmod_mul_bmod

theorem unitTTL_of_ttlUnit {value size : Int} {unit : Char} (known : ttlUnit unit = some size) :
    unitTTL value unit = some (wrap64 (value * size)) := by
  unfold ttlUnit durationUnit at known
  split at known
  · cases known
    rw [unitTTL, wrap64_mul, Int.mul_assoc]
  · split at known <;> cases known <;> rfl

theorem ttlUnit_cases {unit : Char} {size : Int} (known : ttlUnit unit = some size) :
    unit = 'd' ∨ durationUnit unit = some size := by
  unfold ttlUnit at known
  split at known
  · exact .inl rfl
  · exact .inr known

/-- A unit is no white space, is a single byte, and is not empty. -/
theorem ttlUnit_plain {unit : Char} {size : Int} (known : ttlUnit unit = some size) :
    isSpace unit = false ∧ unit.toNat < 128 ∧ 1 ≤ size := by
  unfold ttlUnit durationUnit at known
  split at known
  · cases known
    decide
  · split at known <;> cases known <;> decide

section Counts

variable {digits : List Char} {unit : Char} {size : Int}

theorem trimSpace_count (isNumber : Digits digits) (known : ttlUnit unit = some size) :
    trimSpace (String.ofList (digits ++ [unit])) = String.ofList (digits ++ [unit]) := by
  obtain ⟨first, rest, rfl⟩ := List.exists_cons_of_ne_nil isNumber.1
  exact trimSpace_of_ends (by simp) List.getLast?_concat
    (not_isSpace_of_isDigit (isNumber.2 first List.mem_cons_self)) (ttlUnit_plain known).1

/-- A count is multiplied if it fits into 64 bits. -/
theorem countTTL_digits (isNumber : Digits digits) (known : ttlUnit unit = some size)
    {result : Int} :
    countTTL (String.ofList (digits ++ [unit])) = .ok result ↔ (decimal digits : Int) < 2 ^ 63 ∧
      boundedTTL (wrap64 (decimal digits * size)) = .ok result := by
  obtain ⟨-, ascii, -⟩ := ttlUnit_plain known
  have long : ¬ ((String.ofList (digits ++ [unit])).utf8ByteSize < 2 ∨ 128 ≤ unit.toNat) := by
    have := two_le_utf8ByteSize isNumber.1 (List.cons_ne_nil unit [])
    omega
  have read := atoi_digits isNumber
  unfold countTTL
  rw [String.toList_ofList, List.getLast?_concat, List.dropLast_concat]
  dsimp only
  rw [if_neg long]
  cases value : atoi (String.ofList digits) with
  | error text =>
    rw [value] at read
    have large : ¬ (decimal digits : Int) < 2 ^ 63 := by
      intro fits
      rw [if_pos fits] at read
      cases read
    dsimp only
    refine ⟨fun failed => ?_, fun both => absurd both.1 large⟩
    cases failed
  | ok count =>
    rw [value] at read
    split at read
    · rename_i fits
      cases read
      dsimp only
      by_cases none : (decimal digits : Int) ≤ 0
      · have zero : (decimal digits : Int) = 0 := by omega
        rw [if_pos none, zero, Int.zero_mul]
        refine ⟨fun failed => ?_, fun both => ?_⟩
        · cases failed
        · cases both.2
      · rw [if_neg none, unitTTL_of_ttlUnit known]
        exact ⟨fun bounded => ⟨fits, bounded⟩, fun both => both.2⟩
    · cases read

/-- A count with a unit is read by the library if its product fits, else by
multiplication on 64 bits. -/
theorem parseTTL_digits (library : TimeLibrary) (isNumber : Digits digits)
    (known : ttlUnit unit = some size) {result : Int} :
    parseTTL library (String.ofList (digits ++ [unit])) = .ok result ↔
      if decimal digits * size < 2 ^ 63 then
        boundedTTL (decimal digits * size) = .ok result
      else (decimal digits : Int) < 2 ^ 63 ∧
        boundedTTL (wrap64 (decimal digits * size)) = .ok result := by
  have filled : String.ofList (digits ++ [unit]) ≠ "" := by
    intro empty
    have size := two_le_utf8ByteSize isNumber.1 (List.cons_ne_nil unit [])
    rw [empty, String.utf8ByteSize_empty] at size
    omega
  have least := (ttlUnit_plain known).2.2
  unfold parseTTL
  rw [trimSpace_count isNumber known]
  dsimp only
  rw [if_neg filled]
  by_cases fits : (decimal digits : Int) * size < 2 ^ 63
  · rw [if_pos fits]
    rcases ttlUnit_cases known with rfl | standard
    · rw [library.parse_days isNumber]
      dsimp only
      have nonneg : 0 ≤ (decimal digits : Int) * size :=
        Int.mul_nonneg (Int.natCast_nonneg _) (by omega)
      have count : (decimal digits : Int) < 2 ^ 63 := by
        obtain rfl : size = 86400000000000 := Option.some.inj known.symm
        omega
      rw [countTTL_digits isNumber known, wrap64_of_lt nonneg fits]
      exact ⟨fun both => both.2, fun bounded => ⟨count, bounded⟩⟩
    · rw [library.parse_unit isNumber standard, if_pos fits]
  · rw [if_neg fits]
    have unread : library.parseDuration (String.ofList (digits ++ [unit])) = none := by
      rcases ttlUnit_cases known with rfl | standard
      · exact library.parse_days isNumber
      · rw [library.parse_unit isNumber standard, if_neg fits]
    rw [unread]
    exact countTTL_digits isNumber known

/-- Where the product wraps around, the remainder is taken for it. -/
theorem inRange_wrap64_iff {product : Int} :
    InRange (wrap64 product) ↔ InRange (product % 2 ^ 64) := by
  unfold InRange wrap64
  have most : maxParseTTL = 315360000000000000 := rfl
  rw [Int.bmod_def, most]
  split <;> omega

end Counts

/-- A lifetime that is read is in range. A count with a unit is read exactly unless it
fits into 64 bits, its product does not, and the remainder of the product is in
range. -/
theorem parseTTL_exact_iff (library : TimeLibrary) :
    (∀ text duration, parseTTL library text = .ok duration → InRange duration) ∧
      ∀ (digits : List Char) (unit : Char) (size : Int), Digits digits →
        ttlUnit unit = some size →
        ((∀ duration, parseTTL library (String.ofList (digits ++ [unit])) = .ok duration ↔
            duration = decimal digits * size ∧ InRange (decimal digits * size)) ↔
          ¬ ((decimal digits : Int) < 2 ^ 63 ∧ 2 ^ 63 ≤ decimal digits * size ∧
            InRange (decimal digits * size % 2 ^ 64))) := by
  refine ⟨fun text duration read => inRange_of_parseTTL read, ?_⟩
  intro digits unit size isNumber known
  simp only [parseTTL_digits library isNumber known]
  by_cases fits : (decimal digits : Int) * size < 2 ^ 63
  · simp only [if_pos fits, boundedTTL_ok_iff, implies_true, true_iff]
    omega
  · have outside : ¬ InRange ((decimal digits : Int) * size) := by
      have most : maxParseTTL = 315360000000000000 := rfl
      unfold InRange
      omega
    simp only [if_neg fits, boundedTTL_ok_iff, outside, and_false, iff_false, not_and]
    constructor
    · intro unread count _ inRange
      exact unread _ count rfl (inRange_wrap64_iff.mpr inRange)
    · rintro clean duration count rfl inRange
      exact clean count (by omega) (inRange_wrap64_iff.mp inRange)

/-- A library that reads nothing but a count with one unit. -/
def TimeLibrary.sample : TimeLibrary where
  parseDuration text :=
    (text.toList.getLast?.bind durationUnit).bind fun size =>
      if Digits text.toList.dropLast ∧ decimal text.toList.dropLast * size < 2 ^ 63 then
        some (decimal text.toList.dropLast * size)
      else none
  parse_unit isNumber known := by
    rw [String.toList_ofList, List.getLast?_concat, List.dropLast_concat, Option.bind_some, known,
      Option.bind_some]
    simp only [isNumber, true_and]
  parse_days _ := by
    rw [String.toList_ofList, List.getLast?_concat]
    rfl

/-- A year of days is read as it is. -/
theorem parseTTL_exact_year :
    parseTTL .sample (String.ofList ("365".toList ++ ['d'])) = .ok (365 * (24 * hour)) :=
  (((parseTTL_exact_iff .sample).2 "365".toList 'd' (24 * hour) (by decide) rfl).mpr
    (by decide) _).mpr (by decide)

/-- 584 years pass for less than half an hour, in days and in hours. -/
theorem parseTTL_wraps :
    ¬ InRange (213504 * (24 * hour)) ∧ parseTTL .sample "213504d" = .ok 1526290448384 ∧
      ¬ InRange (5124096 * hour) ∧ parseTTL .sample "5124096h" = .ok 1526290448384 := by
  decide +kernel

end KnxVault.Utils
