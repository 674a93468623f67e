import KnxVault.Std.Data
import KnxVault.Std.Text

/-!
# Shared values

Times, identifiers, decoded JSON values and the typed errors of
`internal/domain/common`.
-/

namespace KnxVault.Domain

open KnxVault.Std

/-- A point in time in nanoseconds since the zero time, with the offset of its
zone. The zero value is the zero time. -/
structure Time where
  instant : Int := 0
  offset : Int := 0
deriving DecidableEq, Repr, Inhabited

namespace Time

def before (time other : Time) : Bool := time.instant < other.instant

def after (time other : Time) : Bool := other.instant < time.instant

def isZero (time : Time) : Bool := time.instant = 0

/-- Add a duration in nanoseconds. -/
def add (time : Time) (duration : Int) : Time := { time with instant := time.instant + duration }

def utc (time : Time) : Time := { time with offset := 0 }

end Time

abbrev nanosecondsPerSecond : Int := 1000000000

abbrev Uuid := BitVec 128

instance transOrdUuid : Std.TransOrd Uuid := inferInstance

/-- Identifiers and texts together can be keys. -/
instance lawfulEqOrdUuidLex : Std.LawfulEqOrd (Uuid ×ₗ String) := inferInstance

/-- The text of an identifier: hexadecimal digits in five groups. -/
def uuidText (id : Uuid) : String :=
  let digits := (List.range 32).map fun index => Nat.digitChar (id.toNat / 16 ^ (31 - index) % 16)
  "-".intercalate ([(0, 8), (8, 4), (12, 4), (16, 4), (20, 12)].map fun (start, count) =>
    String.ofList ((digits.drop start).take count))

/-- A freshly drawn identifier, never the nil one. -/
abbrev NewUuid := {id : Uuid // id ≠ 0}

/-- Two identifiers to run the model with. -/
theorem uuidOne_ne : (1 : Uuid) ≠ 0 := by decide

theorem uuidTwo_ne : (2 : Uuid) ≠ 0 := by decide

/-- A decoded JSON value; numbers keep their text. -/
inductive Value where
  | null
  | bool (flag : Bool)
  | number (text : String)
  | string (text : String)
  | array (items : List Value)
  | object (fields : List (String × Value))

abbrev Fields := Std.ExtTreeMap String Value

/-- The text stored under a key, if it is a text at all. -/
def textField (fields : Fields) (key : String) : Option String :=
  match fields[key]? with
  | some (.string text) => some text
  | _ => none

abbrev StringMap := Std.ExtTreeMap String String

/-- What the code takes from the standard library. -/
structure Library where
  /-- Lower case of a character. -/
  toLower : Char → Char
  toLower_ascii : ∀ char, char.toNat < 128 → char.isUpper = false → toLower char = char
  /-- Whether a text parses as a URL with a password. -/
  urlHasPassword : String → Bool
  /-- The SHA-256 digest in hexadecimal. -/
  sha256Hex : String → String
  sha256Hex_ne : ∀ text, sha256Hex text ≠ ""
  /-- The JSON text of an object. -/
  marshalFields : Fields → String
  /-- A time in RFC 3339 form with nanoseconds. -/
  formatRFC3339Nano : Time → String

/-- A library to run the model with. -/
def Library.sample : Library where
  toLower := Char.toLower
  toLower_ascii char _ lower := by
    have small : ¬ (char.val ≥ 65 ∧ char.val ≤ 90) := by simpa [Char.isUpper] using lower
    exact dif_neg small
  urlHasPassword _ := false
  sha256Hex text := "#" ++ text
  sha256Hex_ne text := by simp
  marshalFields _ := ""
  formatRFC3339Nano time := toString time.instant

inductive ErrorCode where
  | internal
  | validation
  | unauthorized
  | forbidden
  | notFound
  | unavailable
deriving DecidableEq, Repr

/-- The wire form of a code. -/
def ErrorCode.text : ErrorCode → String
  | .internal => "internal_error"
  | .validation => "validation_error"
  | .unauthorized => "unauthorized"
  | .forbidden => "forbidden"
  | .notFound => "not_found"
  | .unavailable => "unavailable"

/-- An error with an API code; the text of its cause is kept separately. -/
structure KNXVaultError where
  code : ErrorCode
  message : String
  cause : Option String := none
deriving DecidableEq, Repr

def KNXVaultError.error (err : KNXVaultError) : String :=
  match err.cause with
  | some cause => err.message ++ ": " ++ cause
  | none => err.message

/-- Fail with a code and a message. -/
abbrev failWith {α : Type} (code : ErrorCode) (message : String) : Except KNXVaultError α :=
  .error { code, message }

/-- Any error: its text, and the code and message of the typed error in it. -/
structure GoError where
  text : String
  coded : Option (ErrorCode × String) := none
deriving DecidableEq, Repr

def KNXVaultError.asGoError (err : KNXVaultError) : GoError where
  text := err.error
  coded := some (err.code, err.message)

/-- The error with more context in front. -/
def GoError.wrap (context : String) (err : GoError) : GoError :=
  { err with text := context ++ ": " ++ err.text }

/-- What differs between two executions of the same code: the clock, the random
source and the order of loops over maps. -/
structure Env where
  now : Time
  /-- The identifiers drawn, in turn. -/
  newUUID : Nat → NewUuid
  range : MapRange

/-- Surroundings with the given clock. -/
def Env.sample (now : Int) : Env where
  now := { instant := now }
  newUUID _ := ⟨1, by decide⟩
  range := MapRange.sorted

end KnxVault.Domain
