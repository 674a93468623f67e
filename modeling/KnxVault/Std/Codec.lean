import KnxVault.Std.Data

/-!
# Codecs

A codec turns values into bytes and reads them back. A `Format` is a codec whose
encodings may be followed by anything, so that the formats of the parts of a
record compose to one of the record.
-/

namespace KnxVault.Std

structure Format (α : Type) where
  write : α → Bytes
  /-- The value at the front of the bytes, and what follows it. -/
  read : Bytes → Option (α × Bytes)
  read_write : ∀ value rest, read (write value ++ rest) = some (value, rest)

namespace Format

variable {α β : Type}

/-- A number as that many ones and a zero. -/
def natural : Format Nat where
  write number := List.replicate number 1 ++ [0]
  read bytes :=
    match bytes.dropWhile (· = 1) with
    | _ :: rest => some ((bytes.takeWhile (· = 1)).length, rest)
    | [] => none
  read_write number rest := by
    have ones : ∀ byte ∈ List.replicate number (1 : Byte), decide (byte = 1) = true := by
      intro byte listed
      simpa using (List.mem_replicate.mp listed).2
    rw [List.append_assoc, List.dropWhile_append_of_pos ones, List.takeWhile_append_of_pos ones]
    simp

/-- One value after the other. -/
def pair (first : Format α) (second : Format β) : Format (α × β) where
  write values := first.write values.1 ++ second.write values.2
  read bytes := do
    let (value, rest) ← first.read bytes
    let (other, rest) ← second.read rest
    pure ((value, other), rest)
  read_write values rest := by
    rw [List.append_assoc, first.read_write]
    simp only [Option.bind_eq_bind, Option.bind_some, second.read_write]
    rfl

/-- The same bytes for another type. -/
def convert (format : Format α) (toValue : α → β) (ofValue : β → α)
    (inverse : ∀ value, toValue (ofValue value) = value) : Format β where
  write value := format.write (ofValue value)
  read bytes := (format.read bytes).map fun found => (toValue found.1, found.2)
  read_write value rest := by
    rw [format.read_write, Option.map_some, inverse]

def readMany (format : Format α) : Nat → Bytes → Option (List α × Bytes)
  | 0, bytes => some ([], bytes)
  | count + 1, bytes => do
    let (value, rest) ← format.read bytes
    let (values, rest) ← readMany format count rest
    pure (value :: values, rest)

theorem readMany_flatMap (format : Format α) (values : List α) (rest : Bytes) :
    format.readMany values.length (values.flatMap format.write ++ rest) = some (values, rest) := by
  induction values with
  | nil => rfl
  | cons value values ih =>
    rw [List.flatMap_cons, List.append_assoc, List.length_cons, readMany, format.read_write]
    simp only [Option.bind_eq_bind, Option.bind_some, ih]
    rfl

/-- The number of values, then the values. -/
def list (format : Format α) : Format (List α) where
  write values := natural.write values.length ++ values.flatMap format.write
  read bytes := do
    let (count, rest) ← natural.read bytes
    format.readMany count rest
  read_write values rest := by
    rw [List.append_assoc, natural.read_write]
    simp only [Option.bind_eq_bind, Option.bind_some]
    exact format.readMany_flatMap values rest

/-- The amounts above and below zero. -/
def integer : Format Int :=
  (natural.pair natural).convert (fun amounts => amounts.1 - amounts.2)
    (fun number => (number.toNat, (-number).toNat)) (by intro number; simp only; omega)

def text : Format String :=
  (list natural).convert (fun codes => String.ofList (codes.map Char.ofNat))
    (fun text => text.toList.map Char.toNat)
    (by
      intro text
      have back : Char.ofNat ∘ Char.toNat = id := funext Char.ofNat_toNat
      rw [List.map_map, back, List.map_id, String.ofList_toList])

end Format

end KnxVault.Std
