import KnxVault.Std.Data

/-!
# The field GF(2^8) of the share arithmetic

`gfMul` is shift-and-reduce multiplication by the AES polynomial and `gfInv`
raises to the power 254, as `internal/crypto/shamir/shamir.go` computes them.
Addition and subtraction are both exclusive or. `GF256` packages a byte so that
these operations form a Mathlib field.

The laws follow from linearity: `gfMul` is additive in each argument, so an
identity between products is decided on the eight single-bit bytes.
-/

namespace KnxVault.Crypto.Shamir

open KnxVault.Std

/-- GF(2^8) with AES polynomial 0x11b (add and sub are XOR). -/
def gfSub (a b : Byte) : Byte := a ^^^ b

/-- One round of the multiplication loop: accumulate `a` when the low bit of `b`
is set, then double `a` and drop that bit. -/
def gfMulRound : Byte × Byte × Byte → Byte × Byte × Byte
  | (p, a, b) =>
    let p := if b &&& 1 ≠ 0 then p ^^^ a else p
    let hi := a &&& 0x80
    let a := a <<< 1
    let a := if hi ≠ 0 then a ^^^ 0x1b else a
    (p, a, b >>> 1)

def gfMul (a b : Byte) : Byte := (gfMulRound^[8] (0, a, b)).1

/-- The square-and-multiply loop with accumulator `r`. -/
def gfExpLoop (r a : Byte) (e : Nat) : Byte :=
  if 0 < e then
    gfExpLoop (if e &&& 1 ≠ 0 then gfMul r a else r) (gfMul a a) (e >>> 1)
  else r
termination_by e
decreasing_by simpa [Nat.shiftRight_one] using Nat.div_lt_self (by assumption) (by decide)

def gfExp (a : Byte) (e : Nat) : Byte := gfExpLoop 1 a e

def gfInv (a : Byte) : Byte := if a = 0 then 0 else gfExp a 254

def gfDiv (a b : Byte) : Byte := if b = 0 then 0 else gfMul a (gfInv b)

/-- Doubling in the field: shift left and reduce. -/
def gfDouble (a : Byte) : Byte :=
  if a &&& 0x80 ≠ 0 then a <<< 1 ^^^ 0x1b else a <<< 1

private theorem topBit_iff (a : Byte) : a &&& 0x80 ≠ 0 ↔ a.getLsbD 7 = true := by
  revert a
  decide

private theorem lowBit_iff (b : Byte) : b &&& 1 ≠ 0 ↔ b.getLsbD 0 = true := by
  revert b
  decide

private theorem xor_both (p p' a : Byte) : p ^^^ a ^^^ (p' ^^^ a) = p ^^^ p' := by
  calc p ^^^ a ^^^ (p' ^^^ a) = p ^^^ p' ^^^ (a ^^^ a) := by ac_rfl
    _ = p ^^^ p' := by simp

theorem gfMulRound_eq (p a b : Byte) :
    gfMulRound (p, a, b) = (if b.getLsbD 0 then p ^^^ a else p, gfDouble a, b >>> 1) := by
  simp only [gfMulRound, gfDouble, lowBit_iff]

theorem gfDouble_xor (a a' : Byte) : gfDouble (a ^^^ a') = gfDouble a ^^^ gfDouble a' := by
  simp only [gfDouble, topBit_iff, BitVec.getLsbD_xor, BitVec.shiftLeft_xor_distrib]
  cases a.getLsbD 7 <;> cases a'.getLsbD 7 <;> simp [xor_both] <;> ac_rfl

/-- The rounds are additive in the accumulator and the first factor. -/
theorem gfMulRounds_xor_left (rounds : Nat) (p p' a a' b : Byte) :
    (gfMulRound^[rounds] (p ^^^ p', a ^^^ a', b)).1 =
      (gfMulRound^[rounds] (p, a, b)).1 ^^^ (gfMulRound^[rounds] (p', a', b)).1 := by
  induction rounds generalizing p p' a a' b with
  | zero => rfl
  | succ rounds ih =>
    have accumulated :
        (if b.getLsbD 0 then p ^^^ p' ^^^ (a ^^^ a') else p ^^^ p') =
          (if b.getLsbD 0 then p ^^^ a else p) ^^^ (if b.getLsbD 0 then p' ^^^ a' else p') := by
      cases b.getLsbD 0 with
      | false => rfl
      | true => simp; ac_rfl
    simp only [Function.iterate_succ_apply, gfMulRound_eq, gfDouble_xor, accumulated, ih]

/-- The rounds are additive in the accumulator and the second factor. -/
theorem gfMulRounds_xor_right (rounds : Nat) (p p' a b b' : Byte) :
    (gfMulRound^[rounds] (p ^^^ p', a, b ^^^ b')).1 =
      (gfMulRound^[rounds] (p, a, b)).1 ^^^ (gfMulRound^[rounds] (p', a, b')).1 := by
  induction rounds generalizing p p' a b b' with
  | zero => rfl
  | succ rounds ih =>
    have accumulated :
        (if (b ^^^ b').getLsbD 0 then p ^^^ p' ^^^ a else p ^^^ p') =
          (if b.getLsbD 0 then p ^^^ a else p) ^^^ (if b'.getLsbD 0 then p' ^^^ a else p') := by
      rw [BitVec.getLsbD_xor]
      cases b.getLsbD 0 <;> cases b'.getLsbD 0 <;> simp [xor_both] <;> ac_rfl
    simp only [Function.iterate_succ_apply, gfMulRound_eq, BitVec.ushiftRight_xor_distrib,
      accumulated, ih]

theorem gfMul_xor_left (a a' b : Byte) : gfMul (a ^^^ a') b = gfMul a b ^^^ gfMul a' b := by
  simpa [gfMul] using gfMulRounds_xor_left 8 0 0 a a' b

theorem gfMul_xor_right (a b b' : Byte) : gfMul a (b ^^^ b') = gfMul a b ^^^ gfMul a b' := by
  simpa [gfMul] using gfMulRounds_xor_right 8 0 0 a b b'

/-- Additive maps on bytes. -/
def Additive (f : Byte → Byte) : Prop := ∀ a b, f (a ^^^ b) = f a ^^^ f b

/-- Every byte is the exclusive or of its single-bit parts. -/
theorem eq_xor_bits (a : Byte) :
    a = (List.finRange 8).foldr
      (fun index rest => (if a[index] then BitVec.twoPow 8 index else 0) ^^^ rest) 0 := by
  revert a
  decide

theorem Additive.map_zero {f : Byte → Byte} (additive : Additive f) : f 0 = 0 := by
  have doubled := additive 0 0
  simpa using doubled

/-- Additive maps that agree on the eight single-bit bytes are equal. -/
theorem Additive.ext {f g : Byte → Byte} (left : Additive f) (right : Additive g)
    (basis : ∀ index : Fin 8, f (BitVec.twoPow 8 index) = g (BitVec.twoPow 8 index))
    (a : Byte) : f a = g a := by
  have parts : ∀ indices : List (Fin 8),
      f (indices.foldr
        (fun index rest => (if a[index] then BitVec.twoPow 8 index else 0) ^^^ rest) 0) =
      g (indices.foldr
        (fun index rest => (if a[index] then BitVec.twoPow 8 index else 0) ^^^ rest) 0) := by
    intro indices
    induction indices with
    | nil => exact left.map_zero.trans right.map_zero.symm
    | cons index rest ih =>
      rw [List.foldr_cons, left, right, ih]
      split
      · rw [basis]
      · rw [left.map_zero, right.map_zero]
  rw [eq_xor_bits a]
  exact parts _

theorem additive_gfMul_left (b : Byte) : Additive fun a => gfMul a b :=
  fun a a' => gfMul_xor_left a a' b

theorem additive_gfMul_right (a : Byte) : Additive (gfMul a) := gfMul_xor_right a

theorem gfMul_comm (a b : Byte) : gfMul a b = gfMul b a := by
  refine (additive_gfMul_left b).ext (additive_gfMul_right b) (fun i => ?_) a
  refine (additive_gfMul_right _).ext (additive_gfMul_left _) (fun j => ?_) b
  revert i j
  decide +kernel

/-- Associativity of the single-bit products, decided case by case. -/
private theorem gfMul_assoc_bits : ∀ i j k : Fin 8,
    gfMul (gfMul (BitVec.twoPow 8 i) (BitVec.twoPow 8 j)) (BitVec.twoPow 8 k) =
      gfMul (BitVec.twoPow 8 i) (gfMul (BitVec.twoPow 8 j) (BitVec.twoPow 8 k)) := by
  decide +kernel

theorem gfMul_assoc (a b c : Byte) : gfMul (gfMul a b) c = gfMul a (gfMul b c) := by
  have first : Additive fun a => gfMul (gfMul a b) c := fun a a' => by
    simp only [gfMul_xor_left]
  refine first.ext (additive_gfMul_left _) (fun i => ?_) a
  have second : Additive fun b => gfMul (gfMul (BitVec.twoPow 8 i) b) c := fun b b' => by
    simp only [gfMul_xor_left, gfMul_xor_right]
  have second' : Additive fun b => gfMul (BitVec.twoPow 8 i) (gfMul b c) := fun b b' => by
    simp only [gfMul_xor_left, gfMul_xor_right]
  refine second.ext second' (fun j => ?_) b
  have third : Additive fun c => gfMul (BitVec.twoPow 8 i) (gfMul (BitVec.twoPow 8 j) c) :=
    fun c c' => by simp only [gfMul_xor_right]
  exact (additive_gfMul_right _).ext third (fun k => gfMul_assoc_bits i j k) c

theorem gfMul_one (a : Byte) : gfMul a 1 = a := by
  revert a
  decide +kernel

/-- A byte read as an element of GF(2^8). -/
structure GF256 where
  ofByte ::
  toByte : Byte
deriving DecidableEq

namespace GF256

@[ext] theorem ext {left right : GF256} (bytes : left.toByte = right.toByte) : left = right := by
  cases left
  cases right
  cases bytes
  rfl

instance : Zero GF256 := ⟨⟨0⟩⟩
instance : One GF256 := ⟨⟨1⟩⟩
instance : Add GF256 := ⟨fun a b => ⟨a.toByte ^^^ b.toByte⟩⟩
instance : Neg GF256 := ⟨fun a => a⟩
instance : Sub GF256 := ⟨fun a b => ⟨gfSub a.toByte b.toByte⟩⟩
instance : Mul GF256 := ⟨fun a b => ⟨gfMul a.toByte b.toByte⟩⟩
instance : Inv GF256 := ⟨fun a => ⟨gfInv a.toByte⟩⟩
instance : Div GF256 := ⟨fun a b => ⟨gfDiv a.toByte b.toByte⟩⟩

@[simp] theorem toByte_zero : (0 : GF256).toByte = 0 := rfl
@[simp] theorem toByte_one : (1 : GF256).toByte = 1 := rfl
@[simp] theorem toByte_add (a b : GF256) : (a + b).toByte = a.toByte ^^^ b.toByte := rfl
@[simp] theorem toByte_sub (a b : GF256) : (a - b).toByte = gfSub a.toByte b.toByte := rfl
@[simp] theorem toByte_mul (a b : GF256) : (a * b).toByte = gfMul a.toByte b.toByte := rfl
@[simp] theorem toByte_inv (a : GF256) : (a⁻¹).toByte = gfInv a.toByte := rfl
@[simp] theorem toByte_div (a b : GF256) : (a / b).toByte = gfDiv a.toByte b.toByte := rfl

theorem ofByte_injective : Function.Injective ofByte := fun _ _ equal => congrArg toByte equal

instance : CommRing GF256 where
  add_assoc a b c := ext (BitVec.xor_assoc ..)
  zero_add a := ext (by simp)
  add_zero a := ext (by simp)
  add_comm a b := ext (BitVec.xor_comm ..)
  neg_add_cancel a := ext (BitVec.xor_self ..)
  sub_eq_add_neg a b := rfl
  mul_assoc a b c := ext (gfMul_assoc ..)
  mul_comm a b := ext (gfMul_comm ..)
  one_mul a := ext ((gfMul_comm 1 _).trans (gfMul_one _))
  mul_one a := ext (gfMul_one _)
  left_distrib a b c := ext (gfMul_xor_right ..)
  right_distrib a b c := ext (gfMul_xor_left ..)
  zero_mul a := ext (additive_gfMul_left a.toByte).map_zero
  mul_zero a := ext (additive_gfMul_right a.toByte).map_zero
  nsmul := nsmulRec
  zsmul := zsmulRec

/-- The square-and-multiply loop multiplies its accumulator by the power. -/
theorem gfExpLoop_eq (r a : Byte) (e : Nat) :
    ofByte (gfExpLoop r a e) = ofByte r * ofByte a ^ e := by
  induction e using Nat.strong_induction_on generalizing r a with
  | _ e ih =>
    rw [gfExpLoop]
    by_cases positive : 0 < e
    · have smaller : e >>> 1 < e := by
        simpa [Nat.shiftRight_one] using Nat.div_lt_self positive (by decide)
      have square : ofByte (gfMul a a) = ofByte a ^ 2 := (pow_two _).symm
      rw [if_pos positive, ih _ smaller, square, ← pow_mul, Nat.shiftRight_one]
      rcases Nat.mod_two_eq_zero_or_one e with even | odd
      · rw [if_neg (by simp [Nat.and_one_is_mod, even])]
        congr 2
        omega
      · have product : ofByte (gfMul r a) = ofByte r * ofByte a := rfl
        rw [if_pos (by simp [Nat.and_one_is_mod, odd]), product, mul_assoc, ← pow_succ']
        congr 2
        omega
    · have zero : e = 0 := by omega
      simp [zero]

theorem ofByte_gfExp (a : Byte) (e : Nat) : ofByte (gfExp a e) = ofByte a ^ e := by
  rw [gfExp, gfExpLoop_eq]
  exact one_mul _

private def gfSquare (a : Byte) : Byte := gfMul a a

private theorem additive_gfSquare : Additive gfSquare := by
  intro a b
  simp only [gfSquare, gfMul_xor_left, gfMul_xor_right, gfMul_comm b a]
  rw [BitVec.xor_assoc, ← BitVec.xor_assoc (gfMul a b), BitVec.xor_self, BitVec.zero_xor]

/-- Squaring eight times is the identity: it is additive and fixes every
single-bit byte. -/
private theorem gfSquare_iterate_eight (a : Byte) : gfSquare^[8] a = a := by
  have additive : ∀ rounds, Additive gfSquare^[rounds] := by
    intro rounds
    induction rounds with
    | zero => exact fun _ _ => rfl
    | succ rounds ih =>
      intro a b
      rw [Function.iterate_succ_apply', ih a b, additive_gfSquare]
      simp only [Function.iterate_succ_apply']
  have identity : Additive id := fun _ _ => rfl
  refine (additive 8).ext identity ?_ a
  decide +kernel

private theorem pow_two_pow (a : Byte) (rounds : Nat) :
    ofByte a ^ 2 ^ rounds = ofByte (gfSquare^[rounds] a) := by
  induction rounds with
  | zero => simp
  | succ rounds ih =>
    rw [pow_succ 2, pow_mul, ih, Function.iterate_succ_apply', pow_two]
    rfl

theorem pow_256 (a : GF256) : a ^ 256 = a := by
  have squared := pow_two_pow a.toByte 8
  rwa [gfSquare_iterate_eight] at squared

/-- Zero and one are the only idempotents. -/
private theorem idempotent_cases (e : GF256) (idempotent : e * e = e) : e = 0 ∨ e = 1 := by
  have bytes : ∀ b : Byte, gfMul b b = b → b = 0 ∨ b = 1 := by decide +kernel
  exact (bytes e.toByte (congrArg toByte idempotent)).imp ext ext

/-- `a ^ 255` is an idempotent, and zero only for zero. -/
theorem pow_255 (a : GF256) (nonzero : a ≠ 0) : a ^ 255 = 1 := by
  have fixed := pow_256 a
  have idempotent : a ^ 255 * a ^ 255 = a ^ 255 := by
    calc a ^ 255 * a ^ 255 = a ^ 256 * a ^ 254 := by ring
      _ = a ^ 255 := by rw [fixed]; ring
  rcases idempotent_cases _ idempotent with zero | one
  · refine absurd ?_ nonzero
    calc a = a ^ 255 * a := by rw [← pow_succ, fixed]
      _ = 0 := by rw [zero, zero_mul]
  · exact one

theorem mul_inv_self (a : GF256) (nonzero : a ≠ 0) : a * a⁻¹ = 1 := by
  have byteNonzero : a.toByte ≠ 0 := fun zero => nonzero (ext zero)
  have inverse : a⁻¹ = a ^ 254 := by
    change ofByte (gfInv a.toByte) = _
    rw [gfInv, if_neg byteNonzero, ofByte_gfExp]
  rw [inverse, ← pow_succ', pow_255 a nonzero]

/-- The implemented share arithmetic is a field. -/
instance : Field GF256 where
  exists_pair_ne := ⟨0, 1, by decide⟩
  inv_zero := rfl
  mul_inv_cancel := mul_inv_self
  div_eq_mul_inv a b := ext (by
    simp only [toByte_div, gfDiv, toByte_mul, toByte_inv]
    split
    case isTrue zero =>
      rw [zero]
      exact (additive_gfMul_right a.toByte).map_zero.symm
    case isFalse => rfl)
  nnqsmul := _
  qsmul := _

end GF256

end KnxVault.Crypto.Shamir
