import KnxVault.Std.Data

/-!
# Ideal authenticated encryption

An AEAD scheme with a twelve-byte nonce, and the laws of an ideal one: a payload
is a nonce followed by the ciphertext sealed under it, it opens to its plaintext
under the sealing key, and neither under another key nor after a byte was put in
front of it or taken off it. `IdealAead.doubling` satisfies the laws.
-/

namespace KnxVault.Std

/-- A twelve-byte nonce. -/
abbrev Nonce := {bytes : Bytes // bytes.length = 12}

/-- Sealing and opening with key, nonce and text; opening may fail. -/
structure Aead where
  sealText : Bytes → Bytes → Bytes → Bytes
  openText : Bytes → Bytes → Bytes → Option Bytes

namespace Aead

/-- The nonce followed by the ciphertext. -/
def payload (aead : Aead) (key : Bytes) (nonce : Nonce) (plaintext : Bytes) : Bytes :=
  nonce.1 ++ aead.sealText key nonce.1 plaintext

/-- Split a payload into nonce and ciphertext and open it. -/
def openPayload (aead : Aead) (key bytes : Bytes) : Option Bytes :=
  if bytes.length < 12 then none else aead.openText key (bytes.take 12) (bytes.drop 12)

end Aead

/-- An ideal scheme for 32-byte keys. -/
structure IdealAead extends Aead where
  open_payload : ∀ {key : Bytes} (nonce : Nonce) (plaintext : Bytes), key.length = 32 →
    toAead.openPayload key (toAead.payload key nonce plaintext) = some plaintext
  open_otherKey : ∀ {key other : Bytes} (nonce : Nonce) (plaintext : Bytes), key.length = 32 →
    other.length = 32 → other ≠ key →
      toAead.openPayload other (toAead.payload key nonce plaintext) = none
  open_prefixed : ∀ {key other : Bytes} (byte : Byte) (nonce : Nonce) (plaintext : Bytes),
    key.length = 32 → other.length = 32 →
      toAead.openPayload other (byte :: toAead.payload key nonce plaintext) = none
  open_shortened : ∀ {key other : Bytes} (nonce : Nonce) (plaintext : Bytes), key.length = 32 →
    other.length = 32 → toAead.openPayload other (toAead.payload key nonce plaintext).tail = none
  /-- The ciphertext carries an authentication tag of at least sixteen bytes. -/
  tagged : ∀ {key : Bytes} (nonce plaintext : Bytes), key.length = 32 →
    plaintext.length + 16 ≤ (toAead.sealText key nonce plaintext).length

/-! ### A scheme that satisfies the laws -/

/-- Write every byte twice. -/
def doubled (bytes : Bytes) : Bytes :=
  bytes.flatMap fun byte => [byte, byte]

/-- Keep every second byte. -/
def halved : Bytes → Bytes
  | first :: _ :: rest => first :: halved rest
  | _ => []

@[simp] theorem length_doubled (bytes : Bytes) : (doubled bytes).length = 2 * bytes.length := by
  induction bytes with
  | nil => rfl
  | cons byte bytes ih => simp only [doubled, List.flatMap_cons, List.length_append] at ih ⊢
                          simp only [ih, List.length_cons, List.length_nil]; omega

@[simp] theorem halved_doubled (bytes : Bytes) : halved (doubled bytes) = bytes := by
  induction bytes with
  | nil => rfl
  | cons byte bytes ih => simpa [doubled, halved] using ih

/-- The ciphertext is the key and the plaintext with every byte doubled, so
every sealed payload has even length. -/
def Aead.doubling : Aead where
  sealText key _ plaintext := doubled (key ++ plaintext)
  openText key _ ciphertext :=
    if ciphertext.length % 2 = 0 ∧ (halved ciphertext).take 32 = key then
      some ((halved ciphertext).drop 32)
    else none

theorem Aead.doubling_openPayload (key bytes : Bytes) :
    doubling.openPayload key bytes =
      if 12 ≤ bytes.length ∧ bytes.length % 2 = 0 ∧ (halved (bytes.drop 12)).take 32 = key then
        some ((halved (bytes.drop 12)).drop 32)
      else none := by
  by_cases short : bytes.length < 12
  · rw [openPayload, if_pos short, if_neg (by omega)]
  · have parity : (bytes.drop 12).length % 2 = bytes.length % 2 := by
      rw [List.length_drop]; omega
    have long : 12 ≤ bytes.length := by omega
    simp only [openPayload, if_neg short, doubling, parity, long, true_and]

theorem Aead.length_doubling_payload (key : Bytes) (nonce : Nonce) (plaintext : Bytes) :
    (doubling.payload key nonce plaintext).length = 12 + 2 * (key.length + plaintext.length) := by
  simp [payload, doubling, nonce.2]

theorem Aead.halved_doubling_payload (key : Bytes) (nonce : Nonce) (plaintext : Bytes) :
    halved ((doubling.payload key nonce plaintext).drop 12) = key ++ plaintext := by
  have dropNonce : (nonce.1 ++ doubled (key ++ plaintext)).drop 12 =
      doubled (key ++ plaintext) := List.drop_left' nonce.2
  rw [payload, doubling, dropNonce, halved_doubled]

def IdealAead.doubling : IdealAead where
  toAead := .doubling
  open_payload {key} nonce plaintext keySize := by
    rw [Aead.doubling_openPayload, Aead.halved_doubling_payload, Aead.length_doubling_payload,
      List.take_left' keySize, List.drop_left' keySize, if_pos ⟨by omega, by omega, rfl⟩]
  open_otherKey {key other} nonce plaintext keySize _ different := by
    rw [Aead.doubling_openPayload, Aead.halved_doubling_payload, List.take_left' keySize,
      if_neg (fun same => different same.2.2.symm)]
  open_prefixed byte nonce plaintext _ _ := by
    rw [Aead.doubling_openPayload, List.length_cons, Aead.length_doubling_payload,
      if_neg (by omega)]
  open_shortened nonce plaintext _ _ := by
    rw [Aead.doubling_openPayload, List.length_tail, Aead.length_doubling_payload,
      if_neg (by omega)]
  tagged nonce plaintext keySize := by
    simp only [Aead.doubling, length_doubled, List.length_append]; omega

end KnxVault.Std
