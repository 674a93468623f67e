import KnxVault.Std.Aead
import KnxVault.Std.Run

/-!
# The master key ring

`Envelope` and `KeyRing` follow `internal/crypto/envelope.go` and
`internal/crypto/keyring.go`. The nonces that the source draws at random are
arguments. A data encryption key (DEK) is wrapped either as the bare envelope
payload, while version 1 is the only key, or with the key version as a first
byte. `decryptDEK` tells the two formats apart by trial.
-/

namespace KnxVault.Crypto

open KnxVault.Std

/-- An envelope holds a 32-byte key. -/
structure Envelope where
  key : Bytes
  keySize : key.length = 32

def newEnvelope (masterKey : Bytes) : Except String Envelope :=
  if keySize : masterKey.length = 32 then .ok ⟨masterKey, keySize⟩
  else .error ("master key must be 32 bytes, got " ++ toString masterKey.length)

namespace Envelope

variable (aead : Aead)

/-- The nonce is prepended to the ciphertext. -/
def encrypt (env : Envelope) (nonce : Nonce) (plaintext : Bytes) : Bytes :=
  nonce.1 ++ aead.sealText env.key nonce.1 plaintext

def decrypt (env : Envelope) (ciphertext : Bytes) : Except String Bytes :=
  if ciphertext.length < 12 then .error "ciphertext too short"
  else match aead.openText env.key (ciphertext.take 12) (ciphertext.drop 12) with
    | some plaintext => .ok plaintext
    | none => .error "cipher: message authentication failed"

end Envelope

def dekSize : Nat := 32

/-- Version byte, nonce, at least one byte of tag, and the key. -/
def minVersionedLen : Nat := 1 + 13 + dekSize

/-- Versioned master keys. `legacy` is true while only version 1 exists and
wrapped keys carry no version byte. -/
structure KeyRing where
  keys : Std.ExtTreeMap Byte Bytes
  active : Byte
  legacy : Bool
  keySize : ∀ {version : Byte} {key : Bytes}, keys[version]? = some key → key.length = 32
  zeroFree : keys[(0 : Byte)]? = none
  activeKnown : ∃ key, keys[active]? = some key
  /-- In a legacy ring version 1 is the only key. -/
  legacyOnly : legacy = true → ∀ (version : Byte) (key : Bytes),
    keys[version]? = some key → version = 1

def newKeyRing (masterKey : Bytes) : Except String KeyRing :=
  if size : masterKey.length = 32 then
    .ok {
      keys := (∅ : Std.ExtTreeMap Byte Bytes).insert 1 masterKey
      active := 1
      legacy := true
      keySize := by
        intro version key found
        rw [getElem?_insert] at found
        split at found
        · cases found; exact size
        · simp at found
      zeroFree := by simp
      activeKnown := ⟨masterKey, by simp⟩
      legacyOnly := by
        intro _ version key found
        rw [getElem?_insert] at found
        split at found
        · rename_i same; exact same.symm
        · simp at found }
  else .error ("master key must be 32 bytes, got " ++ toString masterKey.length)

namespace KeyRing

def setActiveVersion (ring : KeyRing) (version : Byte) : Except String KeyRing :=
  if known : (ring.keys[version]?).isSome then
    .ok { ring with active := version, activeKnown := Option.isSome_iff_exists.mp known }
  else .error ("unknown key version " ++ toString version.toNat)

/-- Register a key version and make it active. -/
def addKey (ring : KeyRing) (version : Byte) (masterKey : Bytes) : Except String KeyRing :=
  if positive : version = 0 then .error "key version must be > 0"
  else if size : masterKey.length ≠ 32 then
    .error ("master key must be 32 bytes, got " ++ toString masterKey.length)
  else if (ring.keys[version]?).isSome then
    .error ("key version " ++ toString version.toNat ++ " already exists")
  else
    .ok {
      keys := ring.keys.insert version masterKey
      active := version
      legacy := false
      keySize := by
        intro other key found
        rw [getElem?_insert] at found
        split at found
        · cases found; simpa using size
        · exact ring.keySize found
      zeroFree := by
        rw [getElem?_insert, if_neg positive]
        exact ring.zeroFree
      activeKnown := ⟨masterKey, by simp⟩
      legacyOnly := by simp }

/-- The versions in increasing order. -/
def versions (ring : KeyRing) : List Byte :=
  ring.keys.keys

def envelope (ring : KeyRing) (version : Byte) : Except String Envelope :=
  match ring.keys[version]? with
  | none => .error ("unknown key version " ++ toString version.toNat)
  | some key => newEnvelope key

variable (aead : Aead)

/-- Wrap a DEK under the active version. -/
def encryptDEK (ring : KeyRing) (nonce : Nonce) (dek : Bytes) : Except String Bytes :=
  if dek.length ≠ dekSize then
    .error ("dek must be " ++ toString dekSize ++ " bytes, got " ++ toString dek.length)
  else do
    let env ← ring.envelope ring.active
    let enc := env.encrypt aead nonce dek
    if ring.legacy ∧ ring.active = 1 then pure enc else pure (ring.active :: enc)

/-- Read the first byte as a version and open the rest with that key. -/
def openVersioned (ring : KeyRing) (enc : Bytes) : Option (Byte × Bytes) :=
  if enc.length < minVersionedLen then none
  else match enc with
    | [] => none
    | version :: rest =>
      if version = 0 then none
      else match ring.envelope version with
        | .error _ => none
        | .ok env =>
          match env.decrypt aead rest with
          | .error _ => none
          | .ok dek => if dek.length ≠ dekSize then none else some (version, dek)

/-- Try every version on the whole ciphertext, keeping the last error. -/
def tryVersions (ring : KeyRing) (enc : Bytes) (lastErr : Option String) :
    List Byte → Except String Bytes
  | [] => .error (lastErr.getD "unable to decrypt dek")
  | version :: rest =>
    match ring.envelope version with
    | .error _ => tryVersions ring enc lastErr rest
    | .ok env =>
      match env.decrypt aead enc with
      | .error err => tryVersions ring enc (some err) rest
      | .ok dek =>
        if dek.length ≠ dekSize then
          tryVersions ring enc
            (some ("decrypted dek invalid length " ++ toString dek.length)) rest
        else .ok dek

def decryptDEK (ring : KeyRing) (enc : Bytes) : Except String Bytes :=
  if enc.length = 0 then .error "empty encrypted dek"
  else match ring.openVersioned aead enc with
    | some (_, dek) => .ok dek
    | none => ring.tryVersions aead enc none ring.versions

def dekNeedsReencrypt (ring : KeyRing) (enc : Bytes) : Bool :=
  if ring.legacy ∧ ring.active = 1 then false
  else match ring.openVersioned aead enc with
    | some (version, _) => decide (version ≠ ring.active)
    -- Sealed before key versioning was enabled.
    | none => true

def reencryptDEK (ring : KeyRing) (nonce : Nonce) (enc : Bytes) : Except String Bytes := do
  let dek ← ring.decryptDEK aead enc
  ring.encryptDEK aead nonce dek

end KeyRing

/-! ### What an envelope opens -/

theorem newEnvelope_ok {key : Bytes} (size : key.length = 32) :
    newEnvelope key = .ok ⟨key, size⟩ := by
  rw [newEnvelope, dif_pos size]

theorem Envelope.decrypt_eq (aead : Aead) (env : Envelope) (ciphertext : Bytes) :
    (env.decrypt aead ciphertext).toOption = aead.openPayload env.key ciphertext := by
  unfold decrypt Aead.openPayload
  by_cases short : ciphertext.length < 12
  · simp [short, Except.toOption]
  · rw [if_neg short, if_neg short]
    cases aead.openText env.key (ciphertext.take 12) (ciphertext.drop 12) <;> rfl

theorem Envelope.decrypt_ok_iff {aead : Aead} (env : Envelope) {ciphertext plaintext : Bytes} :
    env.decrypt aead ciphertext = .ok plaintext ↔
      aead.openPayload env.key ciphertext = some plaintext := by
  rw [← Envelope.decrypt_eq]
  cases env.decrypt aead ciphertext <;> simp [Except.toOption]

theorem Envelope.decrypt_error {aead : Aead} (env : Envelope) {ciphertext : Bytes}
    (rejected : aead.openPayload env.key ciphertext = none) :
    ∃ err, env.decrypt aead ciphertext = .error err := by
  rw [← Envelope.decrypt_eq] at rejected
  cases opened : env.decrypt aead ciphertext with
  | error err => exact ⟨err, rfl⟩
  | ok plaintext => simp [opened, Except.toOption] at rejected

namespace KeyRing

variable {ring : KeyRing} {version : Byte}

theorem envelope_ok {key : Bytes} (found : ring.keys[version]? = some key) :
    ring.envelope version = .ok ⟨key, ring.keySize found⟩ := by
  simp only [envelope, found, newEnvelope_ok (ring.keySize found)]

theorem envelope_unknown (unknown : ring.keys[version]? = none) :
    ring.envelope version = .error ("unknown key version " ++ toString version.toNat) := by
  simp only [envelope, unknown]

theorem version_ne_zero {key : Bytes} (found : ring.keys[version]? = some key) : version ≠ 0 := by
  rintro rfl
  rw [ring.zeroFree] at found
  cases found

/-- The first byte counts as a version exactly when the rest opens to a DEK
under the key of that version. -/
theorem openVersioned_eq_some_iff {aead : Aead} {enc : Bytes} {dek : Bytes} :
    ring.openVersioned aead enc = some (version, dek) ↔
      minVersionedLen ≤ enc.length ∧ ∃ rest key, enc = version :: rest ∧
        ring.keys[version]? = some key ∧ aead.openPayload key rest = some dek ∧
          dek.length = dekSize := by
  unfold openVersioned
  by_cases short : enc.length < minVersionedLen
  · simp only [if_pos short, reduceCtorEq, false_iff]; omega
  · rw [if_neg short]
    have long : minVersionedLen ≤ enc.length := by omega
    cases enc with
    | nil => simp
    | cons first rest =>
      simp only [long, true_and, List.cons.injEq]
      cases known : ring.keys[first]? with
      | none =>
        rw [envelope_unknown known]
        constructor
        · intro opened; split at opened <;> cases opened
        · rintro ⟨_, key, ⟨rfl, rfl⟩, found, -⟩; rw [known] at found; cases found
      | some key =>
        rw [if_neg (version_ne_zero known), envelope_ok known]
        cases opened : aead.openPayload key rest with
        | none =>
          obtain ⟨err, failed⟩ := Envelope.decrypt_error ⟨key, ring.keySize known⟩ opened
          simp only [failed, reduceCtorEq, false_iff]
          rintro ⟨_, other, ⟨rfl, rfl⟩, found, opens, -⟩
          rw [known, Option.some.injEq] at found
          rw [← found, opened] at opens
          cases opens
        | some plaintext =>
          have decrypted := (Envelope.decrypt_ok_iff ⟨key, ring.keySize known⟩).mpr opened
          simp only [decrypted]
          constructor
          · intro result
            split at result
            · cases result
            · rename_i size
              cases result
              exact ⟨rest, key, ⟨rfl, rfl⟩, known, opened, not_not.mp size⟩
          · rintro ⟨_, other, ⟨rfl, rfl⟩, found, opens, size⟩
            rw [known, Option.some.injEq] at found
            rw [← found, opened, Option.some.injEq] at opens
            subst opens
            rw [if_neg (not_not.mpr size)]

theorem mem_versions :
    version ∈ ring.versions ↔ ∃ key, ring.keys[version]? = some key := by
  rw [versions, Std.ExtTreeMap.mem_keys, ← Std.ExtTreeMap.isSome_getElem?_iff_mem,
    Option.isSome_iff_exists]

section Ideal

variable {aead : IdealAead} {ring : KeyRing} {key dek : Bytes}

/-- A payload reaches the trial loop and opens there under its own key: every
key tried before it is rejected. -/
theorem tryVersions_payload {nonce : Nonce} {known : Byte} (found : ring.keys[known]? = some key)
    (size : dek.length = dekSize) (lastErr : Option String) {tried : List Byte}
    (listed : known ∈ tried) :
    ring.tryVersions aead.toAead (aead.payload key nonce dek) lastErr tried = .ok dek := by
  induction tried generalizing lastErr with
  | nil => cases listed
  | cons version rest ih =>
    have opens := aead.open_payload nonce dek (ring.keySize found)
    cases present : ring.keys[version]? with
    | none =>
      have later : known ∈ rest := by
        rcases List.mem_cons.mp listed with rfl | later
        · rw [found] at present; cases present
        · exact later
      simp only [tryVersions, envelope_unknown present, ih lastErr later]
    | some other =>
      simp only [tryVersions, envelope_ok present]
      by_cases same : other = key
      · subst same
        rw [(Envelope.decrypt_ok_iff ⟨other, _⟩).mpr opens]
        simp [size]
      · have later : known ∈ rest := by
          rcases List.mem_cons.mp listed with rfl | later
          · rw [found] at present; cases present; exact absurd rfl same
          · exact later
        obtain ⟨err, failed⟩ := Envelope.decrypt_error ⟨other, ring.keySize present⟩
          (aead.open_otherKey nonce dek (ring.keySize found) (ring.keySize present) same)
        simp only [failed, ih (some err) later]

variable {enc : Bytes}

/-- The trial loop fails on bytes that no key of the ring opens. -/
theorem tryVersions_rejected
    (rejected : ∀ (version : Byte) (key : Bytes), ring.keys[version]? = some key →
      aead.openPayload key enc = none) (lastErr : Option String) (tried : List Byte) :
    ∃ err, ring.tryVersions aead.toAead enc lastErr tried = .error err := by
  induction tried generalizing lastErr with
  | nil => exact ⟨_, rfl⟩
  | cons version rest ih =>
    cases present : ring.keys[version]? with
    | none => simpa only [tryVersions, envelope_unknown present] using ih lastErr
    | some key =>
      obtain ⟨err, failed⟩ := Envelope.decrypt_error ⟨key, ring.keySize present⟩
        (rejected version key present)
      simpa only [tryVersions, envelope_ok present, failed] using ih (some err)

theorem minVersionedLen_le (version : Byte) (nonce : Nonce) (keySize : key.length = 32)
    (size : dek.length = dekSize) :
    minVersionedLen ≤ (version :: aead.payload key nonce dek).length := by
  have tag := aead.tagged nonce.1 dek keySize
  simp only [Aead.payload, List.length_cons, List.length_append, nonce.2, minVersionedLen, dekSize]
    at tag size ⊢
  omega

variable {version : Byte}

/-- A version byte in front of a payload is recognised. -/
theorem openVersioned_versioned (nonce : Nonce) (found : ring.keys[version]? = some key)
    (size : dek.length = dekSize) :
    ring.openVersioned aead.toAead (version :: aead.payload key nonce dek) =
      some (version, dek) :=
  openVersioned_eq_some_iff.mpr ⟨minVersionedLen_le version nonce (ring.keySize found) size,
    _, key, rfl, found, aead.open_payload nonce dek (ring.keySize found), size⟩

/-- A bare payload is never taken for a versioned one, whatever its first byte. -/
theorem openVersioned_payload (nonce : Nonce) (dek : Bytes) (keySize : key.length = 32) :
    ring.openVersioned aead.toAead (aead.payload key nonce dek) = none := by
  rw [Option.eq_none_iff_forall_ne_some]
  rintro ⟨version, opened⟩ result
  obtain ⟨-, rest, other, split, found, opens, -⟩ := openVersioned_eq_some_iff.mp result
  have rejected := aead.open_shortened nonce dek keySize (ring.keySize found)
  rw [split, List.tail_cons, opens] at rejected
  cases rejected

theorem decryptDEK_versioned (nonce : Nonce) (found : ring.keys[version]? = some key)
    (size : dek.length = dekSize) :
    ring.decryptDEK aead.toAead (version :: aead.payload key nonce dek) = .ok dek := by
  simp [decryptDEK, openVersioned_versioned nonce found size]

theorem decryptDEK_payload (nonce : Nonce) (found : ring.keys[version]? = some key)
    (size : dek.length = dekSize) :
    ring.decryptDEK aead.toAead (aead.payload key nonce dek) = .ok dek := by
  have nonempty : (aead.payload key nonce dek).length ≠ 0 := by
    simp [Aead.payload, nonce.2]
  rw [decryptDEK, if_neg nonempty, openVersioned_payload nonce dek (ring.keySize found)]
  exact tryVersions_payload found size none (mem_versions.mpr ⟨key, found⟩)

/-- A versioned DEK whose version now belongs to another key cannot be opened,
even if the ring holds its key under another version. -/
theorem decryptDEK_otherKey {other : Bytes} (nonce : Nonce) (keySize : key.length = 32)
    (found : ring.keys[version]? = some other) (different : other ≠ key) :
    ∃ err, ring.decryptDEK aead.toAead (version :: aead.payload key nonce dek) = .error err := by
  have unversioned :
      ring.openVersioned aead.toAead (version :: aead.payload key nonce dek) = none := by
    rw [Option.eq_none_iff_forall_ne_some]
    rintro ⟨_, opened⟩ result
    obtain ⟨-, rest, holder, split, holds, opens, -⟩ := openVersioned_eq_some_iff.mp result
    obtain ⟨rfl, rfl⟩ := List.cons.inj split
    rw [found, Option.some.injEq] at holds
    subst holds
    rw [aead.open_otherKey nonce dek keySize (ring.keySize found) different] at opens
    cases opens
  obtain ⟨err, failed⟩ := tryVersions_rejected
    (fun _ _ present => aead.open_prefixed version nonce dek keySize (ring.keySize present))
    none ring.versions
  exact ⟨err, by simp [decryptDEK, unversioned, failed]⟩

theorem encryptDEK_eq (nonce : Nonce) (found : ring.keys[ring.active]? = some key)
    (size : dek.length = dekSize) :
    ring.encryptDEK aead.toAead nonce dek = .ok
      (if ring.legacy ∧ ring.active = 1 then aead.payload key nonce dek
        else ring.active :: aead.payload key nonce dek) := by
  rw [encryptDEK, if_neg (not_not.mpr size), envelope_ok found]
  by_cases bare : ring.legacy ∧ ring.active = 1
  · rw [if_pos bare]
    exact if_pos bare
  · rw [if_neg bare]
    exact if_neg bare

theorem encryptDEK_size {nonce : Nonce}
    (wrapped : ring.encryptDEK aead.toAead nonce dek = .ok enc) :
    dek.length = dekSize := by
  by_contra size
  rw [encryptDEK, if_pos size] at wrapped
  cases wrapped

/-- `enc` wraps `dek` under a key that the ring holds, in either format; a
versioned wrapping names the version of its key. -/
inductive Wraps (aead : IdealAead) (ring : KeyRing) (dek : Bytes) : Bytes → Prop
  | versioned {version : Byte} {key : Bytes} (nonce : Nonce)
      (found : ring.keys[version]? = some key) (size : dek.length = dekSize) :
      Wraps aead ring dek (version :: aead.payload key nonce dek)
  | bare {version : Byte} {key : Bytes} (nonce : Nonce)
      (found : ring.keys[version]? = some key) (size : dek.length = dekSize) :
      Wraps aead ring dek (aead.payload key nonce dek)

theorem Wraps.decryptDEK (wraps : Wraps aead ring dek enc) :
    ring.decryptDEK aead.toAead enc = .ok dek := by
  cases wraps with
  | versioned nonce found size => exact decryptDEK_versioned nonce found size
  | bare nonce found size => exact decryptDEK_payload nonce found size

/-- Every key of `ring` is in `later` under the same version. -/
def Extends (ring later : KeyRing) : Prop :=
  ∀ {version : Byte} {key : Bytes}, ring.keys[version]? = some key →
    later.keys[version]? = some key

theorem Wraps.extend {later : KeyRing} (extends' : ring.Extends later)
    (wraps : Wraps aead ring dek enc) : Wraps aead later dek enc := by
  cases wraps with
  | versioned nonce found size => exact .versioned nonce (extends' found) size
  | bare nonce found size => exact .bare nonce (extends' found) size

/-- Wrapping succeeds on every DEK, and the result is current. -/
theorem encryptDEK_wraps (aead : IdealAead) (ring : KeyRing) (nonce : Nonce)
    (size : dek.length = dekSize) :
    ∃ enc, ring.encryptDEK aead.toAead nonce dek = .ok enc ∧ Wraps aead ring dek enc ∧
      ring.dekNeedsReencrypt aead.toAead enc = false := by
  obtain ⟨key, found⟩ := ring.activeKnown
  refine ⟨_, encryptDEK_eq nonce found size, ?_⟩
  by_cases legacy : ring.legacy ∧ ring.active = 1
  · rw [if_pos legacy]
    exact ⟨.bare nonce found size, by rw [dekNeedsReencrypt, if_pos legacy]⟩
  · rw [if_neg legacy]
    refine ⟨.versioned nonce found size, ?_⟩
    rw [dekNeedsReencrypt, if_neg legacy, openVersioned_versioned nonce found size]
    simp

theorem tryVersions_size {lastErr : Option String} {tried : List Byte}
    (opened : ring.tryVersions aead.toAead enc lastErr tried = .ok dek) :
    dek.length = dekSize := by
  induction tried generalizing lastErr with
  | nil => cases opened
  | cons version rest ih =>
    simp only [tryVersions] at opened
    split at opened
    · exact ih opened
    · split at opened
      · exact ih opened
      · split at opened
        · exact ih opened
        · rename_i size
          cases opened
          exact not_not.mp size

theorem decryptDEK_size (opened : ring.decryptDEK aead.toAead enc = .ok dek) :
    dek.length = dekSize := by
  unfold KeyRing.decryptDEK at opened
  split at opened
  · cases opened
  · split at opened
    · rename_i versioned
      cases opened
      obtain ⟨-, _, _, -, -, -, size⟩ := openVersioned_eq_some_iff.mp versioned
      exact size
    · exact tryVersions_size opened

/-- Rewrapping keeps the DEK and yields a current wrapping. -/
theorem reencryptDEK_wraps (nonce : Nonce) (opened : ring.decryptDEK aead.toAead enc = .ok dek) :
    ∃ rewrapped, ring.reencryptDEK aead.toAead nonce enc = .ok rewrapped ∧
      Wraps aead ring dek rewrapped ∧
        ring.dekNeedsReencrypt aead.toAead rewrapped = false := by
  obtain ⟨rewrapped, encrypted, current⟩ :=
    encryptDEK_wraps aead ring nonce (decryptDEK_size opened)
  refine ⟨rewrapped, ?_, current⟩
  rw [reencryptDEK, opened]
  exact encrypted

end Ideal

/-! ### Runs of the ring -/

/-- A call on the ring, with the nonce that it draws. -/
inductive Call where
  | addKey (version : Byte) (masterKey : Bytes)
  | setActiveVersion (version : Byte)
  | encryptDEK (nonce : Nonce) (dek : Bytes)

/-- A ring with the DEKs wrapped so far, each with its ciphertext. -/
structure History where
  ring : KeyRing
  produced : List (Bytes × Bytes)

/-- A call that fails changes nothing. -/
def History.step (aead : Aead) (history : History) : Call → History
  | .addKey version masterKey =>
    match history.ring.addKey version masterKey with
    | .ok ring => { history with ring }
    | .error _ => history
  | .setActiveVersion version =>
    match history.ring.setActiveVersion version with
    | .ok ring => { history with ring }
    | .error _ => history
  | .encryptDEK nonce dek =>
    match history.ring.encryptDEK aead nonce dek with
    | .ok enc => { history with produced := history.produced ++ [(dek, enc)] }
    | .error _ => history

variable {later : KeyRing}

theorem addKey_ok {masterKey : Bytes} (added : ring.addKey version masterKey = .ok later) :
    version ≠ 0 ∧ masterKey.length = 32 ∧ ring.keys[version]? = none ∧
      later.keys = ring.keys.insert version masterKey ∧ later.active = version ∧
        later.legacy = false := by
  unfold addKey at added
  split at added
  · cases added
  · split at added
    · cases added
    · split at added
      · cases added
      · rename_i positive size fresh
        cases added
        exact ⟨positive, not_not.mp size, by simpa using fresh, rfl, rfl, rfl⟩

theorem addKey_extends {masterKey : Bytes} (added : ring.addKey version masterKey = .ok later) :
    ring.Extends later := by
  obtain ⟨-, -, fresh, keys, -, -⟩ := addKey_ok added
  intro known key found
  rw [keys, getElem?_insert, if_neg]
  · exact found
  · rintro rfl
    rw [fresh] at found
    cases found

theorem setActiveVersion_ok (selected : ring.setActiveVersion version = .ok later) :
    later.keys = ring.keys ∧ later.active = version ∧ later.legacy = ring.legacy := by
  unfold setActiveVersion at selected
  split at selected
  · cases selected
    exact ⟨rfl, rfl, rfl⟩
  · cases selected

namespace History

variable (aead : IdealAead)

/-- A call keeps every key under its version. -/
theorem step_extends (history : History) (call : Call) :
    history.ring.Extends (history.step aead.toAead call).ring := by
  intro version key found
  cases call with
  | addKey added masterKey =>
    simp only [step]
    split
    · rename_i result; exact addKey_extends result found
    · exact found
  | setActiveVersion selected =>
    simp only [step]
    split
    · rename_i result; rw [(setActiveVersion_ok result).1]; exact found
    · exact found
  | encryptDEK nonce dek =>
    simp only [step]
    split <;> exact found

theorem run_extends (history : History) (calls : List Call) :
    history.ring.Extends (run (step aead.toAead) history calls).ring := by
  induction calls generalizing history with
  | nil => exact fun found => found
  | cons call calls ih => exact fun found => ih _ (history.step_extends aead call found)

/-- A call that leaves the active version alone leaves the whole ring alone:
a successful `addKey` always activates a version that was not in the ring. -/
theorem step_sameActive (history : History) (call : Call)
    (same : (history.step aead.toAead call).ring.active = history.ring.active) :
    (history.step aead.toAead call).ring = history.ring := by
  cases call with
  | addKey added masterKey =>
    simp only [step] at same ⊢
    split at same <;> rename_i result
    · obtain ⟨-, -, fresh, -, active, -⟩ := addKey_ok result
      obtain ⟨key, found⟩ := history.ring.activeKnown
      rw [← same, active, fresh] at found
      cases found
    · rfl
  | setActiveVersion selected =>
    simp only [step] at same ⊢
    split at same <;> rename_i result
    · unfold setActiveVersion at result
      split at result
      · cases result; simp only at same; simp only [same]
      · cases result
    · rfl
  | encryptDEK nonce dek =>
    simp only [step]
    split <;> rfl

/-- While the active version stays the same, so does the ring. -/
theorem run_sameActive (history : History) (calls : List Call)
    (same : ∀ taken, taken <+: calls →
      (run (step aead.toAead) history taken).ring.active = history.ring.active) :
    (run (step aead.toAead) history calls).ring = history.ring := by
  induction calls generalizing history with
  | nil => rfl
  | cons call calls ih =>
    have first := history.step_sameActive aead call
      (same [call] (List.prefix_append [call] calls))
    rw [run_cons, ih _ _, first]
    intro taken ofCalls
    rw [first]
    exact same (call :: taken) (List.cons_prefix_cons.mpr ⟨rfl, ofCalls⟩)

/-- Every ciphertext produced so far wraps its DEK under a key of the ring. -/
def Retained (history : History) : Prop :=
  ∀ entry ∈ history.produced, Wraps aead history.ring entry.1 entry.2

theorem step_retained (history : History) (call : Call) (retained : history.Retained aead) :
    (history.step aead.toAead call).Retained aead := by
  have kept : ∀ entry ∈ history.produced,
      Wraps aead (history.step aead.toAead call).ring entry.1 entry.2 :=
    fun entry produced => (retained entry produced).extend (history.step_extends aead call)
  cases call with
  | addKey version masterKey =>
    simp only [step] at kept ⊢
    split at kept <;> simpa only [Retained] using kept
  | setActiveVersion version =>
    simp only [step] at kept ⊢
    split at kept <;> simpa only [Retained] using kept
  | encryptDEK nonce dek =>
    simp only [step]
    split <;> rename_i result
    · intro entry produced
      rcases List.mem_append.mp produced with earlier | latest
      · exact retained entry earlier
      · obtain rfl := List.mem_singleton.mp latest
        obtain ⟨enc, encrypted, wraps, -⟩ :=
          encryptDEK_wraps aead history.ring nonce (encryptDEK_size result)
        rw [encrypted, Except.ok.injEq] at result
        subst result
        exact wraps
    · exact retained

end History

/-- Inside one process a ring loses nothing. After any calls, everything it
wrapped and every bare payload under one of its keys decrypts to its DEK, and a
rewrapped DEK decrypts after all later calls and needs no rewrapping while the
active version stays the same. -/
theorem ring_keeps_deks (aead : IdealAead) (start : KeyRing) (calls : List Call) :
    let history := run (History.step aead.toAead) ⟨start, []⟩ calls
    (∀ dek enc, (dek, enc) ∈ history.produced →
      history.ring.decryptDEK aead.toAead enc = .ok dek) ∧
    (∀ (version : Byte) (key : Bytes) (nonce : Nonce) (dek : Bytes),
      history.ring.keys[version]? = some key → dek.length = dekSize →
        history.ring.decryptDEK aead.toAead (aead.payload key nonce dek) = .ok dek) ∧
    (∀ (enc dek : Bytes) (nonce : Nonce), history.ring.decryptDEK aead.toAead enc = .ok dek →
      ∃ rewrapped, history.ring.reencryptDEK aead.toAead nonce enc = .ok rewrapped ∧
        ∀ later : List Call,
          let final := run (History.step aead.toAead) history later
          final.ring.decryptDEK aead.toAead rewrapped = .ok dek ∧
          ((∀ taken, taken <+: later →
              (run (History.step aead.toAead) history taken).ring.active = history.ring.active) →
            final.ring.dekNeedsReencrypt aead.toAead rewrapped = false)) := by
  intro history
  have retained : history.Retained aead :=
    run_invariant (History.step_retained aead) calls (by simp [History.Retained])
  refine ⟨fun dek enc produced => (retained _ produced).decryptDEK,
    fun version key nonce dek found size => decryptDEK_payload nonce found size, ?_⟩
  intro enc dek nonce opened
  obtain ⟨rewrapped, rewrapping, wraps, current⟩ := reencryptDEK_wraps nonce opened
  refine ⟨rewrapped, rewrapping, fun later => ⟨?_, fun sameActive => ?_⟩⟩
  · exact (wraps.extend (history.run_extends aead later)).decryptDEK
  · rw [history.run_sameActive aead later sameActive]
    exact current

end KeyRing

end KnxVault.Crypto
