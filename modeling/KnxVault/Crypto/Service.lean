import KnxVault.Crypto.KeyRing

/-!
# Sealing values and rotating the master key

`Service` follows `internal/crypto/service.go`, `loadMasterKeys` the start-up
code of `internal/app/deps.go`. Version numbers are positions: a running process
numbers its master keys in the order in which they became active, a restarted
one numbers the newest key first and then the previous keys as they are listed.
-/

namespace KnxVault.Crypto

open KnxVault.Std

structure Service where
  ring : KeyRing

def newService (masterKey : Bytes) : Except String Service := do
  let ring ← newKeyRing masterKey
  pure ⟨ring⟩

/-- What `seal` draws at random. -/
structure SealRandom where
  dek : {bytes : Bytes // bytes.length = dekSize}
  dataNonce : Nonce
  dekNonce : Nonce

/-- A service and draws to run the model with. -/
def Service.sample : Service :=
  (newService (List.replicate 32 1)).toOption.get (by decide)

def SealRandom.sample : SealRandom :=
  ⟨⟨List.replicate 32 2, by decide⟩, ⟨List.replicate 12 3, by decide⟩,
    ⟨List.replicate 12 4, by decide⟩⟩

namespace Service

/-- One more than the highest version, as a byte. -/
def nextVersion (service : Service) : Byte :=
  match service.ring.versions.getLast? with
  | none => 1
  | some version => version + 1

def rotateMasterKey (service : Service) (newMasterKey : Bytes) :
    Except String (Byte × Service) := do
  let ring ← service.ring.addKey service.nextVersion newMasterKey
  pure (service.nextVersion, ⟨ring⟩)

/-- Register an older key and keep the active version. -/
def loadPreviousMasterKey (service : Service) (masterKey : Bytes) : Except String Service :=
  if masterKey.length ≠ 32 then
    .error ("previous master key must be 32 bytes, got " ++ toString masterKey.length)
  else do
    let added ← service.ring.addKey service.nextVersion masterKey
    let ring ← added.setActiveVersion service.ring.active
    pure ⟨ring⟩

variable (aead : Aead)

def encryptDEK (service : Service) (nonce : Nonce) (dek : Bytes) : Except String Bytes :=
  service.ring.encryptDEK aead nonce dek

def decryptDEK (service : Service) (enc : Bytes) : Except String Bytes := do
  let dek ← service.ring.decryptDEK aead enc
  if dek.length ≠ dekSize then
    .error ("decrypted dek invalid length " ++ toString dek.length)
  else pure dek

def encryptWithDEK (dek : Bytes) (nonce : Nonce) (plaintext : Bytes) : Except String Bytes := do
  let env ← newEnvelope dek
  pure (env.encrypt aead nonce plaintext)

def decryptWithDEK (dek ciphertext : Bytes) : Except String Bytes := do
  let env ← newEnvelope dek
  env.decrypt aead ciphertext

/-- The ciphertext under a fresh DEK, and that DEK wrapped. -/
def sealValue (service : Service) (random : SealRandom) (plaintext : Bytes) :
    Except String (Bytes × Bytes) := do
  let ciphertext ← encryptWithDEK aead random.dek.1 random.dataNonce plaintext
  let dekEnc ← service.encryptDEK aead random.dekNonce random.dek.1
  pure (ciphertext, dekEnc)

def openValue (service : Service) (ciphertext dekEnc : Bytes) : Except String Bytes := do
  let dek ← service.decryptDEK aead dekEnc
  decryptWithDEK aead dek ciphertext

end Service

/-- Load the configured previous keys, the first of which has the given index. -/
def loadPreviousMasterKeys (service : Service) (index : Nat) : List Bytes → Except String Service
  | [] => .ok service
  | raw :: rest =>
    if raw.length ≠ 32 then
      .error ("KNXVAULT_MASTER_KEY_PREVIOUS[" ++ toString index ++ "]: need base64 32-byte key")
    else match service.loadPreviousMasterKey raw with
      | .error err => .error ("load previous master key " ++ toString index ++ ": " ++ err)
      | .ok loaded => loadPreviousMasterKeys loaded (index + 1) rest

/-- Start-up with the configured keys. -/
def loadMasterKeys (masterKey : Bytes) (previous : List Bytes) : Except String Service :=
  match newService masterKey with
  | .error err => .error ("crypto service: " ++ err)
  | .ok service => loadPreviousMasterKeys service 0 previous

/-! ### Key numbering -/

/-- The ring numbers exactly these keys, from version 1 on. -/
structure KeyRing.Numbers (ring : KeyRing) (masterKeys : List Bytes) : Prop where
  bound : masterKeys.length ≤ 255
  nonempty : 0 < masterKeys.length
  lookup : ∀ version : Byte, ring.keys[version]? =
    if version = 0 then none else masterKeys[version.toNat - 1]?

namespace KeyRing.Numbers

variable {ring : KeyRing} {masterKeys : List Bytes}

/-- The key at a position has the version one above it. -/
theorem lookup_succ (numbers : ring.Numbers masterKeys) {position : Nat}
    (small : position < 255) :
    ring.keys[BitVec.ofNat 8 (position + 1)]? = masterKeys[position]? := by
  have toNat : (BitVec.ofNat 8 (position + 1)).toNat = position + 1 := by
    rw [BitVec.toNat_ofNat]; omega
  rw [numbers.lookup, if_neg, toNat, Nat.add_sub_cancel]
  intro zero
  rw [zero] at toNat
  simp at toNat

theorem size (numbers : ring.Numbers masterKeys) {masterKey : Bytes}
    (listed : masterKey ∈ masterKeys) : masterKey.length = 32 := by
  obtain ⟨position, found⟩ := List.mem_iff_getElem?.mp listed
  have inside : position < masterKeys.length := (List.getElem?_eq_some_iff.mp found).1
  have bound := numbers.bound
  rw [← numbers.lookup_succ (by omega)] at found
  exact ring.keySize found

/-- The highest version is the number of keys. -/
theorem getLast_versions (numbers : ring.Numbers masterKeys) :
    ring.versions.getLast? = some (BitVec.ofNat 8 masterKeys.length) := by
  have bound := numbers.bound
  have nonempty := numbers.nonempty
  rw [KeyRing.versions, ← Std.ExtTreeMap.maxKey?_eq_getLast?_keys,
    Std.ExtTreeMap.maxKey?_eq_some_iff_mem_and_forall]
  constructor
  · have last := @lookup_succ _ _ numbers (masterKeys.length - 1) (by omega)
    rw [Nat.sub_add_cancel nonempty, List.getElem?_eq_getElem (by omega)] at last
    exact Std.ExtTreeMap.isSome_getElem?_iff_mem.mp (by rw [last]; rfl)
  · intro version present
    rw [isLE_compare_byte, BitVec.toNat_ofNat]
    have found := Std.ExtTreeMap.isSome_getElem?_iff_mem.mpr present
    rw [numbers.lookup] at found
    split at found
    · cases found
    · have inside :=
        (List.getElem?_eq_some_iff.mp (Option.isSome_iff_exists.mp found).choose_spec).1
      omega

theorem nextVersion_eq (numbers : ring.Numbers masterKeys) :
    Service.nextVersion ⟨ring⟩ = BitVec.ofNat 8 (masterKeys.length + 1) := by
  simp only [Service.nextVersion, numbers.getLast_versions, BitVec.ofNat_add]
  rfl

/-- A further key takes the next number. -/
theorem addKey_ok (numbers : ring.Numbers masterKeys) {masterKey : Bytes}
    (size : masterKey.length = 32) (free : masterKeys.length < 255) :
    ∃ later : KeyRing, ring.addKey (Service.nextVersion ⟨ring⟩) masterKey = .ok later ∧
      later.Numbers (masterKeys ++ [masterKey]) := by
  have version := numbers.nextVersion_eq
  have fresh : ring.keys[Service.nextVersion ⟨ring⟩]? = none := by
    rw [version, numbers.lookup_succ free, List.getElem?_eq_none (le_refl _)]
  have positive : Service.nextVersion ⟨ring⟩ ≠ 0 := by
    rw [version]
    bv_omega
  have added : ∃ later, ring.addKey (Service.nextVersion ⟨ring⟩) masterKey = .ok later := by
    rw [KeyRing.addKey, dif_neg positive, dif_neg (not_not.mpr size), fresh, if_neg (by simp)]
    exact ⟨_, rfl⟩
  obtain ⟨later, result⟩ := added
  refine ⟨later, result, by rw [List.length_append, List.length_singleton]; omega, by simp, ?_⟩
  obtain ⟨-, -, -, keys, -, -⟩ := KeyRing.addKey_ok result
  intro other
  rw [keys, getElem?_insert]
  by_cases same : Service.nextVersion ⟨ring⟩ = other
  · rw [if_pos same, if_neg (same ▸ positive), ← same, version, BitVec.toNat_ofNat,
      Nat.mod_eq_of_lt (by omega), Nat.add_sub_cancel, List.getElem?_concat_length]
  · rw [if_neg same, numbers.lookup]
    by_cases zero : other = 0
    · rw [if_pos zero, if_pos zero]
    · rw [if_neg zero, if_neg zero]
      have apart : other.toNat - 1 ≠ masterKeys.length := by
        intro meets
        apply same
        have positive := toNat_byte_pos zero
        rw [version, ← BitVec.toNat_inj, BitVec.toNat_ofNat]
        omega
      rw [List.getElem?_append]
      split
      · rfl
      · rw [List.getElem?_eq_none (by omega), List.getElem?_eq_none (by simp; omega)]

/-- The version byte wraps to zero after 255 keys, and `addKey` refuses it. -/
theorem addKey_full (numbers : ring.Numbers masterKeys) (masterKey : Bytes)
    (full : masterKeys.length = 255) :
    ring.addKey (Service.nextVersion ⟨ring⟩) masterKey = .error "key version must be > 0" := by
  rw [KeyRing.addKey, dif_pos]
  rw [numbers.nextVersion_eq, full]
  rfl

end KeyRing.Numbers

theorem newKeyRing_numbers {masterKey : Bytes} (size : masterKey.length = 32) :
    ∃ ring, newKeyRing masterKey = .ok ring ∧ ring.Numbers [masterKey] ∧ ring.active = 1 ∧
      ring.legacy = true := by
  refine ⟨_, dif_pos size, ⟨by simp, by simp, ?_⟩, rfl, rfl⟩
  intro version
  rw [getElem?_insert]
  by_cases one : 1 = version
  · subst one
    rfl
  · rw [if_neg one, Std.ExtTreeMap.getElem?_empty]
    by_cases zero : version = 0
    · rw [if_pos zero]
    · rw [if_neg zero, List.getElem?_eq_none]
      rw [List.length_singleton]
      bv_omega

/-- Loading a previous key numbers it last and keeps the active version. -/
theorem loadPreviousMasterKey_ok {ring : KeyRing} {masterKeys : List Bytes} {masterKey : Bytes}
    (numbers : ring.Numbers masterKeys) (size : masterKey.length = 32)
    (free : masterKeys.length < 255) :
    ∃ later : KeyRing, Service.loadPreviousMasterKey ⟨ring⟩ masterKey = .ok ⟨later⟩ ∧
      later.Numbers (masterKeys ++ [masterKey]) := by
  obtain ⟨added, addition, numbered⟩ := numbers.addKey_ok size free
  obtain ⟨key, found⟩ := ring.activeKnown
  have kept := KeyRing.addKey_extends addition found
  have selected : ∃ later, added.setActiveVersion ring.active = .ok later := by
    rw [KeyRing.setActiveVersion, dif_pos (by rw [kept]; rfl)]
    exact ⟨_, rfl⟩
  obtain ⟨later, selection⟩ := selected
  refine ⟨later, ?_, numbered.bound, numbered.nonempty, ?_⟩
  · rw [Service.loadPreviousMasterKey, if_neg (not_not.mpr size), addition]
    simp only [bind, Except.bind, selection]
    rfl
  · rw [(KeyRing.setActiveVersion_ok selection).1]
    exact numbered.lookup

theorem loadPreviousMasterKeys_ok {ring : KeyRing} {masterKeys previous : List Bytes}
    (index : Nat) (numbers : ring.Numbers masterKeys)
    (sizes : ∀ masterKey ∈ previous, masterKey.length = 32)
    (fits : masterKeys.length + previous.length ≤ 255) :
    ∃ later : KeyRing, loadPreviousMasterKeys ⟨ring⟩ index previous = .ok ⟨later⟩ ∧
      later.Numbers (masterKeys ++ previous) := by
  induction previous generalizing ring masterKeys index with
  | nil => exact ⟨ring, rfl, by simpa using numbers⟩
  | cons raw rest ih =>
    have size : raw.length = 32 := sizes raw List.mem_cons_self
    rw [List.length_cons] at fits
    obtain ⟨loaded, loading, numbered⟩ :=
      loadPreviousMasterKey_ok numbers size (by omega)
    obtain ⟨later, final, all⟩ := ih (index + 1) numbered
      (fun masterKey listed => sizes masterKey (List.mem_cons_of_mem _ listed))
      (by simp only [List.length_append, List.length_singleton]; omega)
    refine ⟨later, ?_, by simpa using all⟩
    simp only [loadPreviousMasterKeys, if_neg (not_not.mpr size), loading, final]

/-- A restarted process numbers the newest key first. -/
theorem loadMasterKeys_ok {masterKey : Bytes} {previous : List Bytes}
    (sizes : ∀ key ∈ masterKey :: previous, key.length = 32)
    (fits : previous.length + 1 ≤ 255) :
    ∃ ring : KeyRing, loadMasterKeys masterKey previous = .ok ⟨ring⟩ ∧
      ring.Numbers (masterKey :: previous) := by
  obtain ⟨created, creation, numbers, -, -⟩ :=
    newKeyRing_numbers (sizes masterKey List.mem_cons_self)
  obtain ⟨ring, loading, numbered⟩ := loadPreviousMasterKeys_ok 0 numbers
    (fun key listed => sizes key (List.mem_cons_of_mem _ listed))
    (by simpa [Nat.add_comm] using fits)
  refine ⟨ring, ?_, numbered⟩
  have started : newService masterKey = .ok ⟨created⟩ := by
    rw [newService, creation]
    rfl
  rw [loadMasterKeys, started]
  exact loading

/-! ### A process and its restart -/

inductive Service.Call where
  | sealValue (random : SealRandom) (plaintext : Bytes)
  | rotateMasterKey (newMasterKey : Bytes)

/-- A sealed value, with the master key active when it was sealed and the number
of rotations before. -/
structure SealedValue where
  plaintext : Bytes
  ciphertext : Bytes
  dekEnc : Bytes
  rotations : Nat
  masterKey : Bytes

/-- A running service, the master keys in the order in which they became active,
and the values sealed so far. -/
structure Process where
  service : Service
  masterKeys : List Bytes
  sealedValues : List SealedValue

namespace Process

/-- A call that fails changes nothing. -/
def step (aead : Aead) (process : Process) : Service.Call → Process
  | .sealValue random plaintext =>
    match process.service.sealValue aead random plaintext with
    | .error _ => process
    | .ok (ciphertext, dekEnc) =>
      { process with
        sealedValues := process.sealedValues ++
          [{ plaintext, ciphertext, dekEnc
             rotations := process.masterKeys.length - 1
             masterKey := process.masterKeys.getLastD [] }] }
  | .rotateMasterKey newMasterKey =>
    match process.service.rotateMasterKey newMasterKey with
    | .error _ => process
    | .ok (_, service) =>
      { process with service, masterKeys := process.masterKeys ++ [newMasterKey] }

/-- A sealed value is a payload under a DEK that its master key wraps; the wrapping
names the version its master key had, unless there was no rotation yet. -/
def Holds (aead : IdealAead) (masterKeys : List Bytes) (value : SealedValue) : Prop :=
  masterKeys[value.rotations]? = some value.masterKey ∧
    ∃ (dek : Bytes) (dataNonce dekNonce : Nonce), dek.length = dekSize ∧
      value.ciphertext = aead.payload dek dataNonce value.plaintext ∧
      value.dekEnc =
        if value.rotations = 0 then aead.payload value.masterKey dekNonce dek
        else BitVec.ofNat 8 (value.rotations + 1) :: aead.payload value.masterKey dekNonce dek

/-- The service numbers the keys of the process and the last one is active. -/
structure Consistent (aead : IdealAead) (process : Process) : Prop where
  numbers : process.service.ring.Numbers process.masterKeys
  active : process.service.ring.active = BitVec.ofNat 8 process.masterKeys.length
  legacy : process.service.ring.legacy = decide (process.masterKeys.length = 1)
  values : ∀ value ∈ process.sealedValues, Holds aead process.masterKeys value

variable {aead : IdealAead} {process : Process}

theorem Holds.append {masterKeys : List Bytes} {value : SealedValue} (more : List Bytes)
    (holds : Holds aead masterKeys value) : Holds aead (masterKeys ++ more) value := by
  obtain ⟨held, wrapped⟩ := holds
  refine ⟨?_, wrapped⟩
  rw [List.getElem?_append_left (List.getElem?_eq_some_iff.mp held).1]
  exact held

theorem Consistent.activeKey (consistent : process.Consistent aead) :
    process.masterKeys[process.masterKeys.length - 1]? = some (process.masterKeys.getLastD []) ∧
      process.service.ring.keys[process.service.ring.active]? =
        some (process.masterKeys.getLastD []) := by
  have nonempty := consistent.numbers.nonempty
  have bound := consistent.numbers.bound
  have last : process.masterKeys[process.masterKeys.length - 1]? =
      some (process.masterKeys.getLastD []) := by
    rw [← List.getLast?_eq_getElem?, List.getLastD_eq_getLast?]
    cases keys : process.masterKeys.getLast? with
    | none => rw [List.getLast?_eq_none_iff.mp keys] at nonempty; cases nonempty
    | some key => rfl
  refine ⟨last, ?_⟩
  rw [← last, consistent.active]
  have position := @KeyRing.Numbers.lookup_succ _ _ consistent.numbers
    (process.masterKeys.length - 1) (by omega)
  rwa [Nat.sub_add_cancel nonempty] at position

/-- What `sealValue` returns in a consistent process. -/
theorem Consistent.sealValue_eq (consistent : process.Consistent aead) (random : SealRandom)
    (plaintext : Bytes) :
    process.service.sealValue aead.toAead random plaintext = .ok
      (aead.payload random.dek.1 random.dataNonce plaintext,
        if process.masterKeys.length - 1 = 0 then
          aead.payload (process.masterKeys.getLastD []) random.dekNonce random.dek.1
        else BitVec.ofNat 8 (process.masterKeys.length - 1 + 1) ::
          aead.payload (process.masterKeys.getLastD []) random.dekNonce random.dek.1) := by
  have nonempty := consistent.numbers.nonempty
  have bare : (process.service.ring.legacy ∧ process.service.ring.active = 1) ↔
      process.masterKeys.length - 1 = 0 := by
    rw [consistent.legacy, consistent.active, decide_eq_true_iff]
    constructor
    · rintro ⟨one, -⟩; omega
    · intro none
      have one : process.masterKeys.length = 1 := by omega
      rw [one]
      exact ⟨rfl, rfl⟩
  have wrapped := @KeyRing.encryptDEK_eq aead _ _ _ random.dekNonce consistent.activeKey.2
    random.dek.2
  simp only [bare] at wrapped
  rw [consistent.active] at wrapped
  rw [Nat.sub_add_cancel nonempty, Service.sealValue, Service.encryptWithDEK,
    newEnvelope_ok random.dek.2, Service.encryptDEK, wrapped]
  rfl

theorem Consistent.step (consistent : process.Consistent aead) (call : Service.Call) :
    (process.step aead.toAead call).Consistent aead := by
  have nonempty := consistent.numbers.nonempty
  cases call with
  | sealValue random plaintext =>
    simp only [Process.step, consistent.sealValue_eq]
    refine ⟨consistent.numbers, consistent.active, consistent.legacy, ?_⟩
    intro value listed
    rcases List.mem_append.mp listed with earlier | latest
    · exact consistent.values value earlier
    · obtain rfl := List.mem_singleton.mp latest
      exact ⟨consistent.activeKey.1, _, _, _, random.dek.2, rfl, rfl⟩
  | rotateMasterKey newMasterKey =>
    simp only [Process.step]
    split
    · exact consistent
    · rename_i version service rotated
      have addition : ∃ ring, process.service.ring.addKey process.service.nextVersion
          newMasterKey = .ok ring ∧ service = ⟨ring⟩ := by
        cases added : process.service.ring.addKey process.service.nextVersion newMasterKey with
        | error err => rw [Service.rotateMasterKey, added] at rotated; cases rotated
        | ok ring =>
          rw [Service.rotateMasterKey, added] at rotated
          cases rotated
          exact ⟨ring, rfl, rfl⟩
      obtain ⟨ring, added, rfl⟩ := addition
      obtain ⟨-, size, -, -, active, legacy⟩ := KeyRing.addKey_ok added
      have free : process.masterKeys.length < 255 := by
        by_contra full
        have bound := consistent.numbers.bound
        rw [consistent.numbers.addKey_full newMasterKey (by omega)] at added
        cases added
      obtain ⟨later, result, numbers⟩ := consistent.numbers.addKey_ok size free
      rw [added, Except.ok.injEq] at result
      subst result
      refine ⟨numbers, ?_, ?_, fun value listed => (consistent.values value listed).append _⟩
      · rw [active, consistent.numbers.nextVersion_eq, List.length_append, List.length_singleton]
      · rw [legacy, List.length_append, List.length_singleton, eq_comm, decide_eq_false_iff_not]
        omega

/-- A process started on one master key. -/
def start (service : Service) (masterKey : Bytes) : Process :=
  ⟨service, [masterKey], []⟩

theorem start_consistent (aead : IdealAead) {service : Service} {masterKey : Bytes}
    (started : newService masterKey = .ok service) :
    (start service masterKey).Consistent aead := by
  have size : masterKey.length = 32 := by
    by_contra size
    rw [newService, newKeyRing, dif_neg size] at started
    cases started
  obtain ⟨ring, creation, numbers, active, legacy⟩ := newKeyRing_numbers size
  rw [newService, creation] at started
  cases started
  exact ⟨numbers, active, legacy, by simp [start]⟩

theorem openValue_payload {ring : KeyRing} {dek dekEnc : Bytes} (dataNonce : Nonce)
    (plaintext : Bytes) (opened : ring.decryptDEK aead.toAead dekEnc = .ok dek) :
    Service.openValue aead.toAead ⟨ring⟩ (aead.payload dek dataNonce plaintext) dekEnc =
      .ok plaintext := by
  have size := KeyRing.decryptDEK_size opened
  have opens := (Envelope.decrypt_ok_iff ⟨dek, size⟩).mpr
    (aead.open_payload dataNonce plaintext size)
  simp only [Service.openValue, Service.decryptDEK, Service.decryptWithDEK, opened, bind,
    Except.bind, if_neg (not_not.mpr size), pure, Except.pure, newEnvelope_ok size, opens]

/-- In a ring that numbers other keys, or the same keys in another order, a value
opens exactly if it carries no version or its version still names its key. -/
theorem Holds.openValue_iff {ring : KeyRing} {masterKeys renumbered : List Bytes}
    {value : SealedValue} (holds : Holds aead masterKeys value)
    (numbers : ring.Numbers renumbered) (known : value.masterKey ∈ renumbered)
    (inside : value.rotations < renumbered.length) :
    Service.openValue aead.toAead ⟨ring⟩ value.ciphertext value.dekEnc = .ok value.plaintext ↔
      value.rotations = 0 ∨ renumbered[value.rotations]? = some value.masterKey := by
  obtain ⟨-, dek, dataNonce, dekNonce, size, ciphertext, dekEnc⟩ := holds
  have bound := numbers.bound
  have version := @KeyRing.Numbers.lookup_succ _ _ numbers value.rotations (by omega)
  rw [ciphertext, dekEnc]
  by_cases unversioned : value.rotations = 0
  · obtain ⟨position, listed⟩ := List.mem_iff_getElem?.mp known
    have small : position < renumbered.length := (List.getElem?_eq_some_iff.mp listed).1
    rw [← numbers.lookup_succ (by omega)] at listed
    rw [if_pos unversioned]
    simp only [unversioned, true_or, iff_true]
    exact openValue_payload dataNonce _ (KeyRing.decryptDEK_payload dekNonce listed size)
  · rw [if_neg unversioned, or_iff_right unversioned]
    constructor
    · intro opened
      rw [List.getElem?_eq_getElem inside] at version ⊢
      by_contra different
      obtain ⟨err, failed⟩ := @KeyRing.decryptDEK_otherKey aead _ _ dek _ _ dekNonce
        (numbers.size known) version (fun same => different (congrArg some same))
      simp [Service.openValue, Service.decryptDEK, failed, bind, Except.bind] at opened
    · intro same
      rw [same] at version
      exact openValue_payload dataNonce _ (KeyRing.decryptDEK_versioned dekNonce version size)

/-- After a restart every sealed value opens to its plaintext. -/
def SurvivesRestart (aead : Aead) (newest : Bytes) (previous : List Bytes)
    (values : List SealedValue) : Prop :=
  ∃ service, loadMasterKeys newest previous = .ok service ∧ ∀ value ∈ values,
    service.openValue aead value.ciphertext value.dekEnc = .ok value.plaintext

instance (aead : Aead) (newest : Bytes) (previous : List Bytes) (values : List SealedValue) :
    Decidable (SurvivesRestart aead newest previous values) :=
  match loading : loadMasterKeys newest previous with
  | .error _ => isFalse fun ⟨_, loaded, _⟩ => by rw [loading] at loaded; cases loaded
  | .ok service =>
    decidable_of_iff (∀ value ∈ values,
        service.openValue aead value.ciphertext value.dekEnc = .ok value.plaintext)
      ⟨fun opens => ⟨service, loading, opens⟩, fun ⟨_, loaded, opens⟩ => by
        rw [loading, Except.ok.injEq] at loaded; subst loaded; exact opens⟩

/-- A restart with the newest key and the earlier ones in some order opens
everything exactly if each value sealed after the first rotation finds its master
key at the position in the list of previous keys that gives it its old version. -/
theorem survivesRestart_iff (aead : IdealAead) (masterKey : Bytes) (service : Service)
    (started : newService masterKey = .ok service) (calls : List Service.Call)
    (earlier : List Bytes) (newest : Bytes) (previous : List Bytes)
    (keys : (run (step aead.toAead) (start service masterKey) calls).masterKeys =
      earlier ++ [newest])
    (supplied : previous.Perm earlier) :
    SurvivesRestart aead.toAead newest previous
        (run (step aead.toAead) (start service masterKey) calls).sealedValues ↔
      ∀ value ∈ (run (step aead.toAead) (start service masterKey) calls).sealedValues,
        value.rotations = 0 ∨ previous[value.rotations - 1]? = some value.masterKey := by
  have consistent : (run (step aead.toAead) (start service masterKey) calls).Consistent aead :=
    run_invariant (fun _ call consistent => consistent.step call) calls
      (start_consistent aead started)
  generalize run (step aead.toAead) (start service masterKey) calls = process at *
  have renumbered : (newest :: previous).Perm process.masterKeys := by
    rw [keys]
    exact (supplied.cons newest).trans (List.perm_append_singleton newest earlier).symm
  have bound := consistent.numbers.bound
  obtain ⟨ring, loading, numbers⟩ := @loadMasterKeys_ok newest previous
    (fun key listed => consistent.numbers.size (renumbered.mem_iff.mp listed))
    (by rw [← List.length_cons, renumbered.length_eq]; exact bound)
  have opens : ∀ value ∈ process.sealedValues,
      (Service.openValue aead.toAead ⟨ring⟩ value.ciphertext value.dekEnc = .ok value.plaintext ↔
        value.rotations = 0 ∨ previous[value.rotations - 1]? = some value.masterKey) := by
    intro value listed
    have holds := consistent.values value listed
    have inside := (List.getElem?_eq_some_iff.mp holds.1).1
    rw [holds.openValue_iff numbers
      (renumbered.mem_iff.mpr (List.mem_of_getElem? holds.1)) (renumbered.length_eq ▸ inside)]
    refine or_congr_right' fun rotated => ?_
    rw [List.getElem?_cons, if_neg rotated]
  constructor
  · rintro ⟨restarted, loaded, all⟩ value listed
    rw [loading, Except.ok.injEq] at loaded
    subst loaded
    exact (opens value listed).mp (all value listed)
  · intro positions
    exact ⟨⟨ring⟩, loading, fun value listed => (opens value listed).mpr (positions value listed)⟩

/-- Rotate from the key of ones to the key of twos. -/
def rotateOnce : Service.Call :=
  .rotateMasterKey (List.replicate 32 2)

def sealHi : Service.Call :=
  .sealValue
    ⟨⟨List.replicate 32 3, rfl⟩, ⟨List.replicate 12 4, rfl⟩, ⟨List.replicate 12 5, rfl⟩⟩ [104, 105]

/-- What was sealed before the only rotation survives the restart. -/
theorem survivesRestart_sealed_first : ∃ service,
    newService (List.replicate 32 1) = .ok service ∧
      SurvivesRestart Aead.doubling (List.replicate 32 2) [List.replicate 32 1]
        (run (step Aead.doubling) (start service (List.replicate 32 1))
          [sealHi, rotateOnce]).sealedValues :=
  ⟨_, rfl, (survivesRestart_iff .doubling (List.replicate 32 1) _ rfl [sealHi, rotateOnce]
    [List.replicate 32 1] (List.replicate 32 2) [List.replicate 32 1] (by decide) (.refl _)).mpr
      (by decide)⟩

/-- What was sealed after the rotation does not: version 2 now names the old key. -/
theorem restart_loses_value : ∃ service,
    newService (List.replicate 32 1) = .ok service ∧
      (run (step Aead.doubling) (start service (List.replicate 32 1))
        [rotateOnce, sealHi]).masterKeys = [List.replicate 32 1] ++ [List.replicate 32 2] ∧
      ¬ SurvivesRestart Aead.doubling (List.replicate 32 2) [List.replicate 32 1]
        (run (step Aead.doubling) (start service (List.replicate 32 1))
          [rotateOnce, sealHi]).sealedValues :=
  ⟨_, rfl, by decide, by decide +kernel⟩

end Process

end KnxVault.Crypto
