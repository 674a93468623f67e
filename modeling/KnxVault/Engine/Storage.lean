import KnxVault.Crypto.Service
import KnxVault.Repository.Versions

/-!
# Engines that store sealed secrets

The write paths of the key-value, cubbyhole, wrapping, database and SSH engines.
Each checks its request, seals the payload under a fresh data encryption key and
passes the record to `PutAtomic`. The functions here go up to that call, so that
a record can be on its way while the master key is rotated.
-/

namespace KnxVault.Engine

open KnxVault.Std KnxVault.Domain KnxVault.Crypto

/-- The arguments of `PutAtomic`, which allocates the version. -/
structure SecretWrite where
  secret : SecretVersion
  casVersion : Option Int := none
  maxVersions : Int

def refuse {α : Type} (code : ErrorCode) (message : String) : Except GoError α :=
  .error (KNXVaultError.asGoError { code, message })

/-- A typed error around the text of its cause. -/
def wrapCause (code : ErrorCode) (message cause : String) : GoError :=
  KNXVaultError.asGoError { code, message, cause := some cause }

/-- The bytes of the JSON text of an object. -/
def jsonBytes (lib : Library) (data : Fields) : Bytes :=
  (utf8Bytes (lib.marshalFields data)).map UInt8.toBitVec

section Writers

variable (lib : Library) (aead : Aead) (service : Service) (env : Env) (random : SealRandom)

/-- A record with the payload sealed in it. -/
def sealSecret (report : String → GoError) (path : String) (payload : Bytes) :
    Except GoError SecretVersion :=
  match service.sealValue aead random payload with
  | .error err => .error (report err)
  | .ok (dataEnc, dekEnc) =>
    .ok { id := (env.newUUID 0).1, path, version := 0, dataEnc, dekEnc
          createdAt := env.now.utc }

/-! ### Key-value secrets -/

def reservedKVPathPrefixes : List String :=
  ["cubbyhole/", "sys/wrapping/", "sys/internal/", "database/creds/", "ssh/creds/",
    "transit/keys/"]

def rejectReservedKVPath (path : String) : Except GoError Unit :=
  let lower := trimPrefix (String.ofList ((trimSpace path).toList.map lib.toLower)) "/"
  if lower = "" then .ok ()
  else if reservedKVPathPrefixes.any fun reserved =>
      lower = trimSuffix reserved "/" || hasPrefix lower reserved then
    refuse .forbidden "path is reserved for an internal engine"
  else .ok ()

structure PutOptions where
  ttl : String := ""
  casVersion : Option Int := none
  maxVersions : Int := 0
  labels : StringMap := ∅

def defaultMaxVersions : Int := 10

/-- The record with the lifetime that the options ask for. -/
def withTTL (parseTTL : String → Except String Int) (ttl : String) (secret : SecretVersion) :
    Except GoError SecretVersion :=
  if ttl = "" then .ok secret
  else match parseTTL ttl with
    | .error err => .error (wrapCause .validation "invalid ttl" err)
    | .ok duration =>
      .ok { secret with
        ttlSeconds := some (duration.tdiv nanosecondsPerSecond)
        expiresAt := some (env.now.utc.add duration) }

def KVV2Engine.put (parseTTL : String → Except String Int) (path : String) (data : Fields)
    (opts : PutOptions) : Except GoError SecretWrite := do
  if path = "" then refuse .validation "secret path is required"
  else
    rejectReservedKVPath lib path
    if data.isEmpty then refuse .validation "secret data is required"
    else
      let secret ← sealSecret aead service env random (wrapCause .internal "encrypt secret data")
        path (jsonBytes lib data)
      let secret ← withTTL env parseTTL opts.ttl { secret with labels := opts.labels }
      pure {
        secret
        casVersion := opts.casVersion
        maxVersions := if opts.maxVersions ≤ 0 then defaultMaxVersions else opts.maxVersions }

/-! ### Cubbyholes -/

namespace Cubbyhole

def pathPrefix : String := "cubbyhole/"

/-- The cleaned relative path. No segment is `.` or `..`, so cleaning only drops
empty segments. -/
def normalizePath (path : String) : Except GoError String :=
  let path := trimPrefix (trimSpace path) "/"
  let segments := (path.toList.splitOn '/').map String.ofList
  if path = "" then refuse .validation "invalid cubbyhole path"
  else if segments.any fun segment => segment = ".." || segment = "." then
    refuse .validation "invalid cubbyhole path"
  else
    let cleaned := "/".intercalate (segments.filter (· ≠ ""))
    if cleaned = "" then refuse .validation "invalid cubbyhole path" else .ok cleaned

def storagePath (tokenID path : String) : Except GoError String := do
  let normalized ← normalizePath path
  pure (pathPrefix ++ (tokenID ++ "/" ++ normalized))

end Cubbyhole

/-! ### Wrapping metadata -/

namespace Wrapping

def wrapMetaPrefix : String := "sys/wrapping/meta/"

end Wrapping

/-! ### Transit keys -/

/-- Where the transit engine keeps its keys. -/
def Transit.keysPrefix : String := "transit/keys/"

/-! ### Leased credentials -/

/-- Store leased credentials; all their versions are kept. -/
def storeCredentials (path leaseID : String) (ttlSeconds : Int) (expiresAt : Time)
    (data : Fields) : Except GoError SecretWrite := do
  let secret ← sealSecret aead service env random (wrapCause .internal "encrypt credentials") path
    (jsonBytes lib data)
  pure {
    secret := { secret with
      leaseID := some leaseID
      ttlSeconds := some ttlSeconds
      expiresAt := some expiresAt }
    maxVersions := 0 }

end Writers

/-! ### What every writer hands over -/

section Plain

variable {lib : Library} {aead : Aead} {service : Service} {env : Env} {random : SealRandom}

theorem sealSecret_ok {report : String → GoError} {path : String} {payload : Bytes}
    {secret : SecretVersion}
    (made : sealSecret aead service env random report path payload = .ok secret) :
    service.sealValue aead random payload = .ok (secret.dataEnc, secret.dekEnc) ∧
      secret.path = path := by
  unfold sealSecret at made
  split at made
  · cases made
  · rename_i result
    cases made
    exact ⟨result, rfl⟩

theorem withTTL_keeps {parseTTL : String → Except String Int} {ttl : String}
    {secret timed : SecretVersion} (made : withTTL env parseTTL ttl secret = .ok timed) :
    timed.dataEnc = secret.dataEnc ∧ timed.dekEnc = secret.dekEnc ∧ timed.path = secret.path := by
  unfold withTTL at made
  split at made
  · cases made
    exact ⟨rfl, rfl, rfl⟩
  · split at made
    · cases made
    · cases made
      exact ⟨rfl, rfl, rfl⟩

/-- What the reserved starts have in common: no trimming and no folding touches them. -/
theorem reservedKVPathPrefixes_plain : ∀ reserved ∈ reservedKVPathPrefixes,
    (∃ first, reserved.toList.head? = some first ∧ isSpace first = false ∧ first ≠ '/') ∧
      reserved.toList.getLast? = some '/' ∧
      ∀ char ∈ reserved.toList, char.toNat < 128 ∧ char.isUpper = false := by
  have checked : ∀ reserved ∈ reservedKVPathPrefixes,
      (reserved.toList.head?.any fun first => !isSpace first && first != '/') = true ∧
        reserved.toList.getLast? = some '/' ∧
        reserved.toList.all (fun char => char.toNat < 128 && !char.isUpper) = true := by
    decide
  intro reserved listed
  obtain ⟨begins, ends, plain⟩ := checked reserved listed
  refine ⟨?_, ends, by simpa using List.all_eq_true.mp plain⟩
  cases head : reserved.toList.head? with
  | none =>
    rw [head] at begins
    cases begins
  | some first =>
    rw [head] at begins
    exact ⟨first, rfl, by simpa using begins⟩

/-- A path that is accepted starts with no reserved text. -/
theorem hasPrefix_of_rejectReservedKVPath {path reserved : String}
    (listed : reserved ∈ reservedKVPathPrefixes)
    (accepted : rejectReservedKVPath lib path = .ok ()) : hasPrefix path reserved = false := by
  obtain ⟨⟨first, begins, unspaced, unslashed⟩, ends, plain⟩ :=
    reservedKVPathPrefixes_plain reserved listed
  rw [Bool.eq_false_iff]
  intro inside
  obtain ⟨rest, split⟩ := hasPrefix_iff.mp
    (@hasPrefix_trimBoth isSpace path reserved first '/' begins ends unspaced (by decide) inside)
  have fixed : reserved.toList.map lib.toLower = reserved.toList := by
    rw [List.map_congr_left fun char listed =>
      lib.toLower_ascii char (plain char listed).1 (plain char listed).2]
    exact List.map_id' _
  have lower : (trimSpace path).toList.map lib.toLower =
      reserved.toList ++ rest.map lib.toLower := by
    rw [trimSpace, split, List.map_append, fixed]
  generalize rest.map lib.toLower = ending at lower
  have unslashed : trimPrefix (String.ofList (reserved.toList ++ ending)) "/" =
      String.ofList (reserved.toList ++ ending) := by
    rw [trimPrefix, if_neg]
    intro slashed
    obtain ⟨_, heads⟩ := hasPrefix_iff.mp slashed
    rw [String.toList_ofList] at heads
    have heads := congrArg List.head? heads
    rw [List.head?_append, begins] at heads
    exact unslashed (Option.some.inj heads)
  have starts : hasPrefix (String.ofList (reserved.toList ++ ending)) reserved = true :=
    hasPrefix_iff.mpr ⟨ending, String.toList_ofList⟩
  unfold rejectReservedKVPath at accepted
  rw [lower, unslashed] at accepted
  dsimp only at accepted
  rw [if_neg, if_pos] at accepted
  · cases accepted
  · rw [List.any_eq_true]
    exact ⟨reserved, listed, by rw [starts, Bool.or_true]⟩
  · intro empty
    rw [empty] at starts
    obtain ⟨_, nothing⟩ := hasPrefix_iff.mp starts
    have heads := congrArg List.head? nothing
    rw [List.head?_append, begins] at heads
    cases heads

theorem KVV2Engine.put_ok {parseTTL : String → Except String Int} {path : String}
    {data : Fields} {opts : PutOptions} {write : SecretWrite}
    (made : put lib aead service env random parseTTL path data opts = .ok write) :
    rejectReservedKVPath lib path = .ok () ∧ write.secret.path = path ∧
      service.sealValue aead random (jsonBytes lib data) =
        .ok (write.secret.dataEnc, write.secret.dekEnc) := by
  unfold put at made
  split at made
  · cases made
  · obtain ⟨_, accepted, made⟩ := bind_eq_ok made
    split at made
    · cases made
    · obtain ⟨secret, sealedSecret, made⟩ := bind_eq_ok made
      obtain ⟨timed, timing, made⟩ := bind_eq_ok made
      cases made
      obtain ⟨sealing, rfl⟩ := sealSecret_ok sealedSecret
      obtain ⟨data, dek, path⟩ := withTTL_keeps timing
      rw [← data, ← dek] at sealing
      exact ⟨accepted, path, sealing⟩

theorem storeCredentials_ok {path leaseID : String} {ttlSeconds : Int} {expiresAt : Time}
    {data : Fields} {write : SecretWrite}
    (made : storeCredentials lib aead service env random path leaseID ttlSeconds expiresAt data =
      .ok write) :
    write.secret.path = path ∧ write.secret.destroyed = false ∧ write.casVersion = none ∧
      write.maxVersions = 0 := by
  obtain ⟨secret, sealedSecret, made⟩ := bind_eq_ok made
  cases made
  unfold sealSecret at sealedSecret
  split at sealedSecret
  · cases sealedSecret
  · cases sealedSecret
    exact ⟨rfl, rfl, rfl, rfl⟩

end Plain

end KnxVault.Engine
