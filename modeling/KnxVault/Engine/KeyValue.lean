import KnxVault.Engine.Storage

/-!
# Reading, listing and destroying key-value secrets

The operations of `internal/engine/secrets/kvv2.go` besides `Put`. Reading a
payload decodes the JSON text that `Put` sealed; the decoder is a parameter.
-/

namespace KnxVault.Engine

open KnxVault.Std KnxVault.Domain KnxVault.Crypto KnxVault.Repository

structure GetResult where
  data : Fields
  version : Int
  createdAt : Time
  ttl : String := ""
  labels : StringMap := ∅

structure VersionMetadata where
  version : Int
  createdAt : Time
  destroyed : Bool
  ttl : String := ""
deriving DecidableEq, Repr

structure PathMetadata where
  path : String
  currentVersion : Int
  versions : List VersionMetadata
  maxVersions : Int
  labels : StringMap := ∅

/-- The lifetime as it is shown, empty if there is none. -/
def ttlText (secret : SecretVersion) : String :=
  match secret.ttlSeconds with
  | some seconds => toString seconds ++ "s"
  | none => ""

namespace KVV2Engine

variable (lib : Library) (range : MapRange)

/-- Open what is stored, unless it is destroyed or expired. -/
def openSecret (aead : Aead) (service : Service) (unmarshal : Bytes → Except String Fields)
    (now : Time) (secret : SecretVersion) : Except GoError GetResult :=
  if secret.destroyed then refuse .notFound "secret version destroyed"
  else if secret.expiresAt.any now.utc.after then refuse .notFound "secret version expired"
  else match service.openValue aead secret.dataEnc secret.dekEnc with
    | .error err => .error (wrapCause .internal "decrypt secret data" err)
    | .ok plain =>
      match unmarshal plain with
      | .error err => .error (wrapCause .internal "unmarshal secret data" err)
      | .ok data =>
        .ok { data, version := secret.version, createdAt := secret.createdAt
              ttl := ttlText secret, labels := secret.labels }

/-- Version zero stands for the latest. -/
def getVersion (aead : Aead) (service : Service) (unmarshal : Bytes → Except String Fields)
    (now : Time) (repo : SecretRepository) (path : String) (version : Int) :
    Except GoError GetResult := do
  rejectReservedKVPath lib path
  let secret ← (if version ≤ 0 then repo.getLatest range path
    else repo.getVersion path version).mapError KNXVaultError.asGoError
  openSecret aead service unmarshal now secret

def destroyVersion (repo : SecretRepository) (path : String) (version : Int) :
    Except GoError SecretRepository := do
  if path = "" ∨ version < 1 then refuse .validation "path and version are required"
  else
    rejectReservedKVPath lib path
    (repo.destroyVersion path version).mapError KNXVaultError.asGoError

/-- The paths that start so and are not reserved, each once. -/
def listPaths (repo : SecretRepository) (pathPrefix : String) : Except GoError (List String) := do
  rejectReservedKVPath lib pathPrefix
  let paths := (repo.listByPath range pathPrefix).map SecretVersion.path
  pure (paths.filter fun path => (rejectReservedKVPath lib path).isOk).eraseDups

def listVersions (repo : SecretRepository) (path : String) :
    Except GoError (List VersionMetadata) := do
  rejectReservedKVPath lib path
  let versions := (repo.listByPath range path).filter fun secret => secret.path = path
  if versions = [] then refuse .notFound "secret path not found"
  else pure (versions.map fun secret =>
    { version := secret.version, createdAt := secret.createdAt, destroyed := secret.destroyed
      ttl := ttlText secret })

/-- The greatest version that is not destroyed, or zero. -/
def currentVersion (versions : List VersionMetadata) : Int :=
  versions.foldl (fun current listed =>
    if current < listed.version ∧ ¬ listed.destroyed then listed.version else current) 0

def getMetadata (repo : SecretRepository) (path : String) (version : Int) :
    Except GoError PathMetadata := do
  let versions ← listVersions lib range repo path
  if 0 < version ∧ ¬ versions.any fun listed => listed.version = version then
    refuse .notFound "secret version not found"
  else
    let target := if 0 < version then version else currentVersion versions
    let labels : StringMap :=
      if 0 < target then
        match repo.getVersion path target with
        | .ok secret => secret.labels
        | .error _ => ∅
      else ∅
    pure { path, currentVersion := currentVersion versions, versions
           maxVersions := defaultMaxVersions, labels }

/-- The labels of a path are those of a stored version. -/
theorem labels_of_getMetadata {lib : Library} {range : MapRange} {repo : SecretRepository}
    {path : String} {version : Int} {entry : PathMetadata}
    (unlabelled : ∀ key secret, repo.find key = some secret → secret.labels = ∅)
    (described : getMetadata lib range repo path version = .ok entry) : entry.labels = ∅ := by
  obtain ⟨versions, -, described⟩ := bind_eq_ok described
  split at described
  · cases described
  cases described
  generalize (if 0 < version then version else currentVersion versions) = target
  dsimp only
  split
  · split
    · rename_i secret found
      exact unlabelled _ _ (getRow_ok_iff.mp found)
    · rfl
  · rfl

/-- Destroy the latest version. -/
def delete (repo : SecretRepository) (path : String) : Except GoError SecretRepository := do
  rejectReservedKVPath lib path
  let latest ← (repo.getLatest range path).mapError KNXVaultError.asGoError
  (repo.destroyVersion path latest.version).mapError KNXVaultError.asGoError

end KVV2Engine

end KnxVault.Engine
