import KnxVault.Engine.Storage
import KnxVault.Repository.Pki

/-!
# Storing certificate authorities

`CreateRoot` and `CreateIntermediate` of `internal/engine/pki`, up to the call that
saves the authority. What the certificate backend makes is an argument.
-/

namespace KnxVault.Engine.Pki

open KnxVault.Std KnxVault.Domain KnxVault.Crypto KnxVault.Repository

/-- A certificate with its key, and what its fields say. -/
structure Generated where
  certPEM : String
  keyPEM : Bytes
  serial : String
  expiresAt : Time

section Writers

variable (aead : Aead) (service : Service) (env : Env) (random : SealRandom)

/-- A new active authority with its key sealed in it. -/
def newCA (failure : String) (name commonName : String) (type : CAType) (parentID : Option Uuid)
    (generated : Generated) : Except GoError CA :=
  match service.sealValue aead random generated.keyPEM with
  | .error err => .error (wrapCause .internal failure err)
  | .ok (privateKeyEnc, dekEnc) =>
    .ok {
      id := (env.newUUID 0).1
      parentID
      name
      type
      subject := { commonName }
      serial := generated.serial
      certPEM := generated.certPEM
      privateKeyEnc
      dekEnc
      status := .active
      createdAt := env.now.utc
      expiresAt := generated.expiresAt }

/-- Create a self-signed root; `backend` is the outcome of reading the TTL, making
the certificate and reading it back. -/
def createRoot (name commonName : String) (backend : Except GoError Generated) :
    Except GoError CA := do
  let generated ← backend
  newCA aead service env random "encrypt root key" name commonName .root none generated

def decryptKey (keyEnc dekEnc : Bytes) : Except GoError Bytes :=
  (service.openValue aead keyEnc dekEnc).mapError (wrapCause .internal "decrypt private key")

/-- Create an authority signed by a stored one with the parent's key. -/
def createIntermediate (cas : CARepository) (parentName name commonName : String)
    (parseTTL : Except GoError Unit) (backend : CA → Bytes → Except GoError Generated) :
    Except GoError CA := do
  let parent ← (cas.getByName env.range parentName).mapError KNXVaultError.asGoError
  parseTTL
  let parentKey ← decryptKey aead service parent.privateKeyEnc parent.dekEnc
  let generated ← backend parent parentKey
  newCA aead service env random "encrypt intermediate key" name commonName .intermediate
    (some parent.id) generated

end Writers

/-- A root to run the model with. -/
def sampleCA : CA :=
  (createRoot .doubling .sample (.sample 1) .sample "ca" "ca"
    (.ok ⟨"CA", [5], "1", ⟨1, 0⟩⟩)).toOption.get (by decide)

def sampleCAs : CARepository := (CARepository.empty.save sampleCA).toOption.get (by decide)

end KnxVault.Engine.Pki
