import KnxVault.Engine.Shared

/-!
# Reading and deleting cubbyholes

`Get`, `Delete` and `WipeToken` of `internal/engine/secrets/cubbyhole/engine.go`. The programs take
as an argument how an operation on the shared secrets is performed, so that every
system of nodes can run them.
-/

namespace KnxVault.Engine.Cubbyhole

open KnxVault.Std KnxVault.Domain KnxVault.Crypto KnxVault.Repository

/-- Open a stored entry; the JSON decoder is a parameter. -/
def openData (aead : Aead) (service : Service) (unmarshal : Bytes → Except String Fields)
    (secret : SecretVersion) : Except GoError Fields :=
  match service.openValue aead secret.dataEnc secret.dekEnc with
  | .error err => .error (wrapCause .internal "decrypt" err)
  | .ok plain => (unmarshal plain).mapError (wrapCause .internal "unmarshal")

variable {Op : Type} {Answer : Op → Type}
  (secrets : (op : SecretOp) → Program Op Answer op.Answer)

def get (aead : Aead) (service : Service) (unmarshal : Bytes → Except String Fields)
    (tokenID path : String) : Fallible Op Answer GoError Fields := do
  if tokenID = "" then Fallible.ofExcept (refuse .unauthorized "token id required")
  else
    let stored ← Fallible.ofExcept (storagePath tokenID path)
    let secret ← ExceptT.mk (secrets (.getLatest stored))
    Fallible.ofExcept (openData aead service unmarshal secret)

/-- Destroy the listed versions that were not seen before; the first error is kept. -/
def wipeEach (seen : List (String × Int)) (first : Option GoError) :
    List SecretVersion → Program Op Answer (Option GoError)
  | [] => pure first
  | secret :: listed =>
    if (secret.path, secret.version) ∈ seen then wipeEach seen first listed
    else do
      match ← secrets (.destroyVersion secret.path secret.version) with
      | .ok () => wipeEach ((secret.path, secret.version) :: seen) first listed
      | .error err =>
        wipeEach ((secret.path, secret.version) :: seen) (first <|> some err) listed

def wipeToken (tokenID : String) : Fallible Op Answer GoError Unit := do
  if tokenID = "" then pure ()
  else
    let listed ← ExceptT.lift (secrets (.listByPath (pathPrefix ++ (tokenID ++ "/"))))
    match ← ExceptT.lift (wipeEach secrets [] none listed) with
    | none => pure ()
    | some err => throw err

end KnxVault.Engine.Cubbyhole
