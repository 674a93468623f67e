import KnxVault.Engine.Lease
import KnxVault.Tenant.Context

/-!
# Rotation of key-value secrets

`internal/service/rotation.go`. A policy names the path that it rotates. Policies are
stored under a path with the tenant of the caller in front; a rotation gives the stored
path to the secrets service, which again puts the tenant of its caller in front. A call
is a program over the repositories, of which every operation is atomic. The audit
records, the webhook and the cache of the secrets service are left out, and so is the
version that a rotation reads for its audit record.
-/

namespace KnxVault.Rotation

open KnxVault.Std KnxVault.Domain KnxVault.Crypto KnxVault.Repository KnxVault.Engine

/-! ### Policies -/

/-- The difference of two times as a duration, which is cut to 64 bits. -/
def since (time earlier : Time) : Int :=
  max (-2 ^ 63) (min (2 ^ 63 - 1) (time.instant - earlier.instant))

def due (policy : RotationPolicy) (now : Time) : Bool :=
  policy.enabled &&
    (policy.lastRotatedAt.isZero || seconds policy.interval ≤ since now policy.lastRotatedAt)

/-- `password` is a text of random bytes, or the error of their source. -/
def generateRotationValue (password : Except String String) (generator : String) :
    Except GoError Fields :=
  if generator = generatorRandomPassword then
    match password with
    | .ok text => .ok (textFields [("password", text)])
    | .error err => .error { text := "generate password: " ++ err }
  else if generator = generatorScriptRef then
    .error { text := "script_ref generator not supported in-process" }
  else .error { text := "unknown generator " ++ quoted generator }

/-! ### The shared repositories -/

structure RotationStores where
  policies : RotationPolicyRepository
  secrets : SecretRepository

/-- A policy is saved in two places: where it is put, and where it is rotated. -/
inductive RotationOp where
  | savePolicy (policy : RotationPolicy)
  | saveRotated (policy : RotationPolicy)
  | getPolicy (path : String)
  | listPolicies
  | deletePolicy (path : String)
  | putAtomic (write : SecretWrite)

namespace RotationOp

abbrev Answer : RotationOp → Type
  | savePolicy _ | saveRotated _ | deletePolicy _ => Except GoError Unit
  | getPolicy _ => Except GoError RotationPolicy
  | listPolicies => List RotationPolicy
  | putAtomic _ => Except GoError Int

/-- Change the policies, or fail and leave them. -/
def changePolicies (stores : RotationStores)
    (changed : Except KNXVaultError RotationPolicyRepository) :
    Except GoError Unit × RotationStores :=
  attempt (do
    let policies ← changed.mapError KNXVaultError.asGoError
    pure { stores with policies }) stores

def exec (range : MapRange) : (op : RotationOp) → RotationStores → op.Answer × RotationStores
  | savePolicy policy, stores | saveRotated policy, stores =>
    changePolicies stores (stores.policies.save policy)
  | getPolicy path, stores => ((stores.policies.get path).mapError KNXVaultError.asGoError, stores)
  | listPolicies, stores => (stores.policies.list range, stores)
  | deletePolicy path, stores => changePolicies stores (stores.policies.delete path)
  | putAtomic write, stores =>
    match stores.secrets.putAtomic range write.secret write.casVersion write.maxVersions with
    | .ok (secrets, version) => (.ok version, { stores with secrets })
    | .error err => (.error err.asGoError, stores)

end RotationOp

/-- A call of the service. -/
abbrev RotationProgram := Fallible RotationOp RotationOp.Answer GoError

namespace RotationProgram

def savePolicy (policy : RotationPolicy) : RotationProgram Unit :=
  ExceptT.mk (.perform (RotationOp.savePolicy policy))

def saveRotated (policy : RotationPolicy) : RotationProgram Unit :=
  ExceptT.mk (.perform (RotationOp.saveRotated policy))

def getPolicy (path : String) : RotationProgram RotationPolicy :=
  ExceptT.mk (.perform (RotationOp.getPolicy path))

def listPolicies : RotationProgram (List RotationPolicy) :=
  Fallible.perform RotationOp.listPolicies

def deletePolicy (path : String) : RotationProgram Unit :=
  ExceptT.mk (.perform (RotationOp.deletePolicy path))

def putAtomic (write : SecretWrite) : RotationProgram Int :=
  ExceptT.mk (.perform (RotationOp.putAtomic write))

end RotationProgram

/-! ### The service -/

/-- What a rotation takes from outside: the new password, what its secret is sealed with,
and the clock at its end. -/
structure RotationDraw where
  password : Except String String
  sealing : (Time × NewUuid) × SealRandom
  clock : Time

/-- The secrets service, as far as a rotation uses it. -/
structure SecretsService where
  lib : Library
  aead : Aead
  crypto : Service
  parseTTL : String → Except String Int
  tenantMode : Bool

namespace SecretsService

variable (service : SecretsService) (tenant : String)

def scopePath (path : String) : Except GoError String :=
  if !service.tenantMode then .ok path
  else if tenant = "" then refuse .validation "tenant namespace required"
  else
    let stored := Tenant.scopePath tenant path true
    if !Tenant.validateAccess tenant stored true then refuse .notFound "secret not found"
    else .ok stored

/-- The version that the engine makes of the data. -/
def sealed (draw : RotationDraw) (path : String) (data : Fields) : Except GoError SecretWrite :=
  KVV2Engine.put service.lib service.aead service.crypto
    { now := draw.sealing.1.1, newUUID := fun _ => draw.sealing.1.2, range := MapRange.sorted }
    draw.sealing.2 service.parseTTL path data {}

def put (draw : RotationDraw) (path : String) (data : Fields) : RotationProgram Int := do
  let path ← Fallible.ofExcept (service.scopePath tenant path)
  let write ← Fallible.ofExcept (service.sealed draw path data)
  RotationProgram.putAtomic write

end SecretsService

/-- What a run of the due rotations reports; the source returns how many were rotated. -/
structure RunReport where
  rotated : List String := []
  errs : List GoError := []

namespace RotationService

open RotationProgram

variable (secrets : SecretsService) (tenant : String)

def putPolicy (policy : RotationPolicy) : RotationProgram Unit := do
  let path ← Fallible.ofExcept (secrets.scopePath tenant policy.path)
  savePolicy { policy with enabled := true, path }

def deletePolicy (path : String) : RotationProgram Unit := do
  let path ← Fallible.ofExcept (secrets.scopePath tenant path)
  RotationProgram.deletePolicy path

/-- The path is taken as it is. -/
def getPolicy (path : String) : RotationProgram RotationPolicy := RotationProgram.getPolicy path

def rotatePath (draw : RotationDraw) (policy : RotationPolicy) : RotationProgram Unit := do
  let data ← Fallible.ofExcept (generateRotationValue draw.password policy.generator)
  let _ ← secrets.put tenant draw policy.path data
  -- the whole policy is written back, as it was read
  (saveRotated { policy with lastRotatedAt := draw.clock.utc }).adapt fun err =>
    { err with text := "save rotation policy: " ++ err.text }

def rotateEach (rotate : RotationPolicy → RotationProgram Unit) (report : RunReport) :
    List RotationPolicy → RotationProgram RunReport
  | [] => pure report
  | policy :: policies => do
    match ← (rotate policy).outcome with
    | .ok _ => rotateEach rotate { report with rotated := report.rotated ++ [policy.path] } policies
    | .error err =>
      let err := { err with text := policy.path ++ ": " ++ err.text }
      rotateEach rotate { report with errs := report.errs ++ [err] } policies

/-- Rotate the policies that are due; each takes its own draw. -/
def runDue (draws : String → RotationDraw) (now : Time) : RotationProgram RunReport := do
  let policies ← listPolicies
  rotateEach (fun policy => rotatePath secrets tenant (draws policy.path) policy) {}
    (policies.filter (due · now))

/-- The rotation that a report of an exposed secret asks for. -/
def reportExposure (draw : RotationDraw) (path : String) : RotationProgram Unit := do
  let policy ← getPolicy path
  rotatePath secrets tenant draw policy

end RotationService

end KnxVault.Rotation
