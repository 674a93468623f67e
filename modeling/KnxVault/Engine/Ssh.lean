import KnxVault.Engine.Lease
import KnxVault.Tenant.Context

/-!
# The SSH credentials engine

`internal/engine/secrets/ssh`: issuing, renewing and revoking the leases of SSH user
certificates. A renewal signs the stored user key again with the key of the
certificate authority, which is itself a stored secret.
-/

namespace KnxVault.Engine

open KnxVault.Std KnxVault.Domain KnxVault.Repository

structure CertOptions where
  keyID : String
  principals : List String
  validAfter : Time
  validBefore : Time
  extensions : StringMap

/-- Key parsing and signing. Keys are named by their PEM text. -/
structure SshSigning where
  parseUserSigner : String → Except String Unit
  parseCAPrivateKey : String → Except String Unit
  signUserCertificate : (caKey userKey : String) → CertOptions → Except String String
  duration : Int → String

structure SshEngine where
  lib : Library
  crypto : LeaseCrypto
  signing : SshSigning

def Ssh.engineName : String := "ssh"

namespace SshEngine

open LeaseProgram Ssh

structure CredsResult where
  leaseID : String
  username : String
  privateKey : String
  signedKey : String
  role : String
  ttlSeconds : Int
  maxTTL : Int
  expiresAt : Time
  warnings : List String

variable (engine : SshEngine)

/-- The key of the certificate authority. -/
def loadCASigner (path : String) : LeaseProgram String := do
  let latest ← wrapping .validation "read ssh ca key from kv" (getLatest path)
  let data ← lift (engine.crypto.openFields "decrypt ssh ca key" "unmarshal ssh ca key" latest)
  let text := fun key => (textField data key).getD ""
  let keyPEM := if trimSpace (text "private_key") = "" then text "private_key_pem"
    else text "private_key"
  if trimSpace keyPEM = "" then fail .validation "ssh ca key must include private_key"
  else
    lift ((engine.signing.parseCAPrivateKey keyPEM).mapError
      (wrapCause .validation "invalid ssh ca private key"))
    pure keyPEM

structure CredsRequest where
  role : String
  username : String := ""
  ttlSecond : Int := 0
  tokenID : String := ""
  tenant : String := ""
  tenantMode : Bool := false

/-- A new user key of a type and a text of random bits, or the errors of their source. -/
structure IssueDraws where
  leaseGen : Except GoError String
  generateUserKeyPEM : String → Except String String

/-- The user to certify: the one asked for, or the one that the role leaves. -/
def resolveUsername (role : SSHRole) (requested : String) : Except GoError String :=
  let username := orText (trimSpace requested) role.defaultUser
  let username := match role.allowedUsers with
    | [only] => orText username only
    | _ => username
  if username = "" then refuse .validation "username is required"
  else if !role.allowedUser username then
    refuse .validation ("username " ++ quoted username ++ " not allowed by role")
  else .ok username

def generateCredentials (req : CredsRequest) (draws : IssueDraws) : LeaseProgram CredsResult := do
  if req.role = "" then fail .validation "role is required"
  else
    let role := (← getSSHRole req.role).normalize
    let tuning := LeaseTuning.fromSSHRole role
    checkMaxLeases engineName req.role tuning
    let username ← lift (resolveUsername role req.username)
    let ttlSeconds ← lift
      ((tuning.resolveIssueTTL req.ttlSecond).mapError (wrapCause .validation "invalid ttl"))
    let caKey ← engine.loadCASigner role.caKeyPath
    let privateKey ← lift
      ((draws.generateUserKeyPEM role.keyType).mapError (wrapCause .internal "generate ssh key"))
    let now := (← now).utc
    let expiresAt := now.add (seconds ttlSeconds)
    let signedKey ← lift ((engine.signing.signUserCertificate caKey privateKey {
      keyID := req.role ++ "-" ++ username
      principals := [username]
      validAfter := now.add (-seconds 30)
      validBefore := expiresAt
      extensions := role.extensions.getD ∅ }).mapError
        (wrapCause .internal "sign ssh certificate"))
    let generated ← lift
      (draws.leaseGen.mapError fun err => wrapCause .internal "generate lease id" err.text)
    let leaseID := if req.tenantMode then Tenant.scopeLeaseID req.tenant generated true
      else generated
    let lease : Lease := {
      id := leaseID
      path := "ssh/creds/" ++ (req.role ++ "/" ++ leaseID)
      roleName := req.role
      engine := engineName
      ttlSeconds, expiresAt
      createdAt := now
      renewable := tuning.renewable
      tokenID := req.tokenID }
    engine.crypto.storeSecret engine.lib lease.path leaseID ttlSeconds expiresAt
      (textFields [("username", username), ("private_key", privateKey),
        ("signed_key", signedKey), ("lease_id", leaseID), ("role", req.role)])
    saveNewLease lease
    pure {
      leaseID, username, privateKey, signedKey, ttlSeconds, expiresAt
      role := req.role
      maxTTL := tuning.maxTTL
      warnings := leaseWarnings engine.signing.duration now expiresAt ttlSeconds }

def renew (leaseID : String) (ttlSeconds : Int) : LeaseProgram CredsResult := do
  let lease ← getLease leaseID
  if lease.engine ≠ engineName then fail .validation "lease is not an ssh lease"
  else
    let now := (← now).utc
    if !lease.active now then fail .notFound "lease is not active"
    else if !lease.renewable then fail .validation "lease is not renewable"
    else
      let role ← getSSHRole lease.roleName
      let tuning := LeaseTuning.fromSSHRole role
      let ttlSeconds := tuning.resolveRenewTTL ttlSeconds lease.ttlSeconds now
      let latest ← getLatest lease.path
      let data ← lift
        (engine.crypto.openFields "decrypt credentials" "unmarshal credentials" latest)
      let username := (textField data "username").getD ""
      let privateKey := (textField data "private_key").getD ""
      lift ((engine.signing.parseUserSigner privateKey).mapError
        (wrapCause .internal "parse stored private key"))
      let caKey ← engine.loadCASigner role.caKeyPath
      let expiresAt := now.add (seconds ttlSeconds)
      let signedKey ← lift ((engine.signing.signUserCertificate caKey privateKey {
        keyID := lease.roleName ++ "-" ++ username
        principals := [username]
        validAfter := now.add (-seconds 30)
        validBefore := expiresAt
        extensions := role.extensions.getD ∅ }).mapError
          (wrapCause .internal "re-sign ssh certificate"))
      -- the whole lease is written back, as it was read
      saveLease { lease with ttlSeconds, expiresAt }
      engine.crypto.storeSecret engine.lib lease.path leaseID ttlSeconds expiresAt
        (data.insert "signed_key" (.string signedKey))
      pure {
        leaseID, username, privateKey, signedKey, ttlSeconds, expiresAt
        role := lease.roleName
        maxTTL := tuning.maxTTL
        warnings := leaseWarnings engine.signing.duration now expiresAt ttlSeconds }

def revokeLease (leaseID : String) : LeaseProgram Unit := do
  let lease ← getLease leaseID
  if lease.engine ≠ engineName then fail .validation "lease is not an ssh lease"
  else
    let now := (← now).utc
    if lease.revokedAt.isSome then pure ()
    else
      markRevoked leaseID now
      destroySecret lease.path

/-- Renew the SSH leases that expire within the grace period. The source returns how
many. -/
def renewExpiring (grace limit : Int) : LeaseProgram (List String) := do
  let now := (← now).utc
  let leases ← listLeases
  renewEach (fun lease => engine.renew lease.id lease.ttlSeconds)
    (fun lease => lease.engine ≠ engineName || !lease.active now || !lease.renewable ||
      lease.expiresAt.after (now.add grace))
    (if limit ≤ 0 then 50 else limit) [] leases

/-- Revoke expired SSH leases. The source returns how many. -/
def cleanupExpired (limit : Int) : LeaseProgram (List String × Option GoError) := do
  let now := (← now).utc
  let expired ← listExpired now (if limit ≤ 0 then 50 else limit)
  revokeEach Lease.id (fun lease => revokeLease lease.id)
    (fun lease => lease.engine ≠ engineName) ([], none) expired

end SshEngine

end KnxVault.Engine
