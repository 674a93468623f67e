import KnxVault.Engine.Lease
import KnxVault.Tenant.Context

/-!
# The database credentials engine

`internal/engine/secrets/database`: issuing, renewing and revoking the leases of
database users, one at a time and in the background jobs. Statements are rendered from the
templates of the role; in managed mode the engine runs them itself.
-/

namespace KnxVault.Engine

open KnxVault.Std KnxVault.Domain KnxVault.Repository

/-- The URL and time formats of the standard library. -/
structure DatabaseFormats where
  connectionURL : (username password host : String) → (port : Int) → (database sslMode : String) →
    String
  expiration : Time → String
  duration : Int → String

/-- `hasRunner` tells whether a SQL runner is configured. -/
structure DatabaseEngine where
  lib : Library
  crypto : LeaseCrypto
  formats : DatabaseFormats
  hasRunner : Bool

namespace Database

def engineName : String := "database"

/-! ### Statements -/

/-- The first of some fields that is a text and not blank. -/
def settingOr (config : Fields) (keys : List String) (default : String) : String :=
  ((keys.filterMap fun key => (textField config key).map trimSpace).find? (· ≠ "")).getD default

def databaseFromConfig (config : Fields) : String :=
  settingOr config ["database_name", "database", "db_name"] "postgres"

def schemaFromConfig (config : Fields) : String := settingOr config ["schema"] "public"

def sslModeFromConfig (config : Fields) : String := settingOr config ["ssl_mode"] "require"

def escapePostgresLiteral (value : String) : String := replaceAll [("'", "''")] value

def quotePostgresIdent (ident : String) : String :=
  "\"" ++ replaceAll [("\"", "\"\"")] (trimSpace ident) ++ "\""

def renderStatementsForRole (formats : DatabaseFormats) (templates : List String)
    (role : DatabaseRole) (username password : String) (expiresAt : Time) : List String :=
  templates.map (replaceAll [
    ("\x7b\x7busername\x7d\x7d", username),
    ("\x7b\x7bpassword\x7d\x7d", escapePostgresLiteral password),
    ("\x7b\x7bname\x7d\x7d", username),
    ("\x7b\x7bdatabase\x7d\x7d", quotePostgresIdent (databaseFromConfig role.config)),
    ("\x7b\x7bschema\x7d\x7d", quotePostgresIdent (schemaFromConfig role.config)),
    ("\x7b\x7bexpiration\x7d\x7d", formats.expiration expiresAt.utc)])

def buildConnectionURL (formats : DatabaseFormats) (data config : Fields) :
    Except String String := do
  let text := fun key => trimSpace ((textField data key).getD "")
  if text "connection_url" ≠ "" then pure (text "connection_url")
  else
    let database := if text "database" = "" then databaseFromConfig config else text "database"
    if text "host" = "" then .error "admin credentials require connection_url or host"
    else if text "username" = "" then
      .error "admin credentials require connection_url or username"
    else
      let port ← readPort ((textField data "port").getD "")
      pure (formats.connectionURL (text "username") (text "password") (text "host") port database
        (sslModeFromConfig config))
where
  readPort (text : String) : Except String Int :=
    if text = "" then .ok 5432
    else match atoi (trimSpace text) with
      | .ok port => if 0 < port then .ok port else .error ("invalid port " ++ quoted text)
      | .error _ => .error ("invalid port " ++ quoted text)

/-- Letters, digits and the underscore. -/
def plainChar (char : Char) : Bool :=
  ('a' ≤ char && char ≤ 'z') || ('A' ≤ char && char ≤ 'Z') || ('0' ≤ char && char ≤ '9') ||
    char = '_'

def safePostgresUsername (username : String) : Bool :=
  match username.toList with
  | [] => false
  | first :: rest =>
    username.utf8ByteSize ≤ 63 && plainChar first &&
      rest.all fun char => plainChar char || char = '-'

/-- The user of a lease. `suffix` is a text of random bits. -/
def generateUsername (role : DatabaseRole) (suffix : Except GoError String) :
    Except GoError String := do
  if role.defaultUsername ≠ "" then
    if !safePostgresUsername role.defaultUsername then
      .error { text := "default_username must be a safe SQL identifier" }
    else pure role.defaultUsername
  else
    let name := role.usernamePrefix ++ role.name ++ "-" ++ (← suffix)
    if safePostgresUsername name then pure name
    else pure (String.ofList (name.toList.filter fun char => plainChar char || char = '-'))

end Database

namespace DatabaseEngine

open LeaseProgram Database

structure CredsResult where
  leaseID : String
  username : String
  password : String
  role : String
  ttlSeconds : Int
  maxTTL : Int
  expiresAt : Time
  statements : List String
  warnings : List String

/-- The statements that the client has to run. -/
structure RevokeResult where
  revocationStatements : List String := []

variable (engine : DatabaseEngine)

def renew (leaseID : String) (ttlSeconds : Int) : LeaseProgram CredsResult := do
  let lease ← getLease leaseID
  let now := (← now).utc
  if !lease.active now then fail .notFound "lease is not active"
  else if !lease.renewable then fail .validation "lease is not renewable"
  else
    let role ← getDatabaseRole lease.roleName
    let tuning := LeaseTuning.fromDatabaseRole role
    let ttlSeconds := tuning.resolveRenewTTL ttlSeconds lease.ttlSeconds now
    let latest ← getLatest lease.path
    let data ← lift
      (engine.crypto.openFields "decrypt credentials" "unmarshal credentials" latest)
    let expiresAt := now.add (seconds ttlSeconds)
    -- the whole lease is written back, as it was read
    saveLease { lease with ttlSeconds, expiresAt }
    engine.crypto.storeSecret engine.lib lease.path leaseID ttlSeconds expiresAt data
    let username := (textField data "username").getD ""
    let password := (textField data "password").getD ""
    pure {
      leaseID, username, password, ttlSeconds, expiresAt
      role := lease.roleName
      maxTTL := tuning.maxTTL
      statements := renderStatementsForRole engine.formats role.creationStatements role username
        password expiresAt
      warnings := leaseWarnings engine.formats.duration now expiresAt ttlSeconds }

/-- The stored user and password, blank if they cannot be read. -/
def storedCredentials (path : String) : LeaseProgram (String × String) := do
  match ← (getLatest path).outcome with
  | .error _ => pure ("", "")
  | .ok latest =>
    match engine.crypto.openFields "decrypt credentials" "unmarshal credentials" latest with
    | .error _ => pure ("", "")
    | .ok data => pure ((textField data "username").getD "", (textField data "password").getD "")

def adminConnectionURL (role : DatabaseRole) : LeaseProgram String := do
  if role.adminCredentialsPath = "" then
    fail .validation "admin_credentials_path is required for managed mode"
  else
    let latest ← wrapping .validation "read admin credentials from kv"
      (getLatest role.adminCredentialsPath)
    let data ← lift (engine.crypto.openFields "decrypt admin credentials"
      "unmarshal admin credentials" latest)
    lift ((buildConnectionURL engine.formats data role.config).mapError
      (wrapCause .validation "admin credentials"))

structure CredsRequest where
  role : String
  ttlSecond : Int := 0
  tokenID : String := ""
  tenant : String := ""
  tenantMode : Bool := false

/-- Texts of random bits, or the error of their source. -/
structure IssueDraws where
  leaseGen : Except GoError String
  suffix : Except GoError String
  password : Except GoError String

/-- Run the creation statements of a managed role. If they fail, the lease is taken back. -/
def runCreation (role : DatabaseRole) (lease : Lease) (statements : List String) :
    LeaseProgram Unit := do
  let connURL ← engine.adminConnectionURL role
  if !engine.hasRunner then fail .internal "sql runner not configured"
  else
    match ← (execStatements connURL statements).outcome with
    | .ok _ => pure ()
    | .error err =>
      let _ ← (destroySecret lease.path).outcome
      let _ ← (markRevoked lease.id lease.createdAt).outcome
      throw (wrapCause .internal "execute creation statements" err.text)

/-- What is left of the issue once the lease is saved. -/
def finishIssue (role : DatabaseRole) (lease : Lease) (username password : String) (maxTTL : Int) :
    LeaseProgram CredsResult := do
  let statements := renderStatementsForRole engine.formats role.creationStatements role username
    password lease.expiresAt
  let _ ← (if role.executionMode = executionModeManaged then
      engine.runCreation role lease statements
    else pure ())
  pure {
    leaseID := lease.id
    username, password, maxTTL, statements
    role := lease.roleName
    ttlSeconds := lease.ttlSeconds
    expiresAt := lease.expiresAt
    warnings := leaseWarnings engine.formats.duration lease.createdAt lease.expiresAt
      lease.ttlSeconds }

def generateCredentials (req : CredsRequest) (draws : IssueDraws) : LeaseProgram CredsResult := do
  if req.role = "" then fail .validation "role is required"
  else
    let role := (← getDatabaseRole req.role).normalize
    let tuning := LeaseTuning.fromDatabaseRole role
    checkMaxLeases engineName req.role tuning
    let ttlSeconds ← lift
      ((tuning.resolveIssueTTL req.ttlSecond).mapError (wrapCause .validation "invalid ttl"))
    let generated ← lift
      (draws.leaseGen.mapError fun err => wrapCause .internal "generate lease id" err.text)
    let leaseID := if req.tenantMode then Tenant.scopeLeaseID req.tenant generated true
      else generated
    let username ← lift (generateUsername role draws.suffix)
    let password ← lift draws.password
    let now := (← now).utc
    let expiresAt := now.add (seconds ttlSeconds)
    let lease : Lease := {
      id := leaseID
      path := "database/creds/" ++ (req.role ++ "/" ++ leaseID)
      roleName := req.role
      engine := engineName
      ttlSeconds, expiresAt
      createdAt := now
      renewable := tuning.renewable
      tokenID := req.tokenID }
    engine.crypto.storeSecret engine.lib lease.path leaseID ttlSeconds expiresAt
      (textFields [("username", username), ("password", password), ("lease_id", leaseID),
        ("role", req.role)])
    saveNewLease lease
    engine.finishIssue role lease username password tuning.maxTTL

/-- Run the revocation statements of a managed role. -/
def runRevocation (role : DatabaseRole) (statements : List String) : LeaseProgram Unit := do
  if statements = [] then pure ()
  else
    let connURL ← wrapping .internal "managed revoke: admin credentials"
      (engine.adminConnectionURL role)
    if !engine.hasRunner then fail .internal "sql runner not configured"
    else
      wrapping .internal "managed revoke: execute revocation statements"
        (execStatements connURL statements)

def revokeLease (leaseID : String) : LeaseProgram RevokeResult := do
  let lease ← getLease leaseID
  let now := (← now).utc
  if lease.revokedAt.isSome then pure {}
  else
    let (username, password) ← engine.storedCredentials lease.path
    let role ← (getDatabaseRole lease.roleName).outcome
    let statements := match role with
      | .ok role =>
        if username = "" then []
        else renderStatementsForRole engine.formats role.revocationStatements role username
          password now
      | .error _ => []
    markRevoked leaseID now
    let managed := role.toOption.filter fun role => role.executionMode = executionModeManaged
    match managed with
    | some role => engine.runRevocation role statements
    | none => pure ()
    destroySecret lease.path
    pure { revocationStatements := if managed.isSome then [] else statements }

/-- Renew the leases, of any engine, that expire within the grace period. The source
returns how many. -/
def renewExpiring (grace limit : Int) : LeaseProgram (List String) := do
  let now := (← now).utc
  let leases ← listLeases
  renewEach (fun lease => engine.renew lease.id lease.ttlSeconds)
    (fun lease => !lease.active now || !lease.renewable || lease.expiresAt.after (now.add grace))
    (if limit ≤ 0 then 50 else limit) [] leases

/-- Revoke expired leases. The source returns how many. -/
def cleanupExpired (limit : Int) : LeaseProgram (List String × Option GoError) := do
  let now := (← now).utc
  let expired ← listExpired now limit
  revokeEach Lease.id (fun lease => engine.revokeLease lease.id)
    (fun lease => lease.engine ≠ engineName) ([], none) expired

end DatabaseEngine

end KnxVault.Engine
