import KnxVault.Backup.Restore
import KnxVault.Std.Run

/-!
# The replicated store

The store of `internal/raft/store.go`, its commands and their handlers. A command
is modelled after its payload is decoded; a payload that cannot be decoded is
`Command.malformed`. What a handler takes from its surroundings (clock, random
source, order of map loops) is the `Env` argument.
-/

namespace KnxVault.Raft

open KnxVault.Std KnxVault.Domain KnxVault.Repository KnxVault.Backup

structure Store (lib : Library) extends Repos lib where
  machineIdentity : MachineIdentityRepository
  rotationPolicy : RotationPolicyRepository

def Store.new (lib : Library) : Store lib where
  toRepos := .empty
  machineIdentity := .empty
  rotationPolicy := .empty

/-- The commands that only read. -/
inductive Query where
  | caGetByID (id : Uuid)
  | caGetByName (name : String)
  | caList
  | secretGetLatest (path : String)
  | secretGetVersion (path : String) (version : Int)
  | secretListByPath (pathPrefix : String)
  | secretNextVersion (path : String)
  | pkiRoleGet (name : String)
  | pkiRoleList
  | auditList (opts : AuditListOptions)
  | auditLatestHash
  | revokeIs (serial : String)
  | revokeListByCA (caID : Uuid)
  | leaseGet (id : String)
  | leaseList
  | leaseListExpired (before : Time) (limit : Int)
  | leaseCountActive
  | policyGet (name : String)
  | policyList
  | roleGet (name : String)
  | roleList
  | dbRoleGet (name : String)
  | dbRoleList
  | sshRoleGet (name : String)
  | sshRoleList
  | issuedGetBySerial (caID : Uuid) (serial : String)
  | issuedList
  | issuedListExpiring (before : Time) (limit : Int)
  | exportSnapshot (includeAudit : Bool)
  | tokenGet (id : String)
  | tokenList
  | tokenListExpired (before : Time) (limit : Int)
  | machineIdentityGet (id : String)
  | machineIdentityList
  | rotationPolicyGet (path : String)
  | rotationPolicyList

/-- The commands that change the store. -/
inductive Write where
  | caSave (ca : CA)
  | secretSaveVersion (secret : SecretVersion)
  | secretPut (secret : SecretVersion) (casVersion : Option Int) (maxVersions : Int)
  | secretDestroyVer (path : String) (version : Int)
  | secretUpdateDEKEnc (path : String) (version : Int) (dekEnc : Bytes)
  | pkiRoleSave (role : PKIRole)
  | auditAppend (entry : Entry)
  | revoke (cert : RevokedCertificate)
  | leaseSave (lease : Lease)
  | leaseRevoke (id : String) (revokedAt : Time)
  | policySave (policy : Policy)
  | policyDelete (name : String)
  | roleSave (role : Role)
  | roleDelete (name : String)
  | dbRoleSave (role : DatabaseRole)
  | dbRoleDelete (name : String)
  | sshRoleSave (role : SSHRole)
  | sshRoleDelete (name : String)
  | issuedSave (cert : IssuedCertificate)
  | importSnapshot (snapshot : Snapshot)
  | tokenSave (token : ClientToken)
  | tokenRevoke (id : String) (revokedAt : Time)
  | machineIdentitySave (identity : MachineIdentity)
  | machineIdentityRevoke (id : String)
  | rotationPolicySave (policy : RotationPolicy)
  | rotationPolicyDelete (path : String)

/-- A command whose payload is decoded. A payload that cannot be decoded carries
the decoder's error. -/
inductive Command where
  | query (query : Query)
  | write (write : Write)
  | malformed (readOnly : Bool) (error : String)
  | unknown

/-- The data of a response. -/
inductive Data where
  | ca (ca : CA)
  | cas (cas : List CA)
  | secret (secret : SecretVersion)
  | secrets (secrets : List SecretVersion)
  | number (number : Int)
  | pkiRole (role : PKIRole)
  | pkiRoles (roles : List PKIRole)
  | entry (entry : Entry)
  | entries (entries : List Entry)
  | text (text : String)
  | flag (flag : Bool)
  | revoked (certs : List RevokedCertificate)
  | lease (lease : Lease)
  | leases (leases : List Lease)
  | policy (policy : Policy)
  | policies (policies : List Policy)
  | role (role : Role)
  | roles (roles : List Role)
  | dbRole (role : DatabaseRole)
  | dbRoles (roles : List DatabaseRole)
  | sshRole (role : SSHRole)
  | sshRoles (roles : List SSHRole)
  | cert (cert : IssuedCertificate)
  | certs (certs : List IssuedCertificate)
  | snapshot (snapshot : Snapshot)
  | token (token : ClientToken)
  | tokens (tokens : List ClientToken)
  | identity (identity : MachineIdentity)
  | identities (identities : List MachineIdentity)
  | rotationPolicy (policy : RotationPolicy)
  | rotationPolicies (policies : List RotationPolicy)

inductive Response where
  | error (code : ErrorCode) (message : String)
  | ok (data : Option Data)
  /-- The handler panicked. -/
  | panicked

/-- A typed error keeps its code and message, any other its text. -/
def encodeResponse : Except GoError (Option Data) → Response
  | .ok data => .ok data
  | .error err =>
    match err.coded with
    | some (code, message) => .error code message
    | none => .error .internal err.text

variable {lib : Library}

/-- The response to reading one record. -/
def reply {Row : Type} (wrap : Row → Data) (result : Except KNXVaultError Row) : Response :=
  encodeResponse ((result.map fun row => some (wrap row)).mapError KNXVaultError.asGoError)

namespace Store

def exportSnapshot (env : Env) (store : Store lib) (includeAudit : Bool) : Option Snapshot :=
  exportRepos env store.toRepos { includeAudit }

/-- Replace everything by the snapshot; an error leaves the store as it is. -/
def importSnapshot (env : Env) (snapshot : Snapshot) : Except GoError (Store lib) :=
  match validateSnapshot lib snapshot with
  | .error text => .error { text }
  | .ok _ =>
    match restore env (Repos.empty : Repos lib) snapshot with
    | .ok repos => .ok { Store.new lib with toRepos := repos }
    | .error (err, _) => .error err

/-- Answer a query. -/
def answer (env : Env) (store : Store lib) : Query → Response
  | .caGetByID id => reply .ca (store.ca.getByID id)
  | .caGetByName name => reply .ca (store.ca.getByName env.range name)
  | .caList => .ok (some (.cas (store.ca.list env.range)))
  | .secretGetLatest path => reply .secret (store.secret.getLatest env.range path)
  | .secretGetVersion path version => reply .secret (store.secret.getVersion path version)
  | .secretListByPath pathPrefix =>
    .ok (some (.secrets (store.secret.listByPath env.range pathPrefix)))
  | .secretNextVersion path => .ok (some (.number (store.secret.nextVersion env.range path)))
  | .pkiRoleGet name => reply .pkiRole (store.pkiRole.get name)
  | .pkiRoleList => .ok (some (.pkiRoles (store.pkiRole.list env.range)))
  | .auditList opts =>
    match store.audit.list opts with
    | some entries => .ok (some (.entries entries))
    | none => .panicked
  | .auditLatestHash => .ok (some (.text store.audit.latestHash))
  | .revokeIs serial => .ok (some (.flag (store.revoke.isRevoked serial)))
  | .revokeListByCA caID => .ok (some (.revoked (store.revoke.listByCA caID)))
  | .leaseGet id => reply .lease (store.lease.get id)
  | .leaseList => .ok (some (.leases (store.lease.list env.range)))
  | .leaseListExpired before limit =>
    .ok (some (.leases (store.lease.listExpired env.range before limit)))
  | .leaseCountActive =>
    .ok (some (.number (store.lease.countActive env.range env.now.utc)))
  | .policyGet name => reply .policy (store.policy.getByName name)
  | .policyList => .ok (some (.policies (store.policy.list env.range)))
  | .roleGet name => reply .role (store.role.get name)
  | .roleList => .ok (some (.roles (store.role.list env.range)))
  | .dbRoleGet name => reply .dbRole (store.dbRole.get name)
  | .dbRoleList => .ok (some (.dbRoles (store.dbRole.list env.range)))
  | .sshRoleGet name => reply .sshRole (store.sshRole.get name)
  | .sshRoleList => .ok (some (.sshRoles (store.sshRole.list env.range)))
  | .issuedGetBySerial caID serial => reply .cert (store.issuedCert.getBySerial caID serial)
  | .issuedList => .ok (some (.certs (store.issuedCert.list env.range)))
  | .issuedListExpiring before limit =>
    .ok (some (.certs (store.issuedCert.listExpiring env.range before limit)))
  | .exportSnapshot includeAudit =>
    match store.exportSnapshot env includeAudit with
    | some snapshot => .ok (some (.snapshot snapshot))
    | none => .panicked
  | .tokenGet id => reply .token (store.token.get id)
  | .tokenList => .ok (some (.tokens (store.token.list env.range)))
  | .tokenListExpired before limit =>
    .ok (some (.tokens (store.token.listExpired env.range before limit)))
  | .machineIdentityGet id => reply .identity (store.machineIdentity.get id)
  | .machineIdentityList => .ok (some (.identities (store.machineIdentity.list env.range)))
  | .rotationPolicyGet path => reply .rotationPolicy (store.rotationPolicy.get path)
  | .rotationPolicyList => .ok (some (.rotationPolicies (store.rotationPolicy.list env.range)))

end Store

/-- The result of a repository as that of the store, without data. -/
def changed {Repo : Type} (put : Repo → Store lib) :
    Except KNXVaultError Repo → Except GoError (Store lib × Option Data)
  | .ok repo => .ok (put repo, none)
  | .error err => .error err.asGoError

/-- The result of a repository as that of the store, with data. -/
def changedWith {Repo Row : Type} (put : Repo → Store lib) (wrap : Row → Data) :
    Except KNXVaultError (Repo × Row) → Except GoError (Store lib × Option Data)
  | .ok (repo, row) => .ok (put repo, some (wrap row))
  | .error err => .error err.asGoError

namespace Store

/-- The role needs a stored authority; the response is the role with its usage set. -/
def savePKIRole (env : Env) (store : Store lib) (role : PKIRole) :
    Except KNXVaultError (PKIRoleRepository × PKIRole) := do
  let _ ← store.ca.getByName env.range role.caName
  let saved ← store.pkiRole.save role
  pure (saved, role.normalize)

/-- The entry as it is appended: with a time and with the next hash of the chain. -/
def stampEntry (env : Env) (store : Store lib) (entry : Entry) : Entry :=
  let timestamp := if entry.timestamp.isZero then env.now.utc else entry.timestamp
  { entry with
    timestamp
    hash := entryHash lib store.audit.latestHash entry.actor entry.action entry.resource
      entry.status entry.details timestamp }

/-- Execute a command that changes the store. -/
def execute (env : Env) (store : Store lib) : Write → Except GoError (Store lib × Option Data)
  | .caSave ca => changed (fun ca => { store with ca }) (store.ca.save ca)
  | .secretSaveVersion secret =>
    changed (fun secret => { store with secret }) (store.secret.saveVersion secret)
  | .secretPut secret casVersion maxVersions =>
    changedWith (fun secret => { store with secret }) .number
      (store.secret.putAtomic env.range secret casVersion maxVersions)
  | .secretDestroyVer path version =>
    changed (fun secret => { store with secret }) (store.secret.destroyVersion path version)
  | .secretUpdateDEKEnc path version dekEnc =>
    changed (fun secret => { store with secret }) (store.secret.updateDEKEnc path version dekEnc)
  | .pkiRoleSave role =>
    changedWith (fun pkiRole => { store with pkiRole }) .pkiRole (store.savePKIRole env role)
  | .auditAppend entry =>
    changedWith (fun audit => { store with audit }) .entry
      (store.audit.append (store.stampEntry env entry))
  | .revoke cert => .ok ({ store with revoke := store.revoke.revoke cert }, none)
  | .leaseSave lease => changed (fun lease => { store with lease }) (store.lease.save lease)
  | .leaseRevoke id revokedAt =>
    changed (fun lease => { store with lease }) (store.lease.revoke id revokedAt)
  | .policySave policy =>
    changedWith (fun policy => { store with policy }) .policy
      (store.policy.save (env.newUUID 0) policy)
  | .policyDelete name => changed (fun policy => { store with policy }) (store.policy.delete name)
  | .roleSave role => changed (fun role => { store with role }) (store.role.save role)
  | .roleDelete name => changed (fun role => { store with role }) (store.role.delete name)
  | .dbRoleSave role =>
    changed (fun dbRole => { store with dbRole }) (store.dbRole.save env.range role)
  | .dbRoleDelete name => changed (fun dbRole => { store with dbRole }) (store.dbRole.delete name)
  | .sshRoleSave role => changed (fun sshRole => { store with sshRole }) (store.sshRole.save role)
  | .sshRoleDelete name =>
    changed (fun sshRole => { store with sshRole }) (store.sshRole.delete name)
  | .issuedSave cert =>
    changed (fun issuedCert => { store with issuedCert }) (store.issuedCert.save cert)
  | .importSnapshot snapshot => (importSnapshot env snapshot).map fun later => (later, none)
  | .tokenSave token => changed (fun token => { store with token }) (store.token.save token)
  | .tokenRevoke id revokedAt =>
    changed (fun token => { store with token }) (store.token.revoke id revokedAt)
  | .machineIdentitySave identity =>
    changed (fun machineIdentity => { store with machineIdentity })
      (store.machineIdentity.save identity)
  | .machineIdentityRevoke id =>
    changed (fun machineIdentity => { store with machineIdentity })
      (store.machineIdentity.revoke id)
  | .rotationPolicySave policy =>
    changed (fun rotationPolicy => { store with rotationPolicy })
      (store.rotationPolicy.save policy)
  | .rotationPolicyDelete path =>
    changed (fun rotationPolicy => { store with rotationPolicy })
      (store.rotationPolicy.delete path)

/-- Execute any command. A command that fails leaves the store as it is. -/
def handle (env : Env) (store : Store lib) : Command → Store lib × Response
  | .query query => (store, store.answer env query)
  | .write write =>
    match store.execute env write with
    | .ok (later, data) => (later, .ok data)
    | .error err => (store, encodeResponse (.error err))
  | .malformed _ error => (store, encodeResponse (.error { text := error }))
  | .unknown => (store, .error .validation "unknown raft command")

/-- Execute a command on the read path. -/
def lookup (env : Env) (store : Store lib) : Command → Response
  | .query query => store.answer env query
  | .malformed true error => encodeResponse (.error { text := error })
  | _ => .error .validation "write command not allowed on read path"

/-- Apply an entry of the log. An entry that is no command at all is an error of
the state machine. -/
def update (env : Env) (store : Store lib) :
    Except String Command → Store lib × Except String Response
  | .error text => (store, .error text)
  | .ok cmd => ((store.handle env cmd).1, .ok (store.handle env cmd).2)

/-- The store after an entry of the log, applied in its own surroundings. -/
def apply (store : Store lib) (input : Env × Except String Command) : Store lib :=
  (store.update input.1 input.2).1

/-- The responses given while a log is applied. -/
def responses (store : Store lib) (inputs : List (Env × Except String Command)) :
    List (Except String Response) :=
  outputs apply (fun store input => (store.update input.1 input.2).2) store inputs

end Store

end KnxVault.Raft
