import KnxVault.Repository.Auth
import KnxVault.Repository.Pki
import KnxVault.Repository.Secrets

/-!
# Snapshots of the repositories

The records of `internal/backup/snapshot.go`, the conversions of `convert.go` and
`Export`. A record keeps only some fields of what it is made from.
-/

namespace KnxVault.Backup

open KnxVault.Std KnxVault.Domain KnxVault.Repository

structure CARecord where
  id : Uuid
  parentID : Option Uuid
  name : String
  type : CAType
  commonName : String
  serial : String
  certPEM : String
  privateKeyEnc : Bytes
  dekEnc : Bytes
  status : CAStatus
  createdAt : Time
  expiresAt : Time
  crlNextUpdate : Option Time

def caFromDomain (ca : CA) : CARecord :=
  { ca with commonName := ca.subject.commonName }

def caToDomain (record : CARecord) : CA :=
  { record with subject := { commonName := record.commonName } }

structure SecretRecord where
  id : Uuid
  path : String
  version : Int
  dataEnc : Bytes
  dekEnc : Bytes
  leaseID : Option String
  ttlSeconds : Option Int
  createdAt : Time
  expiresAt : Option Time
  destroyed : Bool

def secretFromDomain (secret : SecretVersion) : SecretRecord :=
  { secret with }

def secretToDomain (record : SecretRecord) : SecretVersion :=
  { record with }

/-- A record of a revocation has all its fields. -/
abbrev RevokedRecord := RevokedCertificate

/-- A record of a PKI role has all its fields. -/
abbrev PKIRoleRecord := PKIRole

/-- A record of an issued certificate has all its fields. -/
abbrev IssuedCertRecord := IssuedCertificate

structure PolicyRecord where
  name : String
  effect : Effect
  resources : List String
  actions : List String
  conditions : Fields

def policyFromDomain (policy : Policy) : PolicyRecord :=
  { policy with }

def policyToDomain (record : PolicyRecord) : Policy :=
  { record with }

structure RoleRecord where
  name : String
  policies : List String
  boundServiceAccountNames : List String
  boundServiceAccountNamespaces : List String

def roleFromDomain (role : Role) : RoleRecord :=
  { role with }

def roleToDomain (record : RoleRecord) : Role :=
  { record with }

structure SSHRoleRecord where
  name : String
  ttlSeconds : Int
  caKeyPath : String
  allowedUsers : List String
  defaultUser : String
  keyType : String
  extensions : Option StringMap

def sshRoleFromDomain (role : SSHRole) : SSHRoleRecord :=
  { role.normalize with }

def sshRoleToDomain (record : SSHRoleRecord) : SSHRole :=
  SSHRole.normalize { record with }

structure DatabaseRoleRecord where
  name : String
  ttlSeconds : Int
  usernamePrefix : String
  defaultUsername : String
  creationStatements : List String
  revocationStatements : List String
  executionMode : String
  adminCredentialsPath : String
  config : Fields

def databaseRoleFromDomain (role : DatabaseRole) : DatabaseRoleRecord :=
  { role.normalize with }

def databaseRoleToDomain (record : DatabaseRoleRecord) : DatabaseRole :=
  DatabaseRole.normalize { record with }

structure LeaseRecord where
  id : String
  path : String
  roleName : String
  engine : String
  ttlSeconds : Int
  createdAt : Time
  expiresAt : Time
  revokedAt : Option Time
  renewable : Bool

def leaseFromDomain (lease : Lease) : LeaseRecord :=
  { lease with }

def leaseToDomain (record : LeaseRecord) : Lease :=
  { record with }

structure TokenRecord where
  id : String
  subject : String
  policies : List String
  expiresAt : Time
  renewable : Bool
  revoked : Bool

def tokenFromDomain (token : ClientToken) : TokenRecord :=
  { token with }

def tokenToDomain (record : TokenRecord) : ClientToken :=
  { record with }

def auditFromDomain (entry : Entry) : AuditRecord :=
  { entry with }

def auditToDomain (record : AuditRecord) : Entry :=
  { record with }

def formatVersion : Int := 1

structure Snapshot where
  version : Int := formatVersion
  createdAt : Time := {}
  cas : List CARecord := []
  secrets : List SecretRecord := []
  revoked : List RevokedRecord := []
  policies : List PolicyRecord := []
  roles : List RoleRecord := []
  pkiRoles : List PKIRoleRecord := []
  dbRoles : List DatabaseRoleRecord := []
  sshRoles : List SSHRoleRecord := []
  leases : List LeaseRecord := []
  issued : List IssuedCertRecord := []
  audit : List AuditRecord := []
  tokens : List TokenRecord := []

/-- Extensions as they come back from JSON text, where empty ones are left out. -/
def decodedExtensions (extensions : Option StringMap) : Option StringMap :=
  extensions.filter fun entries => !entries.isEmpty

def SSHRoleRecord.decoded (record : SSHRoleRecord) : SSHRoleRecord :=
  { record with extensions := decodedExtensions record.extensions }

/-- A snapshot as it comes back from its JSON text. -/
def Snapshot.decoded (snapshot : Snapshot) : Snapshot :=
  { snapshot with sshRoles := snapshot.sshRoles.map SSHRoleRecord.decoded }

/-- The repositories that are exported and restored. -/
structure Repos (lib : Library) where
  ca : CARepository
  secret : SecretRepository
  audit : AuditRepository
  revoke : RevocationRepository
  lease : LeaseRepository
  policy : PolicyRepository
  role : RoleRepository
  pkiRole : PKIRoleRepository
  dbRole : DatabaseRoleRepository lib
  sshRole : SSHRoleRepository
  issuedCert : IssuedCertRepository
  token : TokenRepository

/-- What clearing all repositories leaves. -/
def Repos.empty {lib : Library} : Repos lib where
  ca := .empty
  secret := .empty
  audit := .empty
  revoke := .empty
  lease := .empty
  policy := .empty
  role := .empty
  pkiRole := .empty
  dbRole := .empty
  sshRole := .empty
  issuedCert := .empty
  token := .empty

structure ExportOptions where
  includeAudit : Bool := false
  auditLimit : Int := 0
deriving DecidableEq, Repr

/-- The exported part of the audit log: the earliest entries, in order of time;
`none` if listing them panics. -/
def exportAudit (repo : AuditRepository) (opts : ExportOptions) : Option (List Entry) :=
  if opts.includeAudit then
    repo.list { limit := if opts.auditLimit ≤ 0 then 10000 else opts.auditLimit, orderAsc := true }
  else some []

/-- The snapshot of the repositories with some entries of the log. -/
def snapshotOf {lib : Library} (env : Env) (repos : Repos lib) (entries : List Entry) :
    Snapshot :=
  let cas := repos.ca.list env.range
  { createdAt := env.now.utc
    cas := cas.map caFromDomain
    secrets := (repos.secret.listByPath env.range "").map secretFromDomain
    revoked := cas.flatMap fun ca => repos.revoke.listByCA ca.id
    policies := (repos.policy.list env.range).map policyFromDomain
    roles := (repos.role.list env.range).map roleFromDomain
    pkiRoles := repos.pkiRole.list env.range
    dbRoles := (repos.dbRole.list env.range).map databaseRoleFromDomain
    sshRoles := (repos.sshRole.list env.range).map sshRoleFromDomain
    leases := (repos.lease.list env.range).map leaseFromDomain
    issued := repos.issuedCert.list env.range
    audit := entries.map auditFromDomain
    tokens := (repos.token.list env.range).map tokenFromDomain }

def exportRepos {lib : Library} (env : Env) (repos : Repos lib) (opts : ExportOptions) :
    Option Snapshot :=
  (exportAudit repos.audit opts).map (snapshotOf env repos)

end KnxVault.Backup
