import KnxVault.Domain.Sql

/-!
# Secret versions, credential roles, leases and rotation policies

The types and checks of `internal/domain/secrets`. Checking a credential role
first sets its defaults; `normalize` is that part.
-/

namespace KnxVault.Domain

open KnxVault.Std

structure SecretVersion where
  id : Uuid
  path : String
  version : Int
  dataEnc : Bytes
  dekEnc : Bytes
  leaseID : Option String := none
  ttlSeconds : Option Int := none
  createdAt : Time := {}
  expiresAt : Option Time := none
  destroyed : Bool := false
  labels : StringMap := ∅

def SecretVersion.validate (secret : SecretVersion) : Except String Unit :=
  if secret.id = 0 then .error "secret id is required"
  else if secret.path = "" then .error "secret path is required"
  else if secret.version < 1 then .error "secret version must be >= 1"
  else if secret.dataEnc = [] ∨ secret.dekEnc = [] then
    .error "encrypted payload and dek are required"
  else .ok ()

theorem SecretVersion.required {secret : SecretVersion} (valid : secret.validate = .ok ()) :
    secret.path ≠ "" ∧ 1 ≤ secret.version ∧ secret.dekEnc ≠ [] := by
  unfold validate at valid
  split_ifs at valid with _ path version keys
  exact ⟨path, by omega, fun empty => keys (.inr empty)⟩

structure Lease where
  id : String
  path : String
  roleName : String
  engine : String
  ttlSeconds : Int
  createdAt : Time := {}
  expiresAt : Time
  revokedAt : Option Time := none
  renewable : Bool := false
  tokenID : String := ""
  metadata : StringMap := ∅

def Lease.validate (lease : Lease) : Except String Unit :=
  if lease.id = "" then .error "lease id is required"
  else if lease.path = "" then .error "lease path is required"
  else if lease.roleName = "" then .error "lease role is required"
  else if lease.engine = "" then .error "lease engine is required"
  else if lease.ttlSeconds ≤ 0 then .error "lease ttl must be positive"
  else if lease.expiresAt.isZero then .error "lease expires_at is required"
  else .ok ()

/-- Neither revoked nor expired. -/
def Lease.active (lease : Lease) (now : Time) : Bool :=
  lease.revokedAt.isNone && now.before lease.expiresAt

structure RotationPolicy where
  path : String
  interval : Int
  generator : String
  scriptRef : String := ""
  lastRotatedAt : Time := {}
  enabled : Bool := false
deriving DecidableEq, Repr

def generatorRandomPassword : String := "random_password"

def generatorScriptRef : String := "script_ref"

def RotationPolicy.validate (policy : RotationPolicy) : Except String Unit :=
  if policy.path = "" then .error "rotation path is required"
  else if policy.interval ≤ 0 then .error "rotation interval must be positive"
  else if policy.generator ≠ generatorRandomPassword ∧ policy.generator ≠ generatorScriptRef then
    .error ("invalid rotation generator " ++ quoted policy.generator)
  else if policy.generator = generatorScriptRef ∧ policy.scriptRef = "" then
    .error "script_ref required for script_ref generator"
  else .ok ()

/-! ### SSH roles -/

/-- A role for SSH certificates. Unset extensions differ from empty ones. -/
structure SSHRole where
  name : String
  ttlSeconds : Int := 0
  defaultTTL : Int := 0
  maxTTL : Int := 0
  period : Int := 0
  renewable : Bool := false
  maxLeases : Int := 0
  caKeyPath : String
  allowedUsers : List String := []
  defaultUser : String := ""
  keyType : String := ""
  extensions : Option StringMap := none
  createdAt : Time := {}
  updatedAt : Time := {}

def sshKeyTypeED25519 : String := "ed25519"

def sshKeyTypeRSA : String := "rsa"

/-- A number that is set, or its default. -/
def orDefault (value default : Int) : Int :=
  if value ≤ 0 then default else value

theorem orDefault_of_pos {value : Int} (positive : 0 < value) (default : Int) :
    orDefault value default = value :=
  if_neg (by omega)

theorem orDefault_pos (value : Int) {default : Int} (positive : 0 < default) :
    0 < orDefault value default := by
  unfold orDefault
  split <;> omega

/-- A text that is set, or its default. -/
def orText (value default : String) : String :=
  if value = "" then default else value

theorem orText_orText (value default : String) :
    orText (orText value default) default = orText value default := by
  unfold orText
  split_ifs <;> rfl

namespace SSHRole

def normalize (role : SSHRole) : SSHRole :=
  let ttlSeconds := orDefault role.ttlSeconds 3600
  let defaultTTL := orDefault role.defaultTTL ttlSeconds
  { role with
    ttlSeconds, defaultTTL
    maxTTL := orDefault role.maxTTL defaultTTL
    keyType := orText role.keyType sshKeyTypeED25519
    extensions := some (role.extensions.getD ((∅ : StringMap).insert "permit-pty" "")) }

/-- The checks after the defaults are set. -/
def check (role : SSHRole) : Except String Unit :=
  if role.name = "" then .error "ssh role name is required"
  else if role.ttlSeconds ≤ 0 then .error "ssh role ttl must be positive"
  else if trimSpace role.caKeyPath = "" then .error "ca_key_path is required"
  else if role.keyType ≠ sshKeyTypeED25519 ∧ role.keyType ≠ sshKeyTypeRSA then
    .error ("invalid ssh key_type " ++ quoted role.keyType)
  else if role.defaultUser = "" ∧ role.allowedUsers = [] then
    .error "default_user or allowed_users is required"
  else .ok ()

def validate (role : SSHRole) : Except String Unit :=
  role.normalize.check

def allowedUser (role : SSHRole) (username : String) : Bool :=
  let username := trimSpace username
  if username = "" then false
  else if role.allowedUsers = [] then role.defaultUser = "" || role.defaultUser = username
  else role.allowedUsers.any fun allowed => trimSpace allowed = username

/-- A checked role has nothing left to set. -/
theorem normalize_normalize (role : SSHRole) : role.normalize.normalize = role.normalize := by
  have ttl : 0 < orDefault role.ttlSeconds 3600 := orDefault_pos _ (by decide)
  have default := orDefault_pos role.defaultTTL ttl
  have max := orDefault_pos role.maxTTL default
  simp only [normalize, orDefault_of_pos ttl, orDefault_of_pos default, orDefault_of_pos max,
    orText_orText, Option.getD_some]

end SSHRole

end KnxVault.Domain
