import KnxVault.Engine.Database
import KnxVault.Engine.Ssh

/-!
# The lease service

`internal/service/leases.go`: one service over the leases of all engines. Leases of
an engine with a hook are renewed and revoked by the engine, the others by a plain
write to the repository. Audit records are left out.
-/

namespace KnxVault.Leases

open KnxVault.Std KnxVault.Domain KnxVault.Repository KnxVault.Engine

/-- Whether a lease identifier belongs to a tenant, with either separator. -/
def validateLeaseIDAccess (tenant leaseID : String) : Bool :=
  tenant = "" || hasPrefix (trimSpace leaseID) (tenant ++ ".") ||
    hasPrefix (trimSpace leaseID) (tenant ++ "/")

/-- The tenant of the context and the namespace of the request in it. -/
structure LeaseContext where
  tenant : String := ""
  requestNamespace : String := ""

structure LeaseView where
  id : String
  engine : String
  role : String
  path : String
  ttlSeconds : Int
  expiresAt : Time
  renewable : Bool
  revoked : Bool
  revokedAt : Option Time
  tokenID : String
  metadata : StringMap

def toLeaseView (lease : Lease) : LeaseView where
  id := lease.id
  engine := lease.engine
  role := lease.roleName
  path := lease.path
  ttlSeconds := lease.ttlSeconds
  expiresAt := lease.expiresAt
  renewable := lease.renewable
  revoked := lease.revokedAt.isSome
  revokedAt := lease.revokedAt
  tokenID := lease.tokenID
  metadata := lease.metadata

/-- Blank texts select everything. -/
structure LeaseListFilter where
  engine : String := ""
  role : String := ""
  pathPrefix : String := ""
  tokenID : String := ""
  activeOnly : Bool := false
  limit : Int := 0
  offset : Int := 0

def LeaseListFilter.selects (filter : LeaseListFilter) (now : Time) (lease : Lease) : Bool :=
  (filter.engine = "" || lease.engine = filter.engine) &&
    (filter.role = "" || lease.roleName = filter.role) &&
    (filter.pathPrefix = "" || hasPrefix lease.path filter.pathPrefix) &&
    (filter.tokenID = "" || lease.tokenID = filter.tokenID) &&
    (!filter.activeOnly || lease.active now)

/-- The engines that the service has hooks for. -/
structure LeaseService where
  database : Option DatabaseEngine
  ssh : Option SshEngine
  tenantMode : Bool := false

namespace LeaseService

open LeaseProgram

variable (service : LeaseService) (ctx : LeaseContext)

def checkTenantLease (id : String) : Except GoError Unit :=
  let tenant := if ctx.tenant = "" then trimSpace ctx.requestNamespace else ctx.tenant
  if !service.tenantMode then .ok ()
  else if tenant = "" then refuse .forbidden "tenant namespace required for lease access"
  else if !validateLeaseIDAccess tenant id then
    refuse .forbidden "cross-tenant lease access denied"
  else .ok ()

def list (filter : LeaseListFilter) : LeaseProgram (List LeaseView) := do
  let all ← listLeases
  let now := (← now).utc
  let tenant := if service.tenantMode then trimSpace ctx.requestNamespace else ""
  let selected := all.filter fun lease =>
    validateLeaseIDAccess tenant lease.id && filter.selects now lease
  let page := selected.drop filter.offset.toNat
  pure ((if 0 < filter.limit then page.take filter.limit.toNat else page).map toLeaseView)

/-- The renewal hook of an engine. -/
def renewer (engine : String) : Option (String → Int → LeaseProgram Unit) :=
  if engine = Database.engineName then
    service.database.map fun database id ttl => do let _ ← database.renew id ttl
  else if engine = Ssh.engineName then
    service.ssh.map fun ssh id ttl => do let _ ← ssh.renew id ttl
  else none

/-- The longest lifetime that a renewal without a hook gives, in seconds. -/
def maxGenericRenewTTL : Int := 24 * 3600

def renew (id : String) (ttlSeconds : Int) : LeaseProgram LeaseView := do
  lift (service.checkTenantLease ctx id)
  let lease ← getLease id
  let clock ← now
  if !lease.active clock.utc then fail .validation "lease not active"
  else if !lease.renewable then fail .validation "lease is not renewable"
  else
    let ttlSeconds := if ttlSeconds ≤ 0 then lease.ttlSeconds else ttlSeconds
    match service.renewer lease.engine with
    | some hook => hook id ttlSeconds
    | none =>
      let ttlSeconds := min ttlSeconds maxGenericRenewTTL
      let clock ← now
      saveLease { lease with ttlSeconds, expiresAt := clock.utc.add (seconds ttlSeconds) }
    let updated ← getLease id
    pure (toLeaseView updated)

/-- Revoke a lease by the hook of its engine, or in the repository alone. -/
def revokeOne (id engine : String) : LeaseProgram Unit := do
  match hook with
  | some revoke => revoke
  | none => markRevoked id (← now).utc
where
  hook : Option (LeaseProgram Unit) :=
    if engine = Database.engineName then
      service.database.map fun database => do let _ ← database.revokeLease id
    else if engine = Ssh.engineName then service.ssh.map fun _ => SshEngine.revokeLease id
    else none

def revoke (id : String) : LeaseProgram Unit := do
  lift (service.checkTenantLease ctx id)
  let lease ← getLease id
  service.revokeOne lease.id lease.engine

structure BulkRevokeRequest where
  engine : String := ""
  role : String := ""
  pathPrefix : String := ""

/-- The leases revoked; an error after some of them does not undo these. -/
def bulkRevoke (req : BulkRevokeRequest) : LeaseProgram (List String × Option GoError) := do
  if trimSpace req.engine = "" ∧ trimSpace req.role = "" ∧ trimSpace req.pathPrefix = "" then
    fail .validation "bulk revoke requires engine, role, or path_prefix"
  else
    let leases ← service.list ctx {
      engine := req.engine, role := req.role, pathPrefix := req.pathPrefix, activeOnly := true }
    revokeUntilError [] leases
where
  revokeUntilError (revoked : List String) :
      List LeaseView → LeaseProgram (List String × Option GoError)
    | [] => pure (revoked, none)
    | view :: views => do
      match ← (service.revokeOne view.id view.engine).outcome with
      | .ok _ => revokeUntilError (revoked ++ [view.id]) views
      | .error err =>
        if revoked = [] then throw err
        else pure (revoked, some (err.wrap
          ("partial bulk revoke after " ++ toString revoked.length ++ " leases")))

def revokePrefix (pathPrefix : String) : LeaseProgram (List String × Option GoError) :=
  if trimSpace pathPrefix = "" then fail .validation "prefix is required"
  else service.bulkRevoke ctx { pathPrefix }

/-- Revoke expired leases and pass over errors. The source returns how many. -/
def tidy (limit : Int) : LeaseProgram (List String) := do
  let clock ← now
  let expired ← listExpired clock.utc (if limit ≤ 0 then 100 else limit)
  let done ← revokeEach Lease.id (fun lease => service.revokeOne lease.id lease.engine)
    (fun lease => lease.revokedAt.isSome) ([], none) expired
  pure done.1

/-- Revoke the leases of a token and pass over errors. The source returns how many. -/
def revokeByTokenID (tokenID : String) : LeaseProgram (List String) := do
  if tokenID = "" then pure []
  else
    let leases ← service.list ctx { tokenID, activeOnly := true }
    let done ← revokeEach LeaseView.id (fun view => service.revokeOne view.id view.engine)
      (fun _ => false) ([], none) leases
    pure done.1

end LeaseService

end KnxVault.Leases
