import KnxVault.Engine.Storage
import KnxVault.Std.Concurrent

/-!
# Leased credentials

What the database and SSH engines share: the lease tuning of a role
(`internal/domain/secrets/lease_tuning.go`) and the repositories on which nodes
work at the same time. A call of an engine is a program over these repositories;
each operation on a repository is atomic. Reading the clock, drawing random bits
and running SQL are operations whose answers come from outside.
-/

namespace KnxVault.Engine

open KnxVault.Std KnxVault.Domain KnxVault.Crypto KnxVault.Repository

/-- A number of seconds as a 64-bit duration. -/
def seconds (count : Int) : Int := wrap64 (count * nanosecondsPerSecond)

structure LeaseTuning where
  defaultTTL : Int
  maxTTL : Int
  period : Int
  renewable : Bool
  maxLeases : Int
deriving DecidableEq, Repr

namespace LeaseTuning

/-- The lease times that a role leaves unset follow from those it sets. -/
def withDefaults (ttlSeconds : Int) (tuning : LeaseTuning) : LeaseTuning :=
  let defaultTTL := orDefault tuning.defaultTTL ttlSeconds
  let maxTTL := orDefault tuning.maxTTL defaultTTL
  { tuning with
    defaultTTL := orDefault defaultTTL 3600
    maxTTL := orDefault maxTTL (orDefault defaultTTL 3600) }

def fromDatabaseRole (role : DatabaseRole) : LeaseTuning :=
  withDefaults role.ttlSeconds
    ⟨role.defaultTTL, role.maxTTL, role.period, role.renewable, role.maxLeases⟩

def fromSSHRole (role : SSHRole) : LeaseTuning :=
  withDefaults role.ttlSeconds
    ⟨role.defaultTTL, role.maxTTL, role.period, role.renewable, role.maxLeases⟩

/-- The lifetime after a renewal, at most the maximum from now on. -/
def resolveRenewTTL (tuning : LeaseTuning) (requested currentTTL : Int) (now : Time) : Int :=
  let requested := if requested ≤ 0 then currentTTL else requested
  let requested := if 0 < tuning.period then tuning.period else requested
  if (now.add (seconds requested)).after (now.add (seconds tuning.maxTTL)) then
    (seconds tuning.maxTTL).tdiv nanosecondsPerSecond
  else requested

/-- The lifetime of a new lease; more than the maximum is refused. -/
def resolveIssueTTL (tuning : LeaseTuning) (requested : Int) : Except String Int :=
  let ttl := if 0 < requested then requested else tuning.defaultTTL
  let ttl := if 0 < tuning.period then tuning.period else ttl
  if ttl ≤ 0 then .error "ttl must be positive"
  else if tuning.maxTTL < ttl then
    .error ("requested ttl " ++ toString ttl ++ "s exceeds role max_ttl " ++
      toString tuning.maxTTL ++ "s")
  else .ok ttl

end LeaseTuning

/-- `durationText` writes a duration. -/
def leaseWarnings (durationText : Int → String) (now expiresAt : Time) (ttlSeconds : Int) :
    List String :=
  let remaining := expiresAt.instant - now.instant
  if ttlSeconds ≤ 0 then []
  else if remaining ≤ 0 then ["lease has expired"]
  else if remaining < (seconds ttlSeconds).tdiv 10 then
    ["lease expires in " ++ durationText remaining ++ " (less than 10% of ttl remaining)"]
  else []

/-! ### The shared repositories -/

structure LeaseStores (lib : Library) where
  leases : LeaseRepository
  databaseRoles : DatabaseRoleRepository lib
  sshRoles : SSHRoleRepository
  secrets : SecretRepository

inductive LeaseOp where
  | now
  | sealing
  | getLease (id : String)
  | listLeases
  | listExpired (before : Time) (limit : Int)
  | saveLease (lease : Lease)
  | revokeLease (id : String) (revokedAt : Time)
  | getDatabaseRole (name : String)
  | getSSHRole (name : String)
  | getLatest (path : String)
  | putAtomic (write : SecretWrite)
  | destroyVersion (path : String) (version : Int)
  | execStatements (connURL : String) (statements : List String)

abbrev LeaseOp.Answer : LeaseOp → Type
  | now => Time
  | sealing => (Time × NewUuid) × SealRandom
  | getLease _ => Except GoError Lease
  | listLeases | listExpired _ _ => List Lease
  | saveLease _ | revokeLease _ _ | destroyVersion _ _ | execStatements _ _ => Except GoError Unit
  | getDatabaseRole _ => Except GoError DatabaseRole
  | getSSHRole _ => Except GoError SSHRole
  | getLatest _ => Except GoError SecretVersion
  | putAtomic _ => Except GoError Int

/-- What an operation takes from outside; `sql` is the reply of the database. -/
structure LeaseDraw where
  env : Env
  random : SealRandom
  sql : Except GoError Unit

def LeaseOp.exec {lib : Library} (draw : LeaseDraw) :
    (op : LeaseOp) → LeaseStores lib → op.Answer × LeaseStores lib
  | now, stores => (draw.env.now, stores)
  | sealing, stores => (((draw.env.now, draw.env.newUUID 0), draw.random), stores)
  | getLease id, stores => ((stores.leases.get id).mapError KNXVaultError.asGoError, stores)
  | listLeases, stores => (stores.leases.list draw.env.range, stores)
  | listExpired before limit, stores =>
    (stores.leases.listExpired draw.env.range before limit, stores)
  | saveLease lease, stores =>
    attempt (do
      let leases ← (stores.leases.save lease).mapError KNXVaultError.asGoError
      pure { stores with leases }) stores
  | revokeLease id revokedAt, stores =>
    attempt (do
      let leases ← (stores.leases.revoke id revokedAt).mapError KNXVaultError.asGoError
      pure { stores with leases }) stores
  | getDatabaseRole name, stores =>
    ((stores.databaseRoles.get name).mapError KNXVaultError.asGoError, stores)
  | getSSHRole name, stores => ((stores.sshRoles.get name).mapError KNXVaultError.asGoError, stores)
  | getLatest path, stores =>
    ((stores.secrets.getLatest draw.env.range path).mapError KNXVaultError.asGoError, stores)
  | putAtomic write, stores =>
    match stores.secrets.putAtomic draw.env.range write.secret write.casVersion
      write.maxVersions with
    | .ok (secrets, version) => (.ok version, { stores with secrets })
    | .error err => (.error err.asGoError, stores)
  | destroyVersion path version, stores =>
    attempt (do
      let secrets ← (stores.secrets.destroyVersion path version).mapError KNXVaultError.asGoError
      pure { stores with secrets }) stores
  | execStatements _ _, stores => (draw.sql, stores)

/-- A call of a lease engine. -/
abbrev LeaseProgram := Fallible LeaseOp LeaseOp.Answer GoError

namespace LeaseProgram

def now : LeaseProgram Time := Fallible.perform LeaseOp.now

def sealing : LeaseProgram ((Time × NewUuid) × SealRandom) := Fallible.perform LeaseOp.sealing

def getLease (id : String) : LeaseProgram Lease := ExceptT.mk (.perform (LeaseOp.getLease id))

def listLeases : LeaseProgram (List Lease) := Fallible.perform LeaseOp.listLeases

def listExpired (before : Time) (limit : Int) : LeaseProgram (List Lease) :=
  Fallible.perform (LeaseOp.listExpired before limit)

def saveLease (lease : Lease) : LeaseProgram Unit :=
  ExceptT.mk (.perform (LeaseOp.saveLease lease))

def markRevoked (id : String) (revokedAt : Time) : LeaseProgram Unit :=
  ExceptT.mk (.perform (LeaseOp.revokeLease id revokedAt))

def getDatabaseRole (name : String) : LeaseProgram DatabaseRole :=
  ExceptT.mk (.perform (LeaseOp.getDatabaseRole name))

def getSSHRole (name : String) : LeaseProgram SSHRole :=
  ExceptT.mk (.perform (LeaseOp.getSSHRole name))

def getLatest (path : String) : LeaseProgram SecretVersion :=
  ExceptT.mk (.perform (LeaseOp.getLatest path))

def putAtomic (write : SecretWrite) : LeaseProgram Int :=
  ExceptT.mk (.perform (LeaseOp.putAtomic write))

def destroyVersion (path : String) (version : Int) : LeaseProgram Unit :=
  ExceptT.mk (.perform (LeaseOp.destroyVersion path version))

def execStatements (connURL : String) (statements : List String) : LeaseProgram Unit :=
  ExceptT.mk (.perform (LeaseOp.execStatements connURL statements))

/-- Fail with a code and a message. -/
def fail {α : Type} (code : ErrorCode) (message : String) : LeaseProgram α :=
  throw (KNXVaultError.asGoError { code, message })

/-- The value of a pure step, or its error. -/
def lift {α : Type} (result : Except GoError α) : LeaseProgram α := ExceptT.mk (pure result)

/-- An error of the program becomes the cause of another. -/
def wrapping {α : Type} (code : ErrorCode) (message : String) (program : LeaseProgram α) :
    LeaseProgram α :=
  program.adapt fun err => wrapCause code message err.text

/-- Destroy the latest version at a path, if there is one. -/
def destroySecret (path : String) : LeaseProgram Unit := do
  match ← (getLatest path).outcome with
  | .error _ => pure ()
  | .ok latest => if latest.destroyed then pure () else destroyVersion path latest.version

/-- Save the lease of stored credentials; they are destroyed if that fails. -/
def saveNewLease (lease : Lease) : LeaseProgram Unit := do
  match ← (saveLease lease).outcome with
  | .ok _ => pure ()
  | .error err =>
    let _ ← (destroySecret lease.path).outcome
    throw err

/-- The active leases of a role among some. -/
def countActive (engine role : String) (now : Time) (leases : List Lease) : Nat :=
  leases.countP fun lease =>
    lease.engine = engine && lease.roleName = role && lease.active now

def countActiveLeasesForRole (engine role : String) : LeaseProgram Nat := do
  let all ← listLeases
  let now := (← now).utc
  pure (countActive engine role now all)

def checkMaxLeases (engine role : String) (tuning : LeaseTuning) : LeaseProgram Unit := do
  if tuning.maxLeases ≤ 0 then pure ()
  else
    let count ← countActiveLeasesForRole engine role
    if tuning.maxLeases ≤ count then fail .forbidden "max_leases quota exceeded for role"
    else pure ()

/-- Renew the leases that are not skipped, until `limit` are renewed; the leases
renewed. -/
def renewEach {α : Type} (renew : Lease → LeaseProgram α) (skips : Lease → Bool) (limit : Int)
    (renewed : List String) : List Lease → LeaseProgram (List String)
  | [] => pure renewed
  | lease :: leases =>
    if limit ≤ renewed.length then pure renewed
    else if skips lease then renewEach renew skips limit renewed leases
    else do
      match ← (renew lease).outcome with
      | .error _ => renewEach renew skips limit renewed leases
      | .ok _ => renewEach renew skips limit (renewed ++ [lease.id]) leases

/-- Revoke the leases that are not skipped; the leases revoked and the first error. -/
def revokeEach {Item α : Type} (idOf : Item → String) (revoke : Item → LeaseProgram α)
    (skips : Item → Bool) (done : List String × Option GoError) :
    List Item → LeaseProgram (List String × Option GoError)
  | [] => pure done
  | item :: items =>
    if skips item then revokeEach idOf revoke skips done items
    else do
      match ← (revoke item).outcome with
      | .error err => revokeEach idOf revoke skips (done.1, done.2.or (some err)) items
      | .ok _ => revokeEach idOf revoke skips (done.1 ++ [idOf item], done.2) items

/-! ### Conclusions from the answers -/

section Yields

open Fallible

variable {Answered : (op : LeaseOp) → op.Answer → Prop} {α : Type}

theorem getLease_yields {Post : Lease → Prop} {id : String} :
    Yields Answered Post (getLease id) ↔
      ∀ lease, Answered (.getLease id) (.ok lease) → Post lease :=
  ⟨fun yields lease shown => yields _ shown lease rfl,
    fun post _ shown lease same => post lease (same ▸ shown)⟩

theorem listLeases_yields {Post : List Lease → Prop} :
    Yields Answered Post listLeases ↔ ∀ leases, Answered .listLeases leases → Post leases :=
  ⟨fun yields leases shown => yields leases shown leases rfl,
    fun post leases shown _ same => Except.ok.inj same ▸ post leases shown⟩

theorem markRevoked_yields {Post : Unit → Prop} {id : String} {revokedAt : Time} :
    Yields Answered Post (markRevoked id revokedAt) ↔
      (Answered (.revokeLease id revokedAt) (.ok ()) → Post ()) :=
  ⟨fun yields shown => yields _ shown () rfl, fun post _ shown _ same => post (same ▸ shown)⟩

/-- A lease that is skipped wherever it is listed is not renewed. -/
theorem renewEach_yields {renew : Lease → LeaseProgram α} {skips : Lease → Bool} {limit : Int}
    {id : String} {leases : List Lease} (skipped : ∀ lease ∈ leases, lease.id = id → skips lease)
    {renewed : List String} (unnamed : id ∉ renewed) :
    Yields Answered (id ∉ ·) (renewEach renew skips limit renewed leases) := by
  induction leases generalizing renewed with
  | nil => exact (yields_pure _).mpr unnamed
  | cons lease leases ih =>
    have rest := fun {renewed : List String} => @ih
      (fun other listed => skipped other (List.mem_cons_of_mem _ listed)) renewed
    unfold renewEach
    split
    · exact (yields_pure _).mpr unnamed
    split
    · exact rest unnamed
    · rename_i visited
      have other : lease.id ≠ id := fun same =>
        visited (skipped lease List.mem_cons_self same)
      refine (yields_outcome_bind _ _).mpr (Program.Ensures.of_post ?_ _)
      rintro (err | value)
      · exact rest unnamed
      · exact rest (by simpa [other.symm] using unnamed)

/-- A lease whose revocation fails wherever it is listed is not revoked. -/
theorem revokeEach_yields {Item : Type} {idOf : Item → String} {revoke : Item → LeaseProgram α}
    {skips : Item → Bool} {id : String} {items : List Item}
    (failing : ∀ item ∈ items, idOf item = id → Yields Answered (fun _ => False) (revoke item))
    {done : List String × Option GoError} (unnamed : id ∉ done.1) :
    Yields Answered (fun done => id ∉ done.1) (revokeEach idOf revoke skips done items) := by
  induction items generalizing done with
  | nil => exact (yields_pure _).mpr unnamed
  | cons item items ih =>
    have rest := fun {done : List String × Option GoError} => @ih
      (fun other listed => failing other (List.mem_cons_of_mem _ listed)) done
    unfold revokeEach
    split
    · exact rest unnamed
    · refine (yields_outcome_bind _ _).mpr ?_
      by_cases same : idOf item = id
      · refine Program.Ensures.mono ?_ (failing item List.mem_cons_self same)
        rintro (err | value) fails
        · exact rest unnamed
        · exact (fails value rfl).elim
      · refine Program.Ensures.of_post ?_ _
        rintro (err | value)
        · exact rest unnamed
        · exact rest (by simpa [Ne.symm same] using unnamed)

end Yields

end LeaseProgram

/-- An object of texts. -/
def textFields (texts : List (String × String)) : Fields :=
  texts.foldl (fun fields text => fields.insert text.1 (.string text.2)) ∅

/-- The crypto service and the codecs of the engines. -/
structure LeaseCrypto where
  aead : Aead
  service : Crypto.Service
  unmarshal : Bytes → Except String Fields

namespace LeaseCrypto

variable (crypto : LeaseCrypto)

/-- The fields of a stored secret. -/
def openFields (decrypt decode : String) (secret : SecretVersion) : Except GoError Fields :=
  match crypto.service.openValue crypto.aead secret.dataEnc secret.dekEnc with
  | .error err => .error (wrapCause .internal decrypt err)
  | .ok plain =>
    match crypto.unmarshal plain with
    | .error err => .error (wrapCause .internal decode err)
    | .ok data => .ok data

/-- Seal the credentials of a lease and store them at its path. -/
def storeSecret (lib : Library) (path leaseID : String) (ttlSeconds : Int) (expiresAt : Time)
    (data : Fields) : LeaseProgram Unit := do
  let ((now, id), random) ← LeaseProgram.sealing
  let env : Env := { now, newUUID := fun _ => id, range := MapRange.sorted }
  let write ← LeaseProgram.lift
    (storeCredentials lib crypto.aead crypto.service env random path leaseID ttlSeconds expiresAt
      data)
  let _ ← LeaseProgram.putAtomic write

end LeaseCrypto

end KnxVault.Engine
