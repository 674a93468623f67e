import KnxVault.Raft.Store
import KnxVault.Repository.Methods

/-!
# Reads and failed commands

`Update` and `Lookup` of the state machine on byte strings. Both go through one
table of handlers; only the list `readOnlyOps` keeps `Lookup` from the handlers that
write. A handler is an update of the store in the order of its statements, so that
it could fail after a write; `handleWrite_computes` says that none does.
-/

namespace KnxVault.Raft

open KnxVault.Std KnxVault.Domain KnxVault.Repository KnxVault.Backup

variable {lib : Library}

/-! ### Operations -/

def Query.op : Query → String
  | .caGetByID .. => "ca.get_by_id"
  | .caGetByName .. => "ca.get_by_name"
  | .caList => "ca.list"
  | .secretGetLatest .. => "secret.get_latest"
  | .secretGetVersion .. => "secret.get_version"
  | .secretListByPath .. => "secret.list_by_path"
  | .secretNextVersion .. => "secret.next_version"
  | .pkiRoleGet .. => "pki_role.get"
  | .pkiRoleList => "pki_role.list"
  | .auditList .. => "audit.list"
  | .auditLatestHash => "audit.latest_hash"
  | .revokeIs .. => "revoke.is"
  | .revokeListByCA .. => "revoke.list_by_ca"
  | .leaseGet .. => "lease.get"
  | .leaseList => "lease.list"
  | .leaseListExpired .. => "lease.list_expired"
  | .leaseCountActive => "lease.count_active"
  | .policyGet .. => "policy.get_by_name"
  | .policyList => "policy.list"
  | .roleGet .. => "role.get"
  | .roleList => "role.list"
  | .dbRoleGet .. => "db_role.get"
  | .dbRoleList => "db_role.list"
  | .sshRoleGet .. => "ssh_role.get"
  | .sshRoleList => "ssh_role.list"
  | .issuedGetBySerial .. => "issued.get_by_serial"
  | .issuedList => "issued.list"
  | .issuedListExpiring .. => "issued.list_expiring"
  | .exportSnapshot .. => "snapshot.export"
  | .tokenGet .. => "token.get"
  | .tokenList => "token.list"
  | .tokenListExpired .. => "token.list_expired"
  | .machineIdentityGet .. => "machine_identity.get"
  | .machineIdentityList => "machine_identity.list"
  | .rotationPolicyGet .. => "rotation_policy.get"
  | .rotationPolicyList => "rotation_policy.list"

def Write.op : Write → String
  | .caSave .. => "ca.save"
  | .secretSaveVersion .. => "secret.save_version"
  | .secretPut .. => "secret.put"
  | .secretDestroyVer .. => "secret.destroy_version"
  | .secretUpdateDEKEnc .. => "secret.update_dek_enc"
  | .pkiRoleSave .. => "pki_role.save"
  | .auditAppend .. => "audit.append"
  | .revoke .. => "revoke.save"
  | .leaseSave .. => "lease.save"
  | .leaseRevoke .. => "lease.revoke"
  | .policySave .. => "policy.save"
  | .policyDelete .. => "policy.delete"
  | .roleSave .. => "role.save"
  | .roleDelete .. => "role.delete"
  | .dbRoleSave .. => "db_role.save"
  | .dbRoleDelete .. => "db_role.delete"
  | .sshRoleSave .. => "ssh_role.save"
  | .sshRoleDelete .. => "ssh_role.delete"
  | .issuedSave .. => "issued.save"
  | .importSnapshot .. => "snapshot.import"
  | .tokenSave .. => "token.save"
  | .tokenRevoke .. => "token.revoke"
  | .machineIdentitySave .. => "machine_identity.save"
  | .machineIdentityRevoke .. => "machine_identity.revoke"
  | .rotationPolicySave .. => "rotation_policy.save"
  | .rotationPolicyDelete .. => "rotation_policy.delete"

/-- Operations that `Lookup` lets through. -/
def readOnlyOps : List String :=
  ["ca.get_by_id", "ca.get_by_name", "ca.list", "secret.get_latest", "secret.get_version",
   "secret.list_by_path", "secret.next_version", "pki_role.get", "pki_role.list", "audit.list",
   "audit.latest_hash", "revoke.is", "revoke.list_by_ca", "lease.get", "lease.list",
   "lease.list_expired", "lease.count_active", "policy.get_by_name", "policy.list", "role.get",
   "role.list", "db_role.get", "db_role.list", "ssh_role.get", "ssh_role.list",
   "issued.get_by_serial", "issued.list", "issued.list_expiring", "snapshot.export", "token.get",
   "token.list", "token.list_expired", "machine_identity.get", "machine_identity.list",
   "rotation_policy.get", "rotation_policy.list"]

/-- The other operations that have a handler. -/
def writeOps : List String :=
  ["ca.save", "secret.save_version", "secret.put", "secret.destroy_version",
   "secret.update_dek_enc", "pki_role.save", "audit.append", "revoke.save", "lease.save",
   "lease.revoke", "policy.save", "policy.delete", "role.save", "role.delete", "db_role.save",
   "db_role.delete", "ssh_role.save", "ssh_role.delete", "issued.save", "snapshot.import",
   "token.save", "token.revoke", "machine_identity.save", "machine_identity.revoke",
   "rotation_policy.save", "rotation_policy.delete"]

def isReadOnlyOp (op : String) : Bool := op ∈ readOnlyOps

theorem Write.op_mem (write : Write) : write.op ∈ writeOps := by
  cases write <;> simp [Write.op, writeOps]

theorem Query.op_readOnly (query : Query) : isReadOnlyOp query.op = true := by
  cases query <;> simp [Query.op, isReadOnlyOp, readOnlyOps]

theorem not_readOnly_of_mem : ∀ op ∈ writeOps, isReadOnlyOp op = false := by decide +kernel

/-- A decoded payload. -/
inductive Request where
  | query (query : Query)
  | write (write : Write)

def Request.op : Request → String
  | .query asked => asked.op
  | .write made => made.op

/-- The JSON decoder. The payload of an operation decodes to a request for it. -/
structure Codec where
  command : Bytes → Except String (String × Bytes)
  payload : (op : String) → Bytes → Except String { request : Request // request.op = op }

def Codec.decodeCommand (codec : Codec) (data : Bytes) : Except String (String × Bytes) := do
  let (op, payload) ← codec.command data
  if op = "" then .error "command op is required" else pure (op, payload)

/-! ### Handlers -/

abbrev Handler (lib : Library) (α : Type) := Update (Store lib) GoError α

namespace Handler

/-- Call a method of one repository. -/
def call {Repo α : Type} (view : Store lib → Repo) (put : Store lib → Repo → Store lib)
    (method : Method Repo α) : Handler lib α :=
  (method.within view put).wrapError KNXVaultError.asGoError

/-- A handler without data. -/
def plain {Repo : Type} (view : Store lib → Repo) (put : Store lib → Repo → Store lib)
    (method : Method Repo Unit) : Handler lib (Option Data) := do
  call view put method
  pure none

/-- A handler that returns what the method does. -/
def returning {Repo Row : Type} (view : Store lib → Repo) (put : Store lib → Repo → Store lib)
    (wrap : Row → Data) (method : Method Repo Row) : Handler lib (Option Data) := do
  let row ← call view put method
  pure (some (wrap row))

theorem plain_computes {Repo : Type} {view : Store lib → Repo}
    {put : Store lib → Repo → Store lib} (back : ∀ store, put store (view store) = store)
    {method : Method Repo Unit} {step : Repo → Except KNXVaultError Repo}
    (computes : method.Computes fun repo => silent (step repo)) :
    (plain view put method).Computes fun store =>
      changed (put store) (step (view store)) := by
  intro store
  have called := (computes.within view put back).wrapError KNXVaultError.asGoError
  refine (called.map (fun _ => (none : Option Data)) store).trans ?_
  cases outcome : step (view store) <;> simp [outcome, changed, Except.map, Except.mapError]

theorem returning_computes {Repo Row : Type} {view : Store lib → Repo}
    {put : Store lib → Repo → Store lib} (back : ∀ store, put store (view store) = store)
    {wrap : Row → Data} {method : Method Repo Row}
    {step : Repo → Except KNXVaultError (Repo × Row)} (computes : method.Computes step) :
    (returning view put wrap method).Computes fun store =>
      changedWith (put store) wrap (step (view store)) := by
  intro store
  have called := (computes.within view put back).wrapError KNXVaultError.asGoError
  refine (called.map (fun row => some (wrap row)) store).trans ?_
  cases outcome : step (view store) <;> simp [outcome, changedWith, Except.map, Except.mapError]

/-- The handlers that write, in the order of their statements. -/
def handleWrite (env : Env) : Write → Handler lib (Option Data)
  | .caSave ca => plain (·.ca) (fun store ca => { store with ca }) (Method.saveCA ca)
  | .secretSaveVersion secret =>
    plain (·.secret) (fun store secret => { store with secret }) (Method.saveVersion secret)
  | .secretPut secret casVersion maxVersions =>
    returning (·.secret) (fun store secret => { store with secret }) .number
      (Method.putAtomic env.range secret casVersion maxVersions)
  | .secretDestroyVer path version =>
    plain (·.secret) (fun store secret => { store with secret })
      (Method.destroyVersion path version)
  | .secretUpdateDEKEnc path version dekEnc =>
    plain (·.secret) (fun store secret => { store with secret })
      (Method.updateDEKEnc path version dekEnc)
  | .pkiRoleSave role => do
    let store ← get
    let _ ← Update.ofExcept
      ((store.ca.getByName env.range role.caName).mapError KNXVaultError.asGoError)
    returning (·.pkiRole) (fun store pkiRole => { store with pkiRole }) .pkiRole
      (Method.savePKIRole role)
  | .auditAppend entry => do
    let store ← get
    returning (·.audit) (fun store audit => { store with audit }) .entry
      (Method.append (store.stampEntry env entry))
  | .revoke cert =>
    plain (·.revoke) (fun store revoke => { store with revoke }) (Method.revoke cert)
  | .leaseSave lease =>
    plain (·.lease) (fun store lease => { store with lease })
      (Method.save "invalid lease" lease lease.validate fun passed => passed)
  | .leaseRevoke id revokedAt =>
    plain (·.lease) (fun store lease => { store with lease })
      (Method.change "lease not found" id (fun lease => { lease with revokedAt := some revokedAt })
        fun _ valid => valid)
  | .policySave policy =>
    returning (·.policy) (fun store policy => { store with policy }) .policy
      (Method.savePolicy (env.newUUID 0) policy)
  | .policyDelete name =>
    plain (·.policy) (fun store policy => { store with policy })
      (Method.delete "policy not found" name)
  | .roleSave role =>
    plain (·.role) (fun store role => { store with role })
      (Method.save "invalid role" role role.validate fun passed => passed)
  | .roleDelete name =>
    plain (·.role) (fun store role => { store with role }) (Method.delete "role not found" name)
  | .dbRoleSave role =>
    plain (·.dbRole) (fun store dbRole => { store with dbRole })
      (Method.save "invalid database role" role.normalize (role.validate lib env.range)
        fun passed => ⟨(DatabaseRole.check_range lib env.range MapRange.sorted _).mp passed,
          role.normalize_normalize⟩)
  | .dbRoleDelete name =>
    plain (·.dbRole) (fun store dbRole => { store with dbRole })
      (Method.delete "database role not found" name)
  | .sshRoleSave role =>
    plain (·.sshRole) (fun store sshRole => { store with sshRole })
      (Method.save "invalid ssh role" role.normalize role.validate
        (SSHRoleRepository.valid_normalize role))
  | .sshRoleDelete name =>
    plain (·.sshRole) (fun store sshRole => { store with sshRole })
      (Method.delete "ssh role not found" name)
  | .issuedSave cert =>
    plain (·.issuedCert) (fun store issuedCert => { store with issuedCert })
      (Method.save "invalid issued certificate" cert cert.validate fun passed => passed)
  | .importSnapshot snapshot =>
    match validateSnapshot lib snapshot with
    | .error text => throw { text }
    | .ok _ =>
      -- the records go into a store of their own, which is dropped if one fails
      match restore env (Repos.empty : Repos lib) snapshot with
      | .error (err, _) => throw err
      | .ok repos => do
        set { Store.new lib with toRepos := repos }
        pure none
  | .tokenSave token =>
    plain (·.token) (fun store token => { store with token }) (Method.saveToken token)
  | .tokenRevoke id revokedAt =>
    plain (·.token) (fun store token => { store with token })
      (Method.change "token not found" id
        (fun token => { token with revoked := true, expiresAt := revokedAt }) fun _ named => named)
  | .machineIdentitySave identity =>
    plain (·.machineIdentity) (fun store machineIdentity => { store with machineIdentity })
      (Method.save "invalid machine identity" identity identity.validate fun passed => passed)
  | .machineIdentityRevoke id =>
    plain (·.machineIdentity) (fun store machineIdentity => { store with machineIdentity })
      (Method.change "machine identity not found" id
        (fun identity => { identity with revoked := true }) fun _ valid => valid)
  | .rotationPolicySave policy =>
    plain (·.rotationPolicy) (fun store rotationPolicy => { store with rotationPolicy })
      (Method.save "invalid rotation policy" policy policy.validate fun passed => passed)
  | .rotationPolicyDelete path =>
    plain (·.rotationPolicy) (fun store rotationPolicy => { store with rotationPolicy })
      (Method.delete "rotation policy not found" path)

/-- The authority is looked up before anything is written. -/
theorem pkiRoleSave_computes (env : Env) (role : PKIRole) :
    (handleWrite env (.pkiRoleSave role) : Handler lib (Option Data)).Computes fun store =>
      store.execute env (.pkiRoleSave role) := by
  intro store
  rw [handleWrite, Update.exec_get_bind, Update.exec_bind, Update.exec_ofExcept]
  cases found : store.ca.getByName env.range role.caName with
  | error err =>
    simp [found, Except.mapError, Store.execute, Store.savePKIRole, changedWith, bind, Except.bind]
  | ok ca =>
    refine (returning_computes (fun _ => rfl) (Method.savePKIRole_computes role) store).trans ?_
    cases saved : store.pkiRole.save role <;>
      simp [found, saved, Store.execute, Store.savePKIRole, changedWith, bind, Except.bind,
        Except.map, pure, Except.pure]

theorem importSnapshot_computes (env : Env) (snapshot : Snapshot) :
    (handleWrite env (.importSnapshot snapshot) : Handler lib (Option Data)).Computes
      fun store => store.execute env (.importSnapshot snapshot) := by
  intro store
  change _ = Update.settle store ((Store.importSnapshot env snapshot).map fun later =>
    (later, none))
  rw [handleWrite, Store.importSnapshot]
  cases validateSnapshot lib snapshot with
  | error text => rfl
  | ok _ =>
    cases restore env (Repos.empty : Repos lib) snapshot with
    | error failed => rfl
    | ok repos => rfl

/-- Every handler is one step: it fails and leaves the store, or does what the
command says. -/
theorem handleWrite_computes (env : Env) (write : Write) :
    (handleWrite env write : Handler lib (Option Data)).Computes fun store =>
      store.execute env write := by
  cases write with
  | caSave ca => exact plain_computes (fun _ => rfl) (Method.saveCA_computes ca)
  | secretSaveVersion secret =>
    exact plain_computes (fun _ => rfl) (Method.saveVersion_computes secret)
  | secretPut secret casVersion maxVersions =>
    exact returning_computes (fun _ => rfl)
      (Method.putAtomic_computes env.range secret casVersion maxVersions)
  | secretDestroyVer path version =>
    exact plain_computes (fun _ => rfl) (Method.destroyVersion_computes path version)
  | secretUpdateDEKEnc path version dekEnc =>
    exact plain_computes (fun _ => rfl) (Method.updateDEKEnc_computes path version dekEnc)
  | pkiRoleSave role => exact pkiRoleSave_computes env role
  | auditAppend entry =>
    intro store
    rw [handleWrite, Update.exec_get_bind]
    exact returning_computes (fun _ => rfl) (Method.append_computes _) store
  | revoke cert => exact fun _ => rfl
  | policySave policy =>
    exact returning_computes (fun _ => rfl) (Method.savePolicy_computes (env.newUUID 0) policy)
  | importSnapshot snapshot => exact importSnapshot_computes env snapshot
  | tokenSave token => exact plain_computes (fun _ => rfl) (Method.saveToken_computes token)
  | leaseSave | roleSave | dbRoleSave | sshRoleSave | issuedSave | machineIdentitySave
  | rotationPolicySave => exact plain_computes (fun _ => rfl) (Method.save_computes _ _ _ _)
  | policyDelete | roleDelete | dbRoleDelete | sshRoleDelete | rotationPolicyDelete =>
    exact plain_computes (fun _ => rfl) (Method.delete_computes _ _)
  | leaseRevoke | tokenRevoke | machineIdentityRevoke =>
    exact plain_computes (fun _ => rfl) (Method.change_computes _ _ _ _)

end Handler

/-! ### The state machine -/

/-- The operations that have a handler. -/
def storeHandlers : List String := readOnlyOps ++ writeOps

namespace VaultStateMachine

/-- `Store.Handle`: decode the payload and run the handler of the operation. -/
def handle (codec : Codec) (env : Env) (store : Store lib) (op : String) (payload : Bytes) :
    Store lib × Response :=
  if op ∈ storeHandlers then
    match codec.payload op payload with
    | .error text => (store, encodeResponse (.error { text }))
    | .ok ⟨.query query, _⟩ => (store, store.answer env query)
    | .ok ⟨.write write, _⟩ =>
      let (result, later) := (Handler.handleWrite env write).exec store
      (later, encodeResponse result)
  else (store, .error .validation "unknown raft command")

/-- `Update`: a committed entry of the log. -/
def update (codec : Codec) (env : Env) (store : Store lib) (data : Bytes) :
    Store lib × Except String Response :=
  match codec.decodeCommand data with
  | .error text => (store, .error text)
  | .ok (op, payload) =>
    let (later, response) := handle codec env store op payload
    (later, .ok response)

/-- `Lookup`: only the operations listed as reads reach their handlers. -/
def lookup (codec : Codec) (env : Env) (store : Store lib) (data : Bytes) :
    Store lib × Except String Response :=
  match codec.command data with
  | .error text => (store, .error text)
  | .ok (op, payload) =>
    if isReadOnlyOp op then
      let (later, response) := handle codec env store op payload
      (later, .ok response)
    else (store, .ok (.error .validation "write command not allowed on read path"))

end VaultStateMachine

/-- The command of an operation and its payload. -/
def Codec.decode (codec : Codec) (op : String) (payload : Bytes) : Command :=
  if op ∈ storeHandlers then
    match codec.payload op payload with
    | .error text => .malformed (isReadOnlyOp op) text
    | .ok ⟨.query query, _⟩ => .query query
    | .ok ⟨.write write, _⟩ => .write write
  else .unknown

namespace VaultStateMachine

/-- Running a handler is executing the decoded command. -/
theorem handle_eq (codec : Codec) (env : Env) (store : Store lib) (op : String)
    (payload : Bytes) :
    handle codec env store op payload = store.handle env (codec.decode op payload) := by
  unfold handle Codec.decode
  by_cases known : op ∈ storeHandlers
  · rw [if_pos known, if_pos known]
    match codec.payload op payload with
    | .error text => rfl
    | .ok ⟨.query query, _⟩ => rfl
    | .ok ⟨.write write, _⟩ =>
      dsimp only
      rw [Handler.handleWrite_computes env write store]
      cases executed : store.execute env write with
      | ok done => simp [Store.handle, executed, Update.settle, encodeResponse]
      | error err => simp [Store.handle, executed]
  · rw [if_neg known, if_neg known]
    rfl

theorem update_eq (codec : Codec) (env : Env) (store : Store lib) (data : Bytes) :
    update codec env store data =
      store.update env ((codec.decodeCommand data).map fun (op, payload) =>
        codec.decode op payload) := by
  unfold update
  cases decoded : codec.decodeCommand data with
  | error text => rfl
  | ok cmd => simp [handle_eq, Store.update, Except.map]

/-- An operation that may be read decodes to a query or not at all. -/
theorem handle_readOnly (codec : Codec) (env : Env) (store : Store lib) {op : String}
    (readOnly : isReadOnlyOp op = true) (payload : Bytes) :
    (handle codec env store op payload).1 = store := by
  unfold handle
  split
  · match decoded : codec.payload op payload with
    | .error text => rfl
    | .ok ⟨.query query, _⟩ => rfl
    | .ok ⟨.write write, named⟩ =>
      -- the operations of the two tables are different
      have written : op ∈ writeOps := named ▸ write.op_mem
      rw [not_readOnly_of_mem op written] at readOnly
      exact absurd readOnly Bool.false_ne_true
  · rfl

/-- A command outside the list of reads is none that the read path takes. -/
theorem lookup_decode_refused (codec : Codec) (env : Env) (store : Store lib) {op : String}
    (other : isReadOnlyOp op = false) (payload : Bytes) :
    store.lookup env (codec.decode op payload) =
      .error .validation "write command not allowed on read path" := by
  unfold Codec.decode
  split
  · match codec.payload op payload with
    | .error text => simp [other, Store.lookup]
    | .ok ⟨.query query, named⟩ =>
      have readOnly : isReadOnlyOp op = true := named ▸ query.op_readOnly
      rw [other] at readOnly
      exact absurd readOnly Bool.false_ne_true
    | .ok ⟨.write write, _⟩ => rfl
  · rfl

theorem handle_lookup (codec : Codec) (env : Env) (store : Store lib) {op : String}
    (readOnly : isReadOnlyOp op = true) (payload : Bytes) :
    (handle codec env store op payload).2 = store.lookup env (codec.decode op payload) := by
  have known : op ∈ storeHandlers :=
    List.mem_append_left _ (by simpa [isReadOnlyOp] using readOnly)
  unfold handle Codec.decode
  rw [if_pos known, if_pos known]
  match codec.payload op payload with
  | .error text => simp [readOnly, Store.lookup]
  | .ok ⟨.query query, _⟩ => rfl
  | .ok ⟨.write write, named⟩ =>
    have written : op ∈ writeOps := named ▸ write.op_mem
    rw [not_readOnly_of_mem op written] at readOnly
    exact absurd readOnly Bool.false_ne_true

theorem lookup_eq (codec : Codec) (env : Env) (store : Store lib) (data : Bytes) :
    (lookup codec env store data).2 =
      (codec.command data).map fun (op, payload) =>
        store.lookup env (codec.decode op payload) := by
  unfold lookup
  match codec.command data with
  | .error text => rfl
  | .ok (op, payload) =>
    cases readOnly : isReadOnlyOp op with
    | true => simp [readOnly, Except.map, handle_lookup codec env store readOnly payload]
    | false => simp [readOnly, Except.map, lookup_decode_refused codec env store readOnly payload]

theorem lookup_unchanged (codec : Codec) (env : Env) (store : Store lib) (data : Bytes) :
    (lookup codec env store data).1 = store := by
  unfold lookup
  split
  · rfl
  · split
    · exact handle_readOnly codec env store ‹_› _
    · rfl

/-- The entry was refused, by the decoder or with an error as the response. -/
def Failed : Except String Response → Prop
  | .error _ => True
  | .ok (.error _ _) => True
  | .ok _ => False

instance : DecidablePred Failed
  | .error _ => isTrue trivial
  | .ok (.error _ _) => isTrue trivial
  | .ok (.ok _) => isFalse id
  | .ok .panicked => isFalse id

theorem handle_unchanged (codec : Codec) (env : Env) (store : Store lib) (op : String)
    (payload : Bytes) {code : ErrorCode} {message : String}
    (failed : (handle codec env store op payload).2 = .error code message) :
    (handle codec env store op payload).1 = store := by
  unfold handle at failed ⊢
  split
  · rename_i known
    rw [if_pos known] at failed
    match decoded : codec.payload op payload with
    | .error text => rfl
    | .ok ⟨.query query, _⟩ => rfl
    | .ok ⟨.write write, _⟩ =>
      simp only [decoded] at failed
      cases result : ((Handler.handleWrite env write).exec store).1 with
      | ok data => simp [result, encodeResponse] at failed
      | error err => exact (Handler.handleWrite_computes env write).unchanged result
  · rfl

theorem update_unchanged (codec : Codec) (env : Env) (store : Store lib) (data : Bytes)
    (failed : Failed (update codec env store data).2) :
    (update codec env store data).1 = store := by
  unfold update at failed ⊢
  split
  · rfl
  · rename_i op payload decoded
    rw [decoded] at failed
    cases response : (handle codec env store op payload).2 with
    | error code message => exact handle_unchanged codec env store op payload response
    | ok | panicked => simp [response, Failed] at failed

/-- The stores answer every read operation alike. -/
def SameAnswers (before after : Store lib) : Prop :=
  ∀ env query, after.answer env query = before.answer env query

/-- Reads and refused entries leave every answer of the store as it was, and an
operation that the read path takes never changes a store. -/
theorem reads_and_refusals_keep_answers (codec : Codec) (env : Env) (store : Store lib)
    (data : Bytes) :
    SameAnswers store (lookup codec env store data).1 ∧
      (Failed (update codec env store data).2 →
        SameAnswers store (update codec env store data).1) ∧
      ∀ op payload, codec.command data = .ok (op, payload) →
        (lookup codec env store data).2 =
            .ok (.error .validation "write command not allowed on read path") ∨
          ∀ (other : Env) (started : Store lib) (sent : Bytes),
            (handle codec other started op sent).1 = started := by
  refine ⟨?_, fun failed => ?_, fun op payload named => ?_⟩
  · rw [lookup_unchanged]
    exact fun _ _ => rfl
  · rw [update_unchanged codec env store data failed]
    exact fun _ _ => rfl
  · by_cases readOnly : isReadOnlyOp op = true
    · exact .inr fun other started sent => handle_readOnly codec other started readOnly sent
    · left
      simp [lookup, named, readOnly]

/-- An entry is a byte that says whether to save or to delete, and the name of a role. -/
def roleCodec : Codec where
  command
    | [] => .error "unexpected end of JSON input"
    | kind :: name => .ok (if kind = 0 then "role.save" else "role.delete", name)
  payload op name :=
    let name := String.ofList (name.map fun byte => Char.ofNat byte.toNat)
    if saved : op = "role.save" then
      .ok ⟨.write (.roleSave { name, policies := ["default"] }), saved.symm⟩
    else if deleted : op = "role.delete" then
      .ok ⟨.write (.roleDelete name), deleted.symm⟩
    else .error "unexpected end of JSON input"

/-- A store in which the role `a` was saved. -/
def roleStore : Store Library.sample :=
  (update roleCodec (Env.sample 0) (Store.new Library.sample) [0, 0x61]).1

/-- A role that is not there cannot be deleted, and the one that is there stays. -/
theorem refused_deletion_keeps_answers :
    roleStore.answer (Env.sample 0) (.roleGet "a") =
        .ok (some (.role { name := "a", policies := ["default"] })) ∧
      Failed (update roleCodec (Env.sample 0) roleStore [1, 0x62]).2 ∧
      SameAnswers roleStore (update roleCodec (Env.sample 0) roleStore [1, 0x62]).1 := by
  have failed : Failed (update roleCodec (Env.sample 0) roleStore [1, 0x62]).2 := by
    decide +kernel
  exact ⟨rfl, failed, (reads_and_refusals_keep_answers roleCodec (Env.sample 0) roleStore
    [1, 0x62]).2.1 failed⟩

end VaultStateMachine

end KnxVault.Raft
