import KnxVault.Audit.Service
import KnxVault.Backup.Roundtrip

/-!
# Restoring an archive

`BackupService.Restore` opens an archive, checks the snapshot in it and imports it,
through Raft or into the repositories of the process. The Raft state machine
restores into a fresh store and swaps it in. The other path clears the repositories
first, so a record that its repository rejects leaves them half restored. The call
itself is recorded in the audit log that it restores.
-/

namespace KnxVault.Backup

open KnxVault.Std KnxVault.Domain KnxVault.Repository KnxVault.Raft KnxVault.Audit

variable {lib : Library}

/-! ### The archive and the service -/

structure Archive where
  format : String
  version : Int
  ciphertext : Bytes
  dekEnc : Bytes

/-- The JSON decoder and the crypto service. -/
structure ArchiveReader where
  parse : Bytes → Except String Archive
  decrypt : Bytes → Bytes → Except String Bytes
  unmarshal : Bytes → Except String Snapshot

/-- Decrypt an archive and return the snapshot. -/
def ArchiveReader.openArchive (reader : ArchiveReader) (lib : Library) (data : Bytes) :
    Except GoError Snapshot :=
  match reader.parse data with
  | .error cause => .error { text := "parse archive: " ++ cause }
  | .ok archive =>
    if archive.format ≠ "knxvault-backup" then
      .error { text := "unsupported archive format " ++ quoted archive.format }
    else if archive.version ≠ formatVersion then
      .error { text := "unsupported archive version " ++ toString archive.version }
    else match reader.decrypt archive.ciphertext archive.dekEnc with
    | .error cause => .error { text := "decrypt archive: " ++ cause }
    | .ok raw =>
      match reader.unmarshal raw with
      | .error cause => .error { text := "unmarshal snapshot: " ++ cause }
      | .ok snapshot =>
        match validateSnapshot lib snapshot with
        | .error text => .error { text }
        | .ok _ => .ok snapshot

/-- The audit service, and the subject of the request. -/
structure Recorder where
  mac : Mac
  signingKey : Bytes
  backend : Audit.Backend
  actor : String

def Recorder.occurrence (recorder : Recorder) (result : Except GoError Unit) (details : Fields) :
    Occurrence where
  actor := recorder.actor
  action := "backup.restore"
  resource := "sys/restore"
  status := if result.isOk then "success" else "failure"
  details

/-- `Record` of `internal/service/audithelper` for a restore, whose error is ignored. -/
def Recorder.record (recorder : Recorder) (env : Env) (result : Except GoError Unit)
    (details : Fields) (store : Store lib) : Store lib :=
  let prevHash := store.audit.latestHash
  let entry := newEntry lib recorder.mac recorder.signingKey prevHash env.now.utc
    (recorder.occurrence result details)
  { store with
    audit := ((AuditOp.append entry prevHash).exec lib recorder.backend env.now store.audit).2 }

structure BackupService where
  crypto : Option ArchiveReader
  /-- Whether snapshots are imported through Raft. -/
  importer : Bool
  /-- Whether the token repository is among those of the service. The server that
  keeps its repositories in memory leaves it out. -/
  token : Bool
  audit : Option Recorder

/-- Propose the snapshot to the replicated store, which decodes it again. -/
def importSnapshot (env : Env) (store : Store lib) (snapshot : Snapshot) :
    Store lib × Except GoError Unit :=
  match validateSnapshot lib snapshot with
  | .error text => (store, .error { text })
  | .ok _ =>
    match store.handle env (.write (.importSnapshot snapshot.decoded)) with
    | (later, .error code message) =>
      (later, .error (KNXVaultError.asGoError { code, message }))
    | (later, _) => (later, .ok ())

/-- Without the token repository, tokens are neither cleared nor restored. -/
def restoreRepos (token : Bool) (env : Env) (store : Store lib) (snapshot : Snapshot) :
    Store lib × Except GoError Unit :=
  let kept := fun repos : Repos lib =>
    if token then repos else { repos with token := store.token }
  match restore env store.toRepos (if token then snapshot else { snapshot with tokens := [] }) with
  | .ok repos => ({ store with toRepos := kept repos }, .ok ())
  | .error (err, repos) => ({ store with toRepos := kept repos }, .error err)

/-- Import a checked snapshot. -/
def BackupService.load (service : BackupService) (env : Env) (store : Store lib)
    (snapshot : Snapshot) : Store lib × Except GoError Unit :=
  if service.importer then importSnapshot env store snapshot
  else restoreRepos service.token env store snapshot

/-- Without an audit service nothing is recorded. -/
def BackupService.record (service : BackupService) (env : Env) (result : Except GoError Unit)
    (details : Fields) (store : Store lib) : Store lib × Except GoError Unit :=
  match service.audit with
  | none => (store, result)
  | some recorder => (recorder.record env result details store, result)

/-- The details of the record: how many authorities and secrets there were. -/
def counts (snapshot : Snapshot) : Fields :=
  (∅ : Fields).insertMany [("cas", .number (toString snapshot.cas.length)),
    ("secrets", .number (toString snapshot.secrets.length))]

/-- `reloaded` is what reloading the policies returns, if that is set up. -/
def BackupService.restore (service : BackupService) (env : Env) (reloaded : Except GoError Unit)
    (store : Store lib) (data : Bytes) : Store lib × Except GoError Unit :=
  match service.crypto with
  | none =>
    (store, .error (KNXVaultError.asGoError
      { code := .internal, message := "master key required for encrypted backups" }))
  | some reader =>
    match reader.openArchive lib data with
    | .error err => service.record env (.error err) ∅ store
    | .ok snapshot =>
      match validateSnapshot lib snapshot with
      | .error text => service.record env (.error { text }) ∅ store
      | .ok _ =>
        match service.load env store snapshot with
        | (later, .error err) => service.record env (.error err) (counts snapshot) later
        | (later, .ok _) => service.record env reloaded (counts snapshot) later

theorem newEntry_filled {mac : Mac} {signingKey : Bytes} {prevHash : String} {now : Time}
    {occurrence : Occurrence} (action : occurrence.action ≠ "") (status : occurrence.status ≠ "") :
    let entry := newEntry lib mac signingKey prevHash now occurrence
    entry.action ≠ "" ∧ entry.status ≠ "" ∧ entry.hash ≠ "" := by
  unfold newEntry
  split <;> exact ⟨action, status, lib.sha256Hex_ne _⟩

theorem append_filled {repo : AuditRepository} {entry : Entry} (action : entry.action ≠ "")
    (status : entry.status ≠ "") (hash : entry.hash ≠ "") :
    let later := (attempt ((repo.append entry).map Prod.fst) repo).2
    (∃ stored, later.entries = repo.entries ++ [stored]) ∧ later.latestHash ≠ "" := by
  have valid : entry.validate = .ok () := by simp [Entry.validate, action, status]
  rw [AuditRepository.append_ok_iff.mpr ⟨valid, rfl⟩]
  refine ⟨⟨_, rfl⟩, ?_⟩
  change ((repo.entries ++ [_]).getLast?.map Entry.hash).getD "" ≠ ""
  rw [List.getLast?_concat]
  exact hash

/-- A record is one more entry in the log, which then has a hash. -/
theorem Recorder.record_audit (recorder : Recorder) (env : Env) (result : Except GoError Unit)
    (details : Fields) (store : Store lib) :
    (∃ entry, (recorder.record env result details store).audit.entries =
      store.audit.entries ++ [entry]) ∧
    (recorder.record env result details store).audit.latestHash ≠ "" := by
  have named : "backup.restore" ≠ "" := by decide
  have ended : (if result.isOk then "success" else "failure") ≠ "" := by split <;> decide
  obtain ⟨action, status, hash⟩ := @newEntry_filled lib recorder.mac recorder.signingKey
    store.audit.latestHash env.now.utc (recorder.occurrence result details) named ended
  unfold Recorder.record
  cases recorder.backend with
  | memory => exact append_filled action status hash
  | replicated coding =>
    exact append_filled (coding.text_filled _ action) (coding.text_filled _ status)
      (lib.sha256Hex_ne _)

variable {snapshot : Snapshot}

theorem validate_of_openArchive {reader : ArchiveReader} {data : Bytes}
    (opened : reader.openArchive lib data = .ok snapshot) :
    validateSnapshot lib snapshot = .ok () := by
  unfold ArchiveReader.openArchive at opened
  split at opened
  · cases opened
  split at opened
  · cases opened
  split at opened
  · cases opened
  split at opened
  · cases opened
  split at opened
  · cases opened
  split at opened
  · cases opened
  · rename_i valid
    cases opened
    exact valid

/-! ### Holding the contents of a snapshot -/

/-- A policy without its identifier, which records leave out. -/
def unnumbered (policy : Policy) : Policy :=
  { policy with id := 0 }

/-- The repositories hold what the records stand for and nothing else. What a
service without a token repository cannot hold must not be there. -/
structure HoldsSnapshot (token : Bool) (snapshot : Snapshot) (repos : Repos lib) : Prop where
  ca : repos.ca.byID.Holds id (snapshot.cas.map caToDomain)
  secret : repos.secret.Holds id (snapshot.secrets.map secretToDomain)
  revoke : repos.revoke.serial.Holds id snapshot.revoked
  policy : repos.policy.Holds unnumbered (snapshot.policies.map policyToDomain)
  role : repos.role.Holds id (snapshot.roles.map roleToDomain)
  pkiRole : repos.pkiRole.Holds id (snapshot.pkiRoles.map PKIRole.normalize)
  dbRole : repos.dbRole.Holds id (snapshot.dbRoles.map databaseRoleToDomain)
  sshRole : repos.sshRole.Holds id (snapshot.sshRoles.map sshRoleToDomain)
  lease : repos.lease.Holds id (snapshot.leases.map leaseToDomain)
  issuedCert : repos.issuedCert.Holds id snapshot.issued
  token : if token then repos.token.Holds id (snapshot.tokens.map tokenToDomain)
    else snapshot.tokens = []
  audit : repos.audit.entries =
    snapshot.audit.mapIdx fun index record => restoredEntry record index

/-- No two records of a table have the same name and differ. Names of authorities
and issued certificates are checked, versions of secrets when they are saved. -/
structure Unambiguous (snapshot : Snapshot) : Prop where
  revoked : Consistent RevokedCertificate.serial snapshot.revoked
  policies : Consistent Policy.name (snapshot.policies.map policyToDomain)
  roles : Consistent Role.name (snapshot.roles.map roleToDomain)
  pkiRoles : Consistent PKIRole.name (snapshot.pkiRoles.map PKIRole.normalize)
  dbRoles : Consistent DatabaseRole.name (snapshot.dbRoles.map databaseRoleToDomain)
  sshRoles : Consistent SSHRole.name (snapshot.sshRoles.map sshRoleToDomain)
  leases : Consistent Lease.id (snapshot.leases.map leaseToDomain)
  tokens : Consistent ClientToken.id (snapshot.tokens.map tokenToDomain)

variable {env : Env} {snapshot : Snapshot} {repos : Repos lib}

theorem Loaded.holds_iff (loaded : Loaded env snapshot repos) :
    HoldsSnapshot true snapshot repos ↔ Unambiguous snapshot := by
  have revoked := (restoreRevoked_covers snapshot).holds_iff fun _ => rfl
  rw [← loaded.revoke] at revoked
  have policies :=
    (loaded.policy.map (fun _ => rfl : ∀ policy, (unnumbered policy).name = _)).holds_iff
    fun _ => rfl
  rw [map_numberedPolicies unnumbered fun _ _ => rfl] at policies
  have roles := loaded.role.holds_iff fun _ => rfl
  have pkiRoles := loaded.pkiRole.holds_iff fun _ => rfl
  have dbRoles := loaded.dbRole.holds_iff fun _ => rfl
  have sshRoles := loaded.sshRole.holds_iff fun _ => rfl
  have leases := loaded.lease.holds_iff fun _ => rfl
  have tokens := loaded.token.holds_iff fun _ => rfl
  constructor
  · intro holds
    exact ⟨revoked.mp holds.revoke, policies.mp holds.policy, roles.mp holds.role,
      pkiRoles.mp holds.pkiRole, dbRoles.mp holds.dbRole, sshRoles.mp holds.sshRole,
      leases.mp holds.lease, tokens.mp holds.token⟩
  · intro unambiguous
    exact ⟨loaded.ca, loaded.secret, revoked.mpr unambiguous.revoked,
      policies.mpr unambiguous.policies, roles.mpr unambiguous.roles,
      pkiRoles.mpr unambiguous.pkiRoles, dbRoles.mpr unambiguous.dbRoles,
      sshRoles.mpr unambiguous.sshRoles, leases.mpr unambiguous.leases, loaded.issuedCert,
      tokens.mpr unambiguous.tokens, loaded.audit⟩

/-! ### All or nothing -/

/-- The state machine swaps a restored store in. -/
theorem importSnapshot_ok (valid : validateSnapshot lib snapshot = .ok ()) {env : Env}
    (ended : restoreRecords env snapshot.decoded = .ok repos) (store : Store lib) :
    importSnapshot env store snapshot = ({ Store.new lib with toRepos := repos }, .ok ()) := by
  have again : validateSnapshot lib snapshot.decoded = .ok () := valid
  have imported : Store.importSnapshot env snapshot.decoded =
      .ok { Store.new lib with toRepos := repos } := by
    simp only [Store.importSnapshot, again, restore_of_valid again, ended]
  have executed : store.execute env (.importSnapshot snapshot.decoded) =
      .ok ({ Store.new lib with toRepos := repos }, none) :=
    congrArg (Except.map fun later => (later, none)) imported
  simp only [importSnapshot, valid, Store.handle, executed]

/-- The state machine keeps the store that it has. -/
theorem importSnapshot_error (valid : validateSnapshot lib snapshot = .ok ()) {env : Env}
    {err : GoError} (ended : restoreRecords env snapshot.decoded = .error (err, repos))
    (store : Store lib) :
    ∃ failure, importSnapshot env store snapshot = (store, .error failure) := by
  have again : validateSnapshot lib snapshot.decoded = .ok () := valid
  have imported : Store.importSnapshot env snapshot.decoded =
      (.error err : Except GoError (Store lib)) := by
    simp only [Store.importSnapshot, again, restore_of_valid again, ended]
  have executed : store.execute env (.importSnapshot snapshot.decoded) = .error err :=
    congrArg (Except.map fun later => (later, none)) imported
  simp only [importSnapshot, valid, Store.handle, executed]
  obtain ⟨text, coded⟩ := err
  cases coded with
  | none => exact ⟨_, rfl⟩
  | some typed => exact ⟨_, rfl⟩

/-- A store with one role. -/
def operatorStore (lib : Library) : Store lib :=
  { Store.new lib with
    role := Table.empty.put { name := "operator", policies := ["admin"] } rfl }

theorem operatorStore_roleGet (env : Env) :
    (operatorStore lib).answer env (.roleGet "operator") =
      .ok (some (.role { name := "operator", policies := ["admin"] })) := by
  have found : (operatorStore lib).role.find "operator" =
      some { name := "operator", policies := ["admin"] } :=
    Table.find_put (Table.empty : RoleRepository) _ rfl "operator"
  have got : (operatorStore lib).role.get "operator" = .ok _ := getRow_ok_iff.mpr found
  simp only [Store.answer, got]
  rfl

namespace BackupService

/-- The records that the service saves. -/
def saved (service : BackupService) (snapshot : Snapshot) : Snapshot :=
  if service.importer then snapshot.decoded
  else if service.token then snapshot
  else { snapshot with tokens := [] }

/-- Where the service puts restored repositories. -/
def placed (service : BackupService) (store : Store lib) (repos : Repos lib) : Store lib :=
  if service.importer then { Store.new lib with toRepos := repos }
  else { store with
    toRepos := if service.token then repos else { repos with token := store.token } }

theorem validate_saved (service : BackupService) (snapshot : Snapshot) :
    validateSnapshot lib (service.saved snapshot) = validateSnapshot lib snapshot := by
  unfold saved
  split
  · rfl
  · split <;> rfl

theorem load_ok (service : BackupService) {env : Env} {snapshot : Snapshot} {repos : Repos lib}
    (valid : validateSnapshot lib snapshot = .ok ())
    (ended : restoreRecords env (service.saved snapshot) = .ok repos) (store : Store lib) :
    service.load env store snapshot = (service.placed store repos, .ok ()) := by
  have restored := (restore_of_valid ((service.validate_saved snapshot).trans valid) env
    store.toRepos).trans ended
  obtain ⟨crypto, importer, token, audit⟩ := service
  cases importer with
  | true => exact importSnapshot_ok valid ended store
  | false =>
    simp only [load, saved, placed, restoreRepos, Bool.false_eq_true, if_false] at restored ⊢
    rw [restored]

theorem load_error (service : BackupService) {env : Env} {snapshot : Snapshot} {err : GoError}
    {repos : Repos lib} (valid : validateSnapshot lib snapshot = .ok ())
    (ended : restoreRecords env (service.saved snapshot) = .error (err, repos))
    (store : Store lib) :
    ∃ failure, service.load env store snapshot =
      (if service.importer then store else service.placed store repos, .error failure) := by
  have restored := (restore_of_valid ((service.validate_saved snapshot).trans valid) env
    store.toRepos).trans ended
  obtain ⟨crypto, importer, token, audit⟩ := service
  cases importer with
  | true => exact importSnapshot_error valid ended store
  | false =>
    simp only [load, saved, placed, restoreRepos, Bool.false_eq_true, if_false] at restored ⊢
    rw [restored]
    exact ⟨err, rfl⟩

/-- Some store does not answer as before once restored repositories are put in:
where they are put does not depend on the roles that were there. -/
theorem placed_changes (service : BackupService) (repos : Repos lib) :
    ∃ store : Store lib, ∃ env query,
      (service.placed store repos).answer env query ≠ store.answer env query := by
  by_contra unchanged
  push Not at unchanged
  have same : service.placed (operatorStore lib) repos = service.placed (Store.new lib) repos :=
    rfl
  have before := unchanged (Store.new lib) (.sample 0) (.roleGet "operator")
  have after := unchanged (operatorStore lib) (.sample 0) (.roleGet "operator")
  rw [same, before, operatorStore_roleGet] at after
  cases after

end BackupService

/-- Decoded extensions with their default are never empty. -/
theorem isEmpty_decodedExtensions (extensions : Option StringMap) :
    ((decodedExtensions extensions).getD ((∅ : StringMap).insert "permit-pty" "")).isEmpty =
      false := by
  cases extensions with
  | none => simp [decodedExtensions]
  | some entries =>
    cases empty : entries.isEmpty with
    | true => simp [decodedExtensions, Option.filter, empty]
    | false => simp [decodedExtensions, Option.filter, empty]

/-- An import through Raft loses extensions that are set to none at all. -/
theorem decoded_of_holds (loaded : Loaded env snapshot.decoded repos)
    (holds : HoldsSnapshot true snapshot repos) :
    snapshot.decoded = snapshot := by
  have unchanged : ∀ record ∈ snapshot.sshRoles, record.decoded = record := by
    intro record listed
    obtain ⟨stored, found, same⟩ := (holds.sshRole _).mpr (List.mem_map_of_mem listed)
    obtain ⟨other, inDecoded, shown⟩ := List.mem_map.mp (loaded.sshRole.sound stored found)
    obtain ⟨source, -, rfl⟩ := List.mem_map.mp inDecoded
    have rows : sshRoleToDomain source.decoded = sshRoleToDomain record := shown.trans same
    have extensions : (decodedExtensions source.extensions).getD
        ((∅ : StringMap).insert "permit-pty" "") =
          record.extensions.getD ((∅ : StringMap).insert "permit-pty" "") :=
      Option.some.inj (congrArg SSHRole.extensions rows)
    have kept : decodedExtensions record.extensions = record.extensions := by
      cases set : record.extensions with
      | none => rfl
      | some entries =>
        rw [set, Option.getD_some] at extensions
        have filled : entries.isEmpty = false := extensions ▸ isEmpty_decodedExtensions _
        simp [decodedExtensions, Option.filter, filled]
    unfold SSHRoleRecord.decoded
    rw [kept]
  unfold Snapshot.decoded
  rw [List.map_congr_left unchanged, List.map_id']

namespace BackupService

variable {snapshot : Snapshot}

/-- The restored repositories hold the snapshot if it is all that is saved, and no
record hides another. -/
theorem holds_placed_iff (service : BackupService) {env : Env} {repos : Repos lib}
    (loaded : Loaded env (service.saved snapshot) repos) (store : Store lib) :
    HoldsSnapshot (service.importer || service.token) snapshot
        (service.placed store repos).toRepos ↔
      Unambiguous snapshot ∧ service.saved snapshot = snapshot := by
  obtain ⟨crypto, importer, token, audit⟩ := service
  cases importer with
  | true =>
    change Loaded env snapshot.decoded repos at loaded
    change HoldsSnapshot true snapshot repos ↔ Unambiguous snapshot ∧ snapshot.decoded = snapshot
    constructor
    · intro holds
      have same := decoded_of_holds loaded holds
      rw [same] at loaded
      exact ⟨loaded.holds_iff.mp holds, same⟩
    · rintro ⟨unambiguous, same⟩
      rw [same] at loaded
      exact loaded.holds_iff.mpr unambiguous
  | false =>
    cases token with
    | true =>
      change Loaded env snapshot repos at loaded
      exact loaded.holds_iff.trans (and_iff_left rfl).symm
    | false =>
      change Loaded env { snapshot with tokens := [] } repos at loaded
      change HoldsSnapshot false snapshot { repos with token := store.token } ↔
        Unambiguous snapshot ∧ { snapshot with tokens := [] } = snapshot
      have iff := loaded.holds_iff
      constructor
      · intro holds
        have noTokens : snapshot.tokens = [] := holds.token
        have same : { snapshot with tokens := [] } = snapshot := by rw [← noTokens]
        have none : repos.token.Holds id [] :=
          (loaded.token.holds_iff fun _ => rfl).mpr fun _ listed => absurd listed (by simp)
        rw [same] at iff
        refine ⟨iff.mp { holds with token := ?_ }, same⟩
        rw [noTokens]
        exact none
      · rintro ⟨unambiguous, same⟩
        have noTokens : snapshot.tokens = [] := (congrArg Snapshot.tokens same).symm
        rw [same] at iff
        exact { iff.mpr unambiguous with token := noTokens }

/-- After an error every read is answered as before; after a success the
repositories hold the snapshot in the archive. -/
structure AllOrNothing (service : BackupService) (data : Bytes) (store : Store lib)
    (outcome : Store lib × Except GoError Unit) : Prop where
  failed : ∀ err, outcome.2 = .error err →
    ∀ env query, outcome.1.answer env query = store.answer env query
  succeeded : outcome.2 = .ok () → ∃ reader snapshot, service.crypto = some reader ∧
    reader.openArchive lib data = .ok snapshot ∧
    HoldsSnapshot (service.importer || service.token) snapshot outcome.1.toRepos

/-- A service with a key must not record its calls, and without Raft every record must
pass the check of its repository. If all do, the policies must reload, no record may hide
another, and nothing may be left out. -/
def Restorable (service : BackupService) (lib : Library) (reloaded : Except GoError Unit)
    (data : Bytes) : Prop :=
  ∀ reader, service.crypto = some reader → service.audit = none ∧
    ∀ snapshot, reader.openArchive lib data = .ok snapshot →
      (service.importer = true ∨ Acceptable lib (service.saved snapshot)) ∧
        (Acceptable lib (service.saved snapshot) →
          reloaded = .ok () ∧ Unambiguous snapshot ∧ service.saved snapshot = snapshot)

variable {service : BackupService} {data : Bytes}

theorem restore_eq_load {reader : ArchiveReader} (keyed : service.crypto = some reader)
    (opened : reader.openArchive lib data = .ok snapshot) (env : Env)
    (reloaded : Except GoError Unit) (store : Store lib) :
    service.restore env reloaded store data =
      match service.load env store snapshot with
      | (later, .error err) => service.record env (.error err) (counts snapshot) later
      | (later, .ok _) => service.record env reloaded (counts snapshot) later := by
  simp only [restore, keyed, opened, validate_of_openArchive opened]

theorem acceptable_of_restoreRecords {env : Env} {repos : Repos lib}
    (valid : validateSnapshot lib snapshot = .ok ())
    (ended : restoreRecords env snapshot = .ok repos) : Acceptable lib snapshot :=
  acceptable_of_restore ((restore_of_valid valid env .empty).trans ended)

theorem record_of_none (silent : service.audit = none) (env : Env) (result : Except GoError Unit)
    (details : Fields) (store : Store lib) :
    service.record env result details store = (store, result) := by
  simp only [record, silent]

/-- A service that records its calls with a key to restore with does not keep an empty
log as it was, nor does it leave the log of the snapshot. -/
theorem silent_of_allOrNothing {env : Env} {reloaded : Except GoError Unit} {reader : ArchiveReader}
    (keyed : service.crypto = some reader)
    (keeps : service.AllOrNothing data (Store.new lib)
      (service.restore env reloaded (Store.new lib) data)) : service.audit = none := by
  cases recorded : service.audit with
  | none => rfl
  | some recorder =>
    have recording (result : Except GoError Unit) (details : Fields) (later : Store lib) :
        service.record env result details later =
          (recorder.record env result details later, result) := by
      simp only [record, recorded]
    -- after an error the log had to be empty still
    have erred {err : GoError} {details : Fields} {later : Store lib}
        (outcome : service.restore env reloaded (Store.new lib) data =
          service.record env (.error err) details later) : False := by
      rw [recording] at outcome
      have same := keeps.failed err (by rw [outcome]) env .auditLatestHash
      simp only [outcome, Store.answer, Response.ok.injEq, Option.some.injEq, Data.text.injEq]
        at same
      exact (recorder.record_audit env (.error err) details later).2 same
    cases opened : reader.openArchive lib data with
    | error err => exact (erred (by simp only [restore, keyed, opened]; rfl)).elim
    | ok snapshot =>
      have valid := validate_of_openArchive opened
      have outcome := restore_eq_load keyed opened env reloaded (Store.new lib)
      cases ended : restoreRecords env (service.saved snapshot) with
      | error failed =>
        obtain ⟨failure, loads⟩ := service.load_error valid ended (Store.new lib)
        rw [loads] at outcome
        exact (erred outcome).elim
      | ok repos =>
        rw [service.load_ok valid ended (Store.new lib)] at outcome
        cases reloaded with
        | error err => exact (erred outcome).elim
        | ok _ =>
          replace outcome := outcome.trans (recording _ _ _)
          obtain ⟨_, _, keyed', opened', holds⟩ := keeps.succeeded (by rw [outcome])
          cases keyed.symm.trans keyed'
          cases opened.symm.trans opened'
          rw [outcome] at holds
          obtain ⟨entry, grown⟩ := (recorder.record_audit env (.ok ()) (counts snapshot)
            (service.placed (Store.new lib) repos)).1
          obtain ⟨_, again, loaded⟩ := restoreRecords_of_acceptable (acceptable_of_restoreRecords
            ((service.validate_saved snapshot).trans valid) ended) env
          cases ended.symm.trans again
          have kept : (service.saved snapshot).audit = snapshot.audit := by
            unfold saved
            split
            · rfl
            · split <;> rfl
          have log : (service.placed (Store.new lib) repos).audit = repos.audit := by
            unfold placed
            split
            · rfl
            · split <;> rfl
          have lengths := congrArg List.length (grown.symm.trans holds.audit)
          rw [log, loaded.audit, kept] at lengths
          simp at lengths

theorem AllOrNothing.of_unchanged {store : Store lib} {err : GoError}
    {outcome : Store lib × Except GoError Unit} (unchanged : outcome = (store, .error err)) :
    service.AllOrNothing data store outcome := by
  subst unchanged
  exact ⟨fun _ _ _ _ => rfl, fun succeeded => by cases succeeded⟩

/-- A restore is all or nothing for every store exactly if the archive is
restorable. -/
theorem restore_all_or_nothing_iff (service : BackupService) (env : Env)
    (reloaded : Except GoError Unit) (data : Bytes) :
    (∀ store : Store lib, service.AllOrNothing data store
        (service.restore env reloaded store data)) ↔
      service.Restorable lib reloaded data := by
  constructor
  · intro keeps reader keyed
    have silent := silent_of_allOrNothing keyed (keeps (Store.new lib))
    refine ⟨silent, fun snapshot opened => ?_⟩
    have valid := validate_of_openArchive opened
    have outcome := restore_eq_load keyed opened env reloaded
    simp only [record_of_none silent] at outcome
    refine ⟨?_, fun acceptable => ?_⟩
    · by_contra! rejected
      obtain ⟨inMemory, unacceptable⟩ := rejected
      cases ended : restoreRecords env (service.saved snapshot) with
      | ok repos =>
        exact unacceptable
          (acceptable_of_restoreRecords ((service.validate_saved snapshot).trans valid) ended)
      | error failed =>
        obtain ⟨err, repos⟩ := failed
        obtain ⟨store, readEnv, query, differs⟩ := service.placed_changes repos
        obtain ⟨failure, loads⟩ := service.load_error valid ended store
        have result : service.restore env reloaded store data =
            (service.placed store repos, .error failure) := by
          rw [outcome, loads, if_neg inMemory]
        have kept := (keeps store).failed failure (by rw [result])
        rw [result] at kept
        exact differs (kept readEnv query)
    · obtain ⟨repos, ended, loaded⟩ := restoreRecords_of_acceptable acceptable env
      have result : ∀ store, service.restore env reloaded store data =
          (service.placed store repos, reloaded) := by
        intro store
        rw [outcome, service.load_ok valid ended store]
      have succeeded : reloaded = .ok () := by
        cases reloading : reloaded with
        | ok _ => rfl
        | error err =>
          obtain ⟨store, readEnv, query, differs⟩ := service.placed_changes repos
          have kept := (keeps store).failed err (by rw [result, reloading])
          rw [result] at kept
          exact absurd (kept readEnv query) differs
      obtain ⟨_, _, keyed', opened', holds⟩ :=
        (keeps (Store.new lib)).succeeded (by rw [result, succeeded])
      cases keyed.symm.trans keyed'
      cases opened.symm.trans opened'
      rw [result] at holds
      exact ⟨succeeded, (service.holds_placed_iff loaded _).mp holds⟩
  · intro restorable store
    cases keyed : service.crypto with
    | none => exact .of_unchanged (by simp only [restore, keyed]; rfl)
    | some reader =>
      obtain ⟨silent, complete⟩ := restorable reader keyed
      cases opened : reader.openArchive lib data with
      | error err =>
        exact .of_unchanged (by simp only [restore, keyed, opened, record_of_none silent]; rfl)
      | ok snapshot =>
        have valid := validate_of_openArchive opened
        have outcome := restore_eq_load keyed opened env reloaded store
        simp only [record_of_none silent] at outcome
        obtain ⟨replicated, complete⟩ := complete snapshot opened
        by_cases acceptable : Acceptable lib (service.saved snapshot)
        · obtain ⟨rfl, unambiguous, same⟩ := complete acceptable
          obtain ⟨repos, ended, loaded⟩ := restoreRecords_of_acceptable acceptable env
          rw [service.load_ok valid ended store] at outcome
          have holds := (service.holds_placed_iff loaded store).mpr ⟨unambiguous, same⟩
          rw [outcome]
          refine ⟨fun _ failed => ?_, fun _ => ⟨reader, snapshot, keyed, opened, holds⟩⟩
          cases failed
        · cases ended : restoreRecords env (service.saved snapshot) with
          | ok repos =>
            exact absurd (acceptable_of_restoreRecords
              ((service.validate_saved snapshot).trans valid) ended) acceptable
          | error failed =>
            obtain ⟨err, repos⟩ := failed
            obtain ⟨failure, loads⟩ := service.load_error valid ended store
            rw [if_pos (replicated.resolve_right acceptable)] at loads
            rw [loads] at outcome
            exact .of_unchanged outcome

end BackupService

/-- A store with a policy that has capabilities but no actions. -/
def capabilityStore : Store .sample :=
  { Store.new .sample with
    policy := Table.empty.put
      { id := 1, name := "ops", effect := .allow, resources := ["*"], actions := []
        capabilities := ["read"], conditions := ∅ } ⟨rfl, by decide⟩ }

/-- A service that keeps its repositories in memory, and an archive of the snapshot. -/
def serviceFor (snapshot : Snapshot) : BackupService where
  crypto := some {
    parse := fun _ => .ok ⟨"knxvault-backup", formatVersion, [], []⟩
    decrypt := fun _ _ => .ok []
    unmarshal := fun _ => .ok snapshot }
  importer := false
  token := false
  audit := none

/-- The backup of a store is refused halfway, and the store has lost its policy. -/
theorem refused_restore_clears :
    ∃ snapshot, exportRepos (.sample 1) capabilityStore.toRepos {} = some snapshot ∧
      (capabilityStore.policy.getByName "ops").isOk = true ∧
      let outcome := (serviceFor snapshot).restore (.sample 2) (.ok ()) capabilityStore []
      outcome.2.isOk = false ∧ (outcome.1.policy.getByName "ops").isOk = false := by
  refine ⟨_, rfl, by decide +kernel, ?_⟩
  decide +kernel

end KnxVault.Backup
