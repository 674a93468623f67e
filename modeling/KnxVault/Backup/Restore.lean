import KnxVault.Backup.Snapshot

/-!
# Checking and restoring snapshots

`validateSnapshot` and `restore` follow `internal/backup/import.go`. Restoring
clears all repositories and then saves the records in turn; an error leaves what
was saved so far.
-/

namespace KnxVault.Backup

open KnxVault.Std KnxVault.Domain KnxVault.Repository

/-! ### The checks -/

/-- Identifiers and names of authorities are set and occur once. -/
def validateCAs (seen : List Uuid) (caNames : List String) : List CARecord → Except String Unit
  | [] => .ok ()
  | ca :: rest =>
    if ca.id = 0 then .error "ca id is required"
    else if ca.id ∈ seen then .error ("duplicate ca id " ++ uuidText ca.id)
    else if ca.name = "" then .error "ca name is required"
    else if ca.name ∈ caNames then .error ("duplicate ca name " ++ ca.name)
    else validateCAs (ca.id :: seen) (ca.name :: caNames) rest

/-- The first record that fails a test becomes the error. -/
def validateEach {Record : Type} (check : Record → Option String) (records : List Record) :
    Except String Unit :=
  match records.findSome? check with
  | some error => .error error
  | none => .ok ()

def checkParent (seen : List Uuid) (ca : CARecord) : Option String :=
  match ca.parentID with
  | some parent =>
    if parent ∈ seen then none else some ("ca " ++ ca.name ++ " references unknown parent")
  | none => none

def checkPolicy (policy : PolicyRecord) : Option String :=
  if policy.name = "" then some "policy name is required" else none

def checkRole (policyNames : List String) (role : RoleRecord) : Option String :=
  if role.name = "" then some "role name is required"
  else (role.policies.find? (· ∉ policyNames)).map fun policy =>
    "role " ++ role.name ++ " references unknown policy " ++ policy

def checkPKIRole (caNames : List String) (role : PKIRoleRecord) : Option String :=
  if role.name = "" then some "pki role name is required"
  else if role.caName = "" then some ("pki role " ++ role.name ++ " ca_name is required")
  else if role.caName ∈ caNames then none
  else some ("pki role " ++ role.name ++ " references unknown ca " ++ role.caName)

def validateIssued (seen : List Uuid) (issuedSerials : List (Uuid × String)) :
    List IssuedCertRecord → Except String Unit
  | [] => .ok ()
  | cert :: rest =>
    if cert.caID = 0 then .error ("issued cert " ++ cert.serial ++ " ca_id is required")
    else if cert.caID ∉ seen then .error ("issued cert " ++ cert.serial ++ " references unknown ca")
    else if (cert.caID, cert.serial) ∈ issuedSerials then
      .error ("duplicate issued cert serial " ++ cert.serial)
    else validateIssued seen ((cert.caID, cert.serial) :: issuedSerials) rest

/-- A log without any hash is not checked. -/
def validateAuditRecords (lib : Library) (records : List AuditRecord) : Except String Unit :=
  if records.all fun record => record.hash = "" then .ok ()
  else match validateRecordChain lib "" 0 records with
  | .error err => .error ("audit chain: " ++ err)
  | .ok _ => .ok ()

def validateSnapshot (lib : Library) (snapshot : Snapshot) : Except String Unit := do
  if snapshot.version ≠ formatVersion then
    .error ("unsupported backup version " ++ toString snapshot.version)
  else
    let seen := snapshot.cas.map CARecord.id
    let caNames := snapshot.cas.map CARecord.name
    validateCAs [] [] snapshot.cas
    validateEach (checkParent seen) snapshot.cas
    validateEach checkPolicy snapshot.policies
    validateEach (checkRole (snapshot.policies.map PolicyRecord.name)) snapshot.roles
    validateEach (checkPKIRole caNames) snapshot.pkiRoles
    validateIssued seen [] snapshot.issued
    validateAuditRecords lib snapshot.audit

theorem validateCAs_ok_iff {seen : List Uuid} {caNames : List String} {records : List CARecord} :
    validateCAs seen caNames records = .ok () ↔
      (∀ ca ∈ records, ca.id ≠ 0 ∧ ca.name ≠ "" ∧ ca.id ∉ seen ∧ ca.name ∉ caNames) ∧
        (records.map CARecord.id).Nodup ∧ (records.map CARecord.name).Nodup := by
  induction records generalizing seen caNames with
  | nil => simp [validateCAs]
  | cons ca rest ih =>
    rw [validateCAs]
    split_ifs with nil repeated unnamed taken
    · simp [nil]
    · simp [repeated]
    · simp [unnamed]
    · simp [taken]
    · rw [ih]
      simp only [List.forall_mem_cons, List.map_cons, List.nodup_cons]
      simp only [List.mem_cons, not_or, List.mem_map, not_exists, not_and]
      constructor
      · rintro ⟨fresh, ids, names⟩
        exact ⟨⟨⟨nil, unnamed, repeated, taken⟩, fun other listed =>
          ⟨(fresh other listed).1, (fresh other listed).2.1, (fresh other listed).2.2.1.2,
            (fresh other listed).2.2.2.2⟩⟩, ⟨fun other listed => (fresh other listed).2.2.1.1, ids⟩,
          fun other listed => (fresh other listed).2.2.2.1, names⟩
      · rintro ⟨⟨-, fresh⟩, ⟨idsApart, ids⟩, namesApart, names⟩
        exact ⟨fun other listed => ⟨(fresh other listed).1, (fresh other listed).2.1,
          ⟨idsApart other listed, (fresh other listed).2.2.1⟩,
          namesApart other listed, (fresh other listed).2.2.2⟩, ids, names⟩

theorem validateEach_ok_iff {Record : Type} {check : Record → Option String}
    {records : List Record} :
    validateEach check records = .ok () ↔ ∀ record ∈ records, check record = none := by
  unfold validateEach
  split
  · rename_i failed
    simp only [reduceCtorEq, false_iff]
    intro passed
    rw [List.findSome?_eq_none_iff.mpr passed] at failed
    cases failed
  · rename_i passed
    simpa using List.findSome?_eq_none_iff.mp passed

theorem validateIssued_ok_iff {seen : List Uuid} {issuedSerials : List (Uuid × String)}
    {records : List IssuedCertRecord} :
    validateIssued seen issuedSerials records = .ok () ↔
      (∀ cert ∈ records, cert.caID ≠ 0 ∧ cert.caID ∈ seen ∧
        (cert.caID, cert.serial) ∉ issuedSerials) ∧
        (records.map fun cert => (cert.caID, cert.serial)).Nodup := by
  induction records generalizing issuedSerials with
  | nil => simp [validateIssued]
  | cons cert rest ih =>
    rw [validateIssued]
    split_ifs with nil known repeated
    · simp [nil]
    · simp [repeated]
    · rw [ih]
      simp only [List.forall_mem_cons, List.map_cons, List.nodup_cons]
      simp only [List.mem_cons, not_or, List.mem_map, not_exists, not_and]
      constructor
      · rintro ⟨fresh, serials⟩
        exact ⟨⟨⟨nil, known, repeated⟩, fun other listed => ⟨(fresh other listed).1,
          (fresh other listed).2.1, (fresh other listed).2.2.2⟩⟩,
          fun other listed => (fresh other listed).2.2.1, serials⟩
      · rintro ⟨⟨-, fresh⟩, apart, serials⟩
        exact ⟨fun other listed => ⟨(fresh other listed).1, (fresh other listed).2.1,
          apart other listed, (fresh other listed).2.2⟩, serials⟩
    · simp [known]

variable {lib : Library}

theorem validateAuditRecords_ok_iff {records : List AuditRecord} :
    validateAuditRecords lib records = .ok () ↔
      (∀ record ∈ records, record.hash = "") ∨ Chained lib "" records := by
  unfold validateAuditRecords
  split_ifs with unhashed
  · simp_all
  · have hashed : ¬ ∀ record ∈ records, record.hash = "" := by simpa using unhashed
    have chain := @validateRecordChain_ok_iff lib "" 0 records
    split <;> simp_all

variable {snapshot : Snapshot}

/-- What an accepted snapshot satisfies. -/
theorem validateSnapshot_ok_iff :
    validateSnapshot lib snapshot = .ok () ↔
      snapshot.version = formatVersion ∧ validateCAs [] [] snapshot.cas = .ok () ∧
      (∀ ca ∈ snapshot.cas, checkParent (snapshot.cas.map CARecord.id) ca = none) ∧
      (∀ policy ∈ snapshot.policies, checkPolicy policy = none) ∧
      (∀ role ∈ snapshot.roles,
        checkRole (snapshot.policies.map PolicyRecord.name) role = none) ∧
      (∀ role ∈ snapshot.pkiRoles, checkPKIRole (snapshot.cas.map CARecord.name) role = none) ∧
      validateIssued (snapshot.cas.map CARecord.id) [] snapshot.issued = .ok () ∧
      validateAuditRecords lib snapshot.audit = .ok () := by
  have chain : ∀ first next : Except String Unit,
      (first >>= fun _ => next) = .ok () ↔ first = .ok () ∧ next = .ok () := by
    intro first next
    cases first <;> simp [Bind.bind, Except.bind]
  unfold validateSnapshot
  split_ifs with version
  · simp [version]
  · simp only [chain, validateEach_ok_iff]
    simp [not_not.mp version]

/-! ### Restoring -/

/-- Authorities without a parent first, then by name. -/
def sortCAs (records : List CARecord) : List CARecord :=
  sortBy (lessBy fun record : CARecord => toLex (record.parentID.isSome, record.name)) records

/-- Save records, naming the one that fails. -/
def restoreEach {Repo Record : Type} (context : Record → String)
    (save : Repo → Record → Except KNXVaultError Repo) (start : Repo) (records : List Record) :
    Except (GoError × Repo) Repo :=
  saveEach (fun repo record =>
    (save repo record).mapError fun err => err.asGoError.wrap (context record)) start records

def restoreCAs (snapshot : Snapshot) : Except (GoError × CARepository) CARepository :=
  restoreEach (fun record : CARecord => "restore ca " ++ record.name)
    (fun repo record => repo.save (caToDomain record)) .empty (sortCAs snapshot.cas)

def restoreSecrets (snapshot : Snapshot) : Except (GoError × SecretRepository) SecretRepository :=
  restoreEach
    (fun record : SecretRecord =>
      "restore secret " ++ record.path ++ " v" ++ toString record.version)
    (fun repo record => repo.saveVersion (secretToDomain record)) .empty snapshot.secrets

def restoreRevoked (snapshot : Snapshot) : RevocationRepository :=
  snapshot.revoked.foldl RevocationRepository.revoke .empty

/-- Every restored policy draws an identifier. -/
def restorePolicies (env : Env) (snapshot : Snapshot) :
    Except (GoError × PolicyRepository) PolicyRepository :=
  restoreEach (fun numbered : PolicyRecord × Nat => "restore policy " ++ numbered.1.name)
    (fun repo numbered =>
      (repo.save (env.newUUID numbered.2) (policyToDomain numbered.1)).map Prod.fst)
    .empty snapshot.policies.zipIdx

def restoreRoles (snapshot : Snapshot) : Except (GoError × RoleRepository) RoleRepository :=
  restoreEach (fun record : RoleRecord => "restore role " ++ record.name)
    (fun repo record => RoleRepository.save repo (roleToDomain record)) .empty snapshot.roles

def restorePKIRoles (snapshot : Snapshot) :
    Except (GoError × PKIRoleRepository) PKIRoleRepository :=
  restoreEach (fun record : PKIRoleRecord => "restore pki role " ++ record.name)
    PKIRoleRepository.save .empty snapshot.pkiRoles

def restoreDBRoles {lib : Library} (env : Env) (snapshot : Snapshot) :
    Except (GoError × DatabaseRoleRepository lib) (DatabaseRoleRepository lib) :=
  restoreEach (fun record : DatabaseRoleRecord => "restore database role " ++ record.name)
    (fun repo record => DatabaseRoleRepository.save repo env.range (databaseRoleToDomain record))
    .empty snapshot.dbRoles

def restoreSSHRoles (snapshot : Snapshot) :
    Except (GoError × SSHRoleRepository) SSHRoleRepository :=
  restoreEach (fun record : SSHRoleRecord => "restore ssh role " ++ record.name)
    (fun repo record => SSHRoleRepository.save repo (sshRoleToDomain record)) .empty
    snapshot.sshRoles

def restoreLeases (snapshot : Snapshot) : Except (GoError × LeaseRepository) LeaseRepository :=
  restoreEach (fun record : LeaseRecord => "restore lease " ++ record.id)
    (fun repo record => LeaseRepository.save repo (leaseToDomain record)) .empty snapshot.leases

def restoreIssued (snapshot : Snapshot) :
    Except (GoError × IssuedCertRepository) IssuedCertRepository :=
  restoreEach (fun record : IssuedCertRecord => "restore issued cert " ++ record.serial)
    IssuedCertRepository.save .empty snapshot.issued

def restoreTokens (snapshot : Snapshot) : Except (GoError × TokenRepository) TokenRepository :=
  restoreEach (fun record : TokenRecord => "restore token " ++ record.id)
    (fun repo record => TokenRepository.save repo (tokenToDomain record)) .empty snapshot.tokens

def restoreAudit (snapshot : Snapshot) : Except (GoError × AuditRepository) AuditRepository :=
  restoreEach (fun record : AuditRecord => "restore audit entry " ++ record.action)
    (fun repo record => (repo.append (auditToDomain record)).map Prod.fst) .empty snapshot.audit

/-- One repository's result, inside all repositories. -/
def within {lib : Library} {Repo : Type} (put : Repo → Repos lib) :
    Except (GoError × Repo) Repo → Except (GoError × Repos lib) (Repos lib)
  | .ok repo => .ok (put repo)
  | .error (err, repo) => .error (err, put repo)

/-- Save all records into cleared repositories. -/
def restoreRecords {lib : Library} (env : Env) (snapshot : Snapshot) :
    Except (GoError × Repos lib) (Repos lib) := do
  let repos : Repos lib := .empty
  let repos ← within (fun ca => { repos with ca }) (restoreCAs snapshot)
  let repos ← within (fun secret => { repos with secret }) (restoreSecrets snapshot)
  let repos := { repos with revoke := restoreRevoked snapshot }
  let repos ← within (fun policy => { repos with policy }) (restorePolicies env snapshot)
  let repos ← within (fun role => { repos with role }) (restoreRoles snapshot)
  let repos ← within (fun pkiRole => { repos with pkiRole }) (restorePKIRoles snapshot)
  let repos ← within (fun dbRole => { repos with dbRole }) (restoreDBRoles env snapshot)
  let repos ← within (fun sshRole => { repos with sshRole }) (restoreSSHRoles snapshot)
  let repos ← within (fun lease => { repos with lease }) (restoreLeases snapshot)
  let repos ← within (fun issuedCert => { repos with issuedCert }) (restoreIssued snapshot)
  let repos ← within (fun token => { repos with token }) (restoreTokens snapshot)
  within (fun audit => { repos with audit }) (restoreAudit snapshot)

variable {later : Repos lib}

theorem within_bind_ok_iff {Repo : Type} {put : Repo → Repos lib}
    {result : Except (GoError × Repo) Repo}
    {next : Repos lib → Except (GoError × Repos lib) (Repos lib)} :
    (within put result >>= next) = .ok later ↔
      ∃ repo, result = .ok repo ∧ next (put repo) = .ok later := by
  cases result <;> simp [within, Bind.bind, Except.bind]

/-- Restoring succeeds when every repository does, each on its own. -/
theorem restoreRecords_ok_iff {env : Env} :
    restoreRecords env snapshot = .ok later ↔
      restoreCAs snapshot = .ok later.ca ∧ restoreSecrets snapshot = .ok later.secret ∧
      restoreRevoked snapshot = later.revoke ∧ restorePolicies env snapshot = .ok later.policy ∧
      restoreRoles snapshot = .ok later.role ∧ restorePKIRoles snapshot = .ok later.pkiRole ∧
      restoreDBRoles env snapshot = .ok later.dbRole ∧
      restoreSSHRoles snapshot = .ok later.sshRole ∧ restoreLeases snapshot = .ok later.lease ∧
      restoreIssued snapshot = .ok later.issuedCert ∧
      restoreTokens snapshot = .ok later.token ∧ restoreAudit snapshot = .ok later.audit := by
  have last : ∀ (put : AuditRepository → Repos lib)
      (result : Except (GoError × AuditRepository) AuditRepository),
      within put result = .ok later ↔ ∃ repo, result = .ok repo ∧ put repo = later := by
    intro put result
    cases result <;> simp [within]
  simp only [restoreRecords, within_bind_ok_iff, last]
  constructor
  · rintro ⟨_, ca, _, secret, _, policy, _, role, _, pkiRole, _, dbRole, _, sshRole, _, lease, _,
      issued, _, token, _, audit, rfl⟩
    exact ⟨ca, secret, rfl, policy, role, pkiRole, dbRole, sshRole, lease, issued, token, audit⟩
  · rintro ⟨ca, secret, revoke, policy, role, pkiRole, dbRole, sshRole, lease, issued, token,
      audit⟩
    exact ⟨_, ca, _, secret, _, policy, _, role, _, pkiRole, _, dbRole, _, sshRole, _, lease, _,
      issued, _, token, _, audit, by rw [revoke]⟩

/-- Replace the contents of the repositories; a rejected snapshot leaves them. -/
def restore {lib : Library} (env : Env) (repos : Repos lib) (snapshot : Snapshot) :
    Except (GoError × Repos lib) (Repos lib) :=
  match validateSnapshot lib snapshot with
  | .error text => .error ({ text }, repos)
  | .ok _ => restoreRecords env snapshot

/-! ### What a restored snapshot satisfies -/

/-- Every record passes the check of its repository. -/
structure Acceptable (lib : Library) (snapshot : Snapshot) : Prop where
  valid : validateSnapshot lib snapshot = .ok ()
  cas : ∀ record ∈ snapshot.cas, (caToDomain record).validate = .ok ()
  secrets : ∀ record ∈ snapshot.secrets, (secretToDomain record).validate = .ok ()
  versions : (snapshot.secrets.map fun record => secretKey (secretToDomain record)).Nodup
  policies : ∀ record ∈ snapshot.policies, (policyToDomain record).validate = .ok ()
  roles : ∀ record ∈ snapshot.roles, (roleToDomain record).validate = .ok ()
  pkiRoles : ∀ record ∈ snapshot.pkiRoles, PKIRole.validate record = .ok ()
  dbRoles : ∀ record ∈ snapshot.dbRoles,
    (databaseRoleToDomain record).validate lib MapRange.sorted = .ok ()
  sshRoles : ∀ record ∈ snapshot.sshRoles, (sshRoleToDomain record).validate = .ok ()
  leases : ∀ record ∈ snapshot.leases, (leaseToDomain record).validate = .ok ()
  issued : ∀ record ∈ snapshot.issued, IssuedCertificate.validate record = .ok ()
  tokens : ∀ record ∈ snapshot.tokens, record.id ≠ ""
  audit : ∀ record ∈ snapshot.audit, (auditToDomain record).validate = .ok ()

/-- A loop that ends has saved every record. -/
theorem restoreEach_saved {Repo Record : Type} {context : Record → String}
    {save : Repo → Record → Except KNXVaultError Repo} {start later : Repo}
    {records : List Record} (ended : restoreEach context save start records = .ok later)
    {record : Record} (listed : record ∈ records) :
    ∃ before after, save before record = .ok after := by
  obtain ⟨before, after, saved⟩ := saveEach_saved ended listed
  exact ⟨before, after, mapError_ok_iff.mp saved⟩

/-- A version is saved once. -/
theorem nodup_of_restoreSecrets {start later : SecretRepository} {context : SecretRecord → String}
    {records : List SecretRecord}
    (ended : restoreEach context
      (fun repo record => SecretRepository.saveVersion repo (secretToDomain record)) start records =
        .ok later) :
    (records.map fun record => secretKey (secretToDomain record)).Nodup ∧
      ∀ record ∈ records, start.find (secretKey (secretToDomain record)) = none := by
  induction records generalizing start with
  | nil => simp
  | cons record rest ih =>
    rw [restoreEach, saveEach] at ended
    split at ended
    · rename_i next saved
      have stored : ∃ checked, start.find (secretKey (secretToDomain record)) = none ∧
          next = start.put (secretToDomain record) checked :=
        SecretRepository.saveVersion_ok_iff.mp (mapError_ok_iff.mp saved)
      obtain ⟨checked, absent, rfl⟩ := stored
      obtain ⟨distinct, others⟩ := ih ended
      have apart : ∀ other ∈ rest, secretKey (secretToDomain record) ≠
          secretKey (secretToDomain other) ∧
            start.find (secretKey (secretToDomain other)) = none := by
        intro other listed
        have missing := others other listed
        rw [Table.find_put] at missing
        split at missing
        · cases missing
        · exact ⟨by assumption, missing⟩
      constructor
      · rw [List.map_cons, List.nodup_cons]
        refine ⟨fun repeated => ?_, distinct⟩
        obtain ⟨other, listed, same⟩ := List.mem_map.mp repeated
        exact (apart other listed).1 same.symm
      · rw [List.forall_mem_cons]
        exact ⟨absent, fun other listed => (apart other listed).2⟩
    · cases ended

theorem restore_of_valid (valid : validateSnapshot lib snapshot = .ok ()) (env : Env)
    (repos : Repos lib) : restore env repos snapshot = restoreRecords env snapshot := by
  rw [restore, valid]

/-- What is restored was acceptable. -/
theorem acceptable_of_restore {env : Env} {repos : Repos lib}
    (restored : restore env repos snapshot = .ok later) :
    Acceptable lib snapshot := by
  unfold restore at restored
  split at restored
  · cases restored
  · rename_i valid
    obtain ⟨ca, secret, -, policy, role, pkiRole, dbRole, sshRole, lease, issued, token, audit⟩ :=
      restoreRecords_ok_iff.mp restored
    refine ⟨valid, ?_, ?_, (nodup_of_restoreSecrets secret).1, ?_, ?_, ?_, ?_, ?_, ?_, ?_, ?_, ?_⟩
      <;> intro record listed
    · obtain ⟨before, after, saved⟩ := restoreEach_saved ca
        ((perm_sortBy _ snapshot.cas).mem_iff.mpr listed)
      obtain ⟨checked, -⟩ := CARepository.save_ok_iff.mp saved
      exact checked
    · obtain ⟨before, after, saved⟩ := restoreEach_saved secret listed
      obtain ⟨checked, -⟩ := SecretRepository.saveVersion_ok_iff.mp saved
      exact checked
    · obtain ⟨index, found⟩ := List.mem_iff_getElem?.mp listed
      have numbered : (record, index) ∈ snapshot.policies.zipIdx :=
        List.mem_zipIdx_iff_getElem?.mpr found
      obtain ⟨before, after, saved⟩ := restoreEach_saved policy numbered
      exact (PolicyRepository.save_ok_iff.mp saved).1
    · obtain ⟨before, after, saved⟩ := restoreEach_saved role listed
      exact (saveRow_ok_iff.mp saved).1
    · obtain ⟨before, after, saved⟩ := restoreEach_saved pkiRole listed
      exact (saveRow_ok_iff.mp saved).1
    · obtain ⟨before, after, saved⟩ := restoreEach_saved dbRole listed
      exact (DatabaseRole.check_range lib env.range MapRange.sorted _).mp
        (saveRow_ok_iff.mp saved).1
    · obtain ⟨before, after, saved⟩ := restoreEach_saved sshRole listed
      exact (saveRow_ok_iff.mp saved).1
    · obtain ⟨before, after, saved⟩ := restoreEach_saved lease listed
      exact (saveRow_ok_iff.mp saved).1
    · obtain ⟨before, after, saved⟩ := restoreEach_saved issued listed
      exact (saveRow_ok_iff.mp saved).1
    · obtain ⟨before, after, saved⟩ := restoreEach_saved token listed
      exact TokenRepository.id_of_save saved
    · obtain ⟨before, after, saved⟩ := restoreEach_saved audit listed
      cases appended : before.append (auditToDomain record) with
      | error err => simp [appended, Except.map] at saved
      | ok result => exact (AuditRepository.append_ok_iff.mp appended).1

end KnxVault.Backup
