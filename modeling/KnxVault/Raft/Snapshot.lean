import KnxVault.Backup.Acceptance
import KnxVault.Raft.Store

/-!
# Snapshots of the replicated store

A replica saves its store with `SaveSnapshot` and another one loads it with
`RecoverFromSnapshot`. The reads of a store determine it, so loading is invisible
to clients exactly if it gives back the same store; `Portable` says when.
-/

namespace KnxVault.Raft

open KnxVault.Std KnxVault.Domain KnxVault.Repository KnxVault.Backup

variable {lib : Library}

namespace Store

/-! ### Reads determine the store -/

section

variable {Key Row : Type} [Ord Key] [Std.TransOrd Key] {key : Row → Key}
  {Valid : Row → Prop}

/-- Reading a row tells what is stored under a key. -/
theorem find_of_reply {wrap : Row → Data} (injective : Function.Injective wrap)
    {table other : Table key Valid} {missing : String} {wanted : Key}
    (same : reply wrap (getRow table missing wanted) = reply wrap (getRow other missing wanted)) :
    table.find wanted = other.find wanted := by
  unfold getRow at same
  cases found : table.find wanted <;> cases found' : other.find wanted <;>
    simp only [found, found', reply, Except.map, Except.mapError, encodeResponse,
      KNXVaultError.asGoError, reduceCtorEq, Response.ok.injEq, Option.some.injEq] at same
  · rfl
  · rw [injective same]

end

theorem audit_of_answers {store other : Store lib} (short : store.audit.entries.length ≤ 10000)
    (same : ∀ env query, store.answer env query = other.answer env query) :
    store.audit = other.audit := by
  have listed := same (.sample 0) (.auditList { limit := 10001, orderAsc := true })
  simp only [answer, list_asc (by decide : (0 : Int) < 10001) (by decide)] at listed
  have pages : (orderedEntries store.audit).take 10001 =
      (orderedEntries other.audit).take 10001 := by simpa using listed
  have lengths := congrArg List.length pages
  have counts : ∀ repo : AuditRepository, (orderedEntries repo).length = repo.entries.length :=
    fun repo => (perm_sortBy _ _).length_eq
  simp only [List.length_take, counts] at lengths
  rw [List.take_of_length_le (by rw [counts]; omega),
    List.take_of_length_le (by rw [counts]; omega)] at pages
  have perm : (orderedEntries store.audit).Perm other.audit.entries :=
    pages ▸ perm_sortBy _ _
  exact AuditRepository.eq_of_perm ((perm_sortBy _ _).symm.trans perm)

/-- Two stores that answer every query alike are the same. -/
theorem eq_of_answers {store other : Store lib} (short : store.audit.entries.length ≤ 10000)
    (same : ∀ env query, store.answer env query = other.answer env query) : store = other := by
  have get := same (.sample 0)
  have ca : store.ca = other.ca := CARepository.ext (Table.ext fun id =>
    find_of_reply (fun _ _ => Data.ca.inj) (get (.caGetByID id)))
  have secret : store.secret = other.secret := Table.ext fun wanted =>
    find_of_reply (fun _ _ => Data.secret.inj)
      (get (.secretGetVersion (ofLex wanted).1 (ofLex wanted).2))
  have revoke : store.revoke = other.revoke := RevocationRepository.ext fun caID => by
    simpa [answer] using get (.revokeListByCA caID)
  have lease : store.lease = other.lease := Table.ext fun id =>
    find_of_reply (fun _ _ => Data.lease.inj) (get (.leaseGet id))
  have policy : store.policy = other.policy := Table.ext fun name =>
    find_of_reply (fun _ _ => Data.policy.inj) (get (.policyGet name))
  have role : store.role = other.role := Table.ext fun name =>
    find_of_reply (fun _ _ => Data.role.inj) (get (.roleGet name))
  have pkiRole : store.pkiRole = other.pkiRole := Table.ext fun name =>
    find_of_reply (fun _ _ => Data.pkiRole.inj) (get (.pkiRoleGet name))
  have dbRole : store.dbRole = other.dbRole := Table.ext fun name =>
    find_of_reply (fun _ _ => Data.dbRole.inj) (get (.dbRoleGet name))
  have sshRole : store.sshRole = other.sshRole := Table.ext fun name =>
    find_of_reply (fun _ _ => Data.sshRole.inj) (get (.sshRoleGet name))
  have issuedCert : store.issuedCert = other.issuedCert := Table.ext fun wanted =>
    find_of_reply (fun _ _ => Data.cert.inj)
      (get (.issuedGetBySerial (ofLex wanted).1 (ofLex wanted).2))
  have token : store.token = other.token := Table.ext fun id =>
    find_of_reply (fun _ _ => Data.token.inj) (get (.tokenGet id))
  have machineIdentity : store.machineIdentity = other.machineIdentity := Table.ext fun id =>
    find_of_reply (fun _ _ => Data.identity.inj) (get (.machineIdentityGet id))
  have rotationPolicy : store.rotationPolicy = other.rotationPolicy := Table.ext fun path =>
    find_of_reply (fun _ _ => Data.rotationPolicy.inj) (get (.rotationPolicyGet path))
  have audit := audit_of_answers short same
  rcases store with ⟨⟨⟩, _, _⟩
  rcases other with ⟨⟨⟩, _, _⟩
  simp_all

/-! ### Saving and loading -/

/-- What `SaveSnapshot` encodes. -/
def saveSnapshot (env : Env) (store : Store lib) : Option Snapshot :=
  store.exportSnapshot env true

/-- Load a snapshot from its encoding. -/
def recoverFromSnapshot (env : Env) (snapshot : Snapshot) : Except GoError (Store lib) :=
  importSnapshot env snapshot.decoded

/-- The entries of the log that a saved snapshot has. -/
def savedEntries (store : Store lib) : List Entry :=
  exportedEntries store.audit { includeAudit := true }

theorem savedEntries_eq (store : Store lib) :
    store.savedEntries = (orderedEntries store.audit).take 10000 := rfl

theorem mem_of_exportedEntries {repo : AuditRepository} {opts : ExportOptions} {entry : Entry}
    (exported : entry ∈ exportedEntries repo opts) : entry ∈ repo.entries := by
  unfold exportedEntries at exported
  split at exported
  · exact mem_sortBy.mp (List.mem_of_mem_take exported)
  · cases exported

theorem saveSnapshot_eq (env : Env) (store : Store lib) :
    store.saveSnapshot env = some (snapshotOf env store.toRepos store.savedEntries) :=
  exportRepos_eq env store.toRepos (by decide)

theorem importSnapshot_ok_iff {env : Env} {snapshot : Snapshot} {later : Store lib} :
    importSnapshot env snapshot = .ok later ↔
      restore env (.empty : Repos lib) snapshot = .ok later.toRepos ∧
        later.machineIdentity = .empty ∧ later.rotationPolicy = .empty := by
  unfold importSnapshot
  split
  · rename_i refused
    simp [restore, refused]
  · cases restored : restore env (.empty : Repos lib) snapshot with
    | error failed => simp
    | ok repos =>
      simp only [Except.ok.injEq]
      constructor
      · rintro rfl
        exact ⟨rfl, rfl, rfl⟩
      · rintro ⟨rfl, identities, rotations⟩
        rcases later with ⟨repos, _, _⟩
        cases identities
        cases rotations
        rfl

/-- The decoded snapshot lists the repositories of the store. -/
theorem exported_saved (env : Env) (store : Store lib) :
    Exported decodedExtensions env.range store.toRepos store.savedEntries
      (snapshotOf env store.toRepos store.savedEntries).decoded :=
  (exported_snapshotOf env store.toRepos store.savedEntries).decoded

theorem recover_restored {saveEnv loadEnv : Env} {store later : Store lib}
    (recovered : recoverFromSnapshot loadEnv
      (snapshotOf saveEnv store.toRepos store.savedEntries) = .ok later) :
    Restored decodedExtensions loadEnv store.toRepos store.savedEntries
      (snapshotOf saveEnv store.toRepos store.savedEntries).decoded later.toRepos :=
  (exported_saved saveEnv store).restored (importSnapshot_ok_iff.mp recovered).1

theorem recover_ok_iff {saveEnv loadEnv : Env} {store : Store lib} :
    (∃ later : Store lib, recoverFromSnapshot loadEnv
      (snapshotOf saveEnv store.toRepos store.savedEntries) = .ok later) ↔
      Restorable store.toRepos store.savedEntries := by
  rw [← (exported_saved saveEnv store).restore_ok_iff (fun _ => mem_of_exportedEntries)]
  constructor
  · rintro ⟨later, recovered⟩
    exact ⟨later.toRepos, (importSnapshot_ok_iff.mp recovered).1⟩
  · rintro ⟨repos, restored⟩
    exact ⟨{ Store.new lib with toRepos := repos },
      importSnapshot_ok_iff.mpr ⟨restored, rfl, rfl⟩⟩

end Store

/-- The snapshot of the store that a log leads to is accepted, and restored into
an empty store, exactly if that store is restorable. -/
theorem export_accepted_iff (log : List (Env × Except String Command)) {opts : ExportOptions}
    (fits : opts.auditLimit < 2 ^ 63) (exportEnv restoreEnv : Env) :
    (∃ snapshot later,
      exportRepos exportEnv (run Store.apply (Store.new lib) log).toRepos opts = some snapshot ∧
        validateSnapshot lib snapshot = .ok () ∧
        restore restoreEnv (.empty : Repos lib) snapshot = .ok later) ↔
      Restorable (run Store.apply (Store.new lib) log).toRepos
        (exportedEntries (run Store.apply (Store.new lib) log).audit opts) := by
  generalize run Store.apply (Store.new lib) log = store
  have exported := exported_snapshotOf exportEnv store.toRepos (exportedEntries store.audit opts)
  have accepted : (∃ later, restore restoreEnv (.empty : Repos lib) (snapshotOf exportEnv
      store.toRepos (exportedEntries store.audit opts)) = .ok later) ↔ _ :=
    exported.restore_ok_iff fun _ => Store.mem_of_exportedEntries
  rw [← accepted, exportRepos_eq exportEnv store.toRepos fits]
  constructor
  · rintro ⟨snapshot, later, same, -, restored⟩
    cases same
    exact ⟨later, restored⟩
  · rintro ⟨later, restored⟩
    exact ⟨_, later, rfl, (acceptable_of_restore restored).valid, restored⟩

/-- Save a policy and then a role that names it. -/
def policyAndRole : List (Env × Except String Command) :=
  [(.sample 1, .ok (.write (.policySave {
      id := 1, name := "reader", effect := .allow, resources := ["secrets/*"],
      actions := ["read"] }))),
    (.sample 2, .ok (.write (.roleSave { name := "ops", policies := ["reader"] })))]

theorem export_accepted_policyAndRole :
    Restorable (run Store.apply (Store.new .sample) policyAndRole).toRepos
      (exportedEntries (run Store.apply (Store.new .sample) policyAndRole).audit
        { includeAudit := true }) :=
  (export_accepted_iff policyAndRole (by decide) (.sample 3) (.sample 4)).mp
    ⟨_, _, rfl, rfl, rfl⟩

/-- Save a role that only names a policy built into the server. -/
def builtinRole : Env × Except String Command :=
  (.sample 1, .ok (.write (.roleSave { name := "ops", policies := ["admin"] })))

theorem export_refused :
    ∃ snapshot, exportRepos (.sample 1)
        (run Store.apply (Store.new .sample) [builtinRole]).toRepos {} = some snapshot ∧
      validateSnapshot .sample snapshot =
        .error "role ops references unknown policy admin" :=
  ⟨_, rfl, by decide⟩

/-! ### Transparent snapshots -/

/-- Another replica that loads a snapshot of the store answers every read as the
store does. -/
def Transparent (store : Store lib) : Prop :=
  ∀ saveEnv loadEnv, ∃ snapshot, ∃ later : Store lib, store.saveSnapshot saveEnv = some snapshot ∧
    Store.recoverFromSnapshot loadEnv snapshot = .ok later ∧
    ∀ env cmd, later.lookup env cmd = store.lookup env cmd

/-- What a store may hold so that nothing is lost in a snapshot. -/
structure Portable (store : Store lib) : Prop where
  restorable : Restorable store.toRepos store.savedEntries
  identities : ∀ id, store.machineIdentity.find id = none
  rotations : ∀ path, store.rotationPolicy.find path = none
  /-- A policy would get a new identifier. -/
  policies : ∀ name, store.policy.find name = none
  subjects : ∀ {ca : CA}, store.ca.byID.find ca.id = some ca →
    ca.subject = { commonName := ca.subject.commonName }
  labels : ∀ {secret : SecretVersion}, store.secret.find (secretKey secret) = some secret →
    secret.labels = ∅
  revocations : ∀ {cert : RevokedCertificate},
    store.revoke.serial.find cert.serial = some cert → (store.ca.byID.find cert.caID).isSome
  dbRoles : ∀ {role : DatabaseRole}, store.dbRole.find role.name = some role →
    role.defaultTTL = role.ttlSeconds ∧ role.maxTTL = role.ttlSeconds ∧ role.period = 0 ∧
      role.renewable = false ∧ role.maxLeases = 0 ∧ role.createdAt = {} ∧ role.updatedAt = {}
  sshRoles : ∀ {role : SSHRole}, store.sshRole.find role.name = some role →
    role.defaultTTL = role.ttlSeconds ∧ role.maxTTL = role.ttlSeconds ∧ role.period = 0 ∧
      role.renewable = false ∧ role.maxLeases = 0 ∧ role.extensions ≠ some ∅ ∧
      role.createdAt = {} ∧ role.updatedAt = {}
  leases : ∀ {lease : Lease}, store.lease.find lease.id = some lease →
    lease.tokenID = "" ∧ lease.metadata = ∅
  tokens : ∀ {token : ClientToken}, store.token.find token.id = some token →
    token.parentIdentityID = "" ∧ token.agentID = "" ∧ token.allowedActions = [] ∧
      token.pathPrefix = "" ∧ token.maxExpiresAt = {}
  logLength : store.audit.entries.length ≤ 10000
  logOrder : store.audit.entries.Pairwise fun first second =>
    first.timestamp.instant ≤ second.timestamp.instant
  logFields : ∀ entry ∈ store.audit.entries,
    entry.signature = "" ∧ entry.authMethod = "" ∧ entry.sourceIP = "" ∧
      entry.clientIdentity = "" ∧ entry.failureReason = "" ∧ entry.requestID = "" ∧
      entry.entryNamespace = ""

section Rows

theorem restoredCA_eq_iff {ca : CA} :
    restoredCA ca = ca ↔ ca.subject = { commonName := ca.subject.commonName } := by
  cases ca
  simp [restoredCA, caToDomain, caFromDomain, eq_comm]

theorem restoredSecret_eq_iff {secret : SecretVersion} :
    restoredSecret secret = secret ↔ secret.labels = ∅ := by
  cases secret
  simp [restoredSecret, secretToDomain, secretFromDomain, eq_comm]

theorem restoredDBRole_eq_iff {role : DatabaseRole} (stored : StoredDatabaseRole lib role) :
    restoredDBRole role = role ↔
      role.defaultTTL = role.ttlSeconds ∧ role.maxTTL = role.ttlSeconds ∧ role.period = 0 ∧
        role.renewable = false ∧ role.maxLeases = 0 ∧ role.createdAt = {} ∧
        role.updatedAt = {} := by
  rw [restoredDBRole_eq stored]
  cases role
  simp [eq_comm]

theorem restoredSSHRole_eq_iff {role : SSHRole} (stored : StoredSSHRole role) :
    restoredSSHRole decodedExtensions role = role ↔
      role.defaultTTL = role.ttlSeconds ∧ role.maxTTL = role.ttlSeconds ∧ role.period = 0 ∧
        role.renewable = false ∧ role.maxLeases = 0 ∧ role.extensions ≠ some ∅ ∧
        role.createdAt = {} ∧ role.updatedAt = {} := by
  have kept : some ((decodedExtensions role.extensions).getD
      ((∅ : StringMap).insert "permit-pty" "")) = role.extensions ↔ role.extensions ≠ some ∅ := by
    have set : role.extensions = some (role.extensions.getD _) :=
      (congrArg SSHRole.extensions stored.2).symm
    cases known : role.extensions with
    | none => simp [known] at set
    | some entries =>
      by_cases empty : entries = ∅
      · have filled : (∅ : StringMap).insert "permit-pty" "" ≠ ∅ := fun same => by
          simpa using congrArg Std.ExtTreeMap.isEmpty same
        simp [decodedExtensions, Option.filter, empty, filled]
      · simp [decodedExtensions, Option.filter, empty]
  rw [restoredSSHRole_eq decodedExtensions stored]
  cases role
  simp_all [eq_comm]

theorem restoredLease_eq_iff {lease : Lease} :
    restoredLease lease = lease ↔ lease.tokenID = "" ∧ lease.metadata = ∅ := by
  cases lease
  simp [restoredLease, leaseToDomain, leaseFromDomain, eq_comm]

theorem restoredToken_eq_iff {token : ClientToken} :
    restoredToken token = token ↔
      token.parentIdentityID = "" ∧ token.agentID = "" ∧ token.allowedActions = [] ∧
        token.pathPrefix = "" ∧ token.maxExpiresAt = {} := by
  cases token
  simp [restoredToken, tokenToDomain, tokenFromDomain, eq_comm]

/-- An entry comes back if it is restored at its place and has no other fields. -/
theorem restoredEntry_eq_iff {entry : Entry} {index : Nat} :
    restoredEntry (auditFromDomain entry) index = entry ↔ entry.id = index + 1 ∧
      entry.signature = "" ∧ entry.authMethod = "" ∧ entry.sourceIP = "" ∧
      entry.clientIdentity = "" ∧ entry.failureReason = "" ∧ entry.requestID = "" ∧
      entry.entryNamespace = "" := by
  cases entry
  simp [restoredEntry, auditToDomain, auditFromDomain, eq_comm]

/-- A restored table is the old one if every row comes back as it was. -/
theorem table_eq_iff {Key Row : Type} [Ord Key] [Std.TransOrd Key] [Std.LawfulEqOrd Key]
    {key : Row → Key} {Valid : Row → Prop} {table later : Table key Valid} {convert : Row → Row}
    (rows : ∀ wanted, later.find wanted = (table.find wanted).map convert) :
    later = table ↔ ∀ {row : Row}, table.find (key row) = some row → convert row = row := by
  constructor
  · rintro rfl row stored
    simpa [stored, eq_comm] using rows (key row)
  · intro kept
    refine Table.ext fun wanted => ?_
    rw [rows wanted]
    cases found : table.find wanted with
    | none => rfl
    | some row =>
      obtain rfl := Table.key_of_find found
      rw [Option.map_some, kept found]

end Rows

/-! ### The log comes back -/

theorem log_of_restored {log : AuditRepository}
    (restored : log.entries = (((orderedEntries log).take 10000).map auditFromDomain).mapIdx
      fun index record => restoredEntry record index) :
    log.entries.length ≤ 10000 ∧
      (log.entries.Pairwise fun first second =>
        first.timestamp.instant ≤ second.timestamp.instant) ∧
      ∀ entry ∈ log.entries, entry.signature = "" ∧ entry.authMethod = "" ∧
        entry.sourceIP = "" ∧ entry.clientIdentity = "" ∧ entry.failureReason = "" ∧
        entry.requestID = "" ∧ entry.entryNamespace = "" := by
  refine ⟨?_, ?_, ?_⟩
  · rw [restored]
    simp
  · have times : log.entries.map (fun entry => entry.timestamp.instant) =
        ((orderedEntries log).take 10000).map fun entry => entry.timestamp.instant := by
      rw [restored]
      refine List.ext_getElem (by simp) fun index _ _ => ?_
      simp [restoredEntry, auditToDomain, auditFromDomain]
    have sorted : ((orderedEntries log).take 10000).Pairwise fun first second =>
        first.timestamp.instant ≤ second.timestamp.instant :=
      ((sorted_sortBy (AuditRepository.rank true) log.entries).imp fun ordered =>
        (Prod.Lex.toLex_le_toLex.mp ordered).elim le_of_lt fun same => same.1.le).sublist
          (List.take_sublist _ _)
    rw [← List.pairwise_map, times, List.pairwise_map]
    exact sorted
  · intro entry listed
    rw [restored] at listed
    obtain ⟨index, inside, rfl⟩ := List.mem_mapIdx.mp listed
    exact ⟨rfl, rfl, rfl, rfl, rfl, rfl, rfl⟩

theorem log_restored {log : AuditRepository} (short : log.entries.length ≤ 10000)
    (sorted : log.entries.Pairwise fun first second =>
      first.timestamp.instant ≤ second.timestamp.instant)
    (plain : ∀ entry ∈ log.entries, entry.signature = "" ∧ entry.authMethod = "" ∧
      entry.sourceIP = "" ∧ entry.clientIdentity = "" ∧ entry.failureReason = "" ∧
      entry.requestID = "" ∧ entry.entryNamespace = "") :
    ((((orderedEntries log).take 10000).map auditFromDomain).mapIdx
      fun index record => restoredEntry record index) = log.entries := by
  rw [orderedEntries_of_sorted sorted, List.take_of_length_le short]
  refine List.ext_getElem (by simp) fun index _ inside => ?_
  rw [List.getElem_mapIdx, List.getElem_map]
  exact restoredEntry_eq_iff.mpr
    ⟨log.numbered (List.getElem?_eq_getElem inside), plain _ (List.getElem_mem inside)⟩

/-! ### When snapshots are transparent -/

/-- Loading gives back the store exactly if it loses nothing. -/
theorem Portable.eq {loadEnv : Env} {store later : Store lib} {snapshot : Snapshot}
    (portable : Portable store) (identities : later.machineIdentity = .empty)
    (rotations : later.rotationPolicy = .empty)
    (exported : snapshot.policies = [])
    (restored : Restored decodedExtensions loadEnv store.toRepos store.savedEntries snapshot
      later.toRepos) : later = store := by
  have ca : later.ca = store.ca := CARepository.ext ((table_eq_iff restored.ca).mpr
    fun stored => restoredCA_eq_iff.mpr (portable.subjects stored))
  have secret : later.secret = store.secret := (table_eq_iff restored.secret).mpr
    fun stored => restoredSecret_eq_iff.mpr (portable.labels stored)
  have revoke : later.revoke = store.revoke := RevocationRepository.ext fun caID => by
    rw [restored.revoke caID]
    split
    · rfl
    · rename_i unknown
      refine (List.eq_nil_iff_forall_not_mem.mpr fun cert listed => unknown ?_).symm
      obtain ⟨stored, rfl⟩ := RevocationRepository.mem_listByCA.mp listed
      exact portable.revocations stored
  have policy : later.policy = store.policy := Table.ext fun name => by
    rw [portable.policies name]
    refine Option.eq_none_iff_forall_ne_some.mpr fun policy found => ?_
    obtain rfl := Table.key_of_find found
    obtain ⟨numbered, listed, -⟩ := (restored.policy policy).mp found
    simp [exported] at listed
  have role : later.role = store.role := (table_eq_iff restored.role).mpr fun {role} stored => by
    -- A role names a policy, and there is none.
    have valid : role.validate = .ok () := store.role.valid stored
    obtain ⟨name, listed⟩ := List.exists_mem_of_ne_nil _ (Role.required valid).2
    have known := portable.restorable.rolePolicies stored name listed
    rw [portable.policies name] at known
    cases known
  have dbRole : later.dbRole = store.dbRole := (table_eq_iff restored.dbRole).mpr
    fun stored => (restoredDBRole_eq_iff (store.dbRole.valid stored)).mpr (portable.dbRoles stored)
  have sshRole : later.sshRole = store.sshRole := (table_eq_iff restored.sshRole).mpr
    fun stored =>
      (restoredSSHRole_eq_iff (store.sshRole.valid stored)).mpr (portable.sshRoles stored)
  have lease : later.lease = store.lease := (table_eq_iff restored.lease).mpr
    fun stored => restoredLease_eq_iff.mpr (portable.leases stored)
  have token : later.token = store.token := (table_eq_iff restored.token).mpr
    fun stored => restoredToken_eq_iff.mpr (portable.tokens stored)
  have audit : later.audit = store.audit := AuditRepository.ext (restored.audit.trans
    (log_restored portable.logLength portable.logOrder portable.logFields))
  have identity : later.machineIdentity = store.machineIdentity := identities.trans
    (Table.ext fun id => by rw [portable.identities id, Table.find_empty])
  have rotation : later.rotationPolicy = store.rotationPolicy := rotations.trans
    (Table.ext fun path => by rw [portable.rotations path, Table.find_empty])
  have pkiRole := restored.pkiRole
  have issuedCert := restored.issuedCert
  rcases later with ⟨⟨⟩, _, _⟩
  rcases store with ⟨⟨⟩, _, _⟩
  simp_all

theorem policies_of_none {store : Store lib} {env : Env} {entries : List Entry}
    (none : ∀ name, store.policy.find name = none) :
    (snapshotOf env store.toRepos entries).decoded.policies = [] := by
  refine List.map_eq_nil_iff.mpr (List.eq_nil_iff_forall_not_mem.mpr fun policy listed => ?_)
  have stored : store.policy.find policy.name = some policy := mem_listBy.mp listed
  rw [none policy.name] at stored
  cases stored

theorem Portable.transparent {store : Store lib} (portable : Portable store) :
    Transparent store := by
  intro saveEnv loadEnv
  obtain ⟨later, recovered⟩ := (@Store.recover_ok_iff lib saveEnv loadEnv store).mpr
    portable.restorable
  obtain ⟨-, identities, rotations⟩ := Store.importSnapshot_ok_iff.mp recovered
  have same : later = store := portable.eq identities rotations
    (policies_of_none portable.policies) (Store.recover_restored recovered)
  exact ⟨_, later, Store.saveSnapshot_eq saveEnv store, recovered, fun env cmd => by rw [same]⟩

/-- A transparent snapshot loads as the store itself. -/
theorem Transparent.recovers {store : Store lib} (transparent : Transparent store)
    (saveEnv loadEnv : Env) :
    Store.recoverFromSnapshot loadEnv
      (snapshotOf saveEnv store.toRepos store.savedEntries) = .ok store := by
  obtain ⟨snapshot, later, saved, recovered, same⟩ := transparent saveEnv loadEnv
  rw [Store.saveSnapshot_eq, Option.some.injEq] at saved
  subst saved
  have short : later.audit.entries.length ≤ 10000 := by
    rw [(Store.recover_restored recovered).audit, Store.savedEntries_eq]
    simp
  rw [recovered, Store.eq_of_answers short fun env query => same env (.query query)]

/-- A loaded policy has an identifier that the loading replica drew. -/
theorem Transparent.no_policies {store : Store lib} (transparent : Transparent store)
    (name : String) : store.policy.find name = none := by
  refine Option.eq_none_iff_forall_ne_some.mpr fun policy found => ?_
  obtain rfl := Table.key_of_find found
  obtain ⟨drawn, differs⟩ : ∃ drawn : NewUuid, drawn.1 ≠ policy.id := by
    by_cases one : policy.id = 1
    · exact ⟨⟨2, by decide⟩, by rw [one]; decide⟩
    · exact ⟨⟨1, by decide⟩, Ne.symm one⟩
  let loadEnv : Env := { Env.sample 0 with newUUID := fun _ => drawn }
  have restored := Store.recover_restored (transparent.recovers (.sample 0) loadEnv)
  obtain ⟨numbered, -, same⟩ := (restored.policy policy).mp found
  have id := congrArg Policy.id same
  simp only [PolicyRepository.withID, policyToDomain, if_true] at id
  exact differs id

theorem Transparent.portable {store : Store lib} (transparent : Transparent store) :
    Portable store := by
  have recovered := transparent.recovers (.sample 0) (.sample 0)
  have restored := Store.recover_restored recovered
  obtain ⟨-, identities, rotations⟩ := Store.importSnapshot_ok_iff.mp recovered
  obtain ⟨short, sorted, plain⟩ := log_of_restored restored.audit
  exact {
    restorable := Store.recover_ok_iff.mp ⟨store, recovered⟩
    identities := fun id => by rw [identities, Table.find_empty]
    rotations := fun path => by rw [rotations, Table.find_empty]
    policies := transparent.no_policies
    subjects := fun stored => restoredCA_eq_iff.mp ((table_eq_iff restored.ca).mp rfl stored)
    labels := fun stored =>
      restoredSecret_eq_iff.mp ((table_eq_iff restored.secret).mp rfl stored)
    revocations := fun {cert} stored => by
      have listed := RevocationRepository.mem_listByCA.mpr ⟨stored, rfl⟩
      rw [restored.revoke cert.caID] at listed
      split at listed
      · assumption
      · cases listed
    dbRoles := fun stored => (restoredDBRole_eq_iff (store.dbRole.valid stored)).mp
      ((table_eq_iff restored.dbRole).mp rfl stored)
    sshRoles := fun stored => (restoredSSHRole_eq_iff (store.sshRole.valid stored)).mp
      ((table_eq_iff restored.sshRole).mp rfl stored)
    leases := fun stored => restoredLease_eq_iff.mp ((table_eq_iff restored.lease).mp rfl stored)
    tokens := fun stored => restoredToken_eq_iff.mp ((table_eq_iff restored.token).mp rfl stored)
    logLength := short
    logOrder := sorted
    logFields := plain }

/-- A snapshot of the store that a log leads to is invisible to readers exactly if
the store holds nothing that snapshots lose. -/
theorem snapshot_transparent_iff (log : List (Env × Except String Command)) :
    Transparent (run Store.apply (Store.new lib) log) ↔
      Portable (run Store.apply (Store.new lib) log) :=
  ⟨Transparent.portable, Portable.transparent⟩

/-- Register the identity of a service account. -/
def serviceIdentity : Env × Except String Command :=
  (.sample 1, .ok (.write (.machineIdentitySave
    { id := "k8s_sa:prod:api", type := "k8s_sa", policies := ["reader"] })))

/-- A registered machine identity is gone after loading a snapshot. -/
theorem snapshot_loses_identity :
    ∃ snapshot later,
      (run Store.apply (Store.new .sample) [serviceIdentity]).saveSnapshot (.sample 2) =
          some snapshot ∧
        Store.recoverFromSnapshot (.sample 3) snapshot = .ok later ∧
        (run Store.apply (Store.new .sample) [serviceIdentity]).lookup (.sample 4)
            (.query (.machineIdentityGet "k8s_sa:prod:api")) =
          .ok (some (.identity
            { id := "k8s_sa:prod:api", type := "k8s_sa", policies := ["reader"] })) ∧
        Store.lookup (.sample 4) (later : Store .sample)
            (.query (.machineIdentityGet "k8s_sa:prod:api")) =
          .error .notFound "machine identity not found" :=
  ⟨_, _, rfl, rfl, rfl, rfl⟩

end KnxVault.Raft
