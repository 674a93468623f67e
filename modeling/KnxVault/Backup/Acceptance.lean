import KnxVault.Backup.Roundtrip

/-!
# Which repositories survive export and restore

`Restorable` says exactly when the snapshot of some repositories is accepted and
restored, and `Restored` what the restored repositories hold.
-/

namespace KnxVault.Backup

open KnxVault.Std KnxVault.Domain KnxVault.Repository

variable {lib : Library}

/-- The entries that an export keeps. -/
def exportedEntries (repo : AuditRepository) (opts : ExportOptions) : List Entry :=
  if opts.includeAudit then
    (orderedEntries repo).take (if opts.auditLimit ≤ 0 then 10000 else opts.auditLimit).toNat
  else []

/-- The tables of a snapshot list the repositories, with SSH extensions possibly
changed by the encoding. -/
structure Exported (through : Option StringMap → Option StringMap) (range : MapRange)
    (repos : Repos lib) (entries : List Entry) (snapshot : Snapshot) : Prop where
  version : snapshot.version = formatVersion
  cas : snapshot.cas = (repos.ca.list range).map caFromDomain
  secrets : snapshot.secrets = (repos.secret.listByPath range "").map secretFromDomain
  revoked : snapshot.revoked =
    (repos.ca.list range).flatMap fun ca => repos.revoke.listByCA ca.id
  policies : snapshot.policies = (repos.policy.list range).map policyFromDomain
  roles : snapshot.roles = (repos.role.list range).map roleFromDomain
  pkiRoles : snapshot.pkiRoles = repos.pkiRole.list range
  dbRoles : snapshot.dbRoles = (repos.dbRole.list range).map databaseRoleFromDomain
  sshRoles : snapshot.sshRoles = (repos.sshRole.list range).map (sshRoleRecord through)
  leases : snapshot.leases = (repos.lease.list range).map leaseFromDomain
  issued : snapshot.issued = repos.issuedCert.list range
  audit : snapshot.audit = entries.map auditFromDomain
  tokens : snapshot.tokens = (repos.token.list range).map tokenFromDomain

theorem exportAudit_eq (repo : AuditRepository) {opts : ExportOptions}
    (fits : opts.auditLimit < 2 ^ 63) :
    exportAudit repo opts = some (exportedEntries repo opts) := by
  unfold exportAudit exportedEntries
  split
  · exact list_asc (by split <;> omega) (by split <;> omega)
  · rfl

/-- An export whose page limit is a machine number succeeds. -/
theorem exportRepos_eq (env : Env) (repos : Repos lib) {opts : ExportOptions}
    (fits : opts.auditLimit < 2 ^ 63) :
    exportRepos env repos opts =
      some (snapshotOf env repos (exportedEntries repos.audit opts)) := by
  rw [exportRepos, exportAudit_eq repos.audit fits, Option.map_some]

theorem exported_snapshotOf (env : Env) (repos : Repos lib) (entries : List Entry) :
    Exported id env.range repos entries (snapshotOf env repos entries) := by
  constructor <;> rfl

theorem Exported.decoded {range : MapRange} {repos : Repos lib} {entries : List Entry}
    {snapshot : Snapshot} (exported : Exported id range repos entries snapshot) :
    Exported decodedExtensions range repos entries snapshot.decoded where
  version := exported.version
  cas := exported.cas
  secrets := exported.secrets
  revoked := exported.revoked
  policies := exported.policies
  roles := exported.roles
  pkiRoles := exported.pkiRoles
  dbRoles := exported.dbRoles
  sshRoles := by
    rw [Snapshot.decoded, exported.sshRoles, List.map_map]
    rfl
  leases := exported.leases
  issued := exported.issued
  audit := exported.audit
  tokens := exported.tokens

/-- When a snapshot of the repositories is accepted: every reference is to
something stored, every policy has actions, and the exported part of the log is
without hashes or a chain of them. -/
structure Restorable (repos : Repos lib) (entries : List Entry) : Prop where
  parents : ∀ {ca : CA} {parent : Uuid}, repos.ca.byID.find ca.id = some ca →
    ca.parentID = some parent → (repos.ca.byID.find parent).isSome
  rolePolicies : ∀ {role : Role}, repos.role.find role.name = some role →
    ∀ policy ∈ role.policies, (repos.policy.find policy).isSome
  policyActions : ∀ {policy : Policy}, repos.policy.find policy.name = some policy →
    policy.actions ≠ []
  pkiRoleCAs : ∀ {role : PKIRole}, repos.pkiRole.find role.name = some role →
    ∃ ca, repos.ca.byID.find ca.id = some ca ∧ ca.name = role.caName
  issuedCAs : ∀ {cert : IssuedCertificate}, repos.issuedCert.find (certKey cert) = some cert →
    (repos.ca.byID.find cert.caID).isSome
  chain : (∀ entry ∈ entries, entry.hash = "") ∨ Chained lib "" (entries.map auditFromDomain)

/-- What restored repositories hold. -/
structure Restored (through : Option StringMap → Option StringMap) (loadEnv : Env)
    (repos : Repos lib) (entries : List Entry) (snapshot : Snapshot) (later : Repos lib) :
    Prop where
  ca : ∀ wanted, later.ca.byID.find wanted = (repos.ca.byID.find wanted).map restoredCA
  secret : ∀ wanted, later.secret.find wanted = (repos.secret.find wanted).map restoredSecret
  revoke : ∀ caID, later.revoke.listByCA caID =
    if (repos.ca.byID.find caID).isSome then repos.revoke.listByCA caID else []
  policy : ∀ stored, later.policy.find stored.name = some stored ↔
    ∃ numbered ∈ snapshot.policies.zipIdx,
      PolicyRepository.withID (loadEnv.newUUID numbered.2) (policyToDomain numbered.1) = stored
  role : ∀ wanted, later.role.find wanted = (repos.role.find wanted).map restoredRole
  pkiRole : later.pkiRole = repos.pkiRole
  dbRole : ∀ wanted, later.dbRole.find wanted = (repos.dbRole.find wanted).map restoredDBRole
  sshRole : ∀ wanted,
    later.sshRole.find wanted = (repos.sshRole.find wanted).map (restoredSSHRole through)
  lease : ∀ wanted, later.lease.find wanted = (repos.lease.find wanted).map restoredLease
  issuedCert : later.issuedCert = repos.issuedCert
  token : ∀ wanted, later.token.find wanted = (repos.token.find wanted).map restoredToken
  audit : later.audit.entries =
    (entries.map auditFromDomain).mapIdx fun index record => restoredEntry record index

section

variable {through : Option StringMap → Option StringMap} {range : MapRange} {loadEnv : Env}
  {repos start later : Repos lib} {entries : List Entry} {snapshot : Snapshot}

/-- An authority is known to the snapshot exactly if it is stored. -/
theorem Exported.mem_ids (exported : Exported through range repos entries snapshot) {id : Uuid} :
    id ∈ snapshot.cas.map CARecord.id ↔ (repos.ca.byID.find id).isSome :=
  mem_keys exported.cas fun _ => rfl

theorem Exported.mem_names (exported : Exported through range repos entries snapshot)
    {name : String} :
    name ∈ snapshot.cas.map CARecord.name ↔
      ∃ ca, repos.ca.byID.find ca.id = some ca ∧ ca.name = name := by
  rw [exported.cas, List.map_map, List.mem_map]
  exact exists_congr fun ca => and_congr_left' mem_listBy

theorem Exported.mem_policyNames (exported : Exported through range repos entries snapshot)
    {name : String} :
    name ∈ snapshot.policies.map PolicyRecord.name ↔ (repos.policy.find name).isSome :=
  mem_keys exported.policies fun _ => rfl

/-- The listed authorities always pass: they are stored under distinct
identifiers and names. -/
theorem Exported.validateCAs_ok (exported : Exported through range repos entries snapshot) :
    validateCAs [] [] snapshot.cas = .ok () := by
  have stored : ∀ ca ∈ repos.ca.list range, repos.ca.byID.find ca.id = some ca := fun ca listed =>
    mem_listBy.mp listed
  have ids : ((repos.ca.list range).map CA.id).Nodup := nodup_listBy _ range repos.ca.byID
  rw [validateCAs_ok_iff, exported.cas]
  refine ⟨?_, by simpa [Function.comp_def, caFromDomain] using ids, ?_⟩
  · intro record listed
    obtain ⟨ca, inList, rfl⟩ := List.mem_map.mp listed
    have valid : ca.validate = .ok () := repos.ca.byID.valid (stored ca inList)
    exact ⟨(CA.required valid).1, (CA.required valid).2, by simp, by simp⟩
  · rw [List.map_map]
    refine (List.nodup_map_iff_inj_on (List.Nodup.of_map _ ids)).mpr ?_
    intro first inFirst second inSecond same
    exact repos.ca.distinct (stored first inFirst) (stored second inSecond) same

theorem Exported.parents_ok_iff (exported : Exported through range repos entries snapshot) :
    (∀ record ∈ snapshot.cas, checkParent (snapshot.cas.map CARecord.id) record = none) ↔
      ∀ {ca : CA} {parent : Uuid}, repos.ca.byID.find ca.id = some ca →
        ca.parentID = some parent → (repos.ca.byID.find parent).isSome := by
  have check : ∀ ca : CA, checkParent (snapshot.cas.map CARecord.id) (caFromDomain ca) = none ↔
      ∀ parent, ca.parentID = some parent → (repos.ca.byID.find parent).isSome := by
    intro ca
    simp only [checkParent, caFromDomain, exported.mem_ids]
    cases ca.parentID with
    | none => simp
    | some parent => simp [Option.isSome_iff_ne_none]
  constructor
  · intro passed ca parent stored
    have listed : caFromDomain ca ∈ snapshot.cas :=
      exported.cas ▸ List.mem_map_of_mem (mem_listBy.mpr stored)
    exact (check ca).mp (passed _ listed) parent
  · intro known record listed
    rw [exported.cas] at listed
    obtain ⟨ca, inList, rfl⟩ := List.mem_map.mp listed
    exact (check ca).mpr fun parent => known (mem_listBy.mp inList)

theorem Exported.roles_ok_iff (exported : Exported through range repos entries snapshot) :
    (∀ record ∈ snapshot.roles,
      checkRole (snapshot.policies.map PolicyRecord.name) record = none) ↔
      ∀ {role : Role}, repos.role.find role.name = some role →
        ∀ policy ∈ role.policies, (repos.policy.find policy).isSome := by
  have check : ∀ role : Role, role.name ≠ "" →
      (checkRole (snapshot.policies.map PolicyRecord.name) (roleFromDomain role) = none ↔
        ∀ policy ∈ role.policies, (repos.policy.find policy).isSome) := by
    intro role named
    simp only [checkRole, roleFromDomain, if_neg named, Option.map_eq_none_iff,
      List.find?_eq_none, exported.mem_policyNames]
    simp [Option.isSome_iff_ne_none]
  constructor
  · intro passed role stored
    have listed : roleFromDomain role ∈ snapshot.roles :=
      exported.roles ▸ List.mem_map_of_mem (mem_listBy.mpr stored)
    have valid : role.validate = .ok () := repos.role.valid stored
    exact (check role (Role.required valid).1).mp (passed _ listed)
  · intro known record listed
    rw [exported.roles] at listed
    obtain ⟨role, inList, rfl⟩ := List.mem_map.mp listed
    have stored : repos.role.find role.name = some role := mem_listBy.mp inList
    have valid : role.validate = .ok () := repos.role.valid stored
    exact (check role (Role.required valid).1).mpr (known stored)

theorem Exported.pkiRoles_ok_iff (exported : Exported through range repos entries snapshot) :
    (∀ role ∈ snapshot.pkiRoles, checkPKIRole (snapshot.cas.map CARecord.name) role = none) ↔
      ∀ {role : PKIRole}, repos.pkiRole.find role.name = some role →
        ∃ ca, repos.ca.byID.find ca.id = some ca ∧ ca.name = role.caName := by
  have check : ∀ role : PKIRole, repos.pkiRole.find role.name = some role →
      (checkPKIRole (snapshot.cas.map CARecord.name) role = none ↔
        ∃ ca, repos.ca.byID.find ca.id = some ca ∧ ca.name = role.caName) := by
    intro role stored
    have valid : StoredPKIRole role := repos.pkiRole.valid stored
    have required := PKIRole.required valid.1
    simp only [checkPKIRole, if_neg required.1, if_neg required.2, ite_eq_left_iff, reduceCtorEq,
      imp_false, not_not, exported.mem_names]
  rw [exported.pkiRoles]
  constructor
  · intro passed role stored
    exact (check role stored).mp (passed role (mem_listBy.mpr stored))
  · intro known role listed
    have stored : repos.pkiRole.find role.name = some role := mem_listBy.mp listed
    exact (check role stored).mpr (known stored)

theorem Exported.issued_ok_iff (exported : Exported through range repos entries snapshot) :
    validateIssued (snapshot.cas.map CARecord.id) [] snapshot.issued = .ok () ↔
      ∀ {cert : IssuedCertificate}, repos.issuedCert.find (certKey cert) = some cert →
        (repos.ca.byID.find cert.caID).isSome := by
  have serials : ((repos.issuedCert.list range).map fun cert => (cert.caID, cert.serial)).Nodup :=
    nodup_listBy _ range repos.issuedCert
  rw [validateIssued_ok_iff, exported.issued]
  simp only [exported.mem_ids, serials, and_true, List.not_mem_nil, not_false_eq_true]
  constructor
  · intro passed cert stored
    exact (passed cert (mem_listBy.mpr stored)).2
  · intro known cert listed
    have stored : repos.issuedCert.find (certKey cert) = some cert := mem_listBy.mp listed
    have valid : cert.validate = .ok () := repos.issuedCert.valid stored
    exact ⟨IssuedCertificate.caID_required valid, known stored⟩

theorem Exported.audit_ok_iff (exported : Exported through range repos entries snapshot) :
    validateAuditRecords lib snapshot.audit = .ok () ↔
      (∀ entry ∈ entries, entry.hash = "") ∨ Chained lib "" (entries.map auditFromDomain) := by
  rw [validateAuditRecords_ok_iff, exported.audit]
  simp only [List.forall_mem_map]
  rfl

/-- The validator accepts a snapshot whose references and log are in order. -/
theorem Exported.validateSnapshot_ok_iff
    (exported : Exported through range repos entries snapshot)
    (active : ∀ {policy : Policy}, repos.policy.find policy.name = some policy →
      policy.actions ≠ []) :
    validateSnapshot lib snapshot = .ok () ↔ Restorable repos entries := by
  have policies : ∀ record ∈ snapshot.policies, checkPolicy record = none := by
    intro record listed
    rw [exported.policies] at listed
    obtain ⟨policy, inList, rfl⟩ := List.mem_map.mp listed
    have stored : StoredPolicy policy := repos.policy.valid (mem_listBy.mp inList)
    exact if_neg (Policy.name_required stored.1)
  rw [KnxVault.Backup.validateSnapshot_ok_iff, exported.parents_ok_iff, exported.roles_ok_iff,
    exported.pkiRoles_ok_iff, exported.issued_ok_iff, exported.audit_ok_iff]
  constructor
  · rintro ⟨-, -, parents, -, rolePolicies, pkiRoleCAs, issuedCAs, chain⟩
    exact ⟨parents, rolePolicies, active, pkiRoleCAs, issuedCAs, chain⟩
  · intro restorable
    exact ⟨exported.version, exported.validateCAs_ok, restorable.parents, policies,
      restorable.rolePolicies, restorable.pkiRoleCAs, restorable.issuedCAs, restorable.chain⟩

/-- Without its capabilities a policy is accepted only if it has actions. -/
theorem Exported.policies_ok_iff (exported : Exported through range repos entries snapshot) :
    (∀ record ∈ snapshot.policies, (policyToDomain record).validate = .ok ()) ↔
      ∀ {policy : Policy}, repos.policy.find policy.name = some policy → policy.actions ≠ [] := by
  have check : ∀ policy : Policy, repos.policy.find policy.name = some policy →
      ((restoredPolicy policy).validate = .ok () ↔ policy.actions ≠ []) := fun _ stored =>
    validate_restoredPolicy (repos.policy.valid stored)
  rw [exported.policies, List.forall_mem_map]
  constructor
  · intro passed policy stored
    exact (check policy stored).mp (passed policy (mem_listBy.mpr stored))
  · intro active policy listed
    have stored : repos.policy.find policy.name = some policy := mem_listBy.mp listed
    exact (check policy stored).mpr (active stored)

/-- Every stored row passes the check of its repository again. -/
theorem Exported.acceptable (exported : Exported through range repos entries snapshot)
    (logged : ∀ entry ∈ entries, entry ∈ repos.audit.entries)
    (restorable : Restorable repos entries) : Acceptable lib snapshot where
  valid := (exported.validateSnapshot_ok_iff restorable.policyActions).mpr restorable
  cas := forall_records exported.cas fun _ valid => valid
  secrets := forall_records (listByPath_empty range repos.secret ▸ exported.secrets)
    fun _ valid => valid
  versions := by
    rw [exported.secrets, listByPath_empty, List.map_map]
    exact nodup_listBy secretKey range repos.secret
  policies := exported.policies_ok_iff.mpr restorable.policyActions
  roles := forall_records exported.roles fun _ valid => valid
  pkiRoles := forall_records (exported.pkiRoles.trans (List.map_id _).symm) fun _ stored => stored.1
  dbRoles := by
    refine forall_records exported.dbRoles fun role stored => ?_
    have restored := stored_restoredDBRole stored
    rw [DatabaseRole.validate]
    exact restored.2.symm ▸ restored.1
  sshRoles := by
    refine forall_records exported.sshRoles fun role stored => ?_
    have restored := stored_restoredSSHRole through stored
    rw [SSHRole.validate]
    exact restored.2.symm ▸ restored.1
  leases := forall_records exported.leases fun _ valid => valid
  issued := forall_records (exported.issued.trans (List.map_id _).symm) fun _ valid => valid
  tokens := forall_records exported.tokens fun _ named => named
  audit := by
    rw [exported.audit, List.forall_mem_map]
    exact fun entry listed => repos.audit.valid entry (logged entry listed)

/-- Names of policies are unique, so none hides another. -/
theorem Exported.restored_of_loaded (exported : Exported through range repos entries snapshot)
    (loaded : Loaded loadEnv snapshot later) :
    Restored through loadEnv repos entries snapshot later where
  ca := (loaded.ca.covers fun _ => rfl).find_of_listed exported.cas (fun _ => mem_listBy)
    fun _ => rfl
  secret := (loaded.secret.covers fun _ => rfl).find_of_listed
    (listByPath_empty range repos.secret ▸ exported.secrets) (fun _ => mem_listBy) fun _ => rfl
  revoke := loaded.revoke ▸ listByCA_restoreRevoked exported.revoked
  policy := by
    have names : ((numberedPolicies loadEnv snapshot).map Policy.name).Nodup := by
      rw [map_numberedPolicies Policy.name fun _ _ => PolicyRepository.name_withID _ _,
        exported.policies, List.map_map]
      exact nodup_listBy Policy.name range repos.policy
    intro stored
    have holds := (loaded.policy.holds_iff fun _ => rfl).mpr (.of_nodup names) stored
    simpa [numberedPolicies] using holds
  role := loaded.role.find_of_listed exported.roles (fun _ => mem_listBy) fun _ => rfl
  pkiRole := by
    have named : ∀ role : PKIRole, role.normalize.name = role.name := fun role => by
      unfold PKIRole.normalize
      split <;> rfl
    refine Table.ext fun wanted => ?_
    rw [loaded.pkiRole.find_of_listed (exported.pkiRoles.trans (List.map_id _).symm)
      (fun _ => mem_listBy) named wanted]
    cases found : repos.pkiRole.find wanted with
    | none => rfl
    | some role => exact congrArg some (repos.pkiRole.valid found).2
  dbRole := loaded.dbRole.find_of_listed exported.dbRoles (fun _ => mem_listBy) fun _ => rfl
  sshRole := loaded.sshRole.find_of_listed exported.sshRoles (fun _ => mem_listBy) fun _ => rfl
  lease := loaded.lease.find_of_listed exported.leases (fun _ => mem_listBy) fun _ => rfl
  issuedCert := by
    have covers := loaded.issuedCert.covers fun _ => rfl
    rw [← List.map_id snapshot.issued] at covers
    refine Table.ext fun wanted => ?_
    rw [covers.find_of_listed (exported.issued.trans (List.map_id _).symm) (fun _ => mem_listBy)
      (fun _ => rfl) wanted]
    exact congrFun Option.map_id_fun _
  token := loaded.token.find_of_listed exported.tokens (fun _ => mem_listBy) fun _ => rfl
  audit := exported.audit ▸ loaded.audit

/-- Restoring a snapshot of the repositories succeeds exactly if they are
restorable, whatever was in place before. -/
theorem Exported.restore_ok_iff (exported : Exported through range repos entries snapshot)
    (logged : ∀ entry ∈ entries, entry ∈ repos.audit.entries) :
    (∃ later, restore loadEnv start snapshot = .ok later) ↔ Restorable repos entries := by
  constructor
  · rintro ⟨later, ended⟩
    have acceptable := acceptable_of_restore ended
    exact (exported.validateSnapshot_ok_iff (exported.policies_ok_iff.mp acceptable.policies)).mp
      acceptable.valid
  · intro restorable
    have acceptable := exported.acceptable logged restorable
    obtain ⟨later, ended, -⟩ := restoreRecords_of_acceptable acceptable loadEnv
    exact ⟨later, (restore_of_valid acceptable.valid loadEnv start).trans ended⟩

/-- What a restore that succeeds leaves. -/
theorem Exported.restored (exported : Exported through range repos entries snapshot)
    (ended : restore loadEnv start snapshot = .ok later) :
    Restored through loadEnv repos entries snapshot later := by
  have acceptable := acceptable_of_restore ended
  obtain ⟨other, also, loaded⟩ := restoreRecords_of_acceptable acceptable loadEnv
  rw [restore_of_valid acceptable.valid, also, Except.ok.injEq] at ended
  exact exported.restored_of_loaded (ended ▸ loaded)

end

end KnxVault.Backup
