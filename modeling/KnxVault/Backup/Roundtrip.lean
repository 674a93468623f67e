import KnxVault.Backup.Restore

/-!
# What comes back from a snapshot

Exporting a repository and restoring the records gives a repository with one row
for each exported one, without the fields that records leave out.
-/

namespace KnxVault.Backup

open KnxVault.Std KnxVault.Domain KnxVault.Repository

section Rows

variable {Key Row Rank Record : Type} [Ord Key] [Std.TransOrd Key] [Std.LawfulEqOrd Key]
  [LinearOrder Rank] {key : Row → Key} {Valid : Row → Prop} {rank : Row → Rank} {range : MapRange}
  {source : Table key Valid} {records : List Record} {convert : Row → Record}

/-- What the records of valid rows satisfy, the records of a table do. -/
theorem forall_records {Good : Record → Prop}
    (exported : records = (listBy rank range source).map convert)
    (good : ∀ row, Valid row → Good (convert row)) : ∀ record ∈ records, Good record := by
  rw [exported, List.forall_mem_map]
  exact fun row listed => good row (Table.valid_of_find (mem_listBy.mp listed))

/-- The keys of the records of a table are those that are stored. -/
theorem mem_keys {keyOf : Record → Key}
    (exported : records = (listBy rank range source).map convert)
    (same : ∀ row, keyOf (convert row) = key row) {wanted : Key} :
    wanted ∈ records.map keyOf ↔ (source.find wanted).isSome := by
  rw [exported, List.map_map, List.mem_map]
  constructor
  · rintro ⟨row, listed, rfl⟩
    rw [Function.comp, same, mem_listBy.mp listed]
    rfl
  · intro known
    obtain ⟨row, found⟩ := Option.isSome_iff_exists.mp known
    obtain rfl := Table.key_of_find found
    exact ⟨row, mem_listBy.mpr found, same row⟩

end Rows

variable {lib : Library}

/-! ### The rows that come back -/

def restoredCA (ca : CA) : CA := caToDomain (caFromDomain ca)

def restoredSecret (secret : SecretVersion) : SecretVersion :=
  secretToDomain (secretFromDomain secret)

def restoredPolicy (policy : Policy) : Policy := policyToDomain (policyFromDomain policy)

def restoredRole (role : Role) : Role := roleToDomain (roleFromDomain role)

def restoredDBRole (role : DatabaseRole) : DatabaseRole :=
  databaseRoleToDomain (databaseRoleFromDomain role)

/-- The record of an SSH role whose extensions went through `through`. -/
def sshRoleRecord (through : Option StringMap → Option StringMap) (role : SSHRole) :
    SSHRoleRecord :=
  { sshRoleFromDomain role with extensions := through (sshRoleFromDomain role).extensions }

def restoredSSHRole (through : Option StringMap → Option StringMap) (role : SSHRole) : SSHRole :=
  sshRoleToDomain (sshRoleRecord through role)

def restoredLease (lease : Lease) : Lease := leaseToDomain (leaseFromDomain lease)

def restoredToken (token : ClientToken) : ClientToken := tokenToDomain (tokenFromDomain token)

theorem restoredDBRole_eq {role : DatabaseRole} (stored : StoredDatabaseRole lib role) :
    restoredDBRole role = { role with
      defaultTTL := role.ttlSeconds, maxTTL := role.ttlSeconds, period := 0, renewable := false,
      maxLeases := 0, createdAt := {}, updatedAt := {} } := by
  have positive := (DatabaseRole.check_ok_iff.mp stored.1).2.1
  have mode : DatabaseRole.normalizeMode role.executionMode = role.executionMode :=
    congrArg DatabaseRole.executionMode stored.2
  have path : trimSpace role.adminCredentialsPath = role.adminCredentialsPath :=
    congrArg DatabaseRole.adminCredentialsPath stored.2
  have unset : orDefault 0 role.ttlSeconds = role.ttlSeconds := rfl
  simp only [restoredDBRole, databaseRoleFromDomain, databaseRoleToDomain,
    DatabaseRole.normalize, DatabaseRole.normalizeLeaseTuning, mode, path, unset,
    orDefault_of_pos positive]

/-- The stored form of what comes back passes the check again. -/
theorem stored_restoredDBRole {role : DatabaseRole} (stored : StoredDatabaseRole lib role) :
    StoredDatabaseRole lib (restoredDBRole role) := by
  refine ⟨?_, DatabaseRole.normalize_normalize _⟩
  rw [restoredDBRole_eq stored]
  exact DatabaseRole.check_ok_iff.mpr (DatabaseRole.check_ok_iff.mp stored.1)

theorem restoredSSHRole_eq (through : Option StringMap → Option StringMap) {role : SSHRole}
    (stored : StoredSSHRole role) :
    restoredSSHRole through role = { role with
      defaultTTL := role.ttlSeconds, maxTTL := role.ttlSeconds, period := 0, renewable := false,
      maxLeases := 0, createdAt := {}, updatedAt := {},
      extensions := some ((through role.extensions).getD
        ((∅ : StringMap).insert "permit-pty" "")) } := by
  have ttl : orDefault role.ttlSeconds 3600 = role.ttlSeconds :=
    congrArg SSHRole.ttlSeconds stored.2
  have keyType : orText role.keyType sshKeyTypeED25519 = role.keyType :=
    congrArg SSHRole.keyType stored.2
  have unset : orDefault 0 role.ttlSeconds = role.ttlSeconds := rfl
  simp only [restoredSSHRole, sshRoleRecord, sshRoleFromDomain, stored.2, sshRoleToDomain]
  simp only [SSHRole.normalize, ttl, keyType, unset]

theorem stored_restoredSSHRole (through : Option StringMap → Option StringMap) {role : SSHRole}
    (stored : StoredSSHRole role) : StoredSSHRole (restoredSSHRole through role) := by
  refine ⟨?_, SSHRole.normalize_normalize _⟩
  rw [restoredSSHRole_eq through stored]
  exact stored.1

/-- Without its capabilities a policy is valid only if it has actions. -/
theorem validate_restoredPolicy {policy : Policy} (stored : StoredPolicy policy) :
    (restoredPolicy policy).validate = .ok () ↔ policy.actions ≠ [] := by
  have valid := stored.1
  unfold Policy.validate at valid ⊢
  simp only [restoredPolicy, policyToDomain, policyFromDomain]
  split_ifs at valid ⊢ <;> simp_all

/-- Every secret is listed under the empty path. -/
theorem listByPath_empty (range : MapRange) (source : SecretRepository) :
    source.listByPath range "" = listBy secretKey range source := by
  have everything : ∀ secret ∈ source.visit range, hasPrefix secret.path "" = true :=
    fun _ _ => rfl
  rw [SecretRepository.listByPath, List.filter_eq_self.mpr everything]
  rfl

/-! ### What an accepted snapshot leaves -/

section Tables

variable {snapshot : Snapshot}

/-- Saves that never look at other rows leave a table that covers the records. -/
theorem restoreEach_covers {Key Row Record : Type} [Ord Key] [Std.TransOrd Key]
    [Std.LawfulEqOrd Key] [DecidableEq Key] {key : Row → Key} {Valid : Row → Prop}
    {context : Record → String}
    {save : Table key Valid → Record → Except KNXVaultError (Table key Valid)}
    {records : List Record} (row : Record → Row)
    (saves : ∀ table, ∀ record ∈ records, ∃ isValid : Valid (row record),
      save table record = .ok (table.put (row record) isValid)) :
    ∃ later, restoreEach context save .empty records = .ok later ∧
      later.Covers id (records.map row) :=
  saveEach_covers row fun table record listed =>
    (saves table record listed).imp fun _ saved => mapError_ok_iff.mpr saved

theorem restoreRoles_covers
    (valid : ∀ record ∈ snapshot.roles, (roleToDomain record).validate = .ok ()) :
    ∃ later, restoreRoles snapshot = .ok later ∧
      later.Covers id (snapshot.roles.map roleToDomain) :=
  restoreEach_covers roleToDomain fun _ record listed =>
    ⟨valid record listed, saveRow_of_ok (valid record listed) rfl _⟩

theorem restorePKIRoles_covers
    (valid : ∀ record ∈ snapshot.pkiRoles, PKIRole.validate record = .ok ()) :
    ∃ later, restorePKIRoles snapshot = .ok later ∧
      later.Covers id (snapshot.pkiRoles.map PKIRole.normalize) :=
  restoreEach_covers PKIRole.normalize fun _ record listed =>
    ⟨⟨record.validate_normalize.trans (valid record listed), record.normalize_normalize⟩,
      saveRow_of_ok (valid record listed) rfl _⟩

theorem restoreDBRoles_covers (env : Env) (valid : ∀ record ∈ snapshot.dbRoles,
      (databaseRoleToDomain record).validate lib MapRange.sorted = .ok ()) :
    ∃ later : DatabaseRoleRepository lib, restoreDBRoles env snapshot = .ok later ∧
      later.Covers id (snapshot.dbRoles.map databaseRoleToDomain) := by
  refine restoreEach_covers databaseRoleToDomain fun _ record listed => ?_
  have normal : (databaseRoleToDomain record).normalize = databaseRoleToDomain record :=
    DatabaseRole.normalize_normalize _
  have passed := valid record listed
  rw [DatabaseRole.validate, normal] at passed
  refine ⟨⟨passed, normal⟩, saveRow_of_ok ?_ normal _⟩
  rw [DatabaseRole.validate, normal]
  exact (DatabaseRole.check_range lib env.range MapRange.sorted _).mpr passed

theorem restoreSSHRoles_covers
    (valid : ∀ record ∈ snapshot.sshRoles, (sshRoleToDomain record).validate = .ok ()) :
    ∃ later, restoreSSHRoles snapshot = .ok later ∧
      later.Covers id (snapshot.sshRoles.map sshRoleToDomain) := by
  refine restoreEach_covers sshRoleToDomain fun _ record listed => ?_
  have normal : (sshRoleToDomain record).normalize = sshRoleToDomain record :=
    SSHRole.normalize_normalize _
  have passed := valid record listed
  rw [SSHRole.validate, normal] at passed
  exact ⟨⟨passed, normal⟩, saveRow_of_ok (valid record listed) normal _⟩

theorem restoreLeases_covers
    (valid : ∀ record ∈ snapshot.leases, (leaseToDomain record).validate = .ok ()) :
    ∃ later, restoreLeases snapshot = .ok later ∧
      later.Covers id (snapshot.leases.map leaseToDomain) :=
  restoreEach_covers leaseToDomain fun _ record listed =>
    ⟨valid record listed, saveRow_of_ok (valid record listed) rfl _⟩

theorem restoreTokens_covers (named : ∀ record ∈ snapshot.tokens, record.id ≠ "") :
    ∃ later, restoreTokens snapshot = .ok later ∧
      later.Covers id (snapshot.tokens.map tokenToDomain) :=
  restoreEach_covers tokenToDomain fun _ record listed =>
    ⟨named record listed, dif_neg (named record listed)⟩

/-- Certificates are saved once, as the check has made sure. -/
theorem restoreIssued_holds (valid : validateSnapshot lib snapshot = .ok ())
    (checked : ∀ record ∈ snapshot.issued, IssuedCertificate.validate record = .ok ()) :
    ∃ later, restoreIssued snapshot = .ok later ∧ later.Holds id snapshot.issued := by
  have covered : ∃ later, restoreIssued snapshot = .ok later ∧
      later.Covers id (snapshot.issued.map id) :=
    restoreEach_covers id fun _ record listed =>
      ⟨checked record listed, saveRow_of_ok (checked record listed) rfl _⟩
  obtain ⟨later, ended, covers⟩ := covered
  rw [List.map_id] at covers
  obtain ⟨-, -, -, -, -, -, issued, -⟩ := validateSnapshot_ok_iff.mp valid
  exact ⟨later, ended, (covers.holds_iff fun _ => rfl).mpr
    (.of_nodup (validateIssued_ok_iff.mp issued).2)⟩

theorem restoreSecrets_holds
    (valid : ∀ record ∈ snapshot.secrets, (secretToDomain record).validate = .ok ())
    (versions : (snapshot.secrets.map fun record => secretKey (secretToDomain record)).Nodup) :
    ∃ later, restoreSecrets snapshot = .ok later ∧
      later.Holds id (snapshot.secrets.map secretToDomain) := by
  have saved : ∃ later, restoreSecrets snapshot = .ok later ∧ ∀ stored,
      later.find (secretKey stored) = some stored ↔
        ∃ record ∈ snapshot.secrets, secretToDomain record = stored := by
    refine saveEach_table id secretToDomain Table.find_empty valid versions ?_
    intro table record listed others
    have absent : table.find (secretKey (secretToDomain record)) = none := by
      cases found : table.find (secretKey (secretToDomain record)) with
      | none => rfl
      | some other =>
        have key := Table.key_of_find found
        exact absurd key (others other (key ▸ found)).1
    have saved := SecretRepository.saveVersion_of_ok (valid record listed) absent
    exact ⟨_, mapError_ok_iff.mpr saved, rfl⟩
  obtain ⟨later, ended, rows⟩ := saved
  refine ⟨later, ended, fun row => ?_⟩
  rw [List.mem_map, ← rows row]
  simp

/-- The check has made sure that no name of an authority is taken. -/
theorem restoreCAs_holds (valid : validateSnapshot lib snapshot = .ok ())
    (checked : ∀ record ∈ snapshot.cas, (caToDomain record).validate = .ok ()) :
    ∃ later, restoreCAs snapshot = .ok later ∧
      later.byID.Holds id (snapshot.cas.map caToDomain) := by
  obtain ⟨-, cas, -⟩ := validateSnapshot_ok_iff.mp valid
  obtain ⟨-, ids, names⟩ := validateCAs_ok_iff.mp cas
  have permuted := perm_sortBy (lessBy fun record : CARecord =>
    toLex (record.parentID.isSome, record.name)) snapshot.cas
  have listed : ∀ record, record ∈ sortCAs snapshot.cas ↔ record ∈ snapshot.cas := fun _ =>
    permuted.mem_iff
  have saved : ∃ later, restoreCAs snapshot = .ok later ∧ ∀ stored,
      later.byID.find stored.id = some stored ↔
        ∃ record ∈ sortCAs snapshot.cas, caToDomain record = stored := by
    refine saveEach_table CARepository.byID caToDomain Table.find_empty
      (fun record inSorted => checked record ((listed record).mp inSorted))
      ((permuted.map _).nodup_iff.mpr ids) ?_
    intro repo record inSorted others
    have free : repo.nameTaken (caToDomain record) = false := by
      refine Bool.eq_false_iff.mpr fun taken => ?_
      obtain ⟨existing, found, differs, sameName⟩ := CARepository.nameTaken_iff.mp taken
      obtain ⟨-, earlier, inEarlier, rfl⟩ := others existing found
      have same : earlier = record := List.inj_on_of_nodup_map names
        ((listed earlier).mp inEarlier) ((listed record).mp inSorted) sameName
      exact differs (same ▸ rfl)
    have saved := CARepository.save_ok_iff.mpr
      ⟨checked record ((listed record).mp inSorted), free, rfl⟩
    exact ⟨_, mapError_ok_iff.mpr saved, rfl⟩
  obtain ⟨later, ended, rows⟩ := saved
  refine ⟨later, ended, fun row => ?_⟩
  rw [List.mem_map]
  simp only [id, exists_eq_right, rows row, listed]

/-- The policies of the records, under the identifiers that restoring draws. -/
def numberedPolicies (env : Env) (snapshot : Snapshot) : List Policy :=
  snapshot.policies.zipIdx.map fun numbered =>
    PolicyRepository.withID (env.newUUID numbered.2) (policyToDomain numbered.1)

/-- What records say of policies does not depend on the identifiers. -/
theorem map_numberedPolicies {Shown : Type} (shown : Policy → Shown)
    (apart : ∀ newUUID record, shown (PolicyRepository.withID newUUID (policyToDomain record)) =
      shown (policyToDomain record)) (env : Env) (snapshot : Snapshot) :
    (numberedPolicies env snapshot).map shown =
      snapshot.policies.map fun record => shown (policyToDomain record) := by
  have firsts := congrArg (List.map fun record => shown (policyToDomain record))
    (List.zipIdx_map_fst 0 snapshot.policies)
  rw [← firsts, numberedPolicies, List.map_map, List.map_map]
  exact List.map_congr_left fun numbered _ => apart _ numbered.1

theorem restorePolicies_covers (env : Env)
    (valid : ∀ record ∈ snapshot.policies, (policyToDomain record).validate = .ok ()) :
    ∃ later, restorePolicies env snapshot = .ok later ∧
      later.Covers id (numberedPolicies env snapshot) := by
  refine restoreEach_covers (fun numbered : PolicyRecord × Nat => PolicyRepository.withID
    (env.newUUID numbered.2) (policyToDomain numbered.1)) fun table numbered listed => ?_
  have checked := valid _ (List.fst_mem_of_mem_zipIdx listed)
  exact ⟨PolicyRepository.stored_withID _ checked,
    PolicyRepository.save_ok_iff.mpr ⟨checked, rfl⟩⟩

/-- Of several revocations of a serial the first counts. -/
theorem restoreRevoked_covers (snapshot : Snapshot) :
    (restoreRevoked snapshot).serial.Covers id snapshot.revoked := by
  suffices loop : ∀ (records done : List RevokedCertificate) (repo : RevocationRepository),
      repo.serial.Covers id done →
      (records.foldl RevocationRepository.revoke repo).serial.Covers id (done ++ records) from
    loop snapshot.revoked [] .empty Table.covers_empty
  intro records
  induction records with
  | nil =>
    intro done repo covers
    simpa using covers
  | cons cert rest ih =>
    intro done repo covers
    rw [List.foldl_cons, List.append_cons]
    refine ih _ _ ?_
    unfold RevocationRepository.revoke
    split
    · exact covers.put cert trivial
    · rename_i known
      refine ⟨fun stored found => List.mem_append_left _ (covers.sound stored found), ?_⟩
      intro other listed
      rcases List.mem_append.mp listed with earlier | last
      · exact covers.complete other earlier
      · rw [List.mem_singleton.mp last]
        exact Option.isSome_iff_ne_none.mpr known

/-- Of rows with distinct keys one at most has the key that is wanted. -/
theorem flatMap_of_key {Key Row Item : Type} [DecidableEq Key] {key : Row → Key} {rows : List Row}
    (distinct : (rows.map key).Nodup) (wanted : Key) (items : List Item) :
    (rows.flatMap fun row => if key row = wanted then items else []) =
      if wanted ∈ rows.map key then items else [] := by
  induction rows with
  | nil => rfl
  | cons row rest ih =>
    rw [List.map_cons, List.nodup_cons] at distinct
    rw [List.flatMap_cons, ih distinct.2, List.map_cons]
    by_cases same : key row = wanted
    · subst same
      simp [distinct.1]
    · simp [same, Ne.symm same]

/-- The revocations of stored authorities come back. -/
theorem listByCA_restoreRevoked {cas : CARepository} {source : RevocationRepository}
    (records : snapshot.revoked = (cas.list range).flatMap fun ca => source.listByCA ca.id)
    (caID : Uuid) :
    (restoreRevoked snapshot).listByCA caID =
      if (cas.byID.find caID).isSome then source.listByCA caID else [] := by
  have ids : ((cas.list range).map CA.id).Nodup := nodup_listBy _ range cas.byID
  have serials : (snapshot.revoked.map RevokedCertificate.serial).Nodup := by
    rw [records, List.map_flatMap, List.nodup_flatMap]
    refine ⟨fun ca _ => source.nodup_listByCA ca.id, ?_⟩
    refine (List.pairwise_map.mp ids).imp fun {first second} differ => ?_
    intro serial inFirst inSecond
    obtain ⟨cert, listed, rfl⟩ := List.mem_map.mp inFirst
    obtain ⟨other, listed', same⟩ := List.mem_map.mp inSecond
    obtain ⟨found, own⟩ := RevocationRepository.mem_listByCA.mp listed
    obtain ⟨found', own'⟩ := RevocationRepository.mem_listByCA.mp listed'
    rw [same, found, Option.some.injEq] at found'
    exact differ (own.symm.trans (found' ▸ own'))
  rw [restoreRevoked, RevocationRepository.listByCA_foldl_revoke serials
    (fun _ _ => Table.find_empty _), records]
  have none_first : RevocationRepository.empty.listByCA caID = [] := by
    simp [RevocationRepository.listByCA, RevocationRepository.empty]
  rw [none_first, List.nil_append, List.filter_flatMap]
  -- Each list holds certificates of one authority only.
  have own : ∀ ca : CA, ((source.listByCA ca.id).filter fun cert => cert.caID = caID) =
      if ca.id = caID then source.listByCA caID else [] := by
    intro ca
    split_ifs with same
    · rw [same]
      exact List.filter_eq_self.mpr fun cert listed => by
        simpa using (RevocationRepository.mem_listByCA.mp listed).2
    · refine List.filter_eq_nil_iff.mpr fun cert listed => ?_
      have ownCA := (RevocationRepository.mem_listByCA.mp listed).2
      simpa [ownCA] using same
  simp only [own]
  rw [flatMap_of_key ids]
  exact if_congr (mem_keys (List.map_id _).symm fun _ => rfl) rfl rfl

/-- The entry that the record at a position becomes. -/
def restoredEntry (record : AuditRecord) (index : Nat) : Entry :=
  { auditToDomain record with id := index + 1 }

/-- Records of valid entries are appended in order. -/
theorem restoreAudit_valid (valid : ∀ record ∈ snapshot.audit,
      (auditToDomain record).validate = .ok ()) :
    ∃ later, restoreAudit snapshot = .ok later ∧
      later.entries = snapshot.audit.mapIdx fun index record => restoredEntry record index := by
  suffices loop : ∀ (records : List AuditRecord) (start : AuditRepository),
      (∀ record ∈ records, (auditToDomain record).validate = .ok ()) →
      ∃ later, restoreEach (fun record : AuditRecord => "restore audit entry " ++ record.action)
          (fun repo record => (repo.append (auditToDomain record)).map Prod.fst) start records =
          .ok later ∧
        later.entries = start.entries ++ records.mapIdx fun index record =>
          restoredEntry record (start.entries.length + index) by
    obtain ⟨later, ended, entries⟩ := loop snapshot.audit .empty valid
    exact ⟨later, ended, by simpa [AuditRepository.empty] using entries⟩
  intro records
  induction records with
  | nil => exact fun start _ => ⟨start, rfl, by simp⟩
  | cons record rest ih =>
    intro start valid
    obtain ⟨checked, rest'⟩ := List.forall_mem_cons.mp valid
    obtain ⟨later, ended, entries⟩ := ih (start.push (auditToDomain record) checked) rest'
    have appended : (start.append (auditToDomain record)).map Prod.fst =
        .ok (start.push (auditToDomain record) checked) := by
      rw [AuditRepository.append_ok_iff.mpr ⟨checked, rfl⟩]
      rfl
    refine ⟨later, ?_, ?_⟩
    · rw [restoreEach, saveEach, mapError_ok_iff.mpr appended]
      exact ended
    · rw [entries]
      have first : ({ auditToDomain record with id := start.nextID } : Entry) =
          restoredEntry record start.entries.length := by
        rw [start.next]
        rfl
      simp [AuditRepository.push, first, List.mapIdx_cons, Nat.add_assoc, Nat.add_comm 1]

end Tables

/-- What a restore leaves that did not fail. -/
structure Loaded (env : Env) (snapshot : Snapshot) (repos : Repos lib) : Prop where
  ca : repos.ca.byID.Holds id (snapshot.cas.map caToDomain)
  secret : repos.secret.Holds id (snapshot.secrets.map secretToDomain)
  revoke : repos.revoke = restoreRevoked snapshot
  policy : repos.policy.Covers id (numberedPolicies env snapshot)
  role : repos.role.Covers id (snapshot.roles.map roleToDomain)
  pkiRole : repos.pkiRole.Covers id (snapshot.pkiRoles.map PKIRole.normalize)
  dbRole : repos.dbRole.Covers id (snapshot.dbRoles.map databaseRoleToDomain)
  sshRole : repos.sshRole.Covers id (snapshot.sshRoles.map sshRoleToDomain)
  lease : repos.lease.Covers id (snapshot.leases.map leaseToDomain)
  issuedCert : repos.issuedCert.Holds id snapshot.issued
  token : repos.token.Covers id (snapshot.tokens.map tokenToDomain)
  audit : repos.audit.entries =
    snapshot.audit.mapIdx fun index record => restoredEntry record index

/-- Records that pass the checks of their repositories are all saved. -/
theorem restoreRecords_of_acceptable {snapshot : Snapshot}
    (acceptable : Acceptable lib snapshot) (env : Env) :
    ∃ later : Repos lib, restoreRecords env snapshot = .ok later ∧
      Loaded env snapshot later := by
  obtain ⟨ca, cas, heldCAs⟩ := restoreCAs_holds acceptable.valid acceptable.cas
  obtain ⟨secret, secrets, heldSecrets⟩ :=
    restoreSecrets_holds acceptable.secrets acceptable.versions
  obtain ⟨policy, policies, coveredPolicies⟩ := restorePolicies_covers env acceptable.policies
  obtain ⟨role, roles, coveredRoles⟩ := restoreRoles_covers acceptable.roles
  obtain ⟨pkiRole, pkiRoles, coveredPKIRoles⟩ := restorePKIRoles_covers acceptable.pkiRoles
  obtain ⟨dbRole, dbRoles, coveredDBRoles⟩ := restoreDBRoles_covers env acceptable.dbRoles
  obtain ⟨sshRole, sshRoles, coveredSSHRoles⟩ := restoreSSHRoles_covers acceptable.sshRoles
  obtain ⟨lease, leases, coveredLeases⟩ := restoreLeases_covers acceptable.leases
  obtain ⟨issuedCert, issued, heldIssued⟩ :=
    restoreIssued_holds acceptable.valid acceptable.issued
  obtain ⟨token, tokens, coveredTokens⟩ := restoreTokens_covers acceptable.tokens
  obtain ⟨audit, entries, heldEntries⟩ := restoreAudit_valid acceptable.audit
  let later : Repos lib := {
    ca, secret, audit, lease, policy, role, pkiRole, dbRole, sshRole, issuedCert, token
    revoke := restoreRevoked snapshot }
  exact ⟨later, restoreRecords_ok_iff.mpr ⟨cas, secrets, rfl, policies, roles, pkiRoles, dbRoles,
      sshRoles, leases, issued, tokens, entries⟩,
    ⟨heldCAs, heldSecrets, rfl, coveredPolicies, coveredRoles,
      coveredPKIRoles, coveredDBRoles, coveredSSHRoles, coveredLeases, heldIssued, coveredTokens,
      heldEntries⟩⟩

end KnxVault.Backup
