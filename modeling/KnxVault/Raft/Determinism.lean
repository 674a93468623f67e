import KnxVault.Raft.Store

/-!
# Replicas that apply the same log

Two replicas apply the same entries at different times, with different random
sources and different orders of their map loops. Most commands do not see the
difference. `Replicable` says for each command when it does not, and
`Store.update_agree` that the new store and the response are then the same.
-/

namespace KnxVault.Raft

open KnxVault.Std KnxVault.Domain KnxVault.Repository KnxVault.Backup

variable {lib : Library}

/-! ### Limited listings -/

section Untied

variable {Key Row : Type} [Ord Key] [Std.TransOrd Key] [Std.LawfulEqOrd Key] {key : Row → Key}
  {Valid : Row → Prop}

/-- Among the rows that pass, rows of the same rank come after the limit only. -/
def Untied (rank : Row → Int) (passes : Row → Bool) (limit : Int) (table : Table key Valid) :
    Prop :=
  ∀ row other, table.find (key row) = some row → table.find (key other) = some other →
    passes row = true → passes other = true → rank row = rank other → row ≠ other →
    (if limit ≤ 0 then 100 else limit).toNat ≤
      ((table.visit MapRange.sorted).filter passes).countP fun earlier => rank earlier < rank row

theorem Untied.limited_range {rank : Row → Int} {passes : Row → Bool} {limit : Int}
    {table : Table key Valid} (untied : Untied rank passes limit table) (range other : MapRange) :
    limited 100 limit (sortBy (lessBy rank) ((table.visit range).filter passes)) =
      limited 100 limit (sortBy (lessBy rank) ((table.visit other).filter passes)) := by
  have perm : ∀ first second : MapRange,
      (sortBy (lessBy rank) ((table.visit first).filter passes)).Perm
      ((table.visit second).filter passes) := fun first second =>
    (perm_sortBy _ _).trans ((table.perm_visit first second).filter _)
  refine take_eq_of_sorted ((perm range other).trans (perm_sortBy _ _).symm)
    (sorted_sortBy rank _) (sorted_sortBy rank _) ?_
  intro row listed row' listed' same differs
  rw [mem_sortBy, List.mem_filter, Table.mem_visit] at listed listed'
  rw [(perm range MapRange.sorted).countP_eq]
  exact untied row row' listed.1 listed'.1 listed.2 listed'.2 same differs

end Untied

/-! ### Commands that do not see their surroundings -/

/-- A query answers the same on every replica: what it lists has no ties, and it
does not read the clock. -/
def Query.Replicable (store : Store lib) : Query → Prop
  | .caList => ∀ ca other, store.ca.byID.find ca.id = some ca →
      store.ca.byID.find other.id = some other →
      ca.createdAt.instant = other.createdAt.instant → ca = other
  | .leaseListExpired before limit => Untied (fun lease : Lease => lease.expiresAt.instant)
      (fun lease => lease.revokedAt.isNone && !lease.expiresAt.after before) limit store.lease
  | .leaseCountActive => ∀ lease, store.lease.find lease.id = some lease → lease.revokedAt ≠ none
  | .issuedListExpiring before limit =>
      Untied (fun cert : IssuedCertificate => cert.expiresAt.instant)
        (fun cert => cert.autoRenew && !cert.expiresAt.after before) limit store.issuedCert
  | .tokenListExpired before limit => Untied (fun token : ClientToken => token.expiresAt.instant)
      (fun token => !token.revoked && token.expiresAt.before before) limit store.token
  | .exportSnapshot _ => False
  | _ => True

/-- A write has the same effect on every replica: it draws no time and no
identifier, or it is refused. -/
def Write.Replicable (lib : Library) : Write → Prop
  | .auditAppend entry => entry.timestamp.isZero = false ∨ entry.validate ≠ .ok ()
  | .policySave policy => policy.id ≠ 0 ∨ policy.validate ≠ .ok ()
  | .importSnapshot snapshot => snapshot.policies = [] ∨ ¬ Acceptable lib snapshot
  | _ => True

/-- An entry of the log that replicas apply alike. -/
def Replicable (store : Store lib) : Except String Command → Prop
  | .ok (.query query) => query.Replicable store
  | .ok (.write write) => write.Replicable lib
  | _ => True

/-! ### Queries -/

namespace Store

theorem answer_agree {store : Store lib} {query : Query} (replicable : query.Replicable store)
    (env other : Env) : store.answer env query = store.answer other query := by
  cases query <;> try rfl
  case caGetByName name =>
    simp only [answer, store.ca.getByName_range env.range other.range]
  case caList =>
    have same : store.ca.list env.range = store.ca.list other.range :=
      listBy_range replicable env.range other.range
    simp only [answer, same]
  case secretGetLatest path =>
    simp only [answer, store.secret.getLatest_range env.range other.range]
  case secretListByPath pathPrefix =>
    simp only [answer, store.secret.listByPath_range env.range other.range]
  case secretNextVersion path =>
    simp only [answer, store.secret.nextVersion_range env.range other.range]
  case pkiRoleList =>
    simp only [answer, PKIRoleRepository.list, listBy_name_range _ env.range other.range]
  case leaseList =>
    simp only [answer, LeaseRepository.list, listBy_name_range _ env.range other.range]
  case leaseListExpired before limit =>
    have same : store.lease.listExpired env.range before limit =
        store.lease.listExpired other.range before limit :=
      Untied.limited_range replicable env.range other.range
    simp only [answer, same]
  case leaseCountActive =>
    have none : ∀ (range : MapRange) (now : Time), store.lease.countActive range now = 0 := by
      intro range now
      rw [LeaseRepository.countActive, List.countP_eq_zero]
      intro lease visited
      have revoked := replicable lease (Table.mem_visit.mp visited)
      cases known : lease.revokedAt with
      | none => exact absurd known revoked
      | some time => simp [Lease.active, known]
    simp only [answer, none]
  case policyList =>
    simp only [answer, PolicyRepository.list, listBy_name_range _ env.range other.range]
  case roleList =>
    simp only [answer, RoleRepository.list, listBy_name_range _ env.range other.range]
  case dbRoleList =>
    simp only [answer, DatabaseRoleRepository.list, listBy_name_range _ env.range other.range]
  case sshRoleList =>
    simp only [answer, SSHRoleRepository.list, listBy_name_range _ env.range other.range]
  case issuedList =>
    simp only [answer, store.issuedCert.list_range env.range other.range]
  case issuedListExpiring before limit =>
    have same : store.issuedCert.listExpiring env.range before limit =
        store.issuedCert.listExpiring other.range before limit :=
      Untied.limited_range replicable env.range other.range
    simp only [answer, same]
  case exportSnapshot includeAudit => exact replicable.elim
  case tokenList =>
    simp only [answer, TokenRepository.list, listBy_name_range _ env.range other.range]
  case tokenListExpired before limit =>
    have same : store.token.listExpired env.range before limit =
        store.token.listExpired other.range before limit :=
      Untied.limited_range replicable env.range other.range
    simp only [answer, same]
  case machineIdentityList =>
    simp only [answer, MachineIdentityRepository.list, listBy_name_range _ env.range other.range]
  case rotationPolicyList =>
    simp only [answer, RotationPolicyRepository.list, listBy_name_range _ env.range other.range]

end Store

/-! ### Imports -/

/-- What a result tells a client about success or failure. -/
def outcome {Repo : Type} (result : Except (GoError × Repo) Repo) : Except Response Unit :=
  (result.mapError fun failed => encodeResponse (.error failed.1)).map fun _ => ()

/-- The code and message of a failed save. -/
def brief {Repo : Type} (result : Except KNXVaultError Repo) : Except (ErrorCode × String) Unit :=
  (result.mapError fun err => (err.code, err.message)).map fun _ => ()

theorem brief_saveRow {Key Row : Type} [Ord Key] [Std.TransOrd Key] [Std.LawfulEqOrd Key]
    [DecidableEq Key] {key : Row → Key} {Valid : Row → Prop} {table table' : Table key Valid}
    {invalid : String} {row row' : Row} {check check' : Except String Unit}
    {sound : check = .ok () → Valid row} {sound' : check' = .ok () → Valid row'}
    (alike : check = .ok () ↔ check' = .ok ()) :
    brief (saveRow table invalid row check sound) =
      brief (saveRow table' invalid row' check' sound') := by
  cases check <;> cases check' <;> simp_all [saveRow, brief, Except.mapError, Except.map]

variable {Repo : Type}

theorem restoreEach_outcome {Record : Type} {context : Record → String}
    {save other : Repo → Record → Except KNXVaultError Repo} {start : Repo} {records : List Record}
    (alike : ∀ repo repo' record, brief (save repo record) = brief (other repo' record)) :
    outcome (restoreEach context save start records) =
      outcome (restoreEach context other start records) := by
  refine saveEach_report (fun err => encodeResponse (.error err)) ?_ start start records
  intro repo repo' record
  have same := alike repo repo' record
  cases saved : save repo record <;> cases saved' : other repo' record <;>
    simp_all [brief, Except.mapError, Except.map, KNXVaultError.asGoError, GoError.wrap,
      encodeResponse]

theorem outcome_within_bind {put put' : Repo → Repos lib}
    {result result' : Except (GoError × Repo) Repo}
    {next next' : Repos lib → Except (GoError × Repos lib) (Repos lib)}
    (alike : outcome result = outcome result')
    (rest : ∀ repo repo', outcome (next (put repo)) = outcome (next' (put' repo'))) :
    outcome (within put result >>= next) = outcome (within put' result' >>= next') := by
  cases result <;> cases result'
  case error.error failed failed' => exact alike
  case error.ok => cases alike
  case ok.error => cases alike
  case ok.ok repo repo' => exact rest repo repo'

theorem outcome_within {put put' : Repo → Repos lib} {result result' : Except (GoError × Repo) Repo}
    (alike : outcome result = outcome result') :
    outcome (within put result) = outcome (within put' result') := by
  cases result <;> cases result' <;>
    simp_all [outcome, within, Except.mapError, Except.map]

theorem restorePolicies_outcome (env other : Env) (snapshot : Snapshot) :
    outcome (restorePolicies env snapshot) = outcome (restorePolicies other snapshot) := by
  refine restoreEach_outcome fun repo repo' numbered => ?_
  have bare : ∀ (repo : PolicyRepository) (newUUID : NewUuid) (policy : Policy),
      brief ((repo.save newUUID policy).map Prod.fst) =
        brief (saveRow repo "invalid policy" (PolicyRepository.withID newUUID policy)
          policy.validate (PolicyRepository.stored_withID newUUID)) := by
    intro repo newUUID policy
    rw [PolicyRepository.save]
    cases saveRow repo "invalid policy" (PolicyRepository.withID newUUID policy)
      policy.validate (PolicyRepository.stored_withID newUUID) <;> rfl
  rw [bare, bare]
  exact brief_saveRow Iff.rfl

theorem restoreDBRoles_outcome (env other : Env) (snapshot : Snapshot) :
    outcome (restoreDBRoles env snapshot : Except _ (DatabaseRoleRepository lib)) =
      outcome (restoreDBRoles other snapshot : Except _ (DatabaseRoleRepository lib)) :=
  restoreEach_outcome fun _ _ _ =>
    brief_saveRow (DatabaseRole.check_range lib env.range other.range _)

/-- Whether a restore succeeds, and what it reports, is the same everywhere. -/
theorem restoreRecords_outcome (env other : Env) (snapshot : Snapshot) :
    outcome (restoreRecords env snapshot : Except _ (Repos lib)) =
      outcome (restoreRecords other snapshot : Except _ (Repos lib)) := by
  unfold restoreRecords
  refine outcome_within_bind rfl fun _ _ => ?_
  refine outcome_within_bind rfl fun _ _ => ?_
  refine outcome_within_bind (restorePolicies_outcome env other snapshot) fun _ _ => ?_
  refine outcome_within_bind rfl fun _ _ => ?_
  refine outcome_within_bind rfl fun _ _ => ?_
  refine outcome_within_bind (restoreDBRoles_outcome env other snapshot) fun _ _ => ?_
  refine outcome_within_bind rfl fun _ _ => ?_
  refine outcome_within_bind rfl fun _ _ => ?_
  refine outcome_within_bind rfl fun _ _ => ?_
  refine outcome_within_bind rfl fun _ _ => ?_
  exact outcome_within rfl

/-- Without policies the restored repositories are the same everywhere. -/
theorem restoreRecords_same {env other : Env} {snapshot : Snapshot} {later later' : Repos lib}
    (none : snapshot.policies = []) (restored : restoreRecords env snapshot = .ok later)
    (restored' : restoreRecords other snapshot = .ok later') : later = later' := by
  obtain ⟨ca, secret, revoke, policy, role, pkiRole, dbRole, sshRole, lease, issued, token,
    audit⟩ := restoreRecords_ok_iff.mp restored
  obtain ⟨ca', secret', revoke', policy', role', pkiRole', dbRole', sshRole', lease', issued',
    token', audit'⟩ := restoreRecords_ok_iff.mp restored'
  have samePolicies : restorePolicies env snapshot = restorePolicies other snapshot := by
    rw [restorePolicies, restorePolicies, none]
    rfl
  have sameDBRoles : restoreDBRoles env snapshot = .ok later'.dbRole := by
    refine saveEach_mono ?_ dbRole'
    intro repo record next saved
    obtain ⟨passed, rfl⟩ := saveRow_ok_iff.mp (mapError_ok_iff.mp saved)
    exact mapError_ok_iff.mpr (saveRow_ok_iff.mpr
      ⟨(DatabaseRole.check_range lib other.range env.range _).mp passed, rfl⟩)
  cases later
  cases later'
  simp_all

namespace Store

theorem importSnapshot_agree {snapshot : Snapshot}
    (replicable : snapshot.policies = [] ∨ ¬ Acceptable lib snapshot) (env other : Env) :
    (importSnapshot env snapshot : Except GoError (Store lib)).mapError
        (fun err => encodeResponse (.error err)) =
      (importSnapshot other snapshot : Except GoError (Store lib)).mapError
        fun err => encodeResponse (.error err) := by
  unfold importSnapshot
  split
  · rfl
  · rename_i valid
    have records : ∀ env : Env, restore env (Repos.empty : Repos lib) snapshot =
        restoreRecords env snapshot := by
      intro env
      rw [restore, valid]
    have alike := @restoreRecords_outcome lib env other snapshot
    cases first : (restoreRecords env snapshot : Except _ (Repos lib)) with
    | ok later =>
      have none := replicable.resolve_right (not_not.mpr
        (acceptable_of_restore ((records env).trans first)))
      cases second : (restoreRecords other snapshot : Except _ (Repos lib)) with
      | ok later' =>
        rw [records, records, first, second, restoreRecords_same none first second]
      | error failed =>
        rw [first, second] at alike
        cases alike
    | error failed =>
      cases second : (restoreRecords other snapshot : Except _ (Repos lib)) with
      | ok later' =>
        rw [first, second] at alike
        cases alike
      | error failed' =>
        rw [first, second] at alike
        rw [records, records, first, second]
        simpa [outcome, Except.mapError, Except.map] using alike

/-! ### Writes and whole logs -/

variable {store : Store lib}

/-- Results that change the store alike and report alike give one outcome. -/
theorem handle_write_congr {env other : Env} {write : Write}
    (same : (store.execute env write).mapError (fun err => encodeResponse (.error err)) =
      (store.execute other write).mapError fun err => encodeResponse (.error err)) :
    store.handle env (.write write) = store.handle other (.write write) := by
  unfold handle
  cases first : store.execute env write <;> cases second : store.execute other write <;>
    simp_all [Except.mapError]

theorem stampEntry_agree {entry : Entry} (stamped : entry.timestamp.isZero = false)
    (env other : Env) :
    store.stampEntry env entry = store.stampEntry other entry := by
  simp [stampEntry, stamped]

theorem handle_write_agree {write : Write} (replicable : write.Replicable lib) (env other : Env) :
    store.handle env (.write write) = store.handle other (.write write) := by
  cases write
  case secretPut secret casVersion maxVersions =>
    simp only [handle, execute, store.secret.putAtomic_range env.range other.range]
  case pkiRoleSave role =>
    simp only [handle, execute, savePKIRole, store.ca.getByName_range env.range other.range]
  case auditAppend entry =>
    rcases replicable with stamped | invalid
    · simp only [handle, execute, stampEntry_agree stamped env other]
    · cases failed : entry.validate with
      | ok _ => exact absurd failed invalid
      | error cause =>
        have refused : ∀ env : Env, store.audit.append (store.stampEntry env entry) =
            .error { code := .validation, message := "invalid audit entry", cause := some cause } :=
          fun env => AuditRepository.append_of_error failed
        simp only [handle, execute, refused]
  case policySave policy =>
    have same : store.policy.save (env.newUUID 0) policy =
        store.policy.save (other.newUUID 0) policy := by
      rcases replicable with named | invalid
      · exact PolicyRepository.save_of_named named _ _
      · exact PolicyRepository.save_of_invalid invalid _ _
    simp only [handle, execute, same]
  case dbRoleSave role =>
    refine handle_write_congr ?_
    have same := store.dbRole.save_range env.range other.range role
    rw [execute, execute]
    cases first : store.dbRole.save env.range role <;>
      cases second : store.dbRole.save other.range role <;>
        simp_all [changed, Except.mapError, encodeResponse, KNXVaultError.asGoError]
  case importSnapshot snapshot =>
    refine handle_write_congr ?_
    have same := importSnapshot_agree replicable env other
    rw [execute, execute]
    cases first : (importSnapshot env snapshot : Except GoError (Store lib)) <;>
      cases second : (importSnapshot other snapshot : Except GoError (Store lib)) <;>
        simp_all [Except.mapError, Except.map]
  all_goals simp only [handle, execute]

/-- A replicable entry gives the same store and the same response everywhere. -/
theorem update_agree {entry : Except String Command} (replicable : Replicable store entry)
    (env other : Env) :
    store.update env entry = store.update other entry := by
  cases entry with
  | error text => rfl
  | ok cmd =>
    cases cmd with
    | query query => simp only [update, handle, answer_agree replicable env other]
    | write write => simp only [update, handle_write_agree replicable env other]
    | malformed readOnly error => rfl
    | unknown => rfl

end Store

/-- Two replicas that apply a log of replicable entries end with the same store
and gave the same responses. -/
theorem replicas_agree {first second : List (Env × Except String Command)}
    (sameLog : first.map Prod.snd = second.map Prod.snd)
    (replicable : AllSteps Store.apply (fun store input => Replicable store input.2)
      (Store.new lib) first) :
    run Store.apply (Store.new lib) first = run Store.apply (Store.new lib) second ∧
      (Store.new lib).responses first = (Store.new lib).responses second := by
  have similar : List.Forall₂ (fun input other : Env × Except String Command =>
      input.2 = other.2) first second := by
    rw [← List.forall₂_map_right_iff, ← List.forall₂_map_left_iff, sameLog, List.forall₂_eq_eq_eq]
  refine AllSteps.lockstep ?_ similar replicable
  rintro store ⟨env, entry⟩ ⟨other, _⟩ allowed rfl
  have same := Store.update_agree allowed env other
  exact ⟨congrArg Prod.fst same, congrArg Prod.snd same⟩

/-- An entry with a time of its own. -/
def stampedEntry : Except String Command :=
  .ok (.write (.auditAppend
    { timestamp := { instant := 7 }, action := "secret.read", status := "success" }))

theorem replicas_agree_stamped :
    run Store.apply (Store.new .sample) [(.sample 1, stampedEntry)] =
        run Store.apply (Store.new .sample) [(.sample 2, stampedEntry)] ∧
      (Store.new .sample).responses [(.sample 1, stampedEntry)] =
        (Store.new .sample).responses [(.sample 2, stampedEntry)] :=
  replicas_agree rfl ⟨.inl rfl, trivial⟩

/-- An entry without a time: each replica takes its own clock. -/
def unstampedEntry : Except String Command :=
  .ok (.write (.auditAppend { action := "secret.read", status := "success" }))

/-- The time of the entry that was appended. -/
def appendedAt : Except String Response → Time
  | .ok (.ok (some (.entry entry))) => entry.timestamp
  | _ => {}

theorem replicas_differ :
    run Store.apply (Store.new .sample) [(.sample 1, unstampedEntry)] ≠
        run Store.apply (Store.new .sample) [(.sample 2, unstampedEntry)] ∧
      (Store.new .sample).responses [(.sample 1, unstampedEntry)] ≠
        (Store.new .sample).responses [(.sample 2, unstampedEntry)] := by
  constructor
  · intro same
    have times := congrArg (fun store => store.audit.entries.map Entry.timestamp) same
    exact absurd times (by decide)
  · intro same
    have times := congrArg (List.map appendedAt) same
    exact absurd times (by decide)

end KnxVault.Raft
