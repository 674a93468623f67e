import KnxVault.Leases.Service

/-!
# Lease revocation under concurrency

Renewals and revocations of every kind run at the same time over one lease
repository. A renewal reads the lease and later writes the whole record back.
-/

namespace KnxVault.Leases

open KnxVault.Std KnxVault.Domain KnxVault.Repository KnxVault.Engine

/-! ### What the operations show of one lease -/

namespace LeaseState

variable {lib : Library} (id : String)

def IsRevoked (stores : LeaseStores lib) : Prop :=
  ∃ lease, stores.leases.find id = some lease ∧ lease.revokedAt.isSome

/-- No lease is written over one that is revoked. -/
def Spares (stores : LeaseStores lib) : LeaseOp → Prop
  | .saveLease lease => lease.id = id → ∀ stored ∈ stores.leases.find id, stored.revokedAt = none
  | _ => True

instance (stores : LeaseStores lib) : (op : LeaseOp) → Decidable (Spares id stores op)
  | .saveLease lease => inferInstanceAs (Decidable
      (lease.id = id → ∀ stored ∈ stores.leases.find id, stored.revokedAt = none))
  | .now | .sealing | .getLease _ | .listLeases | .listExpired _ _ | .revokeLease _ _
  | .getDatabaseRole _ | .getSSHRole _ | .getLatest _ | .putAtomic _ | .destroyVersion _ _
  | .execStatements _ _ => isTrue trivial

/-- The answers while the lease is not revoked. -/
def ShowsUnrevoked : (op : LeaseOp) → op.Answer → Prop
  | .getLease other, answer => ∀ lease, answer = .ok lease →
    lease.id = other ∧ (other = id → lease.revokedAt = none)
  | .revokeLease other _, answer => other = id → answer ≠ .ok ()
  | _, _ => True

/-- The answers while the lease is revoked. -/
def ShowsRevoked : (op : LeaseOp) → op.Answer → Prop
  | .getLease other, answer => other = id → ∀ lease, answer = .ok lease → lease.revokedAt.isSome
  | .listLeases, answer => ∀ lease ∈ answer, lease.id = id → lease.revokedAt.isSome
  | _, _ => True

variable {id} {draw : LeaseDraw} {op : LeaseOp} {stores : LeaseStores lib}

/-- The leases that an operation leaves: those that were there, with one saved or
one revoked. -/
theorem leases_exec : (op.exec draw stores).2.leases = stores.leases ∨
    (∃ lease later, op = .saveLease lease ∧ stores.leases.save lease = .ok later ∧
      (op.exec draw stores).2.leases = later) ∨
    ∃ other revokedAt later, op = .revokeLease other revokedAt ∧
      stores.leases.revoke other revokedAt = .ok later ∧
      (op.exec draw stores).2.leases = later := by
  cases op with
  | saveLease lease =>
    cases result : stores.leases.save lease with
    | error err =>
      left
      simp only [LeaseOp.exec, result]
      rfl
    | ok later =>
      right; left
      refine ⟨lease, later, rfl, result, ?_⟩
      simp only [LeaseOp.exec, result]
      rfl
  | revokeLease other revokedAt =>
    cases result : stores.leases.revoke other revokedAt with
    | error err =>
      left
      simp only [LeaseOp.exec, result]
      rfl
    | ok later =>
      right; right
      refine ⟨other, revokedAt, later, rfl, result, ?_⟩
      simp only [LeaseOp.exec, result]
      rfl
  | putAtomic write =>
    left
    simp only [LeaseOp.exec]
    split <;> rfl
  | destroyVersion path version =>
    left
    simp only [LeaseOp.exec]
    cases stores.secrets.destroyVersion path version <;> rfl
  | now | sealing | getLease | listLeases | listExpired | getDatabaseRole | getSSHRole | getLatest
  | execStatements => exact .inl rfl

theorem isRevoked_of_revoke {later : LeaseRepository} {revokedAt : Time}
    (done : stores.leases.revoke id revokedAt = .ok later) :
    ∃ lease, later.find id = some lease ∧ lease.revokedAt.isSome := by
  obtain ⟨lease, found, -⟩ := changeRow_ok_iff.mp done
  refine ⟨{ lease with revokedAt := some revokedAt }, ?_, rfl⟩
  rw [find_of_changeRow done fun _ => rfl, if_pos rfl, found, Option.map_some]

theorem isRevoked_kept (spares : Spares id stores op) (revoked : IsRevoked id stores) :
    IsRevoked id (op.exec draw stores).2 := by
  obtain ⟨lease, found, marked⟩ := revoked
  unfold IsRevoked
  obtain same | ⟨written, later, rfl, saved, left⟩ | ⟨other, revokedAt, later, rfl, done, left⟩ :=
    @leases_exec lib draw op stores
  · rw [same]
    exact ⟨lease, found, marked⟩
  · obtain ⟨passed, rfl⟩ := saveRow_ok_iff.mp saved
    have elsewhere : written.id ≠ id := by
      intro same
      rw [spares same lease found] at marked
      cases marked
    rw [left, Table.find_put, if_neg elsewhere]
    exact ⟨lease, found, marked⟩
  · rw [left]
    by_cases same : other = id
    · subst same
      exact isRevoked_of_revoke done
    · rw [find_of_changeRow done fun _ => rfl, if_neg same]
      exact ⟨lease, found, marked⟩

theorem showsUnrevoked_of_exec (unrevoked : ¬ IsRevoked id (op.exec draw stores).2) :
    ShowsUnrevoked id op (op.exec draw stores).1 := by
  cases op with
  | getLease other =>
    intro lease answered
    simp only [LeaseOp.exec, LeaseRepository.get, getRow] at answered
    cases found : stores.leases.find other with
    | none =>
      rw [found] at answered
      cases answered
    | some stored =>
      rw [found] at answered
      cases answered
      refine ⟨Table.key_of_find found, ?_⟩
      rintro rfl
      by_contra marked
      exact unrevoked ⟨lease, found, Option.isSome_iff_ne_none.mpr marked⟩
  | revokeLease other revokedAt =>
    rintro rfl answered
    cases result : stores.leases.revoke other revokedAt with
    | error err =>
      simp only [LeaseOp.exec, result] at answered
      cases answered
    | ok later =>
      simp only [LeaseOp.exec, result] at unrevoked
      exact unrevoked (isRevoked_of_revoke result)
  | now | sealing | listLeases | listExpired | saveLease | getDatabaseRole | getSSHRole | getLatest
  | putAtomic | destroyVersion | execStatements => trivial

theorem showsRevoked_of_isRevoked (revoked : IsRevoked id stores) :
    ShowsRevoked id op (op.exec draw stores).1 := by
  obtain ⟨lease, found, marked⟩ := revoked
  cases op with
  | getLease other =>
    rintro rfl shown answered
    simp only [LeaseOp.exec, LeaseRepository.get, getRow, found] at answered
    cases answered
    exact marked
  | listLeases =>
    rintro listed member rfl
    have stored := mem_listBy.mp member
    rw [found, Option.some.injEq] at stored
    rw [← stored]
    exact marked
  | now | sealing | revokeLease | listExpired | saveLease | getDatabaseRole | getSSHRole
  | getLatest | putAtomic | destroyVersion | execStatements => trivial

end LeaseState

/-! ### Revocations that return have revoked -/

section Revocations

open Fallible LeaseProgram LeaseState

variable {id : String}

theorem markRevoked_fails {revokedAt : Time} {Post : Unit → Prop} :
    Yields (ShowsUnrevoked id) Post (markRevoked id revokedAt) :=
  markRevoked_yields.mpr fun unrevoked => absurd rfl (unrevoked rfl)

theorem database_revokeLease_fails (engine : DatabaseEngine) :
    Yields (ShowsUnrevoked id) (fun _ => False) (engine.revokeLease id) := by
  refine (yields_bind _ _).mpr (getLease_yields.mpr fun lease shown => ?_)
  have unrevoked : lease.revokedAt = none := (shown lease rfl).2 rfl
  refine .bind_any fun clock => ?_
  rw [unrevoked]
  refine .bind_any fun credentials => ?_
  refine .bind_any fun role => ?_
  exact (yields_bind _ _).mpr markRevoked_fails

theorem ssh_revokeLease_fails :
    Yields (ShowsUnrevoked id) (fun _ => False) (SshEngine.revokeLease id) := by
  refine (yields_bind _ _).mpr (getLease_yields.mpr fun lease shown => ?_)
  have unrevoked : lease.revokedAt = none := (shown lease rfl).2 rfl
  split
  · exact yields_throw _
  refine .bind_any fun clock => ?_
  rw [unrevoked]
  exact (yields_bind _ _).mpr markRevoked_fails

variable (service : LeaseService) (ctx : LeaseContext)

theorem revokeOne_fails (engine : String) :
    Yields (ShowsUnrevoked id) (fun _ => False) (service.revokeOne id engine) := by
  unfold LeaseService.revokeOne
  cases hook : LeaseService.revokeOne.hook service id engine with
  | none => exact .bind_any fun clock => markRevoked_fails
  | some revoke =>
    unfold LeaseService.revokeOne.hook at hook
    split at hook
    · obtain ⟨database, -, rfl⟩ := Option.map_eq_some_iff.mp hook
      exact (yields_bind _ _).mpr ((database_revokeLease_fails database).mono fun _ => False.elim)
    split at hook
    · obtain ⟨ssh, -, rfl⟩ := Option.map_eq_some_iff.mp hook
      exact ssh_revokeLease_fails
    · cases hook

theorem revoke_fails :
    Yields (ShowsUnrevoked id) (fun _ => False) (service.revoke ctx id) := by
  refine .bind_any fun _ => ?_
  refine (yields_bind _ _).mpr (getLease_yields.mpr fun lease shown => ?_)
  rw [(shown lease rfl).1]
  exact revokeOne_fails service lease.engine

theorem revokeUntilError_fails (views : List LeaseView) {revoked : List String}
    (unnamed : id ∉ revoked) :
    Yields (ShowsUnrevoked id) (fun done => id ∉ done.1)
      (LeaseService.bulkRevoke.revokeUntilError service revoked views) := by
  induction views generalizing revoked with
  | nil => exact (yields_pure _).mpr unnamed
  | cons view views ih =>
    unfold LeaseService.bulkRevoke.revokeUntilError
    refine (yields_outcome_bind _ _).mpr ?_
    have failed : ∀ err : GoError, Yields (ShowsUnrevoked id) (fun done => id ∉ done.1)
        (if revoked = [] then throw err
          else pure (revoked, some (err.wrap
            ("partial bulk revoke after " ++ toString revoked.length ++ " leases"))) :
          LeaseProgram (List String × Option GoError)) := by
      intro err
      split
      · exact yields_throw _
      · exact (yields_pure _).mpr unnamed
    by_cases same : view.id = id
    · subst same
      refine Program.Ensures.mono ?_ (revokeOne_fails service view.engine)
      rintro (err | done) fails
      · exact failed err
      · exact (fails done rfl).elim
    · refine Program.Ensures.of_post ?_ _
      rintro (err | done)
      · exact failed err
      · exact ih (by simpa [Ne.symm same] using unnamed)

theorem bulkRevoke_fails (req : LeaseService.BulkRevokeRequest) :
    Yields (ShowsUnrevoked id) (fun done => id ∉ done.1) (service.bulkRevoke ctx req) := by
  unfold LeaseService.bulkRevoke
  split
  · exact yields_throw _
  · refine .bind_any fun views => ?_
    exact revokeUntilError_fails service views List.not_mem_nil

theorem revokePrefix_fails (pathPrefix : String) :
    Yields (ShowsUnrevoked id) (fun done => id ∉ done.1)
      (service.revokePrefix ctx pathPrefix) := by
  unfold LeaseService.revokePrefix
  split
  · exact yields_throw _
  · exact bulkRevoke_fails service ctx _

theorem tidy_fails (limit : Int) :
    Yields (ShowsUnrevoked id) (id ∉ ·) (service.tidy limit) := by
  refine .bind_any fun clock => ?_
  refine .bind_any fun expired => ?_
  refine (yields_bind _ _).mpr (Yields.mono (fun _ => (yields_pure _).mpr)
    (revokeEach_yields ?_ List.not_mem_nil))
  rintro lease - rfl
  exact revokeOne_fails service lease.engine

theorem revokeByTokenID_fails (tokenID : String) :
    Yields (ShowsUnrevoked id) (id ∉ ·) (service.revokeByTokenID ctx tokenID) := by
  unfold LeaseService.revokeByTokenID
  split
  · exact (yields_pure _).mpr List.not_mem_nil
  · refine .bind_any fun views => ?_
    refine (yields_bind _ _).mpr (Yields.mono (fun _ => (yields_pure _).mpr)
      (revokeEach_yields ?_ List.not_mem_nil))
    rintro view - rfl
    exact revokeOne_fails service view.engine

theorem database_cleanupExpired_fails (engine : DatabaseEngine) (limit : Int) :
    Yields (ShowsUnrevoked id) (fun done => id ∉ done.1) (engine.cleanupExpired limit) := by
  refine .bind_any fun clock => ?_
  refine .bind_any fun expired => ?_
  refine revokeEach_yields ?_ List.not_mem_nil
  rintro lease - rfl
  exact database_revokeLease_fails engine

theorem ssh_cleanupExpired_fails (limit : Int) :
    Yields (ShowsUnrevoked id) (fun done => id ∉ done.1) (SshEngine.cleanupExpired limit) := by
  refine .bind_any fun clock => ?_
  refine .bind_any fun expired => ?_
  refine revokeEach_yields ?_ List.not_mem_nil
  rintro lease - rfl
  exact ssh_revokeLease_fails

end Revocations

/-! ### Renewals of a revoked lease fail -/

section Renewals

open Fallible LeaseProgram LeaseState

variable {id : String}

theorem inactive_of_revoked {lease : Lease} (revoked : lease.revokedAt.isSome) (now : Time) :
    lease.active now = false := by
  rw [Lease.active, Option.isNone_eq_false_iff.mpr revoked, Bool.false_and]

theorem database_renew_fails (engine : DatabaseEngine) (ttlSeconds : Int) :
    Yields (ShowsRevoked id) (fun _ => False) (engine.renew id ttlSeconds) := by
  refine (yields_bind _ _).mpr (getLease_yields.mpr fun lease shown => ?_)
  refine .bind_any fun clock => ?_
  dsimp only
  rw [inactive_of_revoked (shown rfl lease rfl)]
  exact yields_throw _

theorem ssh_renew_fails (engine : SshEngine) (ttlSeconds : Int) :
    Yields (ShowsRevoked id) (fun _ => False) (engine.renew id ttlSeconds) := by
  refine (yields_bind _ _).mpr (getLease_yields.mpr fun lease shown => ?_)
  split
  · exact yields_throw _
  refine .bind_any fun clock => ?_
  dsimp only
  rw [inactive_of_revoked (shown rfl lease rfl)]
  exact yields_throw _

theorem renew_fails (service : LeaseService) (ctx : LeaseContext) (ttlSeconds : Int) :
    Yields (ShowsRevoked id) (fun _ => False) (service.renew ctx id ttlSeconds) := by
  refine .bind_any fun _ => ?_
  refine (yields_bind _ _).mpr (getLease_yields.mpr fun lease shown => ?_)
  refine .bind_any fun clock => ?_
  dsimp only
  rw [inactive_of_revoked (shown rfl lease rfl)]
  exact yields_throw _

theorem database_renewExpiring_fails (engine : DatabaseEngine) (grace limit : Int) :
    Yields (ShowsRevoked id) (id ∉ ·) (engine.renewExpiring grace limit) := by
  refine .bind_any fun clock => ?_
  refine (yields_bind _ _).mpr (listLeases_yields.mpr fun leases shown => ?_)
  refine renewEach_yields ?_ List.not_mem_nil
  intro lease listed same
  rw [inactive_of_revoked (shown lease listed same)]
  rfl

theorem ssh_renewExpiring_fails (engine : SshEngine) (grace limit : Int) :
    Yields (ShowsRevoked id) (id ∉ ·) (engine.renewExpiring grace limit) := by
  refine .bind_any fun clock => ?_
  refine (yields_bind _ _).mpr (listLeases_yields.mpr fun leases shown => ?_)
  refine renewEach_yields ?_ List.not_mem_nil
  intro lease listed same
  rw [inactive_of_revoked (shown lease listed same)]
  simp

end Renewals

/-! ### Calls of several nodes -/

inductive LeaseCall where
  | renew (ctx : LeaseContext) (id : String) (ttlSeconds : Int)
  | databaseRenew (id : String) (ttlSeconds : Int)
  | sshRenew (id : String) (ttlSeconds : Int)
  | databaseRenewExpiring (grace limit : Int)
  | sshRenewExpiring (grace limit : Int)
  | revoke (ctx : LeaseContext) (id : String)
  | databaseRevokeLease (id : String)
  | sshRevokeLease (id : String)
  | bulkRevoke (ctx : LeaseContext) (req : LeaseService.BulkRevokeRequest)
  | revokePrefix (ctx : LeaseContext) (pathPrefix : String)
  | tidy (limit : Int)
  | revokeByTokenID (ctx : LeaseContext) (tokenID : String)
  | databaseCleanupExpired (limit : Int)
  | sshCleanupExpired (limit : Int)

namespace LeaseCall

abbrev Value : LeaseCall → Type
  | renew .. => LeaseView
  | databaseRenew .. => DatabaseEngine.CredsResult
  | sshRenew .. => SshEngine.CredsResult
  | databaseRenewExpiring .. | sshRenewExpiring .. | tidy _ | revokeByTokenID .. => List String
  | revoke .. | sshRevokeLease _ => Unit
  | databaseRevokeLease _ => DatabaseEngine.RevokeResult
  | bulkRevoke .. | revokePrefix .. | databaseCleanupExpired _ | sshCleanupExpired _ =>
    List String × Option GoError

/-- The call has revoked the lease. -/
def revokes (id : String) : (call : LeaseCall) → call.Value → Bool
  | revoke _ other, _ | databaseRevokeLease other, _ | sshRevokeLease other, _ => other = id
  | bulkRevoke .., done | revokePrefix .., done | databaseCleanupExpired _, done
  | sshCleanupExpired _, done => done.1.contains id
  | tidy _, revoked | revokeByTokenID .., revoked => revoked.contains id
  | _, _ => false

/-- The call has renewed the lease. -/
def renews (id : String) : (call : LeaseCall) → call.Value → Bool
  | renew _ other _, _ | databaseRenew other _, _ | sshRenew other _, _ => other = id
  | databaseRenewExpiring .., renewed | sshRenewExpiring .., renewed => renewed.contains id
  | _, _ => false

end LeaseCall

/-- The engines of a node and the service with its hooks. -/
structure LeaseNode where
  service : LeaseService
  database : DatabaseEngine
  ssh : SshEngine

def LeaseNode.program (node : LeaseNode) : (call : LeaseCall) → LeaseProgram call.Value
  | .renew ctx id ttlSeconds => node.service.renew ctx id ttlSeconds
  | .databaseRenew id ttlSeconds => node.database.renew id ttlSeconds
  | .sshRenew id ttlSeconds => node.ssh.renew id ttlSeconds
  | .databaseRenewExpiring grace limit => node.database.renewExpiring grace limit
  | .sshRenewExpiring grace limit => node.ssh.renewExpiring grace limit
  | .revoke ctx id => node.service.revoke ctx id
  | .databaseRevokeLease id => node.database.revokeLease id
  | .sshRevokeLease id => SshEngine.revokeLease id
  | .bulkRevoke ctx req => node.service.bulkRevoke ctx req
  | .revokePrefix ctx pathPrefix => node.service.revokePrefix ctx pathPrefix
  | .tidy limit => node.service.tidy limit
  | .revokeByTokenID ctx tokenID => node.service.revokeByTokenID ctx tokenID
  | .databaseCleanupExpired limit => node.database.cleanupExpired limit
  | .sshCleanupExpired limit => SshEngine.cleanupExpired limit

abbrev leaseNodes (lib : Library) (node : LeaseNode) : Interleaving where
  State := LeaseStores lib
  Op := LeaseOp
  Answer := LeaseOp.Answer
  Draw := LeaseDraw
  exec := LeaseOp.exec
  Call := LeaseCall
  Result call := Except GoError call.Value
  program call := (node.program call).run

section Permanence

open Fallible LeaseState
open Interleaving.Pool (step Performs)

variable {lib : Library} (node : LeaseNode) (id : String)

/-- A call for one lease that cannot succeed names none. -/
theorem yields_named {α : Type} {Answered : (op : LeaseOp) → op.Answer → Prop}
    (program : String → LeaseProgram α) (fails : Yields Answered (fun _ => False) (program id))
    (other : String) : Yields Answered (fun _ => decide (other = id) = false) (program other) := by
  by_cases same : other = id
  · subst same
    exact fails.mono fun _ => False.elim
  · exact Yields.of_post (fun _ => decide_eq_false same) _

theorem program_revokes_fails (call : LeaseCall) :
    Yields (ShowsUnrevoked id) (fun value => call.revokes id value = false)
      (node.program call) := by
  cases call with
  | revoke ctx other =>
    exact yields_named id (node.service.revoke ctx) (revoke_fails node.service ctx) other
  | databaseRevokeLease other =>
    exact yields_named id node.database.revokeLease (database_revokeLease_fails _) other
  | sshRevokeLease other => exact yields_named id SshEngine.revokeLease ssh_revokeLease_fails other
  | bulkRevoke ctx req =>
    exact (bulkRevoke_fails node.service ctx req).mono fun _ unnamed => by
      simpa [LeaseCall.revokes] using unnamed
  | revokePrefix ctx pathPrefix =>
    exact (revokePrefix_fails node.service ctx pathPrefix).mono fun _ unnamed => by
      simpa [LeaseCall.revokes] using unnamed
  | databaseCleanupExpired limit =>
    exact (database_cleanupExpired_fails node.database limit).mono fun _ unnamed => by
      simpa [LeaseCall.revokes] using unnamed
  | sshCleanupExpired limit =>
    exact (ssh_cleanupExpired_fails limit).mono fun _ unnamed => by
      simpa [LeaseCall.revokes] using unnamed
  | tidy limit =>
    exact (tidy_fails node.service limit).mono fun _ unnamed => by
      simpa [LeaseCall.revokes] using unnamed
  | revokeByTokenID ctx tokenID =>
    exact (revokeByTokenID_fails node.service ctx tokenID).mono fun _ unnamed => by
      simpa [LeaseCall.revokes] using unnamed
  | renew | databaseRenew | sshRenew | databaseRenewExpiring | sshRenewExpiring =>
    exact Yields.of_post (fun _ => rfl) _

theorem program_renews_fails (call : LeaseCall) :
    Yields (ShowsRevoked id) (fun value => call.renews id value = false)
      (node.program call) := by
  cases call with
  | renew ctx other ttlSeconds =>
    exact yields_named id (node.service.renew ctx · ttlSeconds) (renew_fails _ _ _) other
  | databaseRenew other ttlSeconds =>
    exact yields_named id (node.database.renew · ttlSeconds) (database_renew_fails _ _) other
  | sshRenew other ttlSeconds =>
    exact yields_named id (node.ssh.renew · ttlSeconds) (ssh_renew_fails _ _) other
  | databaseRenewExpiring grace limit =>
    exact (database_renewExpiring_fails node.database grace limit).mono fun _ unnamed => by
      simpa [LeaseCall.renews] using unnamed
  | sshRenewExpiring grace limit =>
    exact (ssh_renewExpiring_fails node.ssh grace limit).mono fun _ unnamed => by
      simpa [LeaseCall.renews] using unnamed
  | revoke | databaseRevokeLease | sshRevokeLease | bulkRevoke | revokePrefix | tidy
  | revokeByTokenID | databaseCleanupExpired | sshCleanupExpired =>
    exact Yields.of_post (fun _ => rfl) _

/-- Once a revocation of a lease has returned, the lease is active at no time and no
renewal of it that starts later succeeds, in every run that writes no lease of
that identifier over a revoked one. -/
theorem lease_revocation_permanent (stores : LeaseStores lib)
    (before after : List (leaseNodes lib node).Event)
    (spares : AllSteps step (Performs (Spares id)) ((leaseNodes lib node).idle stores)
      (before ++ after))
    (place : Nat) (call : LeaseCall) (value : call.Value)
    (returned : (run step ((leaseNodes lib node).idle stores) before).Returned place call
      (.ok value))
    (revokes : call.revokes id value = true) :
    (∀ now : Time, ∀ lease ∈ (run step ((leaseNodes lib node).idle stores)
        (before ++ after)).state.leases.find id, lease.active now = false) ∧
      ∀ later, (run step ((leaseNodes lib node).idle stores) before).calls.length ≤ later →
        ∀ (renewal : LeaseCall) (value : renewal.Value),
          (run step ((leaseNodes lib node).idle stores) (before ++ after)).Returned later renewal
            (.ok value) → renewal.renews id value = false := by
  rw [AllSteps.append] at spares
  rw [run_append]
  have lasting : IsRevoked id (run step ((leaseNodes lib node).idle stores) before).state := by
    refine @Interleaving.Pool.fact_of_returned (leaseNodes lib node) (Spares id) (IsRevoked id)
      (ShowsUnrevoked id) (fun call result => ∃ value, result = .ok value ∧ call.revokes id value)
      (fun draw op stores => isRevoked_kept) (fun draw op stores _ => showsUnrevoked_of_exec)
      (fun call => ?_) stores before spares.1 place call (.ok value) returned
      ⟨value, rfl, revokes⟩
    refine Program.Ensures.mono ?_ (program_revokes_fails node id call)
    rintro result fails ⟨value, same, named⟩
    rw [fails value same] at named
    cases named
  constructor
  · intro now lease found
    obtain ⟨stored, held, marked⟩ := Interleaving.Pool.fact_kept
      (fun draw op stores => isRevoked_kept) spares.2 lasting
    rw [Option.mem_def, held, Option.some.injEq] at found
    rw [← found]
    exact inactive_of_revoked marked now
  · intro later started renewal value ended
    refine @Interleaving.Pool.post_of_fact (leaseNodes lib node) (Spares id) (IsRevoked id)
      (ShowsRevoked id) (fun call result => ∀ value, result = .ok value →
        call.renews id value = false)
      (fun draw op stores => isRevoked_kept) (fun draw op stores _ => showsRevoked_of_isRevoked)
      (program_renews_fails node id) _ after spares.2 lasting later started renewal (.ok value)
      ended value rfl

def sampleCrypto : LeaseCrypto where
  aead := .doubling
  service := .sample
  unmarshal _ := .ok ((∅ : Fields).insert "username" (.string "app-user"))

def sampleDatabase : DatabaseEngine where
  lib := .sample
  crypto := sampleCrypto
  formats := ⟨fun _ _ _ _ _ _ => "", fun _ => "", fun _ => ""⟩
  hasRunner := true

def sampleSsh : SshEngine where
  lib := .sample
  crypto := sampleCrypto
  signing := ⟨fun _ => .ok (), fun _ => .ok (), fun _ _ _ => .ok "", fun _ => ""⟩

def sampleNode : LeaseNode where
  service := { database := some sampleDatabase, ssh := some sampleSsh }
  database := sampleDatabase
  ssh := sampleSsh

/-- The draws of an operation at some second. -/
def drawAt (second : Int) : LeaseDraw :=
  ⟨.sample (second * nanosecondsPerSecond), .sample, .ok ()⟩

/-- The credentials of one lease that expires after 100 seconds. -/
def leasedCredentials : SecretRepository :=
  ((storeCredentials .sample .doubling .sample (.sample 1) .sample "database/creds/app/l" "l" 100
    ⟨100 * nanosecondsPerSecond, 0⟩ ∅).toOption.bind fun write =>
      (SecretRepository.putAtomic .empty .sorted write.secret none 0).toOption.map Prod.fst).get
    (by decide +kernel)

def leasedStores : LeaseStores .sample where
  leases := Table.empty.put {
    id := "l", path := "database/creds/app/l", roleName := "app", engine := "database"
    ttlSeconds := 100, expiresAt := ⟨100 * nanosecondsPerSecond, 0⟩, renewable := true } (by decide)
  databaseRoles := (DatabaseRoleRepository.save .empty .sorted {
    name := "app", ttlSeconds := 100, usernamePrefix := "v-" }).toOption.get (by decide +kernel)
  sshRoles := .empty
  secrets := leasedCredentials

abbrev sampleEvents := List (leaseNodes .sample sampleNode).Event

/-- All operations of the call at a place, one after the other. -/
def advances (count place : Nat) (second : Int) : sampleEvents :=
  List.replicate count (.advance place (drawAt second))

theorem lease_revocation_permanent_revoke :
    ((run step ((leaseNodes .sample sampleNode).idle leasedStores)
      (.start (.revoke {} "l") :: advances 8 0 10 ++
        .start (.databaseRenew "l" 0) :: advances 2 1 11)).state.leases.find "l").any
      (fun lease => !lease.active ⟨12 * nanosecondsPerSecond, 0⟩) = true := by
  obtain ⟨call, result, returned, passed⟩ := Interleaving.Pool.endsWith_iff.mp
    (show (run step ((leaseNodes .sample sampleNode).idle leasedStores)
      (.start (.revoke {} "l") :: advances 8 0 10)).endsWith 0
        (fun call result => result.toOption.any (call.revokes "l")) = true by decide +kernel)
  obtain ⟨lease, found⟩ := Option.isSome_iff_exists.mp
    (show ((run step ((leaseNodes .sample sampleNode).idle leasedStores)
      (.start (.revoke {} "l") :: advances 8 0 10 ++
        .start (.databaseRenew "l" 0) :: advances 2 1 11)).state.leases.find "l").isSome by
      decide +kernel)
  cases result with
  | error err => cases passed
  | ok value =>
    have inactive := (lease_revocation_permanent sampleNode "l" leasedStores
      (.start (.revoke {} "l") :: advances 8 0 10)
      (.start (.databaseRenew "l" 0) :: advances 2 1 11)
      (by decide +kernel) 0 call value returned passed).1 ⟨12 * nanosecondsPerSecond, 0⟩ lease found
    rw [found, Option.any_some, inactive]
    rfl

/-- A renewal has read the lease and its credentials when the lease is revoked. -/
def revokedDuringRenewal : sampleEvents :=
  .start (.databaseRenew "l" 0) :: advances 4 0 10 ++
    .start (.revoke {} "l") :: advances 8 1 11

/-- The renewal writes the lease and its credentials back: the lease is active again,
and a later renewal succeeds. -/
theorem lease_revocation_undone :
    (run step ((leaseNodes .sample sampleNode).idle leasedStores)
      revokedDuringRenewal).endsWith 1
        (fun call result => result.toOption.any (call.revokes "l")) = true ∧
    ((run step ((leaseNodes .sample sampleNode).idle leasedStores)
      (revokedDuringRenewal ++ advances 3 0 12)).state.leases.find "l").any
        (fun lease => lease.active ⟨13 * nanosecondsPerSecond, 0⟩) = true ∧
    (run step ((leaseNodes .sample sampleNode).idle leasedStores)
      (revokedDuringRenewal ++ advances 3 0 12 ++
        .start (.databaseRenew "l" 0) :: advances 7 2 13)).endsWith 2
        (fun call result => result.toOption.any (call.renews "l")) = true := by
  decide +kernel

end Permanence

end KnxVault.Leases
