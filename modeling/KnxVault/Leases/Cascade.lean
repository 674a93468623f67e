import KnxVault.Auth.Token
import KnxVault.Engine.Cubbyhole
import KnxVault.Leases.Executions
import KnxVault.Leases.Revocation

/-!
# Revoking a token

`RevokeToken` of `internal/auth/token.go`: the token is marked, then the active leases
that are bound to it are revoked one by one, and then its cubbyhole is wiped. The errors
of the last two steps are dropped.
-/

namespace KnxVault.Leases

open KnxVault.Std KnxVault.Domain KnxVault.Repository KnxVault.Engine KnxVault.Auth LeaseProgram

/-! ### The wipe of a cubbyhole -/

section Wipe

open Cubbyhole

variable {repo later : SecretRepository} {path : String} {secret : SecretVersion}

/-- Whether a version is destroyed or cannot be, it is not live afterwards. -/
theorem live_exec_destroyVersion {range : MapRange} {wanted : String} {version : Int}
    (live : ((SecretOp.destroyVersion path version).exec range repo).2.Live wanted secret) :
    repo.Live wanted secret ∧ ¬ (wanted = path ∧ secret.version = version) := by
  obtain ⟨absent, failed⟩ | ⟨row, found, destroyed, failed⟩ | ⟨row, valid, found, -, done⟩ :=
    repo.destroyVersion_cases path version
  · rw [SecretOp.exec, failed] at live
    refine ⟨live, ?_⟩
    rintro ⟨onPath, number⟩
    have stored : repo.find (secretKey secret) = some secret := live.1
    rw [secretKey, live.2.1, onPath, number, absent] at stored
    cases stored
  · rw [SecretOp.exec, failed] at live
    refine ⟨live, ?_⟩
    rintro ⟨onPath, number⟩
    have stored : repo.find (secretKey secret) = some secret := live.1
    rw [secretKey, live.2.1, onPath, number, found] at stored
    cases stored
    rw [live.2.2] at destroyed
    cases destroyed
  · simp only [SecretOp.exec, done] at live
    exact (SecretRepository.live_of_destroyVersion done).mp live

/-- The listed versions are not live after the loop, and nothing becomes live. -/
theorem wipeEach_live {seen : List (String × Int)} {first result : Option GoError}
    {listed : List SecretVersion}
    (runs : Program.Runs (fun range : {_range : MapRange // True } => SecretOp.exec range.1)
      (wipeEach Program.perform seen first listed) repo result later)
    (past : ∀ path secret, repo.Live path secret → (path, secret.version) ∉ seen)
    (live : later.Live path secret) :
    repo.Live path secret ∧
      ∀ other ∈ listed, (path, secret.version) ≠ (other.path, other.version) := by
  induction listed generalizing seen first repo with
  | nil =>
    obtain ⟨-, rfl⟩ := Program.runs_done.mp runs
    exact ⟨live, fun _ listed => nomatch listed⟩
  | cons head listed ih =>
    unfold wipeEach at runs
    split at runs
    · rename_i known
      obtain ⟨before, others⟩ := ih runs past
      refine ⟨before, fun other inside => ?_⟩
      obtain rfl | inside := List.mem_cons.mp inside
      · intro same
        exact past path secret before (same ▸ known)
      · exact others other inside
    · obtain ⟨answer, middle, destroyed, rest⟩ := Program.runs_bind.mp runs
      obtain ⟨⟨range, _⟩, -, rfl⟩ := Program.runs_perform.mp destroyed
      have past' : ∀ path secret,
          ((SecretOp.destroyVersion head.path head.version).exec range repo).2.Live path secret →
          (path, secret.version) ∉ (head.path, head.version) :: seen := by
        intro path secret live
        obtain ⟨before, apart⟩ := live_exec_destroyVersion live
        rw [List.mem_cons, not_or]
        exact ⟨fun same => apart (Prod.mk.inj same), past path secret before⟩
      have ended : ((SecretOp.destroyVersion head.path head.version).exec range repo).2.Live path
          secret ∧ ∀ other ∈ listed, (path, secret.version) ≠ (other.path, other.version) := by
        cases answer with
        | ok _ => exact ih rest past'
        | error err => exact ih rest past'
      obtain ⟨before, apart⟩ := live_exec_destroyVersion ended.1
      refine ⟨before, fun other inside => ?_⟩
      obtain rfl | inside := List.mem_cons.mp inside
      · exact fun same => apart (Prod.mk.inj same)
      · exact ended.2 other inside

/-- The secrets after the cubbyhole of a token is wiped; its error is dropped. -/
def wiped (tokenID : String) (ranges : Nat → MapRange) (secrets : SecretRepository) :
    SecretRepository :=
  ((wipeToken Program.perform tokenID).run.fed SecretOp.exec ranges secrets).2

theorem wiped_live {tokenID : String} (named : tokenID ≠ "") {ranges : Nat → MapRange}
    (live : (wiped tokenID ranges repo).Live path secret) :
    hasPrefix path (pathPrefix ++ (tokenID ++ "/")) = false := by
  have runs := @Program.runs_fed _ _ _ _ _ SecretOp.exec (fun _ => True)
    (wipeToken Program.perform tokenID).run ranges (fun _ => trivial) repo
  unfold wiped at live
  generalize (wipeToken Program.perform tokenID).run.fed SecretOp.exec ranges repo = ended
    at runs live
  unfold wipeToken at runs
  rw [if_neg named] at runs
  obtain ⟨listed, middle, listing, wiping⟩ := Fallible.runs_lift_bind.mp runs
  obtain ⟨⟨range, _⟩, rfl, rfl⟩ := Program.runs_perform.mp listing
  obtain ⟨first, middle, destroying, ending⟩ := Fallible.runs_lift_bind.mp wiping
  obtain rfl : ended.2 = middle := by
    cases first with
    | none => exact (Fallible.runs_pure.mp ending).2
    | some err => exact (Fallible.runs_throw.mp ending).2
  obtain ⟨before, unlisted⟩ := wipeEach_live destroying (fun _ _ _ => List.not_mem_nil) live
  by_contra inside
  refine unlisted secret (mem_sortBy.mpr (List.mem_filter.mpr
    ⟨Table.mem_visit.mpr before.1, ?_⟩)) (by rw [before.2.1])
  rw [before.2.1]
  simpa using inside

/-- Nothing of the cubbyhole of a token can be read. -/
def Unreadable (secrets : SecretRepository) (tokenID : String) : Prop :=
  ∀ aead service unmarshal ranges path, ((get Program.perform aead service unmarshal tokenID
    path).run.fed SecretOp.exec ranges secrets).1.isOk = false

theorem wiped_unreadable {tokenID : String} (named : tokenID ≠ "") (ranges : Nat → MapRange)
    (repo : SecretRepository) : Unreadable (wiped tokenID ranges repo) tokenID := by
  intro aead service unmarshal orders path
  have runs := @Program.runs_fed _ _ _ _ _ SecretOp.exec (fun _ => True)
    (get Program.perform aead service unmarshal tokenID path).run orders (fun _ => trivial)
    (wiped tokenID ranges repo)
  generalize (get Program.perform aead service unmarshal tokenID path).run.fed SecretOp.exec orders
    (wiped tokenID ranges repo) = ended at runs
  obtain ⟨result, later⟩ := ended
  cases result with
  | error err => rfl
  | ok fields =>
    unfold Cubbyhole.get at runs
    rw [if_neg named] at runs
    obtain ⟨stored, _, placing, reading⟩ := Fallible.Runs.bind_ok runs
    obtain ⟨placed, rfl⟩ := Fallible.runs_ofExcept.mp placing
    obtain ⟨secret, _, read, -⟩ := Fallible.Runs.bind_ok reading
    obtain ⟨⟨range, _⟩, found, -⟩ := Program.runs_perform.mp read
    have found := SecretRepository.getLatest_ok_iff.mp (mapError_ok_iff.mp found.symm)
    obtain ⟨normalized, -, whole⟩ := bind_eq_ok placed.symm
    cases whole
    have outside := wiped_live named found.1
    rw [show pathPrefix ++ (tokenID ++ "/" ++ normalized) =
        pathPrefix ++ (tokenID ++ "/") ++ normalized
      from (String.append_assoc ..).symm, hasPrefix_append] at outside
    cases outside

end Wipe

/-! ### The revocation of leases -/

section Revoking

variable {lib : Library} {Allowed : LeaseDraw → Prop} {world later : LeaseWorld lib}

/-- The lease, if there is one, is revoked. -/
def Revoked (id : String) (world : LeaseWorld lib) : Prop :=
  ∀ lease, world.stores.leases.find id = some lease → lease.revokedAt.isSome

/-- At most one lease has been marked. -/
def MarksOnly (id : String) (world later : LeaseWorld lib) : Prop :=
  later.stores.leases = world.stores.leases ∨
    ∃ now, world.stores.leases.revoke id now = .ok later.stores.leases

variable {id : String}

theorem MarksOnly.elsewhere {other : String} (marks : MarksOnly id world later)
    (apart : other ≠ id) :
    later.stores.leases.find other = world.stores.leases.find other := by
  obtain same | ⟨now, marked⟩ := marks
  · rw [same]
  · rw [find_of_changeRow marked (fun _ => rfl), if_neg (Ne.symm apart)]

theorem Revoked.of_mark {now : Time}
    (marked : world.stores.leases.revoke id now = .ok later.stores.leases) : Revoked id later := by
  intro lease found
  rw [find_of_changeRow marked (fun _ => rfl), if_pos rfl] at found
  obtain ⟨before, -, rfl⟩ := Option.map_eq_some_iff.mp found
  rfl

theorem Revoked.marks {other : String} (revoked : Revoked id world)
    (marks : MarksOnly other world later) : Revoked id later := by
  by_cases same : id = other
  · subst same
    obtain unchanged | ⟨now, marked⟩ := marks
    · intro lease found
      rw [unchanged] at found
      exact revoked lease found
    · exact .of_mark marked
  · intro lease found
    rw [marks.elsewhere same] at found
    exact revoked lease found

theorem database_marksOnly {engine : DatabaseEngine}
    {result : Except GoError DatabaseEngine.RevokeResult}
    (runs : Runs Allowed (engine.revokeLease id) world result later) :
    MarksOnly id world later ∧ Revoked id later := by
  refine ⟨?_, (DatabaseEngine.revokeLease_marks runs).1⟩
  obtain ⟨rfl, -⟩ | ⟨lease, now, leases, -, -, marked, ended⟩ :=
    DatabaseEngine.revokeLease_runs runs
  · exact .inl rfl
  obtain ⟨_, _, -, -, -, -, rfl⟩ | ⟨-, stores, -⟩ := ended
  · exact .inr ⟨now, marked⟩
  · exact .inr ⟨now, by rw [stores]; exact marked⟩

theorem ssh_marksOnly {result : Except GoError Unit}
    (runs : Runs Allowed (SshEngine.revokeLease id) world result later) :
    MarksOnly id world later ∧ (result.isOk = true → Revoked id later) := by
  obtain ⟨rfl, ⟨_, rfl⟩ | ⟨lease, found, -, revoked, -⟩⟩ | ⟨lease, now, leases, -, -, -, marked, -,
    rfl⟩ := SshEngine.revokeLease_runs runs
  · exact ⟨.inl rfl, fun succeeds => by cases succeeds⟩
  · refine ⟨.inl rfl, fun _ other found' => ?_⟩
    rw [found] at found'
    cases found'
    exact revoked
  · exact ⟨.inr ⟨now, marked⟩, fun _ => .of_mark marked⟩

/-- What the service does to a lease: the hook of its engine may fail, a plain mark
does not. -/
theorem revokeOne_marksOnly {service : LeaseService} {engine : String}
    {result : Except GoError Unit}
    (runs : Runs Allowed (service.revokeOne id engine) world result later) :
    MarksOnly id world later ∧
      (result.isOk = true ∨ (LeaseService.revokeOne.hook service id engine).isNone = true →
        Revoked id later) := by
  unfold LeaseService.revokeOne at runs
  cases hook : LeaseService.revokeOne.hook service id engine with
  | none =>
    rw [hook] at runs
    obtain ⟨draw, -, marking⟩ := runs_now_bind runs
    obtain ⟨absent, -, rfl⟩ | ⟨leases, marked, -, rfl⟩ := runs_markRevoked marking
    · refine ⟨.inl rfl, fun _ lease found => ?_⟩
      rw [absent] at found
      cases found
    · exact ⟨.inr ⟨_, marked⟩, fun _ => .of_mark marked⟩
  | some revoke =>
    rw [hook] at runs
    unfold LeaseService.revokeOne.hook at hook
    split at hook
    · obtain ⟨database, -, rfl⟩ := Option.map_eq_some_iff.mp hook
      obtain ⟨err, rfl, failed⟩ | ⟨value, middle, revoked, ended⟩ := Fallible.runs_bind.mp runs
      · have marks := database_marksOnly failed
        exact ⟨marks.1, fun _ => marks.2⟩
      · obtain ⟨-, rfl⟩ := Fallible.runs_pure.mp ended
        have marks := database_marksOnly revoked
        exact ⟨marks.1, fun _ => marks.2⟩
    split at hook
    · obtain ⟨ssh, -, rfl⟩ := Option.map_eq_some_iff.mp hook
      have marks := ssh_marksOnly runs
      refine ⟨marks.1, ?_⟩
      rintro (succeeds | unhooked)
      · exact marks.2 succeeds
      · cases unhooked
    · cases hook

end Revoking

/-! ### The cascade -/

section Cascade

variable {lib : Library}

/-- The leases that the cascade lists. -/
def cascaded (service : LeaseService) (ctx : LeaseContext) (tokenID : String) (range : MapRange)
    (now : Time) (stores : LeaseStores lib) : List Lease :=
  (stores.leases.list range).filter fun lease =>
    validateLeaseIDAccess (if service.tenantMode then trimSpace ctx.requestNamespace else "")
      lease.id && LeaseListFilter.selects { tokenID, activeOnly := true } now lease

theorem revokeByTokenID_execute (service : LeaseService) (ctx : LeaseContext) {tokenID : String}
    (named : tokenID ≠ "") (draws : Nat → LeaseDraw) (world : LeaseWorld lib) :
    (service.revokeByTokenID ctx tokenID).execute draws world =
      (do
        let done ← revokeEach LeaseView.id (fun view => service.revokeOne view.id view.engine)
          (fun _ => false) ([], none) ((cascaded service ctx tokenID (draws 0).env.range
            (draws 1).env.now.utc world.stores).map toLeaseView)
        pure done.1 : LeaseProgram (List String)).execute
          (fun place => draws (place + 2)) world := by
  unfold LeaseService.revokeByTokenID
  rw [if_neg named]
  rfl

variable {service : LeaseService} {ctx : LeaseContext} {tokenID : String} {range : MapRange}
  {now : Time} {world later : LeaseWorld lib}

theorem mem_cascaded {lease : Lease} (named : tokenID ≠ "") :
    lease ∈ cascaded service ctx tokenID range now world.stores ↔
      world.stores.leases.find lease.id = some lease ∧ lease.tokenID = tokenID ∧
        lease.active now = true ∧ validateLeaseIDAccess
          (if service.tenantMode then trimSpace ctx.requestNamespace else "") lease.id = true := by
  rw [cascaded, List.mem_filter, LeaseRepository.list, mem_listBy]
  simp only [LeaseListFilter.selects, Bool.and_eq_true, decide_true, Bool.true_or, Bool.true_and,
    Bool.not_true, Bool.false_or, Bool.or_eq_true, decide_eq_true_eq, named, false_or]
  tauto

/-- The hook of a listed lease has succeeded if the lease is named in the end; this is
what the source counts. -/
def HooksSucceed (service : LeaseService) (ctx : LeaseContext) (tokenID : String)
    (draws : Nat → LeaseDraw) (world : LeaseWorld lib) : Prop :=
  ∀ lease ∈ cascaded service ctx tokenID (draws 0).env.range (draws 1).env.now.utc world.stores,
    (LeaseService.revokeOne.hook service lease.id lease.engine).isSome = true →
    ∀ revoked, ((service.revokeByTokenID ctx tokenID).execute draws world).1 = .ok revoked →
      lease.id ∈ revoked

/-- Afterwards the listed leases are revoked, leases that are not revoked are as before,
and so are those that were not listed. -/
theorem cascade_leases {draws : Nat → LeaseDraw} (named : tokenID ≠ "")
    (hooks : HooksSucceed service ctx tokenID draws world)
    (ended : ((service.revokeByTokenID ctx tokenID).execute draws world).2 = later) :
    (∀ lease ∈ cascaded service ctx tokenID (draws 0).env.range (draws 1).env.now.utc world.stores,
      Revoked lease.id later) ∧
    (∀ lease, later.stores.leases.find lease.id = some lease → lease.revokedAt = none →
      world.stores.leases.find lease.id = some lease) ∧
    ∀ id, (∀ lease ∈ cascaded service ctx tokenID (draws 0).env.range (draws 1).env.now.utc
      world.stores, lease.id ≠ id) → later.stores.leases.find id = world.stores.leases.find id := by
  unfold HooksSucceed at hooks
  rw [revokeByTokenID_execute service ctx named] at hooks ended
  generalize cascaded service ctx tokenID (draws 0).env.range (draws 1).env.now.utc world.stores =
    listed at hooks ended ⊢
  have runs := @runs_execute lib _ (fun _ => True) (do
    let done ← revokeEach LeaseView.id (fun view => service.revokeOne view.id view.engine)
      (fun _ => false) ([], none) (listed.map toLeaseView)
    pure done.1 : LeaseProgram (List String)) (fun place => draws (place + 2)) (fun _ => trivial)
    world
  rw [ended] at runs
  generalize LeaseProgram.execute _ _ _ = result at runs hooks
  obtain ⟨err, -, failed⟩ | ⟨done, middle, revoking, pairing⟩ := Fallible.runs_bind.mp runs
  · obtain ⟨_, failed⟩ := revokeEach_ok failed
    cases failed
  obtain ⟨names, rfl⟩ := Fallible.runs_pure.mp pairing
  refine ⟨fun lease inside => ?_, ?_, fun id others => ?_⟩
  · -- a hook that succeeded has revoked its lease; a plain mark always does
    have listedView : toLeaseView lease ∈ listed.map toLeaseView := List.mem_map_of_mem inside
    cases hook : LeaseService.revokeOne.hook service lease.id lease.engine with
    | some revoke =>
      refine revokeEach_named (fun view _ => ?_) (fun id view _ => ?_) revoking
        (fun _ inside => nomatch inside) lease.id
        (hooks lease inside (by rw [hook]; rfl) done.1 names)
      · intro world later value revoked
        exact (revokeOne_marksOnly revoked).2 (.inl rfl)
      · intro world later result fact revoked
        exact fact.marks (revokeOne_marksOnly revoked).1
    | none =>
      refine @revokeEach_reaches lib _ _ world _ (fun _ => True) _ _ _ _ (Revoked lease.id) _
        (fun _ _ _ => ?_) (fun _ _ _ => ?_) (toLeaseView lease) listedView
        rfl ?_ _ _ revoking trivial
      · exact fun _ _ => trivial
      · exact fun fact revoked => fact.marks (revokeOne_marksOnly revoked).1
      · intro world later result _ revoked
        exact (revokeOne_marksOnly revoked).2 (.inr (by
          show (LeaseService.revokeOne.hook service lease.id lease.engine).isNone = true
          rw [hook]
          rfl))
  · refine @revokeEach_runs lib _ _ world _ (fun later => ∀ lease,
      later.stores.leases.find lease.id = some lease → lease.revokedAt = none →
        world.stores.leases.find lease.id = some lease) _ _ _ _ _ (fun view _ _ => ?_) _ _ revoking
      (fun _ found _ => found)
    intro middle later result unrevoked revoked lease found live
    obtain same | ⟨time, marked⟩ := (revokeOne_marksOnly revoked).1
    · rw [same] at found
      exact unrevoked lease found live
    · by_cases same : lease.id = view.id
      · have isRevoked := Revoked.of_mark marked lease (same ▸ found)
        rw [live] at isRevoked
        cases isRevoked
      · rw [MarksOnly.elsewhere (.inr ⟨time, marked⟩) same] at found
        exact unrevoked lease found live
  · refine @revokeEach_runs lib _ _ world _ (fun later =>
      later.stores.leases.find id = world.stores.leases.find id) _ _ _ _ _ (fun view shown _ => ?_)
      _ _ revoking rfl
    intro middle later result same revoked
    obtain ⟨lease, inside, rfl⟩ := List.mem_map.mp shown
    exact ((revokeOne_marksOnly revoked).1.elsewhere (Ne.symm (others lease inside))).trans same

end Cascade

/-! ### Revoking a token -/

section Token

variable {lib : Library}

structure TokenWorld (lib : Library) where
  tokens : TokenStore
  leases : LeaseWorld lib

/-- The clock, the draws of the cascade and the visiting orders of the wipe. -/
structure RevokeDraws where
  clock : Time
  cascade : Nat → LeaseDraw
  wipe : Nat → MapRange

def revokeToken (service : LeaseService) (ctx : LeaseContext) (draws : RevokeDraws) (id : String)
    (world : TokenWorld lib) : Except KNXVaultError Unit × TokenWorld lib :=
  match world.tokens.revoke draws.clock id with
  | .error err => (.error err, world)
  | .ok tokens =>
    let cascade := ((service.revokeByTokenID ctx id).execute draws.cascade world.leases).2
    (.ok (), { tokens, leases := cascade.withSecrets (wiped id draws.wipe cascade.stores.secrets) })

/-- No lease that is bound to the token is active from a time on. -/
def NoneActive (id : String) (since : Time) (world : LeaseWorld lib) : Prop :=
  ∀ lease, world.stores.leases.find lease.id = some lease → lease.tokenID = id →
    ∀ time : Time, since.instant ≤ time.instant → lease.active time = false

/-- The active leases of the token lie within the namespace that the request names. -/
def WithinNamespace (service : LeaseService) (ctx : LeaseContext) (id : String) (now : Time)
    (stores : LeaseStores lib) : Prop :=
  ∀ lease, stores.leases.find lease.id = some lease → lease.tokenID = id →
    lease.active now = true → validateLeaseIDAccess
      (if service.tenantMode then trimSpace ctx.requestNamespace else "") lease.id = true

theorem named_of_revoke {store later : TokenStore} {clock : Time} {id : String}
    (revoked : store.revoke clock id = .ok later) : id ≠ "" := by
  unfold TokenStore.revoke at revoked
  split at revoked
  · split at revoked
    · cases revoked
    · cases revoked
  · rename_i marked
    obtain ⟨token, found, -⟩ := changeRow_ok_iff.mp marked
    have valid := Table.valid_of_find found
    rwa [Table.key_of_find found] at valid

/-- After a token is revoked and all hooks have succeeded, no lease that is bound to it
is active and its cubbyhole cannot be read, if and only if its active leases lay within
the namespace of the request; without tenants, or without a namespace, all of them do. -/
theorem token_revocation_cascades_iff (service : LeaseService) (ctx : LeaseContext)
    (draws : RevokeDraws) (id : String) (world : TokenWorld lib)
    (succeeds : (revokeToken service ctx draws id world).1 = .ok ())
    (hooks : HooksSucceed service ctx id draws.cascade world.leases) :
    (NoneActive id (draws.cascade 1).env.now.utc (revokeToken service ctx draws id world).2.leases ∧
      Unreadable (revokeToken service ctx draws id world).2.leases.stores.secrets id) ↔
    WithinNamespace service ctx id (draws.cascade 1).env.now.utc world.leases.stores := by
  unfold revokeToken at succeeds ⊢
  cases revoked : world.tokens.revoke draws.clock id with
  | error err =>
    rw [revoked] at succeeds
    cases succeeds
  | ok tokens =>
    have named := named_of_revoke revoked
    obtain ⟨listed, unrevoked, unlisted⟩ := cascade_leases named hooks rfl
    refine (and_iff_left (wiped_unreadable named _ _)).trans ?_
    constructor
    · -- a lease outside of the namespace is left as it was
      intro noneActive lease found bound active
      by_contra outside
      have left := unlisted lease.id fun other inside same => by
        obtain ⟨stored, -, -, access⟩ := (mem_cascaded named).mp inside
        rw [same] at stored access
        exact outside access
      have inactive := noneActive lease (left.trans found) bound _ le_rfl
      rw [active] at inactive
      cases inactive
    · intro within lease found bound time since
      by_contra isActive
      have isActive : lease.active time = true := by simpa using isActive
      obtain ⟨live, before⟩ := Bool.and_eq_true_iff.mp isActive
      have live := Option.isNone_iff_eq_none.mp live
      have stored := unrevoked lease found live
      have active : lease.active (draws.cascade 1).env.now.utc = true := by
        rw [Lease.active, live]
        simp only [Time.before, decide_eq_true_eq, Option.isNone_none, Bool.true_and] at before ⊢
        exact lt_of_le_of_lt since before
      have isRevoked := listed lease ((mem_cascaded named).mpr
        ⟨stored, bound, active, within lease stored bound active⟩) lease found
      rw [live] at isRevoked
      cases isRevoked

/-- A token, and a lease of the tenant `a` that was issued to it. -/
def boundWorld : TokenWorld .sample where
  tokens := ⟨Table.empty.put {
    id := "t", subject := "app", policies := ["db"], expiresAt := ⟨100 * nanosecondsPerSecond, 0⟩ }
    (by decide), hours 24⟩
  leases := { stores := { leasedStores with
    leases := Table.empty.put {
      id := "a.l", path := "database/creds/app/l", roleName := "app", engine := "database"
      ttlSeconds := 100, expiresAt := ⟨100 * nanosecondsPerSecond, 0⟩, tokenID := "t" }
      (by decide) } }

def tenantService : LeaseService :=
  { database := some sampleDatabase, ssh := some sampleSsh, tenantMode := true }

def revokeDraws : RevokeDraws := ⟨(drawAt 9).env.now, fun _ => drawAt 10, fun _ => .sorted⟩

theorem token_revocation_cascades_within :
    NoneActive "t" (drawAt 10).env.now.utc
      (revokeToken tenantService ⟨"a", "a"⟩ revokeDraws "t" boundWorld).2.leases ∧
    Unreadable (revokeToken tenantService ⟨"a", "a"⟩ revokeDraws "t"
      boundWorld).2.leases.stores.secrets "t" := by
  refine (token_revocation_cascades_iff tenantService ⟨"a", "a"⟩ revokeDraws "t" boundWorld
    (by decide +kernel) ?_).mpr ?_
  · intro lease inside _ revoked ended
    have shown : ((tenantService.revokeByTokenID ⟨"a", "a"⟩ "t").execute revokeDraws.cascade
        boundWorld.leases).1.toOption.all (fun revoked => (cascaded tenantService ⟨"a", "a"⟩ "t"
          .sorted (drawAt 10).env.now.utc boundWorld.leases.stores).all fun lease =>
            revoked.contains lease.id) = true := by
      decide +kernel
    rw [ended] at shown
    have named := List.all_eq_true.mp shown lease inside
    simpa using named
  · have within : ∀ lease ∈ boundWorld.leases.stores.leases.visit .sorted,
        validateLeaseIDAccess "a" lease.id = true := by
      decide +kernel
    exact fun lease found _ _ => within lease (Table.mem_visit.mpr found)

/-- The request that revokes the token names another namespace: the lease stays active. -/
theorem bound_lease_left_active :
    (revokeToken tenantService ⟨"b", "b"⟩ revokeDraws "t" boundWorld).1.isOk = true ∧
    ((revokeToken tenantService ⟨"b", "b"⟩ revokeDraws "t" boundWorld).2.leases.stores.leases.find
      "a.l").any (fun lease => lease.tokenID = "t" &&
        lease.active ⟨11 * nanosecondsPerSecond, 0⟩) = true := by
  decide +kernel

end Token

end KnxVault.Leases
