import KnxVault.Repository.Locality
import KnxVault.Rotation.Service
import KnxVault.Std.Run

/-!
# Where a rotation writes

A rotation gives the stored path of its policy to the secrets service, which resolves it
for the tenant of its caller. The new version is written at the resolved path, while the
policy is saved under the stored one.
-/

namespace KnxVault.Rotation

open KnxVault.Std KnxVault.Domain KnxVault.Repository KnxVault.Engine

/-! ### One rotation -/

/-- The path at which the secrets service stores, if its engine takes the path. -/
def SecretsService.resolve (service : SecretsService) (tenant path : String) : Option String :=
  (service.scopePath tenant path).toOption.filter fun path =>
    path ≠ "" && (rejectReservedKVPath service.lib path).isOk

/-- What the call answers and leaves if it meets no other call. -/
abbrev alone {α : Type} (range : MapRange) (program : RotationProgram α)
    (stores : RotationStores) : Except GoError α × RotationStores :=
  program.run.alone (RotationOp.exec range) stores

/-- The generator gives a value, and once the path is resolved the value is sealed and stored. -/
def Works (service : SecretsService) (tenant : String) (draws : String → RotationDraw)
    (stores : RotationStores) (policy : RotationPolicy) : Prop :=
  ∃ data ∈ (generateRotationValue (draws policy.path).password policy.generator).toOption,
    ∀ path ∈ service.resolve tenant policy.path,
      ∃ write ∈ (service.sealed (draws policy.path) path data).toOption,
        (stores.secrets.putAtomic .sorted write.secret write.casVersion
          write.maxVersions).isOk = true

instance (service : SecretsService) (tenant : String) (draws : String → RotationDraw)
    (stores : RotationStores) (policy : RotationPolicy) :
    Decidable (Works service tenant draws stores policy) :=
  inferInstanceAs (Decidable (∃ data ∈ _, ∀ path ∈ _, ∃ write ∈ _, _ = true))

/-- The policy once it is rotated. -/
def rotated (draws : String → RotationDraw) (policy : RotationPolicy) : RotationPolicy :=
  { policy with lastRotatedAt := (draws policy.path).clock.utc }

section Rotations

variable {service : SecretsService} {tenant : String} {range : MapRange}
  {draws : String → RotationDraw} {stores : RotationStores} {policy : RotationPolicy}

theorem resolve_eq_some {path stored : String} :
    service.resolve tenant path = some stored ↔ service.scopePath tenant path = .ok stored ∧
      stored ≠ "" ∧ rejectReservedKVPath service.lib stored = .ok () := by
  unfold SecretsService.resolve
  cases service.scopePath tenant path with
  | error err => simp [Except.toOption]
  | ok found =>
    simp only [Except.toOption, Option.filter_eq_some_iff, Option.some.injEq, Except.ok.injEq,
      Bool.and_eq_true, decide_eq_true_eq, isOk_iff]
    constructor
    · rintro ⟨rfl, filled, ⟨⟩, accepted⟩
      exact ⟨rfl, filled, accepted⟩
    · rintro ⟨rfl, filled, accepted⟩
      exact ⟨rfl, filled, (), accepted⟩

theorem sealed_ok {draw : RotationDraw} {path : String} {data : Fields} {write : SecretWrite}
    (made : service.sealed draw path data = .ok write) :
    path ≠ "" ∧ rejectReservedKVPath service.lib path = .ok () ∧ write.secret.path = path := by
  obtain ⟨accepted, onPath, -⟩ := KVV2Engine.put_ok made
  refine ⟨?_, accepted, onPath⟩
  rintro rfl
  cases made

/-- A put is refused before it reaches the store, or writes one version at the resolved path. -/
theorem put_alone {draw : RotationDraw} {path : String} {data : Fields}
    (fits : stores.secrets.Fits)
    (works : ∀ stored ∈ service.resolve tenant path,
      ∃ write ∈ (service.sealed draw stored data).toOption,
        (stores.secrets.putAtomic .sorted write.secret write.casVersion
          write.maxVersions).isOk = true) :
    (service.resolve tenant path = none ∧ ∃ err,
      alone range (service.put tenant draw path data) stores = (.error err, stores)) ∨
    ∃ stored secrets version, service.resolve tenant path = some stored ∧
      secrets.newestVersion stored = stores.secrets.newestVersion stored + 1 ∧
      (∀ other ≠ stored, secrets.SameAt stores.secrets other) ∧ secrets.Fits ∧
      alone range (service.put tenant draw path data) stores =
        (.ok version, { stores with secrets }) := by
  cases scoping : service.scopePath tenant path with
  | error err =>
    refine .inl ⟨?_, err, Fallible.alone_ofExcept_error scoping _⟩
    simp [SecretsService.resolve, scoping, Except.toOption]
  | ok stored =>
    cases made : service.sealed draw stored data with
    | error err =>
      refine .inl ⟨?_, err, ?_⟩
      · -- a path that is resolved is sealed
        rw [Option.eq_none_iff_forall_not_mem]
        intro other resolved
        obtain ⟨write, written, -⟩ := works other resolved
        obtain ⟨same, -⟩ := resolve_eq_some.mp resolved
        cases scoping.symm.trans same
        rw [made] at written
        cases written
      · exact (Fallible.alone_ofExcept_ok scoping _).trans (Fallible.alone_ofExcept_error made _)
    | ok write =>
      obtain ⟨filled, accepted, onPath⟩ := sealed_ok made
      have resolved := resolve_eq_some.mpr ⟨scoping, filled, accepted⟩
      obtain ⟨_, same, puts⟩ := works stored resolved
      rw [made] at same
      cases same
      obtain ⟨⟨secrets, version⟩, put⟩ := isOk_iff.mp puts
      refine .inr ⟨stored, secrets, version, resolved, ?_, ?_, ?_, ?_⟩
      · rw [← onPath]
        exact SecretRepository.newestVersion_putAtomic fits put
      · intro other apart
        exact SecretRepository.find_putAtomic_elsewhere put (by rwa [onPath])
      · exact (SecretRepository.putAtomic_puts fits put).fits fits
      · refine (Fallible.alone_ofExcept_ok scoping _).trans ?_
        refine (Fallible.alone_ofExcept_ok made _).trans ?_
        simp only [RotationProgram.putAtomic, ExceptT.run_mk, Program.perform, Program.alone,
            RotationOp.exec, SecretRepository.putAtomic_range _ range .sorted, put]

/-- A rotation fails before its first write, or writes one version and saves the policy. -/
theorem rotatePath_alone (valid : (rotated draws policy).validate = .ok ())
    (fits : stores.secrets.Fits) (works : Works service tenant draws stores policy) :
    (service.resolve tenant policy.path = none ∧ ∃ err,
      alone range (RotationService.rotatePath service tenant (draws policy.path) policy) stores =
        (.error err, stores)) ∨
    ∃ path secrets, service.resolve tenant policy.path = some path ∧
      secrets.newestVersion path = stores.secrets.newestVersion path + 1 ∧
      (∀ other ≠ path, secrets.SameAt stores.secrets other) ∧ secrets.Fits ∧
      alone range (RotationService.rotatePath service tenant (draws policy.path) policy) stores =
        (.ok (), ⟨stores.policies.put (rotated draws policy) valid, secrets⟩) := by
  obtain ⟨data, generated, resolves⟩ := works
  have drawn := mem_toOption_iff.mp generated
  obtain ⟨unresolved, err, failed⟩ | ⟨path, secrets, version, resolved, newest, same, fits', put⟩ :=
    @put_alone _ _ range _ _ _ _ fits resolves
  · refine .inl ⟨unresolved, err, ?_⟩
    exact (Fallible.alone_ofExcept_ok drawn _).trans (Fallible.alone_bind_error failed _)
  · refine .inr ⟨path, secrets, resolved, newest, same, fits', ?_⟩
    refine (Fallible.alone_ofExcept_ok drawn _).trans ((Fallible.alone_bind_ok put _).trans ?_)
    have saved : RotationPolicyRepository.save stores.policies (rotated draws policy) = .ok _ :=
      saveRow_ok_iff.mpr ⟨valid, rfl⟩
    rw [Fallible.alone_adapt]
    simp only [RotationProgram.saveRotated, ExceptT.run_mk, Program.perform, Program.alone,
      RotationOp.exec, RotationOp.changePolicies]
    erw [saved]
    rfl

end Rotations

/-! ### All due rotations -/

/-- The state once one rotation is over, whether it failed or not. -/
def rotate (service : SecretsService) (tenant : String) (range : MapRange)
    (draws : String → RotationDraw) (stores : RotationStores) (policy : RotationPolicy) :
    RotationStores :=
  (alone range (RotationService.rotatePath service tenant (draws policy.path) policy) stores).2

/-- A failed rotation does not keep the others from running. -/
theorem rotateEach_alone {range : MapRange} (turn : RotationPolicy → RotationProgram Unit)
    (report : RunReport) (policies : List RotationPolicy) (stores : RotationStores) :
    (alone range (RotationService.rotateEach turn report policies) stores).2 =
      run (fun stores policy => (alone range (turn policy) stores).2) stores policies := by
  induction policies generalizing report stores with
  | nil => rfl
  | cons policy policies ih =>
    unfold RotationService.rotateEach
    rw [alone, Fallible.alone_bind_ok (Fallible.alone_outcome _), run_cons]
    dsimp only [alone]
    generalize (turn policy).run.alone (RotationOp.exec range) stores = done
    obtain ⟨ended, later⟩ := done
    cases ended with
    | ok _ => exact ih _ later
    | error err => exact ih _ later

theorem runDue_alone (service : SecretsService) (tenant : String) (range : MapRange)
    (draws : String → RotationDraw) (now : Time) (stores : RotationStores) :
    (alone range (RotationService.runDue service tenant draws now) stores).2 =
      run (rotate service tenant range draws) stores
        ((stores.policies.list range).filter (due · now)) := by
  unfold RotationService.runDue
  have listed : alone range RotationProgram.listPolicies stores =
      (.ok (stores.policies.list range), stores) := rfl
  rw [alone, Fallible.alone_bind_ok listed]
  exact rotateEach_alone _ _ _ _

/-- The policies have one new version each at their paths, and just they are marked as rotated. -/
structure Hits (draws : String → RotationDraw) (policies : List RotationPolicy)
    (stores later : RotationStores) : Prop where
  written : ∀ policy ∈ policies,
    later.secrets.newestVersion policy.path = stores.secrets.newestVersion policy.path + 1
  elsewhere : ∀ path ∉ policies.map RotationPolicy.path, later.secrets.SameAt stores.secrets path
  marked : ∀ policy ∈ policies, later.policies.find policy.path = some (rotated draws policy)
  unmarked : ∀ path ∉ policies.map RotationPolicy.path,
    later.policies.find path = stores.policies.find path

/-- What a run of rotations has done to the stores, by the paths they resolve to. -/
structure Resolved (service : SecretsService) (tenant : String) (draws : String → RotationDraw)
    (policies : List RotationPolicy) (stores later : RotationStores) : Prop where
  versions : ∀ path, later.secrets.newestVersion path = stores.secrets.newestVersion path +
    (policies.map fun policy => service.resolve tenant policy.path).count (some path)
  untouched : ∀ path, some path ∉ (policies.map fun policy => service.resolve tenant policy.path) →
    later.secrets.SameAt stores.secrets path
  marked : (policies.map RotationPolicy.path).Nodup → ∀ policy ∈ policies,
    (service.resolve tenant policy.path).isSome →
      later.policies.find policy.path = some (rotated draws policy)
  unmarked : ∀ path ∉ policies.map RotationPolicy.path,
    later.policies.find path = stores.policies.find path

section Runs

variable {service : SecretsService} {tenant : String} {range : MapRange}
  {draws : String → RotationDraw} {stores : RotationStores} {policies : List RotationPolicy}

theorem resolved_run (valid : ∀ policy ∈ policies, (rotated draws policy).validate = .ok ())
    (fits : stores.secrets.Fits)
    (works : AllSteps (rotate service tenant range draws) (Works service tenant draws) stores
      policies) :
    Resolved service tenant draws policies stores
      (run (rotate service tenant range draws) stores policies) := by
  induction policies generalizing stores with
  | nil =>
    exact ⟨fun _ => by simp, fun _ _ _ => rfl, fun _ _ listed => (nomatch listed),
      fun _ _ => rfl⟩
  | cons policy policies ih =>
    have rest := fun other listed => valid other (List.mem_cons_of_mem policy listed)
    rw [run_cons]
    obtain ⟨unresolved, err, failed⟩ | ⟨path, secrets, resolved, newest, same, fits', ended⟩ :=
      @rotatePath_alone service tenant range draws stores policy
        (valid policy List.mem_cons_self) fits works.1
    · have left : rotate service tenant range draws stores policy = stores := by
        rw [rotate, failed]
      have later := ih rest (by rw [left]; exact fits) works.2
      rw [left] at later ⊢
      refine ⟨fun path => ?_, fun path absent => ?_, fun distinct other listed some => ?_,
        fun path apart => ?_⟩
      · rw [later.versions path, List.map_cons, List.count_cons_of_ne (by rw [unresolved]; simp)]
      · exact later.untouched path fun listed => absent (List.mem_cons_of_mem _ listed)
      · rcases List.mem_cons.mp listed with rfl | listed
        · rw [unresolved] at some
          cases some
        · exact later.marked (List.nodup_cons.mp distinct).2 other listed some
      · exact later.unmarked path fun listed => apart (List.mem_cons_of_mem _ listed)
    · have left : rotate service tenant range draws stores policy =
          ⟨stores.policies.put (rotated draws policy) (valid policy List.mem_cons_self),
            secrets⟩ := by
        rw [rotate, ended]
      have later := ih rest (by rw [left]; exact fits') works.2
      rw [left] at later ⊢
      refine ⟨fun other => ?_, fun other absent => ?_, fun distinct other listed some => ?_,
        fun other apart => ?_⟩
      · rw [later.versions other, List.map_cons, resolved]
        by_cases here : other = path
        · rw [here, newest, List.count_cons_self]
          push_cast
          omega
        · rw [(same other here).newestVersion,
            List.count_cons_of_ne (by simpa using Ne.symm here)]
      · rw [List.map_cons, resolved, List.mem_cons, not_or] at absent
        have here : other ≠ path := fun here => absent.1 (by rw [here])
        intro number
        rw [later.untouched other absent.2 number]
        exact same other here number
      · rcases List.mem_cons.mp listed with rfl | listed
        · rw [later.unmarked _ (List.nodup_cons.mp distinct).1]
          exact stores.policies.find_put_self _ (valid _ List.mem_cons_self)
        · exact later.marked (List.nodup_cons.mp distinct).2 other listed some
      · rw [List.map_cons, List.mem_cons, not_or] at apart
        rw [later.unmarked other apart.2]
        exact (stores.policies.find_put (rotated draws policy) (valid policy List.mem_cons_self)
          other).trans (if_neg (Ne.symm apart.1))

/-- The rotations hit their targets just if the resolved paths are the stored ones, in some
order. -/
theorem Resolved.hits_iff {later : RotationStores} (distinct : (policies.map
      RotationPolicy.path).Nodup)
    (resolved : Resolved service tenant draws policies stores later) :
    Hits draws policies stores later ↔
      (policies.map fun policy => service.resolve tenant policy.path).Perm
        (policies.map fun policy => some policy.path) := by
  have stored : (policies.map fun policy => some policy.path) =
      (policies.map RotationPolicy.path).map some := by
    rw [List.map_map]
    rfl
  constructor
  · intro hits
    -- every stored path has been written once, so no rotation is left for another path
    have covered : (policies.map fun policy => some policy.path).Subperm
        (policies.map fun policy => service.resolve tenant policy.path) := by
      rw [List.subperm_ext_iff]
      intro wanted member
      obtain ⟨policy, listed, rfl⟩ := List.mem_map.mp member
      have once := hits.written policy listed
      rw [resolved.versions policy.path] at once
      rw [stored, List.count_map_of_injective _ _ (Option.some_injective _)]
      have most := List.nodup_iff_count_le_one.mp distinct policy.path
      omega
    exact (covered.perm_of_length_le (by simp)).symm
  · intro perm
    have resolves : ∀ policy ∈ policies, (service.resolve tenant policy.path).isSome := by
      intro policy listed
      have member := perm.mem_iff.mp (List.mem_map.mpr ⟨policy, listed, rfl⟩)
      obtain ⟨other, -, same⟩ := List.mem_map.mp member
      rw [← same]
      rfl
    refine ⟨fun policy listed => ?_, fun path absent => ?_, fun policy listed => ?_,
      resolved.unmarked⟩
    · rw [resolved.versions policy.path, perm.count_eq, stored,
        List.count_map_of_injective _ _ (Option.some_injective _),
        List.count_eq_one_of_mem distinct (List.mem_map.mpr ⟨policy, listed, rfl⟩)]
      rfl
    · refine resolved.untouched path ?_
      rw [perm.mem_iff, stored, List.mem_map]
      rintro ⟨_, listed, same⟩
      exact absent (Option.some.inj same ▸ listed)
    · exact resolved.marked distinct policy listed (resolves policy listed)

end Runs

/-! ### The calls of the service -/

theorem putPolicy_alone {service : SecretsService} {tenant : String} {range : MapRange}
    {policy : RotationPolicy} {stores later : RotationStores}
    (put : alone range (RotationService.putPolicy service tenant policy) stores =
      (.ok (), later)) :
    ∃ path, service.scopePath tenant policy.path = .ok path ∧
      later.policies.find path = some { policy with enabled := true, path } ∧
      ∀ other ≠ path, later.policies.find other = stores.policies.find other := by
  cases scoping : service.scopePath tenant policy.path with
  | error err => cases (Fallible.alone_ofExcept_error scoping _).symm.trans put
  | ok path =>
    have saves := (Fallible.alone_ofExcept_ok scoping _).symm.trans put
    refine ⟨path, rfl, ?_⟩
    simp only [RotationProgram.savePolicy, ExceptT.run_mk, Program.perform, Program.alone,
      RotationOp.exec, RotationOp.changePolicies] at saves
    cases saved : RotationPolicyRepository.save stores.policies
        { policy with enabled := true, path } with
    | error err =>
      rw [saved] at saves
      cases saves
    | ok policies =>
      rw [saved] at saves
      obtain ⟨passed, rfl⟩ := saveRow_ok_iff.mp saved
      obtain rfl := (Prod.mk.inj saves).2
      refine ⟨stores.policies.find_put_self _ passed, fun other apart => ?_⟩
      exact (stores.policies.find_put _ passed other).trans (if_neg (Ne.symm apart))

/-- With a generator and stores that work, the due rotations hit their targets if and only if the
tenant of the call resolves the stored paths of the due policies to just these paths; one
rotation, if and only if it resolves its path to itself. A policy is found under the path that it
was put with if and only if this is the stored path, and deleted in any case. -/
theorem rotation_hits_iff (service : SecretsService) (range : MapRange) :
    (∀ (tenant : String) (draws : String → RotationDraw) (now : Time) (stores : RotationStores),
      stores.secrets.Fits →
      AllSteps (rotate service tenant range draws) (Works service tenant draws) stores
        ((stores.policies.list range).filter (due · now)) →
      (Hits draws ((stores.policies.list range).filter (due · now)) stores
          (alone range (RotationService.runDue service tenant draws now) stores).2 ↔
        (((stores.policies.list range).filter (due · now)).map fun policy =>
            service.resolve tenant policy.path).Perm
          (((stores.policies.list range).filter (due · now)).map fun policy =>
            some policy.path))) ∧
    (∀ (tenant : String) (draws : String → RotationDraw) (stores : RotationStores)
      (policy : RotationPolicy), stores.secrets.Fits →
      stores.policies.find policy.path = some policy → Works service tenant draws stores policy →
      (Hits draws [policy] stores
          (alone range (RotationService.rotatePath service tenant (draws policy.path) policy)
            stores).2 ↔
        service.resolve tenant policy.path = some policy.path)) ∧
    ∀ (tenant : String) (policy : RotationPolicy) (stores later : RotationStores),
      alone range (RotationService.putPolicy service tenant policy) stores = (.ok (), later) →
      ∃ path, service.scopePath tenant policy.path = .ok path ∧
        ((alone range (RotationService.getPolicy policy.path) later).1 =
            .ok { policy with enabled := true, path } ↔ path = policy.path) ∧
        (alone range (RotationService.deletePolicy service tenant policy.path) later).1 = .ok () ∧
        (alone range (RotationService.deletePolicy service tenant policy.path)
          later).2.policies.find path = none := by
  refine ⟨fun tenant draws now stores fits works => ?_,
    fun tenant draws stores policy fits found works => ?_,
    fun tenant policy stores later put => ?_⟩
  · rw [runDue_alone]
    have valid : ∀ policy ∈ (stores.policies.list range).filter (due · now),
        (rotated draws policy).validate = .ok () := by
      intro policy listed
      have found : stores.policies.find policy.path = some policy :=
        mem_listBy.mp (List.mem_of_mem_filter listed)
      have valid := Table.valid_of_find found
      exact valid
    have distinct : (((stores.policies.list range).filter (due · now)).map
        RotationPolicy.path).Nodup :=
      (nodup_listBy RotationPolicy.path range stores.policies).sublist
        (List.filter_sublist.map _)
    exact (resolved_run valid fits works).hits_iff distinct
  · have valid := Table.valid_of_find found
    have resolved := @resolved_run service tenant range draws stores [policy]
      (fun other listed => by rwa [List.mem_singleton.mp listed]) fits ⟨works, trivial⟩
    refine (resolved.hits_iff (by simp)).trans ?_
    rw [List.map_singleton, List.map_singleton, List.perm_singleton, List.singleton_inj]
  · obtain ⟨path, scoping, found, -⟩ := putPolicy_alone put
    have dropped : RotationPolicyRepository.delete later.policies path = .ok _ :=
      deleteRow_ok_iff.mpr ⟨⟨_, found⟩, rfl⟩
    have deleted : alone range (RotationService.deletePolicy service tenant policy.path) later =
        (.ok (), { later with policies := later.policies.remove path }) := by
      refine (Fallible.alone_ofExcept_ok scoping _).trans ?_
      simp only [RotationProgram.deletePolicy, ExceptT.run_mk, Program.perform, Program.alone,
        RotationOp.exec, RotationOp.changePolicies, dropped]
      rfl
    refine ⟨path, scoping, ?_, by rw [deleted], ?_⟩
    · change (RotationPolicyRepository.get later.policies policy.path).mapError _ = _ ↔ _
      rw [mapError_ok_iff]
      refine getRow_ok_iff.trans ⟨fun same => Table.key_of_find same, ?_⟩
      rintro rfl
      exact found
    · rw [deleted]
      exact (later.policies.find_remove path path).trans (if_pos rfl)

/-! ### A policy of one tenant -/

def sampleSecrets : SecretsService where
  lib := .sample
  aead := .doubling
  crypto := .sample
  parseTTL _ := .ok 0
  tenantMode := true

def sampleDraw : RotationDraw :=
  ⟨.ok "generated", ((⟨1, 0⟩, (Env.sample 1).newUUID 0), .sample), ⟨1, 0⟩⟩

def sampleStores : RotationStores where
  policies := Table.empty.put { path := "red/db", interval := 60, generator := "random_password",
                                enabled := true } (by decide)
  secrets := .empty

/-- Within the tenant of its policy a rotation hits. -/
theorem rotation_hits_own_tenant :
    Hits (fun _ => sampleDraw) ((sampleStores.policies.list .sorted).filter (due · ⟨1, 0⟩))
      sampleStores (alone .sorted (RotationService.runDue sampleSecrets "red"
        (fun _ => sampleDraw) ⟨1, 0⟩) sampleStores).2 :=
  ((rotation_hits_iff sampleSecrets .sorted).1 "red" (fun _ => sampleDraw) ⟨1, 0⟩ sampleStores
    (fun _ found => by cases found) (by decide +kernel)).mpr (by decide +kernel)

/-- A job without a tenant rotates nothing, another tenant writes elsewhere, and a policy is not
found under the path that it was put with. -/
theorem rotation_misses :
    (alone .sorted (RotationService.runDue sampleSecrets "" (fun _ => sampleDraw) ⟨1, 0⟩)
      sampleStores).2.secrets.newestVersion "red/db" = 0 ∧
    (alone .sorted (RotationService.runDue sampleSecrets "blue" (fun _ => sampleDraw) ⟨1, 0⟩)
      sampleStores).2.secrets.newestVersion "red/db" = 0 ∧
    (alone .sorted (RotationService.runDue sampleSecrets "blue" (fun _ => sampleDraw) ⟨1, 0⟩)
      sampleStores).2.secrets.newestVersion "blue/red/db" = 1 ∧
    (alone .sorted (RotationService.putPolicy sampleSecrets "red"
      { path := "db", interval := 60, generator := "random_password" }) ⟨.empty, .empty⟩).1.isOk ∧
    (alone .sorted (RotationService.getPolicy "db") (alone .sorted
      (RotationService.putPolicy sampleSecrets "red"
        { path := "db", interval := 60, generator := "random_password" })
      ⟨.empty, .empty⟩).2).1.isOk = false := by
  decide +kernel

end KnxVault.Rotation
