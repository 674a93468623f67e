import KnxVault.Api.KeyValue
import KnxVault.Repository.History

/-!
# Deleting a key-value secret

`Delete` destroys the newest version that is not destroyed. The newest such
version is looked for anew by every read, so what a reader sees after a delete
depends on the older versions of the path.
-/

namespace KnxVault.Api

open KnxVault.Std KnxVault.Domain KnxVault.Crypto KnxVault.Repository KnxVault.Engine

/-! ### Histories of calls -/

/-- A call on the engine with the clock and the randomness it meets. -/
structure KVInput where
  env : Env
  random : SealRandom
  call : KVCall

namespace KVServer

def meeting (server : KVServer) (input : KVInput) : KVServer :=
  { server with env := input.env, random := input.random }

def step (server : KVServer) (input : KVInput) : KVServer :=
  match (server.meeting input).serve input.call with
  | .ok (_, secrets) => { server with secrets }
  | .error _ => server

variable {server : KVServer} {path : String}

/-- Everything that a call can do to the secrets: nothing, one put at its path, or
the end of one version of its path. -/
theorem serve_cases {call : KVCall} {answer : Answer} {later : SecretRepository}
    (served : server.serve call = .ok (answer, later)) :
    later = server.secrets ∨
    (∃ (data : Fields) (opts : PutOptions) (write : SecretWrite) (version : Int),
      call = .put call.path data opts ∧ rejectReservedKVPath server.lib call.path = .ok () ∧
      write.secret.path = call.path ∧
      server.secrets.putAtomic server.env.range write.secret write.casVersion write.maxVersions =
        .ok (later, version)) ∨
    ∃ version, (call = .destroyVersion call.path version ∨ call = .delete call.path) ∧
      rejectReservedKVPath server.lib call.path = .ok () ∧
      server.secrets.destroyVersion call.path version = .ok later := by
  cases call with
  | put path data opts =>
    obtain ⟨write, made, served⟩ := bind_eq_ok served
    obtain ⟨⟨stored, version⟩, put, served⟩ := bind_eq_ok served
    cases served
    obtain ⟨accepted, onPath, -⟩ := KVV2Engine.put_ok made
    exact .inr (.inl ⟨data, opts, write, version, rfl, accepted, onPath, mapError_ok_iff.mp put⟩)
  | destroyVersion path version =>
    obtain ⟨stored, destroyed, served⟩ := bind_eq_ok served
    cases served
    unfold KVV2Engine.destroyVersion at destroyed
    split at destroyed
    · cases destroyed
    obtain ⟨_, accepted, destroyed⟩ := bind_eq_ok destroyed
    exact .inr (.inr ⟨version, .inl rfl, accepted, mapError_ok_iff.mp destroyed⟩)
  | delete path =>
    obtain ⟨stored, destroyed, served⟩ := bind_eq_ok served
    cases served
    obtain ⟨_, accepted, destroyed⟩ := bind_eq_ok destroyed
    obtain ⟨latest, -, destroyed⟩ := bind_eq_ok destroyed
    exact .inr (.inr ⟨latest.version, .inr rfl, accepted, mapError_ok_iff.mp destroyed⟩)
  | listPaths _ | getMetadata _ _ | listVersions _ | getVersion _ _ =>
    obtain ⟨_, -, served⟩ := bind_eq_ok served
    cases served
    exact .inl rfl

/-- A property of the secrets that every successful call keeps is kept by a step. -/
theorem step_keeps (Inv : SecretRepository → Prop) (input : KVInput)
    (kept : ∀ answer later, (server.meeting input).serve input.call = .ok (answer, later) →
      Inv server.secrets → Inv later) (holds : Inv server.secrets) :
    Inv (server.step input).secrets := by
  unfold step
  split
  · rename_i answer later served
    exact kept answer later served holds
  · exact holds

/-- A step changes the secrets and nothing else of the server. -/
theorem step_eq (input : KVInput) :
    server.step input = { server with secrets := (server.step input).secrets } := by
  unfold step
  split <;> rfl

theorem run_eq (inputs : List KVInput) :
    run step server inputs = { server with secrets := (run step server inputs).secrets } := by
  induction inputs generalizing server with
  | nil => rfl
  | cons input inputs ih =>
    rw [run_cons, ih, step_eq]

end KVServer

/-! ### What a reader sees of a path -/

namespace KVServer

/-- Nothing is read at the path by default, and no version is reported as current. -/
def Hidden (server : KVServer) (path : String) : Prop :=
  ∀ env : Env, ({ server with env } : KVServer).serve (.getVersion path 0) =
      refuse .notFound "secret version not found" ∧
    ∃ entry, ({ server with env } : KVServer).serve (.getMetadata path 0) =
      .ok (.metadata entry, server.secrets) ∧ entry.currentVersion = 0

/-- The same version reads alike on two servers, at every time. -/
def ReadsAlike (server other : KVServer) (path : String) (version : Int) : Prop :=
  ∀ env : Env, (({ server with env } : KVServer).serve (.getVersion path version)).map Prod.fst =
    (({ other with env } : KVServer).serve (.getVersion path version)).map Prod.fst

/-- Versions of the path are stored and all of them are destroyed. -/
structure Emptied (secrets : SecretRepository) (path : String) : Prop where
  versioned : secrets.Versioned path
  none_live : ∀ secret, ¬ secrets.Live path secret

theorem getLatest_of_emptied {secrets : SecretRepository} {path : String}
    (emptied : Emptied secrets path) (range : MapRange) :
    secrets.getLatest range path = failWith .notFound "secret version not found" := by
  unfold SecretRepository.getLatest
  split
  · rename_i secret latest
    exact absurd (SecretRepository.latestNonDestroyed_eq_some.mp latest).1
      (emptied.none_live secret)
  · rfl

theorem currentVersion_le {versions : List VersionMetadata} {start : Int} :
    start ≤ versions.foldl (fun current listed =>
        if current < listed.version ∧ ¬ listed.destroyed then listed.version else current) start ∧
      ∀ listed ∈ versions, listed.destroyed = false → listed.version ≤
        versions.foldl (fun current listed =>
          if current < listed.version ∧ ¬ listed.destroyed then listed.version else current)
          start := by
  induction versions generalizing start with
  | nil => simp
  | cons first versions ih =>
    obtain ⟨above, covers⟩ := @ih
      (if start < first.version ∧ ¬ first.destroyed then first.version else start)
    refine ⟨le_trans (by split <;> omega) above, ?_⟩
    intro listed member live
    rcases List.mem_cons.mp member with rfl | later
    · refine le_trans ?_ above
      simp only [live]
      split <;> simp_all
    · exact covers listed later live

/-- Destroyed versions are never current. -/
theorem currentVersion_of_destroyed {versions : List VersionMetadata}
    (destroyed : ∀ listed ∈ versions, listed.destroyed = true) :
    KVV2Engine.currentVersion versions = 0 := by
  unfold KVV2Engine.currentVersion
  induction versions with
  | nil => rfl
  | cons first versions ih =>
    rw [List.foldl_cons, if_neg (by simp [destroyed first List.mem_cons_self])]
    exact ih fun listed later => destroyed listed (List.mem_cons_of_mem _ later)

theorem listVersions_ok_iff {lib : Library} {range : MapRange} {secrets : SecretRepository}
    {path : String} (accepted : rejectReservedKVPath lib path = .ok ()) :
    (∃ versions, KVV2Engine.listVersions lib range secrets path = .ok versions ∧
      ∀ listed, listed ∈ versions ↔ ∃ secret : SecretVersion,
        secrets.find (secretKey secret) = some secret ∧ secret.path = path ∧
        listed = { version := secret.version, createdAt := secret.createdAt
                   destroyed := secret.destroyed, ttl := ttlText secret }) ↔
      secrets.Versioned path := by
  have members : ∀ secret, secret ∈ (secrets.listByPath range path).filter
      (fun secret => secret.path = path) ↔
        secrets.find (secretKey secret) = some secret ∧ secret.path = path := by
    intro secret
    simp only [SecretRepository.listByPath, List.mem_filter, mem_sortBy, Table.mem_visit,
      decide_eq_true_eq]
    constructor
    · exact fun listed => ⟨listed.1.1, listed.2⟩
    · rintro ⟨stored, rfl⟩
      exact ⟨⟨stored, hasPrefix_iff.mpr ⟨[], by simp⟩⟩, rfl⟩
  unfold KVV2Engine.listVersions
  rw [accepted]
  dsimp only [bind, Except.bind]
  constructor
  · rintro ⟨versions, listed, -⟩
    split at listed
    · cases listed
    · rename_i nonempty
      obtain ⟨secret, member⟩ := List.exists_mem_of_ne_nil _ nonempty
      exact ⟨secret, (members secret).mp member⟩
  · rintro ⟨secret, found⟩
    rw [if_neg]
    · refine ⟨_, rfl, fun listed => ?_⟩
      simp only [List.mem_map, members]
      constructor
      · rintro ⟨secret, ⟨stored, onPath⟩, rfl⟩
        exact ⟨secret, stored, onPath, rfl⟩
      · rintro ⟨secret, stored, onPath, rfl⟩
        exact ⟨secret, ⟨stored, onPath⟩, rfl⟩
    · exact List.ne_nil_of_mem ((members secret).mpr found)

theorem getMetadata_ok {lib : Library} {range : MapRange} {secrets : SecretRepository}
    {path : String} (accepted : rejectReservedKVPath lib path = .ok ())
    (versioned : secrets.Versioned path) :
    ∃ entry, KVV2Engine.getMetadata lib range secrets path 0 = .ok entry ∧
      (entry.currentVersion = 0 ↔ ∀ secret, ¬ secrets.Live path secret) := by
  obtain ⟨versions, listed, members⟩ := (@listVersions_ok_iff lib range _ _ accepted).mpr versioned
  unfold KVV2Engine.getMetadata
  rw [listed]
  dsimp only [bind, Except.bind]
  rw [if_neg (by simp)]
  refine ⟨_, rfl, ?_⟩
  dsimp only
  constructor
  · rintro current secret ⟨stored, onPath, live⟩
    have shown := (@currentVersion_le versions 0).2 _
      ((members _).mpr ⟨secret, stored, onPath, rfl⟩) live
    have valid := Table.valid_of_find stored
    have positive := (SecretVersion.required valid).2.1
    rw [KVV2Engine.currentVersion] at current
    dsimp only at shown
    omega
  · intro none_live
    refine currentVersion_of_destroyed fun entry shown => ?_
    obtain ⟨secret, stored, onPath, rfl⟩ := (members entry).mp shown
    exact Bool.not_eq_false _ ▸ fun live => none_live secret ⟨stored, onPath, live⟩

theorem hidden_iff {server : KVServer} {path : String}
    (accepted : rejectReservedKVPath server.lib path = .ok ())
    (versioned : server.secrets.Versioned path) :
    server.Hidden path ↔ ∀ secret, ¬ server.secrets.Live path secret := by
  constructor
  · intro hidden
    obtain ⟨entry, shown, current⟩ := (hidden server.env).2
    obtain ⟨entry', read, zero⟩ := @getMetadata_ok _ server.env.range _ _ accepted versioned
    obtain ⟨_, read', same⟩ := bind_eq_ok shown
    cases same
    rw [read] at read'
    cases read'
    exact zero.mp current
  · intro none_live env
    constructor
    · have latest := getLatest_of_emptied ⟨versioned, none_live⟩ env.range
      unfold serve KVV2Engine.getVersion
      dsimp only [bind, Except.bind]
      rw [accepted]
      dsimp only
      rw [if_pos (by decide), latest]
      rfl
    · obtain ⟨entry, read, zero⟩ := @getMetadata_ok _ env.range _ _ accepted versioned
      refine ⟨entry, ?_, zero.mpr none_live⟩
      unfold serve
      dsimp only [bind, Except.bind]
      rw [read]
      rfl

end KVServer

/-! ### After a delete -/

namespace KVServer

variable {server : KVServer} {path : String}

/-- No call puts a secret at the path. -/
def NoPut (path : String) (inputs : List KVInput) : Prop :=
  ∀ input ∈ inputs, ∀ data opts, input.call ≠ .put path data opts

theorem emptied_step (input : KVInput) (noPut : ∀ data opts, input.call ≠ .put path data opts)
    (emptied : Emptied server.secrets path) : Emptied (server.step input).secrets path := by
  refine step_keeps (fun secrets => Emptied secrets path) input ?_ emptied
  intro answer later served emptied
  obtain same | ⟨data, opts, write, version, call, -, onPath, put⟩ |
    ⟨version, -, -, destroyed⟩ := serve_cases served
  · rw [same]
    exact emptied
  · have apart : path ≠ write.secret.path := by
      rintro rfl
      exact noPut data opts (onPath ▸ call)
    have same := SecretRepository.find_putAtomic_elsewhere put apart
    obtain ⟨secret, stored, rfl⟩ := emptied.versioned
    refine ⟨⟨secret, (same _).trans stored, rfl⟩, ?_⟩
    rintro other ⟨found, onPath, live⟩
    rw [secretKey, onPath] at found
    exact emptied.none_live other ⟨by rw [secretKey, onPath, ← found]; exact (same _).symm, onPath,
      live⟩
  · refine ⟨(SecretRepository.destroyVersion_continues destroyed).reached.versioned
      emptied.versioned, fun secret live => ?_⟩
    exact emptied.none_live secret ((SecretRepository.live_of_destroyVersion destroyed).mp live).1

theorem emptied_run {inputs : List KVInput} (noPut : NoPut path inputs)
    (emptied : Emptied server.secrets path) :
    Emptied (run step server inputs).secrets path := by
  induction inputs generalizing server with
  | nil => exact emptied
  | cons input inputs ih =>
    refine ih (fun later listed => noPut later (List.mem_cons_of_mem _ listed)) ?_
    exact emptied_step input (noPut input List.mem_cons_self) emptied

/-- What a delete does: it ends the newest live version of its path. -/
theorem delete_ok {answer : Answer} {later : SecretRepository}
    (deleted : server.serve (.delete path) = .ok (answer, later)) :
    rejectReservedKVPath server.lib path = .ok () ∧ later.Versioned path ∧
      ∃ latest, server.secrets.Live path latest ∧
        (∀ secret, server.secrets.Live path secret → secret.version ≤ latest.version) ∧
        ∀ secret, later.Live path secret ↔
          server.secrets.Live path secret ∧ secret.version ≠ latest.version := by
  obtain ⟨stored, deleting, same⟩ := bind_eq_ok deleted
  cases same
  obtain ⟨_, accepted, deleting⟩ := bind_eq_ok deleting
  obtain ⟨latest, found, destroyed⟩ := bind_eq_ok deleting
  obtain ⟨live, newest⟩ := SecretRepository.getLatest_ok_iff.mp (mapError_ok_iff.mp found)
  have destroyed := mapError_ok_iff.mp destroyed
  have versioned : server.secrets.Versioned path := ⟨latest, live.1, live.2.1⟩
  refine ⟨accepted, (SecretRepository.destroyVersion_continues destroyed).reached.versioned
    versioned, latest, live, newest, fun secret => ?_⟩
  rw [SecretRepository.live_of_destroyVersion destroyed]
  simp

/-- A deleted path is hidden until the next put, and its older versions stay readable
until they are destroyed by number, if and only if the path had one live version when
it was deleted. -/
theorem delete_hides_iff (server : KVServer) (path : String) (answer : Answer)
    (later : SecretRepository) (deleted : server.serve (.delete path) = .ok (answer, later)) :
    (∀ inputs, NoPut path inputs →
      (run step { server with secrets := later } inputs).Hidden path ∧
      ∀ older newer, server.secrets.Live path older → server.secrets.Live path newer →
        older.version < newer.version →
        (∀ input ∈ inputs, input.call ≠ .destroyVersion path older.version) →
        (run step { server with secrets := later } inputs).ReadsAlike server path
          older.version) ↔
    ∃ secret, server.secrets.Live path secret ∧
      ∀ other, server.secrets.Live path other → other = secret := by
  obtain ⟨accepted, versioned, latest, live, newest, left⟩ := delete_ok deleted
  constructor
  · intro claimed
    refine ⟨latest, live, fun other live' => ?_⟩
    by_contra differ
    have hidden := (claimed [] (by simp [NoPut])).1
    refine (@hidden_iff { server with secrets := later } path accepted versioned).mp hidden other
      ((left other).mpr ⟨live', ?_⟩)
    exact fun same => differ (live'.eq_of_version live same)
  · rintro ⟨secret, -, unique⟩ inputs noPut
    have emptied : Emptied later path := by
      refine ⟨versioned, fun other live' => ?_⟩
      obtain ⟨live', apart⟩ := (left other).mp live'
      exact apart (by rw [unique other live', unique latest live])
    refine ⟨?_, fun older newer live' live'' below => ?_⟩
    · have after := @emptied_run { server with secrets := later } path inputs noPut emptied
      have lib : (run step { server with secrets := later } inputs).lib = server.lib := by
        rw [run_eq]
      rw [← lib] at accepted
      exact (hidden_iff accepted after.versioned).mpr after.none_live
    · rw [unique older live', unique newer live''] at below
      exact absurd below (lt_irrefl _)

/-- A write of one field at a path. -/
def putCall (path : String) : KVInput where
  env := .sample 1
  random := sample.random
  call := .put path ((∅ : Fields).insert "pw" (.string "s3cret")) {}

/-- The only version of a path is deleted. -/
theorem delete_hides_iff_once :
    ∃ later, (run step sample [putCall "app"]).serve (.delete "app") = .ok (.done, later) ∧
      ({ run step sample [putCall "app"] with secrets := later } : KVServer).Hidden "app" := by
  have deletes : ((run step sample [putCall "app"]).serve (.delete "app")).isOk = true := by
    decide +kernel
  obtain ⟨⟨answer, later⟩, deleted⟩ :
      ∃ result, (run step sample [putCall "app"]).serve (.delete "app") = .ok result := by
    revert deletes
    cases (run step sample [putCall "app"]).serve (.delete "app") with
    | ok result => exact fun _ => ⟨result, rfl⟩
    | error err => exact fun failed => by cases failed
  have single : ((run step sample [putCall "app"]).secrets.liveVersions .sorted "app").length =
      1 := by
    decide +kernel
  obtain ⟨secret, listed⟩ := List.length_eq_one_iff.mp single
  have hides := (delete_hides_iff _ "app" answer later deleted).mpr
    ⟨secret, SecretRepository.mem_liveVersions.mp (by rw [listed]; exact List.mem_singleton_self _),
      fun other live => List.mem_singleton.mp
        (listed ▸ (@SecretRepository.mem_liveVersions _ .sorted _ _).mpr live)⟩
  obtain ⟨_, -, same⟩ := bind_eq_ok deleted
  cases same
  exact ⟨later, deleted, (hides [] (by simp [NoPut])).1⟩

def deleteCall (path : String) : KVInput where
  env := .sample 2
  random := sample.random
  call := .delete path

/-- After two puts and a delete, the first version is read and reported as current. -/
theorem deleted_path_shows_older :
    ((run step sample [putCall "app", putCall "app"]).serve (.delete "app")).isOk = true ∧
    ((run step sample [putCall "app", putCall "app", deleteCall "app"]).serve
      (.getMetadata "app" 0)).map (fun result => match result.1 with
        | .metadata entry => entry.currentVersion
        | _ => 0) = .ok 1 ∧
    ((run step sample [putCall "app", putCall "app", deleteCall "app"]).serve
      (.getVersion "app" 0)).map (fun result => match result.1 with
        | .secret read => read.version
        | _ => 0) = .ok 1 := by
  decide +kernel

end KVServer

end KnxVault.Api
