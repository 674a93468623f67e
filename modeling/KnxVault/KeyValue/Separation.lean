import KnxVault.Engine.Storage
import KnxVault.KeyValue.Deletion
import KnxVault.Repository.History
import KnxVault.Repository.Locality
import KnxVault.Std.Codec
import KnxVault.Std.Concurrent
import KnxVault.Std.Run

/-!
# Internal records and the key-value calls

All engines keep their records in one store of secrets. The key-value engine
compares a path with the reserved starts after trimming and folding it, while the
store compares it as it stands. Whatever a caller writes as path, prefix or tenant,
the records of the other engines are neither read nor changed.
-/

namespace KnxVault

/-- Where the identity directory is kept. -/
def Identity.identityBlobPath : String := "sys/internal/identity"

/-- Where the AppRoles are kept. -/
def Auth.appRoleRaftPath : String := "sys/internal/approles"

namespace Api

open KnxVault.Std KnxVault.Domain KnxVault.Crypto KnxVault.Repository KnxVault.Engine

/-! ### What a call depends on -/

/-- The call may use what is stored at the path. -/
def KVCall.Reaches (path : String) : KVCall → Prop
  | .listPaths start => hasPrefix path start = true
  | .put own _ _ | .getMetadata own _ | .listVersions own | .getVersion own _
  | .destroyVersion own _ | .delete own => path = own

namespace KVServer

variable {server : KVServer} {other : SecretRepository} {Region : String → Prop}

/-- The same answer, and stores that agree in the region. -/
def AnswersAlike (Region : String → Prop) (result result' : Answer × SecretRepository) : Prop :=
  result.1 = result'.1 ∧ SecretRepository.AlikeOn Region result.2 result'.2

variable {secrets : SecretRepository}

/-- A read whose value does not depend on the store. -/
theorem read_agree {α : Type} {first second : Except GoError α} (present : α → Answer)
    (alike : SecretRepository.AlikeOn Region secrets other) (same : first = second) :
    Agree (AnswersAlike Region) (first >>= fun value => pure (present value, secrets))
      (second >>= fun value => pure (present value, other)) := by
  refine (Agree.of_eq same).bind ?_
  rintro value _ rfl
  exact .ok ⟨rfl, alike⟩

variable {lib : Library} {range : MapRange} {path : String}

theorem listVersions_eq {other : SecretRepository}
    (same : rejectReservedKVPath lib path = .ok () → secrets.SameAt other path) :
    KVV2Engine.listVersions lib range secrets path =
      KVV2Engine.listVersions lib range other path := by
  unfold KVV2Engine.listVersions
  cases accepted : rejectReservedKVPath lib path with
  | error err => rfl
  | ok _ =>
    have listed := @SecretRepository.listByPath_filter secrets other range path
      (fun secret => secret.path = path) fun secret kept _ => by
        rw [of_decide_eq_true kept]
        exact same accepted
    dsimp only [bind, Except.bind]
    rw [listed]

variable {version : Int}

theorem getMetadata_eq {other : SecretRepository}
    (same : rejectReservedKVPath lib path = .ok () → secrets.SameAt other path) :
    KVV2Engine.getMetadata lib range secrets path version =
      KVV2Engine.getMetadata lib range other path version := by
  unfold KVV2Engine.getMetadata
  rw [listVersions_eq same]
  cases listed : KVV2Engine.listVersions lib range other path with
  | error err => rfl
  | ok versions =>
    obtain ⟨_, accepted, -⟩ := bind_eq_ok listed
    dsimp only [bind, Except.bind]
    simp only [(same accepted).getVersion]

theorem getVersion_eq {other : SecretRepository} {now : Time}
    (same : rejectReservedKVPath server.lib path = .ok () → secrets.SameAt other path) :
    KVV2Engine.getVersion server.lib range server.aead server.service server.unmarshal now secrets
        path version =
      KVV2Engine.getVersion server.lib range server.aead server.service server.unmarshal now other
        path version := by
  unfold KVV2Engine.getVersion
  cases accepted : rejectReservedKVPath server.lib path with
  | error err => rfl
  | ok _ =>
    dsimp only [bind, Except.bind]
    rw [(same accepted).getLatest, (same accepted).getVersion]

theorem listPaths_eq {other : SecretRepository} {start : String}
    (same : ∀ path, rejectReservedKVPath lib path = .ok () → hasPrefix path start = true →
      secrets.SameAt other path) :
    KVV2Engine.listPaths lib range secrets start = KVV2Engine.listPaths lib range other start := by
  unfold KVV2Engine.listPaths
  cases accepted : rejectReservedKVPath lib start with
  | error err => rfl
  | ok _ =>
    have listed := @SecretRepository.listByPath_filter secrets other range start
      (fun secret => (rejectReservedKVPath lib secret.path).isOk) fun secret kept inside =>
        same secret.path (by
          revert kept
          cases rejectReservedKVPath lib secret.path with
          | error err => exact fun failed => by cases failed
          | ok _ => exact fun _ => rfl) inside
    dsimp only [bind, Except.bind]
    rw [List.filter_map, List.filter_map]
    simp only [Function.comp_def]
    rw [listed]

theorem put_agree {data : Fields} {opts : PutOptions}
    (alike : SecretRepository.AlikeOn Region server.secrets other)
    (same : rejectReservedKVPath server.lib path = .ok () → server.secrets.SameAt other path) :
    Agree (AnswersAlike Region) (server.serve (.put path data opts))
      (({ server with secrets := other } : KVServer).serve (.put path data opts)) := by
  simp only [serve]
  cases made : KVV2Engine.put server.lib server.aead server.service server.env server.random
      server.parseTTL path data opts with
  | error err => exact .error err
  | ok write =>
    obtain ⟨accepted, onPath, -⟩ := KVV2Engine.put_ok made
    have here : server.secrets.SameAt other write.secret.path := by
      rw [onPath]
      exact same accepted
    have put := (SecretRepository.putAtomic_agree alike here server.env.range write.casVersion
      write.maxVersions).mapError KNXVaultError.asGoError
    refine put.bind ?_
    rintro ⟨later, version⟩ ⟨later', _⟩ ⟨alike, rfl⟩
    exact .ok ⟨rfl, alike⟩

theorem destroy_agree (alike : SecretRepository.AlikeOn Region server.secrets other)
    (same : rejectReservedKVPath server.lib path = .ok () → server.secrets.SameAt other path) :
    Agree (AnswersAlike Region) (server.serve (.destroyVersion path version))
      (({ server with secrets := other } : KVServer).serve (.destroyVersion path version)) := by
  simp only [serve, KVV2Engine.destroyVersion]
  split
  · exact .error _
  · cases accepted : rejectReservedKVPath server.lib path with
    | error err => exact .error err
    | ok _ =>
      have destroyed := (SecretRepository.destroyVersion_agree alike (same accepted)
        version).mapError KNXVaultError.asGoError
      exact destroyed.bind fun later later' alike => .ok ⟨rfl, alike⟩

theorem delete_agree (alike : SecretRepository.AlikeOn Region server.secrets other)
    (same : rejectReservedKVPath server.lib path = .ok () → server.secrets.SameAt other path) :
    Agree (AnswersAlike Region) (server.serve (.delete path))
      (({ server with secrets := other } : KVServer).serve (.delete path)) := by
  simp only [serve, KVV2Engine.delete]
  cases accepted : rejectReservedKVPath server.lib path with
  | error err => exact .error err
  | ok _ =>
    have here := same accepted
    dsimp only [bind, Except.bind]
    rw [here.getLatest]
    cases other.getLatest server.env.range path with
    | error err => exact .error _
    | ok latest =>
      have destroyed := (SecretRepository.destroyVersion_agree alike here
        latest.version).mapError KNXVaultError.asGoError
      exact destroyed.bind fun later later' alike => .ok ⟨rfl, alike⟩

/-- A call answers alike on two stores that agree on all it reaches. -/
theorem serve_agree (alike : SecretRepository.AlikeOn Region server.secrets other) (call : KVCall)
    (inside : ∀ path, rejectReservedKVPath server.lib path = .ok () → call.Reaches path →
      Region path) :
    Agree (AnswersAlike Region) (server.serve call)
      (({ server with secrets := other } : KVServer).serve call) := by
  have same : ∀ path, rejectReservedKVPath server.lib path = .ok () → call.Reaches path →
      server.secrets.SameAt other path :=
    fun path accepted reached => alike path (inside path accepted reached)
  cases call with
  | put path data opts => exact put_agree alike fun accepted => same path accepted rfl
  | destroyVersion path version =>
    exact destroy_agree alike fun accepted => same path accepted rfl
  | delete path => exact delete_agree alike fun accepted => same path accepted rfl
  | listPaths path => exact read_agree .paths alike (listPaths_eq same)
  | getMetadata path version =>
    exact read_agree .metadata alike (getMetadata_eq fun accepted => same path accepted rfl)
  | listVersions path =>
    exact read_agree .versions alike (listVersions_eq fun accepted => same path accepted rfl)
  | getVersion path version =>
    exact read_agree .secret alike (getVersion_eq fun accepted => same path accepted rfl)

/-- A call changes only what is stored at its path. -/
theorem serve_elsewhere {call : KVCall} {answer : Answer} {later : SecretRepository}
    (served : server.serve call = .ok (answer, later)) {path : String}
    (apart : rejectReservedKVPath server.lib path = .ok () → path ≠ call.path) :
    later.SameAt server.secrets path := by
  obtain rfl | ⟨data, opts, write, version, -, accepted, onPath, put⟩ |
    ⟨version, -, accepted, destroyed⟩ := serve_cases served
  · exact fun _ => rfl
  · refine SecretRepository.find_putAtomic_elsewhere put ?_
    rw [onPath]
    rintro rfl
    exact apart accepted rfl
  · refine SecretRepository.find_destroyVersion_elsewhere destroyed ?_
    rintro rfl
    exact apart accepted rfl

end KVServer

/-! ### Where the other engines store -/

/-- The paths under which engines other than the key-value engine keep records. -/
inductive InternalPath : String → Prop
  | cubbyhole {tokenID path stored : String} (located : Cubbyhole.storagePath tokenID path =
      .ok stored) : InternalPath stored
  | wrapping (id : String) : InternalPath (Wrapping.wrapMetaPrefix ++ id)
  | transit (name : String) : InternalPath (Transit.keysPrefix ++ name)
  | identity : InternalPath Identity.identityBlobPath
  | appRole : InternalPath Auth.appRoleRaftPath
  | database (role leaseID : String) : InternalPath ("database/creds/" ++ (role ++ "/" ++ leaseID))
  | ssh (role leaseID : String) : InternalPath ("ssh/creds/" ++ (role ++ "/" ++ leaseID))

theorem InternalPath.reserved {path : String} (internal : InternalPath path) :
    ∃ reserved ∈ reservedKVPathPrefixes, hasPrefix path reserved = true := by
  have starts : ∀ start rest : String, hasPrefix (start ++ rest) start = true :=
    fun start rest => hasPrefix_iff.mpr ⟨rest.toList, String.toList_append⟩
  cases internal with
  | cubbyhole located =>
    obtain ⟨normalized, -, located⟩ := bind_eq_ok located
    cases located
    exact ⟨"cubbyhole/", by decide, starts ..⟩
  | wrapping id =>
    refine ⟨"sys/wrapping/", by decide, hasPrefix_iff.mpr ⟨"meta/".toList ++ id.toList, ?_⟩⟩
    rw [String.toList_append, ← List.append_assoc]
    rfl
  | transit name => exact ⟨"transit/keys/", by decide, starts ..⟩
  | identity => exact ⟨"sys/internal/", by decide, by decide⟩
  | appRole => exact ⟨"sys/internal/", by decide, by decide⟩
  | database role leaseID => exact ⟨"database/creds/", by decide, starts ..⟩
  | ssh role leaseID => exact ⟨"ssh/creds/", by decide, starts ..⟩

/-- No internal path passes for a public one. -/
theorem InternalPath.rejected {lib : Library} {path : String} (internal : InternalPath path) :
    rejectReservedKVPath lib path ≠ .ok () := by
  intro accepted
  obtain ⟨reserved, listed, starts⟩ := internal.reserved
  rw [hasPrefix_of_rejectReservedKVPath listed accepted] at starts
  cases starts

/-! ### Requests beside the other engines -/

/-- A call of the secrets service under a tenant. -/
structure ServiceInput where
  tenant : String
  input : KVInput

/-- What happens to the store: a request, or a write of another engine. -/
inductive StoreEvent where
  | request (request : ServiceInput)
  | engine (input : SecretRepository.VersionInput) (internal : InternalPath input.call.path)

namespace StoreEvent

def isRequest : StoreEvent → Bool
  | request _ => true
  | engine _ _ => false

end StoreEvent

namespace KVServer

def request (server : KVServer) (input : ServiceInput) :
    Except GoError (Answer × SecretRepository) := do
  let path ← server.scopePath input.tenant input.input.call.path
  (server.meeting input.input).serve (input.input.call.withPath path)

def handleEvent (server : KVServer) : StoreEvent → KVServer
  | .request input =>
    match server.request input with
    | .ok (_, secrets) => { server with secrets }
    | .error _ => server
  | .engine input _ => { server with secrets := SecretRepository.step server.secrets input }

/-- What the caller of a request is told. -/
def response (server : KVServer) : StoreEvent → Option (Except GoError Answer)
  | .request input => some ((server.request input).map Prod.fst)
  | .engine _ _ => none

/-- What the callers are told along a run. -/
def responses (server : KVServer) (events : List StoreEvent) : List (Except GoError Answer) :=
  (outputs handleEvent response server events).reduceOption

variable {server : KVServer}

/-- A request leaves the records of the other engines. -/
theorem internal_request (input : ServiceInput) :
    SecretRepository.AlikeOn InternalPath (server.handleEvent (.request input)).secrets
      server.secrets := by
  intro path internal
  cases served : server.request input with
  | error err =>
    simp only [handleEvent, served]
    exact fun _ => rfl
  | ok result =>
    obtain ⟨stored, -, done⟩ := bind_eq_ok served
    simp only [handleEvent, served]
    exact serve_elsewhere done fun accepted => absurd accepted internal.rejected

/-- A request answers alike whatever the other engines have stored. -/
theorem request_agree {other : SecretRepository}
    (alike : SecretRepository.AlikeOn (fun path => ¬ InternalPath path) server.secrets other)
    (input : ServiceInput) :
    Agree (AnswersAlike fun path => ¬ InternalPath path) (server.request input)
      (({ server with secrets := other } : KVServer).request input) := by
  refine (Agree.of_eq (rfl : server.scopePath input.tenant input.input.call.path =
    ({ server with secrets := other } : KVServer).scopePath input.tenant
      input.input.call.path)).bind ?_
  rintro path _ rfl
  exact @serve_agree (server.meeting input.input) other _ alike (input.input.call.withPath path)
    fun _ accepted _ internal => internal.rejected accepted

theorem engine_apart {input : SecretRepository.VersionInput}
    (internal : InternalPath input.call.path) :
    SecretRepository.AlikeOn (fun path => ¬ InternalPath path)
      (SecretRepository.step server.secrets input) server.secrets := by
  intro path outside
  refine SecretRepository.find_step_elsewhere ?_
  rintro rfl
  exact outside internal

theorem responses_cons (event : StoreEvent) (events : List StoreEvent) :
    server.responses (event :: events) =
      (server.response event).toList ++ (server.handleEvent event).responses events := by
  unfold responses
  rw [outputs]
  cases server.response event <;> rfl

/-- The records of the other engines are those of a run without the requests. -/
theorem internal_run {other : KVServer}
    (alike : SecretRepository.AlikeOn InternalPath server.secrets other.secrets)
    (events : List StoreEvent) :
    SecretRepository.AlikeOn InternalPath (run handleEvent server events).secrets
      (run handleEvent other (events.filter fun event => !event.isRequest)).secrets := by
  induction events generalizing server other with
  | nil => exact alike
  | cons event events ih =>
    cases event with
    | request input =>
      refine ih fun path internal number => ?_
      rw [internal_request input path internal number]
      exact alike path internal number
    | engine input internal =>
      exact ih (SecretRepository.step_agree alike internal)

/-- The answers are those of a run without the other engines. -/
theorem responses_run {other : SecretRepository}
    (alike : SecretRepository.AlikeOn (fun path => ¬ InternalPath path) server.secrets other)
    (events : List StoreEvent) :
    server.responses events =
      ({ server with secrets := other } : KVServer).responses
        (events.filter StoreEvent.isRequest) := by
  induction events generalizing server other with
  | nil => rfl
  | cons event events ih =>
    cases event with
    | request input =>
      rw [List.filter_cons_of_pos (by rfl), responses_cons, responses_cons]
      obtain ⟨err, failed, failed'⟩ |
        ⟨⟨answer, later⟩, ⟨_, later'⟩, served, served', rfl, alike'⟩ :=
          (request_agree alike input).cases
      · simp only [response, handleEvent, failed, failed']
        rw [ih alike]
      · simp only [response, handleEvent, served, served']
        rw [@ih { server with secrets := later } later' alike']
        rfl
    | engine input internal =>
      rw [List.filter_cons_of_neg (by simp [StoreEvent.isRequest]), responses_cons]
      refine @ih { server with secrets := SecretRepository.step server.secrets input } other ?_
      intro path outside number
      rw [engine_apart internal path outside number]
      exact alike path outside number

/-- Only accepted paths are listed. -/
theorem paths_of_serve {call : KVCall} {paths : List String} {later : SecretRepository}
    (served : server.serve call = .ok (.paths paths, later)) :
    ∀ path ∈ paths, rejectReservedKVPath server.lib path = .ok () := by
  cases call with
  | listPaths start =>
    obtain ⟨listed, made, same⟩ := bind_eq_ok served
    cases same
    obtain ⟨_, -, made⟩ := bind_eq_ok made
    cases made
    intro path member
    have kept := (List.mem_filter.mp (List.mem_eraseDups.mp member)).2
    revert kept
    cases rejectReservedKVPath server.lib path with
    | error err => exact fun failed => by cases failed
    | ok _ => exact fun _ => rfl
  | put _ _ _ =>
    obtain ⟨_, -, served⟩ := bind_eq_ok served
    obtain ⟨_, -, served⟩ := bind_eq_ok served
    cases served
  | getMetadata _ _ | listVersions _ | getVersion _ _ | destroyVersion _ _ | delete _ =>
    obtain ⟨_, -, served⟩ := bind_eq_ok served
    cases served

theorem paths_run {paths : List String} (events : List StoreEvent)
    (listed : .ok (.paths paths) ∈ server.responses events) :
    ∀ path ∈ paths, ¬ InternalPath path := by
  induction events generalizing server with
  | nil => cases listed
  | cons event events ih =>
    rw [responses_cons, List.mem_append, Option.mem_toList] at listed
    rcases listed with here | later
    · cases event with
      | engine input internal => cases here
      | request input =>
        obtain ⟨⟨_, later⟩, served, rfl⟩ := map_eq_ok (Option.some.inj here)
        obtain ⟨stored, -, served⟩ := bind_eq_ok served
        exact fun path member internal => internal.rejected (paths_of_serve served path member)
    · exact ih later

/-- However requests of any tenant, with any path or prefix, are mixed with the writes of
the other engines: the records of those engines are as if no request had been made, the
requests are answered as if those records did not exist, and none of their paths is
listed. -/
theorem internal_records_unreachable (server : KVServer) (events : List StoreEvent) :
    SecretRepository.AlikeOn InternalPath (run handleEvent server events).secrets
      (run handleEvent server (events.filter fun event => !event.isRequest)).secrets ∧
    (∀ other, SecretRepository.AlikeOn (fun path => ¬ InternalPath path) server.secrets other →
      server.responses events =
        ({ server with secrets := other } : KVServer).responses
          (events.filter StoreEvent.isRequest)) ∧
    ∀ paths, .ok (.paths paths) ∈ server.responses events →
      ∀ path ∈ paths, ¬ InternalPath path :=
  ⟨internal_run (.refl server.secrets) events, fun _ alike => responses_run alike events,
    fun _ listed => paths_run events listed⟩

end KVServer

end Api

end KnxVault
