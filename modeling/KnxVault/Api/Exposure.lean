import KnxVault.Api.Signing
import KnxVault.Std.Run

/-!
# Reports of exposed secrets

Signed reports are let through once: a report that has passed leaves a mark, in a map of the
process, in the memory store of the node or in the shared cache. A report is acceptable from five
minutes before its timestamp to five minutes after it; a mark is kept for five minutes. What a
request finds is told by the earlier requests: where they looked, and how long ago.
-/

namespace KnxVault.Api.Exposure

open KnxVault.Std KnxVault.Domain

/-! ### Verification -/

/-- What is sent: the two headers, and the body if it can be read. -/
structure Report where
  timestamp : Bytes
  signature : Bytes
  body : Option Bytes
deriving DecidableEq

/-- Where a node keeps its marks: in the map of the process, in a `MemoryStore`, or in a
`ValkeyStore`. -/
inductive ReplayStore where
  | processLocal
  | memory
  | valkey
deriving DecidableEq

structure ExposureSigning (Node : Type) where
  /-- HMAC-SHA-256 of a key and a message. -/
  hmac : Bytes → Bytes → Bytes
  key : Bytes
  replay : Node → ReplayStore

def maxExposureSkew : Int := 5 * 60 * nanosecondsPerSecond

/-- The constructor sets it. -/
def seenTTL : Int := 5 * 60 * nanosecondsPerSecond

def exposureReplayKeyPrefix : Bytes := ascii "knxvault:exposure:replay:"

section Verification

variable {Node : Type} (signing : ExposureSigning Node)

def signExposurePayload (timestamp body : Bytes) : Bytes :=
  encodeToString (signing.hmac signing.key (timestamp ++ 0x0a :: body))

/-- What the middleware checks before it looks for a mark; the result is the replay key. -/
def verify (now : Time) (report : Report) : Except String Bytes :=
  if signing.key = [] then .error "exposure signing not configured"
  else if report.signature = [] then .error "exposure signature required"
  else if report.timestamp = [] then .error "exposure timestamp required"
  else
    match parseInt report.timestamp with
    | none => .error "invalid exposure timestamp"
    | some tsUnix =>
      let d := now.instant - (unix tsUnix).instant
      if maxExposureSkew < d ∨ d < -maxExposureSkew then
        .error "exposure timestamp outside allowed skew"
      else
        match report.body with
        | none => .error "read body failed"
        | some body =>
          if report.signature ≠ signExposurePayload signing report.timestamp body then
            .error "invalid exposure signature"
          else .ok (report.timestamp ++ ascii ":" ++ report.signature)

end Verification

/-! ### Marks -/

/-- A counter in a cache. -/
structure Mark where
  count : Nat
  counted : 0 < count
  /-- A counter of the shared cache does not expire before the command that says when. -/
  expires : Option Time
deriving DecidableEq

abbrev Marks := Bytes → Option Mark

/-- What a memory store has at a time. -/
def inMemory (items : Marks) (now : Time) (key : Bytes) : Option Mark :=
  (items key).filter fun mark => mark.expires.any now.before

/-- `MemoryStore.Incr`; every increment sets the time of expiry anew. -/
def incrMemory (items : Marks) (now : Time) (key : Bytes) : Nat × Marks :=
  let n := (inMemory items now key).elim 0 Mark.count
  (n + 1, Function.update items key (some ⟨n + 1, n.succ_pos, some (now.add seenTTL)⟩))

/-- What the shared cache has at a time of its clock. -/
def inCache (items : Marks) (clock : Time) (key : Bytes) : Option Mark :=
  (items key).filter fun mark => !mark.expires.any clock.after

/-- The command `INCR`, which keeps the time of expiry. -/
def incrCache (items : Marks) (clock : Time) (key : Bytes) : Nat × Marks :=
  match inCache items clock key with
  | none => (1, Function.update items key (some ⟨1, Nat.one_pos, none⟩))
  | some mark =>
    (mark.count + 1, Function.update items key (some ⟨mark.count + 1, mark.count.succ_pos,
      mark.expires⟩))

/-- The command `EXPIRE`; a counter that has run out is deleted on access. -/
def expireCache (items : Marks) (clock : Time) (key : Bytes) : Marks :=
  Function.update items key ((inCache items clock key).map fun mark =>
    { mark with expires := some (clock.add seenTTL) })

/-! ### The middleware -/

structure ReplayStores (Node : Type) where
  seen : Node → Bytes → Option Time := fun _ _ => none
  memory : Node → Marks := fun _ _ => none
  cache : Marks := fun _ => none

/-- Where a request looks for a mark. -/
inductive Place (Node : Type) where
  | process (node : Node)
  | memory (node : Node)
  | cache
deriving DecidableEq

/-- What was done to the marks of a key: a request looked, at a reading of the clock there, and was
let through or not; or the shared cache was told to let its counter expire. -/
inductive Entry (Node : Type) where
  | look (place : Place Node) (key : Bytes) (time : Time) (passed : Bool)
  | expire (key : Bytes) (clock : Time)

structure ReplayState (Node : Type) extends ReplayStores Node where
  /-- The last reading of the monotonic clock of a node. -/
  clock : Node → Time := fun _ => {}
  /-- The reports that were let through, in this order. -/
  passed : List Report := []
  /-- What was done to the marks, the latest first. -/
  log : List (Entry Node) := []

/-- What happens at the nodes and at the shared cache. A node checks a report by the wall clock and
marks it by its monotonic clock, some nanoseconds after its last reading; `server` is the clock of
the shared cache if it answers. An `INCR` whose answer is lost, and the `EXPIRE` after an `INCR`,
take effect at any later time or never. -/
inductive ReplayEvent (Node : Type) where
  | request (node : Node) (report : Report) (arrival : Time) (elapsed : Nat) (server : Option Time)
  | unansweredIncr (report : Report) (clock : Time)
  | expire (report : Report) (clock : Time)

section Middleware

variable {Node : Type} [DecidableEq Node] (signing : ExposureSigning Node)

def replayKey (report : Report) : Bytes := report.timestamp ++ ascii ":" ++ report.signature

/-- The marks of the process that are not too old. -/
def purge (seen : Bytes → Option Time) (now : Time) (key : Bytes) : Option Time :=
  (seen key).filter fun time => ¬ seenTTL < now.instant - time.instant

/-- `CacheExposureReplayStore.MarkSeen` on the memory store of a node. -/
def markInMemory (stores : ReplayStores Node) (node : Node) (key : Bytes) (now : Time) :
    Bool × ReplayStores Node :=
  let (n, items) := incrMemory (stores.memory node) now (exposureReplayKeyPrefix ++ key)
  (n = 1, { stores with memory := Function.update stores.memory node items })

def markSeen (stores : ReplayStores Node) (node : Node) (key : Bytes) (now : Time)
    (server : Option Time) : Bool × ReplayStores Node :=
  match signing.replay node, server with
  | .processLocal, _ =>
    let kept := purge (stores.seen node) now
    if (kept key).isSome then (false, { stores with seen := Function.update stores.seen node kept })
    else
      (true, { stores with
        seen := Function.update stores.seen node (Function.update kept key (some now)) })
  | .valkey, some clock =>
    let (n, cache) := incrCache stores.cache clock (exposureReplayKeyPrefix ++ key)
    (n = 1, { stores with cache })
  | .memory, _ | .valkey, none => markInMemory stores node key now

def middleware (stores : ReplayStores Node) (node : Node) (report : Report) (arrival marking : Time)
    (server : Option Time) : Except String Unit × ReplayStores Node :=
  match verify signing arrival report with
  | .error message => (.error message, stores)
  | .ok key =>
    let (unseen, stores) := markSeen signing stores node key marking server
    if unseen then (.ok (), stores) else (.error "exposure report replay detected", stores)

/-- The place that a request looks at, and the time there. -/
def looksAt (node : Node) (now : Time) (server : Option Time) : Place Node × Time :=
  match signing.replay node, server with
  | .processLocal, _ => (.process node, now)
  | .valkey, some clock => (.cache, clock)
  | .memory, _ | .valkey, none => (.memory node, now)

def step (state : ReplayState Node) : ReplayEvent Node → ReplayState Node
  | .request node report arrival elapsed server =>
    let now := (state.clock node).add elapsed
    let (result, stores) := middleware signing state.toReplayStores node report arrival now server
    if (verify signing arrival report).isOk then
      { toReplayStores := stores
        clock := Function.update state.clock node now
        passed := if result.isOk then state.passed ++ [report] else state.passed
        log := .look (looksAt signing node now server).1 (replayKey report)
          (looksAt signing node now server).2 result.isOk :: state.log }
    else state
  | .unansweredIncr report clock =>
    { state with
      cache := (incrCache state.cache clock (exposureReplayKeyPrefix ++ replayKey report)).2
      log := .look .cache (replayKey report) clock false :: state.log }
  | .expire report clock =>
    { state with
      cache := expireCache state.cache clock (exposureReplayKeyPrefix ++ replayKey report)
      log := .expire (replayKey report) clock :: state.log }

/-! ### How long marks last -/

/-- The shared cache has a counter for the key at a time of its clock. An `INCR` makes one that
lasts, or leaves the one that is there; an `EXPIRE` lets one that is there last five minutes. -/
def Counted (key : Bytes) : List (Entry Node) → Time → Prop
  | [], _ => False
  | .look .cache other time _ :: earlier, clock =>
    if other = key then Counted key earlier time → Counted key earlier clock
    else Counted key earlier clock
  | .expire other time :: earlier, clock =>
    if other = key then Counted key earlier time ∧ ¬ clock.after (time.add seenTTL)
    else Counted key earlier clock
  | .look .. :: earlier, clock => Counted key earlier clock

/-- A mark stands at the place: in a process, the key has passed there no more than five minutes
ago; in a memory store, it was looked for there less than five minutes ago. -/
def Marked (log : List (Entry Node)) (key : Bytes) : Place Node × Time → Prop
  | (.process node, now) => ∃ time, .look (.process node) key time true ∈ log ∧
    now.instant - time.instant ≤ seenTTL
  | (.memory node, now) => ∃ time passed, .look (.memory node) key time passed ∈ log ∧
    now.before (time.add seenTTL)
  | (.cache, clock) => Counted key log clock

/-- What the stores have at the place. -/
def ReplayStores.marked (stores : ReplayStores Node) (key : Bytes) : Place Node × Time → Bool
  | (.process node, now) => (purge (stores.seen node) now key).isSome
  | (.memory node, now) =>
    (inMemory (stores.memory node) now (exposureReplayKeyPrefix ++ key)).isSome
  | (.cache, clock) => (inCache stores.cache clock (exposureReplayKeyPrefix ++ key)).isSome

variable {signing} {items : Marks} {now : Time} {key : Bytes}

theorem incrMemory_eq_one_iff :
    (incrMemory items now key).1 = 1 ↔ inMemory items now key = none := by
  unfold incrMemory
  cases inMemory items now key with
  | none => simp
  | some mark => simpa using mark.counted.ne'

variable {clock : Time}

theorem incrCache_eq_one_iff :
    (incrCache items clock key).1 = 1 ↔ inCache items clock key = none := by
  unfold incrCache
  cases inCache items clock key with
  | none => simp
  | some mark => simpa using mark.counted.ne'

/-- A report is let through just where no mark stands. -/
theorem markSeen_iff (stores : ReplayStores Node) (node : Node) (key : Bytes) (now : Time)
    (server : Option Time) :
    (markSeen signing stores node key now server).1 = true ↔
      stores.marked key (looksAt signing node now server) = false := by
  unfold markSeen looksAt ReplayStores.marked
  cases signing.replay node with
  | processLocal =>
    dsimp only
    split
    · rename_i marked
      simp [marked]
    · rename_i unmarked
      simpa using unmarked
  | memory => simp [markInMemory, incrMemory_eq_one_iff]
  | valkey =>
    cases server with
    | none => simp [markInMemory, incrMemory_eq_one_iff]
    | some clock => simp [incrCache_eq_one_iff]

omit [DecidableEq Node] in
theorem verify_key {report : Report} (verified : verify signing now report = .ok key) :
    key = replayKey report := by
  unfold verify at verified
  iterate 3
    split at verified
    · cases verified
  cases parsed : parseInt report.timestamp with
  | none =>
    rw [parsed] at verified
    cases verified
  | some tsUnix =>
    simp only [parsed] at verified
    split at verified
    · cases verified
    cases read : report.body with
    | none =>
      rw [read] at verified
      cases verified
    | some body =>
      simp only [read] at verified
      split at verified
      · cases verified
      · exact (Except.ok.inj verified).symm

omit [DecidableEq Node] in
theorem isSome_purge {seen : Bytes → Option Time} :
    (purge seen now key).isSome = true ↔
      ∃ time, seen key = some time ∧ now.instant - time.instant ≤ seenTTL := by
  cases found : seen key with
  | none => simp [purge, found]
  | some time => simp [purge, found, Option.filter]

variable {time : Time} {other : Bytes}

/-- A look into the map of a process keeps the marks that are not too old, and adds one if there
was none. -/
theorem isSome_purge_mark {seen : Bytes → Option Time} (later : time.instant ≤ now.instant) :
    (purge (if (purge seen time key).isSome then purge seen time
        else Function.update (purge seen time) key (some time)) now other).isSome = true ↔
      (purge seen now other).isSome = true ∨ key = other ∧
        (purge seen time key).isSome = false ∧ now.instant - time.instant ≤ seenTTL := by
  have older {key : Bytes} (young : (purge seen now key).isSome = true) :
      (purge seen time key).isSome = true := by
    obtain ⟨set, stored, young⟩ := isSome_purge.mp young
    exact isSome_purge.mpr ⟨set, stored, by omega⟩
  have again : (purge (purge seen time) now other).isSome = true ↔
      (purge seen now other).isSome = true := by
    refine ⟨fun both => ?_, fun young => ?_⟩
    · obtain ⟨set, stored, young⟩ := isSome_purge.mp both
      exact isSome_purge.mpr ⟨set, (Option.filter_eq_some_iff.mp stored).1, young⟩
    · obtain ⟨set, kept⟩ := Option.isSome_iff_exists.mp (older young)
      obtain ⟨_, stored, young⟩ := isSome_purge.mp young
      cases (Option.filter_eq_some_iff.mp kept).1.symm.trans stored
      exact isSome_purge.mpr ⟨set, kept, young⟩
  split
  · rename_i found
    simp [again, found]
  · rename_i unmarked
    by_cases same : key = other
    · subst same
      rw [isSome_purge, Function.update_self]
      simp only [Option.some.injEq, exists_eq_left', true_and]
      refine ⟨fun young => .inr ⟨by simpa using unmarked, young⟩, fun either => ?_⟩
      exact either.elim (fun young => absurd (older young) unmarked) And.right
    · rw [isSome_purge, Function.update_of_ne (Ne.symm same), ← isSome_purge, again]
      simp [same]

theorem isSome_inMemory_incr :
    (inMemory (incrMemory items time key).2 now other).isSome = true ↔
      if key = other then now.before (time.add seenTTL) = true
      else (inMemory items now other).isSome = true := by
  by_cases same : key = other
  · subst same
    simp [inMemory, incrMemory, Option.filter]
  · simp [inMemory, incrMemory, Function.update_of_ne (Ne.symm same), if_neg same]

theorem isSome_inCache_incr :
    (inCache (incrCache items time key).2 clock other).isSome = true ↔
      if key = other then (inCache items time other).isSome = true →
        (inCache items clock other).isSome = true
      else (inCache items clock other).isSome = true := by
  by_cases same : key = other
  · subst same
    rw [if_pos rfl]
    unfold incrCache
    cases found : inCache items time key with
    | none => simp [inCache]
    | some mark =>
      obtain ⟨stored, -⟩ := Option.filter_eq_some_iff.mp found
      simp [inCache, stored]
  · rw [if_neg same]
    unfold incrCache
    split <;> simp [inCache, Function.update_of_ne (Ne.symm same)]

theorem isSome_inCache_expire :
    (inCache (expireCache items time key) clock other).isSome = true ↔
      if key = other then (inCache items time other).isSome = true ∧
        ¬ clock.after (time.add seenTTL) = true
      else (inCache items clock other).isSome = true := by
  by_cases same : key = other
  · subst same
    rw [if_pos rfl, expireCache, inCache, Function.update_self]
    cases inCache items time key <;> simp [Option.filter]
  · simp [inCache, expireCache, Function.update_of_ne (Ne.symm same), if_neg same]

/-- The time is not before the last reading of the clock at the place. -/
def Current (clock : Node → Time) (now : Time) : Place Node → Prop
  | .process node | .memory node => (clock node).instant ≤ now.instant
  | .cache => True

/-- The log tells what the stores have from the last reading of a clock on. -/
structure Told (state : ReplayState Node) : Prop where
  marked : ∀ place key now, Current state.clock now place →
    (state.marked key (place, now) = true ↔ Marked state.log key (place, now))
  past : ∀ node key time passed, .look (.memory node) key time passed ∈ state.log →
    time.instant ≤ (state.clock node).instant

omit [DecidableEq Node] in
theorem told_initial : Told ({} : ReplayState Node) where
  marked place _ _ _ := by
    cases place <;> simp [ReplayStores.marked, purge, inMemory, inCache, Marked, Counted]
  past _ _ _ _ listed := by simp at listed

/-- The state after a look at the clock of a node. -/
def ReplayState.looked (state : ReplayState Node) (node : Node) (time : Time) (report : Report)
    (look : Place Node × Time) (marking : Bool × ReplayStores Node) : ReplayState Node where
  toReplayStores := marking.2
  clock := Function.update state.clock node time
  passed := if marking.1 then state.passed ++ [report] else state.passed
  log := .look look.1 (replayKey report) look.2 marking.1 :: state.log

variable {state : ReplayState Node} {node : Node}

/-- What a request of an acceptable report does. -/
theorem step_request {report : Report} {arrival : Time} {elapsed : Nat} {server : Option Time}
    (acceptable : (verify signing arrival report).isOk = true) :
    let now := (state.clock node).add elapsed
    step signing state (.request node report arrival elapsed server) =
      state.looked node now report (looksAt signing node now server)
        (markSeen signing state.toReplayStores node (replayKey report) now server) := by
  obtain ⟨key, verified⟩ := isOk_iff.mp acceptable
  obtain rfl := verify_key verified
  simp only [step, middleware, verified]
  generalize markSeen signing state.toReplayStores node (replayKey report) _ server = marking
  obtain ⟨unseen, stores⟩ := marking
  cases unseen <;> rfl

/-- A look changes the marks at one place only. -/
theorem Told.look {later : ReplayState Node} {place : Place Node} {passed : Bool}
    (told : Told state) (log : later.log = .look place key time passed :: state.log)
    (clocks : ∀ node, (state.clock node).instant ≤ (later.clock node).instant)
    (read : ∀ node, place = .memory node → time.instant ≤ (later.clock node).instant)
    (elsewhere : ∀ other, other ≠ place → ∀ key now,
      later.marked key (other, now) = state.marked key (other, now))
    (here : ∀ key now, Current later.clock now place →
      (later.marked key (place, now) = true ↔ Marked later.log key (place, now))) :
    Told later where
  marked other key' now after := by
    by_cases same : other = place
    · exact same ▸ here key' now (same ▸ after)
    · have before : Current state.clock now other := by
        cases other with
        | process node | memory node => exact (clocks node).trans after
        | cache => trivial
      rw [elsewhere other same, told.marked other key' now before, log]
      cases other <;> cases place <;> simp_all [Marked, Counted]
  past node key' time' passed' listed := by
    rw [log, List.mem_cons] at listed
    obtain head | listed := listed
    · cases head
      exact read node rfl
    · exact (told.past node key' time' passed' listed).trans (clocks node)

theorem update_clock_le {clock : Node → Time} (reading : (clock node).instant ≤ time.instant)
    (other : Node) :
    (clock other).instant ≤ (Function.update clock node time other).instant := by
  by_cases same : other = node
  · subst same
    simpa using reading
  · simp [Function.update_of_ne same]

theorem told_memory (told : Told state) (reading : (state.clock node).instant ≤ time.instant)
    (report : Report) :
    Told (state.looked node time report (.memory node, time)
      (markInMemory state.toReplayStores node (replayKey report) time)) := by
  refine told.look rfl (update_clock_le reading) (fun other same => ?_)
    (fun other apart key now => ?_) fun key now after => ?_
  · cases same
    simp [ReplayState.looked]
  · cases other with
    | process other => rfl
    | memory other =>
      have differ : other ≠ node := fun same => apart (congrArg Place.memory same)
      simp [ReplayState.looked, markInMemory, ReplayStores.marked, Function.update_of_ne differ]
    | cache => rfl
  · simp only [ReplayState.looked, Current, Function.update_self] at after
    have before := told.marked (.memory node) key now (reading.trans after)
    simp only [ReplayStores.marked, Marked] at before
    simp only [ReplayState.looked, markInMemory, ReplayStores.marked, Marked, Function.update_self,
      isSome_inMemory_incr, List.append_cancel_left_eq, before]
    by_cases same : replayKey report = key
    · subst same
      rw [if_pos rfl]
      refine ⟨fun young => ⟨time, _, List.mem_cons_self, young⟩, ?_⟩
      rintro ⟨earlier, passed, listed, young⟩
      obtain head | listed := List.mem_cons.mp listed
      · cases head
        exact young
      -- every look starts the five minutes anew
      · have before := (told.past _ _ _ _ listed).trans reading
        have young : now.instant < earlier.instant + seenTTL := of_decide_eq_true young
        exact decide_eq_true (show now.instant < time.instant + seenTTL by omega)
    · simp [if_neg same, Ne.symm same]

theorem told_request (told : Told state) (node : Node) (report : Report) (arrival : Time)
    (elapsed : Nat) (server : Option Time)
    (acceptable : (verify signing arrival report).isOk = true) :
    Told (step signing state (.request node report arrival elapsed server)) := by
  rw [step_request acceptable]
  have reading : (state.clock node).instant ≤ ((state.clock node).add elapsed).instant := by
    simp [Time.add]
  generalize (state.clock node).add elapsed = time at reading
  cases kind : signing.replay node with
  | processLocal =>
    have marks : markSeen signing state.toReplayStores node (replayKey report) time server =
        (!(purge (state.seen node) time (replayKey report)).isSome, { state.toReplayStores with
          seen := Function.update state.seen node
            (if (purge (state.seen node) time (replayKey report)).isSome
              then purge (state.seen node) time
              else Function.update (purge (state.seen node) time) (replayKey report)
                (some time)) }) := by
      simp only [markSeen, kind]
      split <;> simp_all
    simp only [marks, looksAt, kind]
    refine told.look rfl (update_clock_le reading) (fun other same => nomatch same)
      (fun other apart key now => ?_)
      fun key now after => ?_
    · cases other with
      | process other =>
        have differ : other ≠ node := fun same => apart (congrArg Place.process same)
        simp [ReplayState.looked, ReplayStores.marked, Function.update_of_ne differ]
      | memory other => rfl
      | cache => rfl
    · simp only [ReplayState.looked, Current, Function.update_self] at after
      have before := told.marked (.process node) key now (reading.trans after)
      simp only [ReplayStores.marked, Marked] at before
      simp only [ReplayState.looked, ReplayStores.marked, Marked, Function.update_self,
        isSome_purge_mark after, before]
      constructor
      · rintro (⟨set, listed, young⟩ | ⟨rfl, unmarked, young⟩)
        · exact ⟨set, List.mem_cons_of_mem _ listed, young⟩
        · exact ⟨time, by simp [unmarked], young⟩
      · rintro ⟨set, listed, young⟩
        obtain head | listed := List.mem_cons.mp listed
        · simp only [Entry.look.injEq] at head
          obtain ⟨-, rfl, rfl, unmarked⟩ := head
          exact .inr ⟨rfl, by simpa using unmarked.symm, young⟩
        · exact .inl ⟨set, listed, young⟩
  | memory =>
    simp only [markSeen, looksAt, kind]
    exact told_memory told reading report
  | valkey =>
    cases server with
    | none =>
      simp only [markSeen, looksAt, kind]
      exact told_memory told reading report
    | some clock =>
      simp only [markSeen, looksAt, kind]
      refine told.look rfl (update_clock_le reading) (fun other same => nomatch same)
        (fun other apart key now => ?_)
        fun key now _ => ?_
      · cases other <;> first | rfl | exact absurd rfl apart
      · have before := fun now => told.marked .cache key now trivial
        simp only [ReplayStores.marked, Marked] at before
        simp only [ReplayState.looked, ReplayStores.marked, Marked, Counted, isSome_inCache_incr,
          List.append_cancel_left_eq, before]

theorem told_step (told : Told state) (event : ReplayEvent Node) :
    Told (step signing state event) := by
  cases event with
  | unansweredIncr report clock =>
    refine told.look rfl (fun _ => le_rfl) (fun _ same => nomatch same)
      (fun other apart key now => ?_)
      fun key now _ => ?_
    · cases other <;> first | rfl | exact absurd rfl apart
    · have before := fun now => told.marked .cache key now trivial
      simp only [ReplayStores.marked, Marked] at before
      simp only [step, ReplayStores.marked, Marked, Counted, isSome_inCache_incr,
        List.append_cancel_left_eq, before]
  | expire report clock =>
    refine ⟨fun place key now later => ?_, fun node key time passed listed =>
      told.past node key time passed (by simpa [step] using listed)⟩
    have before := told.marked place key
    cases place with
    | process node | memory node =>
      simpa [step, ReplayStores.marked, Marked] using before now later
    | cache =>
      simp only [ReplayStores.marked, Marked, Current, true_imp_iff] at before
      simp only [step, ReplayStores.marked, Marked, Counted, isSome_inCache_expire,
        List.append_cancel_left_eq, before]
  | request node report arrival elapsed server =>
    by_cases acceptable : (verify signing arrival report).isOk = true
    · exact told_request told node report arrival elapsed server acceptable
    · simpa [step, acceptable] using told

/-! ### Once -/

/-- The request of a report that is acceptable and has passed before comes soon enough after the
earlier requests at the place that it looks at. -/
def Meets (signing : ExposureSigning Node) (state : ReplayState Node) : ReplayEvent Node → Prop
  | .request node report arrival elapsed server => report ∈ state.passed →
      (verify signing arrival report).isOk = true → Marked state.log (replayKey report)
        (looksAt signing node ((state.clock node).add elapsed) server)
  | .unansweredIncr .. | .expire .. => True

/-- From reports that have passed once, an event leads to such just if it comes in time. -/
theorem step_nodup_iff (told : Told state) (once : state.passed.Nodup) (event : ReplayEvent Node) :
    (step signing state event).passed.Nodup ↔ Meets signing state event := by
  cases event with
  | unansweredIncr report clock => exact iff_of_true once trivial
  | expire report clock => exact iff_of_true once trivial
  | request node report arrival elapsed server =>
    by_cases acceptable : (verify signing arrival report).isOk = true
    · have current : Current state.clock
          (looksAt signing node ((state.clock node).add elapsed) server).2
          (looksAt signing node ((state.clock node).add elapsed) server).1 := by
        unfold looksAt
        cases signing.replay node <;> cases server <;> simp [Current, Time.add]
      have found : state.marked (replayKey report)
            (looksAt signing node ((state.clock node).add elapsed) server) = true ↔ _ :=
        told.marked _ (replayKey report) _ current
      have finds := @markSeen_iff _ _ signing state.toReplayStores node (replayKey report)
        ((state.clock node).add elapsed) server
      rw [← Bool.not_eq_true, found] at finds
      rw [step_request acceptable, ReplayState.looked]
      dsimp only
      split
      · rename_i unseen
        rw [← List.concat_eq_append, List.nodup_concat, and_iff_left once]
        exact ⟨fun fresh again => absurd again fresh,
          fun meets again => finds.mp unseen (meets again acceptable)⟩
      · rename_i seen
        exact iff_of_true once fun _ _ => not_not.mp (mt finds.mpr seen)
    · refine iff_of_true ?_ fun _ passes => absurd passes acceptable
      simpa [step, acceptable] using once

end Middleware

/-! ### A report that passes twice -/

def sampleSigning (replay : ReplayStore) : ExposureSigning Bool where
  hmac _ message := message
  key := ascii "key"
  replay _ := replay

/-- A report that is stamped 1000 seconds after the epoch. -/
def sampleReport : Report where
  timestamp := ascii "1000"
  signature := signExposurePayload (sampleSigning .memory) (ascii "1000") []
  body := some []

/-- The report arrives at a node at a second, some seconds after the last report; the shared cache
may answer. -/
def sampleRequest (node : Bool) (second : Int) (elapsed : Nat) (reached : Bool) :
    ReplayEvent Bool :=
  .request node sampleReport (unix second) (elapsed * 1000000000)
    (if reached then some (unix second) else none)

end KnxVault.Api.Exposure
