import KnxVault.Domain.Common
import KnxVault.Std.Run

/-!
# Lockout

The tracker of failed logins: one map counts the failures of a key, another says until when a key
is locked. Locks expire lazily, and when too many keys are counted some counters are dropped. For
each key the tracker is to be a counter of its own.
-/

namespace KnxVault.Auth

open KnxVault.Std KnxVault.Domain

/-! ### The tracker -/

structure LockoutTracker where
  attempts : Std.ExtTreeMap String Int := ∅
  locked : Std.ExtTreeMap String Time := ∅
  threshold : Int
  ttl : Int
  maxEntries : Int

namespace LockoutTracker

def new (threshold ttl : Int) : LockoutTracker where
  threshold := if threshold ≤ 0 then 5 else threshold
  ttl := if ttl ≤ 0 then 15 * 60 * nanosecondsPerSecond else ttl
  maxEntries := 50000

def isLocked (t : LockoutTracker) (key : String) (now : Time) : Bool × LockoutTracker :=
  match t.locked[key]? with
  | none => (false, t)
  | some expiry =>
    if now.after expiry then
      (false, { t with locked := t.locked.erase key, attempts := t.attempts.erase key })
    else (true, t)

def purgeExpiredLocked (t : LockoutTracker) (now : Time) : LockoutTracker :=
  { t with
    locked := t.locked.filter fun _ expiry => !now.after expiry
    attempts := t.attempts.filter fun key _ => !t.locked[key]?.any now.after }

/-- The loop of `evictAttemptsLocked`, which stops once few enough keys are left. -/
def evict (t : LockoutTracker) : List String → Std.ExtTreeMap String Int → Std.ExtTreeMap String Int
  | [], attempts => attempts
  | key :: keys, attempts =>
    if (t.locked[key]?).isSome then t.evict keys attempts
    else
      let attempts := attempts.erase key
      if attempts.size < t.maxEntries / 2 then attempts else t.evict keys attempts

def evictAttemptsLocked (t : LockoutTracker) (range : MapRange) : LockoutTracker :=
  { t with attempts := t.evict (range.order t.attempts.keys) t.attempts }

/-- Before a new key is counted, others are dropped if there are too many. -/
def makeRoom (t : LockoutTracker) (key : String) (range : MapRange) : LockoutTracker :=
  if t.attempts[key]? = none ∧ 0 < t.maxEntries ∧ t.maxEntries ≤ t.attempts.size then
    t.evictAttemptsLocked range
  else t

/-- The clock is read twice: for the purge and for the lock. -/
def recordFailure (t : LockoutTracker) (key : String) (purging locking : Time) (range : MapRange) :
    Bool × LockoutTracker :=
  let t := (t.purgeExpiredLocked purging).makeRoom key range
  let count := (t.attempts[key]?).getD 0 + 1
  let t := { t with attempts := t.attempts.insert key count }
  if t.threshold ≤ count then
    (true, { t with locked := t.locked.insert key (locking.add t.ttl) })
  else (false, t)

def recordSuccess (t : LockoutTracker) (key : String) : LockoutTracker :=
  { t with attempts := t.attempts.erase key, locked := t.locked.erase key }

def clear (t : LockoutTracker) (key : String) : LockoutTracker :=
  { t with attempts := t.attempts.erase key, locked := t.locked.erase key }

end LockoutTracker

/-! ### Runs -/

inductive LockoutEvent where
  | failure (key : String) (purging locking : Time) (range : MapRange)
  | success (key : String)
  | clear (key : String)
  | isLocked (key : String) (now : Time)

namespace LockoutEvent

/-- The readings of the clock. -/
def readings : LockoutEvent → List Int
  | failure _ purging locking _ => [purging.instant, locking.instant]
  | isLocked _ now => [now.instant]
  | success _ | clear _ => []

/-- The clock does not run backwards. -/
def Timely (events : List LockoutEvent) : Prop := (events.flatMap readings).Pairwise (· ≤ ·)

end LockoutEvent

namespace LockoutTracker

def call (t : LockoutTracker) : LockoutEvent → Bool × LockoutTracker
  | .failure key purging locking range => t.recordFailure key purging locking range
  | .success key => (false, t.recordSuccess key)
  | .clear key => (false, t.clear key)
  | .isLocked key now => t.isLocked key now

def answer (t : LockoutTracker) (event : LockoutEvent) : Bool := (t.call event).1

def step (t : LockoutTracker) (event : LockoutEvent) : LockoutTracker := (t.call event).2

/-! ### One key -/

/-- What the tracker has of a key. -/
structure Entry where
  count : Option Int := none
  expiry : Option Time := none

def entry (t : LockoutTracker) (key : String) : Entry := ⟨t.attempts[key]?, t.locked[key]?⟩

/-- An entry whose lock has expired is dropped. -/
def Entry.current (entry : Entry) (now : Time) : Entry :=
  if entry.expiry.any now.after then {} else entry

theorem Entry.current_cases (entry : Entry) (now : Time) :
    entry.current now = entry ∨ ∃ expiry, entry.expiry = some expiry ∧
      expiry.instant < now.instant ∧ entry.current now = {} := by
  unfold current
  cases held : entry.expiry with
  | none => exact .inl rfl
  | some expiry =>
    cases expired : now.after expiry with
    | false => exact .inl (if_neg (by simp [expired]))
    | true =>
      exact .inr ⟨expiry, rfl, of_decide_eq_true expired, if_pos (by simp [expired])⟩

theorem entry_purge (t : LockoutTracker) (key : String) (now : Time) :
    (t.purgeExpiredLocked now).entry key = (t.entry key).current now := by
  unfold entry Entry.current purgeExpiredLocked
  simp only [Std.ExtTreeMap.getElem?_filter']
  cases t.locked[key]? with
  | none => cases t.attempts[key]? <;> simp
  | some expiry =>
    cases expired : now.after expiry <;> cases t.attempts[key]? <;> simp [expired]

theorem getElem?_evict (t : LockoutTracker) (key : String) (keys : List String)
    (attempts : Std.ExtTreeMap String Int) :
    (t.evict keys attempts)[key]? = attempts[key]? ∨
      t.locked[key]? = none ∧ (t.evict keys attempts)[key]? = none := by
  induction keys generalizing attempts with
  | nil => exact .inl rfl
  | cons first keys ih =>
    unfold evict
    by_cases held : (t.locked[first]?).isSome = true
    · rw [if_pos held]
      exact ih attempts
    rw [if_neg held]
    have erased := getElem?_erase attempts first key
    have dropped : (attempts.erase first)[key]? = attempts[key]? ∨
        t.locked[key]? = none ∧ (attempts.erase first)[key]? = none := by
      by_cases same : first = key
      · subst same
        exact .inr ⟨by simpa using held, by rw [erased, if_pos rfl]⟩
      · exact .inl (by rw [erased, if_neg same])
    dsimp only
    split
    · exact dropped
    · obtain kept | gone := ih (attempts.erase first)
      · rwa [kept]
      · exact .inr gone

theorem makeRoom_cases (t : LockoutTracker) (key other : String) (range : MapRange) :
    (t.makeRoom key range).entry other = t.entry other ∨
      (t.entry other).expiry = none ∧ (t.makeRoom key range).entry other = {} := by
  unfold makeRoom
  split
  · obtain kept | ⟨unlocked, gone⟩ :=
      t.getElem?_evict other (range.order t.attempts.keys) t.attempts
    · exact .inl (congrArg (Entry.mk · _) kept)
    · refine .inr ⟨unlocked, ?_⟩
      change Entry.mk _ t.locked[other]? = _
      rw [unlocked]
      exact congrArg (Entry.mk · none) gone
  · exact .inl rfl

/-- The key that is counted has nothing to lose. -/
theorem makeRoom_own (t : LockoutTracker) (key : String) (range : MapRange) :
    (t.makeRoom key range).entry key = t.entry key := by
  obtain kept | ⟨unlocked, gone⟩ := t.makeRoom_cases key key range
  · exact kept
  · unfold makeRoom at gone ⊢
    split at gone
    · rename_i crowded
      rw [if_pos crowded, gone]
      change Entry.mk none none = Entry.mk t.attempts[key]? t.locked[key]?
      rw [crowded.1]
      exact congrArg (Entry.mk none) unlocked.symm
    · rename_i room
      rw [if_neg room]

theorem makeRoom_settings (t : LockoutTracker) (key : String) (range : MapRange) :
    (t.makeRoom key range).threshold = t.threshold ∧ (t.makeRoom key range).ttl = t.ttl ∧
      (t.makeRoom key range).maxEntries = t.maxEntries := by
  unfold makeRoom
  split <;> exact ⟨rfl, rfl, rfl⟩

/-- A failure counts in its own entry, whatever is evicted. -/
theorem recordFailure_own (t : LockoutTracker) (key : String) (purging locking : Time)
    (range : MapRange) {count : Int}
    (counted : ((t.entry key).current purging).count.getD 0 + 1 = count) :
    (t.recordFailure key purging locking range).1 = decide (t.threshold ≤ count) ∧
    (t.recordFailure key purging locking range).2.entry key =
      ⟨some count, if t.threshold ≤ count then some (locking.add t.ttl)
        else ((t.entry key).current purging).expiry⟩ := by
  have same : ((t.purgeExpiredLocked purging).makeRoom key range).entry key =
      (t.entry key).current purging := by rw [makeRoom_own, entry_purge]
  obtain ⟨threshold, ttl, -⟩ := (t.purgeExpiredLocked purging).makeRoom_settings key range
  unfold recordFailure
  generalize (t.purgeExpiredLocked purging).makeRoom key range = room at same threshold ttl ⊢
  change room.threshold = t.threshold at threshold
  change room.ttl = t.ttl at ttl
  rw [← same] at counted ⊢
  change (room.attempts[key]?).getD 0 + 1 = count at counted
  dsimp only
  rw [counted, threshold, ttl]
  split
  · rename_i reached
    exact ⟨(decide_eq_true reached).symm, by simp [entry]⟩
  · rename_i below
    exact ⟨(decide_eq_false below).symm, by simp [entry]⟩

theorem entry_recordFailure_other (t : LockoutTracker) {key other : String} (apart : key ≠ other)
    (purging locking : Time) (range : MapRange) :
    (t.recordFailure key purging locking range).2.entry other =
      ((t.purgeExpiredLocked purging).makeRoom key range).entry other := by
  unfold recordFailure
  dsimp only
  split <;> simp [entry, getElem?_insert, apart]

/-- There are fewer keys than are kept. -/
def Few (t : LockoutTracker) : Prop := t.attempts.size < t.maxEntries

instance (t : LockoutTracker) : Decidable t.Few :=
  inferInstanceAs (Decidable ((t.attempts.size : Int) < t.maxEntries))

theorem makeRoom_of_few {t : LockoutTracker} (few : t.Few) (now : Time) (key : String)
    (range : MapRange) :
    (t.purgeExpiredLocked now).makeRoom key range = t.purgeExpiredLocked now := by
  refine if_neg fun crowded => ?_
  have smaller : (t.purgeExpiredLocked now).attempts.size ≤ t.attempts.size :=
    Std.ExtTreeMap.size_filter_le_size
  have crowd : t.maxEntries ≤ (t.purgeExpiredLocked now).attempts.size := crowded.2.2
  unfold Few at few
  omega

theorem isLocked_fst (t : LockoutTracker) (key : String) (now : Time) :
    (t.isLocked key now).1 = (t.entry key).expiry.any fun expiry => !now.after expiry := by
  unfold isLocked entry
  cases t.locked[key]? with
  | none => rfl
  | some expiry => cases expired : now.after expiry <;> simp [expired]

theorem entry_isLocked (t : LockoutTracker) (key other : String) (now : Time) :
    (t.isLocked key now).2.entry other =
      if key = other then (t.entry other).current now else t.entry other := by
  unfold isLocked
  cases held : t.locked[key]? with
  | none =>
    by_cases same : key = other
    · subst same
      simp [entry, Entry.current, held]
    · rw [if_neg same]
  | some expiry =>
    by_cases same : key = other
    · subst same
      cases expired : now.after expiry <;> simp [entry, Entry.current, held, expired]
    · cases expired : now.after expiry <;> simp [entry, getElem?_erase, same, expired]

theorem entry_forget (t : LockoutTracker) (key other : String) :
    (t.recordSuccess key).entry other = if key = other then {} else t.entry other := by
  unfold recordSuccess entry
  simp only [getElem?_erase]
  split <;> rfl

end LockoutTracker

namespace LockoutEvent

/-- The event counts a failure of the key or forgets it. -/
def changes (key : String) : LockoutEvent → Bool
  | failure other _ _ _ | success other | clear other => other = key
  | isLocked _ _ => false

def isFailure (key : String) : LockoutEvent → Bool
  | failure other _ _ _ => other = key
  | success _ | clear _ | isLocked _ _ => false

end LockoutEvent

namespace LockoutTracker

variable {key : String}

/-- An event that is not about the key leaves its entry, drops it after its lock has expired, or
evicts it when it is not locked and there are too many. -/
theorem quiet_cases (t : LockoutTracker) {event : LockoutEvent}
    (quiet : event.changes key = false) :
    (t.step event).entry key = t.entry key ∨
    (∃ expiry, (t.entry key).expiry = some expiry ∧
      (∃ reading ∈ event.readings, expiry.instant < reading) ∧ (t.step event).entry key = {}) ∨
    (t.entry key).expiry = none ∧ ¬ t.Few ∧ (t.step event).entry key = {} := by
  cases event with
  | failure other purging locking range =>
    have apart : other ≠ key := of_decide_eq_false quiet
    change (t.recordFailure other purging locking range).2.entry key = _ ∨
      (∃ expiry, _ ∧ _ ∧ (t.recordFailure other purging locking range).2.entry key = _) ∨
      _ ∧ _ ∧ (t.recordFailure other purging locking range).2.entry key = _
    rw [entry_recordFailure_other t apart]
    have purged := t.entry_purge key purging
    by_cases few : t.Few
    · rw [makeRoom_of_few few, purged]
      obtain kept | ⟨expiry, held, expired, dropped⟩ := (t.entry key).current_cases purging
      · exact .inl kept
      · exact .inr (.inl ⟨expiry, held, ⟨_, List.mem_cons_self, expired⟩, dropped⟩)
    · obtain same | ⟨unlocked, gone⟩ :=
        (t.purgeExpiredLocked purging).makeRoom_cases other key range
      · rw [same, purged]
        obtain kept | ⟨expiry, held, expired, dropped⟩ := (t.entry key).current_cases purging
        · exact .inl kept
        · exact .inr (.inl ⟨expiry, held, ⟨_, List.mem_cons_self, expired⟩, dropped⟩)
      · rw [gone]
        rw [purged] at unlocked
        obtain kept | ⟨expiry, held, expired, -⟩ := (t.entry key).current_cases purging
        · exact .inr (.inr ⟨kept ▸ unlocked, few, rfl⟩)
        · exact .inr (.inl ⟨expiry, held, ⟨_, List.mem_cons_self, expired⟩, rfl⟩)
  | success other =>
    have apart : other ≠ key := of_decide_eq_false quiet
    exact .inl ((t.entry_forget other key).trans (if_neg apart))
  | clear other =>
    have apart : other ≠ key := of_decide_eq_false quiet
    exact .inl ((t.entry_forget other key).trans (if_neg apart))
  | isLocked other now =>
    change (t.isLocked other now).2.entry key = _ ∨
      (∃ expiry, _ ∧ _ ∧ (t.isLocked other now).2.entry key = _) ∨ _
    rw [entry_isLocked]
    split
    · obtain kept | ⟨expiry, held, expired, dropped⟩ := (t.entry key).current_cases now
      · exact .inl kept
      · exact .inr (.inl ⟨expiry, held, ⟨_, List.mem_cons_self, expired⟩, dropped⟩)
    · exact .inl rfl

theorem step_settings (t : LockoutTracker) (event : LockoutEvent) :
    (t.step event).threshold = t.threshold ∧ (t.step event).ttl = t.ttl := by
  cases event with
  | failure key purging locking range =>
    obtain ⟨threshold, ttl, -⟩ := (t.purgeExpiredLocked purging).makeRoom_settings key range
    change (t.recordFailure key purging locking range).2.threshold = _ ∧
      (t.recordFailure key purging locking range).2.ttl = _
    unfold recordFailure
    dsimp only
    split <;> exact ⟨threshold, ttl⟩
  | success key => exact ⟨rfl, rfl⟩
  | clear key => exact ⟨rfl, rfl⟩
  | isLocked key now =>
    change (t.isLocked key now).2.threshold = _ ∧ (t.isLocked key now).2.ttl = _
    unfold isLocked
    split
    · exact ⟨rfl, rfl⟩
    · split <;> exact ⟨rfl, rfl⟩

/-! ### Well-formed trackers -/

/-- A key is locked just if its count has reached the threshold. -/
structure Sound (threshold : Int) (entry : Entry) : Prop where
  counted : ∀ count, entry.count = some count → 0 < count
  locked : ∀ expiry, entry.expiry = some expiry → ∃ count, entry.count = some count ∧
    threshold ≤ count
  unlocked : entry.expiry = none → ∀ count, entry.count = some count → count < threshold

theorem Sound.empty (threshold : Int) : Sound threshold {} := ⟨nofun, nofun, fun _ => nofun⟩

variable {threshold : Int}

theorem Sound.current {entry : Entry} (sound : Sound threshold entry) (now : Time) :
    Sound threshold (entry.current now) := by
  obtain kept | ⟨_, -, -, dropped⟩ := entry.current_cases now
  · rwa [kept]
  · rw [dropped]
    exact .empty threshold

/-- A key that is locked is over the threshold with the next failure as well. -/
theorem Sound.unlocked_of_below {count : Int} {entry : Entry} (sound : Sound threshold entry)
    (counted : entry.count.getD 0 + 1 = count) (below : count < threshold) :
    entry.expiry = none := by
  cases held : entry.expiry with
  | none => rfl
  | some expiry =>
    obtain ⟨reached, found, locked⟩ := sound.locked expiry held
    rw [found, Option.getD_some] at counted
    omega

theorem sound_step (t : LockoutTracker) (key : String) (event : LockoutEvent)
    (sound : Sound t.threshold (t.entry key)) : Sound t.threshold ((t.step event).entry key) := by
  cases changed : event.changes key with
  | false =>
    obtain kept | ⟨_, -, -, dropped⟩ | ⟨-, -, dropped⟩ := t.quiet_cases changed
    · rwa [kept]
    · rw [dropped]
      exact .empty _
    · rw [dropped]
      exact .empty _
  | true =>
    cases event with
    | failure other purging locking range =>
      obtain rfl : other = key := of_decide_eq_true changed
      have current := sound.current purging
      obtain ⟨-, after⟩ := t.recordFailure_own other purging locking range rfl
      have positive : 0 < ((t.entry other).current purging).count.getD 0 + 1 := by
        cases found : ((t.entry other).current purging).count with
        | none => simp
        | some count =>
          have := current.counted count found
          rw [Option.getD_some]
          omega
      change Sound _ ((t.recordFailure other purging locking range).2.entry other)
      rw [after]
      split
      · rename_i reached
        exact ⟨fun _ same => by cases same; exact positive, fun _ _ => ⟨_, rfl, reached⟩, nofun⟩
      · rename_i below
        rw [current.unlocked_of_below rfl (by omega)]
        exact ⟨fun _ same => by cases same; exact positive, nofun,
          fun _ _ same => by cases same; omega⟩
    | success other =>
      obtain rfl : other = key := of_decide_eq_true changed
      exact ((t.entry_forget other other).trans (if_pos rfl)) ▸ Sound.empty _
    | clear other =>
      obtain rfl : other = key := of_decide_eq_true changed
      exact ((t.entry_forget other other).trans (if_pos rfl)) ▸ Sound.empty _
    | isLocked other now => cases changed

/-- Trackers with these settings and sound entries. -/
structure WellFormed (threshold ttl : Int) (t : LockoutTracker) : Prop where
  threshold_eq : t.threshold = threshold
  ttl_eq : t.ttl = ttl
  sound : ∀ key, Sound threshold (t.entry key)

variable {t : LockoutTracker}

theorem WellFormed.step {ttl : Int} (formed : WellFormed threshold ttl t) (event : LockoutEvent) :
    WellFormed threshold ttl (t.step event) := by
  obtain ⟨rfl, rfl, sound⟩ := formed
  obtain ⟨sameThreshold, sameTtl⟩ := t.step_settings event
  exact ⟨sameThreshold, sameTtl, fun key => sound_step t key event (sound key)⟩

theorem entry_new (threshold ttl : Int) (key : String) : (new threshold ttl).entry key = {} := by
  simp [entry, new]

theorem threshold_new_pos (threshold ttl : Int) : 0 < (new threshold ttl).threshold := by
  unfold new
  dsimp only
  split <;> omega

theorem wellFormed_run (threshold ttl : Int) (events : List LockoutEvent) :
    WellFormed (new threshold ttl).threshold (new threshold ttl).ttl
      (run LockoutTracker.step (new threshold ttl) events) :=
  run_invariant (fun _ event formed => formed.step event) events
    ⟨rfl, rfl, fun key => entry_new threshold ttl key ▸ .empty _⟩

/-! ### A lock lasts -/

/-- While its lock lasts, nothing but its own events changes an entry. -/
theorem locked_kept {expiry : Time} (held : (t.entry key).expiry = some expiry)
    (window : List LockoutEvent) (quiet : ∀ event ∈ window, event.changes key = false)
    (lasts : ∀ reading ∈ window.flatMap LockoutEvent.readings, reading ≤ expiry.instant) :
    (run step t window).entry key = t.entry key := by
  induction window generalizing t with
  | nil => rfl
  | cons event window ih =>
    have kept : (t.step event).entry key = t.entry key := by
      obtain kept | ⟨other, found, ⟨reading, listed, expired⟩, -⟩ | ⟨unlocked, -⟩ :=
        t.quiet_cases (quiet event List.mem_cons_self)
      · exact kept
      · cases held.symm.trans found
        have early := lasts reading (List.mem_append_left _ listed)
        omega
      · cases held.symm.trans unlocked
    rw [run_cons, ih (kept ▸ held) (fun other listed => quiet other (List.mem_cons_of_mem _ listed))
      (fun reading listed => lasts reading (List.mem_append_right _ listed)), kept]

theorem entry_of_locks {purging locking : Time} {range : MapRange}
    (locks : t.answer (.failure key purging locking range) = true) :
    ∃ count, t.threshold ≤ count ∧ (t.step (.failure key purging locking range)).entry key =
      ⟨some count, some (locking.add t.ttl)⟩ := by
  obtain ⟨answered, after⟩ := t.recordFailure_own key purging locking range rfl
  have reached := of_decide_eq_true (answered.symm.trans locks)
  rw [if_pos reached] at after
  exact ⟨_, reached, after⟩

/-- An entry that is locked makes the tracker say so, and one more failure locks it again. -/
theorem answers_of_locked {count : Int} {expiry : Time}
    (held : t.entry key = ⟨some count, some expiry⟩) (reached : t.threshold ≤ count) {now : Time}
    (lasts : now.after expiry = false) :
    t.answer (.isLocked key now) = true ∧
      ∀ locking range, t.answer (.failure key now locking range) = true := by
  have kept : (t.entry key).current now = t.entry key := by
    unfold Entry.current
    rw [held, if_neg (by simp [lasts])]
  constructor
  · change (t.isLocked key now).1 = true
    rw [isLocked_fst, held]
    simp [lasts]
  · intro locking range
    obtain ⟨answered, -⟩ := t.recordFailure_own key now locking range rfl
    refine answered.trans (decide_eq_true ?_)
    rw [kept, held, Option.getD_some]
    omega

end LockoutTracker

theorem LockoutEvent.Timely.before {past window rest : List LockoutEvent} {last : LockoutEvent}
    (timely : Timely (past ++ (window ++ last :: rest))) {reading later : Int}
    (listed : reading ∈ window.flatMap readings) (after : later ∈ last.readings) :
    reading ≤ later := by
  unfold Timely at timely
  rw [List.flatMap_append, List.pairwise_append] at timely
  have ordered := timely.2.1
  rw [List.flatMap_append, List.pairwise_append] at ordered
  exact ordered.2.2 reading listed later (List.mem_append_left _ after)

namespace LockoutTracker

/-! ### Failures lock -/

/-- What is counted towards a lock: nothing while a lock is held that may expire. -/
def Entry.progress (entry : Entry) : Int :=
  if entry.expiry.isSome then 0 else entry.count.getD 0

variable {threshold : Int} {entry : Entry}

theorem Sound.progress_lt (sound : Sound threshold entry) (positive : 0 < threshold) :
    entry.progress < threshold := by
  unfold Entry.progress
  cases held : entry.expiry with
  | some expiry => simpa using positive
  | none =>
    cases found : entry.count with
    | none => simpa using positive
    | some count => simpa using sound.unlocked held count found

theorem Sound.progress_nonneg (sound : Sound threshold entry) :
    0 ≤ entry.progress := by
  unfold Entry.progress
  split
  · exact le_rfl
  · cases found : entry.count with
    | none => exact le_rfl
    | some count => exact (sound.counted count found).le

variable {t : LockoutTracker} {key : String} {event : LockoutEvent}

/-- With few keys the events of others do not set a key back. -/
theorem progress_quiet (quiet : event.changes key = false) (few : t.Few) :
    ((t.step event).entry key).progress = (t.entry key).progress := by
  obtain kept | ⟨expiry, held, -, dropped⟩ | ⟨-, crowded, -⟩ := t.quiet_cases quiet
  · rw [kept]
  · rw [dropped]
    simp [Entry.progress, held]
  · exact absurd few crowded

/-- A failure that does not lock brings its key one further. -/
theorem progress_failure {ttl : Int} (formed : WellFormed threshold ttl t) {purging locking : Time}
    {range : MapRange} (unanswered : t.answer (.failure key purging locking range) = false) :
    (t.entry key).progress + 1 ≤
      ((t.step (.failure key purging locking range)).entry key).progress := by
  obtain ⟨answered, after⟩ := t.recordFailure_own key purging locking range rfl
  have below := of_decide_eq_false (answered.symm.trans unanswered)
  have sound := (formed.threshold_eq ▸ formed.sound key).current purging
  have unlocked := sound.unlocked_of_below rfl (lt_of_not_ge below)
  rw [if_neg below, unlocked] at after
  change _ ≤ ((t.recordFailure key purging locking range).2.entry key).progress
  rw [after]
  obtain kept | ⟨expiry, held, -, dropped⟩ := (t.entry key).current_cases purging
  · rw [kept] at unlocked ⊢
    simp [Entry.progress, unlocked]
  · simp [Entry.progress, held, dropped]

/-- Without a success or a clear, enough failures lock a key while there are few keys. -/
theorem locks_of_failures {ttl : Int} (positive : 0 < threshold) (window : List LockoutEvent)
    (formed : WellFormed threshold ttl t)
    (counting : ∀ event ∈ window, event.changes key = true → event.isFailure key = true)
    (few : AllSteps step (fun t _ => t.Few) t window)
    (enough : threshold ≤ (t.entry key).progress + window.countP (·.isFailure key)) :
    ∃ earlier purging locking range later,
      window = earlier ++ .failure key purging locking range :: later ∧
      (run step t earlier).answer (.failure key purging locking range) = true := by
  induction window generalizing t with
  | nil =>
    have short := (formed.sound key).progress_lt positive
    simp only [List.countP_nil] at enough
    omega
  | cons event window ih =>
    have rest := @ih (t.step event) (formed.step event)
      (fun other listed => counting other (List.mem_cons_of_mem _ listed)) few.2
    rw [List.countP_cons] at enough
    cases changed : event.changes key with
    | false =>
      have other : event.isFailure key = false := by
        cases event <;> first | exact changed | rfl
      rw [other, ← progress_quiet changed few.1] at enough
      obtain ⟨earlier, purging, locking, range, later, rfl, locks⟩ := rest (by simpa using enough)
      exact ⟨event :: earlier, purging, locking, range, later, rfl, locks⟩
    | true =>
      have failed := counting event List.mem_cons_self changed
      cases event with
      | failure other purging locking range =>
        obtain rfl : other = key := of_decide_eq_true failed
        cases locks : t.answer (.failure other purging locking range) with
        | true => exact ⟨[], purging, locking, range, window, rfl, locks⟩
        | false =>
          have further := progress_failure formed locks
          rw [if_pos failed] at enough
          obtain ⟨earlier, purging, locking, range, later, rfl, locks⟩ := rest (by omega)
          exact ⟨_ :: earlier, purging, locking, range, later, rfl, locks⟩
      | success _ | clear _ | isLocked _ _ => cases failed

/-! ### Only failures lock -/

/-- The failures of a key since its last success, clear or lock expiry, and its lock. -/
structure Tally where
  failures : Nat := 0
  expiry : Option Time := none

def Tally.current (tally : Tally) (now : Time) : Tally :=
  if tally.expiry.any now.after then {} else tally

/-- Count an event that was answered. -/
def Tally.observe (key : String) (ttl : Int) (tally : Tally) (answer : Bool) :
    LockoutEvent → Tally
  | .failure other purging locking _ =>
    if other = key then
      { failures := (tally.current purging).failures + 1
        expiry := if answer then some (locking.add ttl) else (tally.current purging).expiry }
    else tally
  | .success other | .clear other => if other = key then {} else tally
  | .isLocked _ _ => tally

/-- The tally of a key along a run. -/
def tally (key : String) : Tally → LockoutTracker → List LockoutEvent → Tally
  | observed, _, [] => observed
  | observed, t, event :: events =>
    tally key (observed.observe key t.ttl (t.answer event) event) (t.step event) events

/-- An entry is locked as its tally says and has not counted more, or its lock has expired before
the readings to come and the entry is gone. -/
def Follows (future : List Int) (entry : Entry) (observed : Tally) : Prop :=
  (entry.expiry = observed.expiry ∧ entry.count.getD 0 ≤ observed.failures) ∨
    ∃ expiry, observed.expiry = some expiry ∧ (∀ reading ∈ future, expiry.instant < reading) ∧
      entry = {}

theorem Follows.empty (future : List Int) : Follows future {} {} := .inl ⟨rfl, le_rfl⟩

theorem observe_quiet (quiet : event.changes key = false) (observed : Tally) (ttl : Int)
    (answer : Bool) :
    observed.observe key ttl answer event = observed := by
  cases event with
  | failure | success | clear => exact if_neg (of_decide_eq_false quiet)
  | isLocked => rfl

variable {future : List Int} {observed : Tally}

/-- At its own failure the entry and the tally drop an expired lock alike. -/
theorem Follows.current {now : Time} (follows : Follows future entry observed)
    (next : now.instant ∈ future) :
    (entry.current now).expiry = (observed.current now).expiry ∧
      (entry.current now).count.getD 0 ≤ (observed.current now).failures := by
  obtain ⟨same, fewer⟩ | ⟨expiry, held, expired, rfl⟩ := follows
  · unfold Entry.current Tally.current
    rw [same]
    split
    · exact ⟨rfl, le_rfl⟩
    · exact ⟨same, fewer⟩
  · have gone : observed.current now = {} := by
      unfold Tally.current
      rw [held]
      exact if_pos (decide_eq_true (expired _ next))
    rw [gone]
    exact ⟨rfl, le_rfl⟩

theorem follows_step (timely : (event.readings ++ future).Pairwise (· ≤ ·))
    (follows : Follows (event.readings ++ future) (t.entry key) observed) :
    Follows future ((t.step event).entry key)
      (observed.observe key t.ttl (t.answer event) event) := by
  cases changed : event.changes key with
  | false =>
    rw [observe_quiet changed]
    obtain kept | ⟨expiry, held, ⟨reading, listed, expired⟩, dropped⟩ | ⟨unlocked, -, dropped⟩ :=
      t.quiet_cases changed
    · rw [kept]
      exact follows.imp id fun ⟨expiry, held, expired, gone⟩ =>
        ⟨expiry, held, fun reading next => expired reading (List.mem_append_right _ next), gone⟩
    · rw [dropped]
      obtain ⟨same, -⟩ | ⟨_, -, -, gone⟩ := follows
      · refine .inr ⟨expiry, same ▸ held, fun later next => ?_, rfl⟩
        have ordered := (List.pairwise_append.mp timely).2.2 reading listed later next
        omega
      · rw [gone] at held
        cases held
    · rw [dropped]
      obtain ⟨same, fewer⟩ | ⟨expiry, held, expired, -⟩ := follows
      · exact .inl ⟨(unlocked.symm.trans same), Int.natCast_nonneg _⟩
      · exact .inr ⟨expiry, held, fun reading next =>
          expired reading (List.mem_append_right _ next), rfl⟩
  | true =>
    cases event with
    | failure other purging locking range =>
      obtain rfl : other = key := of_decide_eq_true changed
      obtain ⟨same, fewer⟩ :=
        @Follows.current _ _ _ purging follows (by simp [LockoutEvent.readings])
      obtain ⟨answered, after⟩ := t.recordFailure_own other purging locking range rfl
      change Follows future ((t.recordFailure other purging locking range).2.entry other)
        (observed.observe other t.ttl (t.recordFailure other purging locking range).1
          (.failure other purging locking range))
      rw [after, answered, Tally.observe, if_pos rfl]
      refine .inl ⟨?_, by simpa using fewer⟩
      by_cases reached : t.threshold ≤ ((t.entry other).current purging).count.getD 0 + 1
      · simp [reached]
      · simp [reached, same]
    | success other =>
      obtain rfl : other = key := of_decide_eq_true changed
      have forgotten := (t.entry_forget other other).trans (if_pos rfl)
      change Follows future ((t.recordSuccess other).entry other) (if other = other then {} else _)
      rw [forgotten, if_pos rfl]
      exact .empty future
    | clear other =>
      obtain rfl : other = key := of_decide_eq_true changed
      have forgotten := (t.entry_forget other other).trans (if_pos rfl)
      change Follows future ((t.recordSuccess other).entry other) (if other = other then {} else _)
      rw [forgotten, if_pos rfl]
      exact .empty future
    | isLocked other now => cases changed

theorem follows_run (past : List LockoutEvent)
    (timely : (past.flatMap LockoutEvent.readings ++ future).Pairwise (· ≤ ·))
    (follows : Follows (past.flatMap LockoutEvent.readings ++ future) (t.entry key) observed) :
    Follows future ((run step t past).entry key) (tally key observed t past) := by
  induction past generalizing t observed with
  | nil => exact follows
  | cons event past ih =>
    rw [List.flatMap_cons, List.append_assoc] at timely follows
    exact ih (List.pairwise_append.mp timely).2.1 (follows_step timely follows)

/-- On every run with a clock that does not run backwards: a failure that locks its key keeps it
locked for the duration of a lock, and the next failure within that time locks it again, unless the
key has a success or a clear of its own; with few keys, as many failures as the threshold lock a
key; and a key that is reported as locked has had as many failures since its last success, clear or
lock expiry. -/
theorem lockout_reliable (threshold ttl : Int) (events : List LockoutEvent)
    (timely : LockoutEvent.Timely events) :
    (∀ past key purging locking range window last rest,
      events = past ++ .failure key purging locking range :: (window ++ last :: rest) →
      (run step (new threshold ttl) past).answer (.failure key purging locking range) = true →
      (∀ event ∈ window, event.changes key = false) →
      ∀ now, now.after (locking.add (new threshold ttl).ttl) = false →
        ((last = .isLocked key now ∨ ∃ locking range, last = .failure key now locking range) →
          (run step (new threshold ttl) (past ++ .failure key purging locking range ::
            window)).answer last = true)) ∧
    (∀ past window rest key, events = past ++ (window ++ rest) →
      (∀ event ∈ window, event.changes key = true → event.isFailure key = true) →
      AllSteps step (fun t _ => t.Few) (run step (new threshold ttl) past) window →
      (new threshold ttl).threshold ≤ window.countP (·.isFailure key) →
      ∃ earlier purging locking range later,
        window = earlier ++ .failure key purging locking range :: later ∧
        (run step (new threshold ttl) (past ++ earlier)).answer
          (.failure key purging locking range) = true) ∧
    ∀ past key now rest, events = past ++ .isLocked key now :: rest →
      (run step (new threshold ttl) past).answer (.isLocked key now) = true →
      ∃ expiry, (tally key {} (new threshold ttl) past).expiry = some expiry ∧
        now.after expiry = false ∧
        (new threshold ttl).threshold ≤ (tally key {} (new threshold ttl) past).failures := by
  refine ⟨?_, ?_, ?_⟩
  · rintro past key purging locking range window last rest rfl locks quiet now lasts isLast
    have formed := wellFormed_run threshold ttl past
    obtain ⟨count, reached, held⟩ := entry_of_locks locks
    rw [formed.ttl_eq] at held
    have reading : now.instant ∈ last.readings := by
      obtain rfl | ⟨locking, range, rfl⟩ := isLast <;> exact List.mem_cons_self
    have kept := locked_kept (congrArg Entry.expiry held) window quiet fun earlier listed => by
      have ordered := @LockoutEvent.Timely.before (past ++ [.failure key purging locking range])
        window rest last (by simpa using timely) _ _ listed reading
      have early : ¬ _ := of_decide_eq_false lasts
      exact ordered.trans (not_lt.mp early)
    rw [held] at kept
    rw [run_append, run_cons]
    have same := (wellFormed_run threshold ttl
      (past ++ .failure key purging locking range :: window)).threshold_eq
    rw [run_append, run_cons] at same
    rw [formed.threshold_eq, ← same] at reached
    obtain ⟨answersLocked, answersFailure⟩ := answers_of_locked kept reached lasts
    obtain rfl | ⟨locking, range, rfl⟩ := isLast
    · exact answersLocked
    · exact answersFailure locking range
  · rintro past window rest key rfl counting few enough
    have formed := wellFormed_run threshold ttl past
    have started := (formed.sound key).progress_nonneg
    simp only [run_append]
    exact locks_of_failures (threshold_new_pos threshold ttl) window formed counting few (by omega)
  · rintro past key now rest rfl locked
    have formed := wellFormed_run threshold ttl past
    unfold LockoutEvent.Timely at timely
    rw [List.flatMap_append] at timely
    have follows := @follows_run (new threshold ttl) key _ {} past timely
      (entry_new threshold ttl key ▸ .empty _)
    change (isLocked _ key now).1 = true at locked
    rw [isLocked_fst, Option.any_eq_true] at locked
    obtain ⟨expiry, held, lasts⟩ := locked
    obtain ⟨count, found, reached⟩ := (formed.sound key).locked expiry held
    obtain ⟨same, fewer⟩ | ⟨_, -, -, gone⟩ := follows
    · rw [found, Option.getD_some] at fewer
      exact ⟨expiry, same ▸ held, by simpa using lasts, reached.trans fewer⟩
    · rw [gone] at held
      cases held

theorem locked_after_two_failures :
    (run step (new 2 10) [.failure "a" ⟨1, 0⟩ ⟨1, 0⟩ .sorted, .failure "a" ⟨2, 0⟩ ⟨2, 0⟩ .sorted,
      .failure "b" ⟨3, 0⟩ ⟨3, 0⟩ .sorted]).answer (.isLocked "a" ⟨12, 0⟩) = true :=
  (lockout_reliable 2 10 [.failure "a" ⟨1, 0⟩ ⟨1, 0⟩ .sorted, .failure "a" ⟨2, 0⟩ ⟨2, 0⟩ .sorted,
    .failure "b" ⟨3, 0⟩ ⟨3, 0⟩ .sorted, .isLocked "a" ⟨12, 0⟩]
    (by unfold LockoutEvent.Timely; decide)).1 [.failure "a" ⟨1, 0⟩ ⟨1, 0⟩ .sorted] "a" ⟨2, 0⟩
    ⟨2, 0⟩ .sorted [.failure "b" ⟨3, 0⟩ ⟨3, 0⟩ .sorted] (.isLocked "a" ⟨12, 0⟩) [] rfl
    (by decide +kernel) (by simp [LockoutEvent.changes]) ⟨12, 0⟩ (by decide) (.inl rfl)

end LockoutTracker

end KnxVault.Auth
