import KnxVault.Crypto.Shamir
import KnxVault.Domain.Common
import KnxVault.Std.Run

/-!
# The operational seal

`internal/app/seal.go`: the vault is sealed and unsealed by the whole key or by shares of
it. Shares wait until there are enough of them. Sealing leaves those that wait, so that a
share handed in before a seal still counts after it; where no share waits at a seal, the
seal is only lifted by the key or by shares handed in since. The mutex makes every call
one step. What `SetStateFile` reads from disk is an argument, and what is written there
is not modelled.
-/

namespace KnxVault.App

open KnxVault.Std KnxVault.Domain KnxVault.Crypto
open KnxVault.Crypto.Shamir (shareX combine)

structure SealState where
  isSealed : Bool
  unsealKey : Bytes
  stateFile : String := ""
  failCount : Int := 0
  lastFail : Time := {}
  maxFailDelay : Int := 0
  threshold : Int := 1
  /-- The shares that wait, by their index. -/
  pending : Std.ExtTreeMap Byte Bytes := ∅

/-- What `SubmitShare` takes from outside: the clock, for the back-off and for a failure, and
the orders of its loops over the waiting shares. -/
structure ShareDraw where
  now : Time
  failed : Time
  check : MapRange
  collect : MapRange
  combine : MapRange

/-- What `SubmitShare` returns. -/
structure ShareResult where
  unsealed : Bool
  progress : Int
  need : Int
  errMsg : String
deriving DecidableEq, Repr

namespace SealState

/-- A vault with a key starts sealed. -/
def new (unsealKey : Bytes) : SealState where
  isSealed := unsealKey ≠ []
  unsealKey := unsealKey

def setUnsealThreshold (state : SealState) (t : Int) : SealState :=
  { state with threshold := if t < 1 then 1 else t, pending := ∅ }

/-- The content of the file is what reading it gave, if that succeeded. -/
def setStateFile (state : SealState) (path : String) (content : Option String) : SealState :=
  if path = "" then state
  else
    { state with
      stateFile := path
      isSealed := state.isSealed || content = some "sealed" || state.unsealKey ≠ [] }

def «seal» (state : SealState) : SealState :=
  { state with isSealed := true }

def unsealBackoffLocked (state : SealState) (now : Time) : Int :=
  if state.failCount ≤ 0 then 0
  else
    let capDelay := if state.maxFailDelay ≤ 0 then 30 * nanosecondsPerSecond else state.maxFailDelay
    let shift := min (state.failCount - 1) 5
    let delay := min (2 ^ shift.toNat * nanosecondsPerSecond) capDelay
    let elapsed := now.instant - state.lastFail.instant
    if elapsed ≥ delay then 0 else delay - elapsed

/-- Count a failure. -/
def fail (state : SealState) (failed : Time) : SealState :=
  { state with failCount := state.failCount + 1, lastFail := failed }

def clear (state : SealState) : SealState :=
  { state with pending := ∅ }

def markUnsealedLocked (state : SealState) : SealState :=
  { state with failCount := 0, lastFail := {}, isSealed := false, pending := ∅ }

variable (digest : Bytes → Bytes)

/-- Keys are compared by their SHA-256 digests. -/
def constantTimeKeyEqual (first second : Bytes) : Bool :=
  digest first = digest second

def «unseal» (state : SealState) (key : Bytes) (now failed : Time) : SealState × Bool :=
  if state.unsealKey = [] then (state, false)
  else if 0 < state.unsealBackoffLocked now then (state, false)
  else if !constantTimeKeyEqual digest key state.unsealKey then (state.fail failed, false)
  else (state.markUnsealedLocked, true)

/-- The shares that wait, in the order of a loop. -/
def collected (state : SealState) (range : MapRange) : List Bytes :=
  (range.order state.pending.toList).map Prod.snd

/-- Whether the share is not as long as the first one found waiting. -/
def mismatched (state : SealState) (range : MapRange) (share : Bytes) : Bool :=
  match state.collected range with
  | existing :: _ => existing.length ≠ share.length
  | [] => false

/-- Once enough shares wait, combine them. -/
def combineShares (state : SealState) (draw : ShareDraw) (need : Int) : SealState × ShareResult :=
  match combine draw.combine (state.collected draw.collect) with
  | .error _ =>
    let failed := state.fail draw.failed
    if failed.failCount ≥ 3 then (failed.clear, ⟨false, 0, need, "share combine failed"⟩)
    else (failed, ⟨false, state.pending.size, need, "share combine failed"⟩)
  | .ok combined =>
    if !constantTimeKeyEqual digest combined state.unsealKey then
      ((state.fail draw.failed).clear, ⟨false, 0, need, "invalid shares"⟩)
    else (state.markUnsealedLocked, ⟨true, need, need, ""⟩)

/-- Let the share wait with the others. -/
def addShare (state : SealState) (share : Bytes) : SealState :=
  { state with pending := state.pending.insert (shareX share) share }

def submitShare (state : SealState) (share : Bytes) (draw : ShareDraw) :
    SealState × ShareResult :=
  let need := if state.threshold < 1 then 1 else state.threshold
  let waiting := (state.pending.size : Int)
  if state.unsealKey = [] then (state, ⟨false, 0, 1, "unseal not configured"⟩)
  else if share.length < 2 ∨ share.length > 256 then (state, ⟨false, 0, 1, "invalid share"⟩)
  else if 0 < state.unsealBackoffLocked draw.now then
    (state, ⟨false, waiting, need, "unseal rate limited"⟩)
  else if shareX share = 0 then
    (state.fail draw.failed, ⟨false, waiting, need, "invalid share index"⟩)
  else if state.mismatched draw.check share then
    let failed := state.fail draw.failed
    let left := if failed.failCount ≥ 5 then failed.clear else failed
    (left, ⟨false, left.pending.size, need, "share length mismatch"⟩)
  else
    let added := state.addShare share
    if added.pending.size < need then (added, ⟨false, added.pending.size, need, ""⟩)
    else added.combineShares digest draw need

end SealState

inductive SealCall where
  | «seal»
  | «unseal» (key : Bytes) (now failed : Time)
  | submitShare (share : Bytes) (draw : ShareDraw)
  | setUnsealThreshold (t : Int)
  | setStateFile (path : String) (content : Option String)

namespace SealState

def step (digest : Bytes → Bytes) (state : SealState) : SealCall → SealState
  | .seal => state.seal
  | .unseal key now failed => (state.unseal digest key now failed).1
  | .submitShare share draw => (state.submitShare digest share draw).1
  | .setUnsealThreshold t => state.setUnsealThreshold t
  | .setStateFile path content => state.setStateFile path content

/-- The state that the calls lead to. -/
abbrev reached (digest : Bytes → Bytes) (unsealKey : Bytes) (calls : List SealCall) : SealState :=
  run (step digest) (new unsealKey) calls

/-! ### The property -/

/-- The shares that the calls hand in. -/
def submitted (calls : List SealCall) : List Bytes :=
  calls.filterMap fun call => match call with
    | .submitShare share _ => some share
    | _ => none

/-- The last call presents the key, or it hands in a share and as many shares as needed, with
different indices, have been handed in that combine to the key. -/
def Authorised (unsealKey : Bytes) (threshold : Int) (calls : List SealCall) (last : SealCall) :
    Prop :=
  (∃ now failed, last = .unseal unsealKey now failed) ∨
  (∃ share draw, last = .submitShare share draw) ∧
    ∃ range shares, (∀ share ∈ shares, share ∈ submitted (calls ++ [last])) ∧
      (shares.map shareX).Nodup ∧ threshold ≤ shares.length ∧
      combine range shares = .ok unsealKey

/-- A seal is only lifted by authority presented since, and fewer shares than needed wait. -/
structure FreshAuthority (digest : Bytes → Bytes) (unsealKey : Bytes) (calls : List SealCall) :
    Prop where
  lifted : ∀ before after last, before ++ .seal :: (after ++ [last]) <+: calls →
    (reached digest unsealKey (before ++ .seal :: after)).isSealed = true →
    (reached digest unsealKey (before ++ .seal :: (after ++ [last]))).isSealed = false →
    Authorised unsealKey (reached digest unsealKey (before ++ .seal :: after)).threshold after last
  below : ∀ made, made <+: calls → ((reached digest unsealKey made).pending.size : Int) <
    (reached digest unsealKey made).threshold

/-- No share waits when the vault is sealed. -/
def NoneWaiting (state : SealState) : SealCall → Prop
  | .seal => state.pending.size = 0
  | _ => True

instance NoneWaiting.decidable (state : SealState) : (call : SealCall) →
    Decidable (state.NoneWaiting call)
  | .seal => inferInstanceAs (Decidable (state.pending.size = 0))
  | .unseal .. | .submitShare .. | .setUnsealThreshold _ | .setStateFile .. => isTrue trivial

/-! ### What a call does -/

/-- The call leaves the seal, the threshold and the key. -/
def Leaves (state later : SealState) : Prop :=
  later.isSealed = state.isSealed ∧ later.threshold = state.threshold ∧
    later.unsealKey = state.unsealKey

/-- The share may wait with the others. -/
structure Acceptable (state : SealState) (share : Bytes) : Prop where
  long : 2 ≤ share.length
  index : shareX share ≠ 0
  matching : ∃ range, state.mismatched range share = false

variable {digest : Bytes → Bytes} {state : SealState} {share : Bytes} {draw : ShareDraw}

/-- Everything that handing in a share can do. -/
theorem submitShare_cases (digest : Bytes → Bytes) (state : SealState) (share : Bytes)
    (draw : ShareDraw) :
    (state.Leaves (state.submitShare digest share draw).1 ∧
      ((state.submitShare digest share draw).1.pending = state.pending ∨
        (state.submitShare digest share draw).1.pending = ∅)) ∨
    (state.Acceptable share ∧ state.Leaves (state.submitShare digest share draw).1 ∧
      (state.submitShare digest share draw).1.pending = (state.addShare share).pending ∧
      (((state.addShare share).pending.size : Int) < max state.threshold 1 ∨ ∃ err,
        combine draw.combine ((state.addShare share).collected draw.collect) = .error err)) ∨
    (state.Acceptable share ∧
      (state.submitShare digest share draw).1 = (state.addShare share).markUnsealedLocked ∧
      max state.threshold 1 ≤ ((state.addShare share).pending.size : Int) ∧
      ∃ combined, combine draw.combine ((state.addShare share).collected draw.collect) =
          .ok combined ∧ digest combined = digest state.unsealKey) := by
  have needed : (if state.threshold < 1 then 1 else state.threshold) = max state.threshold 1 := by
    split <;> omega
  unfold submitShare
  rw [needed]
  split
  · exact .inl ⟨⟨rfl, rfl, rfl⟩, .inl rfl⟩
  split
  · exact .inl ⟨⟨rfl, rfl, rfl⟩, .inl rfl⟩
  rename_i short
  split
  · exact .inl ⟨⟨rfl, rfl, rfl⟩, .inl rfl⟩
  split
  · exact .inl ⟨⟨rfl, rfl, rfl⟩, .inl rfl⟩
  rename_i nonzero
  split
  · left
    dsimp only
    split
    · exact ⟨⟨rfl, rfl, rfl⟩, .inr rfl⟩
    · exact ⟨⟨rfl, rfl, rfl⟩, .inl rfl⟩
  rename_i unmatched
  have acceptable : state.Acceptable share :=
    ⟨by omega, nonzero, draw.check, Bool.eq_false_iff.mpr unmatched⟩
  dsimp only
  split
  · rename_i few
    exact .inr (.inl ⟨acceptable, ⟨rfl, rfl, rfl⟩, rfl, .inl few⟩)
  rename_i enough
  unfold combineShares
  split
  · rename_i err combined
    dsimp only
    split
    · exact .inl ⟨⟨rfl, rfl, rfl⟩, .inr rfl⟩
    · exact .inr (.inl ⟨acceptable, ⟨rfl, rfl, rfl⟩, rfl, .inr ⟨err, combined⟩⟩)
  · rename_i key combined
    split
    · exact .inl ⟨⟨rfl, rfl, rfl⟩, .inr rfl⟩
    · rename_i equal
      rw [Bool.not_eq_true, Bool.not_eq_false', constantTimeKeyEqual, decide_eq_true_eq] at equal
      exact .inr (.inr ⟨acceptable, rfl, by omega, key, combined, equal⟩)

/-- Presenting a key changes nothing but the failures, or it is the right one. -/
theorem unseal_cases (digest : Bytes → Bytes) (state : SealState) (key : Bytes)
    (now failed : Time) :
    (state.Leaves (state.unseal digest key now failed).1 ∧
      (state.unseal digest key now failed).1.pending = state.pending) ∨
    ((state.unseal digest key now failed).1 = state.markUnsealedLocked ∧
      digest key = digest state.unsealKey) := by
  unfold SealState.unseal
  split
  · exact .inl ⟨⟨rfl, rfl, rfl⟩, rfl⟩
  split
  · exact .inl ⟨⟨rfl, rfl, rfl⟩, rfl⟩
  split
  · exact .inl ⟨⟨rfl, rfl, rfl⟩, rfl⟩
  · rename_i equal
    rw [Bool.not_eq_true, Bool.not_eq_false', constantTimeKeyEqual, decide_eq_true_eq] at equal
    exact .inr ⟨rfl, equal⟩

/-! ### The shares that wait -/

section Waiting

variable {range : MapRange}

/-- Shares wait under their index and are equally long. -/
def Uniform (pending : Std.ExtTreeMap Byte Bytes) : Prop :=
  ∃ length ≥ 2, ∀ x share, pending[x]? = some share →
    share.length = length ∧ shareX share = x ∧ x ≠ 0

theorem mem_collected : share ∈ state.collected range ↔
    ∃ x : Byte, state.pending[x]? = some share := by
  simp [collected, Std.ExtTreeMap.mem_toList_iff_getElem?_eq_some]

theorem length_collected : (state.collected range).length = state.pending.size := by
  simp [collected]

theorem uniform_empty : Uniform ∅ :=
  ⟨2, le_refl 2, fun x share found => by simp at found⟩

/-- An index is not that of two waiting shares. -/
theorem nodup_collected (uniform : Uniform state.pending) :
    ((state.collected range).map shareX).Nodup := by
  obtain ⟨length, -, all⟩ := uniform
  have indices : (state.collected range).map shareX =
      (range.order state.pending.toList).map Prod.fst := by
    rw [collected, List.map_map]
    refine List.map_congr_left fun binding listed => ?_
    have found := Std.ExtTreeMap.mem_toList_iff_getElem?_eq_some.mp (range.mem_order.mp listed)
    exact (all _ _ found).2.1
  have distinct : state.pending.keys.Nodup := state.pending.distinct_keys.imp fun apart equal =>
    apart (Std.LawfulEqOrd.compare_eq_iff_eq.mpr equal)
  rw [indices, ((range.perm _).map Prod.fst).nodup_iff, Std.ExtTreeMap.map_fst_toList_eq_keys]
  exact distinct

theorem pending_addShare (x : Byte) : (state.addShare share).pending[x]? =
    if shareX share = x then some share else state.pending[x]? :=
  getElem?_insert state.pending (shareX share) x share

theorem uniform_addShare (uniform : Uniform state.pending) (acceptable : state.Acceptable share) :
    Uniform (state.addShare share).pending := by
  obtain ⟨length, atLeast, all⟩ := uniform
  obtain ⟨long, index, range, matching⟩ := acceptable
  -- one of the waiting shares was compared with the new one
  have sameLength (x : Byte) (other : Bytes) (found : state.pending[x]? = some other) :
      share.length = length := by
    have listed : other ∈ state.collected range := mem_collected.mpr ⟨x, found⟩
    unfold mismatched at matching
    split at matching
    · rename_i existing rest order
      obtain ⟨y, there⟩ := mem_collected.mp
        (order ▸ List.mem_cons_self : existing ∈ state.collected range)
      rw [← (all y existing there).1]
      exact (by simpa using matching : existing.length = share.length).symm
    · rename_i order
      rw [order] at listed
      cases listed
  refine ⟨share.length, long, fun x other found => ?_⟩
  rw [pending_addShare] at found
  split at found
  · rename_i here
    cases found
    exact ⟨rfl, here, here ▸ index⟩
  · obtain ⟨isLength, isIndex, nonzero⟩ := all x other found
    exact ⟨isLength.trans (sameLength x other found).symm, isIndex, nonzero⟩

/-- Waiting shares always combine to something. -/
theorem combine_collected (uniform : Uniform state.pending) (some : 0 < state.pending.size)
    (order : MapRange) : ∃ combined, combine order (state.collected range) = .ok combined := by
  obtain ⟨length, atLeast, all⟩ := uniform
  refine Shamir.combine_ok order (List.length_pos_iff.mp ?_) atLeast fun share listed => ?_
  · rwa [length_collected]
  · obtain ⟨x, found⟩ := mem_collected.mp listed
    obtain ⟨isLength, isIndex, nonzero⟩ := all x share found
    exact ⟨isLength, isIndex ▸ nonzero⟩

end Waiting

/-! ### What every call keeps -/

section Steps

variable {unsealKey : Bytes} {call : SealCall} {shares : List Bytes}

/-- The key is the configured one, and fewer shares than needed wait in order. -/
structure Ordered (unsealKey : Bytes) (state : SealState) : Prop where
  key : state.unsealKey = unsealKey
  positive : 1 ≤ state.threshold
  below : (state.pending.size : Int) < state.threshold
  uniform : Uniform state.pending

theorem ordered_new (unsealKey : Bytes) : Ordered unsealKey (new unsealKey) :=
  ⟨rfl, le_refl 1, Int.zero_lt_one, uniform_empty⟩

/-- A state that agrees with an ordered one and has no more shares waiting. -/
theorem Ordered.of_leaves {later : SealState} (ordered : Ordered unsealKey state)
    (leaves : state.Leaves later) (pending : later.pending = state.pending ∨ later.pending = ∅) :
    Ordered unsealKey later := by
  obtain ⟨-, threshold, key⟩ := leaves
  obtain ⟨isKey, positive, below, uniform⟩ := ordered
  rcases pending with same | empty
  · exact ⟨key.trans isKey, threshold ▸ positive, by rwa [same, threshold], by rwa [same]⟩
  · refine ⟨key.trans isKey, threshold ▸ positive, ?_, by rw [empty]; exact uniform_empty⟩
    rw [empty, threshold, Std.ExtTreeMap.size_empty]
    exact positive

theorem Ordered.unsealed (ordered : Ordered unsealKey state) :
    Ordered unsealKey state.markUnsealedLocked :=
  ⟨ordered.key, ordered.positive, ordered.positive, uniform_empty⟩

theorem size_addShare_pos : 0 < (state.addShare share).pending.size := by
  refine Nat.pos_of_ne_zero fun none => ?_
  have found := @pending_addShare state share (shareX share)
  rw [Std.ExtTreeMap.eq_empty_iff_size_eq_zero.mpr none, if_pos rfl] at found
  simp at found

theorem ordered_submitShare (ordered : Ordered unsealKey state) :
    Ordered unsealKey (state.submitShare digest share draw).1 := by
  have need : max state.threshold 1 = state.threshold := max_eq_left ordered.positive
  obtain ⟨leaves, pending⟩ | ⟨acceptable, ⟨-, threshold, key⟩, pending, few⟩ |
    ⟨acceptable, unsealed, -, -⟩ := submitShare_cases digest state share draw
  · exact ordered.of_leaves leaves pending
  · have uniform := uniform_addShare ordered.uniform acceptable
    have below : ((state.addShare share).pending.size : Int) < state.threshold := by
      rw [need] at few
      refine few.resolve_right fun ⟨err, failed⟩ => ?_
      obtain ⟨combined, succeeded⟩ := combine_collected uniform size_addShare_pos draw.combine
      rw [failed] at succeeded
      cases succeeded
    exact ⟨key.trans ordered.key, threshold ▸ ordered.positive, by rwa [pending, threshold],
      by rwa [pending]⟩
  · rw [unsealed]
    exact ⟨ordered.key, ordered.positive, ordered.positive, uniform_empty⟩

theorem ordered_step (state : SealState) (call : SealCall) (ordered : Ordered unsealKey state) :
    Ordered unsealKey (state.step digest call) := by
  cases call with
  | «seal» => exact ⟨ordered.key, ordered.positive, ordered.below, ordered.uniform⟩
  | submitShare share draw => exact ordered_submitShare ordered
  | «unseal» key now failed =>
    obtain ⟨leaves, pending⟩ | ⟨unsealed, -⟩ := unseal_cases digest state key now failed
    · exact ordered.of_leaves leaves (.inl pending)
    · rw [step, unsealed]
      exact ordered.unsealed
  | setUnsealThreshold t =>
    have atLeast : 1 ≤ if t < 1 then 1 else t := by split <;> omega
    exact ⟨ordered.key, atLeast, atLeast, uniform_empty⟩
  | setStateFile path content =>
    rw [step, setStateFile]
    split
    · exact ordered
    · exact ⟨ordered.key, ordered.positive, ordered.below, ordered.uniform⟩

/-- Every share that waits is among those listed. -/
def Within (shares : List Bytes) (state : SealState) : Prop :=
  ∀ (x : Byte) (share : Bytes), state.pending[x]? = some share → share ∈ shares

theorem within_addShare (within : Within shares state) :
    Within (shares ++ [share]) (state.addShare share) := by
  intro x other found
  rw [pending_addShare] at found
  split at found
  · cases found
    exact List.mem_append_right _ (List.mem_singleton_self _)
  · exact List.mem_append_left _ (within x other found)

theorem Within.of_pending {later : SealState} {more : List Bytes} (within : Within shares state)
    (pending : later.pending = state.pending ∨ later.pending = ∅) :
    Within (shares ++ more) later := by
  intro x share found
  rcases pending with same | empty
  · rw [same] at found
    exact List.mem_append_left _ (within x share found)
  · rw [empty] at found
    simp at found

theorem within_step (state : SealState) (call : SealCall) (within : Within shares state) :
    Within (shares ++ submitted [call]) (state.step digest call) := by
  cases call with
  | «seal» => exact within.of_pending (.inl rfl)
  | submitShare share draw =>
    obtain ⟨-, pending⟩ | ⟨-, -, pending, -⟩ | ⟨-, unsealed, -⟩ :=
      submitShare_cases digest state share draw
    · exact within.of_pending pending
    · intro x other found
      rw [step, pending] at found
      exact within_addShare within x other found
    · exact within.of_pending (.inr (by rw [step, unsealed]; rfl))
  | «unseal» key now failed =>
    obtain ⟨-, pending⟩ | ⟨unsealed, -⟩ := unseal_cases digest state key now failed
    · exact within.of_pending (.inl pending)
    · exact within.of_pending (.inr (by rw [step, unsealed]; rfl))
  | setUnsealThreshold t => exact within.of_pending (.inr rfl)
  | setStateFile path content =>
    refine within.of_pending (.inl ?_)
    rw [step, setStateFile]
    split <;> rfl

theorem submitted_append (calls more : List SealCall) :
    submitted (calls ++ more) = submitted calls ++ submitted more :=
  List.filterMap_append

/-- A call that lifts the seal is authorised by shares among which those that wait are. -/
theorem authorised_of_lifted (unforged : ∀ key, digest key = digest unsealKey → key = unsealKey)
    {calls : List SealCall} (ordered : Ordered unsealKey state)
    (within : Within (submitted calls) state) (isSealed : state.isSealed = true)
    (lifted : (state.step digest call).isSealed = false) :
    Authorised unsealKey state.threshold calls call := by
  have stays {later : SealState} (same : later.isSealed = state.isSealed) :
      later.isSealed ≠ false := by
    rw [same, isSealed]
    decide
  cases call with
  | «seal» => cases lifted
  | submitShare share draw =>
    obtain ⟨leaves, -⟩ | ⟨-, leaves, -⟩ | ⟨acceptable, -, enough, combined, combines, equal⟩ :=
      submitShare_cases digest state share draw
    · exact absurd lifted (stays leaves.1)
    · exact absurd lifted (stays leaves.1)
    · refine .inr ⟨⟨share, draw, rfl⟩, draw.combine, (state.addShare share).collected draw.collect,
        fun other listed => ?_,
        nodup_collected (uniform_addShare ordered.uniform acceptable), ?_, ?_⟩
      · obtain ⟨x, found⟩ := mem_collected.mp listed
        rw [submitted_append]
        exact within_addShare within x other found
      · rw [length_collected]
        exact (le_max_left _ _).trans enough
      · rw [combines, unforged combined (ordered.key ▸ equal)]
  | «unseal» key now failed =>
    obtain ⟨leaves, -⟩ | ⟨-, equal⟩ := unseal_cases digest state key now failed
    · exact absurd lifted (stays leaves.1)
    · exact .inl ⟨now, failed, by rw [unforged key (ordered.key ▸ equal)]⟩
  | setUnsealThreshold t => exact absurd lifted (stays rfl)
  | setStateFile path content =>
    rw [step, setStateFile] at lifted
    split at lifted
    · exact absurd lifted (stays rfl)
    · simp [isSealed] at lifted

end Steps

/-! ### Runs -/

section Runs

variable {unsealKey : Bytes}

theorem ordered_reached (digest : Bytes → Bytes) (unsealKey : Bytes) (calls : List SealCall) :
    Ordered unsealKey (reached digest unsealKey calls) :=
  run_invariant ordered_step calls (ordered_new unsealKey)

/-- Since a moment when no share waited, those that wait have been handed in. -/
theorem within_run (digest : Bytes → Bytes) {start : SealState} (none : start.pending.size = 0)
    (calls : List SealCall) : Within (submitted calls) (run (step digest) start calls) := by
  induction calls using List.reverseRecOn with
  | nil =>
    intro x share found
    rw [run_nil, Std.ExtTreeMap.eq_empty_iff_size_eq_zero.mpr none] at found
    simp at found
  | append_singleton calls call ih =>
    rw [run_append, submitted_append]
    exact within_step _ call ih

/-- In a run in which no share waits at a seal, a seal is only lifted by fresh authority. -/
theorem fresh_authority (digest : Bytes → Bytes) {unsealKey : Bytes}
    (unforged : ∀ key, digest key = digest unsealKey → key = unsealKey) {calls : List SealCall}
    (guarded : AllSteps (step digest) NoneWaiting (new unsealKey) calls) :
    FreshAuthority digest unsealKey calls where
  lifted before after last made isSealed lifted := by
    obtain ⟨rest, rfl⟩ := made
    have none : (reached digest unsealKey before).pending.size = 0 := by
      rw [List.append_assoc] at guarded
      exact (AllSteps.append.mp guarded).2.1
    have within : Within (submitted after)
        (reached digest unsealKey (before ++ .seal :: after)) := by
      rw [reached, run_append, run_cons]
      exact @within_run digest (reached digest unsealKey before).seal none after
    refine authorised_of_lifted unforged (ordered_reached digest unsealKey _) within isSealed ?_
    rw [reached, ← List.cons_append, ← List.append_assoc, run_append] at lifted
    exact lifted
  below made _ := (ordered_reached digest unsealKey made).below

/-! ### Sample runs -/

def sampleKey : Bytes := List.replicate 32 5

/-- Two shares of the key, of a split with a threshold of two. -/
def firstShare : Bytes := 1 :: List.replicate 32 4

def secondShare : Bytes := 2 :: List.replicate 32 7

def sampleDraw : ShareDraw := ⟨{}, {}, .sorted, .sorted, .sorted⟩

/-- Both shares are handed in after each seal. -/
def orderlyCalls : List SealCall :=
  [.setUnsealThreshold 2, .submitShare firstShare sampleDraw, .submitShare secondShare sampleDraw,
    .seal, .submitShare secondShare sampleDraw, .submitShare firstShare sampleDraw]

/-- One share is handed in before the seal, and one after it. -/
def straddlingCalls : List SealCall :=
  [.setUnsealThreshold 2, .submitShare firstShare sampleDraw, .seal,
    .submitShare secondShare sampleDraw]

theorem fresh_authority_orderlyCalls : FreshAuthority id sampleKey orderlyCalls :=
  fresh_authority id (fun _ same => same) (by decide +kernel)

/-- The share from before the seal counts. -/
theorem seal_lifted_by_one_share : ¬ FreshAuthority id sampleKey straddlingCalls := by
  intro fresh
  have authorised := fresh.lifted [.setUnsealThreshold 2, .submitShare firstShare sampleDraw] []
    (.submitShare secondShare sampleDraw) (List.prefix_refl _) (by decide +kernel)
    (by decide +kernel)
  obtain ⟨_, _, isUnseal⟩ | ⟨-, range, shares, listed, distinct, enough, -⟩ := authorised
  · cases isUnseal
  · have threshold : (reached id sampleKey ([.setUnsealThreshold 2,
        .submitShare firstShare sampleDraw] ++ [.seal])).threshold = 2 := by decide +kernel
    rw [threshold] at enough
    match shares, enough with
    | first :: second :: rest, _ =>
      have isSecond := List.mem_singleton.mp (listed first List.mem_cons_self)
      have isSecond' := List.mem_singleton.mp
        (listed second (List.mem_cons_of_mem _ List.mem_cons_self))
      rw [isSecond, isSecond'] at distinct
      simp at distinct

end Runs

end SealState

end KnxVault.App
