import KnxVault.Operator.Certificate
import KnxVault.Std.Rfc3339

/-!
# Issuance settles

What `ValidateAndDecide` says of a resource right after its certificate was issued with the
lifetime it has decided on. The lifetime and the window for the renewal are read from the
spec one by one and not compared, and the expiry is written in whole seconds.
-/

namespace KnxVault.Operator

open KnxVault.Std KnxVault.Domain KnxVault.Repository

/-- The years 1 to 9999, which a certificate and RFC 3339 can express. -/
def Writable (time : Time) : Prop :=
  0 ≤ time.instant ∧ time.instant < 315537897600 * nanosecondsPerSecond

instance : DecidablePred Writable := fun time =>
  inferInstanceAs (Decidable (0 ≤ time.instant ∧ _))

/-- The instant without its fraction of a second. -/
def wholeSeconds (instant : Int) : Int := instant - instant % nanosecondsPerSecond

/-- How the standard library reads durations, and times it has written. -/
structure TextLaws (formats : Formats) : Prop where
  fits : ∀ {text duration}, formats.parseDuration text = .ok duration →
    -2 ^ 63 ≤ duration ∧ duration < 2 ^ 63
  hours : formats.parseDuration "2160h" = .ok defaultDuration
  times : ∀ time, Writable time → (formats.parseRFC3339 (formats.rfc3339 time.utc)).map
    Time.instant = some (wholeSeconds time.instant)

namespace SpecView

variable (view : SpecView)

/-- The view of the resource at the next reconciliation: the certificate is recorded and the
Secret is written. -/
def afterIssue (notAfter : String) : SpecView :=
  { view with statusNotAfter := notAfter, secretExists := true }

/-- The view from which `Reconcile` decides when to come back after it has issued. -/
def recheck (notAfter : String) : SpecView where
  commonName := view.commonName
  secretName := view.secretName
  statusNotAfter := notAfter
  renewBefore := view.renewBefore
  duration := view.duration
  secretExists := true

end SpecView

/-- Nothing is to be issued, and the next check is later, but not too late to renew. -/
def Settles (formats : Formats) (view : SpecView) (now : Time) (expiry renewBefore : Int) : Prop :=
  ∃ next, validateAndDecide formats view now = .ok next ∧ next.needIssue = false ∧
    0 < next.requeueAfter ∧ now.instant + next.requeueAfter ≤ expiry - renewBefore

/-- The window for the renewal is shorter than what the written lifetime leaves of it. -/
def WindowFits (now : Time) (expiry renewBefore : Int) : Prop :=
  -2 ^ 63 < renewBefore ∧ renewBefore < expiry - now.instant

instance (now : Time) (expiry renewBefore : Int) :
    Decidable (WindowFits now expiry renewBefore) :=
  inferInstanceAs (Decidable (-2 ^ 63 < renewBefore ∧ _))

variable {formats : Formats} {view : SpecView} {now : Time}

/-- What is accepted has a name, a place to go and two durations that can be read. -/
theorem reads_of_validateAndDecide {dec : Decision}
    (decided : validateAndDecide formats view now = .ok dec) :
    view.commonName ≠ "" ∧ ¬ (view.deliveryMode = deliverySecret ∧ view.secretName = "") ∧
      ∃ renewBefore duration,
        formats.durationOr view.renewBefore defaultRenewBefore = .ok renewBefore ∧
        formats.durationOr view.duration defaultDuration = .ok duration ∧
        dec.ttl = if view.duration = "" then toString (duration.tdiv nanosecondsPerHour) ++ "h"
          else view.duration := by
  unfold validateAndDecide at decided
  split at decided
  · cases decided
  rename_i named
  split at decided
  · cases decided
  rename_i placed
  obtain ⟨renewBefore, before, decided⟩ := bind_eq_ok decided
  obtain ⟨duration, lasts, decided⟩ := bind_eq_ok decided
  cases decided
  exact ⟨named, placed, renewBefore, duration, mapError_ok_iff.mp before,
    mapError_ok_iff.mp lasts, rfl⟩

/-- The decision on a resource that is accepted and whose Secret is there. -/
theorem validateAndDecide_eq {renewBefore duration : Int} (named : view.commonName ≠ "")
    (placed : ¬ (view.deliveryMode = deliverySecret ∧ view.secretName = ""))
    (before : formats.durationOr view.renewBefore defaultRenewBefore = .ok renewBefore)
    (lasts : formats.durationOr view.duration defaultDuration = .ok duration)
    (written : view.secretExists = true) :
    ∃ next, validateAndDecide formats view now = .ok next ∧
      next.needIssue = formats.needsRenew view.statusNotAfter renewBefore now ∧
      next.requeueAfter = if formats.needsRenew view.statusNotAfter renewBefore now then 0
        else formats.requeueAfter view.statusNotAfter renewBefore now := by
  unfold validateAndDecide
  rw [if_neg named, if_neg placed, before, lasts]
  refine ⟨_, rfl, ?_⟩
  simp [written]

/-- With a certificate whose expiry can be read, nothing is to be issued before the window. -/
theorem needsRenew_eq {notAfter : String} {time : Time} {renewBefore : Int}
    (filled : notAfter ≠ "") (read : formats.parseNotAfter notAfter = some time) :
    formats.needsRenew notAfter renewBefore now = false ↔
      now.instant < time.instant + wrap64 (-renewBefore) := by
  rw [Formats.needsRenew, if_neg filled, read]
  rw [Bool.not_eq_false']
  exact decide_eq_true_iff

theorem requeueAfter_eq {notAfter : String} {time : Time} {renewBefore : Int}
    (filled : notAfter ≠ "") (read : formats.parseNotAfter notAfter = some time)
    (ahead : now.instant < time.instant + wrap64 (-renewBefore)) :
    formats.requeueAfter notAfter renewBefore now =
      min (time.instant + wrap64 (-renewBefore) - now.instant) (24 * nanosecondsPerHour) := by
  rw [Formats.requeueAfter, if_neg filled, read]
  exact if_neg (by change ¬ time.instant + wrap64 (-renewBefore) - now.instant < 0; omega)

/-- Only the least duration is not negated. -/
theorem wrap64_neg {duration : Int} (fits : -2 ^ 63 ≤ duration ∧ duration < 2 ^ 63) :
    wrap64 (-duration) = if duration = -2 ^ 63 then -2 ^ 63 else -duration := by
  split
  · rename_i least
    rw [least]
    decide
  · rw [wrap64, Int.bmod_def]
    split <;> omega

theorem settles_iff {renewBefore duration : Int} {time : Time} (named : view.commonName ≠ "")
    (placed : ¬ (view.deliveryMode = deliverySecret ∧ view.secretName = ""))
    (before : formats.durationOr view.renewBefore defaultRenewBefore = .ok renewBefore)
    (lasts : formats.durationOr view.duration defaultDuration = .ok duration)
    (written : view.secretExists = true) (filled : view.statusNotAfter ≠ "")
    (read : formats.parseNotAfter view.statusNotAfter = some time)
    (fits : -2 ^ 63 ≤ renewBefore ∧ renewBefore < 2 ^ 63)
    (soon : time.instant < now.instant + 2 ^ 63) :
    Settles formats view now time.instant renewBefore ↔
      WindowFits now time.instant renewBefore := by
  obtain ⟨next, decided, need, requeue⟩ :=
    @validateAndDecide_eq formats view now _ _ named placed before lasts written
  have renew := @needsRenew_eq formats now _ _ renewBefore filled read
  have wait := @requeueAfter_eq formats now _ _ renewBefore filled read
  have negated := wrap64_neg fits
  have window : now.instant < time.instant + wrap64 (-renewBefore) ↔
      WindowFits now time.instant renewBefore := by
    rw [negated, WindowFits]
    split <;> omega
  constructor
  · rintro ⟨_, same, idle, -, -⟩
    rw [decided] at same
    cases same
    rw [need] at idle
    exact window.mp (renew.mp idle)
  · intro fitting
    have ahead := window.mpr fitting
    have idle := renew.mpr ahead
    rw [idle, if_neg Bool.false_ne_true, wait ahead] at requeue
    refine ⟨next, decided, need.trans idle, ?_, ?_⟩
    · rw [requeue]
      exact lt_min (by omega) (by decide)
    · have capped : next.requeueAfter ≤ time.instant + wrap64 (-renewBefore) - now.instant :=
        requeue.trans_le (min_le_left _ _)
      rw [negated, if_neg (by have := fitting.1; omega)] at capped
      omega

theorem wholeSeconds_le (instant : Int) : wholeSeconds instant ≤ instant := by
  have := Int.emod_nonneg instant (by decide : nanosecondsPerSecond ≠ 0)
  unfold wholeSeconds
  omega

/-- The text of the decided lifetime is read as the lifetime. -/
theorem parseDuration_ttl (laws : TextLaws formats) {duration : Int} {ttl : String}
    (lasts : formats.durationOr view.duration defaultDuration = .ok duration)
    (text : ttl = if view.duration = "" then toString (duration.tdiv nanosecondsPerHour) ++ "h"
      else view.duration) : formats.parseDuration ttl = .ok duration := by
  unfold Formats.durationOr at lasts
  split at lasts
  · rename_i empty
    cases lasts
    rw [text, if_pos empty, show toString (defaultDuration.tdiv nanosecondsPerHour) ++ "h" =
      "2160h" by decide]
    exact laws.hours
  · rename_i given
    rw [text, if_neg given]
    exact lasts

/-- Right after a certificate with the decided lifetime is issued and recorded, nothing is to
be issued and the next check comes in time, exactly if the window for the renewal is shorter
than the lifetime as it is written. `Reconcile` sees the same where a Secret is named. -/
theorem issuance_settles_iff (laws : TextLaws formats) {dec : Decision}
    (accepted : validateAndDecide formats view now = .ok dec) :
    ∃ lifetime renewBefore, formats.parseDuration dec.ttl = .ok lifetime ∧
      formats.durationOr view.renewBefore defaultRenewBefore = .ok renewBefore ∧
      (Writable (now.add lifetime) →
        (Settles formats (view.afterIssue (formats.rfc3339 (now.add lifetime).utc)) now
            (wholeSeconds (now.instant + lifetime)) renewBefore ↔
          WindowFits now (wholeSeconds (now.instant + lifetime)) renewBefore) ∧
        (view.secretName ≠ "" →
          (Settles formats (view.recheck (formats.rfc3339 (now.add lifetime).utc)) now
              (wholeSeconds (now.instant + lifetime)) renewBefore ↔
            WindowFits now (wholeSeconds (now.instant + lifetime)) renewBefore))) := by
  obtain ⟨named, placed, renewBefore, lifetime, before, lasts, text⟩ :=
    reads_of_validateAndDecide accepted
  have parsed := parseDuration_ttl laws lasts text
  refine ⟨lifetime, renewBefore, parsed, before, fun writable => ?_⟩
  have fits : -2 ^ 63 ≤ renewBefore ∧ renewBefore < 2 ^ 63 := by
    unfold Formats.durationOr at before
    split at before
    · cases before
      decide
    · exact laws.fits before
  obtain ⟨time, found, instant⟩ := Option.map_eq_some_iff.mp
    (laws.times (now.add lifetime) writable)
  have read : formats.parseNotAfter (formats.rfc3339 (now.add lifetime).utc) = some time := by
    rw [Formats.parseNotAfter, found]
    rfl
  have soon : time.instant < now.instant + 2 ^ 63 := by
    have floor := wholeSeconds_le (now.instant + lifetime)
    have short := (laws.fits parsed).2
    have written : time.instant = wholeSeconds (now.instant + lifetime) := instant
    omega
  have expiry : wholeSeconds (now.instant + lifetime) = time.instant := instant.symm
  rw [expiry]
  refine ⟨settles_iff named placed before lasts rfl (formats.filled _) read fits soon, ?_⟩
  intro secretNamed
  exact settles_iff named (fun unplaced => secretNamed unplaced.2) before lasts rfl
    (formats.filled _) read fits soon

/-! ### Samples -/

section Samples

/-- Times are written in UTC without a fraction, and durations of some hours are read. -/
def secondFormats : Formats where
  parseDuration text :=
    match [1, 24, 48, 2160].find? fun hours : Int => text = toString hours ++ "h" with
    | some hours => .ok (hours * nanosecondsPerHour)
    | none => .error "invalid duration"
  rfc3339 time := rfc3339 (time.instant / nanosecondsPerSecond).toNat
  filled _ := rfc3339_ne_empty _
  parseRFC3339 text := (parseRFC3339 text).map fun second : Nat =>
    ⟨second * nanosecondsPerSecond, 0⟩
  parseRFC3339Nano _ := none

theorem textLaws_secondFormats : TextLaws secondFormats where
  fits {text duration} read := by
    change (match [1, 24, 48, 2160].find? fun hours : Int => text = toString hours ++ "h" with
      | some hours => .ok (hours * nanosecondsPerHour)
      | none => .error "invalid duration" : Except String Int) = _ at read
    split at read
    · rename_i hours listed
      cases read
      have small : ∀ hours ∈ ([1, 24, 48, 2160] : List Int),
          -2 ^ 63 ≤ hours * nanosecondsPerHour ∧ hours * nanosecondsPerHour < 2 ^ 63 := by
        decide
      exact small hours (List.mem_of_find?_eq_some listed)
    · cases read
  hours := by decide
  times time writable := by
    obtain ⟨nonneg, small⟩ := writable
    have early : (time.instant / nanosecondsPerSecond).toNat < 315537897600 := by
      unfold nanosecondsPerSecond at small ⊢
      omega
    have read : secondFormats.parseRFC3339 (secondFormats.rfc3339 time.utc) =
        some ⟨(time.instant / nanosecondsPerSecond).toNat * nanosecondsPerSecond, 0⟩ := by
      dsimp only [secondFormats, Time.utc]
      rw [parseRFC3339_rfc3339 early, Option.map_some]
    rw [read, Option.map_some, Option.some.injEq, wholeSeconds]
    dsimp only [nanosecondsPerSecond]
    omega

def webView (duration renewBefore : String) : SpecView :=
  { commonName := "web", secretName := "tls", duration, renewBefore }

def noon : Time := ⟨63000000000 * nanosecondsPerSecond + 5, 0⟩

/-- A certificate for a day that is renewed in its last hour. -/
theorem issuance_settles_day :
    Settles secondFormats ((webView "24h" "1h").afterIssue
        (secondFormats.rfc3339 (noon.add (24 * nanosecondsPerHour)).utc))
      noon (wholeSeconds (noon.instant + 24 * nanosecondsPerHour)) nanosecondsPerHour := by
  obtain ⟨lifetime, renewBefore, lasts, before, settles⟩ :=
    @issuance_settles_iff secondFormats (webView "24h" "1h") noon textLaws_secondFormats _ rfl
  obtain rfl : 24 * nanosecondsPerHour = lifetime := Except.ok.inj lasts
  obtain rfl : 1 * nanosecondsPerHour = renewBefore := Except.ok.inj before
  exact (settles (by decide)).1.mpr (by decide)

/-- A certificate whose window is as long as its life is issued again at once. -/
theorem issued_again_at_once :
    ∃ dec next, validateAndDecide secondFormats (webView "24h" "48h") noon = .ok dec ∧
      secondFormats.parseDuration dec.ttl = .ok (24 * nanosecondsPerHour) ∧
      validateAndDecide secondFormats ((webView "24h" "48h").afterIssue
        (secondFormats.rfc3339 (noon.add (24 * nanosecondsPerHour)).utc)) noon = .ok next ∧
      next.needIssue = true ∧ next.requeueAfter = 0 := by
  refine ⟨_, _, rfl, by decide, rfl, by decide, by decide⟩

end Samples

end KnxVault.Operator
