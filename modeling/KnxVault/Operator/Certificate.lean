import KnxVault.Repository.Audit

/-!
# The operator's certificates

`internal/operator`: the decisions of `certlogic` and `renew` on a certificate resource,
when to issue and when to look again. How the standard library reads and writes durations
and times is an input.
-/

namespace KnxVault.Operator

open KnxVault.Std KnxVault.Domain KnxVault.Repository

/-- The durations and times of the standard library. -/
structure Formats where
  parseDuration : String → Except String Int
  rfc3339 : Time → String
  filled : ∀ time, rfc3339 time ≠ ""
  parseRFC3339 : String → Option Time
  parseRFC3339Nano : String → Option Time

/-! ### When to renew -/

abbrev nanosecondsPerHour : Int := 3600 * nanosecondsPerSecond

def defaultDuration : Int := 90 * 24 * nanosecondsPerHour

def defaultRenewBefore : Int := 30 * 24 * nanosecondsPerHour

namespace Formats

variable (formats : Formats)

def durationOr (text : String) (default : Int) : Except String Int :=
  if text = "" then .ok default else formats.parseDuration text

def parseNotAfter (notAfter : String) : Option Time :=
  formats.parseRFC3339 notAfter <|> formats.parseRFC3339Nano notAfter

def needsRenew (notAfter : String) (renewBefore : Int) (now : Time) : Bool :=
  if notAfter = "" then true
  else match formats.parseNotAfter notAfter with
    | none => true
    | some time => !now.before (time.add (wrap64 (-renewBefore)))

/-- How long to wait before the next check, at most a day. -/
def requeueAfter (notAfter : String) (renewBefore : Int) (now : Time) : Int :=
  if notAfter = "" then 0
  else match formats.parseNotAfter notAfter with
    | none => 60 * nanosecondsPerSecond
    | some time =>
      let wait := (time.add (wrap64 (-renewBefore))).instant - now.instant
      if wait < 0 then 0 else min wait (24 * nanosecondsPerHour)

end Formats

def isClientUsage (usages : List String) : Bool :=
  usages.any (· ∈ ["client auth", "client", "ClientAuth", "clientAuth"])

/-! ### Decisions -/

def deliverySecret : String := "Secret"

structure SpecView where
  commonName : String
  secretName : String
  delivery : String := ""
  duration : String := ""
  renewBefore : String := ""
  usages : List String := []
  keyBits : Int := 0
  statusNotAfter : String := ""
  secretExists : Bool := false

structure Decision where
  delivery : String
  ttl : String
  renewBefore : Int
  needIssue : Bool
  clientUsage : Bool
  keyBits : Int
  requeueAfter : Int
  nextRenew : Time

/-- Where the certificate goes, by default to a Secret. -/
def SpecView.deliveryMode (view : SpecView) : String :=
  if view.delivery = "" then deliverySecret else view.delivery

/-- Check the resource and decide whether to issue; the error is the message. -/
def validateAndDecide (formats : Formats) (view : SpecView) (now : Time) :
    Except String Decision := do
  if view.commonName = "" then .error "commonName is required"
  else if view.deliveryMode = deliverySecret ∧ view.secretName = "" then
    .error "secretName required for Delivery=Secret"
  else
    let renewBefore ← (formats.durationOr view.renewBefore defaultRenewBefore).mapError
      ("invalid renewBefore: " ++ ·)
    let duration ← (formats.durationOr view.duration defaultDuration).mapError
      ("invalid duration: " ++ ·)
    let need := formats.needsRenew view.statusNotAfter renewBefore now ||
      (view.deliveryMode = deliverySecret && !view.secretExists)
    let requeueAfter :=
      if need then 0 else formats.requeueAfter view.statusNotAfter renewBefore now
    pure {
      delivery := view.deliveryMode, renewBefore, needIssue := need
      clientUsage := isClientUsage view.usages
      ttl := if view.duration = "" then toString (duration.tdiv nanosecondsPerHour) ++ "h"
        else view.duration
      keyBits := view.keyBits, requeueAfter
      nextRenew := if need then {} else now.add requeueAfter }

end KnxVault.Operator
