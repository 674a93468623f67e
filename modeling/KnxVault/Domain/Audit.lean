import KnxVault.Domain.Common

/-!
# Audit entries and their hash chain

`Entry` follows `internal/domain/audit`, the hashes `internal/audit`. Each hash
covers the hash before it, so the entries form a chain that starts from the
empty text.
-/

namespace KnxVault.Domain

open KnxVault.Std

structure Entry where
  id : Int := 0
  timestamp : Time := {}
  actor : String := ""
  action : String
  resource : String := ""
  status : String
  details : Fields := ∅
  hash : String := ""
  signature : String := ""
  authMethod : String := ""
  sourceIP : String := ""
  clientIdentity : String := ""
  failureReason : String := ""
  requestID : String := ""
  entryNamespace : String := ""

def Entry.validate (entry : Entry) : Except String Unit :=
  if entry.action = "" then .error "audit action is required"
  else if entry.status = "" then .error "audit status is required"
  else .ok ()

/-- The part of an entry that backups keep and hashes cover. -/
structure AuditRecord where
  timestamp : Time
  actor : String
  action : String
  resource : String
  status : String
  details : Fields
  hash : String

def computeHash (lib : Library) (prevHash actor action resource status : String)
    (details : Fields) (timestamp : Time) : String :=
  lib.sha256Hex ("|".intercalate [prevHash, lib.formatRFC3339Nano timestamp, actor, action,
    resource, status, lib.marshalFields details])

def entryHash (lib : Library) (prevHash actor action resource status : String)
    (details : Fields) (timestamp : Time) : String :=
  computeHash lib prevHash actor action resource status details timestamp

/-- Check the hashes of records in order, from the one at `index` on. -/
def validateRecordChain (lib : Library) (prevHash : String) (index : Nat) :
    List AuditRecord → Except String Unit
  | [] => .ok ()
  | record :: rest =>
    if record.hash ≠ entryHash lib prevHash record.actor record.action record.resource
        record.status record.details record.timestamp then
      .error ("audit record " ++ toString index ++ " hash mismatch")
    else validateRecordChain lib record.hash (index + 1) rest

/-- Records whose hashes each cover the one before. -/
def Chained (lib : Library) : String → List AuditRecord → Prop
  | _, [] => True
  | prevHash, record :: rest =>
    record.hash = entryHash lib prevHash record.actor record.action record.resource
      record.status record.details record.timestamp ∧ Chained lib record.hash rest

theorem validateRecordChain_ok_iff {lib : Library} {prevHash : String} {index : Nat}
    {records : List AuditRecord} :
    validateRecordChain lib prevHash index records = .ok () ↔ Chained lib prevHash records := by
  induction records generalizing prevHash index with
  | nil => simp [validateRecordChain, Chained]
  | cons record rest ih =>
    unfold validateRecordChain Chained
    split
    · simp_all
    · rename_i same
      rw [ih]
      simp only [ne_eq, not_not] at same
      simp [same]

end KnxVault.Domain
