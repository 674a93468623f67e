import KnxVault.Raft.Store
import KnxVault.Std.Concurrent

/-!
# The audit service

`Record`, `Export` and `Verify` of `internal/audit/service.go`, with the redaction
of details in `redact.go`. An entry is built over the last hash in one call of the
repository and appended in another; the replicated repository sends it as JSON and
computes the hash again when it appends (`internal/raft/handlers.go`). Forwarding is
left out.
-/

namespace KnxVault.Audit

open KnxVault.Std KnxVault.Domain KnxVault.Repository

/-! ### Redaction -/

def sensitiveDetailKeys : List String :=
  ["password", "passwd", "secret", "token", "client_token", "jwt", "access_token",
    "refresh_token", "api_key", "apikey", "credential", "credentials", "private_key",
    "private_key_pem", "tls_key", "access_key", "secret_key", "secret_id", "unseal_key",
    "master_key", "connection_url", "connection_string", "database_url", "dsn"]

def isSensitiveKey (lib : Library) (key : String) : Bool :=
  String.ofList ((trimSpace key).toList.map lib.toLower) ∈ sensitiveDetailKeys

/-- A text such as a URL with a user and a password. -/
def looksLikeEmbeddedCredentials (value : String) : Bool :=
  let trimmed := trimSpace value
  containsText trimmed "://" && containsText trimmed "@" && containsText trimmed ":" &&
    2 ≤ (trimmed.toList.takeWhile (· ≠ '@')).count ':'

def redacted : Value := .string "[REDACTED]"

mutual

def sanitizeValue (lib : Library) : Value → Value
  | .object fields => .object (sanitizeMap lib fields)
  | .array items => .array (sanitizeItems lib items)
  | .string text => if looksLikeEmbeddedCredentials text then redacted else .string text
  | .null => .null
  | .bool flag => .bool flag
  | .number text => .number text

def sanitizeMap (lib : Library) : List (String × Value) → List (String × Value)
  | [] => []
  | (key, value) :: rest =>
    (key, if isSensitiveKey lib key then redacted else sanitizeValue lib value) ::
      sanitizeMap lib rest

def sanitizeItems (lib : Library) : List Value → List Value
  | [] => []
  | item :: rest => sanitizeValue lib item :: sanitizeItems lib rest

end

def sanitizeDetails (lib : Library) (details : Fields) : Fields :=
  details.map fun key value =>
    if isSensitiveKey lib key then redacted else sanitizeValue lib value

/-! ### Signatures -/

/-- HMAC with SHA-256 in hexadecimal. -/
structure Mac where
  hex : Bytes → String → String
  hex_ne : ∀ key text, hex key text ≠ ""

/-- A code to run the model with. -/
def Mac.sample : Mac where
  hex _ text := "~" ++ text
  hex_ne _ text := by simp

def signEntry (mac : Mac) (key : Bytes) (entryHash : String) : String := mac.hex key entryHash

def signHead (lib : Library) (mac : Mac) (key : Bytes) (headHash : String) (signedAt : Time) :
    String :=
  mac.hex key (headHash ++ "|" ++ lib.formatRFC3339Nano signedAt)

/-! ### Recording -/

/-- The details that have a field of their own. -/
def applyAuthFields (entry : Entry) (details : Fields) : Entry :=
  let field := fun key old => (textField details key).getD old
  { entry with
    authMethod := field "auth_method" entry.authMethod
    sourceIP := field "source_ip" entry.sourceIP
    clientIdentity := field "client_identity" entry.clientIdentity
    failureReason := field "failure_reason" entry.failureReason
    requestID := field "request_id" entry.requestID
    entryNamespace := field "namespace" entry.entryNamespace }

/-- What is recorded. -/
structure Occurrence where
  actor : String
  action : String
  resource : String
  status : String
  details : Fields := ∅

/-- The entry as it is sent to the repository, over the hash that was read. -/
def newEntry (lib : Library) (mac : Mac) (signingKey : Bytes) (prevHash : String) (now : Time)
    (occurrence : Occurrence) : Entry :=
  let safeDetails := sanitizeDetails lib occurrence.details
  let hash := computeHash lib prevHash occurrence.actor occurrence.action occurrence.resource
    occurrence.status safeDetails now
  let entry := applyAuthFields {
    timestamp := now
    actor := occurrence.actor
    action := occurrence.action
    resource := occurrence.resource
    status := occurrence.status
    details := safeDetails
    hash } safeDetails
  if signingKey = [] then entry else { entry with signature := signEntry mac signingKey hash }

inductive AuditOp where
  | latestHash
  | now
  /-- The repository gets the entry; `parent` is the hash it was built over. -/
  | append (entry : Entry) (parent : String)

abbrev AuditOp.Answer : AuditOp → Type
  | latestHash => String
  | now => Time
  | append _ _ => Except KNXVaultError Unit

/-- The entry with a time, and with the hash over the last one in the log. -/
def stamped (lib : Library) (clock : Time) (repo : AuditRepository) (entry : Entry) : Entry :=
  let timestamp := if entry.timestamp.isZero then clock.utc else entry.timestamp
  { entry with
    timestamp
    hash := entryHash lib repo.latestHash entry.actor entry.action entry.resource entry.status
      entry.details timestamp }

/-- What decoding gives back of an encoded text and of encoded details: bytes that are
not UTF-8 and numbers that no double has are replaced. Times and hexadecimal texts come
back as they are. -/
structure Coding where
  text : String → String
  details : Fields → Fields
  text_filled : ∀ written, written ≠ "" → text written ≠ ""
  text_text : ∀ written, text (text written) = text written
  details_details : ∀ written, details (details written) = details written

/-- The entry that is decoded from the JSON text of an entry. -/
def Coding.entry (coding : Coding) (entry : Entry) : Entry :=
  { entry with
    actor := coding.text entry.actor
    action := coding.text entry.action
    resource := coding.text entry.resource
    status := coding.text entry.status
    details := coding.details entry.details
    authMethod := coding.text entry.authMethod
    sourceIP := coding.text entry.sourceIP
    clientIdentity := coding.text entry.clientIdentity
    failureReason := coding.text entry.failureReason
    requestID := coding.text entry.requestID
    entryNamespace := coding.text entry.entryNamespace }

/-- Which repository keeps the log. -/
inductive Backend where
  | memory
  | replicated (coding : Coding)

def Backend.appended (backend : Backend) (lib : Library) (clock : Time) (repo : AuditRepository)
    (entry : Entry) : Entry :=
  match backend with
  | memory => entry
  | replicated coding => stamped lib clock repo (coding.entry entry)

/-- An entry as the repository lists it. -/
def Backend.listed (backend : Backend) (entry : Entry) : Entry :=
  match backend with
  | memory => entry
  | replicated coding => coding.entry entry

def AuditOp.exec (lib : Library) (backend : Backend) (clock : Time) :
    (op : AuditOp) → AuditRepository → op.Answer × AuditRepository
  | latestHash, repo => (repo.latestHash, repo)
  | now, repo => (clock, repo)
  | append entry _, repo =>
    attempt ((repo.append (backend.appended lib clock repo entry)).map Prod.fst) repo

abbrev AuditProgram := Program AuditOp AuditOp.Answer

def record (lib : Library) (mac : Mac) (signingKey : Bytes) (occurrence : Occurrence) :
    AuditProgram (Except KNXVaultError Unit) := do
  let prevHash ← Program.perform AuditOp.latestHash
  let clock ← Program.perform AuditOp.now
  let entry := newEntry lib mac signingKey prevHash clock.utc occurrence
  Program.perform (AuditOp.append entry prevHash)

/-! ### Verification -/

structure ExportResult where
  entries : List Entry
  headHash : String
  signature : String
  signedAt : Time

/-- `none` where the listing panics. -/
def exportEntries (lib : Library) (mac : Mac) (signingKey : Bytes) (backend : Backend)
    (clock : Time) (repo : AuditRepository) (opts : AuditListOptions) : Option ExportResult := do
  let entries ← repo.list { opts with orderAsc := true }
  let headHash := repo.latestHash
  let signedAt := clock.utc
  let signature :=
    if signingKey ≠ [] ∧ headHash ≠ "" then signHead lib mac signingKey headHash signedAt else ""
  pure { entries := entries.map backend.listed, headHash, signature, signedAt }

structure VerifyResult where
  valid : Bool
  headHash : String
  signature : String := ""
  message : String := ""
deriving DecidableEq, Repr

/-- Walk the entries from the hash before them to the last hash. -/
def verifyEntries (lib : Library) (mac : Mac) (signingKey : Bytes) :
    String → List Entry → Except VerifyResult String
  | prevHash, [] => .ok prevHash
  | prevHash, entry :: rest =>
    let refuse := fun reason : String => Except.error {
      valid := false, headHash := entry.hash
      message := reason ++ " at entry id " ++ toString entry.id }
    if entry.hash ≠ computeHash lib prevHash entry.actor entry.action entry.resource entry.status
        entry.details entry.timestamp then refuse "hash mismatch"
    else if signingKey ≠ [] ∧ entry.signature = "" then refuse "missing signature"
    else if signingKey ≠ [] ∧ entry.signature ≠ signEntry mac signingKey entry.hash then
      refuse "signature mismatch"
    else verifyEntries lib mac signingKey entry.hash rest

def verify (lib : Library) (mac : Mac) (signingKey : Bytes) (backend : Backend)
    (repo : AuditRepository) (signature : String) (signedAt : Time) : Option VerifyResult := do
  let entries ← repo.list { orderAsc := true, limit := 1000000 }
  match verifyEntries lib mac signingKey "" (entries.map backend.listed) with
  | .error result => pure result
  | .ok prevHash =>
    let headHash := repo.latestHash
    if headHash ≠ prevHash then
      pure { valid := false, headHash, message := "head hash does not match recomputed chain" }
    else if signingKey = [] then pure { valid := true, headHash }
    else if signature = "" then
      pure {
        valid := false, headHash
        message := "signature required when signing key is configured" }
    else if signature ≠ signHead lib mac signingKey headHash signedAt then
      pure { valid := false, headHash, signature, message := "signature mismatch" }
    else pure { valid := true, headHash, signature }

end KnxVault.Audit
