import KnxVault.Domain.Secrets

/-!
# Database roles

`DatabaseRole.validate` follows `database_role.go` and `database_role_config.go`.
The configuration check loops over maps, so which error it reports depends on the
visiting order; whether it reports one does not.
-/

namespace KnxVault.Domain

open KnxVault.Std

def executionModeClient : String := "client"

def executionModeManaged : String := "managed"

def bannedConfigKeys : List String :=
  ["password", "passwd", "secret", "token", "api_key", "apikey", "credential", "credentials",
   "connection_url", "connection_string", "connectionuri", "database_url", "dsn", "uri", "url",
   "private_key", "access_key", "secret_key", "admin_password", "admin_credentials",
   "admin_credentials_path"]

def isLetter (char : Char) : Bool :=
  ('a' ≤ char && char ≤ 'z') || ('A' ≤ char && char ≤ 'Z')

def isLetterOrDigit (char : Char) : Bool :=
  isLetter char || ('0' ≤ char && char ≤ '9')

/-- The white space class of regular expressions. -/
def isPatternSpace (char : Char) : Bool :=
  char.toNat ∈ [0x9, 0xa, 0xc, 0xd, 0x20]

/-- A nonempty run of characters, and what follows it. -/
def takeRun (accepts : Char → Bool) (text : List Char) : Option (List Char) :=
  match text.takeWhile accepts with
  | [] => none
  | _ => some (text.dropWhile accepts)

/-- The pattern of a URL with a user and a password. No part of it can take the
character that ends it, so each part is the longest run. -/
def embeddedCreds (text : List Char) : Bool :=
  match text with
  | [] => false
  | first :: rest =>
    isLetter first &&
    match rest.dropWhile fun char => isLetterOrDigit char || char ∈ ['+', '.', '-'] with
    | ':' :: '/' :: '/' :: authority =>
      match takeRun (fun char => char ≠ ':' && char ≠ '@' && !isPatternSpace char) authority with
      | some (':' :: password) =>
        match takeRun (fun char => char ≠ '@' && !isPatternSpace char) password with
        | some ('@' :: _) => true
        | _ => false
      | _ => false
    | _ => false

def validateConfigKey (lib : Library) (path key : String) : Option String :=
  if String.ofList ((trimSpace key).toList.map lib.toLower) ∈ bannedConfigKeys then
    some (path ++ ": key " ++ quoted key ++ " is not allowed in database role config; " ++
      "store credentials in KV and reference via admin_credentials_path")
  else none

def validateConfigString (lib : Library) (path value : String) : Option String :=
  let trimmed := trimSpace value
  if trimmed = "" then none
  else if embeddedCreds trimmed.toList then
    some (path ++ ": value resembles a connection string with embedded credentials")
  else if lib.urlHasPassword trimmed then
    some (path ++ ": URL contains embedded credentials")
  else none

mutual

/-- The error a value is rejected with, if any. -/
def validateConfigValue (lib : Library) (range : MapRange) (path : String) :
    Value → Option String
  | .object fields => (range.order (validateConfigFields lib range path fields)).findSome? id
  | .array items => validateConfigItems lib range path 0 items
  | .string text => validateConfigString lib path text
  | _ => none

/-- What the loop over an object finds at each field. -/
def validateConfigFields (lib : Library) (range : MapRange) (path : String) :
    List (String × Value) → List (Option String)
  | [] => []
  | (key, nested) :: rest =>
    (validateConfigKey lib path key <|>
      validateConfigValue lib range (path ++ "." ++ key) nested) ::
      validateConfigFields lib range path rest

def validateConfigItems (lib : Library) (range : MapRange) (path : String) (index : Nat) :
    List Value → Option String
  | [] => none
  | item :: rest =>
    validateConfigValue lib range (path ++ "[" ++ toString index ++ "]") item <|>
      validateConfigItems lib range path (index + 1) rest

end

def validateDatabaseRoleConfig (lib : Library) (range : MapRange) (config : Fields) :
    Option String :=
  validateConfigValue lib range "config" (.object config.toList)

def validateExecutionMode (mode : String) : Option String :=
  if mode = executionModeClient ∨ mode = executionModeManaged then none
  else some ("unsupported execution mode " ++ quoted mode ++
    " (use " ++ quoted executionModeClient ++ ")")

/-- A letter or digit, then letters, digits, slashes, underscores and dashes. -/
def isKVPath : List Char → Bool
  | [] => false
  | first :: rest =>
    isLetterOrDigit first && rest.all fun char => isLetterOrDigit char || char ∈ ['/', '_', '-']

def validateAdminCredentialsPath (path : String) : Option String :=
  let trimmed := trimSpace path
  if trimmed = "" then none
  else if containsText trimmed ".." || hasPrefix trimmed "/" then
    some "admin_credentials_path must be a relative KV path without .. segments"
  else if !isKVPath trimmed.toList then
    some ("admin_credentials_path " ++ quoted trimmed ++ " has invalid characters")
  else none

/-! ### Acceptance does not depend on the visiting order -/

theorem findSome?_order (range : MapRange) (found : List (Option String)) :
    (range.order found).findSome? id = none ↔ ∀ error ∈ found, error = none := by
  simp [List.findSome?_eq_none_iff]

mutual

theorem validateConfigValue_range (lib : Library) (range other : MapRange) (path : String) :
    (value : Value) → (validateConfigValue lib range path value = none ↔
      validateConfigValue lib other path value = none)
  | .object fields => by
    simp only [validateConfigValue, findSome?_order]
    exact validateConfigFields_range lib range other path fields
  | .array items => by
    simp only [validateConfigValue]
    exact validateConfigItems_range lib range other path 0 items
  | .string _ | .null | .bool _ | .number _ => by simp only [validateConfigValue]

theorem validateConfigFields_range (lib : Library) (range other : MapRange) (path : String) :
    (fields : List (String × Value)) →
      ((∀ error ∈ validateConfigFields lib range path fields, error = none) ↔
        ∀ error ∈ validateConfigFields lib other path fields, error = none)
  | [] => by simp only [validateConfigFields]
  | (key, nested) :: rest => by
    have value := validateConfigValue_range lib range other (path ++ "." ++ key) nested
    have fields := validateConfigFields_range lib range other path rest
    simp only [validateConfigFields, List.forall_mem_cons, Option.orElse_eq_orElse,
      Option.orElse_eq_or, Option.or_eq_none_iff, value, fields]

theorem validateConfigItems_range (lib : Library) (range other : MapRange) (path : String)
    (index : Nat) : (items : List Value) →
      (validateConfigItems lib range path index items = none ↔
        validateConfigItems lib other path index items = none)
  | [] => by simp only [validateConfigItems]
  | item :: rest => by
    have value := validateConfigValue_range lib range other
      (path ++ "[" ++ toString index ++ "]") item
    have items := validateConfigItems_range lib range other path (index + 1) rest
    simp only [validateConfigItems, Option.orElse_eq_orElse, Option.orElse_eq_or,
      Option.or_eq_none_iff, value, items]

end

/-! ### Roles -/

structure DatabaseRole where
  name : String
  ttlSeconds : Int := 0
  defaultTTL : Int := 0
  maxTTL : Int := 0
  period : Int := 0
  renewable : Bool := false
  maxLeases : Int := 0
  usernamePrefix : String
  defaultUsername : String := ""
  creationStatements : List String := []
  revocationStatements : List String := []
  executionMode : String := ""
  adminCredentialsPath : String := ""
  config : Fields := ∅
  createdAt : Time := {}
  updatedAt : Time := {}

namespace DatabaseRole

/-- The lease times: the default from the plain one, the maximum from the
default, and the plain one from the default. -/
def normalizeLeaseTuning (role : DatabaseRole) : DatabaseRole :=
  let defaultTTL := orDefault role.defaultTTL role.ttlSeconds
  { role with
    defaultTTL
    maxTTL := orDefault role.maxTTL defaultTTL
    ttlSeconds := orDefault role.ttlSeconds defaultTTL }

/-- The execution mode; a blank one means the client's. -/
def normalizeMode (mode : String) : String :=
  if trimSpace mode = "" then executionModeClient else mode

def normalize (role : DatabaseRole) : DatabaseRole :=
  normalizeLeaseTuning { role with
    executionMode := normalizeMode role.executionMode
    adminCredentialsPath := trimSpace role.adminCredentialsPath }

/-- Whether the configuration asks for unrestricted statements. -/
def sqlNotStrict (config : Fields) : Bool :=
  match config["sql_strict"]? with
  | some (.bool strict) => !strict
  | some (.string text) => text = "false" || text = "0"
  | _ => false

/-- The error of a check, if any, becomes the result. -/
def failing : Option String → Except String Unit
  | some error => .error error
  | none => .ok ()

/-- The checks of the managed execution mode. -/
def checkManaged (lib : Library) (role : DatabaseRole) : Except String Unit :=
  if role.adminCredentialsPath = "" then
    .error "admin_credentials_path is required for managed execution mode"
  else if role.creationStatements = [] then
    .error "creation_statements are required for managed execution mode"
  else if sqlNotStrict role.config then
    .error "sql_strict=false is not allowed; managed roles must use template-only SQL"
  else match validateManagedSQLStatements lib 0 role.creationStatements with
  | .error err => .error ("creation_statements: " ++ err)
  | .ok _ =>
    match validateManagedSQLStatements lib 0 role.revocationStatements with
    | .error err => .error ("revocation_statements: " ++ err)
    | .ok _ => .ok ()

/-- The checks after the defaults are set. -/
def check (lib : Library) (range : MapRange) (role : DatabaseRole) : Except String Unit := do
  if role.name = "" then .error "database role name is required"
  else if role.ttlSeconds ≤ 0 then .error "database role ttl must be positive"
  else if role.usernamePrefix = "" then .error "database role username prefix is required"
  else
    failing (validateExecutionMode role.executionMode)
    failing (validateAdminCredentialsPath role.adminCredentialsPath)
    failing (validateDatabaseRoleConfig lib range role.config)
    if role.executionMode = executionModeManaged then checkManaged lib role else .ok ()

def validate (lib : Library) (range : MapRange) (role : DatabaseRole) : Except String Unit :=
  role.normalize.check lib range

theorem normalizeMode_normalizeMode (mode : String) :
    normalizeMode (normalizeMode mode) = normalizeMode mode := by
  unfold normalizeMode
  split_ifs <;> rfl

theorem normalizeLeaseTuning_normalizeLeaseTuning (role : DatabaseRole) :
    role.normalizeLeaseTuning.normalizeLeaseTuning = role.normalizeLeaseTuning := by
  simp only [normalizeLeaseTuning, mk.injEq, true_and, and_true]
  unfold orDefault
  refine ⟨?_, ?_, ?_⟩ <;> split_ifs <;> omega

/-- A checked role has nothing left to set. -/
theorem normalize_normalize (role : DatabaseRole) :
    role.normalize.normalize = role.normalize := by
  have tuned := normalizeLeaseTuning_normalizeLeaseTuning { role with
    executionMode := normalizeMode role.executionMode
    adminCredentialsPath := trimSpace role.adminCredentialsPath }
  simpa only [normalize, normalizeLeaseTuning, normalizeMode_normalizeMode,
    trimSpace_trimSpace] using tuned

theorem failing_then_ok_iff {error : Option String} {next : Except String Unit} :
    (failing error >>= fun _ => next) = .ok () ↔ error = none ∧ next = .ok () := by
  cases error <;> simp [failing, Bind.bind, Except.bind]

/-- What a role that passes the checks satisfies. -/
theorem check_ok_iff {lib : Library} {range : MapRange} {role : DatabaseRole} :
    role.check lib range = .ok () ↔
      role.name ≠ "" ∧ 0 < role.ttlSeconds ∧ role.usernamePrefix ≠ "" ∧
      validateExecutionMode role.executionMode = none ∧
      validateAdminCredentialsPath role.adminCredentialsPath = none ∧
      validateDatabaseRoleConfig lib range role.config = none ∧
      (role.executionMode = executionModeManaged → checkManaged lib role = .ok ()) := by
  unfold check
  split_ifs with unnamed expired unprefixed managed
  · simp [unnamed]
  · simp [expired]
  · simp [unprefixed]
  · simp only [failing_then_ok_iff]
    simp [unnamed, unprefixed, managed, not_le.mp expired]
  · simp only [failing_then_ok_iff]
    simp [unnamed, unprefixed, managed, not_le.mp expired]

/-- Whether a role is accepted does not depend on the visiting order. -/
theorem check_range (lib : Library) (range other : MapRange) (role : DatabaseRole) :
    role.check lib range = .ok () ↔ role.check lib other = .ok () := by
  have config : validateDatabaseRoleConfig lib range role.config = none ↔
      validateDatabaseRoleConfig lib other role.config = none :=
    validateConfigValue_range lib range other "config" _
  rw [check_ok_iff, check_ok_iff, config]

end DatabaseRole

end KnxVault.Domain
