import KnxVault.Engine.DatabaseUsers
import KnxVault.Std.SqlTemplate

/-!
# The shape of rendered statements

The engine puts a user, a password and names from the configuration of a role into the
templates of its statements, those of the role or else the defaults of `postgres.go`.
PostgreSQL reads the same tokens in a statement as in its template, whatever the values are.
-/

namespace KnxVault.Engine.Database

open KnxVault.Std KnxVault.Domain KnxVault.Std.Sql

/-! ### The placeholders -/

inductive Placeholder where
  | username
  | password
  | name
  | database
  | schema
  | expiration
deriving DecidableEq, Repr

namespace Placeholder

def marker : Placeholder → String
  | username => "\x7b\x7busername\x7d\x7d"
  | password => "\x7b\x7bpassword\x7d\x7d"
  | name => "\x7b\x7bname\x7d\x7d"
  | database => "\x7b\x7bdatabase\x7d\x7d"
  | schema => "\x7b\x7bschema\x7d\x7d"
  | expiration => "\x7b\x7bexpiration\x7d\x7d"

def all : List Placeholder := [username, password, name, database, schema, expiration]

/-- Users stand in quoted names, the password and the time in literals, and the names of
the configuration between tokens. -/
def place : Placeholder → Place
  | username | name => .name
  | password | expiration => .literal
  | database | schema => .between

end Placeholder

/-- The template with its placeholders as holes. -/
def templateLetters (template : String) : List (Letter Placeholder) :=
  readHoles (Placeholder.all.map fun hole => (hole.marker, hole)) 0 template.toList

def privilegeReadWrite : String := "readwrite"

def postgresCreationStatements (privilege : String) : List String :=
  let db := Placeholder.database.marker
  let schema := Placeholder.schema.marker
  let user := "\"" ++ Placeholder.username.marker ++ "\""
  let granted :=
    if privilege = privilegeReadWrite then "SELECT, INSERT, UPDATE, DELETE" else "SELECT"
  ["CREATE ROLE " ++ user ++ " WITH LOGIN PASSWORD '" ++ Placeholder.password.marker ++
      "' VALID UNTIL '" ++ Placeholder.expiration.marker ++ "';",
    "GRANT CONNECT ON DATABASE " ++ db ++ " TO " ++ user ++ ";",
    "GRANT USAGE ON SCHEMA " ++ schema ++ " TO " ++ user ++ ";",
    "GRANT " ++ granted ++ " ON ALL TABLES IN SCHEMA " ++ schema ++ " TO " ++ user ++ ";",
    "ALTER DEFAULT PRIVILEGES IN SCHEMA " ++ schema ++ " GRANT " ++ granted ++
      " ON TABLES TO " ++ user ++ ";"]

/-- The same for all privileges. -/
def postgresRevocationStatements : List String :=
  let db := Placeholder.database.marker
  let schema := Placeholder.schema.marker
  let user := "\"" ++ Placeholder.username.marker ++ "\""
  ["REVOKE ALL PRIVILEGES ON ALL TABLES IN SCHEMA " ++ schema ++ " FROM " ++ user ++ ";",
    "REVOKE USAGE ON SCHEMA " ++ schema ++ " FROM " ++ user ++ ";",
    "REVOKE CONNECT ON DATABASE " ++ db ++ " FROM " ++ user ++ ";",
    "DROP ROLE IF EXISTS " ++ user ++ ";"]

theorem default_statements_fit (privilege : String) :
    ∀ template ∈ postgresCreationStatements privilege ++ postgresRevocationStatements,
      Fits Placeholder.place (templateLetters template) := by
  have split (text : String) : templateLetters text =
    readHoles (Placeholder.all.map fun hole => (hole.marker, hole)) 0 text.toList := rfl
  simp only [postgresCreationStatements, postgresRevocationStatements, List.cons_append,
    List.nil_append, List.forall_mem_cons, split, String.toList_append]
  by_cases writes : privilege = privilegeReadWrite
  · simp only [if_pos writes]
    decide +kernel
  · simp only [if_neg writes]
    decide +kernel

/-- The values of the placeholders. -/
def statementValues (formats : DatabaseFormats) (role : DatabaseRole) (username password : String)
    (expiresAt : Time) : Filling Placeholder where
  place := Placeholder.place
  value
    | .username | .name => username.toList
    | .password => password.toList
    | .database => (databaseFromConfig role.config).toList
    | .schema => (schemaFromConfig role.config).toList
    | .expiration => (formats.expiration expiresAt.utc).toList

/-! ### Rendering -/

/-- A generated user has no quotation marks. -/
theorem nameChars_of_generateUsername {role : DatabaseRole} {suffix : Except GoError String}
    {username : String} (generated : generateUsername role suffix = .ok username) :
    ∀ char ∈ username.toList, nameChar char = true := by
  unfold generateUsername at generated
  split at generated
  · split at generated
    · cases generated
    · rename_i safe
      cases generated
      exact nameChars_of_safe (by simpa using safe)
  · obtain ⟨text, -, generated⟩ := bind_eq_ok generated
    dsimp only at generated
    split at generated
    · rename_i safe
      cases generated
      exact nameChars_of_safe safe
    · cases generated
      intro char kept
      rw [String.toList_ofList] at kept
      exact (List.mem_filter.mp kept).2

theorem doubled_of_nameChars {mark : Char} (other : nameChar mark = false) {text : List Char}
    (parts : ∀ char ∈ text, nameChar char = true) : doubled mark text = text := by
  refine doubled_of_notMem fun listed => ?_
  rw [parts mark listed] at other
  cases other

theorem escapePostgresLiteral_eq (value : String) :
    escapePostgresLiteral value = String.ofList (doubled '\'' value.toList) :=
  congrArg String.ofList (replaceEach_doubled rfl rfl value.toList)

theorem trimSpace_settingOr (config : Fields) (keys : List String) {default : String}
    (trimmed : trimSpace default = default) :
    trimSpace (settingOr config keys default) = settingOr config keys default := by
  unfold settingOr
  cases found : (keys.filterMap fun key => (textField config key).map trimSpace).find? (· ≠ "") with
  | none => exact trimmed
  | some setting =>
    obtain ⟨key, -, read⟩ := List.mem_filterMap.mp (List.mem_of_find?_eq_some found)
    obtain ⟨raw, -, rfl⟩ := Option.map_eq_some_iff.mp read
    exact trimSpace_trimSpace raw

theorem trimSpace_databaseFromConfig (config : Fields) :
    trimSpace (databaseFromConfig config) = databaseFromConfig config :=
  trimSpace_settingOr config _ (by decide)

theorem trimSpace_schemaFromConfig (config : Fields) :
    trimSpace (schemaFromConfig config) = schemaFromConfig config :=
  trimSpace_settingOr config _ (by decide)

theorem quotePostgresIdent_eq {ident : String} (trimmed : trimSpace ident = ident) :
    quotePostgresIdent ident = String.ofList ('"' :: doubled '"' ident.toList ++ ['"']) := by
  have twice : replaceEach [("\"", "\"\"")] 0 ident.toList = doubled '"' ident.toList :=
    replaceEach_doubled rfl rfl ident.toList
  unfold quotePostgresIdent replaceAll
  rw [trimmed, twice]
  apply String.toList_injective
  simp

variable (formats : DatabaseFormats) (role : DatabaseRole) (username password : String)
  (expiresAt : Time)

/-- The engine replaces each marker by what fills its hole. -/
theorem renderStatementsForRole_eq
    (plain : '\'' ∉ (formats.expiration expiresAt.utc).toList)
    (parts : ∀ char ∈ username.toList, nameChar char = true) (templates : List String) :
    renderStatementsForRole formats templates role username password expiresAt =
      templates.map (replaceAll (Placeholder.all.map fun hole => (hole.marker, String.ofList
        ((statementValues formats role username password expiresAt).put hole)))) := by
  have user : username = String.ofList (doubled '"' username.toList) := by
    rw [doubled_of_nameChars (by decide) parts, String.ofList_toList]
  have time : formats.expiration expiresAt.utc =
      String.ofList (doubled '\'' (formats.expiration expiresAt.utc).toList) := by
    rw [doubled_of_notMem plain, String.ofList_toList]
  have database := quotePostgresIdent_eq (trimSpace_databaseFromConfig role.config)
  have schema := quotePostgresIdent_eq (trimSpace_schemaFromConfig role.config)
  refine congrArg (fun pairs => templates.map (replaceAll pairs)) ?_
  refine List.cons_eq_cons.mpr ⟨Prod.ext rfl user, List.cons_eq_cons.mpr
    ⟨Prod.ext rfl (escapePostgresLiteral_eq password), List.cons_eq_cons.mpr
      ⟨Prod.ext rfl user, List.cons_eq_cons.mpr ⟨Prod.ext rfl database, List.cons_eq_cons.mpr
        ⟨Prod.ext rfl schema, List.cons_eq_cons.mpr ⟨Prod.ext rfl time, rfl⟩⟩⟩⟩⟩⟩

/-- The statement has the tokens of its template, each placeholder one quoted name or one
literal with its value. -/
def KeepsShape (values : Filling Placeholder) (template statement : String) : Prop :=
  lex (statement.toList.map .char) = (lex (templateLetters template)).map values.token

theorem keepsShape_replaceAll {values : Filling Placeholder} {template : String}
    (fits : Fits values.place (templateLetters template)) :
    KeepsShape values template (replaceAll (Placeholder.all.map fun hole =>
      (hole.marker, String.ofList (values.put hole))) template) := by
  have filled := replaceEach_markers values (Placeholder.all.map fun hole => (hole.marker, hole)) 0
    template.toList
  rw [List.map_map] at filled
  refine Eq.trans (congrArg lex ?_) (Fits.lex_letters fits)
  rw [replaceAll, String.toList_ofList]
  exact filled

def fixedFormats : DatabaseFormats where
  connectionURL _ _ _ _ _ _ := ""
  expiration _ := "2030-01-01 00:00:00+00"
  duration _ := ""

/-- A role of a schema with a quotation mark in its name. -/
def markedRole : DatabaseRole :=
  { readerRole with config := (∅ : Fields).insert "schema" (.string "a\"b") }

end KnxVault.Engine.Database
