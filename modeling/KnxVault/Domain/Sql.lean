import KnxVault.Domain.Common

/-!
# The filter for managed SQL statements

`validateManagedSQLStatements` follows `internal/domain/secrets/sql_allow.go`.
-/

namespace KnxVault.Domain

open KnxVault.Std

def managedSQLAllowPrefixes : List String :=
  ["create role", "create user", "alter role", "alter user", "alter default privileges",
   "drop role", "drop user", "grant ", "revoke ", "create table", "drop table",
   "create temporary table"]

def managedSQLDenySubstrings : List String :=
  ["drop database", "drop schema", "truncate ", "alter system", "copy ", "pg_read_file",
   "pg_write_file", "lo_import", "lo_export", ";--", " union ", " into outfile", "load_file",
   "superuser", "createdb", "createrole", "replication", "bypassrls", "with admin option",
   "grant all", "grant all privileges", "set role", "grant create", "with grant option",
   "security invoker", "security definer"]

def managedSQLDenyRoles : List String :=
  ["pg_read_server_files", "pg_write_server_files", "pg_execute_server_program",
   "pg_checkpoint", "pg_monitor", "pg_read_all_data", "pg_write_all_data"]

/-- Where the comment scanner stands. -/
inductive SQLScan where
  | text
  | lineComment
  | blockComment

/-- Replace comments by a space; an unterminated block swallows the rest. -/
def stripSQLComments : SQLScan → List Char → List Char
  | .text, '-' :: '-' :: rest => stripSQLComments .lineComment rest
  | .text, '/' :: '*' :: rest => stripSQLComments .blockComment rest
  | .text, char :: rest => char :: stripSQLComments .text rest
  | .text, [] => []
  | .lineComment, [] => []
  | .lineComment, char :: rest =>
    if char = '\n' then ' ' :: stripSQLComments .text rest
    else stripSQLComments .lineComment rest
  | .blockComment, '*' :: '/' :: rest => ' ' :: stripSQLComments .text rest
  | .blockComment, _ :: next :: rest => stripSQLComments .blockComment (next :: rest)
  | .blockComment, _ => [' ']

/-- Runs of white space become one space. -/
def collapseSpaces (afterSpace : Bool) : List Char → List Char
  | [] => []
  | char :: rest =>
    if isSpace char then
      if afterSpace then collapseSpaces true rest else ' ' :: collapseSpaces true rest
    else char :: collapseSpaces false rest

def normalizeManagedSQL (lib : Library) (statement : String) : String :=
  let lower := (stripSQLComments .text statement.toList).map lib.toLower
  trimSpace (String.ofList (collapseSpaces false lower))

/-- A grant without an object is role membership. -/
def isBareRoleMembershipGrant (norm : String) : Bool :=
  hasPrefix norm "grant " && !containsText norm " on " && containsText norm " to "

def hasRoleMembershipEscalation (norm : String) : Bool :=
  let verbs := ["create role ", "alter role ", "drop role ",
    "create user ", "alter user ", "drop user "]
  let rest := match verbs.find? (hasPrefix norm ·) with
    | some verb => String.ofList (norm.toList.drop verb.toList.length)
    | none => norm
  [" in role ", " in group ", " role ", " admin "].any (containsText rest ·) ||
    hasSuffix rest " role"

def disallowedSQL (construct : String) : Except String Unit :=
  .error ("disallowed SQL construct " ++ quoted construct)

def validateOneManagedSQL (lib : Library) (statement : String) : Except String Unit :=
  let text := trimSpace statement
  let body := trimSuffix text ";"
  let norm := normalizeManagedSQL lib body
  if text = "" then .error "empty statement"
  else if containsText body ";" then .error "stacked SQL statements are not allowed"
  else match managedSQLDenySubstrings.find? (containsText norm ·) with
  | some bad => disallowedSQL (trimSpace bad)
  | none =>
    if hasRoleMembershipEscalation norm then
      disallowedSQL "role membership (IN ROLE/ROLE/ADMIN/IN GROUP)"
    else if isBareRoleMembershipGrant norm then
      disallowedSQL "GRANT role TO user (use GRANT privileges ON object TO role)"
    else match managedSQLDenyRoles.find? (containsText norm ·) with
    | some bad => disallowedSQL bad
    | none =>
      if !managedSQLAllowPrefixes.any (hasPrefix norm ·) then
        .error ("statement must start with an allowed verb " ++
          "(CREATE/ALTER/DROP ROLE|USER, GRANT, REVOKE, CREATE/DROP TABLE)")
      else if containsText norm "password" && !containsText text "\x7b\x7b" then
        .error ("password clauses must use template placeholders " ++
          "(e.g. \x7b\x7bpassword\x7d\x7d)")
      else .ok ()

def validateManagedSQLStatements (lib : Library) (index : Nat) : List String → Except String Unit
  | [] => .ok ()
  | statement :: rest =>
    match validateOneManagedSQL lib statement with
    | .error err => .error ("statement[" ++ toString index ++ "]: " ++ err)
    | .ok _ => validateManagedSQLStatements lib (index + 1) rest

end KnxVault.Domain
