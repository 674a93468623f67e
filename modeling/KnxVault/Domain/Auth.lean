import KnxVault.Domain.Common

/-!
# Policies, roles, tokens and machine identities

The types and checks of `internal/domain/auth`. Resource patterns are matched
byte by byte.
-/

namespace KnxVault.Domain

open KnxVault.Std

/-- Allow, deny, or a text that `Policy.validate` rejects. -/
inductive Effect where
  | allow
  | deny
  | other (text : String)
deriving DecidableEq, Repr

def Effect.text : Effect → String
  | .allow => "allow"
  | .deny => "deny"
  | .other text => text

structure Policy where
  id : Uuid := 0
  name : String
  effect : Effect
  resources : List String
  actions : List String := []
  capabilities : List String := []
  includes : List String := []
  conditions : Fields := ∅

def Policy.validate (policy : Policy) : Except String Unit :=
  if policy.name = "" then .error "policy name is required"
  else if policy.effect ≠ .allow ∧ policy.effect ≠ .deny then
    .error ("invalid policy effect " ++ quoted policy.effect.text)
  else if policy.resources = [] then .error "policy resources are required"
  else if policy.capabilities = [] ∧ policy.actions = [] then
    .error "policy capabilities or actions are required"
  else match policy.resources.find? fun resource =>
      containsAny resource "*?" && 1 < countPair '*' '*' resource.toList with
    | some resource => .error ("ambiguous glob pattern " ++ quoted resource)
    | none => .ok ()

theorem Policy.name_required {policy : Policy} (valid : policy.validate = .ok ()) :
    policy.name ≠ "" := by
  intro unset
  rw [validate, if_pos unset] at valid
  cases valid

structure OIDCConfig where
  issuer : String
  audience : String
  jwksURL : String
  maxTTL : Int
deriving DecidableEq, Repr

structure Role where
  name : String
  policies : List String
  policyGroups : List String := []
  boundServiceAccountNames : List String := []
  boundServiceAccountNamespaces : List String := []
  authMethod : String := ""
  oidc : Option OIDCConfig := none
  requireMFA : Bool := false
deriving DecidableEq, Repr

def Role.validate (role : Role) : Except String Unit :=
  if role.name = "" then .error "role name is required"
  else if role.policies = [] then .error "role requires at least one policy"
  else .ok ()

theorem Role.required {role : Role} (valid : role.validate = .ok ()) :
    role.name ≠ "" ∧ role.policies ≠ [] := by
  have name : role.name ≠ "" := by
    intro unset
    rw [validate, if_pos unset] at valid
    cases valid
  refine ⟨name, fun unset => ?_⟩
  rw [validate, if_neg name, if_pos unset] at valid
  cases valid

structure ClientToken where
  id : String
  subject : String
  policies : List String
  expiresAt : Time
  renewable : Bool := false
  revoked : Bool := false
  parentIdentityID : String := ""
  agentID : String := ""
  allowedActions : List String := []
  pathPrefix : String := ""
  maxExpiresAt : Time := {}
deriving DecidableEq, Repr

structure MachineIdentity where
  id : String
  type : String
  boundNamespace : String := ""
  boundName : String := ""
  policies : List String
  maxTTL : Int := 0
  lastSeen : Time := {}
  revoked : Bool := false
  parentIdentityID : String := ""
deriving DecidableEq, Repr

def MachineIdentity.validate (identity : MachineIdentity) : Except String Unit :=
  if identity.id = "" then .error "machine identity id is required"
  else if identity.type = "" then .error "machine identity type is required"
  else if identity.type ∈ ["k8s_sa", "oidc", "api_key", "agent"] then .ok ()
  else .error ("invalid machine identity type " ++ quoted identity.type)

/-- The key of an identity, from its type and bindings. -/
def nhiKey (type boundNamespace name subject : String) : String :=
  if type = "k8s_sa" then "k8s_sa:" ++ boundNamespace ++ ":" ++ name
  else if type = "oidc" then "oidc:" ++ subject
  else type ++ ":" ++ subject

/-! ### Patterns -/

/-- All suffixes that start after a later slash, and the empty one at the end. -/
def laterSegments : List UInt8 → List (List UInt8)
  | [] => [[]]
  | byte :: rest =>
    if byte = 47 then (if rest = [] then [[]] else rest :: laterSegments rest)
    else laterSegments rest

/-- The places where the two stars and a slash may stop. -/
def segmentStarts (text : List UInt8) : List (List UInt8) :=
  if text = [] then [[]] else text :: laterSegments text

/-- Glob matching: `*` is 42, `?` is 63, `/` is 47. -/
def globMatch : List UInt8 → List UInt8 → Bool
  | [], text => text.isEmpty
  | 42 :: 42 :: 47 :: pattern, text =>
    (segmentStarts text).any fun suffix => globMatch pattern suffix
  | 42 :: 42 :: pattern, text => text.tails.any fun suffix => globMatch pattern suffix
  | 42 :: pattern, text => text.tails.any fun suffix => globMatch pattern suffix
  | 63 :: pattern, text =>
    match text with
    | [] => false
    | byte :: rest => byte ≠ 47 && globMatch pattern rest
  | char :: pattern, text =>
    match text with
    | [] => false
    | byte :: rest => char = byte && globMatch pattern rest

def matchResourceGlob (pattern resource : String) : Bool :=
  if pattern = "*" ∨ pattern = "*/*" then true
  else globMatch (utf8Bytes pattern) (utf8Bytes resource)

/-- A single trailing `/*` means everything below, other stars are globs. -/
def matchResource (pattern resource : String) : Bool :=
  if pattern = "*" ∨ pattern = "*/*" then true
  else if hasSuffix pattern "/*" ∧ ¬ containsText (trimSuffix pattern "/*") "*" ∧
      ¬ containsText pattern "?" then
    resource = trimSuffix pattern "/*" || hasPrefix resource (trimSuffix pattern "/*" ++ "/")
  else if containsAny pattern "*?" then matchResourceGlob pattern resource
  else pattern = resource

example : matchResource "pki/*" "pki/ca/root" ∧ matchResource "team-?/**/key" "team-a/x/y/key" ∧
    ¬ matchResource "team-?/key" "team-ab/key" := by decide

def matchAction (pattern action : String) : Bool :=
  pattern = "*" || pattern = action

end KnxVault.Domain
