import KnxVault.Domain.Common

/-!
# Certificate authorities, roles and issued certificates

The types and checks of `internal/domain/pki`.
-/

namespace KnxVault.Domain

open KnxVault.Std

/-- The type of an authority; `other` is a text that `CA.validate` rejects. -/
inductive CAType where
  | root
  | intermediate
  | other (text : String)
deriving DecidableEq, Repr

def CAType.text : CAType → String
  | .root => "root"
  | .intermediate => "intermediate"
  | .other text => text

/-- The status of an authority, which may be any text. -/
inductive CAStatus where
  | active
  | revoked
  | other (text : String)
deriving DecidableEq, Repr

structure DistinguishedName where
  commonName : String := ""
  organization : String := ""
  organizationalUnit : String := ""
  country : String := ""
deriving DecidableEq, Repr

structure CA where
  id : Uuid
  parentID : Option Uuid := none
  name : String
  type : CAType
  subject : DistinguishedName := {}
  serial : String := ""
  certPEM : String
  privateKeyEnc : Bytes
  dekEnc : Bytes
  status : CAStatus := .active
  createdAt : Time := {}
  expiresAt : Time := {}
  crlNextUpdate : Option Time := none
deriving DecidableEq, Repr

def CA.validate (ca : CA) : Except String Unit :=
  if ca.id = 0 then .error "ca id is required"
  else if ca.name = "" then .error "ca name is required"
  else if ca.type ≠ .root ∧ ca.type ≠ .intermediate then
    .error ("invalid ca type " ++ quoted ca.type.text)
  else if ca.type = .root ∧ ca.parentID ≠ none then .error "root ca must not have parent_id"
  else if ca.type = .intermediate ∧ (ca.parentID = none ∨ ca.parentID = some 0) then
    .error "intermediate ca requires parent_id"
  else if ca.certPEM = "" then .error "cert_pem is required"
  else if ca.privateKeyEnc = [] ∨ ca.dekEnc = [] then
    .error "encrypted key material is required"
  else .ok ()

theorem CA.required {ca : CA} (valid : ca.validate = .ok ()) : ca.id ≠ 0 ∧ ca.name ≠ "" := by
  have id : ca.id ≠ 0 := by
    intro unset
    rw [validate, if_pos unset] at valid
    cases valid
  refine ⟨id, fun unset => ?_⟩
  rw [validate, if_neg id, if_pos unset] at valid
  cases valid

structure IssuedCertificate where
  id : Uuid
  caID : Uuid
  role : String
  serial : String
  commonName : String
  dnsNames : List String := []
  ttlSeconds : Int
  issuedAt : Time := {}
  expiresAt : Time
  autoRenew : Bool := false
  renewedFromSerial : Option String := none
deriving DecidableEq, Repr

def IssuedCertificate.validate (cert : IssuedCertificate) : Except String Unit :=
  if cert.id = 0 then .error "issued certificate id is required"
  else if cert.caID = 0 then .error "ca id is required"
  else if cert.role = "" ∨ cert.serial = "" ∨ cert.commonName = "" then
    .error "role, serial, and common_name are required"
  else if cert.ttlSeconds ≤ 0 then .error "ttl must be positive"
  else if cert.expiresAt.isZero then .error "expires_at is required"
  else .ok ()

theorem IssuedCertificate.validate_ok_iff {cert : IssuedCertificate} :
    cert.validate = .ok () ↔
      cert.id ≠ 0 ∧ cert.caID ≠ 0 ∧ (cert.role ≠ "" ∧ cert.serial ≠ "" ∧ cert.commonName ≠ "") ∧
        0 < cert.ttlSeconds ∧ cert.expiresAt.isZero = false := by
  have step : ∀ {condition : Prop} [Decidable condition] {message : String}
      {rest : Except String Unit}, (if condition then .error message else rest) = .ok () ↔
        ¬ condition ∧ rest = .ok () := by
    intro condition _ message rest
    by_cases holds : condition <;> simp [holds]
  unfold validate
  rw [step, step, step, step, step]
  simp only [not_or, not_le, Bool.not_eq_true, and_true, ne_eq]

theorem IssuedCertificate.caID_required {cert : IssuedCertificate}
    (valid : cert.validate = .ok ()) : cert.caID ≠ 0 :=
  (validate_ok_iff.mp valid).2.1

/-- The usage of a PKI role; unset means server, `other` is a text that
`PKIRole.validate` rejects. -/
inductive RoleUsage where
  | unset
  | server
  | client
  | codeSigning
  | other (text : String)
deriving DecidableEq, Repr

def RoleUsage.text : RoleUsage → String
  | .unset => ""
  | .server => "server"
  | .client => "client"
  | .codeSigning => "code_signing"
  | .other text => text

structure PKIRole where
  name : String
  caName : String
  allowedDomains : List String := []
  maxTTLSeconds : Int := 0
  keyUsage : RoleUsage := .unset
  allowSubdomains : Bool := false
deriving DecidableEq, Repr

def normalizeAllowedDomains (domains : List String) : List String :=
  (domains.map trimSpace).filter (· ≠ "")

namespace PKIRole

/-- Checking a role sets its usage. -/
def normalize (role : PKIRole) : PKIRole :=
  if role.keyUsage = .unset then { role with keyUsage := .server } else role

def validate (role : PKIRole) : Except String Unit :=
  if role.name = "" then .error "pki role name is required"
  else if role.caName = "" then .error "pki role ca_name is required"
  else if role.keyUsage ∉ [.unset, .server, .client, .codeSigning] then
    .error ("invalid pki role key_usage " ++ quoted role.keyUsage.text)
  else if normalizeAllowedDomains role.allowedDomains = [] then
    .error ("pki role allowed_domains is required " ++
      "(use \"*\" only when unconstrained issuance is intentional)")
  else .ok ()

/-- Whether the role explicitly allows every name. -/
def allowsAnyDomain (role : PKIRole) : Bool :=
  role.allowedDomains.any fun allowed => trimSpace allowed = "*"

def lowerText (lib : Library) (text : String) : String :=
  String.ofList (text.toList.map lib.toLower)

/-- Match a name against the domains of the role. -/
def allowedDomain (lib : Library) (role : PKIRole) (name : String) : Bool :=
  let name := lowerText lib (trimSpace name)
  name ≠ "" && (role.allowsAnyDomain || role.allowedDomains.any fun allowed =>
    let allowed := lowerText lib (trimSpace allowed)
    allowed ≠ "" && allowed ≠ "*" &&
      (allowed = name || (role.allowSubdomains && hasSuffix name ("." ++ allowed))))

theorem required {role : PKIRole} (valid : role.validate = .ok ()) :
    role.name ≠ "" ∧ role.caName ≠ "" := by
  have name : role.name ≠ "" := by
    intro unset
    rw [validate, if_pos unset] at valid
    cases valid
  refine ⟨name, fun unset => ?_⟩
  rw [validate, if_neg name, if_pos unset] at valid
  cases valid

/-- A checked role has nothing left to set. -/
theorem normalize_normalize (role : PKIRole) : role.normalize.normalize = role.normalize := by
  unfold normalize
  split <;> simp_all

/-- Setting the usage does not change the outcome of the check. -/
theorem validate_normalize (role : PKIRole) : role.normalize.validate = role.validate := by
  unfold normalize
  split
  · rename_i unset
    simp only [validate, unset, List.mem_cons, reduceCtorEq, true_or, or_true, not_true_eq_false,
      ↓reduceIte]
  · rfl

end PKIRole

end KnxVault.Domain
