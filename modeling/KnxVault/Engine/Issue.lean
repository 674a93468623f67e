import KnxVault.Engine.Pki
import KnxVault.Repository.Audit

/-!
# Issuing certificates under a role

`IssueCertificate` and `SignCSR` of `internal/engine/pki/engine.go`. The backend
that makes certificates and the readers of certificates and requests are
parameters.
-/

namespace KnxVault.Engine.Pki

open KnxVault.Std KnxVault.Domain KnxVault.Crypto KnxVault.Repository

structure IssueRequest where
  role : String
  commonName : String
  dnsNames : List String := []
  ipAddresses : List String := []
  ttl : String := ""
  keyBits : Int := 0
  autoRenew : Bool := false
  forceKeyUsage : RoleUsage := .unset

structure IssueResult where
  certPEM : String
  privateKeyPEM : String
  serial : String
  expiresAt : Time
  caID : Uuid
deriving DecidableEq, Repr

structure SignCSRRequest where
  role : String
  csrPEM : String
  ttl : String := ""

structure SignCSRResult where
  certPEM : String
  serial : String
  expiresAt : Time
  caChain : List String
deriving DecidableEq, Repr

/-- The names in a certificate request. -/
structure CSR where
  commonName : String := ""
  dnsNames : List String := []
  ipAddresses : List String := []
  emailAddresses : List String := []
  uris : List String := []
deriving DecidableEq, Repr

/-- What the backend signs. -/
structure LeafRequest where
  caCertPEM : String
  caKeyPEM : Bytes
  commonName : String
  dnsNames : List String
  ipAddresses : List String
  ttl : Int
  keyBits : Int
  keyUsage : RoleUsage

structure CSRLeafRequest where
  csrPEM : String
  caCertPEM : String
  caKeyPEM : Bytes
  ttl : Int
  keyUsage : RoleUsage

/-- Makes and reads certificates. -/
structure Backend where
  /-- A certificate and its key. -/
  issueCertificate : LeafRequest → Except String (String × String)
  signCSR : CSRLeafRequest → Except String String
  /-- The serial number and the expiry. -/
  parseCertMetadata : String → Except GoError (String × Time)
  /-- Decode a request and check its signature. -/
  parseCSR : String → Except GoError CSR

def defaultLeafTTL : Int := 72 * 3600 * nanosecondsPerSecond

def defaultMaxLeafTTL : Int := 90 * 24 * 3600 * nanosecondsPerSecond

def defaultRoleMaxTTLSeconds : Int := 90 * 24 * 3600

/-- The engine with its repositories. -/
structure Issuer where
  lib : Library
  aead : Aead
  service : Service
  parseTTL : String → Except String Int
  backend : Backend
  cas : CARepository
  roles : PKIRoleRepository
  revoked : RevocationRepository
  issued : IssuedCertRepository

namespace Issuer

variable (issuer : Issuer) (env : Env)

def resolvePKIRole (roleName : String) : Except GoError PKIRole :=
  let roleName := if trimSpace roleName = "" then "root" else trimSpace roleName
  (issuer.roles.get roleName).mapError fun err => wrapCause .notFound
    ("pki role not found (create a role via PUT /pki/roles/:name or pass allowed_domains on " ++
      "CreateRoot)") err.error

def readTTL (ttl : String) : Except GoError Int :=
  (issuer.parseTTL ttl).mapError (wrapCause .validation "invalid ttl")

/-- The limit of the role on a lifetime that the request names. -/
def checkTTL (role : PKIRole) (ttl : String) : Except GoError Unit := do
  if ttl = "" then pure ()
  else
    let duration ← issuer.readTTL ttl
    let maxSec := if role.maxTTLSeconds ≤ 0 then defaultRoleMaxTTLSeconds else role.maxTTLSeconds
    if duration.tdiv nanosecondsPerSecond > maxSec then
      refuse .validation "ttl exceeds role maximum"
    else pure ()

def validateIssueAgainstRole (role : PKIRole) (req : IssueRequest) : Except GoError Unit :=
  if trimSpace req.commonName ≠ "" ∧ ¬ role.allowedDomain issuer.lib (trimSpace req.commonName) then
    refuse .validation ("common name " ++ quoted (trimSpace req.commonName) ++
      " not allowed by role")
  else match req.dnsNames.find? fun dns => !role.allowedDomain issuer.lib dns with
    | some dns => refuse .validation ("dns name " ++ quoted dns ++ " not allowed by role")
    | none =>
      if req.ipAddresses ≠ [] ∧ ¬ role.allowsAnyDomain then
        refuse .validation ("ip SANs are not allowed by role domain policy " ++
          "(use allowed_domains: [\"*\"] if required)")
      else issuer.checkTTL role req.ttl

def validateCSRAgainstRole (role : PKIRole) (csrPEM ttl : String) : Except GoError Unit := do
  let csr ← issuer.backend.parseCSR csrPEM
  let names := (if trimSpace csr.commonName ≠ "" then [trimSpace csr.commonName] else []) ++
    csr.dnsNames
  if csr.ipAddresses ≠ [] ∧ ¬ role.allowsAnyDomain then
    refuse .validation "csr ip SANs are not allowed by role domain policy"
  else if csr.emailAddresses ≠ [] ∧ ¬ role.allowsAnyDomain then
    refuse .validation ("csr email SANs are not allowed by role domain policy " ++
      "(use allowed_domains: [\"*\"] if required)")
  else if csr.uris ≠ [] ∧ ¬ role.allowsAnyDomain then
    refuse .validation ("csr URI SANs are not allowed by role domain policy " ++
      "(use allowed_domains: [\"*\"] if required)")
  else if ¬ role.allowsAnyDomain ∧ names = [] then
    refuse .validation "csr has no common name or dns names to validate against role"
  else match names.find? fun name => !role.allowedDomain issuer.lib name with
    | some name => refuse .validation ("csr name " ++ quoted name ++ " not allowed by role")
    | none => issuer.checkTTL role ttl

/-- The lifetime that the role allows at most, in nanoseconds. -/
def maxTTL (role : PKIRole) : Int :=
  if 0 < role.maxTTLSeconds then wrap64 (role.maxTTLSeconds * nanosecondsPerSecond)
  else defaultMaxLeafTTL

/-- The usage of a certificate; a server role is not overridden. -/
def keyUsage (role : PKIRole) (force : RoleUsage) : Except GoError RoleUsage :=
  if force ≠ .unset then
    if role.keyUsage = .server ∧ force ≠ .server then
      refuse .validation
        "force key usage conflicts with role key_usage=server; use a client role"
    else .ok force
  else .ok (if role.keyUsage ≠ .unset then role.keyUsage else .server)

/-- Issue a certificate with a new key and record it. -/
def issueCertificate (req : IssueRequest) :
    Except GoError (IssueResult × IssuedCertRepository) := do
  let role ← issuer.resolvePKIRole req.role
  let ca ← (issuer.cas.getByName env.range role.caName).mapError KNXVaultError.asGoError
  issuer.validateIssueAgainstRole role req
  let asked ← if req.ttl = "" then pure defaultLeafTTL else issuer.readTTL req.ttl
  if maxTTL role < asked ∧ req.ttl ≠ "" then refuse .validation "ttl exceeds role maximum"
  else
    let ttl := min asked (maxTTL role)
    let caKey ← decryptKey issuer.aead issuer.service ca.privateKeyEnc ca.dekEnc
    let usage ← keyUsage role req.forceKeyUsage
    let (certPEM, keyPEM) ← (issuer.backend.issueCertificate {
      caCertPEM := ca.certPEM, caKeyPEM := caKey, commonName := req.commonName
      dnsNames := req.dnsNames, ipAddresses := req.ipAddresses, ttl, keyBits := req.keyBits
      keyUsage := usage }).mapError (wrapCause .internal "sign leaf certificate")
    let (serial, expiresAt) ← issuer.backend.parseCertMetadata certPEM
    if issuer.revoked.isRevoked serial then
      refuse .validation "certificate serial is revoked"
    else
      let seconds := ttl.tdiv nanosecondsPerSecond
      let issued ← (issuer.issued.save {
        id := (env.newUUID 0).1, caID := ca.id, role := req.role, serial
        commonName := req.commonName, dnsNames := req.dnsNames
        ttlSeconds := if seconds ≤ 0 then
          (expiresAt.instant - env.now.instant).tdiv nanosecondsPerSecond else seconds
        issuedAt := env.now.utc, expiresAt, autoRenew := req.autoRenew }).mapError
          KNXVaultError.asGoError
      pure ({ certPEM, privateKeyPEM := keyPEM, serial, expiresAt, caID := ca.id }, issued)

/-- The certificate of the authority after that of its parent, if it is stored. -/
def signingChain (ca : CA) : List String :=
  match ca.parentID.bind fun parentID => (issuer.cas.getByID parentID).toOption with
  | some parent => [parent.certPEM, ca.certPEM]
  | none => [ca.certPEM]

/-- Sign a certificate request. -/
def signCSR (req : SignCSRRequest) : Except GoError SignCSRResult := do
  if trimSpace req.csrPEM = "" then refuse .validation "csr is required"
  else
    let role ← issuer.resolvePKIRole req.role
    let ca ← (issuer.cas.getByName env.range role.caName).mapError KNXVaultError.asGoError
    issuer.validateCSRAgainstRole role req.csrPEM req.ttl
    let ttl ← if req.ttl = "" then pure defaultLeafTTL else issuer.readTTL req.ttl
    if maxTTL role < ttl then refuse .validation "ttl exceeds role maximum"
    else
      let caKey ← decryptKey issuer.aead issuer.service ca.privateKeyEnc ca.dekEnc
      let certPEM ← (issuer.backend.signCSR {
        csrPEM := req.csrPEM, caCertPEM := ca.certPEM, caKeyPEM := caKey, ttl
        keyUsage := if role.keyUsage ≠ .unset then role.keyUsage else .server }).mapError
          (wrapCause .internal "sign csr")
      let (serial, expiresAt) ← issuer.backend.parseCertMetadata certPEM
      pure { certPEM, serial, expiresAt, caChain := issuer.signingChain ca }

/-- The lifetime that a request names. -/
def askedTTL (ttl : String) : Except GoError Int :=
  if ttl = "" then pure defaultLeafTTL else issuer.readTTL ttl

theorem askedTTL_bind {α : Type} (ttl : String) (next : Int → Except GoError α) :
    issuer.askedTTL ttl >>= next =
      if ttl = "" then next defaultLeafTTL else issuer.readTTL ttl >>= next := by
  unfold askedTTL
  split <;> rfl

/-- What an accepted issue request went through up to its record. -/
structure Issuance (req : IssueRequest) where
  role : PKIRole
  resolved : issuer.resolvePKIRole req.role = .ok role
  ca : CA
  found : issuer.cas.getByName env.range role.caName = .ok ca
  allowed : issuer.validateIssueAgainstRole role req = .ok ()
  asked : Int
  read : issuer.askedTTL req.ttl = .ok asked
  within : ¬ (maxTTL role < asked ∧ req.ttl ≠ "")
  caKey : Bytes
  opened : decryptKey issuer.aead issuer.service ca.privateKeyEnc ca.dekEnc = .ok caKey
  usage : RoleUsage
  used : keyUsage role req.forceKeyUsage = .ok usage
  certPEM : String
  keyPEM : String
  signed : issuer.backend.issueCertificate {
    caCertPEM := ca.certPEM, caKeyPEM := caKey, commonName := req.commonName
    dnsNames := req.dnsNames, ipAddresses := req.ipAddresses, ttl := min asked (maxTTL role)
    keyBits := req.keyBits, keyUsage := usage } = .ok (certPEM, keyPEM)
  serial : String
  expiresAt : Time
  parsed : issuer.backend.parseCertMetadata certPEM = .ok (serial, expiresAt)
  unrevoked : issuer.revoked.isRevoked serial = false

namespace Issuance

variable {issuer env} {req : IssueRequest} (issuance : Issuance issuer env req)

def ttl : Int := min issuance.asked (maxTTL issuance.role)

/-- What the backend signed. -/
def leaf : LeafRequest where
  caCertPEM := issuance.ca.certPEM
  caKeyPEM := issuance.caKey
  commonName := req.commonName
  dnsNames := req.dnsNames
  ipAddresses := req.ipAddresses
  ttl := issuance.ttl
  keyBits := req.keyBits
  keyUsage := issuance.usage

def record : IssuedCertificate where
  id := (env.newUUID 0).1
  caID := issuance.ca.id
  role := req.role
  serial := issuance.serial
  commonName := req.commonName
  dnsNames := req.dnsNames
  ttlSeconds :=
    if issuance.ttl.tdiv nanosecondsPerSecond ≤ 0 then
      (issuance.expiresAt.instant - env.now.instant).tdiv nanosecondsPerSecond
    else issuance.ttl.tdiv nanosecondsPerSecond
  issuedAt := env.now.utc
  expiresAt := issuance.expiresAt
  autoRenew := req.autoRenew

def result : IssueResult where
  certPEM := issuance.certPEM
  privateKeyPEM := issuance.keyPEM
  serial := issuance.serial
  expiresAt := issuance.expiresAt
  caID := issuance.ca.id

end Issuance

/-- What an accepted certificate request went through. -/
structure Signature (req : SignCSRRequest) where
  filled : trimSpace req.csrPEM ≠ ""
  role : PKIRole
  resolved : issuer.resolvePKIRole req.role = .ok role
  ca : CA
  found : issuer.cas.getByName env.range role.caName = .ok ca
  allowed : issuer.validateCSRAgainstRole role req.csrPEM req.ttl = .ok ()
  ttl : Int
  read : issuer.askedTTL req.ttl = .ok ttl
  within : ¬ maxTTL role < ttl
  caKey : Bytes
  opened : decryptKey issuer.aead issuer.service ca.privateKeyEnc ca.dekEnc = .ok caKey
  certPEM : String
  signed : issuer.backend.signCSR {
    csrPEM := req.csrPEM, caCertPEM := ca.certPEM, caKeyPEM := caKey, ttl
    keyUsage := if role.keyUsage ≠ .unset then role.keyUsage else .server } = .ok certPEM
  serial : String
  expiresAt : Time
  parsed : issuer.backend.parseCertMetadata certPEM = .ok (serial, expiresAt)

namespace Signature

variable {issuer env} {req : SignCSRRequest} (signature : Signature issuer env req)

/-- What the backend signed. -/
def leaf : CSRLeafRequest where
  csrPEM := req.csrPEM
  caCertPEM := signature.ca.certPEM
  caKeyPEM := signature.caKey
  ttl := signature.ttl
  keyUsage := if signature.role.keyUsage ≠ .unset then signature.role.keyUsage else .server

def result : SignCSRResult where
  certPEM := signature.certPEM
  serial := signature.serial
  expiresAt := signature.expiresAt
  caChain := issuer.signingChain signature.ca

end Signature

section Acceptance

variable {issuer env}

/-- A request is answered exactly by the outcome of its steps. -/
theorem issueCertificate_ok_iff {req : IssueRequest} {result : IssueResult}
    {later : IssuedCertRepository} :
    issuer.issueCertificate env req = .ok (result, later) ↔
      ∃ issuance : Issuance issuer env req,
        issuer.issued.save issuance.record = .ok later ∧ result = issuance.result := by
  unfold issueCertificate
  constructor
  · intro issued
    obtain ⟨role, resolved, issued⟩ := bind_eq_ok issued
    obtain ⟨ca, found, issued⟩ := bind_eq_ok issued
    obtain ⟨_, allowed, issued⟩ := bind_eq_ok issued
    obtain ⟨asked, read, issued⟩ := bind_eq_ok ((issuer.askedTTL_bind _ _).trans issued)
    beta_reduce at issued
    split at issued
    · cases issued
    · rename_i within
      obtain ⟨caKey, opened, issued⟩ := bind_eq_ok issued
      obtain ⟨usage, used, issued⟩ := bind_eq_ok issued
      obtain ⟨⟨certPEM, keyPEM⟩, signed, issued⟩ := bind_eq_ok issued
      obtain ⟨⟨serial, expiresAt⟩, parsed, issued⟩ := bind_eq_ok issued
      simp only at issued
      split at issued
      · cases issued
      · rename_i unrevoked
        obtain ⟨saved, save, issued⟩ := bind_eq_ok issued
        cases issued
        exact ⟨⟨role, resolved, ca, mapError_ok_iff.mp found, allowed, asked, read, within, caKey,
          opened, usage, used, certPEM, keyPEM, mapError_ok_iff.mp signed, serial, expiresAt,
          parsed, by simpa using unrevoked⟩, mapError_ok_iff.mp save, rfl⟩
  · rintro ⟨issuance, save, rfl⟩
    refine bind_ok_iff.mpr ⟨_, issuance.resolved, ?_⟩
    refine bind_ok_iff.mpr ⟨_, mapError_ok_iff.mpr issuance.found, ?_⟩
    refine bind_ok_iff.mpr ⟨_, issuance.allowed, ?_⟩
    refine (issuer.askedTTL_bind _ _).symm.trans (bind_ok_iff.mpr ⟨_, issuance.read, ?_⟩)
    beta_reduce
    rw [if_neg issuance.within]
    refine bind_ok_iff.mpr ⟨_, issuance.opened, ?_⟩
    refine bind_ok_iff.mpr ⟨_, issuance.used, ?_⟩
    refine bind_ok_iff.mpr ⟨_, mapError_ok_iff.mpr issuance.signed, ?_⟩
    refine bind_ok_iff.mpr ⟨_, issuance.parsed, ?_⟩
    simp only [issuance.unrevoked, Bool.false_eq_true, if_false]
    exact bind_ok_iff.mpr ⟨_, mapError_ok_iff.mpr save, rfl⟩

theorem signCSR_ok_iff {req : SignCSRRequest} {result : SignCSRResult} :
    issuer.signCSR env req = .ok result ↔
      ∃ signature : Signature issuer env req, result = signature.result := by
  unfold signCSR
  constructor
  · intro signed
    split at signed
    · cases signed
    · rename_i filled
      obtain ⟨role, resolved, signed⟩ := bind_eq_ok signed
      obtain ⟨ca, found, signed⟩ := bind_eq_ok signed
      obtain ⟨_, allowed, signed⟩ := bind_eq_ok signed
      obtain ⟨ttl, read, signed⟩ := bind_eq_ok ((issuer.askedTTL_bind _ _).trans signed)
      beta_reduce at signed
      split at signed
      · cases signed
      · rename_i within
        obtain ⟨caKey, opened, signed⟩ := bind_eq_ok signed
        obtain ⟨certPEM, made, signed⟩ := bind_eq_ok signed
        obtain ⟨⟨serial, expiresAt⟩, parsed, signed⟩ := bind_eq_ok signed
        cases signed
        exact ⟨⟨filled, role, resolved, ca, mapError_ok_iff.mp found, allowed, ttl, read, within,
          caKey, opened, certPEM, mapError_ok_iff.mp made, serial, expiresAt, parsed⟩, rfl⟩
  · rintro ⟨signature, rfl⟩
    rw [if_neg signature.filled]
    refine bind_ok_iff.mpr ⟨_, signature.resolved, ?_⟩
    refine bind_ok_iff.mpr ⟨_, mapError_ok_iff.mpr signature.found, ?_⟩
    refine bind_ok_iff.mpr ⟨_, signature.allowed, ?_⟩
    refine (issuer.askedTTL_bind _ _).symm.trans (bind_ok_iff.mpr ⟨_, signature.read, ?_⟩)
    beta_reduce
    rw [if_neg signature.within]
    refine bind_ok_iff.mpr ⟨_, signature.opened, ?_⟩
    refine bind_ok_iff.mpr ⟨_, mapError_ok_iff.mpr signature.signed, ?_⟩
    exact bind_ok_iff.mpr ⟨_, signature.parsed, rfl⟩

end Acceptance

/-! ### The role that is used -/

variable {issuer env}

theorem resolvePKIRole_ok_iff {name : String} {role : PKIRole} :
    issuer.resolvePKIRole name = .ok role ↔
      issuer.roles.find (if trimSpace name = "" then "root" else trimSpace name) = some role :=
  mapError_ok_iff.trans getRow_ok_iff

theorem find_of_resolvePKIRole {name : String} {role : PKIRole} (named : trimSpace name ≠ "")
    (resolved : issuer.resolvePKIRole name = .ok role) :
    issuer.roles.find (trimSpace name) = some role := by
  rwa [resolvePKIRole_ok_iff, if_neg named] at resolved

theorem resolved_of_signCSR {req : SignCSRRequest} {result : SignCSRResult}
    (signed : issuer.signCSR env req = .ok result) :
    ∃ role, issuer.resolvePKIRole req.role = .ok role := by
  obtain ⟨signature, -⟩ := signCSR_ok_iff.mp signed
  exact ⟨signature.role, signature.resolved⟩

theorem resolved_of_issueCertificate {req : IssueRequest}
    {result : IssueResult × IssuedCertRepository}
    (issued : issuer.issueCertificate env req = .ok result) :
    ∃ role, issuer.resolvePKIRole req.role = .ok role := by
  obtain ⟨issuance, -⟩ := issueCertificate_ok_iff.mp issued
  exact ⟨issuance.role, issuance.resolved⟩

end Issuer

end KnxVault.Engine.Pki
