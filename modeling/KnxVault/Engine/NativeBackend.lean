import KnxVault.Engine.Issue
import KnxVault.Std.Hexadecimal

/-!
# The native certificate backend

`NativeBackend` of `internal/crypto/pki` over `internal/crypto/x509native`: which
leaf certificates it makes. Texts and keys are read, encoded and signed by the x509
library, which writes into a certificate what stands in its template.
-/

namespace KnxVault.Engine.Pki

open KnxVault.Std KnxVault.Domain KnxVault.Crypto KnxVault.Repository

inductive KeyUsage where
  | digitalSignature
  | keyEncipherment
deriving DecidableEq, Repr

inductive ExtKeyUsage where
  | serverAuth
  | clientAuth
  | codeSigning
deriving DecidableEq, Repr

/-- The fields of a certificate that the templates of leaf certificates set. -/
structure Certificate where
  serialNumber : Nat := 0
  organization : List String := []
  names : CSR := {}
  notBefore : Time := {}
  notAfter : Time := {}
  keyUsage : List KeyUsage := []
  extKeyUsage : List ExtKeyUsage := []
  basicConstraintsValid : Bool := false
  isCA : Bool := false
deriving DecidableEq, Repr

/-- Times in a certificate have no parts of a second. -/
def wholeSeconds (time : Time) : Time :=
  { time with instant := time.instant - time.instant % nanosecondsPerSecond }

def Certificate.encoded (template : Certificate) : Certificate :=
  { template with
    notBefore := wholeSeconds template.notBefore, notAfter := wholeSeconds template.notAfter }

structure CertificateRequest where
  names : CSR
  organization : List String
  publicKey : Bytes

/-- What can be wrong with the text of a certificate request. -/
inductive RequestFault where
  | pem
  | parse (cause : String)
  | signature (cause : String)

/-- The x509 library. -/
structure X509 where
  parseCertificate : String → Except String Certificate
  /-- Decode a request and check its signature. -/
  parseRequest : String → Except RequestFault CertificateRequest
  /-- An RSA key in one of two forms. -/
  parsePrivateKey : Bytes → Except String Bytes
  generateKey : Int → Except String Bytes
  publicKey : Bytes → Bytes
  encodeKey : Bytes → String
  parseIP : String → Option String
  /-- The text of the certificate, from a template, the parent, a public key and the
  key that signs. -/
  createCertificate : Certificate → Certificate → Bytes → Bytes → Except String String
  parse_create : ∀ {template parent publicKey signer certPEM},
    createCertificate template parent publicKey signer = .ok certPEM →
      parseCertificate certPEM = .ok template.encoded

/-! ### Leaf certificates -/

def validateCommonName (cn : String) : Except String Unit :=
  if trimSpace cn = "" then .error "common name is required"
  else if cn.toList.any fun char => char = '/' || char.toNat < 0x20 then
    .error "common name contains invalid characters"
  else .ok ()

def minRSAKeyBits : Int := 2048

def normalizeKeyBits (keyBits : Int) : Except String Int :=
  if keyBits = 0 then .ok minRSAKeyBits
  else if keyBits < minRSAKeyBits then
    .error ("rsa key_bits must be >= " ++ toString minRSAKeyBits ++ " (got " ++ toString keyBits ++
      ")")
  else .ok keyBits

def keyUsageForRole (lib : Library) (usage : RoleUsage) : List KeyUsage × List ExtKeyUsage :=
  let usage := PKIRole.lowerText lib (trimSpace usage.text)
  if usage = "client" then ([.digitalSignature], [.clientAuth])
  else if usage = "code_signing" then ([.digitalSignature], [.codeSigning])
  else ([.digitalSignature, .keyEncipherment], [.serverAuth])

section Templates

variable (x509 : X509) (lib : Library) (now : Time) (serial : Nat)

/-- Texts that are no addresses are left out. -/
def parseIPAddresses (parseIP : String → Option String) (raw : List String) : List String :=
  raw.filterMap fun addr => if trimSpace addr = "" then none else parseIP (trimSpace addr)

def leafTemplate (parseIP : String → Option String) (req : LeafRequest) : Certificate where
  serialNumber := serial
  organization := ["KNXVault"]
  names := {
    commonName := req.commonName, dnsNames := req.dnsNames
    ipAddresses := parseIPAddresses parseIP req.ipAddresses }
  notBefore := now.utc
  notAfter := now.utc.add req.ttl
  keyUsage := (keyUsageForRole lib req.keyUsage).1
  extKeyUsage := (keyUsageForRole lib req.keyUsage).2

def csrTemplate (csr : CertificateRequest) (req : CSRLeafRequest) : Certificate where
  serialNumber := serial
  organization := csr.organization
  names := csr.names
  notBefore := now.utc
  notAfter := now.utc.add req.ttl
  keyUsage := (keyUsageForRole lib req.keyUsage).1
  extKeyUsage := (keyUsageForRole lib req.keyUsage).2
  basicConstraintsValid := true

def issueCertificateWithUsage (req : LeafRequest) : Except String (String × String) := do
  let caCert ← (x509.parseCertificate req.caCertPEM).mapError ("parse ca certificate: " ++ ·)
  let caKey ← (x509.parsePrivateKey req.caKeyPEM).mapError ("parse ca key: " ++ ·)
  let keyBits ← normalizeKeyBits req.keyBits
  let priv ← (x509.generateKey keyBits).mapError ("generate leaf key: " ++ ·)
  let certPEM ← (x509.createCertificate (leafTemplate lib now serial x509.parseIP req) caCert
    (x509.publicKey priv) caKey).mapError ("create certificate: " ++ ·)
  pure (certPEM, x509.encodeKey priv)

def signCSRWithUsage (req : CSRLeafRequest) : Except String String := do
  let csr ← (x509.parseRequest req.csrPEM).mapError fun
    | .pem => "decode csr pem"
    | .parse cause => "parse csr: " ++ cause
    | .signature cause => "invalid csr signature: " ++ cause
  let caCert ← (x509.parseCertificate req.caCertPEM).mapError ("parse ca certificate: " ++ ·)
  let caKey ← (x509.parsePrivateKey req.caKeyPEM).mapError ("parse ca key: " ++ ·)
  (x509.createCertificate (csrTemplate lib now serial csr req) caCert csr.publicKey caKey).mapError
    ("sign csr: " ++ ·)

/-- The backend at a time, with the serial number that it draws. -/
def nativeBackend : Backend where
  issueCertificate req := do
    validateCommonName req.commonName
    issueCertificateWithUsage x509 lib now serial req
  signCSR := signCSRWithUsage x509 lib now serial
  parseCertMetadata certPEM := do
    let cert ← (x509.parseCertificate certPEM).mapError fun err => { text := err }
    pure (toHex cert.serialNumber, cert.notAfter)
  parseCSR csrPEM := (x509.parseRequest csrPEM).mapError (fun
    | .pem => KNXVaultError.asGoError { code := .validation, message := "invalid csr pem" }
    | .parse cause => wrapCause .validation "parse csr" cause
    | .signature cause => wrapCause .validation "invalid csr signature" cause) |>.map (·.names)

/-- The engine on the native backend. -/
def Issuer.native (issuer : Issuer) : Issuer :=
  { issuer with backend := nativeBackend x509 issuer.lib now serial }

end Templates

/-! ### What is in a certificate -/

section Certificates

variable {x509 : X509} {lib : Library} {now : Time} {serial : Nat}

theorem validateCommonName_ok_iff {cn : String} :
    validateCommonName cn = .ok () ↔
      trimSpace cn ≠ "" ∧ ∀ char ∈ cn.toList, char ≠ '/' ∧ 0x20 ≤ char.toNat := by
  unfold validateCommonName
  split
  · simp [*]
  · rename_i filled
    simp only [filled, ne_eq, not_false_eq_true, true_and]
    split <;> rename_i invalid
    · obtain ⟨char, mem, bad⟩ := List.any_eq_true.mp invalid
      simp only [Bool.or_eq_true, decide_eq_true_eq] at bad
      refine ⟨fun passed => (nomatch passed), fun valid => ?_⟩
      obtain ⟨other, printed⟩ := valid char mem
      exact absurd bad (not_or.mpr ⟨other, not_lt.mpr printed⟩)
    · simpa using invalid

theorem normalizeKeyBits_ok_iff {keyBits bits : Int} :
    normalizeKeyBits keyBits = .ok bits ↔
      keyBits = 0 ∧ bits = minRSAKeyBits ∨ minRSAKeyBits ≤ keyBits ∧ bits = keyBits := by
  have positive : 0 < minRSAKeyBits := by decide
  unfold normalizeKeyBits
  split
  · rename_i unset
    simp only [unset, Except.ok.injEq, true_and, eq_comm]
    omega
  · split
    · simp
      omega
    · simp
      omega

theorem toHex_ne_empty (number : Int) : toHex number ≠ "" := by
  intro empty
  have read := ofHex_toHex number
  rw [empty] at read
  cases read

/-- A certificate that is issued says what its template does. -/
theorem issue_certificate {req : LeafRequest} {certPEM keyPEM : String}
    (issued : (nativeBackend x509 lib now serial).issueCertificate req = .ok (certPEM, keyPEM)) :
    validateCommonName req.commonName = .ok () ∧ (∃ bits, normalizeKeyBits req.keyBits = .ok bits) ∧
      x509.parseCertificate certPEM =
        .ok (leafTemplate lib now serial x509.parseIP req).encoded := by
  obtain ⟨_, valid, issued⟩ := bind_eq_ok issued
  obtain ⟨caCert, -, issued⟩ := bind_eq_ok issued
  obtain ⟨caKey, -, issued⟩ := bind_eq_ok issued
  obtain ⟨bits, sized, issued⟩ := bind_eq_ok issued
  obtain ⟨priv, -, issued⟩ := bind_eq_ok issued
  obtain ⟨created, made, issued⟩ := bind_eq_ok issued
  cases issued
  exact ⟨valid, ⟨bits, sized⟩, x509.parse_create (mapError_ok_iff.mp made)⟩

/-- A certificate that is signed on request says what its template does. -/
theorem sign_certificate {req : CSRLeafRequest} {certPEM : String}
    (signed : (nativeBackend x509 lib now serial).signCSR req = .ok certPEM) :
    ∃ csr, x509.parseRequest req.csrPEM = .ok csr ∧
      x509.parseCertificate certPEM = .ok (csrTemplate lib now serial csr req).encoded := by
  obtain ⟨csr, parsed, signed⟩ := bind_eq_ok signed
  obtain ⟨caCert, -, signed⟩ := bind_eq_ok signed
  obtain ⟨caKey, -, signed⟩ := bind_eq_ok signed
  exact ⟨csr, mapError_ok_iff.mp parsed, x509.parse_create (mapError_ok_iff.mp signed)⟩

/-- The backend issues what the library can make. -/
theorem issueCertificate_of_library {req : LeafRequest} {parent : Certificate}
    {key priv : Bytes} {bits : Int} {certPEM : String}
    (named : validateCommonName req.commonName = .ok ())
    (parsedCA : x509.parseCertificate req.caCertPEM = .ok parent)
    (parsedKey : x509.parsePrivateKey req.caKeyPEM = .ok key)
    (normal : normalizeKeyBits req.keyBits = .ok bits)
    (generated : x509.generateKey bits = .ok priv)
    (created : x509.createCertificate (leafTemplate lib now serial x509.parseIP req) parent
      (x509.publicKey priv) key = .ok certPEM) :
    (nativeBackend x509 lib now serial).issueCertificate req =
      .ok (certPEM, x509.encodeKey priv) := by
  refine bind_ok_iff.mpr ⟨_, named, ?_⟩
  refine bind_ok_iff.mpr ⟨_, mapError_ok_iff.mpr parsedCA, ?_⟩
  refine bind_ok_iff.mpr ⟨_, mapError_ok_iff.mpr parsedKey, ?_⟩
  refine bind_ok_iff.mpr ⟨_, normal, ?_⟩
  refine bind_ok_iff.mpr ⟨_, mapError_ok_iff.mpr generated, ?_⟩
  exact bind_ok_iff.mpr ⟨_, mapError_ok_iff.mpr created, rfl⟩

/-- The backend signs what the library can make. -/
theorem signCSR_of_library {req : CSRLeafRequest} {csr : CertificateRequest}
    {parent : Certificate} {key : Bytes} {certPEM : String}
    (parsed : x509.parseRequest req.csrPEM = .ok csr)
    (parsedCA : x509.parseCertificate req.caCertPEM = .ok parent)
    (parsedKey : x509.parsePrivateKey req.caKeyPEM = .ok key)
    (created : x509.createCertificate (csrTemplate lib now serial csr req) parent csr.publicKey
      key = .ok certPEM) :
    (nativeBackend x509 lib now serial).signCSR req = .ok certPEM := by
  refine bind_ok_iff.mpr ⟨_, mapError_ok_iff.mpr parsed, ?_⟩
  refine bind_ok_iff.mpr ⟨_, mapError_ok_iff.mpr parsedCA, ?_⟩
  refine bind_ok_iff.mpr ⟨_, mapError_ok_iff.mpr parsedKey, ?_⟩
  exact mapError_ok_iff.mpr created

theorem parseCSR_ok_iff {csrPEM : String} {names : CSR} :
    (nativeBackend x509 lib now serial).parseCSR csrPEM = .ok names ↔
      ∃ csr, x509.parseRequest csrPEM = .ok csr ∧ csr.names = names := by
  cases parsed : x509.parseRequest csrPEM <;>
    simp [nativeBackend, parsed, Except.mapError, Except.map]

theorem parseCertMetadata_ok_iff {certPEM text : String} {expiresAt : Time} :
    (nativeBackend x509 lib now serial).parseCertMetadata certPEM = .ok (text, expiresAt) ↔
      ∃ cert, x509.parseCertificate certPEM = .ok cert ∧ toHex cert.serialNumber = text ∧
        cert.notAfter = expiresAt := by
  cases parsed : x509.parseCertificate certPEM <;>
    simp [nativeBackend, parsed, Except.mapError, bind, Except.bind, pure, Except.pure]

/-- A lifetime of whole seconds is not made longer by the encoding. -/
theorem wholeSeconds_add_le {time : Time} {duration seconds : Int}
    (short : duration ≤ seconds * nanosecondsPerSecond) :
    (wholeSeconds (time.add duration)).instant - (wholeSeconds time).instant ≤
      seconds * nanosecondsPerSecond := by
  have second : nanosecondsPerSecond = 1000000000 := rfl
  simp only [wholeSeconds, Time.add, second] at short ⊢
  omega

end Certificates

-- What the proofs need of the backend is said above.
attribute [irreducible] nativeBackend

/-! ### A library that knows some certificates -/

section Samples

/-- In place of a backend that is yet to be chosen. -/
def noBackend : Backend where
  issueCertificate _ := .error "no backend"
  signCSR _ := .error "no backend"
  parseCertMetadata _ := .error { text := "no backend" }
  parseCSR _ := .error { text := "no backend" }

/-- Encodes the known templates as the texts given with them, and reads every
certificate request as one. -/
def sampleX509 (request : CertificateRequest) (known : List (String × Certificate)) : X509 where
  parseCertificate certPEM := .ok ((known.lookup certPEM).getD {}).encoded
  parseRequest _ := .ok request
  parsePrivateKey key := .ok key
  generateKey _ := .ok [7]
  publicKey key := key
  encodeKey _ := "KEY"
  parseIP addr := some addr
  createCertificate template _ _ _ :=
    match known.find? fun entry => known.lookup entry.1 = some template with
    | some entry => .ok entry.1
    | none => .error "x509: cannot encode"
  parse_create {template _ _ _ certPEM} created := by
    split at created
    · rename_i entry found
      cases created
      have listed : known.lookup entry.1 = some template := by simpa using List.find?_some found
      rw [listed, Option.getD_some]
    · cases created

theorem sampleX509_creates {request : CertificateRequest} {known : List (String × Certificate)}
    {template : Certificate} {entry : String × Certificate} (mem : entry ∈ known)
    (listed : known.lookup entry.1 = some template) (parent : Certificate)
    (publicKey signer : Bytes) :
    ∃ certPEM, (sampleX509 request known).createCertificate template parent publicKey signer =
      .ok certPEM := by
  simp only [sampleX509]
  split
  · exact ⟨_, rfl⟩
  · rename_i missing
    exact absurd (decide_eq_true listed) (List.find?_eq_none.mp missing entry mem)

end Samples

end KnxVault.Engine.Pki
