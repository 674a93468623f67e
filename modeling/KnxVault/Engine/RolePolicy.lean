import KnxVault.Engine.NativeBackend
import KnxVault.Std.DomainName

/-!
# What a role allows

The names and the lifetime of the certificates that `IssueCertificate` and `SignCSR`
of `internal/engine/pki` make under a role.
-/

namespace KnxVault.Engine.Pki

open KnxVault.Std KnxVault.Domain KnxVault.Crypto KnxVault.Repository

/-! ### The two checks -/

/-- A check that refuses on a condition passes without it. -/
theorem unless_ok_iff {α : Type} {condition : Prop} [Decidable condition] {code : ErrorCode}
    {message : String} {rest : Except GoError α} {value : α} :
    (if condition then refuse code message else rest) = .ok value ↔
      ¬ condition ∧ rest = .ok value := by
  split
  · rename_i holds
    exact ⟨fun refused => (nomatch refused), fun passed => absurd holds passed.1⟩
  · rename_i fails
    exact ⟨fun passed => ⟨fails, passed⟩, And.right⟩

namespace Issuer

variable {issuer : Issuer} {role : PKIRole}

/-- A loop over names that refuses the first one that is not allowed. -/
theorem unless_refused_ok_iff {α : Type} {names : List String} {message : String → String}
    {rest : Except GoError α} {value : α} :
    (match names.find? fun name => !role.allowedDomain issuer.lib name with
      | some name => refuse .validation (message name)
      | none => rest) = .ok value ↔
      (∀ name ∈ names, role.allowedDomain issuer.lib name = true) ∧ rest = .ok value := by
  cases found : names.find? fun name => !role.allowedDomain issuer.lib name with
  | none =>
    have allowed : ∀ name ∈ names, role.allowedDomain issuer.lib name = true := by
      simpa using found
    exact ⟨fun passed => ⟨allowed, passed⟩, And.right⟩
  | some name =>
    refine ⟨fun refused => (nomatch refused), fun passed => ?_⟩
    have allowed := passed.1 name (List.mem_of_find?_eq_some found)
    have refused := List.find?_some found
    rw [allowed] at refused
    cases refused

theorem validateIssue_ok_iff {req : IssueRequest} :
    issuer.validateIssueAgainstRole role req = .ok () ↔
      ¬ (trimSpace req.commonName ≠ "" ∧
        ¬ role.allowedDomain issuer.lib (trimSpace req.commonName)) ∧
      (∀ name ∈ req.dnsNames, role.allowedDomain issuer.lib name = true) ∧
      ¬ (req.ipAddresses ≠ [] ∧ ¬ role.allowsAnyDomain) ∧
      issuer.checkTTL role req.ttl = .ok () := by
  unfold validateIssueAgainstRole
  rw [unless_ok_iff]
  exact and_congr_right fun _ =>
    unless_refused_ok_iff.trans (and_congr_right fun _ => unless_ok_iff)

/-- The names of a certificate request that are matched against the role. -/
def matchedNames (csr : CSR) : List String :=
  (if trimSpace csr.commonName ≠ "" then [trimSpace csr.commonName] else []) ++ csr.dnsNames

theorem validateCSR_ok_iff {csrPEM ttl : String} :
    issuer.validateCSRAgainstRole role csrPEM ttl = .ok () ↔
      ∃ csr, issuer.backend.parseCSR csrPEM = .ok csr ∧
        ¬ (csr.ipAddresses ≠ [] ∧ ¬ role.allowsAnyDomain) ∧
        ¬ (csr.emailAddresses ≠ [] ∧ ¬ role.allowsAnyDomain) ∧
        ¬ (csr.uris ≠ [] ∧ ¬ role.allowsAnyDomain) ∧
        ¬ (¬ role.allowsAnyDomain ∧ matchedNames csr = []) ∧
        (∀ name ∈ matchedNames csr, role.allowedDomain issuer.lib name = true) ∧
        issuer.checkTTL role ttl = .ok () := by
  unfold validateCSRAgainstRole matchedNames
  rw [bind_ok_iff]
  refine exists_congr fun csr => and_congr_right fun _ => ?_
  generalize (if trimSpace csr.commonName ≠ "" then [trimSpace csr.commonName] else []) ++
    csr.dnsNames = names
  rw [unless_ok_iff, unless_ok_iff, unless_ok_iff, unless_ok_iff]
  refine and_congr_right fun _ => and_congr_right fun _ => and_congr_right fun _ =>
    and_congr_right fun _ => ?_
  exact unless_refused_ok_iff

end Issuer

/-! ### Names under a role -/

/-- The names in a certificate. -/
def certifiedNames (names : CSR) : List String :=
  (if names.commonName ≠ "" then [names.commonName] else []) ++ names.dnsNames ++
    names.ipAddresses ++ names.emailAddresses ++ names.uris

/-- A valid name that is, but for case, an allowed domain or below one. -/
structure Within (lib : Library) (role : PKIRole) (name : String) : Prop where
  valid : validName name = true
  domain : ∃ allowed ∈ role.allowedDomains,
    PKIRole.lowerText lib name = PKIRole.lowerText lib (trimSpace allowed) ∨
      role.allowSubdomains = true ∧
        Below (PKIRole.lowerText lib name) (PKIRole.lowerText lib (trimSpace allowed))

/-- The longest lifetime under a role, in nanoseconds. -/
def roleMaximum (role : PKIRole) : Int :=
  (if 0 < role.maxTTLSeconds then role.maxTTLSeconds else defaultRoleMaxTTLSeconds) *
    nanosecondsPerSecond

/-- The names in the certificate are within the role, and so is its lifetime. -/
structure SoundUnder (lib : Library) (role : PKIRole) (cert : Certificate) : Prop where
  within : ∀ name ∈ certifiedNames cert.names, Within lib role name
  limited : cert.notAfter.instant - cert.notBefore.instant ≤ roleMaximum role

/-- The names of an issue request. -/
def requestedNames (req : IssueRequest) : CSR where
  commonName := req.commonName
  dnsNames := req.dnsNames
  ipAddresses := req.ipAddresses

/-- The engine accepts a request for the names under the role and returns the
certificate. -/
inductive Certified (issuer : Issuer) (x509 : X509) (env : Env) (serial : Nat) :
    PKIRole → CSR → Certificate → Prop
  | issued {req : IssueRequest} {result : IssueResult} {later : IssuedCertRepository}
    {role : PKIRole} {cert : Certificate} (resolved : issuer.resolvePKIRole req.role = .ok role)
    (accepted : (issuer.native x509 env.now serial).issueCertificate env req = .ok (result, later))
    (read : x509.parseCertificate result.certPEM = .ok cert) :
    Certified issuer x509 env serial role (requestedNames req) cert
  | signed {req : SignCSRRequest} {result : SignCSRResult} {csr : CertificateRequest}
    {role : PKIRole} {cert : Certificate} (resolved : issuer.resolvePKIRole req.role = .ok role)
    (accepted : (issuer.native x509 env.now serial).signCSR env req = .ok result)
    (parsed : x509.parseRequest req.csrPEM = .ok csr)
    (read : x509.parseCertificate result.certPEM = .ok cert) :
    Certified issuer x509 env serial role csr.names cert

theorem wrap64_le {number : Int} (nonneg : 0 ≤ number) : wrap64 number ≤ number := by
  unfold wrap64
  rw [Int.bmod_def]
  split <;> omega

theorem maxTTL_le (role : PKIRole) : Issuer.maxTTL role ≤ roleMaximum role := by
  unfold Issuer.maxTTL roleMaximum
  split
  · rename_i positive
    exact wrap64_le (Int.mul_nonneg (by omega) (by decide))
  · decide

section Restricted

variable {lib : Library} {role : PKIRole} (restricted : role.allowsAnyDomain = false)
include restricted

/-- Of a valid name, the check tells whether it is within the role. -/
theorem within_of_allowedDomain {name : String} (valid : validName name = true)
    (allowed : role.allowedDomain lib name = true) : Within lib role name := by
  refine ⟨valid, ?_⟩
  unfold PKIRole.allowedDomain at allowed
  simp only [trimSpace_of_validName valid, restricted, Bool.false_or, Bool.and_eq_true,
    List.any_eq_true, Bool.or_eq_true, decide_eq_true_eq] at allowed
  obtain ⟨-, domain, listed, -, same | ⟨subdomains, ends⟩⟩ := allowed
  · exact ⟨domain, listed, .inl same.symm⟩
  · exact ⟨domain, listed, .inr ⟨subdomains, below_of_hasSuffix ends⟩⟩

/-- A name that is checked without the space around it is within the role exactly if
it is valid as it stands. -/
theorem within_iff {name : String}
    (allowed : trimSpace name ≠ "" → role.allowedDomain lib (trimSpace name) = true) :
    Within lib role name ↔ validName name = true := by
  refine ⟨Within.valid, fun valid => ?_⟩
  have kept := trimSpace_of_validName valid
  rw [kept] at allowed
  exact within_of_allowedDomain restricted valid (allowed (validName_ne_empty valid))

end Restricted

/-- What both checks make sure of. -/
structure Checked (lib : Library) (role : PKIRole) (names : CSR) : Prop where
  commonName : trimSpace names.commonName ≠ "" →
    role.allowedDomain lib (trimSpace names.commonName) = true
  dnsNames : ∀ name ∈ names.dnsNames, role.allowedDomain lib name = true
  unaddressed : role.allowsAnyDomain = false → names.ipAddresses = []
  unmailed : role.allowsAnyDomain = false → names.emailAddresses = []
  unlinked : role.allowsAnyDomain = false → names.uris = []

theorem unless_restricted {texts : List String} {anyDomain : Bool} :
    ¬ (texts ≠ [] ∧ ¬ anyDomain) ↔ (anyDomain = false → texts = []) := by
  cases anyDomain <;> simp

variable {issuer : Issuer} {role : PKIRole}

theorem checked_iff_issue {req : IssueRequest} :
    issuer.validateIssueAgainstRole role req = .ok () ↔
      Checked issuer.lib role (requestedNames req) ∧ issuer.checkTTL role req.ttl = .ok () := by
  rw [Issuer.validateIssue_ok_iff, unless_restricted]
  constructor
  · rintro ⟨named, dns, addressed, limited⟩
    exact ⟨⟨not_and_not_right.mp named, dns, addressed, fun _ => rfl, fun _ => rfl⟩, limited⟩
  · rintro ⟨checked, limited⟩
    exact ⟨fun refused => refused.2 (checked.commonName refused.1), checked.dnsNames,
      checked.unaddressed, limited⟩

variable {names : CSR}

theorem matchedNames_allowed_iff {lib : Library} :
    (∀ name ∈ Issuer.matchedNames names, role.allowedDomain lib name = true) ↔
      (trimSpace names.commonName ≠ "" →
        role.allowedDomain lib (trimSpace names.commonName) = true) ∧
      ∀ name ∈ names.dnsNames, role.allowedDomain lib name = true := by
  unfold Issuer.matchedNames
  rw [List.forall_mem_append]
  split <;> simp_all

theorem checked_iff_csr {csrPEM ttl : String}
    (parsed : issuer.backend.parseCSR csrPEM = .ok names) :
    issuer.validateCSRAgainstRole role csrPEM ttl = .ok () ↔
      Checked issuer.lib role names ∧
        ¬ (role.allowsAnyDomain = false ∧ Issuer.matchedNames names = []) ∧
        issuer.checkTTL role ttl = .ok () := by
  rw [Issuer.validateCSR_ok_iff]
  constructor
  · rintro ⟨csr, read, addressed, mailed, linked, named, allowed, limited⟩
    obtain rfl : csr = names := Except.ok.inj (read.symm.trans parsed)
    obtain ⟨common, dns⟩ := matchedNames_allowed_iff.mp allowed
    exact ⟨⟨common, dns, unless_restricted.mp addressed, unless_restricted.mp mailed,
      unless_restricted.mp linked⟩, by simpa using named, limited⟩
  · rintro ⟨checked, named, limited⟩
    exact ⟨names, parsed, unless_restricted.mpr checked.unaddressed,
      unless_restricted.mpr checked.unmailed, unless_restricted.mpr checked.unlinked,
      by simpa using named, matchedNames_allowed_iff.mpr ⟨checked.commonName, checked.dnsNames⟩,
      limited⟩

/-- What the certificate says: the names that were checked, unless the role allows any, and a
lifetime within the limit. -/
theorem certificate_of_certified {x509 : X509} {env : Env} {serial : Nat} {cert : Certificate}
    (certified : Certified issuer x509 env serial role names cert) :
    Checked issuer.lib role names ∧ (role.allowsAnyDomain = false → cert.names = names) ∧
      cert.notAfter.instant - cert.notBefore.instant ≤ roleMaximum role := by
  cases certified with
  | issued resolved accepted read =>
    obtain ⟨issuance, -, rfl⟩ := Issuer.issueCertificate_ok_iff.mp accepted
    obtain rfl : issuance.role = role := Except.ok.inj (issuance.resolved.symm.trans resolved)
    obtain ⟨-, -, written⟩ := issue_certificate issuance.signed
    obtain rfl := Except.ok.inj (written.symm.trans read)
    have checked := (checked_iff_issue.mp issuance.allowed).1
    refine ⟨checked, fun restricted => ?_, ?_⟩
    · have unaddressed := checked.unaddressed restricted
      simp only [requestedNames] at unaddressed
      simp only [Certificate.encoded, leafTemplate, requestedNames, unaddressed]
      rfl
    · exact wholeSeconds_add_le (le_trans (min_le_right _ _) (maxTTL_le _))
  | signed resolved accepted parsed read =>
    obtain ⟨signature, rfl⟩ := Issuer.signCSR_ok_iff.mp accepted
    obtain rfl : signature.role = role := Except.ok.inj (signature.resolved.symm.trans resolved)
    obtain ⟨csr, again, written⟩ := sign_certificate signature.signed
    obtain rfl := Except.ok.inj (parsed.symm.trans again)
    obtain rfl := Except.ok.inj (written.symm.trans read)
    have checked := ((checked_iff_csr (parseCSR_ok_iff.mpr ⟨_, parsed, rfl⟩)).mp
      signature.allowed).1
    exact ⟨checked, fun _ => rfl,
      wholeSeconds_add_le (le_trans (not_lt.mp signature.within) (maxTTL_le _))⟩

/-! ### A role of one domain -/

section Samples

/-- A role for a domain and what is below it, with the given limit in seconds. -/
def exampleRole (maxTTLSeconds : Int) : PKIRole :=
  { name := "web", caName := "ca", allowedDomains := ["example.com"], maxTTLSeconds
    keyUsage := .server, allowSubdomains := true }

/-- An engine with one role. -/
def policyIssuer (maxTTLSeconds : Int) : Issuer where
  lib := .sample
  aead := .doubling
  service := .sample
  parseTTL _ := .error "invalid ttl"
  backend := noBackend
  cas := sampleCAs
  roles := Table.empty.put (exampleRole maxTTLSeconds) ⟨rfl, rfl⟩
  revoked := .empty
  issued := .empty

/-- One second after the zero time. -/
def firstSecond : Env := .sample 1000000000

/-- The certificate request of an issue request. -/
def csrOf (req : IssueRequest) : CertificateRequest :=
  { names := requestedNames req, organization := [], publicKey := [] }

/-- A library that encodes both certificates for a request without addresses. -/
def policyX509 (req : IssueRequest) (ttl : Int) : X509 :=
  sampleX509 (csrOf req) [
    ("ISSUED", leafTemplate .sample firstSecond.now 7 some {
      caCertPEM := "CA", caKeyPEM := [5], commonName := req.commonName, dnsNames := req.dnsNames
      ipAddresses := [], ttl, keyBits := 0, keyUsage := .server }),
    ("SIGNED", csrTemplate .sample firstSecond.now 8 (csrOf req) {
      csrPEM := "csr", caCertPEM := "CA", caKeyPEM := [5], ttl, keyUsage := .server })]

end Samples

theorem exists_certified {x509 : X509} {env : Env} {serial : Nat} (req : SignCSRRequest)
    (csr : CertificateRequest) (resolved : issuer.resolvePKIRole req.role = .ok role)
    (parsed : x509.parseRequest req.csrPEM = .ok csr)
    (accepted : ((issuer.native x509 env.now serial).signCSR env req).isOk = true) :
    ∃ cert, Certified issuer x509 env serial role csr.names cert := by
  obtain ⟨result, signed⟩ := isOk_iff.mp accepted
  obtain ⟨signature, rfl⟩ := Issuer.signCSR_ok_iff.mp signed
  obtain ⟨cert, read, -⟩ := parseCertMetadata_ok_iff.mp signature.parsed
  exact ⟨cert, .signed resolved signed parsed read⟩

/-- An accepted certificate request of the sample. -/
theorem policyIssuer_certified (req : IssueRequest)
    (accepted : (((policyIssuer 0).native (policyX509 req defaultLeafTTL) firstSecond.now
      8).signCSR firstSecond { role := "web", csrPEM := "csr" }).isOk = true) :
    ∃ cert, Certified (policyIssuer 0) (policyX509 req defaultLeafTTL) firstSecond 8
      (exampleRole 0) (requestedNames req) cert := by
  have resolved : (policyIssuer 0).resolvePKIRole "web" = .ok (exampleRole 0) := by decide +kernel
  exact exists_certified { role := "web", csrPEM := "csr" } (csrOf req) resolved rfl accepted

/-- Under a role without `*`, a certificate is sound exactly if every name that was
asked for is a valid domain name as it stands. -/
theorem role_constraints_sound_iff {issuer : Issuer} {x509 : X509} {env : Env} {serial : Nat}
    {role : PKIRole} {names : CSR} {cert : Certificate}
    (certified : Certified issuer x509 env serial role names cert)
    (restricted : role.allowsAnyDomain = false) :
    SoundUnder issuer.lib role cert ↔ ∀ name ∈ certifiedNames names, validName name = true := by
  obtain ⟨checked, same, short⟩ := certificate_of_certified certified
  have within : ∀ name ∈ certifiedNames names,
      (Within issuer.lib role name ↔ validName name = true) := by
    intro name listed
    simp only [certifiedNames, checked.unaddressed restricted, checked.unmailed restricted,
      checked.unlinked restricted, List.append_nil] at listed
    rcases List.mem_append.mp listed with common | dns
    · obtain rfl : name = names.commonName := by
        split at common
        · exact List.mem_singleton.mp common
        · cases common
      exact within_iff restricted checked.commonName
    · refine within_iff restricted fun filled => ?_
      have allowed := checked.dnsNames name dns
      unfold PKIRole.allowedDomain at allowed ⊢
      rwa [trimSpace_trimSpace]
  rw [← same restricted] at within ⊢
  constructor
  · intro sound name listed
    exact (within name listed).mp (sound.within name listed)
  · intro valid
    exact ⟨fun name listed => (within name listed).mpr (valid name listed), short⟩

/-- A request for a name, and the certificate for it. -/
def wwwRequest : IssueRequest :=
  { role := "web", commonName := "", dnsNames := ["www.example.com"] }

/-- A request for a name below the domain. -/
theorem role_constraints_sound_www :
    (∃ cert, SoundUnder .sample (exampleRole 0) cert) ∧
      (exampleRole 0).allowsAnyDomain = false := by
  obtain ⟨cert, certified⟩ := policyIssuer_certified wwwRequest (by decide +kernel)
  exact ⟨⟨cert, (role_constraints_sound_iff certified (by decide)).mpr (by decide)⟩, by decide⟩

/-- A name that is not valid is in the certificate as it was asked for. -/
theorem policyIssuer_unsound (req : IssueRequest)
    (accepted : (((policyIssuer 0).native (policyX509 req defaultLeafTTL) firstSecond.now
      8).signCSR firstSecond { role := "web", csrPEM := "csr" }).isOk = true)
    {name : String} (listed : name ∈ certifiedNames (requestedNames req))
    (invalid : ¬ validName name = true) :
    ∃ cert, Certified (policyIssuer 0) (policyX509 req defaultLeafTTL) firstSecond 8
        (exampleRole 0) (requestedNames req) cert ∧
      name ∈ certifiedNames cert.names ∧ ¬ SoundUnder .sample (exampleRole 0) cert := by
  obtain ⟨cert, certified⟩ := policyIssuer_certified req accepted
  have same := (certificate_of_certified certified).2.1 (by decide)
  rw [← same] at listed
  exact ⟨cert, certified, listed, fun sound => invalid (sound.within name listed).valid⟩

/-- Requests for a name with a space and a slash, and for one with a space in front. -/
def slashRequest : IssueRequest := { role := "web", commonName := "any host/.example.com" }

def spaceRequest : IssueRequest :=
  { role := "web", commonName := "", dnsNames := [" example.com"] }

/-- Both names are certified as they are. -/
theorem role_constraints_pass_invalid_names :
    (exampleRole 0).allowsAnyDomain = false ∧
      (∃ cert, Certified (policyIssuer 0) (policyX509 slashRequest defaultLeafTTL) firstSecond 8
          (exampleRole 0) (requestedNames slashRequest) cert ∧
        "any host/.example.com" ∈ certifiedNames cert.names ∧
        ¬ SoundUnder .sample (exampleRole 0) cert) ∧
      ∃ cert, Certified (policyIssuer 0) (policyX509 spaceRequest defaultLeafTTL) firstSecond 8
          (exampleRole 0) (requestedNames spaceRequest) cert ∧
        " example.com" ∈ certifiedNames cert.names ∧
        ¬ SoundUnder .sample (exampleRole 0) cert :=
  ⟨by decide, policyIssuer_unsound slashRequest (by decide +kernel) (by decide) (by decide),
    policyIssuer_unsound spaceRequest (by decide +kernel) (by decide) (by decide)⟩

/-! ### Two ways to the same policy -/

/-- What both ways check of a request before they sign. -/
structure Shared (issuer : Issuer) (env : Env) (req : IssueRequest) where
  role : PKIRole
  resolved : issuer.resolvePKIRole req.role = .ok role
  ca : CA
  found : issuer.cas.getByName env.range role.caName = .ok ca
  checked : Checked issuer.lib role (requestedNames req)
  limited : issuer.checkTTL role req.ttl = .ok ()
  asked : Int
  read : issuer.askedTTL req.ttl = .ok asked
  within : ¬ (Issuer.maxTTL role < asked ∧ req.ttl ≠ "")
  caKey : Bytes
  opened : decryptKey issuer.aead issuer.service ca.privateKeyEnc ca.dekEnc = .ok caKey

namespace Shared

variable {issuer : Issuer} {env : Env} {req : IssueRequest}

def ttl (shared : Shared issuer env req) : Int := min shared.asked (Issuer.maxTTL shared.role)

def usage (shared : Shared issuer env req) : RoleUsage :=
  if shared.role.keyUsage ≠ .unset then shared.role.keyUsage else .server

/-- What the backend is given to issue. -/
def leaf (shared : Shared issuer env req) : LeafRequest where
  caCertPEM := shared.ca.certPEM
  caKeyPEM := shared.caKey
  commonName := req.commonName
  dnsNames := req.dnsNames
  ipAddresses := req.ipAddresses
  ttl := shared.ttl
  keyBits := req.keyBits
  keyUsage := shared.usage

/-- What the backend is given to sign. -/
def csrLeaf (shared : Shared issuer env req) (csrPEM : String) : CSRLeafRequest where
  csrPEM
  caCertPEM := shared.ca.certPEM
  caKeyPEM := shared.caKey
  ttl := shared.asked
  keyUsage := shared.usage

/-- An issue request needs a printable common name, a size of the key that is allowed
and, for its record, the name of the role and a second of lifetime. -/
structure Issuable (shared : Shared issuer env req) : Prop where
  role : req.role ≠ ""
  named : trimSpace req.commonName ≠ ""
  printable : ∀ char ∈ req.commonName.toList, char ≠ '/' ∧ 0x20 ≤ char.toNat
  sized : req.keyBits = 0 ∨ minRSAKeyBits ≤ req.keyBits
  second : nanosecondsPerSecond ≤ shared.ttl

/-- A certificate request needs a name, and its default lifetime is not cut. -/
def Signable (shared : Shared issuer env req) : Prop :=
  ¬ (shared.role.allowsAnyDomain = false ∧ Issuer.matchedNames (requestedNames req) = []) ∧
    shared.asked ≤ Issuer.maxTTL shared.role

/-- The checks have one outcome. -/
theorem unique (shared other : Shared issuer env req) : shared = other := by
  obtain ⟨role, resolved, ca, found, -, -, asked, read, -, caKey, opened⟩ := shared
  obtain ⟨role', resolved', ca', found', -, -, asked', read', -, caKey', opened'⟩ := other
  obtain rfl : role = role' := Except.ok.inj (resolved.symm.trans resolved')
  obtain rfl : ca = ca' := Except.ok.inj (found.symm.trans found')
  obtain rfl : asked = asked' := Except.ok.inj (read.symm.trans read')
  obtain rfl : caKey = caKey' := Except.ok.inj (opened.symm.trans opened')
  rfl

end Shared

/-- The library reads the certificate and the key of the authority, makes keys and
encodes the certificate. -/
structure Able (issuer : Issuer) (x509 : X509) (env : Env) (req : IssueRequest)
    (template : Shared issuer env req → Certificate) : Prop where
  readable : ∀ shared : Shared issuer env req, ∃ parent key,
    x509.parseCertificate shared.ca.certPEM = .ok parent ∧
      x509.parsePrivateKey shared.caKey = .ok key
  generates : ∀ bits, minRSAKeyBits ≤ bits → ∃ key, x509.generateKey bits = .ok key
  creates : ∀ (shared : Shared issuer env req) (parent : Certificate) (publicKey signer : Bytes),
    ∃ certPEM, x509.createCertificate (template shared) parent publicKey signer = .ok certPEM

/-- The library issues the certificate under a serial number that is not revoked, after
the first second of time. -/
structure Issues (issuer : Issuer) (x509 : X509) (env : Env) (serial : Nat) (req : IssueRequest) :
    Prop where
  able : Able issuer x509 env req fun shared =>
    leafTemplate issuer.lib env.now serial x509.parseIP shared.leaf
  unrevoked : issuer.revoked.isRevoked (toHex serial) = false
  dated : nanosecondsPerSecond ≤ env.now.instant

section Agreement

variable {issuer : Issuer} {x509 : X509} {env : Env} {serial other : Nat} {req : IssueRequest}
  {csrPEM : String} {csr : CertificateRequest}

/-- What an accepted issue request passed. -/
def Issuer.Issuance.shared (issuance : (issuer.native x509 env.now serial).Issuance env req) :
    Shared issuer env req where
  role := issuance.role
  resolved := issuance.resolved
  ca := issuance.ca
  found := issuance.found
  checked := (checked_iff_issue.mp issuance.allowed).1
  limited := (checked_iff_issue.mp issuance.allowed).2
  asked := issuance.asked
  read := issuance.read
  within := issuance.within
  caKey := issuance.caKey
  opened := issuance.opened

/-- What the certificate of an accepted request says, and its record with it. -/
theorem Issuer.Issuance.certificate
    (issuance : (issuer.native x509 env.now serial).Issuance env req) :
    x509.parseCertificate issuance.certPEM =
        .ok (leafTemplate issuer.lib env.now serial x509.parseIP issuance.leaf).encoded ∧
      issuance.serial = toHex serial ∧
      issuance.expiresAt = wholeSeconds (env.now.utc.add issuance.ttl) := by
  obtain ⟨-, -, written⟩ := issue_certificate issuance.signed
  obtain ⟨cert, read, text, expires⟩ := parseCertMetadata_ok_iff.mp issuance.parsed
  obtain rfl := Except.ok.inj (written.symm.trans read)
  exact ⟨written, text.symm, expires.symm⟩

theorem tdiv_second_pos_iff {duration : Int} :
    0 < duration.tdiv nanosecondsPerSecond ↔ nanosecondsPerSecond ≤ duration := by
  have second : nanosecondsPerSecond = 1000000000 := rfl
  have sign : Int.sign 1000000000 = 1 := rfl
  rw [second, Int.tdiv_eq_ediv, sign]
  split <;> omega

/-- The record of a certificate that lives for no longer than asked is valid exactly
if a second was asked for. -/
theorem ttlSeconds_pos_iff {now expiresAt ttl : Int} (short : expiresAt ≤ now + ttl) :
    0 < (if ttl.tdiv nanosecondsPerSecond ≤ 0 then (expiresAt - now).tdiv nanosecondsPerSecond
      else ttl.tdiv nanosecondsPerSecond) ↔ nanosecondsPerSecond ≤ ttl := by
  split
  · rename_i unset
    have small := mt tdiv_second_pos_iff.mpr (not_lt.mpr unset)
    rw [tdiv_second_pos_iff]
    omega
  · rename_i set
    exact ⟨fun positive => tdiv_second_pos_iff.mp positive, fun _ => not_le.mp set⟩

theorem wholeSeconds_le (time : Time) : (wholeSeconds time).instant ≤ time.instant := by
  have second : nanosecondsPerSecond = 1000000000 := rfl
  simp only [wholeSeconds, second]
  omega

/-- An accepted request that is recorded can be issued. -/
theorem Issuer.Issuance.issuable
    (issuance : (issuer.native x509 env.now serial).Issuance env req)
    (valid : issuance.record.validate = .ok ()) : issuance.shared.Issuable := by
  obtain ⟨named, ⟨bits, sized⟩, -⟩ := issue_certificate issuance.signed
  obtain ⟨filled, printable⟩ := validateCommonName_ok_iff.mp named
  obtain ⟨-, -, ⟨role, -, -⟩, positive, -⟩ := IssuedCertificate.validate_ok_iff.mp valid
  have short : issuance.expiresAt.instant ≤ env.now.instant + issuance.ttl := by
    rw [issuance.certificate.2.2]
    exact wholeSeconds_le _
  refine ⟨role, filled, printable, ?_, (ttlSeconds_pos_iff short).mp positive⟩
  rcases normalizeKeyBits_ok_iff.mp sized with ⟨unset, -⟩ | ⟨enough, -⟩
  · exact .inl unset
  · exact .inr enough

/-- A request that can be issued is accepted and recorded. -/
theorem Shared.issuance (issues : Issues issuer x509 env serial req)
    (unforced : req.forceKeyUsage = .unset) (shared : Shared issuer env req)
    (issuable : shared.Issuable) :
    ∃ issuance : (issuer.native x509 env.now serial).Issuance env req,
      issuance.record.validate = .ok () := by
  obtain ⟨parent, key, parsedCA, parsedKey⟩ := issues.able.readable shared
  obtain ⟨bits, normal, enough⟩ : ∃ bits, normalizeKeyBits req.keyBits = .ok bits ∧
      minRSAKeyBits ≤ bits := by
    rcases issuable.sized with unset | enough
    · exact ⟨_, normalizeKeyBits_ok_iff.mpr (.inl ⟨unset, rfl⟩), le_rfl⟩
    · exact ⟨_, normalizeKeyBits_ok_iff.mpr (.inr ⟨enough, rfl⟩), enough⟩
  obtain ⟨priv, generated⟩ := issues.able.generates bits enough
  obtain ⟨certPEM, created⟩ :=
    issues.able.creates shared parent (x509.publicKey priv) key
  have named := validateCommonName_ok_iff.mpr ⟨issuable.named, issuable.printable⟩
  let issuance : (issuer.native x509 env.now serial).Issuance env req := {
    role := shared.role, resolved := shared.resolved, ca := shared.ca, found := shared.found
    allowed := checked_iff_issue.mpr ⟨shared.checked, shared.limited⟩
    asked := shared.asked, read := shared.read, within := shared.within
    caKey := shared.caKey, opened := shared.opened, usage := shared.usage
    used := by rw [unforced]; rfl
    certPEM, keyPEM := x509.encodeKey priv
    signed := issueCertificate_of_library named parsedCA parsedKey normal generated created
    serial := toHex serial
    expiresAt := wholeSeconds (env.now.utc.add shared.ttl)
    parsed := parseCertMetadata_ok_iff.mpr ⟨_, x509.parse_create created, rfl, rfl⟩
    unrevoked := issues.unrevoked }
  have stored := Table.valid_of_find (CARepository.getByName_ok_iff.mp shared.found).1
  have filled : req.commonName ≠ "" := by
    intro empty
    have named := issuable.named
    rw [empty] at named
    exact absurd rfl named
  have nonzero : (wholeSeconds (env.now.utc.add shared.ttl)).isZero = false := by
    have dated := issues.dated
    have second := issuable.second
    have unit : nanosecondsPerSecond = 1000000000 := rfl
    simp only [wholeSeconds, Time.add, Time.utc, Time.isZero, decide_eq_false_iff_not, unit]
      at dated second ⊢
    omega
  exact ⟨issuance, IssuedCertificate.validate_ok_iff.mpr ⟨(env.newUUID 0).2,
    (CA.required stored).1, ⟨issuable.role, toHex_ne_empty _, filled⟩,
    (ttlSeconds_pos_iff (wholeSeconds_le _)).mpr issuable.second, nonzero⟩⟩

/-- An issue request is accepted exactly if it passes the checks and can be issued. -/
theorem issue_accepted_iff (issues : Issues issuer x509 env serial req)
    (unforced : req.forceKeyUsage = .unset) :
    ((issuer.native x509 env.now serial).issueCertificate env req).isOk = true ↔
      ∃ shared : Shared issuer env req, shared.Issuable := by
  constructor
  · intro accepted
    obtain ⟨⟨result, later⟩, issued⟩ := isOk_iff.mp accepted
    obtain ⟨issuance, saved, -⟩ := Issuer.issueCertificate_ok_iff.mp issued
    exact ⟨issuance.shared, issuance.issuable (saveRow_ok_iff.mp saved).1⟩
  · rintro ⟨shared, issuable⟩
    obtain ⟨issuance, valid⟩ := shared.issuance issues unforced issuable
    exact isOk_iff.mpr
      ⟨_, Issuer.issueCertificate_ok_iff.mpr ⟨issuance, saveRow_ok_iff.mpr ⟨valid, rfl⟩, rfl⟩⟩

/-- A certificate request is accepted exactly if it passes the checks, has a name and
its default lifetime is within the limit. -/
theorem csr_accepted_iff (able : Able issuer x509 env req fun shared =>
      csrTemplate issuer.lib env.now serial csr (shared.csrLeaf csrPEM))
    (filled : trimSpace csrPEM ≠ "") (parsed : x509.parseRequest csrPEM = .ok csr)
    (names : csr.names = requestedNames req) :
    ((issuer.native x509 env.now serial).signCSR env
        { role := req.role, csrPEM, ttl := req.ttl }).isOk = true ↔
      ∃ shared : Shared issuer env req, shared.Signable := by
  have read : (issuer.native x509 env.now serial).backend.parseCSR csrPEM =
    .ok (requestedNames req) := parseCSR_ok_iff.mpr ⟨csr, parsed, names⟩
  constructor
  · intro accepted
    obtain ⟨result, signed⟩ := isOk_iff.mp accepted
    obtain ⟨signature, -⟩ := Issuer.signCSR_ok_iff.mp signed
    obtain ⟨checked, named, limited⟩ := (checked_iff_csr read).mp signature.allowed
    exact ⟨{
      role := signature.role, resolved := signature.resolved, ca := signature.ca
      found := signature.found, checked, limited, asked := signature.ttl
      read := signature.read, within := fun exceeded => signature.within exceeded.1
      caKey := signature.caKey, opened := signature.opened }, named, not_lt.mp signature.within⟩
  · rintro ⟨shared, named, within⟩
    obtain ⟨parent, key, parsedCA, parsedKey⟩ := able.readable shared
    obtain ⟨certPEM, created⟩ := able.creates shared parent csr.publicKey key
    have signature : (issuer.native x509 env.now serial).Signature env
        { role := req.role, csrPEM, ttl := req.ttl } := {
      filled, role := shared.role, resolved := shared.resolved, ca := shared.ca
      found := shared.found
      allowed := (checked_iff_csr read).mpr ⟨shared.checked, named, shared.limited⟩
      ttl := shared.asked, read := shared.read, within := not_lt.mpr within
      caKey := shared.caKey, opened := shared.opened, certPEM
      signed := signCSR_of_library parsed parsedCA parsedKey created, serial := toHex serial
      expiresAt := wholeSeconds (env.now.utc.add shared.asked)
      parsed := parseCertMetadata_ok_iff.mpr ⟨_, x509.parse_create created, rfl, rfl⟩ }
    exact isOk_iff.mpr ⟨_, Issuer.signCSR_ok_iff.mpr ⟨signature, rfl⟩⟩

/-- Both ways accept or both refuse, and the two certificates have the same validity
and the same usage. -/
structure Agree (issuer : Issuer) (x509 : X509) (env : Env) (serial other : Nat)
    (req : IssueRequest) (csrPEM : String) : Prop where
  accepted : ((issuer.native x509 env.now serial).issueCertificate env req).isOk =
    ((issuer.native x509 env.now other).signCSR env
      { role := req.role, csrPEM, ttl := req.ttl }).isOk
  same : ∀ result later signed,
    (issuer.native x509 env.now serial).issueCertificate env req = .ok (result, later) →
    (issuer.native x509 env.now other).signCSR env { role := req.role, csrPEM, ttl := req.ttl } =
      .ok signed →
      ∃ first second, x509.parseCertificate result.certPEM = .ok first ∧
        x509.parseCertificate signed.certPEM = .ok second ∧
        first.notBefore = second.notBefore ∧ first.notAfter = second.notAfter ∧
        first.keyUsage = second.keyUsage ∧ first.extKeyUsage = second.extKeyUsage

/-- Two certificates for one request have the same validity and usage. -/
theorem same_certificates (unforced : req.forceKeyUsage = .unset)
    (issuance : (issuer.native x509 env.now serial).Issuance env req)
    (signature : (issuer.native x509 env.now other).Signature env
      { role := req.role, csrPEM, ttl := req.ttl }) :
    ∃ first second, x509.parseCertificate issuance.certPEM = .ok first ∧
      x509.parseCertificate signature.certPEM = .ok second ∧
      first.notBefore = second.notBefore ∧ first.notAfter = second.notAfter ∧
      first.keyUsage = second.keyUsage ∧ first.extKeyUsage = second.extKeyUsage := by
  obtain ⟨csr, -, written⟩ := sign_certificate signature.signed
  have role : issuance.role = signature.role :=
    Except.ok.inj (issuance.resolved.symm.trans signature.resolved)
  have asked : issuance.asked = signature.ttl :=
    Except.ok.inj (issuance.read.symm.trans signature.read)
  have used := issuance.used
  rw [unforced, role] at used
  have ttl : issuance.leaf.ttl = signature.leaf.ttl := by
    change min issuance.asked (Issuer.maxTTL issuance.role) = signature.ttl
    rw [role, asked]
    exact min_eq_left (not_lt.mp signature.within)
  have usage : issuance.leaf.keyUsage = signature.leaf.keyUsage := (Except.ok.inj used).symm
  refine ⟨_, _, issuance.certificate.1, written, ?_⟩
  simp only [Certificate.encoded, leafTemplate, csrTemplate, ttl, usage]
  exact ⟨trivial, rfl, rfl, rfl⟩

/-- A request for one name, without a lifetime. -/
def plainRequest : IssueRequest := { role := "web", commonName := "example.com" }

section Samples

variable (shared : Shared (policyIssuer 0) firstSecond plainRequest)

theorem plain_role : shared.role = exampleRole 0 := by
  have resolved : (policyIssuer 0).resolvePKIRole "web" = .ok (exampleRole 0) := by decide +kernel
  exact Except.ok.inj (shared.resolved.symm.trans resolved)

theorem plain_asked : shared.asked = defaultLeafTTL := (Except.ok.inj shared.read).symm

theorem plain_ttl : shared.ttl = defaultLeafTTL := by
  rw [Shared.ttl, plain_role, plain_asked]
  decide

theorem plain_usage : shared.usage = .server := by
  rw [Shared.usage, plain_role]
  rfl

end Samples

/-- The sample is able to make either of its two certificates. -/
theorem policyX509_able {req : IssueRequest} {ttl : Int}
    {template : Shared (policyIssuer 0) firstSecond req → Certificate}
    (creates : ∀ shared parent publicKey signer, ∃ certPEM,
      (policyX509 req ttl).createCertificate (template shared) parent publicKey signer =
        .ok certPEM) :
    Able (policyIssuer 0) (policyX509 req ttl) firstSecond req template where
  readable _ := ⟨_, _, rfl, rfl⟩
  generates _ _ := ⟨_, rfl⟩
  creates := creates

theorem plain_issues :
    Issues (policyIssuer 0) (policyX509 plainRequest defaultLeafTTL) firstSecond 7
      plainRequest where
  able := policyX509_able fun shared => by
    simp only [leafTemplate, Shared.leaf, plain_ttl, plain_usage]
    exact sampleX509_creates List.mem_cons_self rfl
  unrevoked := by decide
  dated := by decide

theorem plain_signs :
    Able (policyIssuer 0) (policyX509 plainRequest defaultLeafTTL) firstSecond plainRequest
      fun shared => csrTemplate .sample firstSecond.now 8 (csrOf plainRequest)
        (shared.csrLeaf "csr") :=
  policyX509_able fun shared => by
    simp only [csrTemplate, Shared.csrLeaf, plain_asked, plain_usage]
    exact sampleX509_creates (List.mem_cons_of_mem _ List.mem_cons_self) rfl

/-- An hour in nanoseconds. -/
def hour : Int := 3600 * nanosecondsPerSecond

end Agreement

end KnxVault.Engine.Pki
