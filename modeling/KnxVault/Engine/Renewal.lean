import KnxVault.Engine.RolePolicy

/-!
# Renewing certificates

`RenewCertificate` of `internal/engine/pki/renewal.go`: which certificate it makes from
the record of another one.
-/

namespace KnxVault.Engine.Pki

open KnxVault.Std KnxVault.Domain KnxVault.Crypto KnxVault.Repository

structure RenewRequest where
  caID : Uuid
  serial : String
  ttl : String := ""

structure RenewResult where
  previousSerial : String
  certPEM : String
  privateKeyPEM : String
  serial : String
  expiresAt : Time
deriving DecidableEq, Repr

/-- The issue request that is made from a record. -/
def rebuilt (record : IssuedCertificate) (ttl : String) : IssueRequest where
  role := record.role
  commonName := record.commonName
  dnsNames := record.dnsNames
  ttl := if ttl ≠ "" then ttl else toString record.ttlSeconds ++ "s"
  autoRenew := record.autoRenew

/-- Note in the new record which serial it renews. -/
def markRenewed (caID : Uuid) (prev : String) (result : IssueResult)
    (issued : IssuedCertRepository) : Except GoError RenewResult × IssuedCertRepository :=
  match issued.getBySerial caID result.serial with
  | .error err => (.error err.asGoError, issued)
  | .ok saved =>
    match issued.save { saved with renewedFromSerial := some prev } with
    | .error err => (.error err.asGoError, issued)
    | .ok later => (.ok {
        previousSerial := prev, certPEM := result.certPEM, privateKeyPEM := result.privateKeyPEM
        serial := result.serial, expiresAt := result.expiresAt }, later)

namespace Issuer

variable (issuer : Issuer) (env : Env)

/-- Issue a certificate again from its record. -/
def renewCertificate (req : RenewRequest) : Except GoError RenewResult × IssuedCertRepository :=
  if req.serial = "" then (refuse .validation "serial is required", issuer.issued)
  else
    match issuer.issued.getBySerial req.caID req.serial with
    | .error err => (.error err.asGoError, issuer.issued)
    | .ok record =>
      match issuer.issueCertificate env (rebuilt record req.ttl) with
      | .error err => (.error err, issuer.issued)
      | .ok (result, issued) => markRenewed req.caID record.serial result issued

end Issuer

/-! ### One renewal -/

section Renewal

variable {issuer : Issuer} {env : Env} {record : IssuedCertificate} {ttl : String}

/-- The renewal of a stored record. -/
def renewalOf (record : IssuedCertificate) (ttl : String) : RenewRequest :=
  { caID := record.caID, serial := record.serial, ttl }

theorem renewCertificate_of_find (stored : issuer.issued.find (certKey record) = some record) :
    issuer.renewCertificate env (renewalOf record ttl) =
      match issuer.issueCertificate env (rebuilt record ttl) with
      | .error err => (.error err, issuer.issued)
      | .ok (result, issued) => markRenewed record.caID record.serial result issued := by
  have found : issuer.issued.getBySerial record.caID record.serial = .ok record :=
    getRow_ok_iff.mpr stored
  have valid := Table.valid_of_find stored
  have filled : record.serial ≠ "" := (IssuedCertificate.validate_ok_iff.mp valid).2.2.1.2.1
  simp only [Issuer.renewCertificate, renewalOf, if_neg filled, found]

/-- The record of a renewal, with its mark. -/
def Issuer.Issuance.renewed (issuance : issuer.Issuance env (rebuilt record ttl)) :
    IssuedCertificate :=
  { issuance.record with renewedFromSerial := some record.serial }

/-- With the authority of the old certificate, the new record is marked. -/
theorem markRenewed_of_same {issuance : issuer.Issuance env (rebuilt record ttl)}
    (valid : issuance.record.validate = .ok ()) (same : issuance.ca.id = record.caID) :
    markRenewed record.caID record.serial issuance.result
        (issuer.issued.put issuance.record valid) =
      (.ok {
        previousSerial := record.serial, certPEM := issuance.certPEM
        privateKeyPEM := issuance.keyPEM, serial := issuance.serial
        expiresAt := issuance.expiresAt },
      (issuer.issued.put issuance.record valid).put issuance.renewed valid) := by
  have found : IssuedCertRepository.getBySerial (issuer.issued.put issuance.record valid)
      record.caID issuance.result.serial = .ok issuance.record := by
    rw [← same]
    exact getRow_ok_iff.mpr (Table.find_put_self issuer.issued issuance.record valid)
  have saved : IssuedCertRepository.save (issuer.issued.put issuance.record valid)
      { issuance.record with renewedFromSerial := some record.serial } =
        .ok ((issuer.issued.put issuance.record valid).put issuance.renewed valid) :=
    saveRow_ok_iff.mpr ⟨valid, rfl⟩
  simp only [markRenewed, found, saved]
  rfl

/-- With another authority, a new serial number is not found under the old one. -/
theorem markRenewed_of_other {issuance : issuer.Issuance env (rebuilt record ttl)}
    (valid : issuance.record.validate = .ok ()) (other : issuance.ca.id ≠ record.caID)
    (fresh : issuer.issued.find (toLex (record.caID, issuance.serial)) = none) :
    ∃ err, markRenewed record.caID record.serial issuance.result
      (issuer.issued.put issuance.record valid) =
        (.error err, issuer.issued.put issuance.record valid) := by
  have missing : IssuedCertRepository.getBySerial (issuer.issued.put issuance.record valid)
      record.caID issuance.result.serial = failWith .notFound "issued certificate not found" := by
    unfold IssuedCertRepository.getBySerial getRow
    have differs : certKey issuance.record ≠ toLex (record.caID, issuance.result.serial) :=
      fun same => other (Prod.mk.inj (toLex.injective same)).1
    have absent : issuer.issued.find (toLex (record.caID, issuance.result.serial)) = none := fresh
    rw [Table.find_put, if_neg differs, absent]
  simp only [markRenewed, missing]
  exact ⟨_, rfl⟩

/-- Serial numbers of new certificates are not in use. -/
def FreshSerial (issuer : Issuer) (env : Env) (req : IssueRequest) : Prop :=
  ∀ (issuance : issuer.Issuance env req) (caID : Uuid),
    issuer.issued.find (toLex (caID, issuance.serial)) = none

/-- A renewal is refused without a trace, ends with a marked record of the same
authority, or fails and leaves a record of another authority behind. -/
theorem renewCertificate_cases (stored : issuer.issued.find (certKey record) = some record)
    (fresh : FreshSerial issuer env (rebuilt record ttl)) :
    (∃ err, issuer.issueCertificate env (rebuilt record ttl) = .error err ∧
      issuer.renewCertificate env (renewalOf record ttl) = (.error err, issuer.issued)) ∨
    ∃ (issuance : issuer.Issuance env (rebuilt record ttl))
      (valid : issuance.record.validate = .ok ()),
      issuer.issueCertificate env (rebuilt record ttl) =
        .ok (issuance.result, issuer.issued.put issuance.record valid) ∧
      ((issuance.ca.id = record.caID ∧
        issuer.renewCertificate env (renewalOf record ttl) =
          (.ok {
            previousSerial := record.serial, certPEM := issuance.certPEM
            privateKeyPEM := issuance.keyPEM, serial := issuance.serial
            expiresAt := issuance.expiresAt },
          (issuer.issued.put issuance.record valid).put issuance.renewed valid)) ∨
      (issuance.ca.id ≠ record.caID ∧
        ∃ err, issuer.renewCertificate env (renewalOf record ttl) =
          (.error err, issuer.issued.put issuance.record valid))) := by
  have renewal := @renewCertificate_of_find issuer env record ttl stored
  cases outcome : issuer.issueCertificate env (rebuilt record ttl) with
  | error err =>
    rw [outcome] at renewal
    exact .inl ⟨err, rfl, renewal⟩
  | ok answer =>
    obtain ⟨result, issued⟩ := answer
    obtain ⟨issuance, saved, rfl⟩ := Issuer.issueCertificate_ok_iff.mp outcome
    obtain ⟨valid, rfl⟩ := saveRow_ok_iff.mp saved
    rw [outcome] at renewal
    refine .inr ⟨issuance, valid, rfl, ?_⟩
    by_cases same : issuance.ca.id = record.caID
    · exact .inl ⟨same, renewal.trans (markRenewed_of_same valid same)⟩
    · obtain ⟨err, failed⟩ := markRenewed_of_other valid same (fresh issuance _)
      exact .inr ⟨same, err, renewal.trans failed⟩

end Renewal

/-! ### What is certified -/

section Preservation

variable {issuer : Issuer} {x509 : X509} {env : Env} {serial : Nat} {req : IssueRequest}

/-- A renewal in a later state certifies what the old certificate does, which is not
revoked, or fails without a record. -/
structure Preserves (old : (issuer.native x509 env.now serial).Issuance env req) (later : Issuer)
    (now : Env) (drawn : Nat) (ttl : String) : Prop where
  same : ∀ result issued,
    (later.native x509 now.now drawn).renewCertificate now (renewalOf old.record ttl) =
        (.ok result, issued) →
      ∃ (renewal : (later.native x509 now.now drawn).Issuance now (rebuilt old.record ttl))
        (first second : Certificate), result.certPEM = renewal.certPEM ∧
        x509.parseCertificate old.certPEM = .ok first ∧
        x509.parseCertificate result.certPEM = .ok second ∧ second.names = first.names ∧
        second.extKeyUsage = first.extKeyUsage ∧ renewal.ca.id = old.ca.id ∧
        later.revoked.isRevoked old.serial = false
  unrecorded : ∀ err issued,
    (later.native x509 now.now drawn).renewCertificate now (renewalOf old.record ttl) =
      (.error err, issued) → issued = later.issued

/-- The certificate has no addresses and is not revoked, and its role still has the
usage and the authority that it was issued with. -/
structure Unaltered (old : (issuer.native x509 env.now serial).Issuance env req) (later : Issuer)
    (now : Env) : Prop where
  unaddressed : parseIPAddresses x509.parseIP req.ipAddresses = []
  unrevoked : later.revoked.isRevoked old.serial = false
  usage : ∀ role, later.resolvePKIRole req.role = .ok role →
    (keyUsageForRole later.lib (if role.keyUsage ≠ .unset then role.keyUsage else .server)).2 =
      (keyUsageForRole issuer.lib old.usage).2
  authority : ∀ role ca, later.resolvePKIRole req.role = .ok role →
    later.cas.getByName now.range role.caName = .ok ca → ca.id = old.ca.id

/-- What an accepted request made from the record certifies. -/
theorem unaltered_iff {old : (issuer.native x509 env.now serial).Issuance env req} {later : Issuer}
    {now : Env} {drawn : Nat} {ttl : String}
    (renewal : (later.native x509 now.now drawn).Issuance now (rebuilt old.record ttl)) :
    Unaltered old later now ↔
      ∃ first second : Certificate, x509.parseCertificate old.certPEM = .ok first ∧
        x509.parseCertificate renewal.certPEM = .ok second ∧ second.names = first.names ∧
        second.extKeyUsage = first.extKeyUsage ∧ renewal.ca.id = old.ca.id ∧
        later.revoked.isRevoked old.serial = false := by
  have resolved : later.resolvePKIRole req.role = .ok renewal.role := renewal.resolved
  have found : later.cas.getByName now.range renewal.role.caName = .ok renewal.ca := renewal.found
  have used : (if renewal.role.keyUsage ≠ .unset then renewal.role.keyUsage else .server) =
    renewal.usage := Except.ok.inj renewal.used
  obtain ⟨before, -⟩ := old.certificate
  obtain ⟨after, -⟩ := renewal.certificate
  constructor
  · rintro ⟨unaddressed, unrevoked, usage, authority⟩
    have sameUsage := usage renewal.role resolved
    rw [used] at sameUsage
    refine ⟨_, _, before, after, ?_⟩
    simp only [Certificate.encoded, leafTemplate, Issuer.Issuance.leaf, unaddressed]
    exact ⟨rfl, sameUsage, authority _ _ resolved found, unrevoked⟩
  · rintro ⟨first, second, read, reread, names, usage, authority, unrevoked⟩
    obtain rfl := Except.ok.inj (before.symm.trans read)
    obtain rfl := Except.ok.inj (after.symm.trans reread)
    simp only [Certificate.encoded, leafTemplate, Issuer.Issuance.leaf] at names usage
    refine ⟨(congrArg CSR.ipAddresses names).symm, unrevoked, fun role again => ?_,
      fun role ca again refound => ?_⟩
    · obtain rfl : renewal.role = role := Except.ok.inj (resolved.symm.trans again)
      rw [used]
      exact usage
    · obtain rfl : renewal.role = role := Except.ok.inj (resolved.symm.trans again)
      obtain rfl : renewal.ca = ca := Except.ok.inj (found.symm.trans refound)
      exact authority

end Preservation

/-! ### Two authorities -/

section Samples

def otherCA : CA := { sampleCA with id := 2, name := "other" }

def authorities : CARepository := (sampleCAs.save otherCA).toOption.get (by decide +kernel)

/-- A role for every name, of the given authority. -/
def openRole (caName : String) : PKIRole :=
  { name := "web", caName, allowedDomains := ["*"], keyUsage := .server }

def renewing (roles : PKIRoleRepository) (revoked : RevocationRepository)
    (issued : IssuedCertRepository) : Issuer where
  lib := .sample
  aead := .doubling
  service := .sample
  parseTTL _ := .ok defaultLeafTTL
  backend := noBackend
  cas := authorities
  roles
  revoked
  issued

def webRoles : PKIRoleRepository := Table.empty.put (openRole "ca") ⟨rfl, rfl⟩

def otherRoles : PKIRoleRepository := Table.empty.put (openRole "other") ⟨rfl, rfl⟩

/-- A certificate for a host and some addresses. -/
def hostRequest (ipAddresses : List String) : IssueRequest :=
  { role := "web", commonName := "host", ipAddresses, autoRenew := true }

def hostTemplate (serial : Nat) (ipAddresses : List String) : Certificate :=
  leafTemplate .sample firstSecond.now serial some {
    caCertPEM := "CA", caKeyPEM := [5], commonName := "host", dnsNames := [], ipAddresses
    ttl := defaultLeafTTL, keyBits := 0, keyUsage := .server }

/-- A library that encodes the certificates of the host. -/
def hostX509 : X509 :=
  sampleX509 ⟨{}, [], []⟩ [("7", hostTemplate 7 []), ("7A", hostTemplate 7 ["10.0.0.1"]),
    ("8", hostTemplate 8 []), ("9", hostTemplate 9 []), ("A", hostTemplate 10 [])]

theorem resolved_web {revoked : RevocationRepository} {issued : IssuedCertRepository} :
    (renewing webRoles revoked issued).resolvePKIRole "web" = .ok (openRole "ca") := by
  rw [Issuer.resolvePKIRole_ok_iff]
  exact Table.find_put_self .empty (openRole "ca") ⟨rfl, rfl⟩

/-- The engine before anything is issued. -/
def hostEngine : Issuer :=
  (renewing webRoles .empty .empty).native hostX509 firstSecond.now 7

def hostIssuance (ipAddresses : List String) (certPEM : String)
    (allowed : hostEngine.validateIssueAgainstRole (openRole "ca") (hostRequest ipAddresses) =
      .ok ())
    (signed : hostEngine.backend.issueCertificate {
      caCertPEM := sampleCA.certPEM, caKeyPEM := [5], commonName := "host", dnsNames := []
      ipAddresses, ttl := min defaultLeafTTL (Issuer.maxTTL (openRole "ca")), keyBits := 0
      keyUsage := .server } = .ok (certPEM, "KEY"))
    (parsed : hostEngine.backend.parseCertMetadata certPEM =
      .ok ("7", wholeSeconds (firstSecond.now.utc.add defaultLeafTTL))) :
    hostEngine.Issuance firstSecond (hostRequest ipAddresses) where
  role := openRole "ca"
  resolved := @resolved_web .empty .empty
  ca := sampleCA
  found := by decide +kernel
  allowed
  asked := defaultLeafTTL
  read := rfl
  within exceeded := exceeded.2 rfl
  caKey := [5]
  opened := by decide +kernel
  usage := .server
  used := rfl
  certPEM
  keyPEM := "KEY"
  signed
  serial := "7"
  expiresAt := wholeSeconds (firstSecond.now.utc.add defaultLeafTTL)
  parsed
  unrevoked := by decide

/-- The certificate without addresses, and the one with an address. -/
def plainHost : hostEngine.Issuance firstSecond (hostRequest []) :=
  hostIssuance [] "7" (by decide +kernel) (by decide +kernel) (by decide +kernel)

def addressedHost : hostEngine.Issuance firstSecond (hostRequest ["10.0.0.1"]) :=
  hostIssuance ["10.0.0.1"] "7A" (by decide +kernel) (by decide +kernel) (by decide +kernel)

/-- The record of either certificate. -/
def hostRecord : IssuedCertificate := plainHost.record

theorem hostRecord_valid : hostRecord.validate = .ok () := by decide

def recorded : IssuedCertRepository := Table.empty.put hostRecord hostRecord_valid

/-- The records if the certificate is a renewal itself. -/
def markedRecord : IssuedCertificate := { hostRecord with renewedFromSerial := some "5" }

def remarked : IssuedCertRepository := Table.empty.put markedRecord hostRecord_valid

def revokedHost : RevocationRepository :=
  RevocationRepository.empty.revoke { serial := "7", caID := 1 }

/-- One record uses no other serial number. -/
theorem unused_of_single {row : IssuedCertificate} (valid : row.validate = .ok ()) {serial : String}
    (other : row.serial ≠ serial) (caID : Uuid) :
    ((Table.empty.put row valid : IssuedCertRepository)).find (toLex (caID, serial)) = none := by
  have differs : certKey row ≠ toLex (caID, serial) := fun same =>
    other (Prod.mk.inj (toLex.injective same)).2
  exact (Table.find_put .empty row valid _).trans (if_neg differs)

/-- The library encodes a renewal of the certificate. -/
theorem host_issues {issued : IssuedCertRepository} :
    Issues (renewing webRoles .empty issued) hostX509 firstSecond 8 (rebuilt hostRecord "") where
  able := {
    readable := fun _ => ⟨_, _, rfl, rfl⟩
    generates := fun _ _ => ⟨_, rfl⟩
    creates := fun shared => by
      have role : shared.role = openRole "ca" :=
        Except.ok.inj (shared.resolved.symm.trans resolved_web)
      have asked : shared.asked = defaultLeafTTL := (Except.ok.inj shared.read).symm
      have ttl : shared.ttl = defaultLeafTTL := by
        rw [Shared.ttl, role, asked]
        decide
      have usage : shared.usage = .server := by
        rw [Shared.usage, role]
        rfl
      simp only [leafTemplate, Shared.leaf, ttl, usage]
      exact sampleX509_creates (List.mem_of_mem_drop (i := 2) List.mem_cons_self) rfl }
  unrevoked := rfl
  dated := by decide

end Samples

theorem outcome_of_isOk {outcome : Except GoError RenewResult × IssuedCertRepository}
    (isOk : outcome.1.isOk = true) : ∃ result issued, outcome = (.ok result, issued) := by
  obtain ⟨result, same⟩ := isOk_iff.mp isOk
  exact ⟨result, outcome.2, Prod.ext same rfl⟩

end KnxVault.Engine.Pki
