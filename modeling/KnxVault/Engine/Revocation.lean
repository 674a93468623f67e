import KnxVault.Engine.Pki
import KnxVault.Std.Hexadecimal
import KnxVault.Std.Run

/-!
# Revocation status

`Revoke`, `GenerateCRL` and `HandleOCSP` of `internal/engine/pki`. A revocation is
stored under the text of the serial number that the caller sent. The responder
looks the text of a number up whichever authority it answers for; a list takes the
records of its authority and reads their texts as numbers.
-/

namespace KnxVault.Engine.Pki

open KnxVault.Std KnxVault.Domain KnxVault.Crypto KnxVault.Repository

/-- The key service and the certificate libraries. -/
structure Signing where
  aead : Aead
  service : Service
  parseCertificate : String → Except GoError Unit
  parseSigner : Bytes → Except GoError Unit
  parseRequest : Bytes → Except String Int
  createRequest : Int → Bytes
  createRequest_filled : ∀ number, createRequest number ≠ []
  parse_create : ∀ number, parseRequest (createRequest number) = .ok number

/-- The repositories of the engine. -/
structure Records where
  cas : CARepository
  issued : IssuedCertRepository
  revoked : RevocationRepository

/-- The template of a list; the library encodes it as it is. -/
structure RevocationList where
  entries : List (Int × Time)
  number : Int
  thisUpdate : Time
  nextUpdate : Time

inductive OCSPStatus where
  | good
  | revoked
deriving DecidableEq

/-- The template of an answer; the library encodes it as it is. -/
structure OCSPResponse where
  status : OCSPStatus
  serialNumber : Int
  thisUpdate : Time
  nextUpdate : Time
  revokedAt : Time

/-- The record of an accepted revocation. -/
def revokedAs (env : Env) (caID : Uuid) (serial reason : String) : RevokedCertificate where
  serial
  caID
  revokedAt := env.now.utc
  reason := if reason = "" then "unspecified" else reason

/-- The entries of a list, or the first serial that is no number. -/
def listEntries : List RevokedCertificate → Except GoError (List (Int × Time))
  | [] => .ok []
  | cert :: rest =>
    match ofHex cert.serial with
    | none => .error { text := "invalid serial " ++ quoted cert.serial }
    | some number => do
      let entries ← listEntries rest
      pure ((number, cert.revokedAt) :: entries)

namespace Records

def empty : Records where
  cas := .empty
  issued := .empty
  revoked := .empty

variable (signing : Signing) (env : Env) (records : Records)

/-- `Revoke`: the serial is stored as it was sent, for an authority that need not
exist. -/
def revoke (caID : Uuid) (serial reason : String) : Except GoError Records :=
  if serial = "" then refuse .validation "serial is required"
  else
    .ok { records with
      revoked := records.revoked.revoke (revokedAs env caID serial reason) }

def generateCRL (caID : Uuid) : Except GoError RevocationList := do
  let ca ← (records.cas.getByID caID).mapError KNXVaultError.asGoError
  signing.parseCertificate ca.certPEM
  let caKey ← decryptKey signing.aead signing.service ca.privateKeyEnc ca.dekEnc
  signing.parseSigner caKey
  let entries ← listEntries (records.revoked.listByCA caID)
  pure {
    entries
    number := env.now.instant
    thisUpdate := env.now.utc
    nextUpdate := env.now.utc.add (24 * 3600 * nanosecondsPerSecond) }

def handleOCSP (caID : Uuid) (requestDER : Bytes) : Except GoError OCSPResponse :=
  if requestDER = [] then refuse .validation "ocsp request body is required"
  else do
    let ca ← (records.cas.getByID caID).mapError KNXVaultError.asGoError
    signing.parseCertificate ca.certPEM
    let serialNumber ←
      (signing.parseRequest requestDER).mapError (wrapCause .validation "invalid ocsp request")
    let revoked := records.revoked.isRevoked (toHex serialNumber)
    let caKey ← decryptKey signing.aead signing.service ca.privateKeyEnc ca.dekEnc
    signing.parseSigner caKey
    pure {
      status := if revoked then .revoked else .good
      serialNumber
      thisUpdate := env.now.utc
      nextUpdate := env.now.utc.add (24 * 3600 * nanosecondsPerSecond)
      -- the time of the answer, not that of the revocation
      revokedAt := if revoked then env.now.utc else {} }

/-- The authority is stored and its key can be used. -/
def CanSign (caID : Uuid) : Prop :=
  ∃ ca key, records.cas.getByID caID = .ok ca ∧ signing.parseCertificate ca.certPEM = .ok () ∧
    decryptKey signing.aead signing.service ca.privateKeyEnc ca.dekEnc = .ok key ∧
    signing.parseSigner key = .ok ()

/-- The list of the authority names the number with the time. -/
def Lists (caID : Uuid) (number : Int) (time : Time) : Prop :=
  ∃ crl, records.generateCRL signing env caID = .ok crl ∧ (number, time) ∈ crl.entries

/-- The responder of the authority calls the number revoked since the time. -/
def SaysRevoked (caID : Uuid) (number : Int) (time : Time) : Prop :=
  ∃ response, records.handleOCSP signing env caID (signing.createRequest number) = .ok response ∧
    response.status = .revoked ∧ response.revokedAt = time

end Records

/-! ### What a list and an answer say -/

variable {certs : List RevokedCertificate}

theorem listEntries_ok (read : ∀ cert ∈ certs, ∃ number, ofHex cert.serial = some number) :
    ∃ entries, listEntries certs = .ok entries := by
  induction certs with
  | nil => exact ⟨[], rfl⟩
  | cons cert rest ih =>
    obtain ⟨number, first⟩ := read cert List.mem_cons_self
    obtain ⟨entries, others⟩ := ih fun other mem => read other (List.mem_cons_of_mem _ mem)
    exact ⟨(number, cert.revokedAt) :: entries, by simp [listEntries, first, others]⟩

theorem read_of_listEntries {entries : List (Int × Time)} (made : listEntries certs = .ok entries) :
    ∀ cert ∈ certs, ∃ number, ofHex cert.serial = some number := by
  induction certs generalizing entries with
  | nil => exact fun _ mem => absurd mem List.not_mem_nil
  | cons cert rest ih =>
    rw [listEntries] at made
    cases first : ofHex cert.serial with
    | none => simp [first] at made
    | some number =>
      rw [first] at made
      obtain ⟨others, made, -⟩ := bind_eq_ok made
      exact List.forall_mem_cons.mpr ⟨⟨number, first⟩, ih made⟩

theorem mem_listEntries {entries : List (Int × Time)} (made : listEntries certs = .ok entries)
    {number : Int} {time : Time} :
    (number, time) ∈ entries ↔
      ∃ cert ∈ certs, ofHex cert.serial = some number ∧ cert.revokedAt = time := by
  induction certs generalizing entries with
  | nil =>
    cases made
    simp
  | cons cert rest ih =>
    rw [listEntries] at made
    cases first : ofHex cert.serial with
    | none => simp [first] at made
    | some value =>
      rw [first] at made
      obtain ⟨others, tail, same⟩ := bind_eq_ok made
      cases same
      simp only [List.mem_cons, Prod.mk.injEq, ih tail, exists_eq_or_imp, first,
        Option.some.injEq]
      exact or_congr_left (and_congr eq_comm eq_comm)

namespace Records

variable {signing : Signing} {env : Env} {records : Records} {caID : Uuid}

theorem canSign_of_generateCRL {crl : RevocationList}
    (made : records.generateCRL signing env caID = .ok crl) :
    records.CanSign signing caID ∧
      listEntries (records.revoked.listByCA caID) = .ok crl.entries := by
  obtain ⟨ca, stored, made⟩ := bind_eq_ok made
  obtain ⟨_, parsed, made⟩ := bind_eq_ok made
  obtain ⟨key, opened, made⟩ := bind_eq_ok made
  obtain ⟨_, signs, made⟩ := bind_eq_ok made
  obtain ⟨entries, listed, made⟩ := bind_eq_ok made
  cases made
  exact ⟨⟨ca, key, mapError_ok_iff.mp stored, parsed, opened, signs⟩, listed⟩

theorem generateCRL_ok (canSign : records.CanSign signing caID)
    (read : ∀ cert ∈ records.revoked.listByCA caID, ∃ number, ofHex cert.serial = some number) :
    ∃ crl, records.generateCRL signing env caID = .ok crl := by
  obtain ⟨ca, key, stored, parsed, opened, signs⟩ := canSign
  obtain ⟨entries, listed⟩ := listEntries_ok read
  simp [generateCRL, stored, parsed, opened, signs, listed, Except.mapError, bind, Except.bind,
    pure, Except.pure]

theorem handleOCSP_eq (canSign : records.CanSign signing caID) (number : Int) :
    records.handleOCSP signing env caID (signing.createRequest number) = .ok {
      status := if records.revoked.isRevoked (toHex number) then .revoked else .good
      serialNumber := number
      thisUpdate := env.now.utc
      nextUpdate := env.now.utc.add (24 * 3600 * nanosecondsPerSecond)
      revokedAt := if records.revoked.isRevoked (toHex number) then env.now.utc else {} } := by
  obtain ⟨ca, key, stored, parsed, opened, signs⟩ := canSign
  rw [handleOCSP, if_neg (signing.createRequest_filled number)]
  simp [stored, parsed, opened, signs, signing.parse_create, Except.mapError, bind, Except.bind,
    pure, Except.pure]

theorem canSign_of_handleOCSP {request : Bytes} {response : OCSPResponse}
    (answered : records.handleOCSP signing env caID request = .ok response) :
    records.CanSign signing caID := by
  unfold handleOCSP at answered
  split at answered
  · cases answered
  · obtain ⟨ca, stored, answered⟩ := bind_eq_ok answered
    obtain ⟨_, parsed, answered⟩ := bind_eq_ok answered
    obtain ⟨_, -, answered⟩ := bind_eq_ok answered
    obtain ⟨key, opened, answered⟩ := bind_eq_ok answered
    obtain ⟨_, signs, -⟩ := bind_eq_ok answered
    exact ⟨ca, key, mapError_ok_iff.mp stored, parsed, opened, signs⟩

theorem saysRevoked_iff (canSign : records.CanSign signing caID) {number : Int} {time : Time} :
    records.SaysRevoked signing env caID number time ↔
      records.revoked.isRevoked (toHex number) = true ∧ env.now.utc = time := by
  unfold SaysRevoked
  rw [handleOCSP_eq canSign]
  cases records.revoked.isRevoked (toHex number) <;> simp

theorem lists_iff {crl : RevocationList} (made : records.generateCRL signing env caID = .ok crl)
    {number : Int} {time : Time} :
    records.Lists signing env caID number time ↔
      ∃ cert ∈ records.revoked.listByCA caID,
        ofHex cert.serial = some number ∧ cert.revokedAt = time := by
  rw [← mem_listEntries (canSign_of_generateCRL made).2]
  unfold Lists
  rw [made]
  simp

end Records

/-! ### Histories -/

/-- The calls that reach the repositories. -/
inductive Call where
  | saveCA (ca : CA)
  | issue (cert : IssuedCertificate)
  | revoke (caID : Uuid) (serial reason : String)

namespace Records

/-- A call that fails changes nothing. -/
def step (records : Records) : Env × Call → Records
  | (_, .saveCA ca) =>
    match records.cas.save ca with
    | .ok cas => { records with cas }
    | .error _ => records
  | (_, .issue cert) =>
    match records.issued.save cert with
    | .ok issued => { records with issued }
    | .error _ => records
  | (env, .revoke caID serial reason) =>
    match records.revoke env caID serial reason with
    | .ok later => later
    | .error _ => records

end Records

/-- The record that a call asks for, if it is a revocation and returns success. -/
def acceptedRevocation : Env × Call → Option RevokedCertificate
  | (env, .revoke caID serial reason) =>
    if serial = "" then none else some (revokedAs env caID serial reason)
  | _ => none

abbrev History := List (Env × Call)

namespace History

def records (history : History) : Records := run Records.step Records.empty history

/-- The revocations that returned success. -/
def accepted (history : History) : List RevokedCertificate := history.filterMap acceptedRevocation

/-- The revocation is the first for its text. -/
def First (history : History) (cert : RevokedCertificate) : Prop :=
  history.accepted.find? (fun other => other.serial = cert.serial) = some cert

end History

theorem find_revoke (repo : RevocationRepository) (cert : RevokedCertificate) (text : String) :
    (repo.revoke cert).serial.find text =
      (repo.serial.find text).or (if cert.serial = text then some cert else none) := by
  unfold RevocationRepository.revoke
  by_cases fresh : repo.serial.find cert.serial = none
  · rw [dif_pos fresh, RevocationRepository.find_insert]
    by_cases same : cert.serial = text
    · simp [← same, fresh]
    · simp [same]
  · rw [dif_neg fresh]
    by_cases same : cert.serial = text
    · obtain ⟨stored, found⟩ := Option.ne_none_iff_exists'.mp fresh
      simp [← same, found]
    · simp [same]

/-- One call stores at most the record that it asks for. -/
theorem find_step (records : Records) (input : Env × Call) (text : String) :
    (records.step input).revoked.serial.find text =
      (records.revoked.serial.find text).or
        ((acceptedRevocation input).filter fun cert => cert.serial = text) := by
  obtain ⟨env, call⟩ := input
  cases call with
  | saveCA ca =>
    simp only [Records.step, acceptedRevocation]
    split <;> simp
  | issue cert =>
    simp only [Records.step, acceptedRevocation]
    split <;> simp
  | revoke caID serial reason =>
    by_cases unnamed : serial = ""
    · simp [Records.step, Records.revoke, acceptedRevocation, unnamed, refuse]
    · simp [Records.step, Records.revoke, acceptedRevocation, unnamed, find_revoke,
        Option.filter]

/-- The table holds the first accepted revocation of every text. -/
theorem find_records (history : History) (text : String) :
    history.records.revoked.serial.find text =
      history.accepted.find? fun cert => cert.serial = text := by
  have general : ∀ records : Records, (run Records.step records history).revoked.serial.find text =
      (records.revoked.serial.find text).or
        (history.accepted.find? fun cert => cert.serial = text) := by
    induction history with
    | nil => simp [History.accepted]
    | cons input rest ih =>
      intro records
      rw [run_cons, ih, find_step, Option.or_assoc]
      congr 1
      cases asked : acceptedRevocation input with
      | none => simp [History.accepted, asked]
      | some cert =>
        by_cases same : cert.serial = text <;> simp [History.accepted, asked, same, Option.filter]
  rw [History.records, general]
  rfl

/-! ### Consistency -/

/-- The number that the sender of a text means; colons may separate the digits. -/
def denoted (text : String) : Option Int :=
  ofHex (String.ofList (text.toList.filter (· ≠ ':')))

theorem denoted_of_ofHex {text : String} {number : Int} (read : ofHex text = some number) :
    denoted text = some number := by
  have absent : ':' ∉ text.toList := not_mem_of_ofHex rfl (by decide) (by decide) read
  have whole : text.toList.filter (· ≠ ':') = text.toList :=
    List.filter_eq_self.mpr fun char mem => by
      simpa using fun same : char = ':' => absent (same ▸ mem)
  rw [denoted, whole, String.ofList_toList, read]

/-- Asked in the given surroundings, after the history: no authority that can sign
fails to make its list, its responder and its list agree on every number, and every
accepted revocation is in both. -/
structure Consistent (signing : Signing) (ask : Env) (history : History) : Prop where
  generates : ∀ caID, history.records.CanSign signing caID →
    ∃ crl, history.records.generateCRL signing ask caID = .ok crl
  agrees : ∀ caID, history.records.CanSign signing caID → ∀ number time,
    history.records.SaysRevoked signing ask caID number time ↔
      history.records.Lists signing ask caID number time
  effective : ∀ cert ∈ history.accepted, ∃ number, denoted cert.serial = some number ∧
    (∃ time, history.records.SaysRevoked signing ask cert.caID number time) ∧
    ∃ time, history.records.Lists signing ask cert.caID number time

/-- Every accepted revocation is for an authority that can sign, its number is also
sent as the responder writes it, every authority that can sign has it revoked by the
first call with some text of it, and the responder is asked at the very time of the
revocation. -/
structure Orderly (signing : Signing) (ask : Env) (history : History) : Prop where
  signs : ∀ cert ∈ history.accepted, history.records.CanSign signing cert.caID
  written : ∀ cert ∈ history.accepted, ∃ number, ofHex cert.serial = some number ∧
    (∃ other ∈ history.accepted, other.serial = toHex number) ∧
    ∀ caID, history.records.CanSign signing caID → ∃ first, history.First first ∧
      first.caID = caID ∧ ofHex first.serial = some number
  punctual : ∀ cert, history.First cert → cert.revokedAt = ask.now.utc

variable {signing : Signing} {ask : Env} {history : History} {cert : RevokedCertificate}

theorem mem_of_first (first : history.First cert) :
    cert ∈ history.accepted :=
  List.mem_of_find?_eq_some first

/-- Every accepted revocation has the text of a first one. -/
theorem exists_first (mem : cert ∈ history.accepted) :
    ∃ first, history.First first ∧ first.serial = cert.serial := by
  cases found : history.accepted.find? fun other => other.serial = cert.serial with
  | none => simpa using List.find?_eq_none.mp found cert mem
  | some first =>
    have same : first.serial = cert.serial := by simpa using List.find?_some found
    exact ⟨first, by rw [History.First, same, found], same⟩

theorem isRevoked_iff {text : String} :
    history.records.revoked.isRevoked text = true ↔
      ∃ cert ∈ history.accepted, cert.serial = text := by
  rw [RevocationRepository.isRevoked, find_records]
  simp

theorem mem_listByCA_iff {caID : Uuid} :
    cert ∈ history.records.revoked.listByCA caID ↔ history.First cert ∧ cert.caID = caID := by
  rw [RevocationRepository.mem_listByCA, find_records, History.First]

theorem consistent_of_orderly (orderly : Orderly signing ask history) :
    Consistent signing ask history := by
  have generates : ∀ caID, history.records.CanSign signing caID →
      ∃ crl, history.records.generateCRL signing ask caID = .ok crl := by
    intro caID canSign
    refine Records.generateCRL_ok canSign fun cert listed => ?_
    obtain ⟨number, read, -⟩ := orderly.written cert (mem_of_first (mem_listByCA_iff.mp listed).1)
    exact ⟨number, read⟩
  have agrees : ∀ caID, history.records.CanSign signing caID → ∀ number time,
      history.records.SaysRevoked signing ask caID number time ↔
        history.records.Lists signing ask caID number time := by
    intro caID canSign number time
    obtain ⟨crl, made⟩ := generates caID canSign
    rw [Records.saysRevoked_iff canSign, Records.lists_iff made, isRevoked_iff]
    constructor
    · rintro ⟨⟨cert, mem, text⟩, rfl⟩
      obtain ⟨value, read, -, everywhere⟩ := orderly.written cert mem
      obtain rfl : number = value := by
        rw [text, ofHex_toHex] at read
        exact Option.some.inj read
      obtain ⟨first, isFirst, own, same⟩ := everywhere caID canSign
      exact ⟨first, mem_listByCA_iff.mpr ⟨isFirst, own⟩, same, orderly.punctual first isFirst⟩
    · rintro ⟨cert, listed, read, rfl⟩
      have isFirst := (mem_listByCA_iff.mp listed).1
      obtain ⟨value, same, other, -⟩ := orderly.written cert (mem_of_first isFirst)
      obtain rfl : number = value := Option.some.inj (read.symm.trans same)
      exact ⟨other, (orderly.punctual cert isFirst).symm⟩
  refine ⟨generates, agrees, fun cert mem => ?_⟩
  have canSign := orderly.signs cert mem
  obtain ⟨number, read, other, -⟩ := orderly.written cert mem
  have told : history.records.SaysRevoked signing ask cert.caID number ask.now.utc :=
    (Records.saysRevoked_iff canSign).mpr ⟨isRevoked_iff.mpr other, rfl⟩
  exact ⟨number, denoted_of_ofHex read, ⟨_, told⟩, _, (agrees _ canSign _ _).mp told⟩

theorem orderly_of_consistent (consistent : Consistent signing ask history) :
    Orderly signing ask history := by
  have signs : ∀ cert ∈ history.accepted, history.records.CanSign signing cert.caID := by
    intro cert mem
    obtain ⟨_, _, ⟨_, response, answered, _⟩, _⟩ := consistent.effective cert mem
    exact Records.canSign_of_handleOCSP answered
  -- a first revocation is listed by its authority, so the responder names it too
  have answered : ∀ cert, history.First cert → ∃ number, ofHex cert.serial = some number ∧
      (∃ other ∈ history.accepted, other.serial = toHex number) ∧
      cert.revokedAt = ask.now.utc := by
    intro cert first
    have canSign := signs cert (mem_of_first first)
    have listed := mem_listByCA_iff.mpr ⟨first, rfl⟩
    obtain ⟨crl, made⟩ := consistent.generates cert.caID canSign
    obtain ⟨number, read⟩ := read_of_listEntries (Records.canSign_of_generateCRL made).2 cert listed
    have told := (consistent.agrees cert.caID canSign number cert.revokedAt).mpr
      ((Records.lists_iff made).mpr ⟨cert, listed, read, rfl⟩)
    obtain ⟨revoked, time⟩ := (Records.saysRevoked_iff canSign).mp told
    exact ⟨number, read, isRevoked_iff.mp revoked, time.symm⟩
  refine ⟨signs, fun cert mem => ?_, fun cert first => ?_⟩
  · obtain ⟨first, isFirst, same⟩ := exists_first mem
    obtain ⟨number, read, other, -⟩ := answered first isFirst
    refine ⟨number, same ▸ read, other, fun caID canSign => ?_⟩
    have told : history.records.SaysRevoked signing ask caID number ask.now.utc :=
      (Records.saysRevoked_iff canSign).mpr ⟨isRevoked_iff.mpr other, rfl⟩
    obtain ⟨crl, made⟩ := consistent.generates caID canSign
    obtain ⟨found, listed, value, -⟩ :=
      (Records.lists_iff made).mp ((consistent.agrees caID canSign _ _).mp told)
    have firstFound := mem_listByCA_iff.mp listed
    exact ⟨found, firstFound.1, firstFound.2, value⟩
  · obtain ⟨_, -, -, time⟩ := answered cert first
    exact time

/-- Responder and lists are consistent exactly after an orderly history. -/
theorem revocation_consistent_iff (signing : Signing) (ask : Env) (history : History) :
    Consistent signing ask history ↔ Orderly signing ask history :=
  ⟨orderly_of_consistent, consistent_of_orderly⟩

section Samples

/-- A request is the sign of its number and as many bytes as the number is large. -/
def sampleRequest (number : Int) : Bytes :=
  (if number < 0 then 1 else 0) :: List.replicate number.natAbs 0

def readSampleRequest : Bytes → Except String Int
  | [] => .error "asn1: structure error"
  | sign :: rest => .ok (if sign = 1 then -(rest.length : Int) else rest.length)

theorem sampleRequest_filled (number : Int) : sampleRequest number ≠ [] := List.cons_ne_nil _ _

theorem readSampleRequest_sampleRequest (number : Int) :
    readSampleRequest (sampleRequest number) = .ok number := by
  unfold sampleRequest
  by_cases negative : number < 0
  · simp [readSampleRequest, negative, abs_of_neg negative]
  · simp [readSampleRequest, negative]
    omega

def sampleSigning : Signing where
  aead := .doubling
  service := .sample
  parseCertificate _ := .ok ()
  parseSigner _ := .ok ()
  parseRequest := readSampleRequest
  createRequest := sampleRequest
  createRequest_filled := sampleRequest_filled
  parse_create := readSampleRequest_sampleRequest

def secondCA : CA := { sampleCA with id := 2, name := "second" }

/-- A revocation at the first authority, one second after the epoch. -/
def revocationOf (serial : String) : Env × Call := (.sample 1000000000, .revoke 1 serial "")

def revokedOnce (serial : String) : History := [(.sample 1, .saveCA sampleCA), revocationOf serial]

end Samples

/-- Asked at the time of the revocation, one authority and the text of the responder
make an orderly history. -/
example : Orderly sampleSigning (.sample 1000000000) (revokedOnce "a") where
  signs cert mem := by
    rw [List.mem_singleton.mp mem]
    exact ⟨sampleCA, [5], by decide +kernel, rfl, by decide +kernel, rfl⟩
  written cert mem := by
    rw [List.mem_singleton.mp mem]
    refine ⟨10, by decide, ⟨_, List.mem_singleton.mpr rfl, by decide⟩, ?_⟩
    rintro caID ⟨ca, -, stored, -⟩
    have found : (revokedOnce "a").records.cas.byID.find caID = some ca := getRow_ok_iff.mp stored
    obtain rfl := Table.key_of_find found
    have visited : ca ∈ (revokedOnce "a").records.cas.byID.visit .sorted :=
      Table.mem_visit.mpr found
    have only : (revokedOnce "a").records.cas.byID.visit .sorted = [sampleCA] := by decide +kernel
    rw [only, List.mem_singleton] at visited
    exact ⟨revokedAs (.sample 1000000000) 1 "a" "", rfl, by rw [visited]; decide, by decide⟩
  punctual cert first := by
    rw [List.mem_singleton.mp (mem_of_first first)]
    rfl

/-- An answer a second later has another time; an upper case digit hides the
revocation from the responder; a colon breaks the list; the responder of another
authority answers for the revoked number too. -/
theorem revocation_status_diverges :
    ¬ Consistent sampleSigning (.sample 2000000000) (revokedOnce "a") ∧
      ¬ Consistent sampleSigning (.sample 1000000000) (revokedOnce "A") ∧
      ¬ Consistent sampleSigning (.sample 1000000000) (revokedOnce "0a:1b") ∧
      ¬ Consistent sampleSigning (.sample 1000000000)
        ((.sample 1, .saveCA secondCA) :: revokedOnce "a") := by
  refine ⟨fun consistent => ?_, fun consistent => ?_, fun consistent => ?_, fun consistent => ?_⟩
  · have late := (orderly_of_consistent consistent).punctual
      (revokedAs (.sample 1000000000) 1 "a" "") rfl
    exact absurd late (by decide)
  · obtain ⟨number, read, ⟨other, mem, text⟩, -⟩ := (orderly_of_consistent consistent).written
      (revokedAs (.sample 1000000000) 1 "A" "") (List.mem_singleton.mpr rfl)
    obtain rfl : number = 10 := Option.some.inj (read.symm.trans (by decide))
    rw [List.mem_singleton.mp mem] at text
    exact absurd text (by decide)
  · obtain ⟨number, read, -⟩ := (orderly_of_consistent consistent).written
      (revokedAs (.sample 1000000000) 1 "0a:1b" "") (List.mem_singleton.mpr rfl)
    have refused : ofHex "0a:1b" = none := by decide
    cases read.symm.trans refused
  · have canSign : History.records ((.sample 1, .saveCA secondCA) :: revokedOnce "a") |>.CanSign
        sampleSigning 2 :=
      ⟨secondCA, [5], by decide +kernel, rfl, by decide +kernel, rfl⟩
    obtain ⟨number, -, -, everywhere⟩ := (orderly_of_consistent consistent).written
      (revokedAs (.sample 1000000000) 1 "a" "") (List.mem_singleton.mpr rfl)
    obtain ⟨first, isFirst, own, -⟩ := everywhere 2 canSign
    rw [List.mem_singleton.mp (mem_of_first isFirst)] at own
    exact absurd own (by decide)

end KnxVault.Engine.Pki
