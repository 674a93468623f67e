import KnxVault.Audit.Service

/-!
# When the audit log verifies

Goroutines and nodes record entries at the same time. The walk of `Verify` goes by
time and is cut off after a million entries, while the chain was built in the order
of appending; so the log verifies as long as every entry extends it (`Extends`).
-/

namespace KnxVault.Audit

open KnxVault.Std KnxVault.Domain KnxVault.Repository

/-- What the hash of an entry covers, and the hash. -/
def content (entry : Entry) : AuditRecord := { entry with }

/-- The last hash after some records, from the one before them. -/
def lastHash (prevHash : String) (records : List AuditRecord) : String :=
  (records.getLast?.map AuditRecord.hash).getD prevHash

theorem lastHash_cons (prevHash : String) (record : AuditRecord) (rest : List AuditRecord) :
    lastHash prevHash (record :: rest) = lastHash record.hash rest := by
  simp [lastHash, List.getLast?_cons]

theorem latestHash_eq (repo : AuditRepository) :
    repo.latestHash = lastHash "" (repo.entries.map content) := by
  rw [AuditRepository.latestHash, lastHash, List.getLast?_map, Option.map_map]
  rfl

variable {prevHash : String}

theorem chained_concat {lib : Library} {records : List AuditRecord} {record : AuditRecord} :
    Chained lib prevHash (records ++ [record]) ↔
      Chained lib prevHash records ∧
        record.hash = entryHash lib (lastHash prevHash records) record.actor record.action
          record.resource record.status record.details record.timestamp := by
  induction records generalizing prevHash with
  | nil => simp [Chained, lastHash]
  | cons first rest ih => rw [List.cons_append, Chained, Chained, ih, lastHash_cons, and_assoc]

theorem hash_ne_of_chained {lib : Library} {records : List AuditRecord}
    (chained : Chained lib prevHash records) : ∀ record ∈ records, record.hash ≠ "" := by
  induction records generalizing prevHash with
  | nil => simp
  | cons first rest ih =>
    intro record listed
    rcases List.mem_cons.mp listed with rfl | later
    · rw [chained.1]
      exact lib.sha256Hex_ne _
    · exact ih chained.2 record later

variable {lib : Library} {mac : Mac} {signingKey : Bytes} {backend : Backend}

theorem verifyEntries_ok {entries : List Entry}
    (chained : Chained lib prevHash (entries.map content))
    (signed : signingKey ≠ [] → ∀ entry ∈ entries,
      entry.signature = signEntry mac signingKey entry.hash) :
    verifyEntries lib mac signingKey prevHash entries =
      .ok (lastHash prevHash (entries.map content)) := by
  induction entries generalizing prevHash with
  | nil => rfl
  | cons entry rest ih =>
    obtain ⟨covers, later⟩ := chained
    have same : ¬ entry.hash ≠ computeHash lib prevHash entry.actor entry.action entry.resource
        entry.status entry.details entry.timestamp := not_not.mpr covers
    have own : signingKey ≠ [] → entry.signature = signEntry mac signingKey entry.hash :=
      fun keyed => signed keyed entry List.mem_cons_self
    have present : ¬ (signingKey ≠ [] ∧ entry.signature = "") := by
      rintro ⟨keyed, missing⟩
      exact mac.hex_ne signingKey entry.hash ((own keyed).symm.trans missing)
    rw [verifyEntries, if_neg same, if_neg present,
      if_neg (fun mismatch => mismatch.2 (own mismatch.1)), List.map_cons, lastHash_cons]
    exact ih later fun keyed other listed => signed keyed other (List.mem_cons_of_mem _ listed)

/-- A log in order of time, chained and signed, that one listing covers and gives as it
is. -/
structure Sound (lib : Library) (mac : Mac) (signingKey : Bytes) (backend : Backend)
    (repo : AuditRepository) : Prop where
  ordered : repo.entries.Pairwise fun first second =>
    first.timestamp.instant ≤ second.timestamp.instant
  chained : Chained lib "" (repo.entries.map content)
  signed : signingKey ≠ [] → ∀ entry ∈ repo.entries,
    entry.signature = signEntry mac signingKey entry.hash
  settled : ∀ entry ∈ repo.entries, backend.listed entry = entry
  short : repo.entries.length ≤ 1000000

theorem Sound.empty : Sound lib mac signingKey backend .empty where
  ordered := List.Pairwise.nil
  chained := trivial
  signed _ _ listed := by cases listed
  settled _ listed := by cases listed
  short := Nat.zero_le _

variable {repo : AuditRepository}

theorem Sound.verify (sound : Sound lib mac signingKey backend repo) (signedAt : Time) :
    ∃ result, verify lib mac signingKey backend repo
        (signHead lib mac signingKey repo.latestHash signedAt) signedAt = some result ∧
      result.valid = true := by
  have listed : repo.list { orderAsc := true, limit := 1000000 } = some repo.entries := by
    rw [list_asc (by decide) (by decide), orderedEntries_of_sorted sound.ordered,
      List.take_of_length_le (show repo.entries.length ≤ Int.toNat 1000000 from sound.short)]
  have settled : repo.entries.map backend.listed = repo.entries :=
    (List.map_congr_left sound.settled).trans (List.map_id _)
  have walked := verifyEntries_ok sound.chained sound.signed
  rw [← latestHash_eq] at walked
  rw [Audit.verify, listed]
  simp only [Option.bind_eq_bind, Option.bind_some, settled, walked, ne_eq, not_true_eq_false,
    if_false]
  by_cases unkeyed : signingKey = []
  · rw [if_pos unkeyed]
    exact ⟨_, rfl, rfl⟩
  · have made : signHead lib mac signingKey repo.latestHash signedAt ≠ "" := mac.hex_ne _ _
    rw [if_neg unkeyed, if_neg made]
    exact ⟨_, rfl, rfl⟩

theorem Sound.latestHash_ne (sound : Sound lib mac signingKey backend repo)
    (filled : repo.entries ≠ []) : repo.latestHash ≠ "" := by
  rw [AuditRepository.latestHash, List.getLast?_eq_some_getLast filled]
  exact hash_ne_of_chained sound.chained (content (repo.entries.getLast filled))
    (List.mem_map_of_mem (List.getLast_mem filled))

/-- One more entry that is no older than the last and covers its hash. -/
theorem Sound.push (sound : Sound lib mac signingKey backend repo) {entry : Entry}
    (valid : entry.validate = .ok ()) (room : repo.entries.length < 1000000)
    (later : ∀ last ∈ repo.entries.getLast?, last.timestamp.instant ≤ entry.timestamp.instant)
    (covers : entry.hash = entryHash lib repo.latestHash entry.actor entry.action entry.resource
      entry.status entry.details entry.timestamp)
    (signed : signingKey ≠ [] → entry.signature = signEntry mac signingKey entry.hash)
    (settled : ∀ id, backend.listed { entry with id } = { entry with id }) :
    Sound lib mac signingKey backend (repo.push entry valid) where
  ordered := by
    refine List.pairwise_append.mpr ⟨sound.ordered, List.pairwise_singleton _ _, ?_⟩
    intro first listed second new
    rw [List.mem_singleton.mp new]
    -- every stored entry is at most as late as the last one
    obtain ⟨front, last, split⟩ : ∃ front last, repo.entries = front ++ [last] :=
      ⟨_, _, (List.dropLast_append_getLast (List.ne_nil_of_mem listed)).symm⟩
    have bounded := later last (by rw [split]; simp)
    have sorted := sound.ordered
    rw [split] at listed sorted
    rcases List.mem_append.mp listed with earlier | itself
    · exact le_trans ((List.pairwise_append.mp sorted).2.2 first earlier last (by simp)) bounded
    · rw [List.mem_singleton.mp itself]
      exact bounded
  chained := by
    change Chained lib "" ((repo.entries ++ [_]).map content)
    rw [List.map_append, List.map_singleton, chained_concat, ← latestHash_eq]
    exact ⟨sound.chained, covers⟩
  signed keyed stored listed := by
    rcases List.mem_append.mp listed with earlier | new
    · exact sound.signed keyed stored earlier
    · rw [List.mem_singleton.mp new]
      exact signed keyed
  settled stored listed := by
    rcases List.mem_append.mp listed with earlier | new
    · exact sound.settled stored earlier
    · rw [List.mem_singleton.mp new]
      exact settled _
  short := by
    change (repo.entries ++ [_]).length ≤ 1000000
    rw [List.length_append, List.length_singleton]
    omega

/-! ### Concurrent recording -/

abbrev auditNodes (lib : Library) (mac : Mac) (signingKey : Bytes) (backend : Backend) :
    Interleaving where
  State := AuditRepository
  Op := AuditOp
  Answer := AuditOp.Answer
  Draw := Time
  exec := AuditOp.exec lib backend
  Call := Occurrence
  Result _ := Except KNXVaultError Unit
  program := record lib mac signingKey

/-- Coding changes nothing that the hash of the entry covers. -/
def Coding.Keeps (coding : Coding) (lib : Library) (entry : Entry) : Prop :=
  coding.text entry.actor = entry.actor ∧ coding.text entry.action = entry.action ∧
    coding.text entry.resource = entry.resource ∧ coding.text entry.status = entry.status ∧
    lib.marshalFields (coding.details entry.details) = lib.marshalFields entry.details

instance Coding.Keeps.decidable (coding : Coding) (lib : Library) (entry : Entry) :
    Decidable (coding.Keeps lib entry) :=
  inferInstanceAs (Decidable (_ ∧ _))

theorem Coding.Keeps.entryHash {coding : Coding} {entry : Entry} (keeps : coding.Keeps lib entry)
    (prevHash : String) (time : Time) :
    entryHash lib prevHash (coding.entry entry).actor (coding.entry entry).action
        (coding.entry entry).resource (coding.entry entry).status (coding.entry entry).details
        time =
      entryHash lib prevHash entry.actor entry.action entry.resource entry.status entry.details
        time := by
  obtain ⟨actor, action, resource, status, details⟩ := keeps
  simp only [Domain.entryHash, computeHash, Coding.entry, actor, action, resource, status, details]

namespace AuditOp

/-- There is room for the entry and it is no older than the last one. Where its
hash or its signature is kept, the log has not grown since its hash was computed;
where it is sent to the repository, it has a time, and its signature is only kept with
what coding keeps. -/
def Extends (lib : Library) (backend : Backend) (signingKey : Bytes) (repo : AuditRepository) :
    AuditOp → Prop
  | append entry parent =>
    repo.entries.length < 1000000 ∧
    (∀ last ∈ repo.entries.getLast?, last.timestamp.instant ≤ entry.timestamp.instant) ∧
    match backend with
    | .memory => parent = repo.latestHash
    | .replicated coding => entry.timestamp.isZero = false ∧
      (signingKey ≠ [] → parent = repo.latestHash ∧ coding.Keeps lib entry)
  | latestHash | now => True

instance Extends.decidable (lib : Library) (backend : Backend) (signingKey : Bytes)
    (repo : AuditRepository) : (op : AuditOp) → Decidable (Extends lib backend signingKey repo op)
  | append entry parent =>
    match backend with
    | .memory => inferInstanceAs (Decidable (_ ∧ _ ∧ parent = repo.latestHash))
    | .replicated coding => inferInstanceAs (Decidable (_ ∧ _ ∧ _ = false ∧
        (signingKey ≠ [] → parent = repo.latestHash ∧ coding.Keeps lib entry)))
  | latestHash | now => isTrue trivial

/-- An entry covers the hash it was built over and is signed with its own hash. -/
def Built (lib : Library) (mac : Mac) (signingKey : Bytes) : AuditOp → Prop
  | append entry parent =>
    entry.hash = entryHash lib parent entry.actor entry.action entry.resource entry.status
      entry.details entry.timestamp ∧
    (signingKey ≠ [] → entry.signature = signEntry mac signingKey entry.hash)
  | latestHash | now => True

variable (lib : Library) (mac : Mac) (signingKey : Bytes)

theorem record_built (occurrence : Occurrence) :
    (record lib mac signingKey occurrence).Issues (Built lib mac signingKey) := by
  refine ⟨trivial, fun prevHash => ⟨trivial, fun clock => ⟨?_, fun _ => trivial⟩⟩⟩
  dsimp only [Built]
  unfold newEntry
  by_cases unkeyed : signingKey = []
  · simp only [if_pos unkeyed]
    exact ⟨rfl, fun keyed => absurd unkeyed keyed⟩
  · simp only [if_neg unkeyed]
    exact ⟨rfl, fun _ => rfl⟩

variable {lib mac signingKey}

/-- What the repository stores of an entry that extends the log. -/
theorem appended_covers (clock : Time) {repo : AuditRepository} {entry : Entry} {parent : String}
    (extends_ : Extends lib backend signingKey repo (append entry parent))
    (built : Built lib mac signingKey (append entry parent)) :
    let stored := backend.appended lib clock repo entry
    stored.timestamp = entry.timestamp ∧
    stored.hash = entryHash lib repo.latestHash stored.actor stored.action stored.resource
      stored.status stored.details stored.timestamp ∧
    (signingKey ≠ [] → stored.signature = signEntry mac signingKey stored.hash) ∧
    ∀ id, backend.listed { stored with id } = { stored with id } := by
  obtain ⟨-, -, fitting⟩ := extends_
  obtain ⟨covers, signed⟩ := built
  cases backend with
  | memory =>
    rw [fitting] at covers
    exact ⟨rfl, covers, signed, fun _ => rfl⟩
  | replicated coding =>
    obtain ⟨timed, fitting⟩ := fitting
    have kept : (if (coding.entry entry).timestamp.isZero then clock.utc
        else (coding.entry entry).timestamp) = entry.timestamp := by
      change (if entry.timestamp.isZero then _ else _) = _
      rw [timed]
      rfl
    refine ⟨kept, rfl, fun keyed => ?_, fun id => ?_⟩
    · obtain ⟨current, keeps⟩ := fitting keyed
      rw [current] at covers
      simp only [Backend.appended, stamped, kept]
      rw [keeps.entryHash, ← covers]
      exact signed keyed
    · simp only [Backend.listed, Backend.appended, stamped, Coding.entry, coding.text_text,
        coding.details_details]

theorem sound_kept {clock : Time} {op : AuditOp} {repo : AuditRepository}
    (allowed : Extends lib backend signingKey repo op ∧ Built lib mac signingKey op)
    (sound : Sound lib mac signingKey backend repo) :
    Sound lib mac signingKey backend (op.exec lib backend clock repo).2 := by
  cases op with
  | latestHash => exact sound
  | now => exact sound
  | append entry parent =>
    obtain ⟨time, covers, signed, settled⟩ := appended_covers clock allowed.1 allowed.2
    simp only [exec]
    cases appended : repo.append (backend.appended lib clock repo entry) with
    | error err => exact sound
    | ok result =>
      obtain ⟨valid, rfl⟩ := AuditRepository.append_ok_iff.mp appended
      refine sound.push valid allowed.1.1 ?_ covers signed settled
      rw [time]
      exact allowed.1.2.1

end AuditOp

section Runs

open Interleaving.Pool (step Performs)

variable (lib : Library) (mac : Mac) (signingKey : Bytes) (backend : Backend)

/-- As long as every entry extends the log, the log verifies with the signature of
its head, which is also the one that an export of a log with entries carries. -/
theorem log_verifies (events : List (auditNodes lib mac signingKey backend).Event)
    (allowed : AllSteps step (Performs (AuditOp.Extends lib backend signingKey))
      ((auditNodes lib mac signingKey backend).idle .empty) events) (signedAt : Time) :
    let repo := (run step ((auditNodes lib mac signingKey backend).idle .empty) events).state
    (∃ result, verify lib mac signingKey backend repo
        (signHead lib mac signingKey repo.latestHash signedAt) signedAt = some result ∧
      result.valid = true) ∧
    ∀ clock opts exported,
      exportEntries lib mac signingKey backend clock repo opts = some exported →
      repo.entries ≠ [] → signingKey ≠ [] →
        exported.signature = signHead lib mac signingKey repo.latestHash exported.signedAt := by
  have built := @Interleaving.Pool.performs_of_issues (auditNodes lib mac signingKey backend) _
    (AuditOp.record_built lib mac signingKey) .empty events
  have sound := Interleaving.Pool.fact_kept (fun clock op repo => AuditOp.sound_kept)
    (Interleaving.Pool.performs_and allowed built) Sound.empty
  refine ⟨sound.verify signedAt, fun clock opts exported made filled keyed => ?_⟩
  simp only [exportEntries, Option.bind_eq_bind, Option.bind_eq_some_iff] at made
  obtain ⟨entries, -, made⟩ := made
  cases made
  exact if_pos ⟨keyed, sound.latestHash_ne filled⟩

def sampleOccurrence : Occurrence where
  actor := "root"
  action := "secret.read"
  resource := "secrets/kv/app"
  status := "success"

/-- Coding that replaces one text, which is not UTF-8. -/
def replacing : Coding where
  text written := if written = "secrets/kv/\xff" then "secrets/kv/\ufffd" else written
  details written := written
  text_filled written filled := by
    split
    · decide
    · exact filled
  text_text written := by
    by_cases invalid : written = "secrets/kv/\xff"
    · rw [if_pos invalid]
      decide
    · simp only [if_neg invalid]
  details_details _ := rfl

/-- A call that nothing overlaps. -/
def recordAlone (occurrence : Occurrence) (place : Nat) (clock : Int) :
    List (auditNodes .sample .sample [1] backend).Event :=
  .start occurrence :: List.replicate 3 (.advance place ⟨clock, 0⟩)

/-- Two calls that read the last hash before either appends. -/
def recordBoth : List (auditNodes .sample .sample [1] backend).Event :=
  [.start sampleOccurrence, .start sampleOccurrence, .advance 0 ⟨10, 0⟩, .advance 1 ⟨10, 0⟩,
    .advance 0 ⟨10, 0⟩, .advance 1 ⟨10, 0⟩, .advance 0 ⟨10, 0⟩, .advance 1 ⟨10, 0⟩]

/-- What `Verify` says after some calls, with the right signature of the head. -/
def verified (events : List (auditNodes .sample .sample [1] backend).Event) :
    Option VerifyResult :=
  let repo := (run step ((auditNodes .sample .sample [1] backend).idle .empty) events).state
  verify .sample .sample [1] backend repo
    (signHead .sample .sample [1] repo.latestHash ⟨99, 0⟩) ⟨99, 0⟩

theorem log_verifies_twice :
    ∃ result, verified (.replicated replacing)
        (recordAlone (.replicated replacing) sampleOccurrence 0 10 ++
          recordAlone (.replicated replacing) sampleOccurrence 1 10) =
      some result ∧ result.valid = true :=
  (log_verifies .sample .sample [1] (.replicated replacing)
    (recordAlone (.replicated replacing) sampleOccurrence 0 10 ++
      recordAlone (.replicated replacing) sampleOccurrence 1 10)
    (by decide +kernel) ⟨99, 0⟩).1

/-- The first calls have succeeded, and the log does not verify. -/
def Unverified (calls : Nat) (events : List (auditNodes .sample .sample [1] backend).Event)
    (message : String) : Prop :=
  (∀ place < calls, (run step ((auditNodes .sample .sample [1] backend).idle .empty)
    events).endsWith place fun _ result => result matches .ok ()) ∧
  (verified backend events).map (fun result => (result.valid, result.message)) =
    some (false, message)

/-- Two calls at once break the chain in memory, and the signature in the replicated
log, whose hash was computed again; a clock that goes back by the second call puts the
entries in the wrong order; and a resource that is not UTF-8 is signed as it was sent but
hashed as it was decoded. -/
theorem log_unverified :
    Unverified .memory 2 (recordBoth .memory) "hash mismatch at entry id 2" ∧
    Unverified (.replicated replacing) 2 (recordBoth (.replicated replacing))
      "signature mismatch at entry id 2" ∧
    Unverified .memory 2 (recordAlone .memory sampleOccurrence 0 20 ++
      recordAlone .memory sampleOccurrence 1 10)
      "hash mismatch at entry id 2" ∧
    Unverified (.replicated replacing) 1 (recordAlone (.replicated replacing)
      { sampleOccurrence with resource := "secrets/kv/\xff" } 0 10)
      "signature mismatch at entry id 1" := by
  unfold Unverified
  decide +kernel

end Runs

end KnxVault.Audit
