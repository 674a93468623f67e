import KnxVault.Audit.Verification
import KnxVault.Std.Codec
import KnxVault.Std.Join

/-!
# What the head of an audit log commits to

The hash of an entry is taken over its fields joined by bars, without escaping
them. With a hash that has no collisions the head determines the hash before each
entry and the texts of its time and its details; actor, action, resource and status are
determined exactly if none of them holds a bar.
-/

namespace KnxVault.Audit

open KnxVault.Std KnxVault.Domain KnxVault.Repository

/-- `ValidateChain` of `internal/audit/chain.go`, from the entry at `index` on. -/
def validateChain (lib : Library) (prevHash : String) (index : Nat) :
    List Entry → Except String Unit
  | [] => .ok ()
  | entry :: rest =>
    if entry.hash ≠ entryHash lib prevHash entry.actor entry.action entry.resource entry.status
        entry.details entry.timestamp then
      .error ("audit entry " ++ toString index ++ " hash mismatch")
    else validateChain lib entry.hash (index + 1) rest

variable {prevHash : String}

theorem validateChain_ok_iff {lib : Library} {index : Nat} {entries : List Entry} :
    validateChain lib prevHash index entries = .ok () ↔
      Chained lib prevHash (entries.map content) := by
  induction entries generalizing prevHash index with
  | nil => simp [validateChain, Chained]
  | cons entry rest ih =>
    rw [validateChain, List.map_cons, Chained]
    by_cases covers : entry.hash = entryHash lib prevHash entry.actor entry.action entry.resource
        entry.status entry.details entry.timestamp
    · rw [if_neg (not_not.mpr covers), ih]
      exact (and_iff_right covers).symm
    · rw [if_pos covers]
      exact iff_of_false (by simp) fun chained => covers chained.1

def bar : Char := '|'

/-- What is known of the texts that a hash covers. -/
structure Wording (lib : Library) : Prop where
  sha256_injective : Function.Injective lib.sha256Hex
  sha256_plain : ∀ text, bar ∉ (lib.sha256Hex text).toList
  format_plain : ∀ time, bar ∉ (lib.formatRFC3339Nano time).toList
  /-- A bar stands inside a string of a JSON text, and what follows it is no JSON text. -/
  marshal_unsplit : ∀ fields other extra,
    (lib.marshalFields fields).toList ≠ extra ++ bar :: (lib.marshalFields other).toList

/-- The fields that are joined without escaping. -/
def freeFields (record : AuditRecord) : List (List Char) :=
  [record.actor, record.action, record.resource, record.status].map String.toList

/-- No free field holds a bar. -/
def Unbarred (record : AuditRecord) : Prop := ∀ field ∈ freeFields record, bar ∉ field

instance (record : AuditRecord) : Decidable (Unbarred record) :=
  inferInstanceAs (Decidable (∀ field ∈ freeFields record, bar ∉ field))

/-- No other time and no other details are written as those of the record. -/
structure Determined (lib : Library) (record : AuditRecord) : Prop where
  time : ∀ other, lib.formatRFC3339Nano other = lib.formatRFC3339Nano record.timestamp →
    other = record.timestamp
  details : ∀ other, lib.marshalFields other = lib.marshalFields record.details →
    other = record.details

/-- The hash that a record should have, after another one. -/
def hashAfter (lib : Library) (prevHash : String) (record : AuditRecord) : String :=
  entryHash lib prevHash record.actor record.action record.resource record.status record.details
    record.timestamp

/-- The text that the hash covers. -/
def payload (lib : Library) (prevHash : String) (record : AuditRecord) : List Char :=
  prevHash.toList ++ bar :: ((lib.formatRFC3339Nano record.timestamp).toList ++ bar ::
    ([bar].intercalate (freeFields record) ++ bar :: (lib.marshalFields record.details).toList))

variable {lib : Library}

theorem hashAfter_eq (prevHash : String) (record : AuditRecord) :
    hashAfter lib prevHash record =
      lib.sha256Hex (String.ofList (payload lib prevHash record)) := by
  unfold hashAfter entryHash computeHash payload freeFields
  congr 1
  refine String.toList_injective ?_
  simp [bar]

namespace Wording

variable (wording : Wording lib)

include wording in
/-- What a hash of no collisions determines of the record and the hash before it. -/
theorem hashAfter_inj {prevHash prevHash' : String} {record other : AuditRecord}
    (plain : bar ∉ prevHash.toList) (plain' : bar ∉ prevHash'.toList)
    (same : hashAfter lib prevHash record = hashAfter lib prevHash' other) :
    prevHash = prevHash' ∧
      lib.formatRFC3339Nano record.timestamp = lib.formatRFC3339Nano other.timestamp ∧
      [bar].intercalate (freeFields record) = [bar].intercalate (freeFields other) ∧
      lib.marshalFields record.details = lib.marshalFields other.details := by
  rw [hashAfter_eq, hashAfter_eq] at same
  have texts := String.ofList_injective (wording.sha256_injective same)
  obtain ⟨hashes, texts⟩ := append_cons_inj_of_plain plain plain' texts
  obtain ⟨times, texts⟩ :=
    append_cons_inj_of_plain (wording.format_plain _) (wording.format_plain _) texts
  obtain ⟨fields, details⟩ := append_cons_inj_of_unsplit
    (wording.marshal_unsplit _ _) (wording.marshal_unsplit _ _) texts
  exact ⟨String.toList_injective hashes, String.toList_injective times, fields,
    String.toList_injective details⟩

include wording in
theorem lastHash_plain {records : List AuditRecord} (chained : Chained lib "" records) :
    bar ∉ (lastHash "" records).toList := by
  rcases List.eq_nil_or_concat records with rfl | ⟨front, record, rfl⟩
  · decide
  · rw [List.concat_eq_append] at chained ⊢
    have hashed := (chained_concat.mp chained).2
    rw [lastHash, List.getLast?_concat, Option.map_some, Option.getD_some, hashed]
    exact wording.sha256_plain _

include wording in
/-- Records without bars in their free fields, whose texts determine them, are the only
ones with their head. -/
theorem eq_of_lastHash {records others : List AuditRecord}
    (evident : ∀ record ∈ records, Unbarred record ∧ Determined lib record)
    (chained : Chained lib "" records) (chained' : Chained lib "" others)
    (same : lastHash "" others = lastHash "" records) : others = records := by
  -- from the end: the last hashes agree, so the last records and the hashes before them do
  induction records using List.reverseRecOn generalizing others with
  | nil =>
    rcases List.eq_nil_or_concat others with rfl | ⟨front, other, rfl⟩
    · rfl
    · rw [List.concat_eq_append] at chained' same
      refine absurd ?_ (hash_ne_of_chained chained' other (by simp))
      simpa [lastHash] using same
  | append_singleton front record ih =>
    rcases List.eq_nil_or_concat others with rfl | ⟨front', other, rfl⟩
    · refine absurd ?_ (hash_ne_of_chained chained record (by simp))
      simpa [lastHash] using same.symm
    · rw [List.concat_eq_append] at chained' same ⊢
      obtain ⟨earlier, hashed⟩ := chained_concat.mp chained
      obtain ⟨earlier', hashed'⟩ := chained_concat.mp chained'
      have heads : other.hash = record.hash := by simpa [lastHash] using same
      obtain ⟨before, times, fields, details⟩ := wording.hashAfter_inj
        (wording.lastHash_plain earlier') (wording.lastHash_plain earlier)
        (hashed'.symm.trans (heads.trans hashed))
      obtain ⟨unbarred, determined⟩ := evident record (by simp)
      have free : freeFields other = freeFields record :=
        join_inj_of_plain unbarred (by simp [freeFields]) rfl fields
      have recordsSame : other = record := by
        simp only [freeFields, List.map_cons, List.map_nil, List.cons.injEq, and_true] at free
        obtain ⟨actor, action, resource, status⟩ := free
        cases other
        cases record
        simp only [AuditRecord.mk.injEq]
        exact ⟨determined.time _ times, String.toList_injective actor,
          String.toList_injective action, String.toList_injective resource,
          String.toList_injective status, determined.details _ details, heads⟩
      have fronts := ih (fun record listed => evident record (List.mem_append_left _ listed))
        earlier earlier' before
      rw [fronts, recordsSame]

end Wording

/-! ### Records with one hash -/

variable {record : AuditRecord}

/-- A record in the place of one with the same hash. -/
theorem chained_replace {front back : List AuditRecord} {other : AuditRecord}
    (hashes : other.hash = record.hash)
    (same : ∀ prevHash, hashAfter lib prevHash other = hashAfter lib prevHash record)
    (chained : Chained lib prevHash (front ++ record :: back)) :
    Chained lib prevHash (front ++ other :: back) := by
  induction front generalizing prevHash with
  | nil => exact ⟨hashes.trans (chained.1.trans (same prevHash).symm), hashes ▸ chained.2⟩
  | cons first rest ih => exact ⟨chained.1, ih chained.2⟩

theorem lastHash_replace {front back : List AuditRecord} {other : AuditRecord}
    (hashes : other.hash = record.hash) :
    lastHash prevHash (front ++ other :: back) = lastHash prevHash (front ++ record :: back) := by
  induction front generalizing prevHash with
  | nil => rw [List.nil_append, List.nil_append, lastHash_cons, lastHash_cons, hashes]
  | cons first rest ih => rw [List.cons_append, List.cons_append, lastHash_cons, lastHash_cons, ih]

/-- A record with a bar in a free field has the hash of another one. -/
theorem exists_resplit (barred : ¬ Unbarred record) :
    ∃ other : AuditRecord, other ≠ record ∧ other.hash = record.hash ∧
      ∀ prevHash, hashAfter lib prevHash other = hashAfter lib prevHash record := by
  simp only [Unbarred, not_forall, not_not] at barred
  obtain ⟨field, listed, holds⟩ := barred
  obtain ⟨fields, lengths, joined, differ⟩ := exists_join_eq
    (show 2 ≤ (freeFields record).length by simp [freeFields]) ⟨field, listed, holds⟩
  obtain ⟨actor, action, resource, status, rfl⟩ : ∃ a b c d, fields = [a, b, c, d] :=
    List.length_eq_four.mp (lengths.trans rfl)
  refine ⟨{ record with
    actor := String.ofList actor, action := String.ofList action
    resource := String.ofList resource, status := String.ofList status },
    fun same => differ ?_, rfl, fun prevHash => ?_⟩
  · rw [← same]
    simp [freeFields]
  · rw [hashAfter_eq, hashAfter_eq]
    congr 2
    unfold payload
    rw [← joined]
    simp [freeFields]

/-- So has one whose time or details are written as others are. -/
theorem exists_rewording (vague : ¬ Determined lib record) :
    ∃ other : AuditRecord, other ≠ record ∧ other.hash = record.hash ∧
      ∀ prevHash, hashAfter lib prevHash other = hashAfter lib prevHash record := by
  by_cases timed : ∀ other, lib.formatRFC3339Nano other =
      lib.formatRFC3339Nano record.timestamp → other = record.timestamp
  · have written : ¬ ∀ other, lib.marshalFields other = lib.marshalFields record.details →
      other = record.details := fun details => vague ⟨timed, details⟩
    push Not at written
    obtain ⟨details, same, differ⟩ := written
    refine ⟨{ record with details }, fun equal => differ (congrArg AuditRecord.details equal),
      rfl, fun prevHash => ?_⟩
    simp only [hashAfter, entryHash, computeHash, same]
  · push Not at timed
    obtain ⟨timestamp, same, differ⟩ := timed
    refine ⟨{ record with timestamp }, fun equal => differ (congrArg AuditRecord.timestamp equal),
      rfl, fun prevHash => ?_⟩
    simp only [hashAfter, entryHash, computeHash, same]

/-- Records of which one shares its hash with another are not the only ones with their
head. -/
theorem exists_other {records : List AuditRecord} (chained : Chained lib "" records)
    (listed : record ∈ records)
    (shared : ∃ other : AuditRecord, other ≠ record ∧ other.hash = record.hash ∧
      ∀ prevHash, hashAfter lib prevHash other = hashAfter lib prevHash record) :
    ∃ others, others ≠ records ∧ Chained lib "" others ∧
      lastHash "" others = lastHash "" records := by
  obtain ⟨front, back, rfl⟩ := List.append_of_mem listed
  obtain ⟨other, differs, hashes, same⟩ := shared
  refine ⟨front ++ other :: back, ?_, chained_replace hashes same chained,
    lastHash_replace hashes⟩
  intro equal
  exact differs (List.cons.inj (List.append_cancel_left equal)).1

/-! ### Tamper evidence -/

def headHash (entries : List Entry) : String := lastHash "" (entries.map content)

/-- Every log that passes the check and has the head of this one holds the same
entries, exactly if no entry of this one has a bar in its actor, action, resource
or status, and no other time or details are written as its own. -/
theorem tamper_evident_iff (wording : Wording lib) (entries : List Entry)
    (passes : validateChain lib "" 0 entries = .ok ()) :
    (∀ other, validateChain lib "" 0 other = .ok () → headHash other = headHash entries →
        other.map content = entries.map content) ↔
      ∀ entry ∈ entries, Unbarred (content entry) ∧ Determined lib (content entry) := by
  rw [validateChain_ok_iff] at passes
  constructor
  · intro evident entry listed
    by_contra unclear
    have shared : ∃ other : AuditRecord, other ≠ content entry ∧
        other.hash = (content entry).hash ∧
        ∀ prevHash, hashAfter lib prevHash other = hashAfter lib prevHash (content entry) := by
      by_cases barred : Unbarred (content entry)
      · exact exists_rewording fun determined => unclear ⟨barred, determined⟩
      · exact exists_resplit barred
    obtain ⟨others, differ, chained, heads⟩ :=
      exists_other passes (List.mem_map_of_mem listed) shared
    have contents : (others.map fun record => ({ record with } : Entry)).map content = others := by
      rw [List.map_map]
      exact List.map_id others
    refine differ ?_
    rw [← contents]
    refine evident _ ?_ ?_
    · rw [validateChain_ok_iff, contents]
      exact chained
    · rw [headHash, contents]
      exact heads
  · intro evident other passes' heads
    rw [validateChain_ok_iff] at passes'
    exact wording.eq_of_lastHash (List.forall_mem_map.mpr evident) passes passes' heads

/-! ### A hash without collisions -/

/-- A byte as a letter. -/
def letter (byte : Byte) : Char := Char.ofNat (256 + byte.toNat)

theorem toNat_letter (byte : Byte) : (letter byte).toNat = 256 + byte.toNat := by
  have valid : (256 + byte.toNat).isValidChar := .inl (by omega)
  rw [letter, Char.ofNat, dif_pos valid]
  rfl

def letters (bytes : Bytes) : String := String.ofList (bytes.map letter)

theorem letters_injective : Function.Injective letters := by
  intro first second same
  refine List.map_injective_iff.mpr ?_ (String.ofList_injective same)
  intro byte other same
  have codes := congrArg Char.toNat same
  rw [toNat_letter, toNat_letter] at codes
  exact BitVec.eq_of_toNat_eq (by omega)

theorem letters_plain (bytes : Bytes) : bar ∉ (letters bytes).toList := by
  rw [letters, String.toList_ofList]
  intro listed
  obtain ⟨byte, -, same⟩ := List.mem_map.mp listed
  have code := congrArg Char.toNat same
  rw [toNat_letter] at code
  have : bar.toNat = 124 := rfl
  omega

theorem write_injective {α : Type} (format : Format α) : Function.Injective format.write := by
  intro first second same
  have back := format.read_write first []
  rw [same, format.read_write] at back
  exact (Prod.mk.inj (Option.some.inj back)).1.symm

/-- The hash of a text is the text itself in other letters. -/
def lettered : Library where
  toLower := Library.sample.toLower
  toLower_ascii := Library.sample.toLower_ascii
  urlHasPassword := Library.sample.urlHasPassword
  sha256Hex text := letters (0 :: Format.text.write text)
  sha256Hex_ne text empty := by
    have length := congrArg (fun text => text.toList.length) empty
    simp [letters] at length
  marshalFields fields := if fields.isEmpty then "\x7b\x7d" else "\x7b...\x7d"
  formatRFC3339Nano time := letters ((Format.integer.pair Format.integer).write
    (time.instant, time.offset))

theorem letteredWording : Wording lettered where
  sha256_injective first second same :=
    write_injective Format.text (List.cons.inj (letters_injective same)).2
  sha256_plain text := letters_plain _
  format_plain time := letters_plain _
  marshal_unsplit fields other extra same := by
    have plain : bar ∉ (lettered.marshalFields fields).toList := by
      simp only [lettered]
      split <;> decide
    rw [same] at plain
    exact plain (by simp)

def readEntry : Entry where
  timestamp := ⟨10, 0⟩
  actor := "eve"
  action := "secret.read"
  resource := "kv/a"
  status := "success"
  hash := entryHash lettered "" "eve" "secret.read" "kv/a" "success" ∅ ⟨10, 0⟩

theorem readEntry_passes : validateChain lettered "" 0 [readEntry] = .ok () := by
  rw [validateChain_ok_iff, List.map_singleton]
  exact ⟨by simp only [content, readEntry], trivial⟩

theorem readEntry_determined : Determined lettered (content readEntry) where
  time other same := by
    have fields := write_injective _ (letters_injective same)
    cases other
    simp_all
  details other same := by
    by_contra filled
    have texts : lettered.marshalFields other = "\x7b\x7d" := same
    have isEmpty : ¬ other.isEmpty = true := fun empty =>
      filled (Std.ExtTreeMap.isEmpty_iff.mp empty)
    simp only [lettered, if_neg isEmpty] at texts
    exact absurd texts (by decide)

theorem tamper_evident_read :
    validateChain lettered "" 0 [readEntry] = .ok () ∧
    ∀ other, validateChain lettered "" 0 other = .ok () →
      headHash other = headHash [readEntry] → other.map content = [readEntry].map content :=
  ⟨readEntry_passes, (tamper_evident_iff letteredWording [readEntry] readEntry_passes).mpr
    (List.forall_mem_singleton.mpr ⟨by decide, readEntry_determined⟩)⟩

/-- An entry with a bar in its resource, and one that reads the bars otherwise. -/
def barredEntry : Entry where
  timestamp := ⟨10, 0⟩
  actor := "eve"
  action := "secret.read"
  resource := "kv/a|denied"
  status := "success"
  hash := "#|10|eve|secret.read|kv/a|denied|success|"

def resplitEntry : Entry :=
  { barredEntry with actor := "eve|secret.read", action := "kv/a", resource := "denied" }

theorem tampered_undetected :
    Function.Injective Library.sample.sha256Hex ∧
    validateChain .sample "" 0 [barredEntry] = .ok () ∧
    validateChain .sample "" 0 [resplitEntry] = .ok () ∧
    headHash [barredEntry] = headHash [resplitEntry] ∧
    barredEntry.actor ≠ resplitEntry.actor ∧ barredEntry.action ≠ resplitEntry.action ∧
    barredEntry.resource ≠ resplitEntry.resource := by
  refine ⟨fun first second same => ?_, by rfl, by rfl, by rfl, by decide, by decide, by decide⟩
  simpa [Library.sample] using same

end KnxVault.Audit
