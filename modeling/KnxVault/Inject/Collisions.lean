import KnxVault.Inject.Mount

/-!
# Names of injected secrets

Derived names lose characters and given names are joined unchecked, so two secrets can get
one name and a file can leave its directory. Whether that happens is decided by the texts
of the request: `SlashAlike`, `EnvAlike` and `PathWalk.Leads` say when two of them give
one name and where a file goes.
-/

namespace KnxVault.Inject

open KnxVault.Std KnxVault.Domain

theorem map_eq_map_iff {α β : Type} {change : α → β} {first second : List α} :
    first.map change = second.map change ↔
      List.Forall₂ (fun a b => change a = change b) first second := by
  rw [← List.forall₂_eq_eq_eq, List.forall₂_map_left_iff, List.forall₂_map_right_iff]

/-! ### Derived file names -/

/-- The path without one leading slash, or a word if that is all there is. -/
def fileStem (path : String) : List Char :=
  if trimPrefix path "/" = "" then "secret".toList else (trimPrefix path "/").toList

/-- The paths differ in slashes and underscores only. -/
def SlashAlike (path other : String) : Prop :=
  List.Forall₂ (fun char char' => char = char' ∨
    (char = '/' ∨ char = '_') ∧ (char' = '/' ∨ char' = '_')) (fileStem path) (fileStem other)

def underscored (char : Char) : Char := if char = '/' then '_' else char

theorem underscored_eq_iff {char char' : Char} : underscored char = underscored char' ↔
    char = char' ∨ (char = '/' ∨ char = '_') ∧ (char' = '/' ∨ char' = '_') := by
  unfold underscored
  split <;> split <;> grind

theorem toList_sanitizeFileName (path : String) :
    (sanitizeFileName path).toList = (fileStem path).map underscored := by
  have replaced : (replaceAll [("/", "_")] (trimPrefix path "/")).toList =
      (trimPrefix path "/").toList.map underscored := toList_replaceAll_char rfl rfl _
  have same : replaceAll [("/", "_")] (trimPrefix path "/") = "" ↔ trimPrefix path "/" = "" := by
    rw [← String.toList_inj, ← String.toList_inj, replaced]
    exact List.map_eq_nil_iff
  unfold sanitizeFileName fileStem
  by_cases nothing : trimPrefix path "/" = ""
  · rw [if_pos (same.mpr nothing), if_pos nothing]
    decide
  · rw [if_neg (fun empty => nothing (same.mp empty)), if_neg nothing, replaced]

variable {path : String}

theorem sanitizeFileName_eq_iff {other : String} :
    sanitizeFileName path = sanitizeFileName other ↔ SlashAlike path other := by
  rw [← String.toList_inj, toList_sanitizeFileName, toList_sanitizeFileName, map_eq_map_iff]
  simp only [underscored_eq_iff]
  exact Iff.rfl

theorem fileStem_ne (path : String) : fileStem path ≠ [] := by
  unfold fileStem
  split
  · decide
  · rename_i filled
    exact fun empty => filled (String.toList_inj.mp empty)

theorem noSlash_sanitizeFileName (path : String) : '/' ∉ (sanitizeFileName path).toList := by
  rw [toList_sanitizeFileName, List.mem_map]
  rintro ⟨char, -, slash⟩
  unfold underscored at slash
  split at slash
  · exact absurd slash (by decide)
  · contradiction

/-- A name that is its own segment is derived from itself. -/
theorem sanitizeFileName_self {name : String} (filled : name ≠ "") (noSlash : '/' ∉ name.toList) :
    sanitizeFileName name = name := by
  have trimmed : trimPrefix name "/" = name := by
    refine if_neg fun starts => noSlash ?_
    obtain ⟨rest, split⟩ := hasPrefix_iff.mp starts
    rw [split]
    exact List.mem_append_left _ (List.mem_singleton.mpr rfl)
  rw [← String.toList_inj, toList_sanitizeFileName, fileStem, trimmed, if_neg filled]
  have kept : ∀ char ∈ name.toList, underscored char = id char := by
    intro char mem
    refine if_neg ?_
    rintro rfl
    exact noSlash mem
  rw [List.map_congr_left kept, List.map_id]

/-- What a derived name is, unless it is one of the two that lead elsewhere. -/
theorem plain_sanitizeFileName (notHere : trimPrefix path "/" ≠ ".")
    (notParent : trimPrefix path "/" ≠ "..") : PlainSegment (sanitizeFileName path).toList := by
  -- a dot is no slash, so the derived name is a row of dots only if the path is one
  have dots : ∀ name : String, (∀ char ∈ name.toList, char = '.') → name ≠ "secret" →
      (sanitizeFileName path).toList = name.toList → trimPrefix path "/" = name := by
    intro name allDots notSecret same
    rw [toList_sanitizeFileName] at same
    have plain : (fileStem path).map underscored = fileStem path := by
      refine (List.map_congr_left fun char mem => ?_).trans (List.map_id _)
      have dot := allDots _ (same ▸ List.mem_map_of_mem mem)
      unfold underscored at dot ⊢
      split at dot
      · exact absurd dot (by decide)
      · exact if_neg ‹_›
    rw [plain] at same
    unfold fileStem at same
    split at same
    · exact absurd (String.toList_inj.mp same.symm) notSecret
    · exact String.toList_inj.mp same
  refine ⟨?_, noSlash_sanitizeFileName path, ?_, ?_⟩
  · rw [toList_sanitizeFileName]
    exact fun empty => fileStem_ne path (List.map_eq_nil_iff.mp empty)
  · exact fun here => notHere (dots "." (by simp) (by decide) here)
  · exact fun parent => notParent (dots ".." (by simp) (by decide) parent)

/-! ### Where the files go -/

def vaultSecrets : List (List Char) := ["vault".toList, "secrets".toList]

theorem cleanSegments_vaultSecrets : cleanSegments "/vault/secrets" = vaultSecrets := by decide

/-- The file name that the reference has, or gets from its path, stays below the directory. -/
def LeadsInside (ref : SecretRef) : Prop :=
  if ref.fileName = "" then trimPrefix ref.path "/" ≠ "." ∧ trimPrefix ref.path "/" ≠ ".."
  else ∃ place, place ≠ [] ∧ PathWalk.Leads vaultSecrets ref.fileName place

/-- Two references, with their file names given or left open, get one file. -/
def FileClash (ref other : SecretRef) : Prop :=
  if ref.fileName = "" then
    if other.fileName = "" then SlashAlike ref.path other.path
    else ∃ segment, PathWalk.Leads vaultSecrets other.fileName [segment] ∧
      SlashAlike ref.path (String.ofList segment)
  else if other.fileName = "" then
    ∃ segment, PathWalk.Leads vaultSecrets ref.fileName [segment] ∧
      SlashAlike other.path (String.ofList segment)
  else ∃ place, PathWalk.Leads vaultSecrets ref.fileName place ∧
    PathWalk.Leads vaultSecrets other.fileName place

theorem leadsInside_iff (ref : SecretRef) : LeadsInside ref ↔
    ∃ place, place ≠ [] ∧ PathWalk.Leads vaultSecrets (fileName ref) place := by
  unfold fileName LeadsInside
  by_cases derived : ref.fileName = ""
  · rw [if_pos derived, if_pos derived]
    constructor
    · rintro ⟨notHere, notParent⟩
      exact ⟨_, by simp, PathWalk.leads_plain (plain_sanitizeFileName notHere notParent)⟩
    · rintro ⟨place, filled, leads⟩
      -- both names end at or above the directory
      have nowhere : ∀ name : String, sanitizeFileName ref.path = name →
          (∀ place, PathWalk.Leads vaultSecrets name place → place = []) → False :=
        fun name same none => filled (none place (same ▸ leads))
      refine ⟨fun here => nowhere "." ?_ ?_, fun parent => nowhere ".." ?_ ?_⟩
      · rw [sanitizeFileName, here]
        decide
      · intro place leads
        have walk : (PathWalk.ofName ".").kept = [] ∧ (PathWalk.ofName ".").climbs = 0 := by decide
        rw [PathWalk.Leads, walk.1, walk.2] at leads
        exact (List.append_eq_nil_iff.mp leads.symm).2
      · rw [sanitizeFileName, parent]
        decide
      · intro place leads
        have walk : (PathWalk.ofName "..").kept = [] := by decide
        rw [PathWalk.Leads, walk] at leads
        exact (List.append_eq_nil_iff.mp leads.symm).2
  · rw [if_neg derived, if_neg derived]

theorem inside_iff (ref : SecretRef) :
    hasPrefix (filePath ref) "/vault/secrets/" = true ↔ LeadsInside ref := by
  unfold filePath
  have start : cleanRooted "/vault/secrets" ++ "/" = "/vault/secrets/" := by decide
  rw [← start, joinRooted_inside_iff (by decide), cleanSegments_vaultSecrets, leadsInside_iff]

theorem leads_unique {base place place' : List (List Char)} {name : String}
    (leads : PathWalk.Leads base name place) (leads' : PathWalk.Leads base name place') :
    place = place' :=
  List.append_cancel_left (leads.symm.trans leads')

/-- A derived name leads to the one segment that the path looks like. -/
theorem leads_derived_iff (notHere : trimPrefix path "/" ≠ ".")
    (notParent : trimPrefix path "/" ≠ "..") {place : List (List Char)}
    (plain : ∀ part ∈ place, PlainSegment part) :
    PathWalk.Leads vaultSecrets (sanitizeFileName path) place ↔
      ∃ segment, place = [segment] ∧ SlashAlike path (String.ofList segment) := by
  have own : PathWalk.Leads vaultSecrets (sanitizeFileName path) [(sanitizeFileName path).toList] :=
    PathWalk.leads_plain (plain_sanitizeFileName notHere notParent)
  have selfNamed : ∀ segment, PlainSegment segment →
      sanitizeFileName (String.ofList segment) = String.ofList segment := by
    intro segment kept
    refine sanitizeFileName_self (fun empty => kept.filled ?_) ?_
    · simpa using congrArg String.toList empty
    · rw [String.toList_ofList]
      exact kept.noSlash
  constructor
  · intro leads
    refine ⟨_, leads_unique leads own, ?_⟩
    rw [← sanitizeFileName_eq_iff, selfNamed _ (plain_sanitizeFileName notHere notParent),
      String.ofList_toList]
  · rintro ⟨segment, rfl, alike⟩
    rw [← sanitizeFileName_eq_iff, selfNamed segment (plain segment (List.mem_singleton.mpr rfl))]
      at alike
    have same : [(sanitizeFileName path).toList] = [segment] := by
      rw [alike, String.toList_ofList]
    rw [← same]
    exact own

/-- Below the directory, two references share a file exactly if they clash. -/
theorem samePath_iff {ref other : SecretRef} (inside : LeadsInside ref)
    (inside' : LeadsInside other) :
    filePath ref = filePath other ↔ FileClash ref other := by
  have kept : ∀ {name : String} {place : List (List Char)},
      PathWalk.Leads vaultSecrets name place → ∀ part ∈ place, PlainSegment part := by
    intro name place leads
    rw [← cleanSegments_vaultSecrets] at leads
    exact plain_of_leads leads
  have shared : filePath ref = filePath other ↔
      ∃ place, (∀ part ∈ place, PlainSegment part) ∧
        PathWalk.Leads vaultSecrets (fileName ref) place ∧
        PathWalk.Leads vaultSecrets (fileName other) place := by
    obtain ⟨place, -, leads⟩ := (leadsInside_iff ref).mp inside
    have same := @joinRooted_eq_iff "/vault/secrets" (fileName ref) (fileName other) place
    rw [cleanSegments_vaultSecrets] at same
    refine (same leads).trans ⟨fun leads' => ⟨place, kept leads, leads, leads'⟩, ?_⟩
    rintro ⟨place', -, leads', both⟩
    rwa [leads_unique leads leads']
  rw [shared]
  unfold LeadsInside at inside inside'
  unfold FileClash fileName
  -- a derived name leads to one segment, a given name wherever it walks
  by_cases derived : ref.fileName = "" <;> by_cases derived' : other.fileName = ""
  · rw [if_pos derived] at inside ⊢
    rw [if_pos derived'] at inside' ⊢
    rw [if_pos derived, if_pos derived', ← sanitizeFileName_eq_iff]
    constructor
    · rintro ⟨place, plain, leads, leads'⟩
      obtain ⟨segment, rfl, alike⟩ := (leads_derived_iff inside.1 inside.2 plain).mp leads
      obtain ⟨segment', same, alike'⟩ := (leads_derived_iff inside'.1 inside'.2 plain).mp leads'
      cases same
      rw [← sanitizeFileName_eq_iff] at alike alike'
      rw [alike, alike']
    · intro same
      have own := plain_sanitizeFileName inside.1 inside.2
      rw [← same]
      exact ⟨_, List.forall_mem_singleton.mpr own, PathWalk.leads_plain own,
        PathWalk.leads_plain own⟩
  · rw [if_pos derived] at inside ⊢
    rw [if_neg derived', if_pos derived, if_neg derived']
    constructor
    · rintro ⟨place, plain, leads, leads'⟩
      obtain ⟨segment, rfl, alike⟩ := (leads_derived_iff inside.1 inside.2 plain).mp leads
      exact ⟨segment, leads', alike⟩
    · rintro ⟨segment, leads', alike⟩
      exact ⟨[segment], kept leads',
        (leads_derived_iff inside.1 inside.2 (kept leads')).mpr ⟨segment, rfl, alike⟩, leads'⟩
  · rw [if_pos derived'] at inside' ⊢
    rw [if_neg derived, if_neg derived, if_pos derived']
    constructor
    · rintro ⟨place, plain, leads, leads'⟩
      obtain ⟨segment, rfl, alike⟩ := (leads_derived_iff inside'.1 inside'.2 plain).mp leads'
      exact ⟨segment, leads, alike⟩
    · rintro ⟨segment, leads, alike⟩
      exact ⟨[segment], kept leads, leads,
        (leads_derived_iff inside'.1 inside'.2 (kept leads)).mpr ⟨segment, rfl, alike⟩⟩
  · rw [if_neg derived, if_neg derived', if_neg derived, if_neg derived']
    constructor
    · rintro ⟨place, -, leads, leads'⟩
      exact ⟨place, leads, leads'⟩
    · rintro ⟨place, leads, leads'⟩
      exact ⟨place, kept leads, leads, leads'⟩

/-! ### Environment names -/

section Environment

variable (printing : Printing)

/-- The text without characters at its ends that are no letters or digits, or a word if
nothing is left. -/
def envStem (raw : String) : List Char :=
  if trimBoth (fun char => !isEnvChar (printing.toUpper char)) raw = "" then "SECRET".toList
  else (trimBoth (fun char => !isEnvChar (printing.toUpper char)) raw).toList

/-- The texts have the same letters, upper or lower case, and the same digits; at other
places each has something else. -/
def EnvAlike (raw other : String) : Prop :=
  List.Forall₂ (fun char char' => printing.toUpper char = printing.toUpper char' ∨
    isEnvChar (printing.toUpper char) = false ∧ isEnvChar (printing.toUpper char') = false)
    (envStem printing raw) (envStem printing other)

def envFold (char : Char) : Char :=
  if isEnvChar (printing.toUpper char) then printing.toUpper char else '_'

variable {printing}

theorem isEnvChar_underscore : isEnvChar '_' = false := by decide

variable {char : Char}

theorem envFold_eq_underscore :
    (envFold printing char == '_') = !isEnvChar (printing.toUpper char) := by
  unfold envFold
  split
  · rename_i letter
    rw [letter, Bool.not_true, beq_eq_false_iff_ne]
    rintro same
    rw [same, isEnvChar_underscore] at letter
    cases letter
  · rename_i other
    simpa using other

theorem envFold_eq_iff {char' : Char} : envFold printing char = envFold printing char' ↔
    printing.toUpper char = printing.toUpper char' ∨
      isEnvChar (printing.toUpper char) = false ∧ isEnvChar (printing.toUpper char') = false := by
  unfold envFold
  cases letter : isEnvChar (printing.toUpper char) <;>
    cases letter' : isEnvChar (printing.toUpper char')
  · simp
  · refine iff_of_false (fun same => ?_) (fun alike => ?_)
    · have same : '_' = printing.toUpper char' := same
      rw [← same, isEnvChar_underscore] at letter'
      cases letter'
    · obtain same | ⟨-, none⟩ := alike
      · rw [same, letter'] at letter
        cases letter
      · cases none
  · refine iff_of_false (fun same => ?_) (fun alike => ?_)
    · have same : printing.toUpper char = '_' := same
      rw [same, isEnvChar_underscore] at letter
      cases letter
    · obtain same | ⟨none, -⟩ := alike
      · rw [same, letter'] at letter
        cases letter
      · cases none
  · simp

/-- Letters and digits that are upper case already, and underscores, stay. -/
theorem envFold_self (folded : isEnvChar char = true ∨ char = '_') :
    envFold printing char = char := by
  have upper : printing.toUpper char = char := by
    rcases folded with letter | rfl
    · unfold isEnvChar at letter
      simp only [Bool.or_eq_true, Bool.and_eq_true, decide_eq_true_eq] at letter
      have small : char.toNat < 128 := by
        rcases letter with ⟨-, upto⟩ | ⟨-, upto⟩
        · exact lt_of_le_of_lt (show char.toNat ≤ 'Z'.toNat from upto) (by decide)
        · exact lt_of_le_of_lt (show char.toNat ≤ '9'.toNat from upto) (by decide)
      rw [printing.toUpper_ascii char small, Char.toUpper, dif_neg]
      rintro ⟨least, -⟩
      have least : 'a'.toNat ≤ char.toNat := least
      rcases letter with ⟨-, upto⟩ | ⟨-, upto⟩
      · have upto : char.toNat ≤ 'Z'.toNat := upto
        exact absurd (least.trans upto) (by decide)
      · have upto : char.toNat ≤ '9'.toNat := upto
        exact absurd (least.trans upto) (by decide)
    · exact printing.toUpper_ascii '_' (by decide)
  unfold envFold
  rw [upper]
  rcases folded with letter | rfl
  · rw [if_pos letter]
  · rfl

theorem toList_sanitizeEnvName (raw : String) :
    (sanitizeEnvName printing raw).toList = (envStem printing raw).map (envFold printing) := by
  have trimmed : (trimBoth (· == '_') (String.ofList ((raw.toList.map printing.toUpper).map
      fun char => if isEnvChar char then char else '_'))).toList =
      (trimBoth (fun char => !isEnvChar (printing.toUpper char)) raw).toList.map
        (envFold printing) := by
    rw [List.map_map]
    refine (toList_trimBoth_map _ (envFold printing) raw.toList).trans ?_
    rw [String.ofList_toList, show (fun char => char == '_') ∘ envFold printing =
      fun char => !isEnvChar (printing.toUpper char) from funext fun _ => envFold_eq_underscore]
  have same : trimBoth (· == '_') (String.ofList ((raw.toList.map printing.toUpper).map
      fun char => if isEnvChar char then char else '_')) = "" ↔
      trimBoth (fun char => !isEnvChar (printing.toUpper char)) raw = "" := by
    rw [← String.toList_inj, ← String.toList_inj, trimmed]
    exact List.map_eq_nil_iff
  unfold sanitizeEnvName envStem
  dsimp only
  by_cases nothing : trimBoth (fun char => !isEnvChar (printing.toUpper char)) raw = ""
  · rw [if_pos (same.mpr nothing), if_pos nothing]
    refine (List.map_id _).symm.trans (List.map_congr_left fun char mem => ?_)
    have letters : "SECRET".toList.all isEnvChar = true := by decide
    exact (envFold_self (.inl (List.all_eq_true.mp letters char mem))).symm
  · rw [if_neg (fun empty => nothing (same.mp empty)), if_neg nothing, trimmed]

theorem sanitizeEnvName_eq_iff {raw other : String} :
    sanitizeEnvName printing raw = sanitizeEnvName printing other ↔
      EnvAlike printing raw other := by
  rw [← String.toList_inj, toList_sanitizeEnvName, toList_sanitizeEnvName, map_eq_map_iff]
  simp only [envFold_eq_iff]
  exact Iff.rfl

/-- Sanitizing leaves what it gives. -/
theorem sanitizeEnvName_idem (raw : String) :
    sanitizeEnvName printing (sanitizeEnvName printing raw) = sanitizeEnvName printing raw := by
  have folded : (sanitizeEnvName printing raw).toList.map (envFold printing) =
      (sanitizeEnvName printing raw).toList := by
    refine (List.map_congr_left fun char mem => ?_).trans (List.map_id _)
    rw [toList_sanitizeEnvName] at mem
    obtain ⟨source, -, rfl⟩ := List.mem_map.mp mem
    refine envFold_self ?_
    cases letter : isEnvChar (printing.toUpper source) with
    | true =>
      refine .inl ?_
      rw [envFold, if_pos letter]
      exact letter
    | false => exact .inr (if_neg (by simp [letter]))
  have trimmed : trimBoth (· == '_') (sanitizeEnvName printing raw) =
      sanitizeEnvName printing raw := by
    unfold sanitizeEnvName
    dsimp only
    split
    · decide
    · exact trimBoth_trimBoth _ _
  have filled : sanitizeEnvName printing raw ≠ "" := by
    unfold sanitizeEnvName
    dsimp only
    split
    · decide
    · assumption
  generalize sanitizeEnvName printing raw = name at folded trimmed filled
  have again : (name.toList.map printing.toUpper).map
      (fun char => if isEnvChar char then char else '_') = name.toList := by
    rw [List.map_map]
    exact folded
  rw [sanitizeEnvName, again, String.ofList_toList, trimmed]
  exact if_neg filled

variable (printing) in
/-- The name is given and taken as it is: the secret has one key. -/
def Verbatim (ref : SecretRef) (data : Fields) : Prop := ref.envName ≠ "" ∧ data.size = 1

/-- What the name of a key is made of otherwise. -/
def envRaw (ref : SecretRef) (key : String) : String :=
  (if ref.envName = "" then ref.path else ref.envName) ++ "_" ++ key

variable (printing) in
/-- Two keys of references, with their environment names given or left open, get one name. -/
def EnvClash (ref : SecretRef) (data : Fields) (key : String) (other : SecretRef)
    (data' : Fields) (key' : String) : Prop :=
  (Verbatim ref data ∧ Verbatim other data' ∧ ref.envName = other.envName) ∨
  (Verbatim ref data ∧ ¬ Verbatim other data' ∧
    sanitizeEnvName printing ref.envName = ref.envName ∧
    EnvAlike printing ref.envName (envRaw other key')) ∨
  (¬ Verbatim ref data ∧ Verbatim other data' ∧
    sanitizeEnvName printing other.envName = other.envName ∧
    EnvAlike printing (envRaw ref key) other.envName) ∨
  ¬ Verbatim ref data ∧ ¬ Verbatim other data' ∧
    EnvAlike printing (envRaw ref key) (envRaw other key')

variable {ref : SecretRef} {data : Fields}

theorem envName_verbatim (key : String) (given : Verbatim ref data) :
    envName printing ref data key = ref.envName := by
  rw [envName, if_neg given.1, if_pos given.2]

theorem envName_folded (key : String) (derived : ¬ Verbatim ref data) :
    envName printing ref data key = sanitizeEnvName printing (envRaw ref key) := by
  unfold envName envRaw
  split
  · rfl
  · rename_i named
    rw [if_neg fun single => derived ⟨named, single⟩]

theorem sameName_iff {other : SecretRef} {data' : Fields} {key key' : String} :
    envName printing ref data key = envName printing other data' key' ↔
      EnvClash printing ref data key other data' key' := by
  unfold EnvClash
  -- a name is one that sanitizing gives just if sanitizing leaves it
  have given : ∀ name raw : String, name = sanitizeEnvName printing raw ↔
      sanitizeEnvName printing name = name ∧
        sanitizeEnvName printing name = sanitizeEnvName printing raw := by
    intro name raw
    constructor
    · intro same
      have kept : sanitizeEnvName printing name = name := by rw [same, sanitizeEnvName_idem]
      exact ⟨kept, kept.trans same⟩
    · rintro ⟨kept, same⟩
      exact kept.symm.trans same
  by_cases mine : Verbatim ref data <;> by_cases yours : Verbatim other data'
  · simp [mine, yours, envName_verbatim]
  · rw [envName_verbatim key mine, envName_folded key' yours, given, sanitizeEnvName_eq_iff]
    simp [mine, yours]
  · rw [envName_folded key mine, envName_verbatim key' yours, eq_comm, given,
      eq_comm (a := sanitizeEnvName printing other.envName)
        (b := sanitizeEnvName printing (envRaw ref key)), sanitizeEnvName_eq_iff]
    simp [mine, yours]
  · rw [envName_folded key mine, envName_folded key' yours, sanitizeEnvName_eq_iff]
    simp [mine, yours]

end Environment

/-! ### Files of a mount -/

namespace Csi

/-- Two objects, with their file names given or left open, get one file. -/
def MountClash (object other : ObjectSpec) : Prop :=
  if object.fileName = "" then
    if other.fileName = "" then SlashAlike object.readPath other.readPath
    else SlashAlike object.readPath (trimSpace other.fileName)
  else if other.fileName = "" then SlashAlike (trimSpace object.fileName) other.readPath
  else trimSpace object.fileName = trimSpace other.fileName

theorem infix_of_trimPrefix {path start : String} {part : List Char}
    (inside : part <:+: (trimPrefix path start).toList) : part <:+: path.toList := by
  refine inside.trans ?_
  unfold trimPrefix
  split
  · rw [String.toList_ofList]
    exact (List.drop_suffix ..).isInfix
  · exact List.infix_rfl

/-- Without parent segments the second substitution finds nothing. -/
theorem sanitizeFileName_eq {path : String} (noParents : containsText path ".." = false) :
    sanitizeFileName path = Inject.sanitizeFileName path := by
  have absent : containsText (replaceAll [("/", "_")] (trimPrefix path "/")) ".." = false := by
    by_contra present
    rw [Bool.not_eq_false, containsText_iff, toList_replaceAll_char rfl rfl] at present
    obtain ⟨part, inside, same⟩ := List.infix_map_iff.mp present
    have point : ∀ char ∈ part, char = '.' := by
      intro char mem
      have dot : underscored char ∈ "..".toList := same ▸ List.mem_map_of_mem mem
      have dot : underscored char = '.' := by simpa using dot
      unfold underscored at dot
      split at dot
      · exact absurd dot (by decide)
      · exact dot
    have dots : part = "..".toList := by
      have counted : part.length = 2 := by simpa using congrArg List.length same.symm
      rw [List.eq_replicate_of_mem point, counted]
      rfl
    rw [dots] at inside
    rw [containsText_iff.mpr (infix_of_trimPrefix inside)] at noParents
    cases noParents
  unfold sanitizeFileName Inject.sanitizeFileName
  rw [replaceAll_of_absent absent]

theorem sanitizeMountFileName_ok {given name : String}
    (accepted : sanitizeMountFileName given = .ok name) :
    name = trimSpace given ∧ PlainSegment (trimSpace given).toList := by
  unfold sanitizeMountFileName at accepted
  generalize trimSpace given = trimmed at accepted ⊢
  dsimp only at accepted
  split at accepted
  · cases accepted
  split at accepted
  · cases accepted
  split at accepted
  · cases accepted
  rename_i filled basename notHere
  obtain ⟨noParent, noSlash, -⟩ : _ ∧ _ ∧ _ := by simpa [containsText_iff] using basename
  refine ⟨(Except.ok.inj accepted).symm, ?_, ?_, ?_, ?_⟩
  · exact fun empty => filled (String.toList_inj.mp empty)
  · exact fun mem => noSlash (List.singleton_infix_iff _ _ |>.mpr mem)
  · exact fun here => notHere (String.toList_inj.mp here)
  · exact fun parent => noParent (parent ▸ List.infix_rfl)

variable {object checked : ObjectSpec}

/-- What an accepted object is named. -/
theorem parseObject_ok (parsed : parseObject object = .ok checked) :
    containsText object.readPath ".." = false ∧
      (object.fileName = "" ∧ checked.fileName = Inject.sanitizeFileName object.readPath ∨
        object.fileName ≠ "" ∧ checked.fileName = trimSpace object.fileName ∧
          PlainSegment (trimSpace object.fileName).toList) := by
  unfold parseObject at parsed
  split at parsed
  · cases parsed
  split at parsed
  · cases parsed
  rename_i noParents
  rw [Bool.not_eq_true] at noParents
  obtain ⟨name, named, parsed⟩ := bind_eq_ok parsed
  rw [← Except.ok.inj parsed]
  refine ⟨noParents, ?_⟩
  dsimp only
  unfold ObjectSpec.mountName at named
  split at named
  · rename_i derived
    exact .inl ⟨derived, (Except.ok.inj named).symm.trans (sanitizeFileName_eq noParents)⟩
  · rename_i given
    exact .inr ⟨given, sanitizeMountFileName_ok named⟩

/-- An accepted object is one segment, except where its path is a dot. -/
theorem plain_iff (parsed : parseObject object = .ok checked) :
    PlainSegment checked.fileName.toList ↔
      (object.fileName = "" → trimPrefix object.readPath "/" ≠ ".") := by
  obtain ⟨noParents, ⟨derived, named⟩ | ⟨given, named, plain⟩⟩ := parseObject_ok parsed
  · rw [named]
    constructor
    · rintro plain - here
      refine plain.notHere ?_
      rw [Inject.sanitizeFileName, here]
      decide
    · intro notHere
      refine plain_sanitizeFileName (notHere derived) fun parent => ?_
      have inside : "..".toList <:+: object.readPath.toList :=
        @infix_of_trimPrefix object.readPath "/" _ (parent ▸ List.infix_rfl)
      rw [containsText_iff.mpr inside] at noParents
      cases noParents
  · rw [named]
    exact iff_of_true plain fun derived => absurd derived given

theorem sameFile_iff {other checked' : ObjectSpec} (parsed : parseObject object = .ok checked)
    (parsed' : parseObject other = .ok checked') :
    checked.fileName = checked'.fileName ↔ MountClash object other := by
  have selfNamed : ∀ {name : String}, PlainSegment name.toList →
      Inject.sanitizeFileName name = name := by
    intro name plain
    refine sanitizeFileName_self ?_ plain.noSlash
    rintro rfl
    exact plain.filled rfl
  unfold MountClash
  obtain ⟨-, ⟨derived, named⟩ | ⟨given, named, plain⟩⟩ := parseObject_ok parsed <;>
    obtain ⟨-, ⟨derived', named'⟩ | ⟨given', named', plain'⟩⟩ := parseObject_ok parsed'
  · rw [if_pos derived, if_pos derived', named, named', sanitizeFileName_eq_iff]
  · rw [if_pos derived, if_neg given', named, named', ← sanitizeFileName_eq_iff, selfNamed plain']
  · rw [if_neg given, if_pos derived', named, named', ← sanitizeFileName_eq_iff, selfNamed plain]
  · rw [if_neg given, if_neg given', named, named']

end Csi

/-! ### Both ways of injection -/

section Safety

variable {Secret : Type} (secretAt : String → Secret) (printing : Printing) (range : MapRange)

/-- Every file lies below its directory, and no name serves two secrets, or two keys of one;
`secretAt` says which secret a path names. -/
structure RenderSafe (reader : String → Except String Fields) (req : RenderRequest)
    (result : RenderResult) : Prop where
  inside : ∀ file ∈ result.files, hasPrefix file.path "/vault/secrets/" = true
  files : ∀ ref ∈ req.secrets, ∀ other ∈ req.secrets, ∀ data data',
    Reads reader ref data → Reads reader other data' →
    ∀ file ∈ (renderRef printing range req.format ref data).files,
    ∀ file' ∈ (renderRef printing range req.format other data').files,
      file.path = file'.path → secretAt ref.path = secretAt other.path
  env : req.format.wantsEnv = true → ∀ ref ∈ req.secrets, ∀ other ∈ req.secrets, ∀ data data',
    Reads reader ref data → Reads reader other data' → ∀ key ∈ data, ∀ key' ∈ data',
      envName printing ref data key = envName printing other data' key' →
        secretAt ref.path = secretAt other.path ∧ key = key'

/-- The names of the request lead below the directory, and references to different secrets,
or different keys, do not clash. -/
structure RenderApart (reader : String → Except String Fields) (req : RenderRequest) : Prop where
  inside : req.format.wantsFiles = true → ∀ ref ∈ req.secrets, LeadsInside ref
  files : req.format.wantsFiles = true → ∀ ref ∈ req.secrets, ∀ other ∈ req.secrets,
    FileClash ref other → secretAt ref.path = secretAt other.path
  env : req.format.wantsEnv = true → ∀ ref ∈ req.secrets, ∀ other ∈ req.secrets, ∀ data data',
    Reads reader ref data → Reads reader other data' → ∀ key ∈ data, ∀ key' ∈ data',
      EnvClash printing ref data key other data' key' →
        secretAt ref.path = secretAt other.path ∧ key = key'

/-- Every file is one segment, and no name serves two secrets. -/
structure MountSafe (objects : List Csi.ObjectSpec) (response : Csi.MountResponse) : Prop where
  segment : ∀ file ∈ response.files, PlainSegment file.path.toList
  files : ∀ (place place' : Nat) object other file file', objects[place]? = some object →
    objects[place']? = some other → response.files[place]? = some file →
    response.files[place']? = some file' → file.path = file'.path →
      secretAt object.readPath = secretAt other.readPath

structure MountApart (objects : List Csi.ObjectSpec) : Prop where
  segment : ∀ object ∈ objects, object.fileName = "" → trimPrefix object.readPath "/" ≠ "."
  files : ∀ object ∈ objects, ∀ other ∈ objects, Csi.MountClash object other →
    secretAt object.readPath = secretAt other.readPath

variable {secretAt printing range}

theorem mem_files {format : Format} {ref : SecretRef} {data : Fields} {file : FileEntry} :
    file ∈ (renderRef printing range format ref data).files ↔ format.wantsFiles = true ∧
      file = ⟨filePath ref, flattenSecret printing range data, "0400"⟩ := by
  unfold renderRef
  dsimp only
  split <;> simp [*]

theorem renderSafe_iff {reader : String → Except String Fields} {req : RenderRequest}
    {result : RenderResult} (rendered : render printing range reader req = .ok result) :
    RenderSafe secretAt printing range reader req result ↔
      RenderApart secretAt printing reader req := by
  obtain ⟨readable, listed, -⟩ := render_ok rendered
  have inside : (∀ file ∈ result.files, hasPrefix file.path "/vault/secrets/" = true) ↔
      (req.format.wantsFiles = true → ∀ ref ∈ req.secrets, LeadsInside ref) := by
    constructor
    · intro safe wanted ref mem
      obtain ⟨data, read⟩ := readable ref mem
      have given := (listed ⟨filePath ref, flattenSecret printing range data, "0400"⟩).mpr
        ⟨ref, mem, data, read, mem_files.mpr ⟨wanted, rfl⟩⟩
      have below := safe _ given
      dsimp only at below
      exact (inside_iff ref).mp below
    · intro apart file mem
      obtain ⟨ref, asked, data, read, given⟩ := (listed file).mp mem
      obtain ⟨wanted, rfl⟩ := mem_files.mp given
      dsimp only
      exact (inside_iff ref).mpr (apart wanted ref asked)
  constructor
  · intro safe
    refine ⟨inside.mp safe.inside, fun wanted ref mem other mem' clash => ?_,
      fun wanted ref mem other mem' data data' read read' key found key' found' clash => ?_⟩
    · obtain ⟨data, read⟩ := readable ref mem
      obtain ⟨data', read'⟩ := readable other mem'
      refine safe.files ref mem other mem' data data' read read' _ (mem_files.mpr ⟨wanted, rfl⟩) _
        (mem_files.mpr ⟨wanted, rfl⟩) ?_
      dsimp only
      have leads := inside.mp safe.inside wanted
      exact (samePath_iff (leads ref mem) (leads other mem')).mpr clash
    · exact safe.env wanted ref mem other mem' data data' read read' key found key' found'
        (sameName_iff.mpr clash)
  · intro apart
    refine ⟨inside.mpr apart.inside, fun ref mem other mem' data data' read read' file given file'
      given' same => ?_,
      fun wanted ref mem other mem' data data' read read' key found key' found' same => ?_⟩
    · obtain ⟨wanted, rfl⟩ := mem_files.mp given
      obtain ⟨-, rfl⟩ := mem_files.mp given'
      dsimp only at same
      refine apart.files wanted ref mem other mem' ?_
      exact (samePath_iff (apart.inside wanted ref mem) (apart.inside wanted other mem')).mp same
    · exact apart.env wanted ref mem other mem' data data' read read' key found key' found'
        (sameName_iff.mp same)

/-- The file of an object has the name that the object was given when it was parsed. -/
def Serves (object : Csi.ObjectSpec) (file : Csi.File) : Prop :=
  ∃ checked, Csi.parseObject object = .ok checked ∧ file.path = checked.fileName

theorem serves_each {objects checked : List Csi.ObjectSpec} {files : List Csi.File}
    (each : objects.mapM Csi.parseObject = .ok checked)
    (named : files.map Csi.File.path = checked.map Csi.ObjectSpec.fileName) :
    List.Forall₂ Serves objects files := by
  induction objects generalizing checked files with
  | nil =>
    cases each
    obtain rfl : files = [] := List.map_eq_nil_iff.mp named
    exact .nil
  | cons object rest ih =>
    rw [List.mapM_cons] at each
    obtain ⟨first, parsed, each⟩ := bind_eq_ok each
    obtain ⟨others, later, each⟩ := bind_eq_ok each
    cases each
    obtain ⟨file, files, rfl, name, names⟩ := List.map_eq_cons_iff.mp named
    exact .cons ⟨first, parsed, name⟩ (ih later names)

theorem mountSafe_iff {objects : List Csi.ObjectSpec} {response : Csi.MountResponse}
    (served : List.Forall₂ Serves objects response.files) :
    MountSafe secretAt objects response ↔ MountApart secretAt objects := by
  have placed : ∀ (place : Nat) object file, objects[place]? = some object →
      response.files[place]? = some file → Serves object file := by
    intro place object file found found'
    obtain ⟨short, rfl⟩ := List.getElem?_eq_some_iff.mp found
    obtain ⟨short', rfl⟩ := List.getElem?_eq_some_iff.mp found'
    exact served.get short short'
  have sized := served.length_eq
  have fileAt : ∀ object ∈ objects, ∃ (place : Nat) (file : Csi.File),
      objects[place]? = some object ∧ response.files[place]? = some file := by
    intro object mem
    obtain ⟨place, short, rfl⟩ := List.getElem_of_mem mem
    exact ⟨place, response.files[place], List.getElem?_eq_getElem short,
      List.getElem?_eq_getElem (sized ▸ short)⟩
  constructor
  · intro safe
    refine ⟨fun object mem => ?_, fun object mem other mem' clash => ?_⟩
    · obtain ⟨place, file, found, found'⟩ := fileAt object mem
      obtain ⟨checked, parsed, name⟩ := placed place object file found found'
      have plain := safe.segment file (List.mem_of_getElem? found')
      rw [name] at plain
      exact (Csi.plain_iff parsed).mp plain
    · obtain ⟨place, file, found, found'⟩ := fileAt object mem
      obtain ⟨place', file', within, within'⟩ := fileAt other mem'
      obtain ⟨checked, parsed, name⟩ := placed place object file found found'
      obtain ⟨checked', parsed', name'⟩ := placed place' other file' within within'
      refine safe.files place place' object other file file' found within found' within' ?_
      rw [name, name']
      exact (Csi.sameFile_iff parsed parsed').mpr clash
  · intro apart
    refine ⟨fun file mem => ?_, ?_⟩
    · obtain ⟨place, short, rfl⟩ := List.getElem_of_mem mem
      have short' : place < objects.length := sized ▸ short
      obtain ⟨checked, parsed, name⟩ : Serves objects[place] response.files[place] :=
        served.get short' short
      rw [name]
      exact (Csi.plain_iff parsed).mpr (apart.segment _ (List.getElem_mem short'))
    · intro place place' object other file file' found within found' within' same
      obtain ⟨checked, parsed, name⟩ := placed place object file found found'
      obtain ⟨checked', parsed', name'⟩ := placed place' other file' within within'
      rw [name, name'] at same
      exact apart.files object (List.mem_of_getElem? found) other (List.mem_of_getElem? within)
        ((Csi.sameFile_iff parsed parsed').mp same)

/-- For every request that is accepted, by the renderer or by the mount, no secret escapes
its directory and no two collide, exactly if the texts of the request are apart. -/
theorem injection_safe_iff :
    (∀ reader req result, render printing range reader req = .ok result →
      (RenderSafe secretAt printing range reader req result ↔
        RenderApart secretAt printing reader req)) ∧
    ∀ decoders client rotations later req response attrs objects,
      Csi.mount decoders printing range client rotations req = (.ok response, later) →
      Csi.unmarshalJSONMap decoders req.attributes = .ok attrs →
      decoders.unmarshalObjects (trimSpace (attrs.getD "objects" "")) = .ok objects →
      (MountSafe secretAt objects response ↔ MountApart secretAt objects) := by
  refine ⟨fun reader req result => renderSafe_iff, ?_⟩
  intro decoders client rotations later req response attrs objects mounted decoded listed
  obtain ⟨attrs', objects', checked, decoded', listed', each, named⟩ := Csi.mount_ok mounted
  cases decoded.symm.trans decoded'
  cases listed.symm.trans listed'
  exact mountSafe_iff (serves_each each named)

/-- The mount of the given objects, whatever the request. -/
def mountedDecoders (objects : List Csi.ObjectSpec) : Csi.Decoders where
  unmarshalMap _ := .ok (Std.ExtTreeMap.ofList
    [("role", "app"), ("objects", "-"), (Csi.attrSAToken, "jwt")])
  unmarshalObjects _ := .ok objects

def mountedClient : Csi.VaultClient where
  loginKubernetes _ _ _ := .ok "token"
  readKV _ _ path := .ok (Std.ExtTreeMap.ofList [("value", Value.string path)], 1)

/-- Every path is read as a user and a password. -/
def credentialsAt (path : String) : Except String Fields :=
  .ok (Std.ExtTreeMap.ofList [("user", Value.string path), ("password", Value.string "x")])

def databaseRefs : List SecretRef := [⟨"/db/main", "", ""⟩, ⟨"/db/replica", "", ""⟩]

def databaseResult : RenderResult where
  files := [⟨"/vault/secrets/db_main", "password=x\nuser=/db/main", "0400"⟩,
    ⟨"/vault/secrets/db_replica", "password=x\nuser=/db/replica", "0400"⟩]
  env := [⟨"DB_MAIN_PASSWORD", "x"⟩, ⟨"DB_MAIN_USER", "/db/main"⟩,
    ⟨"DB_REPLICA_PASSWORD", "x"⟩, ⟨"DB_REPLICA_USER", "/db/replica"⟩]

def databaseObjects : List Csi.ObjectSpec := [⟨"db/main", "", ""⟩, ⟨"db/replica", "", ""⟩]

def databaseResponse : Csi.MountResponse where
  objectVersion := [⟨"db_main", "1"⟩, ⟨"db_replica", "1"⟩]
  files := [⟨"db_main", 0o400, "db/main"⟩, ⟨"db_replica", 0o400, "db/replica"⟩]

/-- Two secrets with two keys each are rendered and mounted safely. -/
theorem rendered_apart :
    (render .sample .sorted credentialsAt ⟨databaseRefs, .unset⟩ = .ok databaseResult ∧
      RenderSafe id .sample .sorted credentialsAt ⟨databaseRefs, .unset⟩ databaseResult) ∧
    Csi.mount (mountedDecoders databaseObjects) .sample .sorted mountedClient 0 ⟨"-", "", []⟩ =
        (.ok databaseResponse, 0) ∧
      MountSafe id databaseObjects databaseResponse := by
  have rendered : render .sample .sorted credentialsAt ⟨databaseRefs, .unset⟩ =
      .ok databaseResult := by decide +kernel
  have mounted : Csi.mount (mountedDecoders databaseObjects) .sample .sorted mountedClient 0
      ⟨"-", "", []⟩ = (.ok databaseResponse, 0) := by decide +kernel
  have derived : ∀ ref ∈ databaseRefs, ref.fileName = "" ∧ trimPrefix ref.path "/" ≠ "." ∧
      trimPrefix ref.path "/" ≠ ".." := by decide
  refine ⟨⟨rendered, (injection_safe_iff.1 _ _ _ rendered).mpr ⟨fun _ ref mem => ?_,
      fun _ ref mem other mem' clash => ?_, fun _ ref mem other mem' data data' read read' key
        found key' found' clash => ?_⟩⟩,
    mounted, (injection_safe_iff.2 _ _ _ _ _ _ _ _ mounted rfl rfl).mpr ⟨by decide,
      fun object mem other mem' clash => ?_⟩⟩
  · rw [LeadsInside, if_pos (derived ref mem).1]
    exact (derived ref mem).2
  · have apart : ∀ ref ∈ databaseRefs, ∀ other ∈ databaseRefs,
        sanitizeFileName ref.path = sanitizeFileName other.path → ref.path = other.path := by
      decide +kernel
    rw [FileClash, if_pos (derived ref mem).1, if_pos (derived other mem').1] at clash
    exact apart ref mem other mem' (sanitizeFileName_eq_iff.mpr clash)
  · have keys : ∀ {path : String} {data : Fields}, credentialsAt path = .ok data →
        ∀ key ∈ data, key ∈ ["user", "password"] := by
      intro path data read key held
      cases read
      simpa using held
    have apart : ∀ ref ∈ databaseRefs, ∀ other ∈ databaseRefs, ∀ key ∈ ["user", "password"],
        ∀ key' ∈ ["user", "password"],
        sanitizeEnvName .sample (ref.path ++ "_" ++ key) =
            sanitizeEnvName .sample (other.path ++ "_" ++ key') →
          ref.path = other.path ∧ key = key' := by
      decide +kernel
    refine apart ref mem other mem' key (keys read.2 key found) key'
      (keys read'.2 key' found') ?_
    have opened : ∀ ref ∈ databaseRefs, ref.envName = "" := by decide
    have same := sameName_iff.mpr clash
    rwa [envName, envName, if_pos (opened ref mem), if_pos (opened other mem')] at same
  · have named : ∀ object ∈ databaseObjects, object.fileName = "" := by decide
    have apart : ∀ object ∈ databaseObjects, ∀ other ∈ databaseObjects,
        sanitizeFileName object.readPath = sanitizeFileName other.readPath →
          object.readPath = other.readPath := by
      decide +kernel
    rw [Csi.MountClash, if_pos (named object mem), if_pos (named other mem')] at clash
    exact congrArg id (apart object mem other mem' (sanitizeFileName_eq_iff.mpr clash))

/-- Every path is read as a secret with one value. -/
def oneValue (_ : String) : Except String Fields :=
  .ok (Std.ExtTreeMap.ofList [("value", Value.string "x")])

/-- Two secrets get one file, rendered and mounted, and a given name leaves the directory. -/
theorem injection_collides :
    (render .sample .sorted oneValue ⟨[⟨"a/b", "", ""⟩, ⟨"a_b", "", ""⟩], .files⟩ =
        .ok ⟨[⟨"/vault/secrets/a_b", "x", "0400"⟩, ⟨"/vault/secrets/a_b", "x", "0400"⟩], []⟩ ∧
      ¬ RenderSafe id .sample .sorted oneValue ⟨[⟨"a/b", "", ""⟩, ⟨"a_b", "", ""⟩], .files⟩
        ⟨[⟨"/vault/secrets/a_b", "x", "0400"⟩, ⟨"/vault/secrets/a_b", "x", "0400"⟩], []⟩) ∧
    (render .sample .sorted oneValue ⟨[⟨"a", "../../etc/passwd", ""⟩], .files⟩ =
        .ok ⟨[⟨"/etc/passwd", "x", "0400"⟩], []⟩ ∧
      ¬ RenderSafe id .sample .sorted oneValue ⟨[⟨"a", "../../etc/passwd", ""⟩], .files⟩
        ⟨[⟨"/etc/passwd", "x", "0400"⟩], []⟩) ∧
    (Csi.mount (mountedDecoders [⟨"a/b", "", ""⟩, ⟨"a_b", "", ""⟩]) .sample .sorted mountedClient 0
        ⟨"-", "", []⟩ =
        (.ok ⟨[⟨"a_b", "1"⟩, ⟨"a_b", "1"⟩], [⟨"a_b", 0o400, "a/b"⟩, ⟨"a_b", 0o400, "a_b"⟩]⟩, 0) ∧
      ¬ MountSafe id [⟨"a/b", "", ""⟩, ⟨"a_b", "", ""⟩]
        ⟨[⟨"a_b", "1"⟩, ⟨"a_b", "1"⟩], [⟨"a_b", 0o400, "a/b"⟩, ⟨"a_b", 0o400, "a_b"⟩]⟩) := by
  refine ⟨⟨by decide +kernel, fun safe => ?_⟩, ⟨by decide +kernel, fun safe => ?_⟩,
    ⟨by decide +kernel, fun safe => ?_⟩⟩
  · have same : ("a/b" : String) = "a_b" := safe.files ⟨"a/b", "", ""⟩ (by simp) ⟨"a_b", "", ""⟩
      (by simp) _ _ ⟨by decide, rfl⟩ ⟨by decide, rfl⟩ _ (mem_files.mpr ⟨rfl, rfl⟩) _
      (mem_files.mpr ⟨rfl, rfl⟩) (by decide +kernel)
    exact absurd same (by decide)
  · exact absurd (safe.inside _ (List.mem_singleton.mpr rfl)) (by decide)
  · have same : Csi.ObjectSpec.readPath ⟨"a/b", "", ""⟩ = Csi.ObjectSpec.readPath ⟨"a_b", "", ""⟩ :=
      safe.files 0 1 _ _ _ _ rfl rfl rfl rfl rfl
    exact absurd same (by decide)

end Safety

end KnxVault.Inject
