import KnxVault.Domain.Common
import KnxVault.Std.PathWalk

/-!
# Rendering secrets for pods

`internal/inject/renderer.go`: every reference to a secret gives a file below
`/vault/secrets`, environment variables, or both. Names that the request leaves open are
derived from the path of the secret by substitutions of characters.
-/

namespace KnxVault.Inject

open KnxVault.Std KnxVault.Domain

/-- What the renderer takes from the standard library: how a value prints, and the upper
case of a character, which is known for ASCII. -/
structure Printing where
  sprint : Value → String
  toUpper : Char → Char
  toUpper_ascii : ∀ char, char.toNat < 128 → toUpper char = char.toUpper

/-- A printing to run the model with. -/
def Printing.sample : Printing where
  sprint
    | .string text | .number text => text
    | _ => "?"
  toUpper := Char.toUpper
  toUpper_ascii _ _ := rfl

inductive Format where
  | unset
  | files
  | env
  | both
  | unknown (text : String)

structure SecretRef where
  path : String
  fileName : String := ""
  envName : String := ""

structure RenderRequest where
  secrets : List SecretRef
  format : Format := .unset

structure FileEntry where
  path : String
  content : String
  mode : String
deriving DecidableEq

structure EnvEntry where
  name : String
  value : String
deriving DecidableEq

structure RenderResult where
  files : List FileEntry := []
  env : List EnvEntry := []
deriving DecidableEq

/-! ### Names -/

def sanitizeFileName (path : String) : String :=
  let name := replaceAll [("/", "_")] (trimPrefix path "/")
  if name = "" then "secret" else name

def isEnvChar (char : Char) : Bool :=
  ('A' ≤ char && char ≤ 'Z') || ('0' ≤ char && char ≤ '9')

def sanitizeEnvName (printing : Printing) (raw : String) : String :=
  let upper := raw.toList.map printing.toUpper
  let out := trimBoth (· == '_')
    (String.ofList (upper.map fun char => if isEnvChar char then char else '_'))
  if out = "" then "SECRET" else out

/-- The content of a file: the one value, or a line for every key. -/
def flattenSecret (printing : Printing) (range : MapRange) (data : Fields) : String :=
  match range.order data.toList with
  | [] => ""
  | [(_, value)] => printing.sprint value
  | entries => "\n".intercalate (entries.map fun entry =>
      entry.1 ++ "=" ++ printing.sprint entry.2)

/-! ### Rendering -/

variable (printing : Printing) (range : MapRange)

def Format.wantsFiles : Format → Bool
  | .unset | .files | .both => true
  | .env | .unknown _ => false

def Format.wantsEnv : Format → Bool
  | .unset | .env | .both => true
  | .files | .unknown _ => false

def fileName (ref : SecretRef) : String :=
  if ref.fileName = "" then sanitizeFileName ref.path else ref.fileName

def envName (ref : SecretRef) (data : Fields) (key : String) : String :=
  if ref.envName = "" then sanitizeEnvName printing (ref.path ++ "_" ++ key)
  else if data.size = 1 then ref.envName
  else sanitizeEnvName printing (ref.envName ++ "_" ++ key)

def filePath (ref : SecretRef) : String := joinRooted "/vault/secrets" (fileName ref)

/-- What one reference adds to the result. -/
def renderRef (format : Format) (ref : SecretRef) (data : Fields) : RenderResult where
  files := if format.wantsFiles then
      [⟨filePath ref, flattenSecret printing range data, "0400"⟩]
    else []
  env := if format.wantsEnv then
      (range.order data.toList).map fun entry =>
        ⟨envName printing ref data entry.1, printing.sprint entry.2⟩
    else []

def renderEach (reader : String → Except String Fields) (format : Format) :
    RenderResult → List SecretRef → Except String RenderResult
  | result, [] => .ok result
  | result, ref :: rest =>
    if ref.path = "" then .error "secret path is required"
    else match reader ref.path with
      | .error err => .error err
      | .ok data =>
        let added := renderRef printing range format ref data
        renderEach reader format ⟨result.files ++ added.files, result.env ++ added.env⟩ rest

def render (reader : String → Except String Fields) (req : RenderRequest) :
    Except String RenderResult :=
  if req.secrets = [] then .error "at least one secret reference is required"
  else renderEach printing range reader req.format {} req.secrets

/-! ### What a result consists of -/

variable {printing range}

/-- A reader that answers for the reference, with its data. -/
def Reads (reader : String → Except String Fields) (ref : SecretRef) (data : Fields) : Prop :=
  ref.path ≠ "" ∧ reader ref.path = .ok data

/-- A loop that ends has read every reference and appended what it gives. -/
theorem renderEach_ok {reader : String → Except String Fields} {format : Format}
    {refs : List SecretRef} {before result : RenderResult}
    (rendered : renderEach printing range reader format before refs = .ok result) :
    ∃ parts : List (SecretRef × Fields), parts.map Prod.fst = refs ∧
      (∀ part ∈ parts, Reads reader part.1 part.2) ∧
      result.files = before.files ++
        parts.flatMap (fun part => (renderRef printing range format part.1 part.2).files) ∧
      result.env = before.env ++
        parts.flatMap fun part => (renderRef printing range format part.1 part.2).env := by
  induction refs generalizing before with
  | nil =>
    cases rendered
    exact ⟨[], rfl, by simp, by simp, by simp⟩
  | cons ref rest ih =>
    unfold renderEach at rendered
    split at rendered
    · cases rendered
    · rename_i named
      cases read : reader ref.path with
      | error err =>
        rw [read] at rendered
        cases rendered
      | ok data =>
        rw [read] at rendered
        obtain ⟨parts, same, reads, files, env⟩ := ih rendered
        refine ⟨(ref, data) :: parts, by rw [List.map_cons, same], ?_, ?_, ?_⟩
        · exact List.forall_mem_cons.mpr ⟨⟨named, read⟩, reads⟩
        · rw [files, List.flatMap_cons, List.append_assoc]
        · rw [env, List.flatMap_cons, List.append_assoc]

/-- A result has the entries of its references and no others. -/
theorem render_ok {reader : String → Except String Fields} {req : RenderRequest}
    {result : RenderResult} (rendered : render printing range reader req = .ok result) :
    (∀ ref ∈ req.secrets, ∃ data, Reads reader ref data) ∧
    (∀ file, file ∈ result.files ↔ ∃ ref ∈ req.secrets, ∃ data, Reads reader ref data ∧
      file ∈ (renderRef printing range req.format ref data).files) ∧
    ∀ entry, entry ∈ result.env ↔ ∃ ref ∈ req.secrets, ∃ data, Reads reader ref data ∧
      entry ∈ (renderRef printing range req.format ref data).env := by
  unfold render at rendered
  split at rendered
  · cases rendered
  obtain ⟨parts, same, reads, files, env⟩ := renderEach_ok rendered
  have listed : ∀ {ref}, ref ∈ req.secrets ↔ ∃ data, (ref, data) ∈ parts := by
    intro ref
    simp [← same]
  -- the reader is a function, so the data of a reference is the data it was rendered with
  have member : ∀ {ref data}, ref ∈ req.secrets → Reads reader ref data → (ref, data) ∈ parts := by
    intro ref data mem read
    obtain ⟨other, inside⟩ := listed.mp mem
    have agree := (reads _ inside).2.symm.trans read.2
    cases agree
    exact inside
  refine ⟨fun ref mem => ?_, fun file => ?_, fun entry => ?_⟩
  · obtain ⟨data, inside⟩ := listed.mp mem
    exact ⟨data, reads _ inside⟩
  · rw [files, List.nil_append, List.mem_flatMap]
    constructor
    · rintro ⟨⟨ref, data⟩, inside, given⟩
      exact ⟨ref, listed.mpr ⟨data, inside⟩, data, reads _ inside, given⟩
    · rintro ⟨ref, mem, data, read, given⟩
      exact ⟨(ref, data), member mem read, given⟩
  · rw [env, List.nil_append, List.mem_flatMap]
    constructor
    · rintro ⟨⟨ref, data⟩, inside, given⟩
      exact ⟨ref, listed.mpr ⟨data, inside⟩, data, reads _ inside, given⟩
    · rintro ⟨ref, mem, data, read, given⟩
      exact ⟨(ref, data), member mem read, given⟩

end KnxVault.Inject
