import KnxVault.Domain.Common
import KnxVault.Std.Decimal
import KnxVault.Std.Join

/-!
# Signed requests

The middleware that checks the signature of a request. The signature is made of the method, the
path, the timestamp and the body, joined by a separator that paths and bodies may contain.
-/

namespace KnxVault.Api

open KnxVault.Std KnxVault.Domain

/-! ### Texts as bytes -/

def ascii (text : String) : Bytes := text.toList.map fun char => BitVec.ofNat 8 char.toNat

/-- `strconv.ParseInt` in base 10 with 64 bits, which reads byte by byte. -/
def parseInt (raw : Bytes) : Option Int :=
  (atoi (String.ofList (raw.map fun byte => Char.ofNat byte.toNat))).toOption

def unix (seconds : Int) : Time := { instant := seconds * nanosecondsPerSecond }

def hexDigits (byte : Byte) : Bytes :=
  (hexByte byte.toNat).map fun char => BitVec.ofNat 8 char.toNat

/-- `hex.EncodeToString`. -/
def encodeToString (digest : Bytes) : Bytes := digest.flatMap hexDigits

/-! ### The middleware -/

def maxSkew : Int := 5 * 60 * nanosecondsPerSecond

structure RequestSigning where
  /-- HMAC-SHA-256 of a key and a message. -/
  hmac : Bytes → Bytes → Bytes
  /-- Empty if signing is not configured. -/
  key : Bytes
  required : Bool

def RequestSigning.new (hmac : Bytes → Bytes → Bytes) (key : Bytes) (required : Bool) :
    RequestSigning :=
  if key = [] then { hmac, key := [], required := false } else { hmac, key, required }

/-- The byte that separates the parts of what is signed. -/
def separator : Byte := 0x7c

def slash : Byte := 0x2f

/-- A request as it reaches a route: methods are tokens, in which no slash can stand, and every
route is rooted. An absent header is empty. -/
structure SignedRequest where
  method : Bytes
  path : Bytes
  timestamp : Bytes
  signature : Bytes
  /-- What is read of the body, if it can be read. -/
  body : Option Bytes
  token : slash ∉ method
  rooted : path.head? = some slash

namespace RequestSigning

variable (signing : RequestSigning)

def signedText (method path timestamp body : Bytes) : Bytes :=
  method ++ separator :: (path ++ separator :: (timestamp ++ separator :: body))

def computeRequestSignature (method path timestamp body : Bytes) : Bytes :=
  encodeToString (signing.hmac signing.key (signedText method path timestamp body))

/-- A timestamp that is accepted at a time. -/
def fresh (now : Time) (timestamp : Bytes) : Bool :=
  match parseInt timestamp with
  | none => false
  | some ts => !((unix ts).before (now.add (-maxSkew)) || (unix ts).after (now.add maxSkew))

def middleware (now : Time) (request : SignedRequest) : Except String Unit :=
  if signing.key = [] then .ok ()
  else if request.signature = [] ∨ request.timestamp = [] then
    if signing.required then .error "signed request required" else .ok ()
  else
    match parseInt request.timestamp with
    | none => .error "invalid request timestamp"
    | some ts =>
      let reqTime := unix ts
      if reqTime.before (now.add (-maxSkew)) || reqTime.after (now.add maxSkew) then
        .error "request timestamp out of range"
      else
        match request.body with
        | none => .error "read request body"
        | some body =>
          let expected := signing.computeRequestSignature request.method request.path
            request.timestamp body
          if request.signature ≠ expected then .error "invalid request signature" else .ok ()

/-- The request carries both headers and is let through. -/
def Passes (now : Time) (request : SignedRequest) : Prop :=
  request.signature ≠ [] ∧ request.timestamp ≠ [] ∧ signing.middleware now request = .ok ()

theorem passes_iff {signing : RequestSigning} (configured : signing.key ≠ []) {now : Time}
    {request : SignedRequest} :
    signing.Passes now request ↔ request.signature ≠ [] ∧ fresh now request.timestamp = true ∧
      ∃ body, request.body = some body ∧ request.signature =
        signing.computeRequestSignature request.method request.path request.timestamp body := by
  unfold Passes middleware fresh
  rw [if_neg configured]
  by_cases signed : request.signature = []
  · simp [signed]
  by_cases stamped : request.timestamp = []
  · simp [stamped, show parseInt [] = none from rfl]
  rw [if_neg (by simp [signed, stamped])]
  cases parseInt request.timestamp with
  | none => simp
  | some ts =>
    cases skewed : (unix ts).before (now.add (-maxSkew)) || (unix ts).after (now.add maxSkew) with
    | true => simp [skewed]
    | false => cases request.body <;> simp [signed, stamped, skewed]

end RequestSigning

/-! ### Injective texts -/

/-- The number of a digit of the hexadecimal text. -/
def hexValue (digit : Byte) : Nat :=
  if digit.toNat < 0x61 then digit.toNat - 0x30 else digit.toNat - 0x57

theorem hexValue_hexDigits (byte : Byte) :
    (hexDigits byte).foldl (fun value digit => value * 16 + hexValue digit) 0 = byte.toNat := by
  decide +revert

theorem hexDigits_inj {byte other : Byte} (same : hexDigits byte = hexDigits other) :
    byte = other := by
  rw [← BitVec.toNat_inj, ← hexValue_hexDigits byte, same, hexValue_hexDigits]

theorem encodeToString_inj {digest other : Bytes}
    (same : encodeToString digest = encodeToString other) : digest = other := by
  induction digest generalizing other with
  | nil =>
    cases other with
    | nil => rfl
    | cons byte rest => simp [encodeToString, hexDigits, hexByte] at same
  | cons byte digest ih =>
    cases other with
    | nil => simp [encodeToString, hexDigits, hexByte] at same
    | cons byte' rest =>
      rw [encodeToString, List.flatMap_cons, encodeToString, List.flatMap_cons] at same
      obtain ⟨first, others⟩ := List.append_inj same rfl
      rw [hexDigits_inj first, ih others]

/-- A timestamp has no separator in it. -/
theorem separator_not_mem_of_parseInt {raw : Bytes} {ts : Int} (parsed : parseInt raw = some ts) :
    separator ∉ raw := by
  intro held
  refine @not_mem_of_atoi '|' (by decide) (by decide) (by decide) _ _
    (mem_toOption_iff.mp parsed) ?_
  rw [String.toList_ofList]
  exact List.mem_map_of_mem held

/-! ### What else a signature can be read as -/

/-- The piece stands between two separators of the text. -/
def Between (piece text : Bytes) : Prop :=
  ∃ before after, text = before ++ separator :: (piece ++ separator :: after)

/-- Another part of the path or the body can be taken for a timestamp at this time. -/
def Ambiguous (now : Time) (path body : Bytes) : Prop :=
  ∃ piece, RequestSigning.fresh now piece = true ∧
    (Between piece (path ++ [separator]) ∨ Between piece (separator :: body))

/-- Of two readings of a text the one with the shorter path has its timestamp in the longer path,
and the one with the longer path has it in the body of the other. -/
theorem readings {path path' timestamp timestamp' body body' : Bytes}
    (plain : separator ∉ timestamp) (plain' : separator ∉ timestamp')
    (same : path ++ separator :: (timestamp ++ separator :: body) =
      path' ++ separator :: (timestamp' ++ separator :: body')) :
    (path' = path ∧ timestamp' = timestamp ∧ body' = body) ∨
      Between timestamp' (path ++ [separator]) ∨ Between timestamp' (separator :: body) := by
  obtain ⟨rfl, tails⟩ | ⟨more, rfl, tails⟩ | ⟨more, rfl, tails⟩ := append_cons_cases same
  · obtain ⟨rfl, rfl⟩ := append_cons_inj_of_plain plain plain' tails
    exact .inl ⟨rfl, rfl, rfl⟩
  · obtain ⟨rfl, rfl⟩ | ⟨more, rfl, rfl⟩ := append_cons_cases_of_plain plain tails
    · exact .inr (.inr ⟨[], body', rfl⟩)
    · exact .inr (.inr ⟨separator :: more, body', rfl⟩)
  · obtain ⟨rfl, rfl⟩ | ⟨more, rfl, rfl⟩ := append_cons_cases_of_plain plain' tails
    · exact .inr (.inl ⟨path', [], by simp⟩)
    · exact .inr (.inl ⟨path', more ++ [separator], by simp⟩)

/-- A signed text gives the method away: it ends before the first slash. -/
theorem method_of_signedText {request other : SignedRequest}
    {timestamp timestamp' body body' : Bytes}
    (same : RequestSigning.signedText request.method request.path timestamp body =
      RequestSigning.signedText other.method other.path timestamp' body') :
    other.method = request.method ∧
      request.path ++ separator :: (timestamp ++ separator :: body) =
        other.path ++ separator :: (timestamp' ++ separator :: body') := by
  have apart : slash ≠ separator := by decide
  have plain : slash ∉ request.method ++ [separator] := by simpa [apart] using request.token
  have plain' : slash ∉ other.method ++ [separator] := by simpa [apart] using other.token
  obtain ⟨tail, rooted⟩ := List.head?_eq_some_iff.mp request.rooted
  obtain ⟨tail', rooted'⟩ := List.head?_eq_some_iff.mp other.rooted
  have split : (request.method ++ [separator]) ++
        slash :: (tail ++ separator :: (timestamp ++ separator :: body)) =
      (other.method ++ [separator]) ++
        slash :: (tail' ++ separator :: (timestamp' ++ separator :: body')) := by
    simpa [RequestSigning.signedText, rooted, rooted'] using same
  obtain ⟨front, rest⟩ := append_cons_inj_of_plain plain plain' split
  rw [rooted, rooted', List.cons_append, List.cons_append, rest]
  exact ⟨List.append_cancel_right front.symm, rfl⟩

namespace RequestSigning

variable {signing : RequestSigning}

/-- The request with another path, timestamp and body. -/
def reread (request : SignedRequest) (path timestamp body : Bytes)
    (rooted : path.head? = some slash) : SignedRequest :=
  { request with path, timestamp, body := some body, rooted }

/-- A signature binds the parts that are signed. -/
def Bound (signing : RequestSigning) (later : Time) (request : SignedRequest) : Prop :=
  ∀ other, signing.Passes later other → other.signature = request.signature →
    other.method = request.method ∧ other.path = request.path ∧
      other.timestamp = request.timestamp ∧ other.body = request.body

theorem not_bound_of_unconfigured (unconfigured : signing.key = []) (later : Time)
    {request : SignedRequest} (signed : request.signature ≠ [])
    (stamped : request.timestamp ≠ []) : ¬ signing.Bound later request := by
  intro bound
  have passes (body : Option Bytes) : signing.Passes later { request with body } :=
    ⟨signed, stamped, if_pos unconfigured⟩
  have none := (bound _ (passes none) rfl).2.2.2
  have some := (bound _ (passes (some [])) rfl).2.2.2
  rw [← none] at some
  cases some

theorem separator_not_mem_of_fresh {now : Time} {timestamp : Bytes}
    (isFresh : fresh now timestamp = true) : separator ∉ timestamp := by
  unfold fresh at isFresh
  cases parsed : parseInt timestamp with
  | none =>
    rw [parsed] at isFresh
    cases isFresh
  | some ts => exact separator_not_mem_of_parseInt parsed

/-- Another reading of the same signed text passes with the same signature. -/
theorem passes_reread (configured : signing.key ≠ []) {now later : Time} {request : SignedRequest}
    {path timestamp body body' : Bytes} {rooted : path.head? = some slash}
    (passes : signing.Passes now request) (read : request.body = some body')
    (isFresh : fresh later timestamp = true)
    (same : request.path ++ separator :: (request.timestamp ++ separator :: body') =
      path ++ separator :: (timestamp ++ separator :: body)) :
    signing.Passes later (reread request path timestamp body rooted) := by
  obtain ⟨signed, -, _, found, made⟩ := (passes_iff configured).mp passes
  cases read.symm.trans found
  refine (passes_iff configured).mpr ⟨signed, isFresh, body, rfl, ?_⟩
  refine made.trans ?_
  unfold computeRequestSignature signedText
  rw [same]
  rfl

/-- An ambiguous request can be read in another way. -/
theorem not_bound_of_ambiguous (configured : signing.key ≠ []) {now later : Time}
    {request : SignedRequest} {body : Bytes} (passes : signing.Passes now request)
    (read : request.body = some body) (ambiguous : Ambiguous later request.path body) :
    ¬ signing.Bound later request := by
  intro bound
  obtain ⟨tail, rooted⟩ := List.head?_eq_some_iff.mp request.rooted
  obtain ⟨piece, isFresh, ⟨before, after, inPath⟩ | ⟨before, after, inBody⟩⟩ := ambiguous
  · have shorter := congrArg List.length inPath
    simp only [List.length_append, List.length_cons, List.length_nil] at shorter
    have starts : before.head? = some slash := by
      rw [rooted] at inPath
      cases before with
      | nil => cases (List.cons.inj inPath).1
      | cons first _ =>
        obtain ⟨rfl, -⟩ := List.cons.inj inPath
        rfl
    have other := @passes_reread signing configured now later request before piece
      (after ++ request.timestamp ++ separator :: body) body starts passes read isFresh (by
        have cut := congrArg (· ++ (request.timestamp ++ separator :: body)) inPath
        simpa using cut)
    have samePath : before = request.path := (bound _ other rfl).2.1
    rw [samePath] at shorter
    omega
  · have other := @passes_reread signing configured now later request
      (request.path ++ separator :: (request.timestamp ++ before)) piece after body
      (by rw [rooted]; rfl) passes read isFresh (by simp [inBody])
    have samePath : request.path ++ separator :: (request.timestamp ++ before) = request.path :=
      (bound _ other rfl).2.1
    have longer := congrArg List.length samePath
    simp only [List.length_append, List.length_cons] at longer
    omega

theorem two_le_count_of_between {piece text : Bytes} (between : Between piece text) :
    2 ≤ text.count separator := by
  obtain ⟨before, after, rfl⟩ := between
  simp only [List.count_append, List.count_cons_self]
  omega

/-- A request that passes binds its signature against all requests at a later or earlier time if
and only if signing is configured and no other part of its path or body can be taken for a
timestamp at that time. -/
theorem request_signature_binds_iff (signing : RequestSigning)
    (noCollisions : Function.Injective (signing.hmac signing.key)) (now later : Time)
    (request : SignedRequest) (passes : signing.Passes now request) :
    signing.Bound later request ↔ signing.key ≠ [] ∧
      ∀ body, request.body = some body → ¬ Ambiguous later request.path body := by
  constructor
  · intro bound
    have configured : signing.key ≠ [] := fun unconfigured =>
      not_bound_of_unconfigured unconfigured later passes.1 passes.2.1 bound
    exact ⟨configured, fun body read ambiguous =>
      not_bound_of_ambiguous configured passes read ambiguous bound⟩
  · rintro ⟨configured, unambiguous⟩ other otherPasses sameSignature
    obtain ⟨-, isFresh, body, read, made⟩ := (passes_iff configured).mp passes
    obtain ⟨-, otherFresh, otherBody, otherRead, otherMade⟩ :=
      (passes_iff configured).mp otherPasses
    have sameText := noCollisions (encodeToString_inj
      (made.symm.trans (sameSignature.symm.trans otherMade)))
    obtain ⟨sameMethod, rest⟩ := method_of_signedText sameText
    obtain ⟨samePath, sameTimestamp, sameBody⟩ | between :=
      readings (separator_not_mem_of_fresh isFresh) (separator_not_mem_of_fresh otherFresh) rest
    · exact ⟨sameMethod, samePath, sameTimestamp, by rw [otherRead, read, sameBody]⟩
    · exact absurd ⟨_, otherFresh, between⟩ (unambiguous body read)

def sampleSigning : RequestSigning := .new (fun _ message => message) (ascii "key") true

/-- A request with its own signature. -/
def sampleRequest (path timestamp body : String)
    (rooted : (ascii path).head? = some slash) : SignedRequest where
  method := ascii "POST"
  path := ascii path
  timestamp := ascii timestamp
  signature := sampleSigning.computeRequestSignature (ascii "POST") (ascii path) (ascii timestamp)
    (ascii body)
  body := some (ascii body)
  token := by decide
  rooted

theorem sample_passes (path timestamp body : String)
    (rooted : (ascii path).head? = some slash) {now : Time}
    (isFresh : fresh now (ascii timestamp) = true) :
    sampleSigning.Passes now (sampleRequest path timestamp body rooted) := by
  refine (passes_iff (by decide)).mpr ⟨?_, isFresh, ascii body, rfl, rfl⟩
  have configured : sampleSigning = ⟨fun _ message => message, ascii "key", true⟩ := by
    unfold sampleSigning RequestSigning.new
    rw [if_neg (by decide)]
  simp [sampleRequest, computeRequestSignature, signedText, encodeToString, configured,
    hexDigits, hexByte]

theorem signature_binds_plain_request :
    sampleSigning.Bound (unix 1700000060) (sampleRequest "/db" "1700000000" "x" (by decide)) := by
  refine (request_signature_binds_iff sampleSigning (fun _ _ same => same) (unix 1700000000)
    (unix 1700000060) _ (sample_passes _ _ _ _ (by decide +kernel))).mpr ⟨by decide, ?_⟩
  rintro body read ⟨piece, -, inPath | inBody⟩
  · exact absurd (two_le_count_of_between inPath) (by decide)
  · cases read
    exact absurd (two_le_count_of_between inBody) (by decide)

/-- The first part of a body is taken for the timestamp, and the timestamp for a part of the
path. -/
theorem signature_accepted_for_other_request :
    sampleSigning.Passes (unix 1700000000)
      (sampleRequest "/db" "1700000000" "1700000001|x" (by decide)) ∧
    sampleSigning.Passes (unix 1700000000)
      (sampleRequest "/db|1700000000" "1700000001" "x" (by decide)) ∧
    (sampleRequest "/db" "1700000000" "1700000001|x" (by decide)).signature =
      (sampleRequest "/db|1700000000" "1700000001" "x" (by decide)).signature ∧
    (sampleRequest "/db" "1700000000" "1700000001|x" (by decide)).path ≠
      (sampleRequest "/db|1700000000" "1700000001" "x" (by decide)).path :=
  ⟨sample_passes _ _ _ _ (by decide +kernel), sample_passes _ _ _ _ (by decide +kernel),
    by decide +kernel, by decide⟩

end RequestSigning

end KnxVault.Api
