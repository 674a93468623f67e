import KnxVault.Engine.Database

/-!
# Names of database users

`generateUsername` of `internal/engine/secrets/database` names the user of a lease
after its role, with a random suffix. The server keeps the first 63 bytes of a name.
-/

namespace KnxVault.Engine.Database

open KnxVault.Std KnxVault.Domain

/-! ### Random suffixes -/

def base64URLDigit (value : Nat) : Char :=
  "ABCDEFGHIJKLMNOPQRSTUVWXYZabcdefghijklmnopqrstuvwxyz0123456789-_".toList.getD value 'A'

/-- Eight random bytes to the base 64, without padding. -/
def suffixText (bits : BitVec 64) : String :=
  String.ofList ((List.range 11).map fun index =>
    base64URLDigit (bits.toNat * 4 / 64 ^ (10 - index) % 64))

/-- The characters that are left in a name. -/
def nameChar (char : Char) : Bool := plainChar char || char = '-'

theorem nameChar_base64URLDigit {value : Nat} (small : value < 64) :
    nameChar (base64URLDigit value) = true := by
  have all : ∀ value < 64, nameChar (base64URLDigit value) = true := by decide +kernel
  exact all value small

theorem nameChar_suffixText (bits : BitVec 64) :
    ∀ char ∈ (suffixText bits).toList, nameChar char = true := by
  intro char mem
  rw [suffixText, String.toList_ofList, List.mem_map] at mem
  obtain ⟨index, -, rfl⟩ := mem
  exact nameChar_base64URLDigit (Nat.mod_lt _ (by decide))

theorem length_suffixText (bits : BitVec 64) : (suffixText bits).toList.length = 11 := by
  simp [suffixText]

/-! ### Names on the server -/

/-- The characters that fit into some bytes. -/
def clip : Nat → List Char → List Char
  | _, [] => []
  | room, char :: rest =>
    if char.utf8Size ≤ room then char :: clip (room - char.utf8Size) rest else []

/-- The name as the server keeps it. -/
def identifierOf (name : String) : String := String.ofList (clip 63 name.toList)

theorem utf8Size_of_nameChar {char : Char} (part : nameChar char = true) : char.utf8Size = 1 := by
  have small : char.toNat ≤ 122 := by
    simp only [nameChar, plainChar, Bool.or_eq_true, Bool.and_eq_true, decide_eq_true_eq,
      Char.le_def, UInt32.le_iff_toNat_le] at part
    rcases part with (((⟨_, most⟩ | ⟨_, most⟩) | ⟨_, most⟩) | rfl) | rfl
    · exact most
    · exact le_trans most (by decide)
    · exact le_trans most (by decide)
    · decide
    · decide
  rw [Char.utf8Size_eq_one_iff, UInt32.le_iff_toNat_le]
  exact le_trans small (by decide)

theorem utf8ByteSize_of_nameChars {chars : List Char}
    (parts : ∀ char ∈ chars, nameChar char = true) :
    (String.ofList chars).utf8ByteSize = chars.length := by
  induction chars with
  | nil => rfl
  | cons char rest ih =>
    have one := utf8Size_of_nameChar (parts char List.mem_cons_self)
    have others := ih fun other mem => parts other (List.mem_cons_of_mem _ mem)
    rw [String.ofList_cons, String.utf8ByteSize_append, String.utf8ByteSize_singleton, one, others,
      List.length_cons, Nat.add_comm]

theorem clip_of_nameChars {chars : List Char} (parts : ∀ char ∈ chars, nameChar char = true)
    {room : Nat} (fits : chars.length ≤ room) : clip room chars = chars := by
  induction chars generalizing room with
  | nil => rfl
  | cons char rest ih =>
    have one := utf8Size_of_nameChar (parts char List.mem_cons_self)
    rw [List.length_cons] at fits
    rw [clip, one, if_pos (by omega),
      ih (fun other mem => parts other (List.mem_cons_of_mem _ mem)) (by omega)]

theorem nameChars_of_safe {name : String} (safe : safePostgresUsername name = true) :
    ∀ char ∈ name.toList, nameChar char = true := by
  unfold safePostgresUsername at safe
  split at safe
  · cases safe
  · rename_i first rest chars
    simp only [Bool.and_eq_true, List.all_eq_true] at safe
    rw [chars]
    exact List.forall_mem_cons.mpr ⟨by simp [nameChar, safe.1.2], safe.2⟩

/-- A name of the characters that are left is safe if it begins with a plain one and
is short enough. -/
theorem safe_iff {first : Char} {rest : List Char}
    (parts : ∀ char ∈ first :: rest, nameChar char = true) :
    safePostgresUsername (String.ofList (first :: rest)) = true ↔
      plainChar first = true ∧ rest.length ≤ 62 := by
  unfold safePostgresUsername
  rw [utf8ByteSize_of_nameChars parts, String.toList_ofList]
  have others : (rest.all fun char => plainChar char || char = '-') = true :=
    List.all_eq_true.mpr fun char mem => parts char (List.mem_cons_of_mem _ mem)
  simp only [others, Bool.and_true, Bool.and_eq_true, decide_eq_true_eq, List.length_cons]
  rw [and_comm]
  exact and_congr_right fun _ => by omega

/-- A safe name is kept whole. -/
theorem identifierOf_safe {name : String} (safe : safePostgresUsername name = true) :
    identifierOf name = name := by
  have parts := nameChars_of_safe safe
  cases chars : name.toList with
  | nil => simp [safePostgresUsername, chars] at safe
  | cons first rest =>
    have same : name = String.ofList (first :: rest) := by rw [← chars, String.ofList_toList]
    rw [chars] at parts
    rw [same, safe_iff parts] at safe
    rw [identifierOf, chars, clip_of_nameChars parts (Nat.succ_le_succ safe.2), same]

/-! ### Generated names -/

/-- Whatever the random bits, the names are safe, and different suffixes stay different
on the server. -/
structure ValidUsers (role : DatabaseRole) : Prop where
  safe : ∀ bits name, generateUsername role (.ok (suffixText bits)) = .ok name →
    safePostgresUsername name = true
  distinct : ∀ bits other name otherName, suffixText bits ≠ suffixText other →
    generateUsername role (.ok (suffixText bits)) = .ok name →
    generateUsername role (.ok (suffixText other)) = .ok otherName →
    identifierOf name ≠ identifierOf otherName

/-- What is left of the user prefix and the role name. -/
def keptName (role : DatabaseRole) : List Char :=
  (role.usernamePrefix ++ role.name).toList.filter nameChar

/-- Of the user prefix and the role name, at most 51 characters are left, and the first
of them may begin a name. -/
def Roomy (role : DatabaseRole) : Prop :=
  ∃ first rest, keptName role = first :: rest ∧ plainChar first = true ∧ rest.length ≤ 50

section Names

variable {role : DatabaseRole} (noDefault : role.defaultUsername = "")
include noDefault

/-- Either way the name is what is left, and the suffix. -/
theorem generateUsername_eq (bits : BitVec 64) :
    generateUsername role (.ok (suffixText bits)) =
      .ok (String.ofList (keptName role ++ '-' :: (suffixText bits).toList)) := by
  have cleaned :
      (role.usernamePrefix ++ role.name ++ "-" ++ suffixText bits).toList.filter nameChar =
        keptName role ++ '-' :: (suffixText bits).toList := by
    have kept : (suffixText bits).toList.filter nameChar = (suffixText bits).toList :=
      List.filter_eq_self.mpr (nameChar_suffixText bits)
    have dash : "-".toList.filter nameChar = ['-'] := by decide
    rw [keptName, String.toList_append, List.filter_append, kept, String.toList_append,
      List.filter_append, dash, List.append_assoc]
    rfl
  unfold generateUsername
  rw [if_neg (by simpa using noDefault)]
  change (if safePostgresUsername _ = true then _ else _) = _
  split
  · rename_i safe
    have same := List.filter_eq_self.mpr (nameChars_of_safe safe)
    rw [cleaned] at same
    rw [same, String.ofList_toList]
    rfl
  · change Except.ok (String.ofList (List.filter nameChar _)) = _
    rw [cleaned]

theorem validUsers_of_roomy (roomy : Roomy role) : ValidUsers role := by
  obtain ⟨first, rest, kept, plain, short⟩ := roomy
  have names : ∀ bits name, generateUsername role (.ok (suffixText bits)) = .ok name →
      name = String.ofList (first :: (rest ++ '-' :: (suffixText bits).toList)) ∧
        safePostgresUsername name = true := by
    intro bits name made
    rw [generateUsername_eq noDefault, kept, List.cons_append] at made
    have spelled := (Except.ok.inj made).symm
    rw [spelled]
    refine ⟨rfl, (safe_iff ?_).mpr ⟨plain, ?_⟩⟩
    · intro char mem
      rw [← List.cons_append, List.mem_append, ← kept] at mem
      rcases mem with front | back
      · exact (List.mem_filter.mp front).2
      · rcases List.mem_cons.mp back with rfl | suffix
        · rfl
        · exact nameChar_suffixText bits char suffix
    · simp only [List.length_append, List.length_cons, length_suffixText]
      omega
  refine ⟨fun bits name made => (names bits name made).2, ?_⟩
  intro bits other name otherName differ made otherMade same
  obtain ⟨spelled, safe⟩ := names bits name made
  obtain ⟨otherSpelled, otherSafe⟩ := names other otherName otherMade
  rw [identifierOf_safe safe, identifierOf_safe otherSafe, spelled, otherSpelled,
    String.ofList_inj, List.cons_inj_right, List.append_cancel_left_eq, List.cons_inj_right,
    String.toList_inj] at same
  exact differ same

theorem roomy_of_validUsers (valid : ValidUsers role) : Roomy role := by
  have safe := valid.safe 0 _ (generateUsername_eq noDefault 0)
  have parts := nameChars_of_safe safe
  unfold Roomy
  rw [String.toList_ofList] at parts
  cases kept : keptName role with
  | nil =>
    rw [kept] at safe parts
    exact absurd ((safe_iff parts).mp safe).1 (by decide)
  | cons first rest =>
    rw [kept, List.cons_append] at safe parts
    obtain ⟨plain, short⟩ := (safe_iff parts).mp safe
    simp only [List.length_append, List.length_cons, length_suffixText] at short
    exact ⟨first, rest, rfl, plain, by omega⟩

/-- The names of a role without a default user are valid exactly if the role leaves
room for them. -/
theorem generated_users_valid_iff : ValidUsers role ↔ Roomy role :=
  ⟨roomy_of_validUsers noDefault, validUsers_of_roomy noDefault⟩

end Names

/-- A role with a short name. -/
def readerRole : DatabaseRole :=
  { name := "reader", usernamePrefix := "v-", ttlSeconds := 60 }

theorem generated_users_valid_reader :
    readerRole.validate .sample .sorted = .ok () ∧ ValidUsers readerRole :=
  ⟨by decide +kernel, (generated_users_valid_iff rfl).mpr
    ⟨'v', "-reader".toList, by decide, by decide, by decide⟩⟩

/-- A role with a name of sixty letters. -/
def longRole : DatabaseRole :=
  { name := String.ofList (List.replicate 60 'a'), usernamePrefix := "v-", ttlSeconds := 60 }

/-- Two users of a role with a long name are one on the server. -/
theorem generated_users_collide :
    longRole.validate .sample .sorted = .ok () ∧ longRole.defaultUsername = "" ∧
      suffixText 0 ≠ suffixText 1 ∧
      (generateUsername longRole (.ok (suffixText 0))).toOption.map identifierOf =
        (generateUsername longRole (.ok (suffixText 1))).toOption.map identifierOf ∧
      ¬ ValidUsers longRole := by
  refine ⟨by decide +kernel, rfl, by decide +kernel, by decide +kernel, fun valid => ?_⟩
  exact valid.distinct 0 1 _ _ (by decide +kernel) (generateUsername_eq rfl 0)
    (generateUsername_eq rfl 1) (by decide +kernel)

end KnxVault.Engine.Database
