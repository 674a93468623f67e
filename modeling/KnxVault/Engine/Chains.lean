import KnxVault.Engine.Issue

/-!
# Chains of authorities

`ExportCA` of `internal/engine/pki` and the chain that `SignCSR` returns, against
the line of an authority up to its root.
-/

namespace KnxVault.Engine.Pki

open KnxVault.Std KnxVault.Domain KnxVault.Crypto KnxVault.Repository

structure ExportCAResult where
  id : Uuid
  name : String
  certPEM : String
  chainPEM : String
  serial : String
  expiresAt : Time
deriving DecidableEq, Repr

/-- The stored parent of an authority. -/
def storedParent (cas : CARepository) (ca : CA) : Option CA :=
  ca.parentID.bind fun parentID => (cas.getByID parentID).toOption

/-- The certificate of an authority before that of its parent, without the private
key. -/
def Issuer.exportCA (issuer : Issuer) (id : Uuid) : Except GoError ExportCAResult := do
  let ca ← (issuer.cas.getByID id).mapError KNXVaultError.asGoError
  pure {
    id := ca.id
    name := ca.name
    certPEM := ca.certPEM
    chainPEM := match storedParent issuer.cas ca with
      | some parent => ca.certPEM ++ "\n" ++ parent.certPEM
      | none => ca.certPEM
    serial := ca.serial
    expiresAt := ca.expiresAt }

/-! ### Lines -/

/-- Certificates one after the other, with a line break between them. -/
def bundle : List String → String
  | [] => ""
  | [cert] => cert
  | cert :: rest => cert ++ "\n" ++ bundle rest

section Lines

-- `issues parent child`: a client takes the first certificate for the issuer of the second
variable (issues : String → String → Prop)

/-- An authority with all its ancestors up to a root, each issued by the next. -/
inductive Line (cas : CARepository) : CA → List CA → Prop
  | root {ca : CA} (alone : ca.parentID = none) (own : issues ca.certPEM ca.certPEM) :
    Line cas ca [ca]
  | child {ca parent : CA} {line : List CA} (below : ca.parentID = some parent.id)
    (stored : cas.byID.find parent.id = some parent)
    (issued : issues parent.certPEM ca.certPEM) (above : Line cas parent line) :
    Line cas ca (ca :: line)

/-- The authority is a root, or its parent is stored and is one. -/
inductive Shallow (cas : CARepository) (ca : CA) : Prop
  | root (alone : ca.parentID = none) (own : issues ca.certPEM ca.certPEM)
  | child (parent : CA) (below : ca.parentID = some parent.id)
    (stored : cas.byID.find parent.id = some parent)
    (issued : issues parent.certPEM ca.certPEM)
    (alone : parent.parentID = none) (own : issues parent.certPEM parent.certPEM)

/-- Both chains of an authority are its line, in one of the two directions. -/
structure Complete (issuer : Issuer) (ca : CA) : Prop where
  exported : ∀ result, issuer.exportCA ca.id = .ok result →
    ∃ line, Line issues issuer.cas ca line ∧
      result.chainPEM = bundle (line.map CA.certPEM)
  signed : ∀ env req role result, issuer.resolvePKIRole req.role = .ok role →
    role.caName = ca.name → issuer.signCSR env req = .ok result →
      ∃ line, Line issues issuer.cas ca line ∧
        (result.caChain = line.map CA.certPEM ∨ result.caChain = (line.map CA.certPEM).reverse)

variable {issues} {cas : CARepository} {ca : CA}

theorem storedParent_of_find {parent : CA} (below : ca.parentID = some parent.id)
    (stored : cas.byID.find parent.id = some parent) :
    storedParent cas ca = some parent := by
  have found : cas.getByID parent.id = .ok parent := getRow_ok_iff.mpr stored
  rw [storedParent, below, Option.bind_some, found]
  rfl

theorem storedParent_of_root (alone : ca.parentID = none) :
    storedParent cas ca = none := by
  rw [storedParent, alone]
  rfl

theorem signingChain_eq (issuer : Issuer) (ca : CA) :
    issuer.signingChain ca =
      match storedParent issuer.cas ca with
      | some parent => [parent.certPEM, ca.certPEM]
      | none => [ca.certPEM] := rfl

theorem exportCA_chain {issuer : Issuer} (stored : issuer.cas.byID.find ca.id = some ca) :
    ∃ result, issuer.exportCA ca.id = .ok result ∧
      result.chainPEM =
        bundle (ca.certPEM :: (storedParent issuer.cas ca).toList.map CA.certPEM) := by
  have found : issuer.cas.getByID ca.id = .ok ca := getRow_ok_iff.mpr stored
  unfold Issuer.exportCA
  rw [found]
  refine ⟨_, rfl, ?_⟩
  cases storedParent issuer.cas ca <;> rfl

/-- The line of a shallow authority ends with the stored parent. -/
theorem line_of_shallow (shallow : Shallow issues cas ca) :
    Line issues cas ca (ca :: (storedParent cas ca).toList) := by
  cases shallow with
  | root alone own =>
    rw [storedParent_of_root alone]
    exact .root alone own
  | child parent below stored issued alone own =>
    rw [storedParent_of_find below stored]
    exact .child below stored issued (.root alone own)

/-- A line whose certificates are those of the authority and of its stored parent is
that of a shallow authority. -/
theorem shallow_of_line {line : List CA} (isLine : Line issues cas ca line)
    (same : bundle (ca.certPEM :: (storedParent cas ca).toList.map CA.certPEM) =
      bundle (line.map CA.certPEM)) : Shallow issues cas ca := by
  cases isLine with
  | root alone own => exact .root alone own
  | @child _ parent above below stored issued isLine =>
    rw [storedParent_of_find below stored] at same
    cases isLine with
    | root alone own => exact .child parent below stored issued alone own
    | @child _ grandparent above _ _ _ further =>
      -- a third certificate makes the text longer
      have longer := congrArg String.length same
      have lineBreak : "\n".length = 1 := by decide
      cases further <;> simp [bundle] at longer <;> omega

end Lines

section Samples

/-- Surroundings that draw the given identifier. -/
def drawing (id : NewUuid) : Env := { Env.sample 1 with newUUID := fun _ => id }

/-- A certificate that names its issuer behind a point. -/
def namedBelow (name : String) (parent : CA) : Except GoError Generated :=
  .ok ⟨name ++ "." ++ parent.certPEM, [5], "1", ⟨1, 0⟩⟩

def namesIssuer (parent child : String) : Prop :=
  child = parent ∨ hasSuffix child ("." ++ parent) = true

/-- A root, an authority below it and one below that. -/
def threeLevels : Except GoError (CARepository × CA × CA × CA) := do
  let root ← createRoot .doubling .sample (drawing ⟨1, uuidOne_ne⟩) .sample "root" "root"
    (.ok ⟨"root", [5], "1", ⟨1, 0⟩⟩)
  let cas ← (CARepository.empty.save root).mapError KNXVaultError.asGoError
  let middle ← createIntermediate .doubling .sample (drawing ⟨2, uuidTwo_ne⟩) .sample cas "root"
    "middle" "middle" (.ok ()) fun parent _ => namedBelow "middle" parent
  let cas ← (cas.save middle).mapError KNXVaultError.asGoError
  let leaf ← createIntermediate .doubling .sample (drawing ⟨3, by decide⟩) .sample cas "middle"
    "leaf" "leaf" (.ok ()) fun parent _ => namedBelow "leaf" parent
  let cas ← (cas.save leaf).mapError KNXVaultError.asGoError
  pure (cas, root, middle, leaf)

def levels : CARepository × CA × CA × CA := threeLevels.toOption.get (by decide +kernel)

/-- An engine that signs every request, with a role of the second level and one of the third. -/
def levelsIssuer : Issuer where
  lib := .sample
  aead := .doubling
  service := .sample
  parseTTL _ := .error "invalid ttl"
  backend := {
    issueCertificate := fun _ => .error "not supported"
    signCSR := fun _ => .ok "CERT"
    parseCertMetadata := fun _ => .ok ("1", ⟨1, 0⟩)
    parseCSR := fun _ => .ok {} }
  cas := levels.1
  roles := (Table.empty.put
    { name := "web", caName := "leaf", allowedDomains := ["*"], keyUsage := .server }
    ⟨rfl, rfl⟩).put
    { name := "api", caName := "middle", allowedDomains := ["*"], keyUsage := .server } ⟨rfl, rfl⟩
  revoked := .empty
  issued := .empty

end Samples

/-- The chains of an authority are complete exactly if it is a root or its parent
is one. -/
theorem chains_complete_iff {issues : String → String → Prop} {issuer : Issuer}
    {ca : CA} (stored : issuer.cas.byID.find ca.id = some ca) :
    Complete issues issuer ca ↔ Shallow issues issuer.cas ca := by
  obtain ⟨result, exported, chain⟩ := exportCA_chain stored
  constructor
  · intro complete
    obtain ⟨line, isLine, text⟩ := complete.exported result exported
    exact shallow_of_line isLine (chain.symm.trans text)
  · intro shallow
    have isLine := line_of_shallow shallow
    refine ⟨fun other again => ?_, fun env req role other resolved named signed => ?_⟩
    · rw [exported] at again
      cases again
      exact ⟨_, isLine, chain⟩
    · obtain ⟨signature, rfl⟩ := Issuer.signCSR_ok_iff.mp signed
      have sameRole : signature.role = role :=
        Except.ok.inj (signature.resolved.symm.trans resolved)
      have sameCA : signature.ca = ca := by
        have found := CARepository.getByName_ok_iff.mp signature.found
        rw [sameRole, named] at found
        exact issuer.cas.distinct found.1 stored found.2
      refine ⟨_, isLine, .inr ?_⟩
      change issuer.signingChain signature.ca = _
      rw [sameCA, signingChain_eq]
      cases storedParent issuer.cas ca <;> rfl

/-- The second of three levels, which signs for a role. -/
theorem chains_complete_middle :
    levelsIssuer.cas.byID.find levels.2.2.1.id = some levels.2.2.1 ∧
      (levelsIssuer.signCSR (.sample 1) { role := "api", csrPEM := "csr" }).map
        SignCSRResult.caChain = .ok ["root", "middle.root"] ∧
      Complete namesIssuer levelsIssuer levels.2.2.1 :=
  ⟨by decide +kernel, by decide +kernel, (chains_complete_iff (by decide +kernel)).mpr
    (.child levels.2.1 (by decide +kernel) (by decide +kernel) (.inr (by decide +kernel))
      (by decide +kernel) (.inl rfl))⟩

/-- The third of three levels has a line, of which neither chain has the root. -/
theorem third_level_incomplete :
    Line namesIssuer levelsIssuer.cas levels.2.2.2 [levels.2.2.2, levels.2.2.1, levels.2.1] ∧
      (levelsIssuer.exportCA levels.2.2.2.id).map ExportCAResult.chainPEM =
        .ok "leaf.middle.root\nmiddle.root" ∧
      (levelsIssuer.signCSR (.sample 1) { role := "web", csrPEM := "csr" }).map
        SignCSRResult.caChain = .ok ["middle.root", "leaf.middle.root"] ∧
      ¬ Complete namesIssuer levelsIssuer levels.2.2.2 := by
  have root : Line namesIssuer levelsIssuer.cas levels.2.1 [levels.2.1] :=
    .root (by decide +kernel) (.inl rfl)
  have middle : Line namesIssuer levelsIssuer.cas levels.2.2.1 [levels.2.2.1, levels.2.1] :=
    .child (by decide +kernel) (by decide +kernel) (.inr (by decide +kernel)) root
  refine ⟨.child (by decide +kernel) (by decide +kernel) (.inr (by decide +kernel)) middle,
    by decide +kernel, by decide +kernel, fun complete => ?_⟩
  have stored : levelsIssuer.cas.byID.find levels.2.2.2.id = some levels.2.2.2 := by decide +kernel
  obtain ⟨result, exported, chain⟩ := exportCA_chain stored
  obtain ⟨line, isLine, text⟩ := complete.exported result exported
  cases shallow_of_line isLine (chain.symm.trans text) with
  | root alone => exact absurd alone (by decide +kernel)
  | child parent below stored issued alone =>
    have found : storedParent levelsIssuer.cas levels.2.2.2 = some levels.2.2.1 := by decide +kernel
    rw [storedParent_of_find below stored] at found
    rw [Option.some.inj found] at alone
    exact absurd alone (by decide +kernel)

end KnxVault.Engine.Pki
