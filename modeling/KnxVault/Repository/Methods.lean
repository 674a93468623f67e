import KnxVault.Repository.Auth
import KnxVault.Repository.Pki
import KnxVault.Repository.Secrets
import KnxVault.Std.Update

/-!
# The methods of the repositories, statement by statement

The methods of `internal/repository/memory` that change a repository, as updates in
the order of their statements: a check that comes after a write would leave the
write behind. Every method is the one step that the functions of the other modules
describe.
-/

namespace KnxVault.Repository

open KnxVault.Std KnxVault.Domain

/-- A step that returns nothing. -/
def silent {State : Type} (result : Except KNXVaultError State) :
    Except KNXVaultError (State × Unit) :=
  result.map fun later => (later, ())

@[simp] theorem silent_ok {State : Type} (later : State) :
    silent (.ok later) = .ok (later, ()) := rfl

@[simp] theorem silent_error {State : Type} (err : KNXVaultError) :
    silent (.error err : Except KNXVaultError State) = .error err := rfl

abbrev Method (Repo α : Type) := Update Repo KNXVaultError α

namespace Method

section Rows

variable {Key Row : Type} [Ord Key] [Std.TransOrd Key] [Std.LawfulEqOrd Key] [DecidableEq Key]
  {key : Row → Key} {Valid : Row → Prop}

/-- `Save`: check the row and store a copy. -/
def save (invalid : String) (row : Row) (check : Except String Unit)
    (sound : check = .ok () → Valid row) : Method (Table key Valid) Unit :=
  match check, sound with
  | .error cause, _ => throw { code := .validation, message := invalid, cause := some cause }
  | .ok _, sound => modify fun table => table.put row (valid_of_passed sound)

/-- `Delete`: look the row up and remove it. -/
def delete (missing : String) (dropped : Key) : Method (Table key Valid) Unit := do
  let table ← get
  match table.find dropped with
  | none => throw { code := .notFound, message := missing }
  | some _ => modify fun table => table.remove dropped

/-- `Revoke` and the like: look the row up and change it in place. -/
def change (missing : String) (wanted : Key) (edit : Row → Row)
    (stays : ∀ row, Valid row → Valid (edit row)) : Method (Table key Valid) Unit := do
  let table ← get
  match found : table.find wanted with
  | none => throw { code := .notFound, message := missing }
  | some row => set (table.put (edit row) (stays row (Table.valid_of_find found)))

theorem save_computes (invalid : String) (row : Row) (check : Except String Unit)
    (sound : check = .ok () → Valid row) :
    (save invalid row check sound : Method (Table key Valid) Unit).Computes fun table =>
      silent (saveRow table invalid row check sound) := by
  intro table
  cases check <;> rfl

theorem delete_computes (missing : String) (dropped : Key) :
    (delete missing dropped : Method (Table key Valid) Unit).Computes fun table =>
      silent (deleteRow table missing dropped) := by
  intro table
  rw [delete, Update.exec_get_bind]
  cases found : table.find dropped <;> simp [deleteRow, found, failWith]

theorem change_computes (missing : String) (wanted : Key) (edit : Row → Row)
    (stays : ∀ row, Valid row → Valid (edit row)) :
    (change missing wanted edit stays : Method (Table key Valid) Unit).Computes fun table =>
      silent (changeRow table missing wanted edit stays) := by
  intro table
  rw [change, Update.exec_get_bind]
  split
  · rename_i absent
    simp [changeRow_of_none absent, failWith]
  · rename_i row found
    have done : changeRow table missing wanted edit stays = .ok _ := changeRow_of_find found
    simp [done]

end Rows

/-! ### Methods with more than one check or write -/

def saveCA (ca : CA) : Method CARepository Unit := do
  match checked : ca.validate with
  | .error cause => throw { code := .validation, message := "invalid ca", cause := some cause }
  | .ok _ =>
    let repo ← get
    if free : repo.nameTaken ca = false then set (repo.put ca checked free)
    else throw { code := .validation, message := "ca name already exists" }

theorem saveCA_computes (ca : CA) : (saveCA ca).Computes fun repo => silent (repo.save ca) := by
  intro repo
  dsimp only
  cases checked : ca.validate with
  | error cause =>
    have saved : repo.save ca =
        .error { code := .validation, message := "invalid ca", cause := some cause } := by
      unfold CARepository.save
      split <;> simp_all
    rw [saved]
    unfold saveCA
    split <;> simp_all
  | ok =>
    by_cases free : repo.nameTaken ca = false
    · have saved : repo.save ca = .ok (repo.put ca checked free) := by
        unfold CARepository.save
        split <;> simp_all
      rw [saved]
      unfold saveCA
      split <;> simp_all
    · have saved : repo.save ca = failWith .validation "ca name already exists" := by
        unfold CARepository.save
        split <;> simp_all
      rw [saved]
      unfold saveCA
      split <;> simp_all [failWith]

def saveVersion (secret : SecretVersion) : Method SecretRepository Unit := do
  match checked : secret.validate with
  | .error cause =>
    throw { code := .validation, message := "invalid secret version", cause := some cause }
  | .ok _ =>
    let repo ← get
    if (repo.find (secretKey secret)).isSome then
      throw { code := .validation, message := "secret version already exists" }
    else modify fun repo => repo.put secret checked

theorem saveVersion_computes (secret : SecretVersion) :
    (saveVersion secret).Computes fun repo => silent (repo.saveVersion secret) := by
  intro repo
  dsimp only
  cases checked : secret.validate with
  | error cause =>
    have saved : repo.saveVersion secret = .error
        { code := .validation, message := "invalid secret version", cause := some cause } := by
      unfold SecretRepository.saveVersion
      split <;> simp_all
    rw [saved]
    unfold saveVersion
    split <;> simp_all
  | ok =>
    by_cases taken : (repo.find (secretKey secret)).isSome = true
    · have saved : repo.saveVersion secret =
          failWith .validation "secret version already exists" := by
        unfold SecretRepository.saveVersion
        split <;> simp_all
      rw [saved]
      unfold saveVersion
      split <;> simp_all [failWith]
    · have saved : repo.saveVersion secret = .ok (repo.put secret checked) := by
        unfold SecretRepository.saveVersion
        split <;> simp_all
      rw [saved]
      unfold saveVersion
      split <;> simp_all

/-- `PutAtomic`: two checks, the write, and then the trimming, which cannot fail. -/
def putAtomic (range : MapRange) (secret : SecretVersion) (casVersion : Option Int)
    (maxVersions : Int) : Method SecretRepository Int := do
  let repo ← get
  if casVersion.any fun expected => !repo.casHolds range secret.path expected then
    throw { code := .validation, message := "cas version mismatch" }
  else
    let version := repo.nextVersion range secret.path
    saveVersion { secret with version }
    modify fun repo =>
      if 0 < maxVersions then repo.trimVersions range secret.path maxVersions else repo
    pure version

theorem putAtomic_computes (range : MapRange) (secret : SecretVersion) (casVersion : Option Int)
    (maxVersions : Int) :
    (putAtomic range secret casVersion maxVersions).Computes fun repo =>
      repo.putAtomic range secret casVersion maxVersions := by
  intro repo
  rw [putAtomic, Update.exec_get_bind]
  unfold SecretRepository.putAtomic
  split
  · rename_i mismatch
    simp [mismatch, failWith]
  · rename_i current
    rw [Update.exec_bind, saveVersion_computes]
    cases saved : SecretRepository.saveVersion repo
        { secret with version := repo.nextVersion range secret.path } with
    | error err => simp [current, saved, bind, Except.bind]
    | ok later =>
      simp only [current, saved, silent_ok, Update.settle_ok, Update.exec_bind,
        Update.exec_modify, Update.exec_pure, Bool.false_eq_true, if_false]
      rfl

def updateDEKEnc (path : String) (version : Int) (dekEnc : Bytes) :
    Method SecretRepository Unit :=
  if rejected : path = "" ∨ version < 1 ∨ dekEnc = [] then
    throw { code := .validation, message := "invalid dek update request" }
  else
    change "secret version not found" (toLex (path, version)) (fun secret => { secret with dekEnc })
      (SecretRepository.validate_of_accepted rejected)

theorem updateDEKEnc_computes (path : String) (version : Int) (dekEnc : Bytes) :
    (updateDEKEnc path version dekEnc).Computes fun repo =>
      silent (repo.updateDEKEnc path version dekEnc) := by
  intro repo
  unfold updateDEKEnc SecretRepository.updateDEKEnc
  split
  · simp [failWith]
  · exact change_computes _ _ _ _ repo

def destroyVersion (path : String) (version : Int) : Method SecretRepository Unit := do
  let repo ← get
  match repo.find (toLex (path, version)) with
  | none => throw { code := .notFound, message := "secret version not found" }
  | some secret =>
    if secret.destroyed then
      throw { code := .validation, message := "secret version already destroyed" }
    else
      change "secret version not found" (toLex (path, version))
        (fun stored => { stored with destroyed := true }) fun _ valid => valid

theorem destroyVersion_computes (path : String) (version : Int) :
    (destroyVersion path version).Computes fun repo =>
      silent (repo.destroyVersion path version) := by
  intro repo
  rw [destroyVersion, Update.exec_get_bind]
  unfold SecretRepository.destroyVersion
  cases found : repo.find (toLex (path, version)) with
  | none => simp [found, failWith]
  | some secret =>
    cases destroyed : secret.destroyed with
    | true => simp [found, destroyed, failWith]
    | false =>
      simp only [found, destroyed, Bool.false_eq_true, if_false]
      exact change_computes _ _ _ _ repo

/-- `Append`: the entry gets the next number. -/
def append (entry : Entry) : Method AuditRepository Entry := do
  match checked : entry.validate with
  | .error cause =>
    throw { code := .validation, message := "invalid audit entry", cause := some cause }
  | .ok _ =>
    let repo ← get
    set (repo.push entry checked)
    pure { entry with id := repo.nextID }

theorem append_computes (entry : Entry) :
    (append entry).Computes fun repo => repo.append entry := by
  intro repo
  unfold append AuditRepository.append
  split
  · split <;> simp_all
  · rw [Update.exec_get_bind]
    split
    · rfl
    · simp_all

/-- `Revoke` of a certificate: a serial that is revoked stays as it is. -/
def revoke (cert : RevokedCertificate) : Method RevocationRepository Unit :=
  modify fun repo => repo.revoke cert

theorem stored_of_validate (role : PKIRole) (passed : role.validate = .ok ()) :
    StoredPKIRole role.normalize :=
  ⟨role.validate_normalize.trans passed, role.normalize_normalize⟩

/-- The check sets the usage of the role, and the role is stored with it. -/
def savePKIRole (role : PKIRole) : Method PKIRoleRepository PKIRole := do
  save "invalid pki role" role.normalize role.validate (stored_of_validate role)
  pure role.normalize

theorem savePKIRole_computes (role : PKIRole) :
    (savePKIRole role).Computes fun repo =>
      (repo.save role).map fun later => (later, role.normalize) := by
  intro repo
  have saved : (save "invalid pki role" role.normalize role.validate (stored_of_validate role) :
      Method PKIRoleRepository Unit).exec repo = Update.settle repo (silent (repo.save role)) :=
    save_computes _ _ _ _ repo
  rw [savePKIRole, Update.exec_bind, saved]
  cases outcome : repo.save role <;> simp [outcome, Except.map]

def saveToken (token : ClientToken) : Method TokenRepository Unit :=
  if unnamed : token.id = "" then throw { code := .validation, message := "token id is required" }
  else modify fun repo => repo.put token unnamed

theorem saveToken_computes (token : ClientToken) :
    (saveToken token).Computes fun repo => silent (repo.save token) := by
  intro repo
  unfold saveToken TokenRepository.save
  split
  · simp [failWith]
  · simp

/-- `Save` of a policy: one without an identifier gets a new one. -/
def savePolicy (newUUID : NewUuid) (policy : Policy) : Method PolicyRepository Policy := do
  save "invalid policy" (PolicyRepository.withID newUUID policy) policy.validate
    (PolicyRepository.stored_withID newUUID)
  pure (PolicyRepository.withID newUUID policy)

theorem savePolicy_computes (newUUID : NewUuid) (policy : Policy) :
    (savePolicy newUUID policy).Computes fun repo => repo.save newUUID policy := by
  intro repo
  rw [savePolicy, Update.exec_bind, save_computes]
  unfold PolicyRepository.save
  cases saved : saveRow repo "invalid policy" (PolicyRepository.withID newUUID policy)
      policy.validate (PolicyRepository.stored_withID newUUID) with
  | error err => simp [saved, bind, Except.bind]
  | ok later =>
    simp only [saved, silent_ok, Update.settle_ok, Update.exec_pure]
    rfl

end Method

end KnxVault.Repository
