import KnxVault.Domain.Auth
import KnxVault.Repository.Basic

/-!
# Repositories of policies, roles, tokens and machine identities

The repositories of `internal/repository/memory` for `internal/domain/auth`. The
identifier that saving a policy may draw is an argument.
-/

namespace KnxVault.Repository

open KnxVault.Std KnxVault.Domain

/-- A stored policy is valid and has an identifier. -/
def StoredPolicy (policy : Policy) : Prop :=
  policy.validate = .ok () ∧ policy.id ≠ 0

abbrev PolicyRepository := Table Policy.name StoredPolicy

namespace PolicyRepository

/-- The stored policy, which gets an identifier if it has none. -/
def withID (newUUID : NewUuid) (policy : Policy) : Policy :=
  if policy.id = 0 then { policy with id := newUUID.1 } else policy

@[simp] theorem name_withID (newUUID : NewUuid) (policy : Policy) :
    (withID newUUID policy).name = policy.name := by
  unfold withID
  split <;> rfl

theorem stored_withID (newUUID : NewUuid) {policy : Policy} (valid : policy.validate = .ok ()) :
    StoredPolicy (withID newUUID policy) := by
  unfold withID
  split
  · exact ⟨valid, newUUID.2⟩
  · exact ⟨valid, by assumption⟩

def save (repo : PolicyRepository) (newUUID : NewUuid) (policy : Policy) :
    Except KNXVaultError (PolicyRepository × Policy) := do
  let saved ← saveRow repo "invalid policy" (withID newUUID policy) policy.validate
    (stored_withID newUUID)
  pure (saved, withID newUUID policy)

theorem save_ok_iff {repo later : PolicyRepository} {newUUID : NewUuid} {policy : Policy} :
    (repo.save newUUID policy).map Prod.fst = .ok later ↔
      ∃ valid : policy.validate = .ok (),
        later = repo.put (withID newUUID policy)
          (stored_withID newUUID valid) := by
  rw [save]
  cases saved : saveRow repo "invalid policy" (withID newUUID policy)
      policy.validate (stored_withID newUUID) with
  | error err =>
    simp only [Bind.bind, Except.bind, Except.map, reduceCtorEq, false_iff, not_exists]
    intro valid
    rw [saveRow_ok_iff.mpr ⟨valid, rfl⟩] at saved
    cases saved
  | ok table =>
    obtain ⟨valid, rfl⟩ := saveRow_ok_iff.mp saved
    simp [Bind.bind, Except.bind, Except.map, pure, Except.pure, valid, eq_comm]

/-- A policy with an identifier draws none. -/
theorem save_of_named {repo : PolicyRepository} {policy : Policy} (named : policy.id ≠ 0)
    (newUUID other : NewUuid) : repo.save newUUID policy = repo.save other policy := by
  have same : withID newUUID policy = withID other policy := by
    rw [withID, withID, if_neg named, if_neg named]
  simp only [save, same]

/-- A policy that is refused draws no identifier. -/
theorem save_of_invalid {repo : PolicyRepository} {policy : Policy}
    (invalid : policy.validate ≠ .ok ()) (newUUID other : NewUuid) :
    repo.save newUUID policy = repo.save other policy := by
  cases failed : policy.validate with
  | ok _ => exact absurd failed invalid
  | error cause =>
    have refused : ∀ newUUID : NewUuid, repo.save newUUID policy =
        .error { code := .validation, message := "invalid policy", cause := some cause } := by
      intro newUUID
      rw [save, saveRow_of_error failed]
      rfl
    rw [refused, refused]

def getByName (repo : PolicyRepository) (name : String) : Except KNXVaultError Policy :=
  getRow repo "policy not found" name

def list (repo : PolicyRepository) (range : MapRange) : List Policy :=
  listBy Policy.name range repo

def delete (repo : PolicyRepository) (name : String) : Except KNXVaultError PolicyRepository :=
  deleteRow repo "policy not found" name

end PolicyRepository

abbrev RoleRepository := Table Role.name fun role => role.validate = .ok ()

namespace RoleRepository

def save (repo : RoleRepository) (role : Role) : Except KNXVaultError RoleRepository :=
  saveRow repo "invalid role" role role.validate fun passed => passed

def get (repo : RoleRepository) (name : String) : Except KNXVaultError Role :=
  getRow repo "role not found" name

def list (repo : RoleRepository) (range : MapRange) : List Role :=
  listBy Role.name range repo

def delete (repo : RoleRepository) (name : String) : Except KNXVaultError RoleRepository :=
  deleteRow repo "role not found" name

end RoleRepository

abbrev TokenRepository := Table ClientToken.id fun token => token.id ≠ ""

namespace TokenRepository

def save (repo : TokenRepository) (token : ClientToken) : Except KNXVaultError TokenRepository :=
  if unnamed : token.id = "" then failWith .validation "token id is required"
  else .ok (repo.put token unnamed)

theorem id_of_save {repo later : TokenRepository} {token : ClientToken}
    (saved : repo.save token = .ok later) : token.id ≠ "" := by
  unfold save at saved
  split at saved
  · cases saved
  · assumption

def get (repo : TokenRepository) (id : String) : Except KNXVaultError ClientToken :=
  getRow repo "token not found" id

def revoke (repo : TokenRepository) (id : String) (revokedAt : Time) :
    Except KNXVaultError TokenRepository :=
  changeRow repo "token not found" id
    (fun token => { token with revoked := true, expiresAt := revokedAt }) fun _ named => named

def list (repo : TokenRepository) (range : MapRange) : List ClientToken :=
  listBy ClientToken.id range repo

/-- Tokens not revoked that expired before a time, the earliest first. -/
def listExpired (repo : TokenRepository) (range : MapRange) (before : Time) (limit : Int) :
    List ClientToken :=
  limited 100 limit (sortBy (lessBy fun token : ClientToken => token.expiresAt.instant)
    ((repo.visit range).filter fun token => !token.revoked && token.expiresAt.before before))

end TokenRepository

abbrev MachineIdentityRepository :=
  Table MachineIdentity.id fun identity => identity.validate = .ok ()

namespace MachineIdentityRepository

def save (repo : MachineIdentityRepository) (identity : MachineIdentity) :
    Except KNXVaultError MachineIdentityRepository :=
  saveRow repo "invalid machine identity" identity identity.validate fun passed => passed

def get (repo : MachineIdentityRepository) (id : String) : Except KNXVaultError MachineIdentity :=
  getRow repo "machine identity not found" id

def list (repo : MachineIdentityRepository) (range : MapRange) : List MachineIdentity :=
  listBy MachineIdentity.id range repo

def revoke (repo : MachineIdentityRepository) (id : String) :
    Except KNXVaultError MachineIdentityRepository :=
  changeRow repo "machine identity not found" id
    (fun identity => { identity with revoked := true }) fun _ valid => valid

end MachineIdentityRepository

end KnxVault.Repository
