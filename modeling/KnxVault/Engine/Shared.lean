import KnxVault.Engine.Storage
import KnxVault.Repository.History
import KnxVault.Std.Concurrent

/-!
# The shared repository of secrets

Nodes share one repository of secret versions, and each call of it is atomic. What
a call does to the stored versions, whoever makes it, is said here once.
-/

namespace KnxVault.Engine

open KnxVault.Std KnxVault.Domain KnxVault.Repository

inductive SecretOp where
  | getLatest (path : String)
  | getVersion (path : String) (version : Int)
  | listByPath (path : String)
  | putAtomic (write : SecretWrite)
  | destroyVersion (path : String) (version : Int)

namespace SecretOp

abbrev Answer : SecretOp → Type
  | getLatest _ | getVersion _ _ => Except GoError SecretVersion
  | listByPath _ => List SecretVersion
  | putAtomic _ => Except GoError Int
  | destroyVersion _ _ => Except GoError Unit

def exec (range : MapRange) : (op : SecretOp) → SecretRepository → op.Answer × SecretRepository
  | getLatest path, repo => ((repo.getLatest range path).mapError KNXVaultError.asGoError, repo)
  | getVersion path version, repo =>
    ((repo.getVersion path version).mapError KNXVaultError.asGoError, repo)
  | listByPath path, repo => (repo.listByPath range path, repo)
  | putAtomic write, repo =>
    match repo.putAtomic range write.secret write.casVersion write.maxVersions with
    | .ok (later, version) => (.ok version, later)
    | .error err => (.error err.asGoError, repo)
  | destroyVersion path version, repo =>
    attempt ((repo.destroyVersion path version).mapError KNXVaultError.asGoError) repo

end SecretOp

end KnxVault.Engine
