import KnxVault.Api.Exposure
import KnxVault.Api.PkiSign
import KnxVault.App.Seal
import KnxVault.Audit.Tamper
import KnxVault.Auth.Conditions
import KnxVault.Auth.Glob
import KnxVault.Auth.IdentityGate
import KnxVault.Auth.Lifetime
import KnxVault.Auth.Lockout
import KnxVault.Auth.Revocation
import KnxVault.Backup.Service
import KnxVault.Engine.Chains
import KnxVault.Engine.RenewalRuns
import KnxVault.Engine.Revocation
import KnxVault.Engine.StatementShape
import KnxVault.Infra.LeaderJob
import KnxVault.Inject.Collisions
import KnxVault.KeyValue.Separation
import KnxVault.Leases.Cleanup
import KnxVault.Leases.Credentials
import KnxVault.Leases.Ownership
import KnxVault.Operator.Settling
import KnxVault.Raft.Authority
import KnxVault.Raft.Determinism
import KnxVault.Raft.Frame
import KnxVault.Rotation.Changes
import KnxVault.Utils.Duration
import KnxVault.Webhook.Patch
