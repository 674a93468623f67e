import KnxVault.Std.Text

/-!
# Tenant namespaces in names

`internal/tenant/context.go`: paths and lease identifiers carry the tenant that
they belong to in front, behind one of two separators.
-/

namespace KnxVault.Tenant

open KnxVault.Std

/-- The path with its tenant in front. -/
def scopePath (tenant path : String) (enabled : Bool) : String :=
  let path := trimPrefix path "/"
  if !enabled || tenant = "" then path
  else if hasPrefix path (tenant ++ "/") then path
  else tenant ++ "/" ++ path

def validateAccess (tenant path : String) (enabled : Bool) : Bool :=
  if !enabled || tenant = "" then true
  else
    let path := trimPrefix path "/"
    hasPrefix path (tenant ++ "/") || path = tenant

def leaseIDSeparator : String := "."

/-- The lease identifier with its tenant in front; both separators count. -/
def scopeLeaseID (tenant leaseID : String) (enabled : Bool) : String :=
  let leaseID := trimSpace leaseID
  if !enabled || tenant = "" || leaseID = "" then leaseID
  else if hasPrefix leaseID (tenant ++ leaseIDSeparator) || hasPrefix leaseID (tenant ++ "/") then
    leaseID
  else tenant ++ leaseIDSeparator ++ leaseID

end KnxVault.Tenant
