import TenantAccess.Evaluation
import TenantAccess.Principal
import TenantAccess.Share

/-!
# Stored grants

What a principal may do is stored in three places: policy documents, permissions on a single
resource, and shares of a single resource. Every row belongs to one organization.
-/
namespace TenantAccess

open Wire (Record)

/-- Where grants are stored. The three sources are read independently. -/
inductive GrantSource where
  | policies
  | resourcePermissions
  | resourceShares
  deriving DecidableEq, Repr

namespace GrantSource

def all : List GrantSource := [.policies, .resourcePermissions, .resourceShares]

theorem mem_all (source : GrantSource) : source ∈ all := by
  cases source <;> decide

def name : GrantSource → String
  | .policies => "policies"
  | .resourcePermissions => "resource_permissions"
  | .resourceShares => "resource_shares"

def variants : List (String × GrantSource) := all.map fun s => (s.name, s)

def read : Json.Reader GrantSource := Json.readVariant variants

def toJson (s : GrantSource) : Json := .string s.name

end GrantSource

/-- A policy document kept as text. -/
structure StoredPolicy where
  id : String
  organization : OrganizationId
  document : String
  deriving DecidableEq, Repr

/-- Allows or denies the actions of a pattern on one resource. -/
structure ResourcePermission where
  id : String
  organization : OrganizationId
  principalId : String
  principalKind : PrincipalKind
  resource : String
  permission : String
  effect : Effect
  deriving DecidableEq, Repr

/-- Relates a principal to one resource at an access level. -/
structure ResourceShare where
  id : String
  organization : OrganizationId
  principalId : String
  principalKind : PrincipalKind
  resource : String
  level : AccessLevel
  deriving DecidableEq, Repr

namespace StoredPolicy

structure Draft where
  id : Option String := none
  organization : Option OrganizationId := none
  document : Option String := none

def record : Record Json.Outline Draft where
  name := "struct StoredPolicy"
  strict := false
  fields := [
    .needed "id" Json.readString Draft.id fun d x => { d with id := some x },
    .needed "organization_id" Json.readString Draft.organization
      fun d x => { d with organization := some x },
    .needed "document" Json.readString Draft.document fun d x => { d with document := some x }]

def read : Json.Reader StoredPolicy := fun o => do
  let d ← Json.readRecord record {} o
  let id ← Wire.required "id" d.id
  let organization ← Wire.required "organization_id" d.organization
  let document ← Wire.required "document" d.document
  return { id, organization, document }

def toJson (p : StoredPolicy) : Json :=
  .object [("id", .string p.id), ("organization_id", .string p.organization),
    ("document", .string p.document)]

end StoredPolicy

namespace ResourcePermission

/-- A row of the principal's own organization. -/
def ofPrincipal (id : String) (p : Principal) (resource permission : String) (effect : Effect) :
    ResourcePermission :=
  ⟨id, p.organization, p.id, p.kind, resource, permission, effect⟩

structure Draft where
  id : Option String := none
  organization : Option OrganizationId := none
  principalId : Option String := none
  principalKind : Option PrincipalKind := none
  resource : Option String := none
  permission : Option String := none
  effect : Option Effect := none

def record : Record Json.Outline Draft where
  name := "struct ResourcePermission"
  strict := false
  fields := [
    .needed "id" Json.readString Draft.id fun d x => { d with id := some x },
    .needed "organization_id" Json.readString Draft.organization
      fun d x => { d with organization := some x },
    .needed "principal_id" Json.readString Draft.principalId
      fun d x => { d with principalId := some x },
    .needed "principal_type" PrincipalKind.read Draft.principalKind
      fun d x => { d with principalKind := some x },
    .needed "resource_id" Json.readString Draft.resource fun d x => { d with resource := some x },
    .needed "permission" Json.readString Draft.permission fun d x => { d with permission := some x },
    .needed "effect" Effect.read Draft.effect fun d x => { d with effect := some x }]

def read : Json.Reader ResourcePermission := fun o => do
  let d ← Json.readRecord record {} o
  let id ← Wire.required "id" d.id
  let organization ← Wire.required "organization_id" d.organization
  let principalId ← Wire.required "principal_id" d.principalId
  let principalKind ← Wire.required "principal_type" d.principalKind
  let resource ← Wire.required "resource_id" d.resource
  let permission ← Wire.required "permission" d.permission
  let effect ← Wire.required "effect" d.effect
  return { id, organization, principalId, principalKind, resource, permission, effect }

def toJson (p : ResourcePermission) : Json :=
  .object [("id", .string p.id), ("organization_id", .string p.organization),
    ("principal_id", .string p.principalId), ("principal_type", p.principalKind.toJson),
    ("resource_id", .string p.resource), ("permission", .string p.permission),
    ("effect", p.effect.toJson)]

end ResourcePermission

namespace ResourceShare

/-- A row of the principal's own organization. -/
def ofPrincipal (id : String) (p : Principal) (resource : String) (level : AccessLevel) :
    ResourceShare :=
  ⟨id, p.organization, p.id, p.kind, resource, level⟩

structure Draft where
  id : Option String := none
  organization : Option OrganizationId := none
  principalId : Option String := none
  principalKind : Option PrincipalKind := none
  resource : Option String := none
  level : Option AccessLevel := none

def record : Record Json.Outline Draft where
  name := "struct ResourceShare"
  strict := false
  fields := [
    .needed "id" Json.readString Draft.id fun d x => { d with id := some x },
    .needed "organization_id" Json.readString Draft.organization
      fun d x => { d with organization := some x },
    .needed "principal_id" Json.readString Draft.principalId
      fun d x => { d with principalId := some x },
    .needed "principal_type" PrincipalKind.read Draft.principalKind
      fun d x => { d with principalKind := some x },
    .needed "resource_id" Json.readString Draft.resource fun d x => { d with resource := some x },
    .needed "access_level" AccessLevel.read Draft.level fun d x => { d with level := some x }]

def read : Json.Reader ResourceShare := fun o => do
  let d ← Json.readRecord record {} o
  let id ← Wire.required "id" d.id
  let organization ← Wire.required "organization_id" d.organization
  let principalId ← Wire.required "principal_id" d.principalId
  let principalKind ← Wire.required "principal_type" d.principalKind
  let resource ← Wire.required "resource_id" d.resource
  let level ← Wire.required "access_level" d.level
  return { id, organization, principalId, principalKind, resource, level }

def toJson (s : ResourceShare) : Json :=
  .object [("id", .string s.id), ("organization_id", .string s.organization),
    ("principal_id", .string s.principalId), ("principal_type", s.principalKind.toJson),
    ("resource_id", .string s.resource), ("access_level", s.level.toJson)]

end ResourceShare

end TenantAccess
