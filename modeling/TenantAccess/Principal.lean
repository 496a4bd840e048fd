import TenantAccess.Json.Read
import TenantAccess.Text.Blank

/-!
# Principals

A principal is a user or a service account of one organization. Its id is unique among the
principals of its kind in that organization.
-/
namespace TenantAccess

open Wire (Record)

/-- The tenant a row or principal belongs to. -/
abbrev OrganizationId := String

inductive PrincipalKind where
  | user
  | serviceAccount
  deriving DecidableEq, Repr

namespace PrincipalKind

def name : PrincipalKind → String
  | .user => "user"
  | .serviceAccount => "service_account"

def variants : List (String × PrincipalKind) :=
  [("user", .user), ("service_account", .serviceAccount)]

def ofName? (s : String) : Option PrincipalKind := variants.lookup s

def read : Json.Reader PrincipalKind := Json.readVariant variants

def toJson (k : PrincipalKind) : Json := .string k.name

/-- Users come before service accounts. -/
def rank : PrincipalKind → Nat
  | .user => 0
  | .serviceAccount => 1

end PrincipalKind

structure Principal where
  organization : OrganizationId
  kind : PrincipalKind
  id : String
  deriving DecidableEq, Repr

namespace Principal

/-- Whether a row that names this id and kind refers to the principal. -/
def isNamed (p : Principal) (id : String) (kind : PrincipalKind) : Bool :=
  p.id == id && p.kind == kind

def display (p : Principal) : String := s!"{p.organization}/{p.kind.name}:{p.id}"

structure Draft where
  organization : Option OrganizationId := none
  kind : Option PrincipalKind := none
  id : Option String := none

def record : Record Json.Outline Draft where
  name := "struct PrincipalRef"
  strict := false
  fields := [
    .needed "organization_id" Json.readString Draft.organization
      fun d x => { d with organization := some x },
    .needed "principal_type" PrincipalKind.read Draft.kind fun d x => { d with kind := some x },
    .needed "id" Json.readString Draft.id fun d x => { d with id := some x }]

def read : Json.Reader Principal := fun o => do
  let d ← Json.readRecord record {} o
  let organization ← Wire.required "organization_id" d.organization
  let kind ← Wire.required "principal_type" d.kind
  let id ← Wire.required "id" d.id
  return { organization, kind, id }

def toJson (p : Principal) : Json :=
  .object [("organization_id", .string p.organization), ("principal_type", p.kind.toJson),
    ("id", .string p.id)]

end Principal

end TenantAccess
