import TenantAccess.Error

/-!
# Requests

A request asks whether a principal may perform an action on a resource. It is checked before
any grant is read: the principal first, then action and resource, then the organization that
owns the resource. Actions look like `service:verb`, and neither they nor resources may contain
the wildcard.
-/
namespace TenantAccess

open Wire (Record)

/-- An action and the resource it is to be performed on. -/
structure ResourceAction where
  action : String
  resource : String
  deriving DecidableEq, Repr

structure AccessRequest where
  principal : Principal
  action : String
  resource : String
  context : Context := {}
  /-- the organization that owns the resource, when the caller knows it -/
  resourceOrganization : Option OrganizationId := none

namespace Principal

def fault? (p : Principal) : Option RequestFault :=
  if Text.isBlank p.organization then some .blankOrganization
  else if Text.isBlank p.id then some .blankPrincipal
  else none

def validate (p : Principal) : Except AccessError Unit :=
  match p.fault? with
  | some f => .error (.invalidRequest f)
  | none => .ok ()

end Principal

namespace ResourceAction

/-- The texts before and after the first colon. -/
def splitColon : List Char → Option (List Char × List Char)
  | [] => none
  | c :: cs =>
    if c = ':' then some ([], cs)
    else (splitColon cs).map fun (before, after) => (c :: before, after)

/-- Whether the first colon separates two texts that are not blank. -/
def isWellFormed (action : String) : Bool :=
  match splitColon action.toList with
  | some (service, verb) =>
    !service.all Text.isBlankChar && !verb.all Text.isBlankChar
  | none => false

def fault? (r : ResourceAction) : Option RequestFault :=
  if r.action.toList.contains '*' || r.resource.toList.contains '*' then some .wildcard
  else if isWellFormed r.action = false then some (.malformedAction r.action)
  else if Text.isBlank r.resource then some .blankResource
  else none

def validate (r : ResourceAction) : Except AccessError Unit :=
  match r.fault? with
  | some f => .error (.invalidRequest f)
  | none => .ok ()

structure Draft where
  action : Option String := none
  resource : Option String := none

def record : Record Json.Outline Draft where
  name := "struct ResourceAction"
  strict := false
  fields := [
    .needed "action" Json.readString Draft.action fun d x => { d with action := some x },
    .needed "resource" Json.readString Draft.resource fun d x => { d with resource := some x }]

def read : Json.Reader ResourceAction := fun o => do
  let d ← Json.readRecord record {} o
  let action ← Wire.required "action" d.action
  let resource ← Wire.required "resource" d.resource
  return { action, resource }

def toJson (r : ResourceAction) : Json :=
  .object [("action", .string r.action), ("resource", .string r.resource)]

end ResourceAction

namespace AccessRequest

def target (r : AccessRequest) : ResourceAction := ⟨r.action, r.resource⟩

/-- A resource of another organization is out of reach whatever the grants say. -/
def checkOwner (r : AccessRequest) : Except AccessError Unit :=
  match r.resourceOrganization with
  | some owner =>
    if owner = r.principal.organization then .ok ()
    else .error (.organizationMismatch r.principal.organization owner)
  | none => .ok ()

def validate (r : AccessRequest) : Except AccessError Unit := do
  r.principal.validate
  r.target.validate
  r.checkOwner

end AccessRequest

end TenantAccess
