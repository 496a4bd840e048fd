import TenantAccess.Evaluation
import TenantAccess.Json.Tagged
import TenantAccess.Share

/-!
# Decisions

A decision allows or denies a request and names the grant that decided it. The reason is meant
for audit records and operators; callers see only the public message.
-/
namespace TenantAccess

open Wire (Record)

inductive DecisionReason where
  | explicitPolicyDeny (policyId : String) (sid : Option String)
  | resourcePermissionDeny (permissionId : String)
  | policyAllow (policyId : String) (sid : Option String)
  | resourcePermissionAllow (permissionId : String)
  | shareAllow (shareId : String) (level : AccessLevel)
  /-- no applicable grant allowed the action -/
  | defaultDeny
  deriving DecidableEq, Repr

structure Decision where
  effect : Effect
  reason : DecisionReason
  deriving DecidableEq, Repr

namespace DecisionReason

/-- A policy and the statement in it, when the statement has a name. -/
def policyLabel (policyId : String) : Option String → String
  | some sid => s!"{policyId}/{sid}"
  | none => policyId

def display : DecisionReason → String
  | .explicitPolicyDeny id sid => s!"explicit policy deny ({policyLabel id sid})"
  | .resourcePermissionDeny id => s!"resource permission deny ({id})"
  | .policyAllow id sid => s!"policy allow ({policyLabel id sid})"
  | .resourcePermissionAllow id => s!"resource permission allow ({id})"
  | .shareAllow id level => s!"{level.name} share ({id})"
  | .defaultDeny => "default deny"

/-- The kinds of reasons, as they are tagged when written. -/
inductive Kind where
  | explicitPolicyDeny
  | resourcePermissionDeny
  | policyAllow
  | resourcePermissionAllow
  | shareAllow
  | defaultDeny
  deriving DecidableEq, Repr

def Kind.variants : List (String × Kind) := [
  ("explicit_policy_deny", .explicitPolicyDeny),
  ("resource_permission_deny", .resourcePermissionDeny),
  ("policy_allow", .policyAllow),
  ("resource_permission_allow", .resourcePermissionAllow),
  ("share_allow", .shareAllow),
  ("default_deny", .defaultDeny)]

/-- The fields of a reason that were read. -/
structure Draft where
  id : Option String := none
  sid : Option (Option String) := none
  level : Option AccessLevel := none

def variantName (name : String) : String := "struct variant DecisionReason::" ++ name

def policyRecord (name : String) : Record Json Draft where
  name := variantName name
  strict := false
  fields := [
    .needed "policy_id" Json.stringValue Draft.id fun d x => { d with id := some x },
    .needed "sid" (Json.optionalValue Json.stringValue) Draft.sid
      fun d x => { d with sid := some x }]

def permissionRecord (name : String) : Record Json Draft where
  name := variantName name
  strict := false
  fields := [
    .needed "permission_id" Json.stringValue Draft.id fun d x => { d with id := some x }]

def shareRecord : Record Json Draft where
  name := variantName "ShareAllow"
  strict := false
  fields := [
    .needed "share_id" Json.stringValue Draft.id fun d x => { d with id := some x },
    .needed "access_level" (Json.variantValue AccessLevel.variants) Draft.level
      fun d x => { d with level := some x }]

/-- The policy and statement named by the fields. -/
def readPolicy (name : String) (fields : Json) :
    Except Wire.Problem (String × Option String) := do
  let d ← Json.recordValue (policyRecord name) {} fields
  let id ← Wire.required "policy_id" d.id
  return (id, d.sid.join)

def readPermission (name : String) (fields : Json) : Except Wire.Problem String := do
  let d ← Json.recordValue (permissionRecord name) {} fields
  Wire.required "permission_id" d.id

def ofFields (fields : Json) : Kind → Except Wire.Problem DecisionReason
  | .explicitPolicyDeny => do
    let (id, sid) ← readPolicy "ExplicitPolicyDeny" fields
    return .explicitPolicyDeny id sid
  | .resourcePermissionDeny => do
    let id ← readPermission "ResourcePermissionDeny" fields
    return .resourcePermissionDeny id
  | .policyAllow => do
    let (id, sid) ← readPolicy "PolicyAllow" fields
    return .policyAllow id sid
  | .resourcePermissionAllow => do
    let id ← readPermission "ResourcePermissionAllow" fields
    return .resourcePermissionAllow id
  | .shareAllow => do
    let d ← Json.recordValue shareRecord {} fields
    let id ← Wire.required "share_id" d.id
    let level ← Wire.required "access_level" d.level
    return .shareAllow id level
  | .defaultDeny => do
    Json.emptyRecordValue fields
    return .defaultDeny

def read : Json.Reader DecisionReason := fun o => do
  let (kind, fields) ←
    Json.readTagged "internally tagged enum DecisionReason" "kind" Kind.variants o
  ofFields fields kind

def sidJson : Option String → Json
  | some sid => .string sid
  | none => .null

def tagged (kind : String) (fields : List (String × Json)) : Json :=
  .object (("kind", .string kind) :: fields)

def toJson : DecisionReason → Json
  | .explicitPolicyDeny id sid =>
    tagged "explicit_policy_deny" [("policy_id", .string id), ("sid", sidJson sid)]
  | .resourcePermissionDeny id =>
    tagged "resource_permission_deny" [("permission_id", .string id)]
  | .policyAllow id sid => tagged "policy_allow" [("policy_id", .string id), ("sid", sidJson sid)]
  | .resourcePermissionAllow id =>
    tagged "resource_permission_allow" [("permission_id", .string id)]
  | .shareAllow id level =>
    tagged "share_allow" [("share_id", .string id), ("access_level", level.toJson)]
  | .defaultDeny => tagged "default_deny" []

end DecisionReason

namespace Decision

def allow (reason : DecisionReason) : Decision := ⟨.allow, reason⟩

def deny (reason : DecisionReason) : Decision := ⟨.deny, reason⟩

def defaultDeny : Decision := deny .defaultDeny

def isAllowed (d : Decision) : Bool := d.effect == .allow

def isDenied (d : Decision) : Bool := d.effect == .deny

def publicMessage (d : Decision) : String :=
  match d.effect with
  | .allow => "allowed"
  | .deny => "forbidden"

structure Draft where
  effect : Option Effect := none
  reason : Option DecisionReason := none

def record : Record Json.Outline Draft where
  name := "struct Decision"
  strict := false
  fields := [
    .needed "effect" Effect.read Draft.effect fun d x => { d with effect := some x },
    .needed "reason" DecisionReason.read Draft.reason fun d x => { d with reason := some x }]

def read : Json.Reader Decision := fun o => do
  let d ← Json.readRecord record {} o
  let effect ← Wire.required "effect" d.effect
  let reason ← Wire.required "reason" d.reason
  return { effect, reason }

def toJson (d : Decision) : Json :=
  .object [("effect", d.effect.toJson), ("reason", d.reason.toJson)]

end Decision

end TenantAccess
