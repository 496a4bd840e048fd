import TenantAccess.Condition
import TenantAccess.Evaluation

/-!
# Policy documents as written

A policy has a version and a list of statements. A statement allows or denies actions on
resources, both given by patterns, possibly under a condition. Unknown fields are refused. The
written form of a policy reads back as the same policy.
-/
namespace TenantAccess

open Wire (Problem Field Record)

structure Statement where
  sid : Option String := none
  effect : Effect
  action : Listing String
  resource : Listing String
  condition : Option ConditionBlock := none

structure Policy where
  version : String
  statements : List Statement

namespace Statement

def stringItem : Json → Option String
  | .string s => some s
  | _ => none

def readPatterns : Json.Reader (Listing String) := Listing.read stringItem

/-- A statement of which some fields were read. -/
structure Draft where
  sid : Option (Option String) := none
  effect : Option Effect := none
  action : Option (Listing String) := none
  resource : Option (Listing String) := none
  condition : Option (Option ConditionBlock) := none

def record : Record Json.Outline Draft where
  name := "struct Statement"
  strict := true
  fields := [
    .optional "Sid" (Json.readOptional Json.readString) Draft.sid
      fun d x => { d with sid := some x },
    .needed "Effect" Effect.read Draft.effect fun d x => { d with effect := some x },
    .needed "Action" readPatterns Draft.action fun d x => { d with action := some x },
    .needed "Resource" readPatterns Draft.resource fun d x => { d with resource := some x },
    .optional "Condition" (Json.readOptional ConditionBlock.read) Draft.condition
      fun d x => { d with condition := some x }]

def read : Json.Reader Statement := fun o => do
  let d ← Json.readRecord record {} o
  let effect ← Wire.required "Effect" d.effect
  let action ← Wire.required "Action" d.action
  let resource ← Wire.required "Resource" d.resource
  return { sid := d.sid.join, effect, action, resource, condition := d.condition.join }

def toJson (s : Statement) : Json :=
  .object
    ((match s.sid with
      | some sid => [("Sid", .string sid)]
      | none => []) ++
    [("Effect", s.effect.toJson), ("Action", s.action.toJson .string),
      ("Resource", s.resource.toJson .string)] ++
    (match s.condition with
      | some block => [("Condition", block.toJson)]
      | none => []))

end Statement

namespace Policy

structure Draft where
  version : Option String := none
  statements : Option (List Statement) := none

def record : Record Json.Outline Draft where
  name := "struct Policy"
  strict := true
  fields := [
    .needed "Version" Json.readString Draft.version fun d x => { d with version := some x },
    .needed "Statement" (Json.readList Statement.read) Draft.statements
      fun d x => { d with statements := some x }]

def read : Json.Reader Policy := fun o => do
  let d ← Json.readRecord record {} o
  let version ← Wire.required "Version" d.version
  let statements ← Wire.required "Statement" d.statements
  return { version, statements }

def toJson (p : Policy) : Json :=
  .object [("Version", .string p.version), ("Statement", .array (p.statements.map Statement.toJson))]

def ofText (s : String) : Except Problem Policy := Json.readText read s

def toText (p : Policy) : String := p.toJson.text

/-- The version a new policy declares. -/
def currentVersion : String := "2012-10-17"

def empty : Policy := ⟨currentVersion, []⟩

end Policy

end TenantAccess
