import TenantAccess.Condition.Operator
import TenantAccess.Keyed
import TenantAccess.Listing
import TenantAccess.Table

/-!
# Conditions

A condition block names operators, under each operator the keys it looks at, and for each key
the values it accepts. The condition holds in a request's context when every key of every
operator is present there and passes the operator for at least one accepted value.

Unknown operators, operators without keys and keys without values are refused, so a slip in a
block cannot make it weaker than intended.
-/
namespace TenantAccess

/-- The values a request brings for named keys. -/
abbrev Context := Table String ConditionValue

/-- A condition as written: operators, keys and accepted values. -/
abbrev ConditionBlock := Keyed (Keyed (Listing ConditionValue))

namespace ConditionBlock

def read : Json.Reader ConditionBlock := fun o => do
  let operators ← Json.readMap
    (fun keys => (Json.readMap (Listing.read ConditionValue.ofJson?) keys).map Keyed.ofList) o
  return Keyed.ofList operators

def toJson (b : ConditionBlock) : Json :=
  .object (b.entries.map fun (name, keys) =>
    (name, .object (keys.entries.map fun (key, values) =>
      (key, values.toJson ConditionValue.toJson))))

end ConditionBlock

/-- Why a condition block is refused. -/
inductive ConditionError where
  | unknownOperator (name : String)
  | noKeys (operator : String)
  | noValues (operator key : String)
  deriving DecidableEq, Repr

def ConditionError.message : ConditionError → String
  | .unknownOperator name => s!"unknown condition operator {name}"
  | .noKeys operator => s!"condition operator {operator} has no keys"
  | .noValues operator key => s!"condition {operator} on key {key} has no values"

/-- One operator applied to one key. -/
structure Clause where
  operator : Operator
  key : String
  expected : List ConditionValue

def Clause.holds (c : Clause) (context : Context) : Bool :=
  match context.get? c.key with
  | some actual => c.expected.any fun e => c.operator.check e actual
  | none => false

structure Condition where
  clauses : List Clause

namespace Condition

/-- The clauses of one operator, one for each key. -/
def compileKeys (operator : Operator) :
    List (String × Listing ConditionValue) → Except ConditionError (List Clause)
  | [] => .ok []
  | (key, values) :: rest =>
    if values.isEmpty then .error (.noValues operator.name key)
    else (compileKeys operator rest).map (⟨operator, key, values.toList⟩ :: ·)

/-- Operators and keys are taken in ascending order, and the first problem is reported. -/
def compileOperators (registry : Registry) :
    List (String × Keyed (Listing ConditionValue)) → Except ConditionError (List Clause)
  | [] => .ok []
  | (name, keys) :: rest =>
    match registry.find? name with
    | none => .error (.unknownOperator name)
    | some operator =>
      if keys.isEmpty then .error (.noKeys name)
      else do
        let clauses ← compileKeys operator keys.entries
        let others ← compileOperators registry rest
        return clauses ++ others

def compile (block : ConditionBlock) (registry : Registry) : Except ConditionError Condition :=
  (compileOperators registry block.entries).map Condition.mk

def holds (c : Condition) (context : Context) : Bool :=
  c.clauses.all fun clause => clause.holds context

def isEmpty (c : Condition) : Bool := c.clauses.isEmpty

end Condition

end TenantAccess
