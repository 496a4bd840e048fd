import TenantAccess.Decimal.Numeric
import TenantAccess.Json.Read

/-!
# Values compared by conditions

A request brings values for named keys, and a condition lists the values it accepts. Text that
spells a number or a truth value can stand for it.
-/
namespace TenantAccess

inductive ConditionValue where
  | bool (value : Bool)
  | number (value : Float)
  | string (value : String)

namespace ConditionValue

def text? : ConditionValue → Option String
  | .string s => some s
  | _ => none

def number? : ConditionValue → Option Float
  | .number x => some x
  | .string s => Decimal.number? s
  | .bool _ => none

def bool? : ConditionValue → Option Bool
  | .bool b => some b
  | .string s => if s = "true" then some true else if s = "false" then some false else none
  | .number _ => none

/-- The double nearest to an integer. -/
def ofInteger (n : Int) : ConditionValue :=
  .number (Decimal.signed (n < 0) (Decimal.nearest n.natAbs 0))

def ofJson? : Json → Option ConditionValue
  | .bool b => some (.bool b)
  | .number (.integer n) => some (ofInteger n)
  | .number (.real x) => some (.number x)
  | .string s => some (.string s)
  | _ => none

def toJson : ConditionValue → Json
  | .bool b => .bool b
  | .number x => .number (.real x)
  | .string s => .string s

def read : Json.Reader ConditionValue := Json.readWhole "ConditionValue" ofJson?

end ConditionValue

end TenantAccess
