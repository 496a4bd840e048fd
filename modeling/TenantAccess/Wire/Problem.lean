import TenantAccess.Decimal.Layout
import TenantAccess.Json.Fault
import TenantAccess.Text.Quoted

/-!
# What can be wrong with written data

A `Problem` is the first thing that keeps a document from being read as the expected data: a
fault of the text itself, or a field or value that does not fit. Its message depends on the
document format only in how a double is shown.
-/
namespace TenantAccess.Wire

/-- The kind of value that stood where another was expected. -/
inductive Found where
  | null
  | bool (value : Bool)
  | integer (value : Int)
  | real (value : Float)
  | string (value : String)
  | sequence
  | map

inductive Problem where
  | fault (f : Json.Fault)
  | missingField (name : String)
  | unknownField (name : String) (known : List String)
  | duplicateField (name : String)
  | unknownVariant (name : String) (known : List String)
  | invalidType (found : Found) (expected : String)
  | invalidValue (found : Found) (expected : String)
  | invalidLength (length : Nat) (expected : String)
  /-- no form of a type that may be written in several forms fits -/
  | noVariant (type : String)
  /-- a remark that names neither field nor value -/
  | remark (text : String)

def ticked (s : String) : String := "`" ++ s ++ "`"

/-- The names a field or variant may have. -/
def alternatives : List String → String
  | [a] => ticked a
  | [a, b] => ticked a ++ " or " ++ ticked b
  | names => "one of " ++ ", ".intercalate (names.map ticked)

def Found.describe (layout : Decimal.Layout) : Found → String
  | .null => "null"
  | .bool b => "boolean " ++ ticked (toString b)
  | .integer n => "integer " ++ ticked (toString n)
  | .real x => "floating point " ++ ticked (String.ofList (layout.text x))
  | .string s => "string " ++ Text.quoted s
  | .sequence => "sequence"
  | .map => "map"

def Problem.message (layout : Decimal.Layout) : Problem → String
  | .fault f => f.message
  | .missingField name => "missing field " ++ ticked name
  | .unknownField name known =>
    "unknown field " ++ ticked name ++ ", expected " ++ alternatives known
  | .duplicateField name => "duplicate field " ++ ticked name
  | .unknownVariant name known =>
    "unknown variant " ++ ticked name ++ ", expected " ++ alternatives known
  | .invalidType found expected =>
    "invalid type: " ++ found.describe layout ++ ", expected " ++ expected
  | .invalidValue found expected =>
    "invalid value: " ++ found.describe layout ++ ", expected " ++ expected
  | .invalidLength length expected =>
    "invalid length " ++ toString length ++ ", expected " ++ expected
  | .noVariant type => "data did not match any variant of untagged enum " ++ type
  | .remark text => text

end TenantAccess.Wire
