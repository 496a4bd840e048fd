import TenantAccess.Decimal.Layout

/-!
# JSON values and their text

`Json` is a complete value; the members of an object keep the order in which they were written.
`Json.text` writes a value without blanks. In strings only quotes, backslashes and controls are
escaped.
-/
namespace TenantAccess

namespace Json

/-- A number is an integer of 64 bits or a double. -/
inductive Number where
  | integer (value : Int)
  | real (value : Float)

end Json

inductive Json where
  | null
  | bool (value : Bool)
  | number (value : Json.Number)
  | string (value : String)
  | array (items : List Json)
  | object (members : List (String × Json))

namespace Json

def hexDigit (n : Nat) : Char := (Nat.digitChar n)

def escapeChar (c : Char) : List Char :=
  match c with
  | '"' => ['\\', '"']
  | '\\' => ['\\', '\\']
  | '\x08' => ['\\', 'b']
  | '\x0c' => ['\\', 'f']
  | '\n' => ['\\', 'n']
  | '\r' => ['\\', 'r']
  | '\t' => ['\\', 't']
  | c =>
    if c.toNat < 0x20 then
      ['\\', 'u', '0', '0', hexDigit (c.toNat / 16), hexDigit (c.toNat % 16)]
    else [c]

def writeString (s : String) : List Char :=
  '"' :: (s.toList.flatMap escapeChar ++ ['"'])

/-- A double that is not finite has no JSON form and is written as null. -/
def Number.write : Number → List Char
  | .integer n => (toString n).toList
  | .real x => if x.isFinite then Decimal.Layout.compact.text x else "null".toList

mutual
def write : Json → List Char
  | .null => "null".toList
  | .bool true => "true".toList
  | .bool false => "false".toList
  | .number n => n.write
  | .string s => writeString s
  | .array [] => ['[', ']']
  | .array (v :: vs) => '[' :: (write v ++ writeItems vs)
  | .object [] => ['\x7b', '\x7d']
  | .object ((k, v) :: ms) => '\x7b' :: (writeString k ++ ':' :: (write v ++ writeMembers ms))

/-- The items after the first, up to the closing bracket. -/
def writeItems : List Json → List Char
  | [] => [']']
  | v :: vs => ',' :: (write v ++ writeItems vs)

/-- The members after the first, up to the closing brace. -/
def writeMembers : List (String × Json) → List Char
  | [] => ['\x7d']
  | (k, v) :: ms => ',' :: (writeString k ++ ':' :: (write v ++ writeMembers ms))
end

def text (v : Json) : String := String.ofList v.write

end Json

end TenantAccess
