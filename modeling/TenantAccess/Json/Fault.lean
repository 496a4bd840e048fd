/-!
# Where a JSON text goes wrong

A `Fault` says how a text stops being JSON. Several faults share their wording: they are kept
apart because a part of the text that nobody reads is checked less strictly, see
`Fault.whenSkipped`.
-/
namespace TenantAccess.Json

inductive Fault where
  /-- the text ends where a value should begin -/
  | eofValue
  /-- the text ends inside `true`, `false` or `null` -/
  | eofWord
  /-- the text ends inside a number -/
  | eofNumber
  | eofList
  | eofObject
  /-- the text ends after the comma of an object -/
  | eofMember
  | eofString
  | expectedValue
  | expectedWord
  | expectedColon
  | expectedListEnd
  | expectedObjectEnd
  | keyNotString
  | trailingListComma
  | trailingObjectComma
  | trailingCharacters
  | invalidNumber
  | numberOutOfRange
  | invalidEscape
  | invalidHexDigit
  | loneSurrogate
  | brokenSurrogatePair
  | controlCharacter
  | recursionLimit
  deriving DecidableEq, Repr

def Fault.message : Fault → String
  | .eofValue | .eofWord | .eofNumber | .eofMember => "EOF while parsing a value"
  | .eofList => "EOF while parsing a list"
  | .eofObject => "EOF while parsing an object"
  | .eofString => "EOF while parsing a string"
  | .expectedValue => "expected value"
  | .expectedWord => "expected ident"
  | .expectedColon => "expected `:`"
  | .expectedListEnd => "expected `,` or `]`"
  | .expectedObjectEnd => "expected `,` or `\x7d`"
  | .keyNotString => "key must be a string"
  | .trailingListComma | .trailingObjectComma => "trailing comma"
  | .trailingCharacters => "trailing characters"
  | .invalidNumber => "invalid number"
  | .numberOutOfRange => "number out of range"
  | .invalidEscape | .invalidHexDigit => "invalid escape"
  | .loneSurrogate => "lone leading surrogate in hex escape"
  | .brokenSurrogatePair => "unexpected end of hex escape"
  | .controlCharacter =>
    "control character (\\u0000-\\u001F) found while parsing a string"
  | .recursionLimit => "recursion limit exceeded"

/-- Whether nothing of a value stands at the place of the fault. -/
def Fault.leavesNoValue : Fault → Bool
  | .eofValue | .eofObject | .expectedColon => true
  | _ => false

/-- The fault reported for a member that is skipped unread: a comma before a closing bracket is
then seen as a missing value or key. -/
def Fault.whenSkipped : Fault → Fault
  | .eofNumber => .invalidNumber
  | .eofMember => .eofObject
  | .trailingListComma => .expectedValue
  | .trailingObjectComma => .keyNotString
  | f => f

end TenantAccess.Json
