import TenantAccess.Json.Value

/-!
# Log lines

A log line has a level, a fixed text and named values. Lines of the audit trail are set apart from
those about the program itself.
-/
namespace TenantAccess

inductive LogLevel where
  | debug
  | info
  | warn
  | error
  deriving DecidableEq, Repr

def LogLevel.name : LogLevel → String
  | .debug => "DEBUG"
  | .info => "INFO"
  | .warn => "WARN"
  | .error => "ERROR"

inductive LogValue where
  | text (s : String)
  | count (n : Nat)
  | flag (b : Bool)
  deriving DecidableEq, Repr

def LogValue.toJson : LogValue → Json
  | .text s => .string s
  | .count n => .number (.integer n)
  | .flag b => .bool b

structure LogLine where
  level : LogLevel
  message : String
  fields : List (String × LogValue) := []
  /-- whether the line belongs to the audit trail -/
  audit : Bool := false
  deriving DecidableEq, Repr

end TenantAccess
