import TenantAccess.Condition.Value
import TenantAccess.Pattern

/-!
# Condition operators

An operator compares one listed value with the value a request brings. The built-in comparisons
are false as soon as one of the two values is not of their kind. A `Registry` finds operators by
name; further ones may be registered, also in place of a built-in one.
-/
namespace TenantAccess

variable [Pattern.Engine]

structure Operator where
  name : String
  /-- compares a listed value with the one brought by the request -/
  check : ConditionValue → ConditionValue → Bool

inductive Comparison where
  | stringEquals
  | stringNotEquals
  /-- the listed value is a wildcard pattern -/
  | stringLike
  | bool
  | numericEquals
  | numericLessThan
  | numericGreaterThan
  deriving DecidableEq, Repr

namespace Comparison

def all : List Comparison :=
  [.stringEquals, .stringNotEquals, .stringLike, .bool, .numericEquals, .numericLessThan,
    .numericGreaterThan]

def name : Comparison → String
  | .stringEquals => "StringEquals"
  | .stringNotEquals => "StringNotEquals"
  | .stringLike => "StringLike"
  | .bool => "Bool"
  | .numericEquals => "NumericEquals"
  | .numericLessThan => "NumericLessThan"
  | .numericGreaterThan => "NumericGreaterThan"

/-- Two numbers closer than this, 2⁻⁵², count as equal. -/
def tolerance : Float := Float.ofBits 0x3CB0000000000000

def both {α : Type} (a b : Option α) (holds : α → α → Bool) : Bool :=
  match a, b with
  | some x, some y => holds x y
  | _, _ => false

def check (c : Comparison) (expected actual : ConditionValue) : Bool :=
  match c with
  | .stringEquals => both expected.text? actual.text? fun x y => x == y
  | .stringNotEquals => both expected.text? actual.text? fun x y => x != y
  | .stringLike => both expected.text? actual.text? Pattern.matchesText
  | .bool => both expected.bool? actual.bool? fun x y => x == y
  | .numericEquals =>
    both expected.number? actual.number? fun x y => decide ((x - y).abs < tolerance)
  | .numericLessThan => both expected.number? actual.number? fun x y => decide (y < x)
  | .numericGreaterThan => both expected.number? actual.number? fun x y => decide (x < y)

def operator (c : Comparison) : Operator := ⟨c.name, c.check⟩

end Comparison

structure Registry where
  operators : List Operator

namespace Registry

def empty : Registry := ⟨[]⟩

/-- The operator takes the place of one with the same name. -/
def register (r : Registry) (op : Operator) : Registry :=
  ⟨op :: r.operators.filter fun o => o.name ≠ op.name⟩

def find? (r : Registry) (name : String) : Option Operator :=
  r.operators.find? fun o => o.name == name

def builtin : Registry := (Comparison.all.map Comparison.operator).foldl register empty

end Registry

end TenantAccess
