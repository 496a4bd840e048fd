import TenantAccess.Json.Read

/-!
# Effects and evaluations

A grant allows or denies. Evaluating several grants gives the strongest of their evaluations:
a denial beats an allowance, and an allowance beats not being applicable.
-/
namespace TenantAccess

inductive Effect where
  | allow
  | deny
  deriving DecidableEq, Repr

namespace Effect

def variants : List (String × Effect) := [("Allow", .allow), ("Deny", .deny)]

def name : Effect → String
  | .allow => "Allow"
  | .deny => "Deny"

def read : Json.Reader Effect := Json.readVariant variants

def toJson (e : Effect) : Json := .string e.name

end Effect

inductive Evaluation where
  | notApplicable
  | allow
  | deny
  deriving DecidableEq, Repr

namespace Evaluation

instance : Inhabited Evaluation := ⟨.notApplicable⟩

def ofEffect : Effect → Evaluation
  | .allow => .allow
  | .deny => .deny

def rank : Evaluation → Nat
  | .notApplicable => 0
  | .allow => 1
  | .deny => 2

/-- The stronger of two evaluations. -/
def combine (a b : Evaluation) : Evaluation := if a.rank < b.rank then b else a

def isDeny (e : Evaluation) : Bool := e == .deny

def name : Evaluation → String
  | .notApplicable => "NotApplicable"
  | .allow => "Allow"
  | .deny => "Deny"

end Evaluation

end TenantAccess
