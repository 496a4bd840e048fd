import TenantAccess.Json.Read

/-!
# One value or a list of values

Where several values are allowed, a single one may be written without brackets. Which of the two
forms was used is kept, so that a document is written again as it was read.
-/
namespace TenantAccess

inductive Listing (α : Type) where
  | one (value : α)
  | many (values : List α)
  deriving DecidableEq, Repr

namespace Listing

variable {α : Type}

def toList : Listing α → List α
  | .one a => [a]
  | .many as => as

def isOne : Listing α → Bool
  | .one _ => true
  | .many _ => false

def isEmpty (l : Listing α) : Bool := l.toList.isEmpty

def ofJson? (item : Json → Option α) (v : Json) : Option (Listing α) :=
  match item v with
  | some a => some (.one a)
  | none =>
    match v with
    | .array vs => (vs.mapM item).map .many
    | _ => none

def toJson (item : α → Json) : Listing α → Json
  | .one a => item a
  | .many as => .array (as.map item)

def read (item : Json → Option α) : Json.Reader (Listing α) :=
  Json.readWhole "OneOrMany" (ofJson? item)

end Listing

end TenantAccess
