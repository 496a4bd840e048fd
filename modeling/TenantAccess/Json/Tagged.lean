import TenantAccess.Json.Read

/-!
# Records that name their own variant

Some records carry their variant in a field, the tag, which may stand anywhere among the others.
So the record is read completely, apart from the tag, before its variant decides what the other
fields mean. As an array the record begins with the tag.
-/
namespace TenantAccess.Json

open Wire (Problem Found Record)

def foundValue : Json → Found
  | .null => .null
  | .bool b => .bool b
  | .number (.integer i) => .integer i
  | .number (.real x) => .real x
  | .string s => .string s
  | .array _ => .sequence
  | .object _ => .map

def stringValue : Json → Except Problem String
  | .string s => .ok s
  | v => .error (.invalidType (foundValue v) "a string")

def optionalValue {α : Type} (read : Json → Except Problem α) : Json → Except Problem (Option α)
  | .null => .ok none
  | v => (read v).map some

/-- Null, or an empty object. -/
def unitValue : Json → Except Problem Unit
  | .null => .ok ()
  | .object [] => .ok ()
  | v => .error (.invalidType (foundValue v) "unit")

/-- A variant without content, in a value already read. -/
def variantValue {α : Type} (variants : List (String × α)) : Json → Except Problem α
  | .string s => variantNamed variants s
  | .object [(name, v)] => do
    let a ← variantNamed variants name
    unitValue v
    return a
  | .object _ => .error (.invalidValue .map "map with a single key")
  | v => .error (.invalidType (foundValue v) "string or map")

/-- What a list with too many items should have been. -/
def inSequence (n : Nat) : String :=
  toString n ++ (if n == 1 then " element in sequence" else " elements in sequence")

def memberValuesInto {σ : Type} (r : Record Json σ) :
    List (String × Json) → σ → Except Problem σ
  | [], draft => .ok draft
  | (k, v) :: ms, draft => do
    let draft ← r.readMember (fun _ => .ok ()) k v draft
    memberValuesInto r ms draft

/-- The fields of a variant, in a value already read. -/
def recordValue {σ : Type} (r : Record Json σ) (draft : σ) : Json → Except Problem σ
  | .object members => memberValuesInto r members draft
  | .array items => do
    let (draft, rest) ← r.readList none 0 r.fields items draft
    if rest.isEmpty then .ok draft
    else .error (.invalidLength items.length (inSequence (items.length - rest.length)))
  | v => .error (.invalidType (foundValue v) r.name)

/-- A variant without fields of its own ignores those that are there. -/
def emptyRecordValue : Json → Except Problem Unit
  | .array (v :: vs) => .error (.invalidLength (v :: vs).length (inSequence 0))
  | _ => .ok ()

def readTag {α : Type} (variants : List (String × α)) : Reader α
  | .string t => do variantNamed variants (← orFault t.value)
  | o => .error (mismatch "variant identifier" o)

def readTaggedMembers {α : Type} (tag : String) (variants : List (String × α)) :
    List (Outline × Outline) → Option Fault → Option α → List (String × Json) →
      Except Problem (α × Json)
  | [], some f, _, _ => .error (.fault f)
  | [], none, none, _ => .error (.missingField tag)
  | [], none, some a, others => .ok (a, .object others.reverse)
  | (k, v) :: ms, stop, found, others => do
    let key ← readKey k
    if key = tag then
      if found.isSome then .error (.duplicateField tag)
      else
        let a ← readTag variants v
        readTaggedMembers tag variants ms stop (some a) others
    else
      let x ← orFault v.value
      readTaggedMembers tag variants ms stop found ((key, x) :: others)

/-- The variant of a record and its other fields. -/
def readTagged {α : Type} (type tag : String) (variants : List (String × α)) :
    Reader (α × Json)
  | .object members stop => readTaggedMembers tag variants members stop none []
  | .array [] (some f) => .error (.fault f)
  | .array [] none => .error (.missingField tag)
  | .array (v :: vs) stop => do
    let a ← readTag variants v
    let rest ← orFault (Outline.array vs stop).value
    return (a, rest)
  | o => .error (mismatch type o)

end TenantAccess.Json
