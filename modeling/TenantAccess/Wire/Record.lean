import TenantAccess.Wire.Problem

/-!
# Reading a record field by field

A record is read into a draft whose fields start out empty. The fields of the text are taken in
the order in which they are written, so the first problem of the text is the one reported.
`ν` is the type of the values in the document, `σ` the type of the draft.
-/
namespace TenantAccess.Wire

structure Field (ν σ : Type) where
  name : String
  /-- whether the draft already has the field -/
  present : σ → Bool
  read : ν → σ → Except Problem σ
  /-- whether the list form of the record may end before this field -/
  omissible : Bool

namespace Field

variable {ν σ α : Type}

/-- A field that the list form of the record must contain. -/
def needed (name : String) (read : ν → Except Problem α) (get : σ → Option α)
    (set : σ → α → σ) : Field ν σ where
  name := name
  present := fun draft => (get draft).isSome
  read := fun v draft => (read v).map (set draft)
  omissible := false

/-- A field that the list form of the record may leave out. -/
def optional (name : String) (read : ν → Except Problem α) (get : σ → Option α)
    (set : σ → α → σ) : Field ν σ :=
  { needed name read get set with omissible := true }

end Field

/-- What a record is called in messages and how its fields are read. -/
structure Record (ν σ : Type) where
  name : String
  fields : List (Field ν σ)
  /-- whether a field of another name is a problem -/
  strict : Bool

namespace Record

variable {ν σ : Type}

def field? (r : Record ν σ) (key : String) : Option (Field ν σ) :=
  r.fields.find? fun f => f.name == key

/-- Reads one named value into the draft; `skip` looks at a value nobody asked for. -/
def readMember (r : Record ν σ) (skip : ν → Except Problem Unit) (key : String) (v : ν)
    (draft : σ) : Except Problem σ :=
  match r.field? key with
  | some f => if f.present draft then .error (.duplicateField key) else f.read v draft
  | none =>
    if r.strict then .error (.unknownField key (r.fields.map Field.name))
    else (skip v).map fun _ => draft

/-- What an array too short for the record should have been. -/
def sized (r : Record ν σ) : String :=
  r.name ++ " with " ++ toString r.fields.length ++
    (if r.fields.length == 1 then " element" else " elements")

/-- Reads values in the order of the fields, `index` of which were read before. `stop` is the
problem met instead of the end of the list; the values no field was left for are returned. -/
def readList (r : Record ν σ) (stop : Option Problem) (index : Nat) :
    List (Field ν σ) → List ν → σ → Except Problem (σ × List ν)
  | [], rest, draft => .ok (draft, rest)
  | f :: fs, [], draft =>
    match stop with
    | some p => .error p
    | none =>
      if f.omissible then readList r stop (index + 1) fs [] draft
      else .error (.invalidLength index r.sized)
  | f :: fs, v :: vs, draft => do
    let draft ← f.read v draft
    readList r stop (index + 1) fs vs draft

end Record

/-- A field that must be there when the record is complete. -/
def required {α : Type} (name : String) : Option α → Except Problem α
  | some a => .ok a
  | none => .error (.missingField name)

end TenantAccess.Wire
