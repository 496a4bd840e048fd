import TenantAccess.Json.Scan
import TenantAccess.Wire.Record

/-!
# Reading typed data out of an outline

A reader goes through the outline in the order of the text and stops at the first problem.
Records may be written as objects or as arrays of their fields; a variant without content may be
written as its name or as an object from its name to null.
-/
namespace TenantAccess.Json

open Wire (Problem Found Field Record)

abbrev Reader (α : Type) := Outline → Except Problem α

def orFault {α : Type} : Except Fault α → Except Problem α
  | .ok a => .ok a
  | .error f => .error (.fault f)

/-- The problem that a value of another kind was expected. A scalar is read first, and its own
fault comes before the complaint; the inside of an array or object is not looked at. -/
def mismatch (expected : String) : Outline → Problem
  | .null => .invalidType .null expected
  | .bool b => .invalidType (.bool b) expected
  | .number n =>
    match n.value with
    | .ok (.integer i) => .invalidType (.integer i) expected
    | .ok (.real x) => .invalidType (.real x) expected
    | .error f => .fault f
  | .string t =>
    match t.value with
    | .ok s => .invalidType (.string s) expected
    | .error f => .fault f
  | .array _ _ => .invalidType .sequence expected
  | .object _ _ => .invalidType .map expected
  | .deep inner => mismatch expected inner
  | .broken f => .fault f

def readString : Reader String
  | .string t => orFault t.value
  | o => .error (mismatch "a string" o)

def readBool : Reader Bool
  | .bool b => .ok b
  | o => .error (mismatch "a boolean" o)

/-- A number of 64 bits without a sign, called `type` in messages. -/
def readWord (type : String) : Reader UInt64
  | .number n => do
    match ← orFault n.value with
    | .integer i =>
      if 0 ≤ i ∧ i < UInt64.size then .ok (.ofNat i.toNat)
      else .error (.invalidValue (.integer i) type)
    | .real x => .error (.invalidType (.real x) type)
  | o => .error (mismatch type o)

/-- Null stands for no value. -/
def readOptional {α : Type} (read : Reader α) : Reader (Option α)
  | .null => .ok none
  | o => (read o).map some

/-- Reads items one after the other up to the end of their list. -/
def readItems {α : Type} (read : Reader α) : List Outline → Option Fault → Except Problem (List α)
  | [], none => .ok []
  | [], some f => .error (.fault f)
  | v :: vs, stop => do
    let a ← read v
    let as ← readItems read vs stop
    return a :: as

def readList {α : Type} (read : Reader α) : Reader (List α)
  | .array items stop => readItems read items stop
  | o => .error (mismatch "a sequence" o)

/-- The key of a member. -/
def readKey : Reader String
  | .string t => orFault t.value
  | _ => .error (.fault .keyNotString)

/-- The members of an object as pairs, in the order of the text. -/
def readPairs {α : Type} (read : Reader α) :
    List (Outline × Outline) → Option Fault → Except Problem (List (String × α))
  | [], none => .ok []
  | [], some f => .error (.fault f)
  | (k, v) :: ms, stop => do
    let key ← readKey k
    let a ← read v
    let rest ← readPairs read ms stop
    return (key, a) :: rest

def readMap {α : Type} (read : Reader α) : Reader (List (String × α))
  | .object members stop => readPairs read members stop
  | o => .error (mismatch "a map" o)

/-- A part of the text that nobody asked for must still be JSON. -/
def skip : Reader Unit := fun o =>
  match o.skipped with
  | none => .ok ()
  | some f => .error (.fault f)

def readMembers {σ : Type} (r : Record Outline σ) :
    List (Outline × Outline) → Option Fault → σ → Except Problem σ
  | [], none, draft => .ok draft
  | [], some f, _ => .error (.fault f)
  | (k, v) :: ms, stop, draft => do
    let key ← readKey k
    let draft ← r.readMember skip key v draft
    readMembers r ms stop draft

/-- The fault of an array with more items than were asked for. -/
def surplus : List Outline → Option Fault → Option Fault
  | [], none => none
  | [], some .eofList => some .eofList
  | [], some .trailingListComma => some .trailingListComma
  | _, _ => some .trailingCharacters

def readRecord {σ : Type} (r : Record Outline σ) (draft : σ) : Reader σ
  | .object members stop => readMembers r members stop draft
  | .array items stop => do
    let (draft, rest) ← r.readList (stop.map .fault) 0 r.fields items draft
    match surplus rest stop with
    | none => .ok draft
    | some f => .error (.fault f)
  | o => .error (mismatch r.name o)

/-- The variant of a name among those of a type. -/
def variantNamed {α : Type} (variants : List (String × α)) (name : String) : Except Problem α :=
  match variants.lookup name with
  | some a => .ok a
  | none => .error (.unknownVariant name (variants.map Prod.fst))

def readNull : Reader Unit
  | .null => .ok ()
  | o => .error (mismatch "unit" o)

/-- A variant without content, written as its name or as an object from its name to null. What
begins like anything else is refused by its first character. -/
def readVariant {α : Type} (variants : List (String × α)) : Reader α
  | .string t => do variantNamed variants (← orFault t.value)
  | .object [] none => .error (.fault .expectedValue)
  | .object [] (some f) => .error (.fault f)
  | .object ((k, v) :: ms) stop => do
    let a ← variantNamed variants (← readKey k)
    readNull v
    match ms, stop with
    | [], none => .ok a
    | [], some .eofObject => .error (.fault .eofObject)
    | _, _ => .error (.fault .expectedValue)
  | .broken f => .error (.fault (if f.leavesNoValue then f else .expectedValue))
  | _ => .error (.fault .expectedValue)

/-- A value that may have several forms is read completely before its form is looked at. -/
def readWhole {α : Type} (type : String) (form : Json → Option α) : Reader α := fun o => do
  let v ← orFault o.value
  match form v with
  | some a => .ok a
  | none => .error (.noVariant type)

/-- Reads a whole text. -/
def readText {α : Type} (read : Reader α) (s : String) : Except Problem α := do
  let d := Document.ofText s
  let a ← read d.root
  if d.trailing then .error (.fault .trailingCharacters) else .ok a

end TenantAccess.Json
