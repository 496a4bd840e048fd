import TenantAccess.Json.Numeral

/-!
# A JSON text as far as it goes

Reading a text never fails: it gives an `Outline`, whose last leaf says where the text stops
being JSON, if it does. So a reader of typed data can go through the outline in the order of the
text and report whichever comes first, a fault of the text or a value of the wrong kind.
Numerals and strings are kept as written, because a part that is skipped need not have a value.
-/
namespace TenantAccess.Json

/-- One item of a string: a character, or a 16-bit unit given by its number. -/
inductive Piece where
  | char (c : Char)
  | unit (value : Nat)
  deriving DecidableEq, Repr

/-- A string as written, up to its closing quote or to the fault that ends it. -/
structure Text where
  pieces : List Piece
  fault : Option Fault
  deriving DecidableEq, Repr

def isLeading (u : Nat) : Bool := 0xD800 ≤ u && u ≤ 0xDBFF

def isTrailing (u : Nat) : Bool := 0xDC00 ≤ u && u ≤ 0xDFFF

/-- The fault found after a leading surrogate when the pieces end there. -/
def faultAfterLeading : Option Fault → Fault
  | some .eofString => .eofString
  | some .invalidHexDigit => .invalidHexDigit
  | _ => .brokenSurrogatePair

/-- The characters of a string; 16-bit units must pair up. -/
def decodePieces (fault : Option Fault) : List Piece → Except Fault (List Char)
  | [] => match fault with
    | none => .ok []
    | some f => .error f
  | .char c :: ps => (decodePieces fault ps).map (c :: ·)
  | .unit u :: ps =>
    if isTrailing u then .error .loneSurrogate
    else if isLeading u then
      match ps with
      | .unit v :: qs =>
        if isTrailing v then
          (decodePieces fault qs).map
            (Char.ofNat ((u - 0xD800) * 0x400 + (v - 0xDC00) + 0x10000) :: ·)
        else .error .loneSurrogate
      | .char _ :: _ => .error .brokenSurrogatePair
      | [] => .error (faultAfterLeading fault)
    else (decodePieces fault ps).map (Char.ofNat u :: ·)

def Text.value (t : Text) : Except Fault String :=
  (decodePieces t.fault t.pieces).map String.ofList

inductive Outline where
  | null
  | bool (value : Bool)
  | number (numeral : Numeral)
  | string (text : Text)
  /-- the items read, and the fault met instead of a closing bracket -/
  | array (items : List Outline) (stop : Option Fault)
  /-- the members read, and the fault met instead of a closing brace; only a first member may
  have a key that is no string -/
  | object (members : List (Outline × Outline)) (stop : Option Fault)
  /-- an array or object beyond the deepest nesting that is read -/
  | deep (inner : Outline)
  | broken (fault : Fault)

/-- The first of two faults in the order of the text. -/
def firstFault (a b : Option Fault) : Option Fault :=
  match a with
  | some f => some f
  | none => b

namespace Outline

mutual
/-- The fault in a part of the text that is skipped unread. -/
def skipped : Outline → Option Fault
  | .string t => t.fault
  | .array items stop => firstFault (skippedItems items) (stop.map Fault.whenSkipped)
  | .object members stop => firstFault (skippedMembers members) (stop.map Fault.whenSkipped)
  | .deep inner => skipped inner
  | .broken f => some f.whenSkipped
  | _ => none

def skippedItems : List Outline → Option Fault
  | [] => none
  | v :: vs => firstFault (skipped v) (skippedItems vs)

def skippedMembers : List (Outline × Outline) → Option Fault
  | [] => none
  | (k, v) :: ms =>
    firstFault
      (match k with
        | .string t => t.fault
        | _ => some .keyNotString)
      (firstFault (skipped v) (skippedMembers ms))
end

mutual
/-- The complete value of a part of the text, or its first fault. -/
def value : Outline → Except Fault Json
  | .null => .ok .null
  | .bool b => .ok (.bool b)
  | .number n => n.value.map .number
  | .string t => t.value.map .string
  | .array items stop => do
    let vs ← itemValues items
    match stop with
    | none => .ok (.array vs)
    | some f => .error f
  | .object members stop => do
    let ms ← memberValues members
    match stop with
    | none => .ok (.object ms)
    | some f => .error f
  | .deep _ => .error .recursionLimit
  | .broken f => .error f

def itemValues : List Outline → Except Fault (List Json)
  | [] => .ok []
  | v :: vs => do
    let x ← value v
    let xs ← itemValues vs
    return x :: xs

def memberValues : List (Outline × Outline) → Except Fault (List (String × Json))
  | [] => .ok []
  | (k, v) :: ms => do
    let key ← match k with
      | .string t => t.value
      | _ => .error .keyNotString
    let x ← value v
    let xs ← memberValues ms
    return (key, x) :: xs
end

end Outline

end TenantAccess.Json
