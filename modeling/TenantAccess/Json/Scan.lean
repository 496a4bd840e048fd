import TenantAccess.Json.Outline

/-!
# From text to outline

Each `scan` function takes the characters from one place on and gives what it read together with
the characters after it, or with none when the text is faulty there. `Document.ofText` scans a
whole text; `maxNesting` arrays and objects may contain each other.
-/
namespace TenantAccess.Json

/-- What was read, and the text after it unless reading ended at a fault. -/
abbrev Scanned (α : Type) := α × Option (List Char)

def isSpace (c : Char) : Bool := c == ' ' || c == '\n' || c == '\t' || c == '\r'

def skipSpace (cs : List Char) : List Char := cs.dropWhile isSpace

def hexValue? (c : Char) : Option Nat :=
  if '0' ≤ c ∧ c ≤ '9' then some (c.toNat - '0'.toNat)
  else if 'a' ≤ c ∧ c ≤ 'f' then some (c.toNat - 'a'.toNat + 10)
  else if 'A' ≤ c ∧ c ≤ 'F' then some (c.toNat - 'A'.toNat + 10)
  else none

def hexUnit? (a b c d : Char) : Option Nat := do
  let w ← hexValue? a
  let x ← hexValue? b
  let y ← hexValue? c
  let z ← hexValue? d
  return ((w * 16 + x) * 16 + y) * 16 + z

/-- The character that a backslash and one letter stand for. -/
def shortEscape? (c : Char) : Option Char :=
  match c with
  | '"' => some '"'
  | '\\' => some '\\'
  | '/' => some '/'
  | 'b' => some '\x08'
  | 'f' => some '\x0c'
  | 'n' => some '\n'
  | 'r' => some '\r'
  | 't' => some '\t'
  | _ => none

/-- The fault of a hexadecimal escape with fewer than four characters after it: four bytes of
text must be left for its digits to be looked at. -/
def shortHexFault (cs : List Char) : Fault :=
  if cs.foldl (fun n c => n + c.utf8Size) 0 < 4 then .eofString else .invalidHexDigit

def Piece.before (p : Piece) (s : Scanned Text) : Scanned Text :=
  (⟨p :: s.1.pieces, s.1.fault⟩, s.2)

def faultyText (f : Fault) : Scanned Text := (⟨[], some f⟩, none)

/-- The rest of a string after its opening quote. -/
def scanText : List Char → Scanned Text
  | [] => faultyText .eofString
  | c :: cs =>
    if c = '"' then (⟨[], none⟩, some cs)
    else if c = '\\' then
      match cs with
      | [] => faultyText .eofString
      | e :: r =>
        if e = 'u' then
          match r with
          | a :: b :: c :: d :: r =>
            match hexUnit? a b c d with
            | some u => (Piece.unit u).before (scanText r)
            | none => faultyText .invalidHexDigit
          | r => faultyText (shortHexFault r)
        else
          match shortEscape? e with
          | some x => (Piece.char x).before (scanText r)
          | none => faultyText .invalidEscape
    else if c.toNat < 0x20 then faultyText .controlCharacter
    else (Piece.char c).before (scanText cs)

def brokenAt (f : Fault) : Scanned Outline := (.broken f, none)

/-- The letters of a word, one by one. -/
def scanWord (meaning : Outline) : List Char → List Char → Scanned Outline
  | [], cs => (meaning, some cs)
  | _ :: _, [] => brokenAt .eofWord
  | w :: ws, c :: cs => if c = w then scanWord meaning ws cs else brokenAt .expectedWord

/-- The whole part of a number: a lone zero, or digits that begin with another one. -/
def scanWhole : List Char → Except Fault (List Char × List Char)
  | [] => .error .eofNumber
  | c :: cs =>
    if c = '0' then
      if cs.head?.any Decimal.isDigit then .error .invalidNumber else .ok (['0'], cs)
    else if Decimal.isDigit c then
      .ok (c :: cs.takeWhile Decimal.isDigit, cs.dropWhile Decimal.isDigit)
    else .error .invalidNumber

/-- At least one digit. -/
def scanDigits (cs : List Char) : Except Fault (List Char × List Char) :=
  match cs with
  | [] => .error .eofNumber
  | c :: _ =>
    if Decimal.isDigit c then .ok (cs.takeWhile Decimal.isDigit, cs.dropWhile Decimal.isDigit)
    else .error .invalidNumber

def scanFraction : List Char → Except Fault (List Char × List Char)
  | '.' :: cs => scanDigits cs
  | cs => .ok ([], cs)

def scanExponent : List Char → Except Fault (Option (Bool × List Char) × List Char)
  | [] => .ok (none, [])
  | c :: cs =>
    if c = 'e' ∨ c = 'E' then do
      let (negative, r) := Decimal.takeSign cs
      let (digits, r) ← scanDigits r
      return (some (negative, digits), r)
    else .ok (none, c :: cs)

def scanNumeral (negative : Bool) (cs : List Char) : Except Fault (Numeral × List Char) := do
  let (whole, cs) ← scanWhole cs
  let (fraction, cs) ← scanFraction cs
  let (exponent, cs) ← scanExponent cs
  return (⟨negative, whole, fraction, exponent⟩, cs)

def scanNumber (negative : Bool) (cs : List Char) : Scanned Outline :=
  match scanNumeral negative cs with
  | .ok (n, r) => (.number n, some r)
  | .error f => brokenAt f

/-- Arrays and objects that may contain each other. -/
def maxNesting : Nat := 127

/-- Marks an array or object for which no nesting is left. -/
def limited (room : Nat) (v : Outline) : Outline := if room = 0 then .deep v else v

mutual
/-- The value that begins here. `room` is the nesting left, `fuel` bounds the characters. -/
def scanValue (fuel room : Nat) (cs : List Char) : Scanned Outline :=
  match fuel with
  | 0 => brokenAt .eofValue
  | fuel + 1 =>
    match skipSpace cs with
    | [] => brokenAt .eofValue
    | c :: r =>
      if c = 'n' then scanWord .null "ull".toList r
      else if c = 't' then scanWord (.bool true) "rue".toList r
      else if c = 'f' then scanWord (.bool false) "alse".toList r
      else if c = '"' then
        let (t, rest) := scanText r
        (.string t, rest)
      else if c = '[' then
        let ((items, stop), rest) := scanItems fuel (room - 1) true r
        (limited room (.array items stop), rest)
      else if c = '\x7b' then
        let ((members, stop), rest) := scanMembers fuel (room - 1) true r
        (limited room (.object members stop), rest)
      else if c = '-' then scanNumber true r
      else if Decimal.isDigit c then scanNumber false (c :: r)
      else brokenAt .expectedValue

/-- The items of an array up to its bracket; `first` says that no item was read yet. -/
def scanItems (fuel room : Nat) (first : Bool) (cs : List Char) :
    Scanned (List Outline × Option Fault) :=
  match fuel with
  | 0 => (([], some .eofList), none)
  | fuel + 1 =>
    match skipSpace cs with
    | [] => (([], some .eofList), none)
    | c :: r =>
      if c = ']' then (([], none), some r)
      else if first then scanItem fuel room (c :: r)
      else if c = ',' then
        match skipSpace r with
        | [] => (([], some .eofValue), none)
        | ']' :: _ => (([], some .trailingListComma), none)
        | r => scanItem fuel room r
      else (([], some .expectedListEnd), none)

/-- One item and those after it. -/
def scanItem (fuel room : Nat) (cs : List Char) : Scanned (List Outline × Option Fault) :=
  match fuel with
  | 0 => (([], some .eofList), none)
  | fuel + 1 =>
    match scanValue fuel room cs with
    | (v, none) => (([v], none), none)
    | (v, some r) =>
      let ((vs, stop), rest) := scanItems fuel room false r
      ((v :: vs, stop), rest)

/-- The members of an object up to its brace; `first` says that no member was read yet. -/
def scanMembers (fuel room : Nat) (first : Bool) (cs : List Char) :
    Scanned (List (Outline × Outline) × Option Fault) :=
  match fuel with
  | 0 => (([], some .eofObject), none)
  | fuel + 1 =>
    match skipSpace cs with
    | [] => (([], some .eofObject), none)
    | c :: r =>
      if c = '\x7d' then (([], none), some r)
      else if first then
        if c = '"' then scanMember fuel room r
        else (([((scanValue fuel room (c :: r)).1, .broken .keyNotString)], none), none)
      else if c = ',' then
        match skipSpace r with
        | [] => (([], some .eofMember), none)
        | '\x7d' :: _ => (([], some .trailingObjectComma), none)
        | '"' :: r => scanMember fuel room r
        | _ => (([], some .keyNotString), none)
      else (([], some .expectedObjectEnd), none)

/-- One member after the opening quote of its key, and those after it. -/
def scanMember (fuel room : Nat) (cs : List Char) :
    Scanned (List (Outline × Outline) × Option Fault) :=
  match fuel with
  | 0 => (([], some .eofObject), none)
  | fuel + 1 =>
    match scanText cs with
    | (k, none) => (([(.string k, .broken .eofString)], none), none)
    | (k, some r) =>
      match skipSpace r with
      | [] => (([(.string k, .broken .eofObject)], none), none)
      | ':' :: r =>
        match scanValue fuel room r with
        | (v, none) => (([(.string k, v)], none), none)
        | (v, some r) =>
          let ((ms, stop), rest) := scanMembers fuel room false r
          (((.string k, v) :: ms, stop), rest)
      | _ => (([(.string k, .broken .expectedColon)], none), none)
end

/-- A whole text: the value at its beginning, and whether anything but spaces follows it. -/
structure Document where
  root : Outline
  trailing : Bool

/-- Every character is passed by at most three calls. -/
def Document.ofText (s : String) : Document :=
  let cs := s.toList
  let (v, rest) := scanValue (3 * cs.length + 3) maxNesting cs
  ⟨v, rest.any fun r => !(skipSpace r).isEmpty⟩

end TenantAccess.Json
