import TenantAccess.Decimal.Numeric
import TenantAccess.Toml.Node

/-!
# Reading TOML text

A text either is a TOML document or it is not: readers give what they read and the text after
it, or nothing. Nested values and dotted keys are limited to `maxDepth`.
-/
namespace TenantAccess.Toml

/-- The nesting at which arrays, inline tables and dotted keys are refused. -/
def maxDepth : Nat := 80

def isGap (c : Char) : Bool := c == ' ' || c == '\t'

def skipGap (cs : List Char) : List Char := cs.dropWhile isGap

/-- A line may end in a line feed with or without a carriage return. -/
def newline? : List Char → Option (List Char)
  | '\n' :: cs => some cs
  | '\r' :: '\n' :: cs => some cs
  | _ => none

/-- Characters that may stand in a comment or string: no controls but the tab. -/
def isPlain (c : Char) : Bool := c == '\t' || (0x20 ≤ c.toNat && c.toNat ≠ 0x7F)

def skipComment : List Char → List Char
  | '#' :: cs => cs.dropWhile isPlain
  | cs => cs

/-- The rest of a line holds at most blanks and a comment. -/
def lineEnd? (cs : List Char) : Option (List Char) :=
  match skipComment (skipGap cs) with
  | [] => some []
  | cs => newline? cs

/-- Blanks, line ends and comments between the items of an array. -/
def skipFiller (fuel : Nat) (cs : List Char) : List Char :=
  match fuel with
  | 0 => cs
  | fuel + 1 =>
    let cs := skipGap cs
    match newline? cs with
    | some r => skipFiller fuel r
    | none =>
      match cs with
      | '#' :: r =>
        match newline? (r.dropWhile isPlain) with
        | some r => skipFiller fuel r
        | none => cs
      | cs => cs

def isBare (c : Char) : Bool := c.isAlphanum || c == '-' || c == '_'

def hexDigit? (c : Char) : Option Nat :=
  if Decimal.isDigit c then some (c.toNat - '0'.toNat)
  else if 'a' ≤ c ∧ c ≤ 'f' then some (c.toNat - 'a'.toNat + 10)
  else if 'A' ≤ c ∧ c ≤ 'F' then some (c.toNat - 'A'.toNat + 10)
  else none

/-- The character with the code point given by exactly `count` hexadecimal digits. -/
def codePoint? (count : Nat) (cs : List Char) : Option Char := do
  let digits ← (cs.take count).mapM hexDigit?
  let n := digits.foldl (fun n d => 16 * n + d) 0
  if digits.length = count ∧ n.isValidChar then some (Char.ofNat n) else none

def shortEscape? (c : Char) : Option Char :=
  match c with
  | 'b' => some '\x08'
  | 't' => some '\t'
  | 'n' => some '\n'
  | 'f' => some '\x0c'
  | 'r' => some '\r'
  | '"' => some '"'
  | '\\' => some '\\'
  | _ => none

/-- An escape after its backslash. -/
def escape? : List Char → Option (Char × List Char)
  | 'u' :: cs => (codePoint? 4 cs).map fun c => (c, cs.drop 4)
  | 'U' :: cs => (codePoint? 8 cs).map fun c => (c, cs.drop 8)
  | c :: cs => (shortEscape? c).map fun x => (x, cs)
  | [] => none

/-- A string in double quotes, after the first. -/
def basicString (fuel : Nat) (cs : List Char) : Option (List Char × List Char) :=
  match fuel, cs with
  | fuel + 1, c :: cs =>
    if c = '"' then some ([], cs)
    else if c = '\\' then do
      let (x, cs) ← escape? cs
      let (xs, cs) ← basicString fuel cs
      return (x :: xs, cs)
    else if isPlain c then do
      let (xs, cs) ← basicString fuel cs
      return (c :: xs, cs)
    else none
  | _, _ => none

/-- A string in single quotes, after the first. -/
def literalString : List Char → Option (List Char × List Char)
  | [] => none
  | c :: cs =>
    if c = '\'' then some ([], cs)
    else if isPlain c then (literalString cs).map fun (xs, r) => (c :: xs, r)
    else none

/-- Up to two quotes may stand right before the three that close a string of several lines. -/
def closing? (quote : Char) (cs : List Char) : Option (List Char × List Char) :=
  let run := (cs.takeWhile (· == quote)).length
  if run < 3 then none
  else
    let extra := min (run - 3) 2
    some (List.replicate extra quote, cs.drop (extra + 3))

/-- Blanks and line ends after a backslash that ends a line. -/
def skipFolded (fuel : Nat) (cs : List Char) : List Char :=
  match fuel with
  | 0 => cs
  | fuel + 1 =>
    let cs := skipGap cs
    match newline? cs with
    | some r => skipFolded fuel r
    | none => cs

/-- A string of several lines, after its opening quotes. Only double quotes allow escapes. -/
def longString (quote : Char) (fuel : Nat) (cs : List Char) : Option (List Char × List Char) :=
  match fuel with
  | 0 => none
  | fuel + 1 =>
    match closing? quote cs with
    | some r => some r
    | none =>
      match newline? cs with
      | some r => do
        let (xs, r) ← longString quote fuel r
        return ('\n' :: xs, r)
      | none =>
        match cs with
        | [] => none
        | c :: r =>
          if c = '\\' ∧ quote = '"' then
            match newline? (skipGap r) with
            | some r => longString quote fuel (skipFolded r.length r)
            | none => do
              let (x, r) ← escape? r
              let (xs, r) ← longString quote fuel r
              return (x :: xs, r)
          else if isPlain c then do
            let (xs, r) ← longString quote fuel r
            return (c :: xs, r)
          else none

/-- The line end right after the opening quotes does not belong to the string. -/
def skipFirstNewline (cs : List Char) : List Char := (newline? cs).getD cs

def string? (cs : List Char) : Option (String × List Char) :=
  let read : Option (List Char × List Char) :=
    match cs with
    | '"' :: '"' :: '"' :: r => longString '"' (r.length + 1) (skipFirstNewline r)
    | '\'' :: '\'' :: '\'' :: r => longString '\'' (r.length + 1) (skipFirstNewline r)
    | '"' :: r => basicString (r.length + 1) r
    | '\'' :: r => literalString r
    | _ => none
  read.map fun (xs, r) => (String.ofList xs, r)

def simpleKey? (cs : List Char) : Option (String × List Char) :=
  match cs with
  | '"' :: r => (basicString (r.length + 1) r).map fun (xs, r) => (String.ofList xs, r)
  | '\'' :: r => (literalString r).map fun (xs, r) => (String.ofList xs, r)
  | cs =>
    let name := cs.takeWhile isBare
    if name.isEmpty then none else some (String.ofList name, cs.dropWhile isBare)

/-- The names of a dotted key, with blanks around each. -/
def keyNames (fuel : Nat) (cs : List Char) : Option (List String × List Char) :=
  match fuel with
  | 0 => none
  | fuel + 1 => do
    let (name, cs) ← simpleKey? (skipGap cs)
    match skipGap cs with
    | '.' :: r =>
      let (names, r) ← keyNames fuel r
      return (name :: names, r)
    | r => return ([name], r)

def key? (cs : List Char) : Option (List String × List Char) := do
  let (names, r) ← keyNames (cs.length + 1) cs
  if maxDepth ≤ names.length then none else some (names, r)

/-- Digits of a base; single underscores may stand between them. -/
def digitRun (isDigit : Char → Bool) : List Char → List Char × List Char
  | '_' :: c :: cs =>
    if isDigit c then
      let (ds, r) := digitRun isDigit cs
      (c :: ds, r)
    else ([], '_' :: c :: cs)
  | c :: cs =>
    if isDigit c then
      let (ds, r) := digitRun isDigit cs
      (c :: ds, r)
    else ([], c :: cs)
  | [] => ([], [])

/-- At least one digit; the first character is no underscore. -/
def digits? (isDigit : Char → Bool) (cs : List Char) : Option (List Char × List Char) :=
  if cs.head?.any isDigit then some (digitRun isDigit cs) else none

/-- Decimal digits without needless leading zeros. -/
def wholeDigits? (cs : List Char) : Option (List Char × List Char) :=
  match cs with
  | '0' :: r => some (['0'], r)
  | cs => digits? Decimal.isDigit cs

def inRange (n : Int) : Option Int :=
  if Int64.minValue.toInt ≤ n ∧ n ≤ Int64.maxValue.toInt then some n else none

def basedInteger? (base : Nat) (cs : List Char) : Option (Int × List Char) := do
  let isDigit := fun c => (hexDigit? c).any (· < base)
  let (ds, r) ← digits? isDigit cs
  let n := ds.foldl (fun n c => base * n + (hexDigit? c).getD 0) 0
  let n ← inRange n
  return (n, r)

def integer? (cs : List Char) : Option (Int × List Char) :=
  match cs with
  | '0' :: 'x' :: r => basedInteger? 16 r
  | '0' :: 'o' :: r => basedInteger? 8 r
  | '0' :: 'b' :: r => basedInteger? 2 r
  | cs => do
    let (negative, r) := Decimal.takeSign cs
    let (ds, r) ← wholeDigits? r
    let n : Int := Decimal.digitsValue 0 ds
    let n ← inRange (if negative then -n else n)
    return (n, r)

/-- The fraction of a number: nothing, or a point and digits. -/
def fraction? : List Char → Option (List Char × List Char)
  | '.' :: r => digits? Decimal.isDigit r
  | r => some ([], r)

def exponent? : List Char → Option (Option Int × List Char)
  | c :: r =>
    if c = 'e' ∨ c = 'E' then do
      let (negative, r) := Decimal.takeSign r
      let (ds, r) ← digits? Decimal.isDigit r
      let n : Int := Decimal.digitsValue 0 ds
      return (some (if negative then -n else n), r)
    else some (none, c :: r)
  | [] => some (none, [])

/-- A number with a fraction or an exponent. Beyond the range only negative infinity is let
through. -/
def decimal? (cs : List Char) : Option (Float × List Char) := do
  let (negative, r) := Decimal.takeSign cs
  let (whole, r) ← wholeDigits? r
  let (fraction, r) ← fraction? r
  let (exponent, r) ← exponent? r
  if fraction.isEmpty && exponent.isNone then none
  else
    let digits := Decimal.digitsValue (Decimal.digitsValue 0 whole) fraction
    let x := Decimal.nearest digits (exponent.getD 0 - fraction.length)
    if x.isInf && !negative then none else some (Decimal.signed negative x, r)

def special? (cs : List Char) : Option (Float × List Char) :=
  let (negative, r) := Decimal.takeSign cs
  match r with
  | 'i' :: 'n' :: 'f' :: r => some (Decimal.signed negative (1.0 / 0.0), r)
  | 'n' :: 'a' :: 'n' :: r => some (Decimal.signed negative (0.0 / 0.0), r)
  | _ => none

/-- A number of exactly `count` digits between two bounds. -/
def fixed? (count low high : Nat) (cs : List Char) : Option (Nat × List Char) :=
  let ds := cs.take count
  let n := Decimal.digitsValue 0 ds
  if ds.length = count ∧ ds.all Decimal.isDigit ∧ low ≤ n ∧ n ≤ high then
    some (n, cs.drop count)
  else none

def expect (c : Char) : List Char → Option (List Char)
  | d :: r => if c = d then some r else none
  | [] => none

def isLeapYear (y : Nat) : Bool := y % 4 = 0 && (y % 100 ≠ 0 || y % 400 = 0)

def daysIn (year month : Nat) : Nat :=
  if month = 2 then (if isLeapYear year then 29 else 28)
  else if month = 4 ∨ month = 6 ∨ month = 9 ∨ month = 11 then 30
  else 31

def date? (cs : List Char) : Option (List Char) := do
  let (year, r) ← fixed? 4 0 9999 cs
  let (month, r) ← fixed? 2 1 12 (← expect '-' r)
  let (_, r) ← fixed? 2 1 (daysIn year month) (← expect '-' r)
  return r

/-- The digits of a fraction of a second. -/
def secondFraction : List Char → List Char
  | '.' :: r => if r.head?.any Decimal.isDigit then r.dropWhile Decimal.isDigit else '.' :: r
  | r => r

def time? (cs : List Char) : Option (List Char) := do
  let (_, r) ← fixed? 2 0 23 cs
  let (_, r) ← fixed? 2 0 59 (← expect ':' r)
  let (_, r) ← fixed? 2 0 60 (← expect ':' r)
  return secondFraction r

def offset? (cs : List Char) : Option (List Char) :=
  match cs with
  | [] => some []
  | c :: r =>
    if c = 'Z' ∨ c = 'z' then some r
    else if c = '+' ∨ c = '-' then do
      let (_, r) ← fixed? 2 0 23 r
      let (_, r) ← fixed? 2 0 59 (← expect ':' r)
      return r
    else some (c :: r)

/-- A date with an optional time, or a time alone. -/
def dateTime? (cs : List Char) : Option (List Char) :=
  match date? cs with
  | none => time? cs
  | some r =>
    match r with
    | c :: t =>
      if c = 'T' ∨ c = 't' ∨ c = ' ' then
        match time? t with
        | some t => offset? t
        | none => some r
      else some r
    | [] => some []

/-- A value that begins like a number: a date first, then a number with fraction or exponent,
then an integer. -/
def numeric? (cs : List Char) : Option (Node × List Char) :=
  match dateTime? cs with
  | some r => some (.date, r)
  | none =>
    match special? cs with
    | some (x, r) => some (.real x, r)
    | none =>
      match decimal? cs with
      | some (x, r) => some (.real x, r)
      | none => (integer? cs).map fun (n, r) => (.integer n, r)

def word? : List Char → Option (Node × List Char)
  | 't' :: 'r' :: 'u' :: 'e' :: r => some (.bool true, r)
  | 'f' :: 'a' :: 'l' :: 's' :: 'e' :: r => some (.bool false, r)
  | _ => none

mutual
/-- One value. `depth` counts the arrays and inline tables around it. -/
def value? (fuel depth : Nat) (cs : List Char) : Option (Node × List Char) :=
  match fuel with
  | 0 => none
  | fuel + 1 =>
    match cs with
    | [] => none
    | c :: r =>
      if c = '"' ∨ c = '\'' then (string? cs).map fun (s, r) => (.string s, r)
      else if c = '[' then
        if maxDepth ≤ depth + 1 then none
        else (items? fuel (depth + 1) r).map fun (vs, r) => (.array vs, r)
      else if c = '\x7b' then
        if maxDepth ≤ depth + 1 then none
        else do
          let (as, r) ← inlineMembers? fuel (depth + 1) true r
          let es ← assignAll as []
          return (.table .inline es, r)
      else if c = 't' ∨ c = 'f' then word? cs
      else numeric? cs

/-- The items of an array and its bracket; a comma may follow the last item. -/
def items? (fuel depth : Nat) (cs : List Char) : Option (List Node × List Char) :=
  match fuel with
  | 0 => none
  | fuel + 1 =>
    match skipFiller cs.length cs with
    | ']' :: r => some ([], r)
    | cs => do
      let (v, r) ← value? fuel depth cs
      match skipFiller r.length r with
      | ',' :: r =>
        let (vs, r) ← items? fuel depth r
        return (v :: vs, r)
      | ']' :: r => return ([v], r)
      | _ => none

/-- The members of an inline table and its brace, all on one line. -/
def inlineMembers? (fuel depth : Nat) (first : Bool) (cs : List Char) :
    Option (List Assignment × List Char) :=
  match fuel with
  | 0 => none
  | fuel + 1 =>
    match first, skipGap cs with
    | true, '\x7d' :: r => some ([], r)
    | _, cs => do
      let (a, r) ← assignment? fuel depth cs
      match skipGap r with
      | ',' :: r =>
        let (as, r) ← inlineMembers? fuel depth false r
        return (a :: as, r)
      | '\x7d' :: r => return ([a], r)
      | _ => none

/-- A key, an equals sign and a value. -/
def assignment? (fuel depth : Nat) (cs : List Char) : Option (Assignment × List Char) :=
  match fuel with
  | 0 => none
  | fuel + 1 => do
    let (names, r) ← key? cs
    let r ← expect '=' r
    let (v, r) ← value? fuel depth (skipGap r)
    let key ← names.getLast?
    return (⟨names.dropLast, key, v⟩, r)
end

/-- One line of a document. -/
inductive Line where
  | empty
  | assign (a : Assignment)
  | table (path : List String)
  | element (path : List String)

/-- A line and its end. -/
def line? (cs : List Char) : Option (Line × List Char) :=
  match skipGap cs with
  | '[' :: '[' :: r => do
    let (path, r) ← key? r
    let r ← expect ']' r
    let r ← expect ']' r
    return (.element path, ← lineEnd? r)
  | '[' :: r => do
    let (path, r) ← key? r
    let r ← expect ']' r
    return (.table path, ← lineEnd? r)
  | cs =>
    match lineEnd? cs with
    | some r => some (.empty, r)
    | none => do
      let (a, r) ← assignment? (3 * cs.length + 3) 0 cs
      return (.assign a, ← lineEnd? r)

def lines? (fuel : Nat) (cs : List Char) : Option (List Line) :=
  match fuel with
  | 0 => none
  | fuel + 1 =>
    match cs with
    | [] => some []
    | cs => do
      let (l, r) ← line? cs
      let ls ← lines? fuel r
      return l :: ls

/-- The assignments up to the next header, and the lines from there on. -/
def body : List Line → List Assignment × List Line
  | .assign a :: ls =>
    let (as, rest) := body ls
    (a :: as, rest)
  | .empty :: ls => body ls
  | ls => ([], ls)

/-- Enters the tables of a document one after the other. -/
def sections (fuel : Nat) (es : Entries) (ls : List Line) : Option Entries :=
  match fuel with
  | 0 => none
  | fuel + 1 =>
    match ls with
    | [] => some es
    | .table path :: ls => do
      let (as, rest) := body ls
      sections fuel (← es.withTable (assignAll as) path) rest
    | .element path :: ls => do
      let (as, rest) := body ls
      sections fuel (← es.withElement (assignAll as) path) rest
    | _ :: ls => sections fuel es ls

/-- The document a text stands for. A byte order mark at its beginning is passed over. -/
def parse (s : String) : Option Entries := do
  let cs := match s.toList with
    | '\ufeff' :: cs => cs
    | cs => cs
  let ls ← lines? (cs.length + 1) cs
  let (as, rest) := body ls
  let es ← assignAll as []
  sections (rest.length + 1) es rest

end TenantAccess.Toml
