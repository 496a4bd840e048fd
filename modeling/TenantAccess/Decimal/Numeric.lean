/-!
# Text that stands for a number

A numeric text is an optional sign, then digits with an optional point and an optional exponent,
or one of the words for infinity and not-a-number in any letter case. Blanks, separators and
other bases are not accepted. The value is the nearest double; beyond the range it is infinite.
-/
namespace TenantAccess.Decimal

def isDigit (c : Char) : Bool := '0' ≤ c && c ≤ '9'

/-- The value of a row of digits after the digits already read. -/
def digitsValue (start : Nat) (cs : List Char) : Nat :=
  cs.foldl (fun n c => 10 * n + (c.toNat - '0'.toNat)) start

/-- The double nearest to `digits * 10 ^ exponent`. Exponents far outside the range of doubles
are settled without forming the power. -/
def nearest (digits : Nat) (exponent : Int) : Float :=
  if digits = 0 then 0.0
  else
    let magnitude := (Nat.toDigits 10 digits).length + exponent
    if 400 < magnitude then 1.0 / 0.0
    else if magnitude < -400 then 0.0
    else Float.ofScientific digits (exponent < 0) exponent.natAbs

/-- An optional sign, and the text after it. -/
def takeSign : List Char → Bool × List Char
  | '-' :: cs => (true, cs)
  | '+' :: cs => (false, cs)
  | cs => (false, cs)

def signed (negative : Bool) (x : Float) : Float := if negative then -x else x

/-- The exponent part: nothing, or `e` with an optional sign and at least one digit. -/
def exponentPart : List Char → Option Int
  | [] => some 0
  | c :: cs =>
    let (negative, ds) := takeSign cs
    if (c == 'e' || c == 'E') && !ds.isEmpty && ds.all isDigit then
      some (if negative then -(digitsValue 0 ds : Int) else digitsValue 0 ds)
    else none

/-- Digits with an optional point and exponent; at least one digit must stand in front of the
exponent. -/
def unsignedPart (cs : List Char) : Option Float :=
  let whole := cs.takeWhile isDigit
  let afterWhole := cs.dropWhile isDigit
  let (fraction, rest) := match afterWhole with
    | '.' :: r => (r.takeWhile isDigit, r.dropWhile isDigit)
    | r => ([], r)
  if whole.isEmpty && fraction.isEmpty then none
  else (exponentPart rest).map fun e =>
    nearest (digitsValue (digitsValue 0 whole) fraction) (e - fraction.length)

def infinityWords : List (List Char) := ["inf".toList, "infinity".toList]

/-- The number a text stands for, if it is numeric. -/
def number? (s : String) : Option Float :=
  let (negative, cs) := takeSign s.toList
  let word := cs.map Char.toLower
  if infinityWords.contains word then some (signed negative (1.0 / 0.0))
  else if word == "nan".toList then some (0.0 / 0.0)
  else (unsignedPart cs).map (signed negative)

end TenantAccess.Decimal
