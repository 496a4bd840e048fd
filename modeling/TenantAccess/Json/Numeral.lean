import TenantAccess.Decimal.Numeric
import TenantAccess.Json.Fault
import TenantAccess.Json.Value

/-!
# Numerals

A `Numeral` is a number as it is written. Its value is an integer when it has neither point nor
exponent and fits in 64 bits. Otherwise it is a double: the digits are taken while they fit in
64 bits, the rest only counts for the exponent, and the significand is scaled by one power of
ten. A magnitude beyond the doubles has no value.
-/
namespace TenantAccess.Json

structure Numeral where
  negative : Bool
  whole : List Char
  fraction : List Char
  /-- sign and digits of the exponent -/
  exponent : Option (Bool × List Char)
  deriving DecidableEq, Repr

/-- The digits that fit in 64 bits after `start`, as a number, and the digits left over. -/
def takeFitting (start : Nat) : List Char → Nat × List Char
  | [] => (start, [])
  | c :: cs =>
    let next := Decimal.digitsValue start [c]
    if next < UInt64.size then takeFitting next cs else (start, c :: cs)

def powerOfTen (n : Nat) : Float := Float.ofScientific 1 false n

/-- Divides by at most `10 ^ 308` at a time. -/
def scaleDown (fuel : Nat) (x : Float) (places : Nat) : Float :=
  match fuel with
  | 0 => x
  | fuel + 1 =>
    if places ≤ 308 then x / powerOfTen places
    else if x == 0.0 then x
    else scaleDown fuel (x / powerOfTen 308) (places - 308)

/-- `significand * 10 ^ exponent`, rounded when the significand becomes a double and again when
it is scaled. -/
def scale (significand : Nat) (exponent : Int) : Except Fault Float :=
  let x := Decimal.nearest significand 0
  if exponent < 0 then .ok (scaleDown 4 x exponent.natAbs)
  else if 308 < exponent then
    if significand = 0 then .ok x else .error .numberOutOfRange
  else
    let y := x * powerOfTen exponent.toNat
    if y.isInf then .error .numberOutOfRange else .ok y

/-- The double that a numeral with point, exponent or too many digits stands for. -/
def Numeral.real (n : Numeral) : Except Fault Float := do
  let (high, dropped) := takeFitting 0 n.whole
  let (significand, ignored) := takeFitting high n.fraction
  let places : Int := dropped.length - (n.fraction.length - ignored.length : Int)
  let magnitude ← match n.exponent with
    | none => scale significand places
    | some (negative, digits) =>
      let e := Decimal.digitsValue 0 digits
      if Nat.pow 2 31 ≤ e then
        if significand ≠ 0 ∧ negative = false then .error .numberOutOfRange else .ok 0.0
      else scale significand (if negative then places - e else places + e)
  return Decimal.signed n.negative magnitude

/-- Minus zero is a double, since no integer stands for it. -/
def Numeral.value (n : Numeral) : Except Fault Number :=
  let (magnitude, dropped) := takeFitting 0 n.whole
  if dropped.isEmpty && n.fraction.isEmpty && n.exponent.isNone then
    if n.negative then
      if magnitude ≠ 0 ∧ magnitude ≤ Nat.pow 2 63 then .ok (.integer (-magnitude))
      else .ok (.real (-(Decimal.nearest magnitude 0)))
    else .ok (.integer magnitude)
  else n.real.map .real

end TenantAccess.Json
