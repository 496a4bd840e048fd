/-!
# The fewest digits that read back

A finite nonzero double is `mantissa * 2 ^ exponent`. The reals that round to it form a window
around it, ends included when the mantissa is even. `shortest` looks for a decimal with 1, 2, …
digits inside the window, in exact natural arithmetic, and takes the nearer of two candidates on
the first grid that has one.
-/
namespace TenantAccess.Decimal

/-- The value `digits * 10 ^ exponent`. -/
structure Scientific where
  digits : Nat
  exponent : Int
  deriving DecidableEq, Repr

/-- The value `mantissa * 2 ^ exponent`; `narrow` says that the gap below it is half as wide. -/
structure Binary where
  mantissa : Nat
  exponent : Int
  narrow : Bool
  deriving DecidableEq, Repr

/-- The magnitude held in the 64 bits of a finite double. -/
def Binary.ofBits (bits : UInt64) : Binary :=
  let field : Nat := (bits.toNat / Nat.pow 2 52) % Nat.pow 2 11
  let fraction : Nat := bits.toNat % Nat.pow 2 52
  if field = 0 then ⟨fraction, -1074, false⟩
  else ⟨fraction + Nat.pow 2 52, (field : Int) - 1075, fraction == 0 && field != 1⟩

/-- The reals `low / den` to `high / den` around `value / den`. -/
structure Window where
  low : Nat
  value : Nat
  high : Nat
  den : Nat
  closed : Bool
  deriving DecidableEq, Repr

def Window.around (x : Binary) : Window :=
  let below := if x.narrow then 1 else 2
  let unit := Nat.pow 2 (x.exponent - 2).toNat
  ⟨(4 * x.mantissa - below) * unit, 4 * x.mantissa * unit, (4 * x.mantissa + 2) * unit,
    Nat.pow 2 (2 - x.exponent).toNat, x.mantissa % 2 == 0⟩

/-- The window scaled so that one unit of the grid `10 ^ exponent` is `10 ^ exponent` or 1. -/
def Window.onGrid (w : Window) (exponent : Int) : Window :=
  let factor := Nat.pow 10 (-exponent).toNat
  ⟨w.low * factor, w.value * factor, w.high * factor, w.den * Nat.pow 10 exponent.toNat, w.closed⟩

def Window.contains (w : Window) (n : Nat) : Bool :=
  if w.closed then w.low ≤ n * w.den && n * w.den ≤ w.high
  else w.low < n * w.den && n * w.den < w.high

/-- The grid point nearer to the value among its two neighbours in the window, evens on ties. -/
def Window.nearest? (w : Window) : Option Nat :=
  let n := w.value / w.den
  match w.contains n, w.contains (n + 1) with
  | false, false => none
  | true, false => some n
  | false, true => some (n + 1)
  | true, true =>
    let below := w.value - n * w.den
    let above := (n + 1) * w.den - w.value
    some (if below < above then n else if above < below then n + 1 else n + n % 2)

/-- The number of decimal places before the first nonzero digit of `value / den`, as a power:
the least `e` with `value / den < 10 ^ e`. -/
def Window.magnitude (w : Window) : Int :=
  if w.den ≤ w.value then (Nat.toDigits 10 (w.value / w.den)).length
  else -((List.range 400).takeWhile fun j => w.value * Nat.pow 10 (j + 1) < w.den).length

/-- Moves trailing zeros of the digits into the exponent. -/
def Scientific.normal (fuel : Nat) (d : Scientific) : Scientific :=
  match fuel with
  | 0 => d
  | fuel + 1 =>
    if d.digits ≠ 0 ∧ d.digits % 10 = 0 then
      normal fuel ⟨d.digits / 10, d.exponent + 1⟩
    else d

/-- The shortest decimal that rounds to the value; 17 digits always suffice. -/
def shortest (x : Binary) : Scientific :=
  let w := Window.around x
  let e := w.magnitude
  let found := (List.range 17).findSome? fun (k : Nat) =>
    let exponent := e - ((k : Int) + 1)
    ((w.onGrid exponent).nearest?).map fun n => Scientific.mk n exponent
  (found.getD ⟨0, 0⟩).normal 400

end TenantAccess.Decimal
