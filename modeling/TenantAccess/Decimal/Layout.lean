import TenantAccess.Decimal.Shortest

/-!
# Writing a double

A double is written with the fewest digits that read back. A `Layout` says for which places of
the decimal point the digits are written out in full; elsewhere the exponent form is used, with
a sign and without padding. A point always has a digit on both sides.
-/
namespace TenantAccess.Decimal

/-- Whether digits are written out in full, given the place of the point after the first digit
position: 1 for `1.5`, 0 for `0.15`, -1 for `0.015`. -/
structure Layout where
  plain : Int → Bool

/-- Written out in full up to sixteen digits before the point or four zeros after it. -/
def Layout.compact : Layout := ⟨fun point => -5 < point && point ≤ 16⟩

/-- Never in exponent form. -/
def Layout.full : Layout := ⟨fun _ => true⟩

def zeros (n : Int) : List Char := List.replicate n.toNat '0'

def signedExponent (e : Int) : List Char :=
  (if e < 0 then '-' else '+') :: Nat.toDigits 10 e.natAbs

/-- The digits of a nonzero decimal with their point or exponent. -/
def Layout.render (layout : Layout) (d : Scientific) : List Char :=
  let digits := Nat.toDigits 10 d.digits
  let point := digits.length + d.exponent
  if layout.plain point then
    if 0 ≤ d.exponent then digits ++ zeros d.exponent ++ ['.', '0']
    else if 0 < point then digits.take point.toNat ++ '.' :: digits.drop point.toNat
    else '0' :: '.' :: zeros (-point) ++ digits
  else
    match digits with
    | [d] => d :: 'e' :: signedExponent (point - 1)
    | ds => ds.take 1 ++ '.' :: ds.drop 1 ++ 'e' :: signedExponent (point - 1)

def Layout.text (layout : Layout) (x : Float) : List Char :=
  if x.isNaN then ['N', 'a', 'N']
  else
    let sign := if x.toBits.toNat < Nat.pow 2 63 then [] else ['-']
    if x.isInf then sign ++ ['i', 'n', 'f']
    else if x == 0.0 then sign ++ ['0', '.', '0']
    else sign ++ layout.render (shortest (Binary.ofBits x.toBits))

end TenantAccess.Decimal
