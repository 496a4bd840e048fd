import TenantAccess.Json.Scan

/-!
# Written numbers are scanned back

A natural number is written in its decimal digits, without a leading zero. Where the text behind it
goes on no number, these digits are scanned as the whole part of a numeral, and if the number fits
in 64 bits it is the numeral's value.
-/
namespace TenantAccess.Json

/-- Text that goes on no number. -/
def EndsNumeral (rest : List Char) : Prop :=
  ∀ c ∈ rest.head?, Decimal.isDigit c = false ∧ c ≠ '.' ∧ c ≠ 'e' ∧ c ≠ 'E'

variable {n start : Nat} {c : Char} {cs rest : List Char}

theorem endsNumeral_nil : EndsNumeral [] := by
  intro c hc
  cases hc

theorem endsNumeral_cons (digit : Decimal.isDigit c = false) (point : c ≠ '.') (small : c ≠ 'e')
    (capital : c ≠ 'E') : EndsNumeral (c :: cs) := by
  intro d hd
  cases hd
  exact ⟨digit, point, small, capital⟩

/-! ## Digits -/

theorem isDigit_of_mem_toDigits (hc : c ∈ Nat.toDigits 10 n) : Decimal.isDigit c = true := by
  have hdigit := Nat.isDigit_of_mem_toDigits (by decide) (by decide) hc
  simpa [Char.isDigit, Decimal.isDigit, Char.le_def] using hdigit

theorem exists_toDigits (n : Nat) : ∃ c cs, Nat.toDigits 10 n = c :: cs :=
  List.exists_cons_of_ne_nil Nat.toDigits_ne_nil

/-- Only the number zero begins with a zero. -/
theorem eq_zero_of_toDigits (digits : Nat.toDigits 10 n = '0' :: cs) : n = 0 := by
  induction n using Nat.strongRecOn generalizing cs with
  | ind n ih =>
    by_cases hsmall : n < 10
    · rw [Nat.toDigits_of_lt_base hsmall, List.cons.injEq] at digits
      exact Nat.digitChar_eq_zero.1 digits.1
    · obtain ⟨c, tens, htens⟩ := exists_toDigits (n / 10)
      rw [Nat.toDigits_of_base_le (by decide) (by omega), htens, List.cons_append,
        List.cons.injEq] at digits
      have hzero := ih (n / 10) (by omega) (digits.1 ▸ htens)
      omega

theorem le_digitsValue (start : Nat) (cs : List Char) : start ≤ Decimal.digitsValue start cs := by
  induction cs generalizing start with
  | nil => exact Nat.le_refl start
  | cons c cs ih =>
    have hnext := ih (10 * start + (c.toNat - '0'.toNat))
    rw [Decimal.digitsValue] at hnext ⊢
    rw [List.foldl_cons]
    omega

theorem takeFitting_eq (fits : Decimal.digitsValue start cs < UInt64.size) :
    takeFitting start cs = (Decimal.digitsValue start cs, []) := by
  induction cs generalizing start with
  | nil => rfl
  | cons c cs ih =>
    have hcons : Decimal.digitsValue start (c :: cs) =
        Decimal.digitsValue (Decimal.digitsValue start [c]) cs := rfl
    rw [hcons] at fits ⊢
    rw [takeFitting, if_pos (Nat.lt_of_le_of_lt (le_digitsValue _ cs) fits), ih fits]

theorem digitsValue_toDigits (n : Nat) : Decimal.digitsValue 0 (Nat.toDigits 10 n) = n :=
  Nat.ofDigitChars_ten_toDigits

/-! ## Numerals -/

/-- The numeral of a natural number. -/
def Numeral.ofNat (n : Nat) : Numeral := ⟨false, Nat.toDigits 10 n, [], none⟩

theorem Numeral.value_ofNat (fits : n < UInt64.size) : (ofNat n).value = .ok (.integer n) := by
  have htake : takeFitting 0 (Nat.toDigits 10 n) = (n, []) := by
    rw [takeFitting_eq, digitsValue_toDigits]
    rwa [digitsValue_toDigits]
  simp [value, ofNat, htake]

theorem EndsNumeral.any_head? (h : EndsNumeral rest) : rest.head?.any Decimal.isDigit = false := by
  cases rest with
  | nil => rfl
  | cons d ds => exact (h d rfl).1

theorem EndsNumeral.takeWhile (h : EndsNumeral rest) : rest.takeWhile Decimal.isDigit = [] := by
  cases rest with
  | nil => rfl
  | cons d ds => rw [List.takeWhile_cons, (h d rfl).1, if_neg Bool.false_ne_true]

theorem EndsNumeral.dropWhile (h : EndsNumeral rest) : rest.dropWhile Decimal.isDigit = rest := by
  cases rest with
  | nil => rfl
  | cons d ds => rw [List.dropWhile_cons, (h d rfl).1, if_neg Bool.false_ne_true]

theorem scanWhole_toDigits (n : Nat) (ends : EndsNumeral rest) :
    scanWhole (Nat.toDigits 10 n ++ rest) = .ok (Nat.toDigits 10 n, rest) := by
  obtain ⟨c, cs, hdigits⟩ := exists_toDigits n
  by_cases hzero : c = '0'
  · subst hzero
    rw [eq_zero_of_toDigits hdigits, Nat.toDigits_zero, List.singleton_append, scanWhole,
      if_pos rfl, ends.any_head?, if_neg Bool.false_ne_true]
  · have hall : ∀ d ∈ c :: cs, Decimal.isDigit d = true := fun d hd =>
      isDigit_of_mem_toDigits (n := n) (hdigits ▸ hd)
    have hrest : ∀ d ∈ cs, Decimal.isDigit d = true := fun d hd => hall d (.tail c hd)
    rw [hdigits, List.cons_append, scanWhole, if_neg hzero, if_pos (hall c (.head cs)),
      List.takeWhile_append_of_pos hrest, List.dropWhile_append_of_pos hrest, ends.takeWhile,
      ends.dropWhile, List.append_nil]

theorem scanFraction_eq (ends : EndsNumeral rest) : scanFraction rest = .ok ([], rest) := by
  cases rest with
  | nil => rfl
  | cons d ds =>
    rw [scanFraction.eq_def]
    split
    · rename_i hpoint
      cases hpoint
      exact absurd rfl (ends '.' rfl).2.1
    · rfl

theorem scanExponent_eq (ends : EndsNumeral rest) : scanExponent rest = .ok (none, rest) := by
  cases rest with
  | nil => rfl
  | cons d ds =>
    obtain ⟨-, -, hsmall, hcapital⟩ := ends d rfl
    rw [scanExponent, if_neg (not_or.2 ⟨hsmall, hcapital⟩)]

theorem scanNumeral_toDigits (n : Nat) (ends : EndsNumeral rest) :
    scanNumeral false (Nat.toDigits 10 n ++ rest) = .ok (.ofNat n, rest) := by
  rw [scanNumeral, scanWhole_toDigits n ends]
  simp [bind, Except.bind, scanFraction_eq ends, scanExponent_eq ends, pure, Except.pure,
    Numeral.ofNat]

/-- A number is scanned from its first digit on. -/
theorem scanNumber_toDigits (n : Nat) (ends : EndsNumeral rest) :
    scanNumber false (Nat.toDigits 10 n ++ rest) = (.number (.ofNat n), some rest) := by
  rw [scanNumber, scanNumeral_toDigits n ends]

end TenantAccess.Json
