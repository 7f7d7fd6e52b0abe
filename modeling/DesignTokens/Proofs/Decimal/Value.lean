import DesignTokens.Proofs.Decimal.PlainDecimal
import Mathlib

/-!
# The number of a text

A plain decimal denotes a rational number. Zeros at the end of its fraction do not change it, and
neither does the sign of a zero.

* `Numeral.value` and `denoted?` — the number that a text denotes.
* `exists_zeros` — a text is what is left of it with zeros behind it, and each of them is a factor
  of ten (`PlainDecimal.digits_of_zeros`).
* `PlainDecimal.value_stripped` — the zeros of a fraction say nothing about the number.
-/

namespace DesignTokens.Decimal

/-! ### Numbers -/

/-- The number that a numeral stands for. -/
def Numeral.value (n : Numeral) : ℚ :=
  (if n.negative then -1 else 1) * n.digits * 10 ^ n.exponent

theorem Numeral.sign_ne_zero (n : Numeral) : (if n.negative then (-1 : ℚ) else 1) ≠ 0 := by
  split <;> norm_num

/-- The number that a text denotes, if it is a numeral. -/
def denoted? (text : List Char) : Option ℚ :=
  (readUnsigned? (takeSign text).1 (takeSign text).2).map Numeral.value

namespace PlainDecimal

/-- The number that a plain decimal writes. -/
def value (d : PlainDecimal) : ℚ :=
  d.numeral.value

theorem denoted?_text (d : PlainDecimal) : denoted? d.text = some d.value := by
  rw [denoted?, takeSign_text, readUnsigned?_unsigned]
  rfl

theorem value_eq_zero_iff {d : PlainDecimal} : d.value = 0 ↔ d.numeral.digits = 0 := by
  have scale : (10 : ℚ) ^ d.numeral.exponent ≠ 0 := zpow_ne_zero _ (by norm_num)
  rw [value, Numeral.value, mul_eq_zero, mul_eq_zero, or_iff_left scale,
    or_iff_right d.numeral.sign_ne_zero, Nat.cast_eq_zero]

end PlainDecimal

/-! ### Digits -/

theorem ofDigits_map_digitValue (text : List Char) :
    ofDigits (text.map digitValue) = Nat.ofDigitChars 10 text 0 := by
  rw [Nat.ofDigitChars_eq_foldl, ofDigits, List.foldl_map]
  rfl

theorem ofDigitChars_unitDigits (units places : Nat) :
    Nat.ofDigitChars 10 (unitDigits units places) 0 = units := by
  rw [unitDigits, padZeros, Nat.ofDigitChars_append, Nat.ofDigitChars_replicate_zero, natText]
  exact Nat.ofDigitChars_ten_toDigits

theorem PlainDecimal.digits_numeral (d : PlainDecimal) :
    d.numeral.digits = Nat.ofDigitChars 10 (d.whole ++ d.fraction) 0 :=
  ofDigits_map_digitValue _

theorem PlainDecimal.digits_ofUnits (negative : Bool) (units places : Nat) :
    (ofUnits negative units places).numeral.digits = units := by
  rw [digits_numeral]
  exact (congrArg (Nat.ofDigitChars 10 · 0) (List.take_append_drop _ _)).trans
    (ofDigitChars_unitDigits units places)

/-! ### Zeros at the end of digits -/

theorem exists_zeros (text : List Char) :
    ∃ zeros, text = Text.dropEndWhile (· == '0') text ++ List.replicate zeros '0' := by
  refine ⟨(text.rtakeWhile (· == '0')).length, ?_⟩
  have run : text.rtakeWhile (· == '0') =
      List.replicate (text.rtakeWhile (· == '0')).length '0' :=
    List.eq_replicate_of_mem fun c hc => by simpa using Text.eq_of_mem_rtakeWhile hc
  rw [← run, Text.dropEndWhile_eq_rdropWhile, List.rdropWhile_append_rtakeWhile]

/-- Each zero behind the digits is a factor of ten. -/
theorem PlainDecimal.digits_of_zeros {d front : PlainDecimal} {zeros : Nat}
    (h : d.whole ++ d.fraction = front.whole ++ front.fraction ++ List.replicate zeros '0') :
    d.numeral.digits = 10 ^ zeros * front.numeral.digits := by
  rw [digits_numeral, digits_numeral, h, Nat.ofDigitChars_append, Nat.ofDigitChars_replicate_zero]

namespace PlainDecimal

variable {d : PlainDecimal}

/-! ### Zeros of a fraction -/

/-- A plain decimal has the digits of its form without zeros, and zeros behind them. -/
theorem exists_dropZeros (d : PlainDecimal) :
    ∃ zeros, d.fraction.length = d.dropZeros.fraction.length + zeros ∧
      d.numeral.digits = 10 ^ zeros * d.dropZeros.numeral.digits := by
  obtain ⟨zeros, split⟩ := exists_zeros d.fraction
  have digits : d.whole ++ d.fraction =
      d.dropZeros.whole ++ d.dropZeros.fraction ++ List.replicate zeros '0' := by
    rw [List.append_assoc]
    exact congrArg (d.whole ++ ·) split
  have length := congrArg List.length split
  rw [List.length_append, List.length_replicate] at length
  exact ⟨zeros, length, digits_of_zeros digits⟩

theorem value_dropZeros (d : PlainDecimal) : d.dropZeros.value = d.value := by
  obtain ⟨zeros, length, digits⟩ := d.exists_dropZeros
  have sign : d.dropZeros.numeral.negative = d.numeral.negative := rfl
  have exponent : d.dropZeros.numeral.exponent = d.numeral.exponent + zeros := by
    simp only [numeral, length]
    omega
  rw [value, value, Numeral.value, Numeral.value, sign, exponent, digits,
    zpow_add₀ (by norm_num), zpow_natCast]
  push_cast
  ring

/-- **Zeros of a fraction** say nothing about the number. -/
theorem value_stripped (d : PlainDecimal) : d.stripped.value = d.value := by
  rw [← value_dropZeros d]
  by_cases zero : d.dropZeros.isMinusZero = true
  · -- the sign is dropped, and the number is zero without it
    have same : d.stripped.numeral.digits = d.dropZeros.numeral.digits := rfl
    have none : d.dropZeros.numeral.digits = 0 := by
      simp only [isMinusZero, Bool.and_eq_true, beq_iff_eq] at zero
      rw [digits_numeral, zero.1.2, zero.2]
      rfl
    rw [value_eq_zero_iff.2 none, value_eq_zero_iff.2 (same.trans none)]
  · have same : d.stripped.negative = d.negative := by simp [stripped, zero]
    rw [value, value, numeral, numeral, same]
    rfl

/-- Only zero units are written as zero. -/
theorem eq_zero_of_text_stripped {negative : Bool} {units places : Nat}
    (h : (ofUnits negative units places).stripped.text = ['0']) : units = 0 := by
  have zero : denoted? ['0'] = some 0 := by
    have read : readUnsigned? false ['0'] = some ⟨false, 0, 0⟩ := by decide
    simp [denoted?, takeSign, read, Numeral.value]
  have value : (ofUnits negative units places).value = 0 := by
    rw [← h, denoted?_text, value_stripped] at zero
    exact Option.some.inj zero
  rw [← digits_ofUnits negative units places]
  exact value_eq_zero_iff.1 value

end PlainDecimal

end DesignTokens.Decimal
