import DesignTokens.Proofs.Decimal.Value
import DesignTokens.Proofs.Decimal.WholeNumbers

/-!
# Zeros at the end

A rounded value is written with a fixed number of places, and the zeros at its end are dropped.
Behind a point they say nothing, and the number stays what it is. Without places there is no point,
and the zeros at the end are digits of an integer: the text of ten becomes that of one.

* `PlainDecimal.dropWholeZeros` — what is left of an integer (`stripZeros_text_integer`), which is
  another number if there was something to drop (`value_dropWholeZeros_iff`).
* `IsPrinted` — the form of what is printed.
* `roundedText_keeps_number_iff` — the number is kept but for multiples of ten without places.
-/

namespace DesignTokens.Decimal

/-! ### Zeros of an integer -/

/-- Digits that end in no zero do not make a multiple of ten. -/
theorem not_ten_dvd_ofDigitChars {digits : List Char} (nonempty : digits ≠ [])
    (isDigit : ∀ c ∈ digits, c.isDigit = true) (last : ∀ c ∈ digits.getLast?, (c == '0') = false) :
    ¬ 10 ∣ Nat.ofDigitChars 10 digits 0 := by
  obtain ⟨front, c, rfl⟩ := digits.eq_nil_or_concat'.resolve_left nonempty
  have range := isDigit_iff_toNat.1 (isDigit c (by simp))
  have nonzero : c.toNat ≠ 48 := fun zero => by
    have same : c = '0' := Char.toNat_inj.1 zero
    simpa [same] using last c (by simp)
  have zero : '0'.toNat = 48 := rfl
  rw [Nat.ofDigitChars_append, Nat.ofDigitChars_cons, Nat.ofDigitChars_nil]
  omega

namespace PlainDecimal

variable {d : PlainDecimal}

/-- An integer without the zeros at its end, if there are other digits. -/
def dropWholeZeros (d : PlainDecimal) (some : Text.dropEndWhile (· == '0') d.whole ≠ []) :
    PlainDecimal where
  negative := d.negative
  whole := Text.dropEndWhile (· == '0') d.whole
  fraction := []
  whole_ne_nil := some
  isDigit_whole c hc := by
    rw [Text.dropEndWhile_eq_rdropWhile] at hc
    exact d.isDigit_whole c ((List.rdropWhile_prefix _ _).subset hc)
  isDigit_fraction := by simp

/-- A number that is not zero has other digits than zeros. -/
theorem dropEndWhile_whole_ne_nil (none : d.fraction = []) (nonzero : d.numeral.digits ≠ 0) :
    Text.dropEndWhile (· == '0') d.whole ≠ [] := by
  intro all
  -- the digits would be zeros throughout
  obtain ⟨zeros, split⟩ := exists_zeros d.whole
  rw [all, List.nil_append] at split
  rw [digits_numeral, none, List.append_nil, split, Nat.ofDigitChars_replicate_zero] at nonzero
  exact nonzero (Nat.mul_zero _)

variable (some : Text.dropEndWhile (· == '0') d.whole ≠ [])

theorem isMinusZero_dropWholeZeros : (d.dropWholeZeros some).isMinusZero = false := by
  rw [← Bool.not_eq_true]
  intro zero
  simp only [isMinusZero, Bool.and_eq_true, beq_iff_eq] at zero
  have last : ∀ c ∈ (d.dropWholeZeros some).whole.getLast?, (c == '0') = false :=
    Text.eq_false_of_getLast?_dropEndWhile
  rw [zero.1.2] at last
  exact absurd (last '0' rfl) (by decide)

/-- Without a point, dropping zeros goes into the integer. -/
theorem stripZeros_text_integer (none : d.fraction = []) :
    stripZeros d.text = (d.dropWholeZeros some).text := by
  have before : Text.dropEndWhile (· == '0') d.text = (d.dropWholeZeros some).text := by
    rw [text_eq_integer none, text_eq_integer rfl, integer, integer]
    cases sign : d.negative with
    | false => simp [dropWholeZeros, sign]
    | true =>
      simp only [dropWholeZeros, sign, if_true]
      exact Text.dropEndWhile_append_cons (by decide) []
  have notZero := isMinusZero_dropWholeZeros some
  simp only [stripZeros, before, dropEndWhile_point_text, text_ne_nil, text_eq_iff_isMinusZero,
    notZero]
  rfl

theorem exists_dropWholeZeros (none : d.fraction = []) :
    ∃ zeros, d.numeral.digits = 10 ^ zeros * (d.dropWholeZeros some).numeral.digits := by
  obtain ⟨zeros, split⟩ := exists_zeros d.whole
  have digits : d.whole ++ d.fraction = (d.dropWholeZeros some).whole ++
      (d.dropWholeZeros some).fraction ++ List.replicate zeros '0' := by
    rw [none, List.append_nil]
    exact (List.append_nil (d.dropWholeZeros some).whole).symm ▸ split
  exact ⟨zeros, digits_of_zeros digits⟩

/-- What is left of an integer is no multiple of ten. -/
theorem not_ten_dvd_dropWholeZeros : ¬ 10 ∣ (d.dropWholeZeros some).numeral.digits := by
  rw [digits_numeral]
  have whole : (d.dropWholeZeros some).whole ++ (d.dropWholeZeros some).fraction =
      (d.dropWholeZeros some).whole := List.append_nil _
  rw [whole]
  exact not_ten_dvd_ofDigitChars some (d.dropWholeZeros some).isDigit_whole
    Text.eq_false_of_getLast?_dropEndWhile

/-- **Zeros of an integer** are digits: without them it is another number. -/
theorem value_dropWholeZeros_iff (none : d.fraction = []) :
    (d.dropWholeZeros some).value = d.value ↔ ¬ 10 ∣ d.numeral.digits := by
  obtain ⟨zeros, digits⟩ := exists_dropWholeZeros some none
  have same : (d.dropWholeZeros some).value = d.value ↔
      (d.dropWholeZeros some).numeral.digits = d.numeral.digits := by
    have here : d.numeral.exponent = 0 := by simp [numeral, none]
    have there : (d.dropWholeZeros some).numeral.exponent = 0 := rfl
    have unchanged : (d.dropWholeZeros some).numeral.negative = d.numeral.negative := rfl
    rw [value, value, Numeral.value, Numeral.value, unchanged, here, there, zpow_zero, mul_one,
      mul_one, mul_right_inj' d.numeral.sign_ne_zero, Nat.cast_inj]
  rw [same]
  -- what is left is no multiple of ten, so it is the same number only if nothing was dropped
  constructor
  · intro kept
    rw [← kept]
    exact not_ten_dvd_dropWholeZeros some
  · intro left
    cases zeros with
    | zero => rw [digits, Nat.pow_zero, Nat.one_mul]
    | succ zeros => exact absurd (digits ▸ Dvd.dvd.mul_right (dvd_pow_self 10 (by omega)) _) left

end PlainDecimal

/-! ### In print -/

/-- The form of what is printed: a numeral with a number of places at most, which ends neither in a
zero of its fraction nor in a point and is no zero with a sign. -/
structure IsPrinted (places : Nat) (text : List Char) : Prop where
  numeral : ∃ d : PlainDecimal, d.text = text ∧ d.fraction.length ≤ places ∧
    ∀ c ∈ d.fraction.getLast?, c ≠ '0'
  noPoint : ∀ c ∈ text.getLast?, c ≠ '.'
  notEmpty : text ≠ []
  notSign : text ≠ ['-']
  notMinusZero : text ≠ ['-', '0']

theorem PlainDecimal.isPrinted {d : PlainDecimal} {places : Nat}
    (few : d.fraction.length ≤ places) (last : ∀ c ∈ d.fraction.getLast?, (c == '0') = false)
    (notZero : d.isMinusZero = false) : IsPrinted places d.text where
  numeral := ⟨d, rfl, few, fun c hc => by simpa using last c hc⟩
  noPoint c hc := by simpa using beq_point_of_isDigit (isDigit_of_getLast?_text c hc)
  notEmpty := d.text_ne_nil
  notSign sign := by
    have digit := d.isDigit_of_getLast?_text '-' (by rw [sign]; rfl)
    exact absurd digit (by decide)
  notMinusZero zero := by simp [d.text_eq_iff_isMinusZero.1 zero] at notZero

theorem PlainDecimal.isMinusZero_stripped (d : PlainDecimal) : d.stripped.isMinusZero = false := by
  change (d.negative && !d.dropZeros.isMinusZero && d.whole == ['0'] &&
    d.dropZeros.fraction == []) = false
  have zero : d.dropZeros.isMinusZero =
    (d.negative && d.whole == ['0'] && d.dropZeros.fraction == []) := rfl
  rw [zero]
  cases d.negative <;> cases d.whole == ['0'] <;> cases d.dropZeros.fraction == [] <;> rfl

theorem PlainDecimal.isPrinted_stripped (d : PlainDecimal) :
    IsPrinted d.fraction.length d.stripped.text := by
  have fraction : d.stripped.fraction = d.fraction.rdropWhile (· == '0') :=
    Text.dropEndWhile_eq_rdropWhile _ _
  refine isPrinted ?_ Text.eq_false_of_getLast?_dropEndWhile d.isMinusZero_stripped
  rw [fraction]
  exact (List.rdropWhile_prefix _ _).length_le

variable {x : Float} {places : Nat} {rounded : Rounded} {text : List Char}

/-- Behind a point the zeros say nothing. -/
theorem printed_of_places (h : roundHalfUp x places = .ok rounded) (positive : 0 < places) :
    ∃ number, denoted? ((Binary.ofFloat rounded.toFloat).fixed places) = some number ∧
      IsPrinted places rounded.text ∧ denoted? rounded.text = some number := by
  obtain ⟨fixed, length, written⟩ := exists_fixed_eq h positive
  obtain ⟨rfl, -⟩ := of_roundHalfUp h
  have some : fixed.fraction ≠ [] := by
    rwa [← List.length_pos_iff, length]
  refine ⟨fixed.value, ?_, ?_, ?_⟩
  · rw [written, PlainDecimal.denoted?_text]
  · rw [Rounded.text, written, PlainDecimal.stripZeros_text some, ← length]
    exact fixed.isPrinted_stripped
  · rw [Rounded.text, written, PlainDecimal.stripZeros_text some, PlainDecimal.denoted?_text,
      PlainDecimal.value_stripped]

/-- Without a point they are zeros of an integer. -/
theorem printed_of_no_places (h : roundHalfUp x 0 = .ok rounded) :
    ∃ number, denoted? ((Binary.ofFloat rounded.toFloat).fixed 0) = some number ∧
      IsPrinted 0 rounded.text ∧
      (denoted? rounded.text = some number ↔ ¬ (rounded.units ≠ 0 ∧ 10 ∣ rounded.units)) := by
  have written := fixed_of_no_places h
  obtain ⟨places, -⟩ := of_roundHalfUp h
  have none := List.eq_nil_of_length_eq_zero
    (PlainDecimal.length_fraction_ofUnits (rounded.units < 0) rounded.units.natAbs 0)
  have digits := PlainDecimal.digits_ofUnits (rounded.units < 0) rounded.units.natAbs 0
  generalize fixed_eq : PlainDecimal.ofUnits (rounded.units < 0) rounded.units.natAbs 0 = fixed at *
  refine ⟨fixed.value, by rw [written, PlainDecimal.denoted?_text], ?_⟩
  rw [Rounded.text, places, written]
  by_cases zero : rounded.units = 0
  · -- of a zero alone nothing would be left, and the zero is put back
    obtain rfl : PlainDecimal.ofUnits false 0 0 = fixed := by
      rw [← fixed_eq, zero]
      rfl
    have kept : stripZeros (PlainDecimal.ofUnits false 0 0).text =
        (PlainDecimal.ofUnits false 0 0).text := by decide
    rw [kept, PlainDecimal.denoted?_text]
    exact ⟨PlainDecimal.isPrinted (Nat.le_of_eq (by rw [none]; rfl)) (by simp [none]) rfl,
      by simp [zero]⟩
  · have some := PlainDecimal.dropEndWhile_whole_ne_nil none (by omega)
    rw [PlainDecimal.stripZeros_text_integer some none, PlainDecimal.denoted?_text,
      Option.some_inj, PlainDecimal.value_dropWholeZeros_iff some none, digits,
      ← Int.natCast_dvd]
    refine ⟨PlainDecimal.isPrinted (Nat.le_refl 0) (by simp [PlainDecimal.dropWholeZeros])
      (PlainDecimal.isMinusZero_dropWholeZeros some), ?_⟩
    simp [zero]

/-- **What is printed** has the form of a short numeral, and it denotes the number that was written
with all its places, unless there are no places and the number is a multiple of ten. -/
theorem roundedText_keeps_number_iff (h : roundedText x places = .ok text) :
    ∃ rounded number, roundHalfUp x places = .ok rounded ∧
      denoted? ((Binary.ofFloat rounded.toFloat).fixed places) = some number ∧
      IsPrinted places text ∧
      (denoted? text = some number ↔
        ¬ (places = 0 ∧ rounded.units ≠ 0 ∧ 10 ∣ rounded.units)) := by
  obtain ⟨rounded, hrounded, rfl⟩ := exists_rounded h
  rcases Nat.eq_zero_or_pos places with rfl | positive
  · obtain ⟨number, written, printed, kept⟩ := printed_of_no_places hrounded
    exact ⟨rounded, number, hrounded, written, printed, by simpa using kept⟩
  · obtain ⟨number, written, printed, kept⟩ := printed_of_places hrounded positive
    have some : ¬ (places = 0 ∧ rounded.units ≠ 0 ∧ 10 ∣ rounded.units) := fun none =>
      absurd none.1 (Nat.ne_of_gt positive)
    exact ⟨rounded, number, hrounded, written, printed, iff_of_true kept some⟩

/-- A hundred with two places is printed without them, and keeps its zeros. -/
theorem hundred_keeps_zeros :
    roundedText 100.0 2 = .ok ['1', '0', '0'] ∧
      denoted? ['1', '0', '0'] = denoted? ['1', '0', '0', '.', '0', '0'] := by
  have returned : roundedText 100.0 2 = .ok ['1', '0', '0'] := by decide +kernel
  obtain ⟨rounded, number, hrounded, written, -, kept⟩ := roundedText_keeps_number_iff returned
  have units : roundHalfUp 100.0 2 = .ok ⟨10000, 2⟩ := by decide +kernel
  obtain rfl : rounded = ⟨10000, 2⟩ := Except.ok.inj (hrounded.symm.trans units)
  have fixed : (Binary.ofFloat (Rounded.toFloat ⟨10000, 2⟩)).fixed 2 =
      ['1', '0', '0', '.', '0', '0'] := by decide +kernel
  rw [fixed] at written
  exact ⟨returned, (kept.2 (by simp)).trans written.symm⟩

/-- Ten without places is written as ten and printed as one. -/
theorem ten_without_places_is_printed_as_one :
    roundHalfUp 10.0 0 = .ok ⟨10, 0⟩ ∧
      (Binary.ofFloat (Rounded.toFloat ⟨10, 0⟩)).fixed 0 = ['1', '0'] ∧
      denoted? ['1', '0'] = some 10 ∧
      roundedText 10.0 0 = .ok ['1'] ∧ denoted? ['1'] = some 1 := by
  have ten : readUnsigned? false ['1', '0'] = some ⟨false, 10, 0⟩ := by decide
  have one : readUnsigned? false ['1'] = some ⟨false, 1, 0⟩ := by decide
  refine ⟨by decide +kernel, by decide +kernel, ?_, by decide +kernel, ?_⟩
  · simp [denoted?, takeSign, ten, Numeral.value]
  · simp [denoted?, takeSign, one, Numeral.value]

end DesignTokens.Decimal
