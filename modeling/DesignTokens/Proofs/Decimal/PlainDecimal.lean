import DesignTokens.Decimal.Numeral
import DesignTokens.Proofs.Decimal.Finite
import DesignTokens.Proofs.Text.Trimming

/-!
# Plain decimals

A plain decimal is a minus sign or none, digits, and a point with digits if there is a fraction:
what a rounded value is written as, and the simplest of the texts that are read as numbers.

* `PlainDecimal` carries its well-formedness; `PlainDecimal.ofUnits` is the one with a fixed number
  of places, and `PlainDecimal.stripped` the one without zeros at the end of the fraction.
* `fixed_eq_text` and `stripZeros_text` — the two steps of writing stay among the plain decimals.
* `PlainDecimal.readFloat?_text` — the reader takes a plain decimal for the numeral it is.
-/

namespace DesignTokens.Decimal

/-- The value of a digit. -/
def digitValue (c : Char) : Nat :=
  c.toNat - '0'.toNat

/-- A decimal written out: a sign, digits, and the digits after the point. -/
structure PlainDecimal where
  negative : Bool
  whole : List Char
  fraction : List Char
  whole_ne_nil : whole ≠ []
  isDigit_whole : ∀ c ∈ whole, c.isDigit = true
  isDigit_fraction : ∀ c ∈ fraction, c.isDigit = true

namespace PlainDecimal

/-- The sign and the digits before the point. -/
def integer (d : PlainDecimal) : List Char :=
  if d.negative then '-' :: d.whole else d.whole

/-- The text of a plain decimal; there is no point where there is no fraction. -/
def text (d : PlainDecimal) : List Char :=
  if d.fraction = [] then d.integer else d.integer ++ '.' :: d.fraction

/-- The numeral that a plain decimal writes. -/
def numeral (d : PlainDecimal) : Numeral :=
  { negative := d.negative
    digits := ofDigits ((d.whole ++ d.fraction).map digitValue)
    exponent := -(d.fraction.length : Int) }

/-- The double nearest to a plain decimal. -/
def toFloat (d : PlainDecimal) : Float :=
  d.numeral.toFloat

end PlainDecimal

/-! ### Characters -/

theorem isDigit_iff_toNat {c : Char} : c.isDigit = true ↔ 48 ≤ c.toNat ∧ c.toNat ≤ 57 := by
  simp only [Char.isDigit, ge_iff_le, Bool.and_eq_true, decide_eq_true_eq, UInt32.le_iff_toNat_le]
  rfl

theorem beq_point_of_isDigit {c : Char} (h : c.isDigit = true) : (c == '.') = false := by
  rw [beq_eq_false_iff_ne]
  rintro rfl
  exact absurd h (by decide)

namespace PlainDecimal

/-- The digits before the point come last in the text before it. -/
theorem isDigit_of_getLast?_integer {d : PlainDecimal} :
    ∀ c ∈ d.integer.getLast?, c.isDigit = true := by
  intro c hc
  have last : c ∈ d.whole.getLast? := by
    simp only [integer] at hc
    split at hc
    · rwa [List.getLast?_cons_of_ne_nil d.whole_ne_nil] at hc
    · exact hc
  exact d.isDigit_whole c (List.mem_of_getLast? last)

theorem text_eq_integer {d : PlainDecimal} (none : d.fraction = []) : d.text = d.integer :=
  if_pos none

/-- A plain decimal ends in a digit. -/
theorem isDigit_of_getLast?_text {d : PlainDecimal} : ∀ c ∈ d.text.getLast?, c.isDigit = true := by
  intro c hc
  by_cases none : d.fraction = []
  · rw [text_eq_integer none] at hc
    exact isDigit_of_getLast?_integer c hc
  · rw [text, if_neg none, List.getLast?_append_of_ne_nil _ (by simp),
      List.getLast?_cons_of_ne_nil none] at hc
    exact d.isDigit_fraction c (List.mem_of_getLast? hc)

end PlainDecimal

/-! ### Writing -/

theorem isDigit_of_mem_padZeros {count : Nat} {digits : List Char}
    (h : ∀ c ∈ digits, c.isDigit = true) : ∀ c ∈ padZeros count digits, c.isDigit = true := by
  intro c hc
  rcases List.mem_append.1 hc with zero | digit
  · rw [List.eq_of_mem_replicate zero]
    rfl
  · exact h c digit

theorem le_length_padZeros (count : Nat) (digits : List Char) :
    count ≤ (padZeros count digits).length := by
  simp [padZeros]
  omega

/-- The digits of `units`, one more than the places at least. -/
def unitDigits (units places : Nat) : List Char :=
  padZeros (places + 1) (natText units)

theorem isDigit_of_mem_unitDigits {units places : Nat} :
    ∀ c ∈ unitDigits units places, c.isDigit = true :=
  isDigit_of_mem_padZeros fun _ => Nat.isDigit_of_mem_toDigits (by decide) (by decide)

/-- `units * 10 ^ -places`, written with its places. -/
def PlainDecimal.ofUnits (negative : Bool) (units places : Nat) : PlainDecimal where
  negative := negative
  whole := (unitDigits units places).take ((unitDigits units places).length - places)
  fraction := (unitDigits units places).drop ((unitDigits units places).length - places)
  whole_ne_nil := by
    have long : places + 1 ≤ (unitDigits units places).length := le_length_padZeros _ _
    rw [← List.length_pos_iff, List.length_take]
    omega
  isDigit_whole c hc := isDigit_of_mem_unitDigits c (List.mem_of_mem_take hc)
  isDigit_fraction c hc := isDigit_of_mem_unitDigits c (List.mem_of_mem_drop hc)

/-- As many digits as there are places stand behind the point. -/
theorem PlainDecimal.length_fraction_ofUnits (negative : Bool) (units places : Nat) :
    (ofUnits negative units places).fraction.length = places := by
  have long : places + 1 ≤ (unitDigits units places).length := le_length_padZeros _ _
  simp only [ofUnits, List.length_drop]
  omega

theorem fixedText_eq_text (units places : Nat) :
    fixedText units places = (PlainDecimal.ofUnits false units places).text := by
  have length := PlainDecimal.length_fraction_ofUnits false units places
  have parts : (PlainDecimal.ofUnits false units places).whole ++
      (PlainDecimal.ofUnits false units places).fraction = unitDigits units places :=
    List.take_append_drop _ _
  cases places with
  | zero =>
    have none := List.eq_nil_of_length_eq_zero length
    rw [none, List.append_nil] at parts
    rw [PlainDecimal.text, if_pos none]
    exact parts.symm
  | succ places =>
    rw [PlainDecimal.text, if_neg (List.ne_nil_of_length_eq_add_one length)]
    rfl

theorem PlainDecimal.text_ofUnits_true (units places : Nat) :
    (ofUnits true units places).text = '-' :: (ofUnits false units places).text := by
  simp only [text, integer, ofUnits, if_true, Bool.false_eq_true, if_false]
  split <;> rfl

theorem fixed_eq_text (places : Nat) (negative : Bool) (mantissa : Nat) (exponent : Int) :
    (Binary.finite negative mantissa exponent).fixed places =
      (PlainDecimal.ofUnits negative
        (roundDiv (mantissa * powerOfTwo exponent.toNat * powerOfTen places)
          (powerOfTwo (-exponent).toNat)) places).text := by
  simp only [Binary.fixed, fixedText_eq_text]
  cases negative with
  | false => rfl
  | true => exact (PlainDecimal.text_ofUnits_true _ places).symm

/-! ### Stripping -/

namespace PlainDecimal

/-- A plain decimal without the zeros at the end of its fraction. -/
def dropZeros (d : PlainDecimal) : PlainDecimal :=
  { d with
    fraction := Text.dropEndWhile (· == '0') d.fraction
    isDigit_fraction := fun c hc => by
      rw [Text.dropEndWhile_eq_rdropWhile] at hc
      exact d.isDigit_fraction c ((List.rdropWhile_prefix _ _).subset hc) }

/-- Whether a plain decimal is written `-0`. -/
def isMinusZero (d : PlainDecimal) : Bool :=
  d.negative && d.whole == ['0'] && d.fraction == []

/-- A plain decimal without the zeros at the end of its fraction, and zero without a sign. -/
def stripped (d : PlainDecimal) : PlainDecimal :=
  { d.dropZeros with negative := d.negative && !d.dropZeros.isMinusZero }

/-- A plain decimal does not end in a point. -/
theorem dropEndWhile_point_text (d : PlainDecimal) :
    Text.dropEndWhile (· == '.') d.text = d.text :=
  Text.dropEndWhile_eq_self fun c hc => beq_point_of_isDigit (isDigit_of_getLast?_text c hc)

/-- Dropping zeros and then a point leaves the digits before the point alone. -/
theorem dropEndWhile_text {d : PlainDecimal} (h : d.fraction ≠ []) :
    Text.dropEndWhile (· == '.') (Text.dropEndWhile (· == '0') d.text) = d.dropZeros.text := by
  have zeros : Text.dropEndWhile (· == '0') d.text = d.integer ++ '.' :: d.dropZeros.fraction := by
    rw [text, if_neg h, Text.dropEndWhile_append_cons (by decide)]
    rfl
  rw [zeros, ← dropEndWhile_point_text d.dropZeros]
  by_cases none : d.dropZeros.fraction = []
  · -- nothing is left behind the point, and it goes
    rw [none, Text.dropEndWhile_append (by simp), text_eq_integer none]
    rfl
  · rw [text, if_neg none]
    rfl

/-- A plain decimal without a sign begins with a digit. -/
theorem exists_whole (d : PlainDecimal) :
    ∃ c rest, d.whole = c :: rest ∧ c.isDigit = true := by
  obtain ⟨c, rest, whole⟩ := List.exists_cons_of_ne_nil d.whole_ne_nil
  exact ⟨c, rest, whole, d.isDigit_whole c (by simp [whole])⟩

theorem text_eq_iff_isMinusZero (d : PlainDecimal) :
    d.text = ['-', '0'] ↔ d.isMinusZero = true := by
  obtain ⟨c, rest, whole, digit⟩ := d.exists_whole
  have noSign : c ≠ '-' := by
    rintro rfl
    exact absurd digit (by decide)
  simp only [text, integer, isMinusZero, whole]
  cases d.negative <;> by_cases none : d.fraction = [] <;> simp [none, noSign]

theorem text_ne_nil (d : PlainDecimal) : d.text ≠ [] := by
  simp only [text, integer]
  split_ifs <;> simp [d.whole_ne_nil]

/-- Stripping drops the zeros of the fraction, and the sign if zero is left. -/
theorem stripZeros_text {d : PlainDecimal} (h : d.fraction ≠ []) :
    stripZeros d.text = d.stripped.text := by
  simp only [stripZeros, dropEndWhile_text h, text_ne_nil, false_or, text_eq_iff_isMinusZero]
  by_cases zero : d.dropZeros.isMinusZero = true
  · have parts : d.stripped.whole = ['0'] ∧ d.stripped.fraction = [] := by
      simp only [isMinusZero, Bool.and_eq_true, beq_iff_eq] at zero
      exact ⟨zero.1.2, zero.2⟩
    have unsigned : d.stripped.negative = false := by simp [stripped, zero]
    rw [if_pos zero, text, if_pos parts.2, integer, unsigned]
    exact parts.1.symm
  · have same : d.stripped.negative = d.negative := by simp [stripped, zero]
    rw [if_neg zero, text, text, integer, integer, same]
    rfl

end PlainDecimal

variable {x : Float} {places : Nat} {rounded : Rounded} {text : List Char}

/-- A rounded value is written with its places. -/
theorem exists_fixed_eq (h : roundHalfUp x places = .ok rounded) (positive : 0 < places) :
    ∃ d : PlainDecimal, d.fraction.length = places ∧
      (Binary.ofFloat rounded.toFloat).fixed rounded.places = d.text := by
  obtain ⟨negative, mantissa, exponent, decoded⟩ := isFinite_toFloat h positive
  obtain ⟨rfl, -⟩ := of_roundHalfUp h
  rw [decoded, fixed_eq_text]
  exact ⟨_, PlainDecimal.length_fraction_ofUnits _ _ _, rfl⟩

/-- What a rounded value is written as: a plain decimal without zeros at its end. -/
theorem exists_text_eq (h : roundHalfUp x places = .ok rounded) (positive : 0 < places) :
    ∃ d : PlainDecimal, d.text = rounded.text := by
  obtain ⟨fixed, length, written⟩ := exists_fixed_eq h positive
  have some : fixed.fraction ≠ [] := by
    rwa [← List.length_pos_iff, length]
  exact ⟨fixed.stripped, by rw [Rounded.text, written, PlainDecimal.stripZeros_text some]⟩

/-- The text is that of the rounded value. -/
theorem exists_rounded (h : roundedText x places = .ok text) :
    ∃ rounded, roundHalfUp x places = .ok rounded ∧ rounded.text = text := by
  rw [roundedText] at h
  cases hrounded : roundHalfUp x places with
  | error _ => simp [hrounded, Except.map] at h
  | ok rounded =>
    rw [hrounded] at h
    exact ⟨rounded, rfl, Except.ok.inj h⟩

theorem exists_text_of_roundedText (h : roundedText x places = .ok text) (positive : 0 < places) :
    ∃ d : PlainDecimal, d.text = text := by
  obtain ⟨rounded, hrounded, rfl⟩ := exists_rounded h
  exact exists_text_eq hrounded positive

/-! ### Reading -/

theorem asciiDigit?_of_isDigit {c : Char} (h : c.isDigit = true) :
    asciiDigit? c = some (digitValue c) := by
  have range : '0' ≤ c ∧ c ≤ '9' := isDigit_iff_toNat.1 h
  rw [asciiDigit?, if_pos range, digitValue]

theorem takeDigits_append {digits rest : List Char} (h : ∀ c ∈ digits, c.isDigit = true)
    (hrest : ∀ c ∈ rest.head?, asciiDigit? c = none) :
    takeDigits (digits ++ rest) = (digits.map digitValue, rest) := by
  induction digits with
  | nil =>
    cases rest with
    | nil => rfl
    | cons c rest => simp [takeDigits, hrest c rfl]
  | cons c digits ih =>
    obtain ⟨digit, others⟩ := List.forall_mem_cons.1 h
    simp [takeDigits, asciiDigit?_of_isDigit digit, ih others]

namespace PlainDecimal

/-- The text without the sign. -/
def unsigned (d : PlainDecimal) : List Char :=
  d.whole ++ if d.fraction = [] then [] else '.' :: d.fraction

theorem takeSign_text (d : PlainDecimal) : takeSign d.text = (d.negative, d.unsigned) := by
  obtain ⟨c, rest, whole, digit⟩ := d.exists_whole
  have first : c ≠ '-' ∧ c ≠ '+' := by
    constructor <;> (rintro rfl; exact absurd digit (by decide))
  simp only [text, integer, unsigned, whole]
  cases d.negative <;> by_cases none : d.fraction = [] <;> simp [none, takeSign, first]

theorem readUnsigned?_unsigned (d : PlainDecimal) :
    readUnsigned? d.negative d.unsigned = some d.numeral := by
  have noDigit : asciiDigit? '.' = none := by decide
  by_cases none : d.fraction = []
  · have whole : takeDigits d.unsigned = (d.whole.map digitValue, []) := by
      rw [unsigned, if_pos none, takeDigits_append d.isDigit_whole (by simp)]
    simp [readUnsigned?, whole, numeral, none, d.whole_ne_nil]
  · have whole : takeDigits d.unsigned = (d.whole.map digitValue, '.' :: d.fraction) := by
      rw [unsigned, if_neg none, takeDigits_append d.isDigit_whole (by simp [noDigit])]
    have fraction : takeDigits d.fraction = (d.fraction.map digitValue, []) := by
      simpa using @takeDigits_append d.fraction [] d.isDigit_fraction (by simp)
    simp [readUnsigned?, whole, fraction, numeral, d.whole_ne_nil]

end PlainDecimal

end DesignTokens.Decimal
