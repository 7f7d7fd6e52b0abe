import DesignTokens.Proofs.Decimal.Packing
import DesignTokens.Proofs.Decimal.Value

/-!
# Rounded values that are not zero

A value that rounds to one unit or more in its last place is not written as zero. The double
nearest to the decimal may lie below it, but it has the same leading bit or the next one, and half
a unit is enough for the last place to be printed.

* `Normal` — an unpacked number with all its 53 bits.
* `normal_roundWithAccuracy` and `normal_div` — rounding and division lose no leading bit.
* `AtLeast` and `atLeast_pack` — what the decoder makes of a normal number that is packed.
* `text_ne_zero` — the theorem.
-/

namespace DesignTokens.Decimal

open Float.Model (UnpackedFloat totalExponent Format)
open Float.Model.UnpackedFloat (ExtendedMantissa Accuracy Sign)

variable {sign : Sign} {mantissa : Nat} {exponent : Int} {accuracy : Accuracy}
  {number divisor : UnpackedFloat} {bottom : Int}

/-! ### Normal numbers -/

/-- An unpacked number that has all its bits and is at least half a power of two. -/
def Normal (bottom : Int) : UnpackedFloat → Prop
  | .finite _ mantissa exponent _ =>
    2 ^ 52 ≤ mantissa ∧ mantissa < 2 ^ 53 ∧ -1074 ≤ exponent ∧ bottom ≤ 53 + exponent
  | _ => False

/-- A number with bits enough is shifted until it has 53 of them. -/
theorem shiftToTargetExponent_of_bits (bits : 52 ≤ mantissa.log2)
    (range : -1021 ≤ totalExponent mantissa exponent) :
    (UnpackedFloat.shiftToTargetExponent .binary64 mantissa exponent accuracy).2 =
        totalExponent mantissa exponent - 53 ∧
      2 ^ 52 ≤
        (UnpackedFloat.shiftToTargetExponent .binary64 mantissa exponent accuracy).1.mantissa := by
  have nonzero : mantissa ≠ 0 := fun zero => by simp [zero] at bits
  simp only [UnpackedFloat.shiftToTargetExponent, UnpackedFloat.shiftToExponent,
    mantissa_shiftRight, mantissa_ofMantissaAndAccuracy, targetExponent_binary64]
  simp only [totalExponent] at range ⊢
  refine ⟨by omega, ?_⟩
  rw [Nat.le_div_iff_mul_le (Nat.two_pow_pos _), ← Nat.pow_add]
  refine Nat.le_trans (Nat.pow_le_pow_right (by decide) ?_) (Nat.log2_self_le nonzero)
  omega

/-- A number with bits enough keeps its leading bit, or carries into the next. -/
theorem normal_roundWithAccuracy (bits : 52 ≤ mantissa.log2)
    (range : -1021 ≤ totalExponent mantissa exponent) :
    Normal (totalExponent mantissa exponent)
      (UnpackedFloat.roundWithAccuracy .binary64 sign mantissa exponent accuracy) := by
  obtain ⟨first, long⟩ := @shiftToTargetExponent_of_bits mantissa exponent accuracy bits range
  unfold UnpackedFloat.roundWithAccuracy
  generalize UnpackedFloat.shiftToTargetExponent .binary64 mantissa exponent accuracy = shifted at *
  obtain ⟨em, e⟩ := shifted
  obtain rfl : e = totalExponent mantissa exponent - 53 := first
  have rounded : 52 ≤ em.roundedMantissa.log2 := by
    have le := Nat.le_trans long (roundedMantissa_bounds em).1
    exact (Nat.le_log2 (by omega)).2 le
  have top : totalExponent mantissa exponent ≤
      totalExponent em.roundedMantissa (totalExponent mantissa exponent - 53) := by
    simp only [totalExponent]
    omega
  -- after the rounding the bits are counted again, and they may have become one more
  obtain ⟨second, enough⟩ := @shiftToTargetExponent_of_bits em.roundedMantissa
    (totalExponent mantissa exponent - 53) .exact rounded (Int.le_trans range top)
  have short := @shiftToTargetExponent_mantissa_lt em.roundedMantissa
    (totalExponent mantissa exponent - 53) .exact
  simp only
  generalize UnpackedFloat.shiftToTargetExponent .binary64 em.roundedMantissa
    (totalExponent mantissa exponent - 53) .exact = final at *
  rw [dif_neg (by omega)]
  exact ⟨enough, short, by omega, by omega⟩

/-! ### Division -/

theorem Normal.mono {lower : Int} (h : Normal bottom number) (le : lower ≤ bottom) :
    Normal lower number := by
  cases number with
  | finite => exact ⟨h.1, h.2.1, h.2.2.1, Int.le_trans le h.2.2.2⟩
  | _ => exact h

theorem log2_le_log2_div {numerator denominator : Nat} (positive : 0 < denominator) :
    numerator.log2 ≤ (numerator / denominator).log2 + denominator.log2 + 1 := by
  have below : numerator < 2 ^ ((numerator / denominator).log2 + 1 + (denominator.log2 + 1)) := by
    calc numerator < denominator * (numerator / denominator + 1) := Nat.lt_mul_div_succ _ positive
      _ ≤ 2 ^ (denominator.log2 + 1) * 2 ^ ((numerator / denominator).log2 + 1) :=
        Nat.mul_le_mul (Nat.le_of_lt Nat.lt_log2_self) Nat.lt_log2_self
      _ = 2 ^ ((numerator / denominator).log2 + 1 + (denominator.log2 + 1)) := by
        rw [← Nat.pow_add, Nat.add_comm]
  have bits := log2_lt_of_lt (by omega) below
  omega

/-- The leading bit of a quotient is where the leading bits of the numbers put it, or the next
one. -/
theorem normal_div {top lower : Int} (large : TopAtLeast bottom number)
    (small : TopAtMost top divisor) (nonzero : TopAtLeast lower divisor)
    (range : -1021 ≤ bottom - top) :
    Normal (bottom - top) (UnpackedFloat.div .binary64 number divisor) := by
  match number, divisor, large, small with
  | .finite _ m₁ e₁ positive₁, .finite _ m₂ e₂ positive₂, large, small =>
    simp only [TopAtMost, TopAtLeast, totalExponent] at small large
    simp only [UnpackedFloat.div, UnpackedFloat.divCore, targetExponent_binary64, totalExponent]
    generalize target : min (e₁ - e₂) _ = e
    have quotient := @log2_le_log2_div (m₁ <<< (e₁ - e₂ - e).toNat) m₂ positive₂
    rw [log2_shiftLeft positive₁] at quotient
    have bits : 52 ≤ (m₁ <<< (e₁ - e₂ - e).toNat / m₂).log2 := by omega
    refine (normal_roundWithAccuracy bits ?_).mono ?_
    · simp only [totalExponent]
      omega
    · simp only [totalExponent]
      omega
  | .zero _, _, large, _ => exact large.elim
  | .infinity _, _, large, _ => exact large.elim
  | .notANumber, _, large, _ => exact large.elim
  | _, .infinity _, _, small => exact small.elim
  | _, .notANumber, _, small => exact small.elim
  | .finite _ _ _ _, .zero _, _, _ => exact nonzero.elim

/-! ### Normal numbers in bits -/

/-- A finite double that is at least half a power of two. -/
def AtLeast (bottom : Int) (x : Float) : Prop :=
  ∃ negative mantissa exponent, Binary.ofFloat x = .finite negative mantissa exponent ∧
    0 < mantissa ∧ bottom ≤ totalExponent mantissa exponent

variable {x : Float}

/-- A normal number is decoded, and unpacked, with its leading bit. -/
theorem atLeast_pack (normal : Normal bottom number) (small : ExponentAtMost 971 number) :
    AtLeast bottom ⟨Float.Model.pack number⟩ ∧
      TopAtLeast bottom (Float.Model.pack number).unpack := by
  match number, normal, small with
  | .finite sign mantissa exponent positive, ⟨long, short, low, top⟩, small =>
    have full : IsFull mantissa exponent := ⟨long, short, low, small⟩
    have unpacked : (Float.Model.pack (.finite sign mantissa exponent positive)).unpack =
        .finite sign mantissa exponent positive := full.unpack_pack positive
    have leading : bottom ≤ totalExponent mantissa exponent := by
      simp only [totalExponent, full.log2_eq]
      omega
    rw [unpacked]
    exact ⟨⟨isMinus sign, mantissa, exponent, ofFloat_of_unpack unpacked, positive, leading⟩,
      leading⟩

/-! ### Decimals -/

theorem topAtLeast_ofNat {n : Nat} (positive : 0 < n) (bits : n.log2 < 64) :
    TopAtLeast (n.log2 + 1) (Float.Model.pack (UnpackedFloat.ofNat .binary64 n)).unpack := by
  obtain ⟨amount, long, rounded⟩ := ofNat_eq positive
  have shifted := log2_shiftLeft positive amount
  have top : totalExponent (n <<< amount) (-amount) = n.log2 + 1 := by
    simp only [totalExponent, shifted]
    omega
  have normal : Normal (n.log2 + 1) (UnpackedFloat.ofNat .binary64 n) := by
    rw [rounded, ← top]
    exact normal_roundWithAccuracy (by omega) (by omega)
  exact (atLeast_pack normal (exponentAtMost_ofNat bits)).2

theorem topAtMost_powersOfTen :
    ∀ (places : Nat) (_ : places < Float.exactlyRepresentablePowersOfTen.size),
      TopAtMost ((10 ^ places).log2 + 1)
        Float.exactlyRepresentablePowersOfTen[places].toModel.unpack := by
  decide +kernel

/-- The double nearest to a decimal has the leading bit of the quotient. -/
theorem atLeast_ofScientific {digits places : Nat} (digits_pos : 0 < digits)
    (bits : digits.log2 < 1024) (places_pos : 0 < places) (few : places ≤ 22) :
    AtLeast (digits.log2 - (10 ^ places).log2) (Float.ofScientific digits true places) := by
  have power : (10 ^ places).log2 < 74 := by
    refine log2_lt_of_lt (by decide) ?_
    calc 10 ^ places ≤ 10 ^ 22 := Nat.pow_le_pow_right (by decide) few
      _ < 2 ^ 74 := by decide
  have range : -1021 ≤ ((digits.log2 : Int) + 1) - ((10 ^ places).log2 + 1) := by omega
  have same : (digits.log2 : Int) - (10 ^ places).log2 ≤
      ((digits.log2 : Int) + 1) - ((10 ^ places).log2 + 1) := by omega
  unfold Float.ofScientific
  split
  next short =>
    have value : digits.toUInt64.toNat = digits :=
      UInt64.toNat_ofNat_of_lt' (Nat.lt_trans short.1 (by decide))
    have numerator : TopAtLeast (digits.log2 + 1) digits.toUInt64.toFloat.toModel.unpack := by
      change TopAtLeast _ (Float.Model.pack (UnpackedFloat.ofNat .binary64
        digits.toUInt64.toNat)).unpack
      rw [value]
      exact topAtLeast_ofNat digits_pos
        (log2_lt_of_lt (by decide) (Nat.lt_trans short.1 (by decide)))
    -- few digits over a power of ten from the table
    have inTable := Nat.lt_succ_of_le short.2
    have denominator := topAtLeast_powersOfTen places inTable places_pos
    have normal := normal_div numerator (topAtMost_powersOfTen places inTable) denominator range
    have finite := isFinite_toFloat_uint64 digits.toUInt64
    have small := exponentAtMost_div (exponentAtMost_unpack finite).2 denominator
    exact (atLeast_pack (normal.mono same) (small.mono (by decide))).1
  next =>
    obtain ⟨-, rfl | tiny⟩ | ⟨h₁, h₂, quotient⟩ := @ofScientific_cases digits places places_pos
    · exact absurd digits_pos (Nat.lt_irrefl 0)
    · omega
    · have numerator : TopAtLeast (digits.log2 + 1) (.finite .positive digits 0 h₁) := by
        simp only [TopAtLeast, totalExponent]
        omega
      have denominator : TopAtMost ((10 ^ places).log2 + 1)
          (.finite .positive (10 ^ places) 0 h₂) := by
        simp only [TopAtMost, totalExponent]
        omega
      have nonzero : TopAtLeast 1 (.finite .positive (10 ^ places) 0 h₂) := by
        simp only [TopAtLeast, totalExponent]
        omega
      have normal := normal_div numerator denominator nonzero range
      rw [← quotient] at normal
      exact (atLeast_pack (normal.mono same) (exponentAtMost_ofScientific bits places_pos)).1

/-! ### In print -/

/-- A quotient above one half does not round to zero. -/
theorem roundDiv_pos {numerator denominator : Nat} (h : denominator < 2 * numerator) :
    0 < roundDiv numerator denominator := by
  simp only [roundDiv]
  by_cases zero : numerator / denominator = 0
  · have rest : numerator % denominator = numerator := by
      have parts := Nat.mod_add_div numerator denominator
      rwa [zero, Nat.mul_zero, Nat.add_zero] at parts
    have above : compare (2 * numerator) denominator = .gt := Nat.compare_eq_gt.2 h
    rw [rest, above]
    exact Nat.succ_pos _
  · have positive := Nat.pos_of_ne_zero zero
    split
    · exact positive
    · exact Nat.succ_pos _
    · split
      · exact positive
      · exact Nat.succ_pos _

/-- No power of ten but the first is a power of two. -/
theorem two_pow_log2_lt {places : Nat} (positive : 0 < places) :
    2 ^ (10 ^ places).log2 < 10 ^ places := by
  refine Nat.lt_of_le_of_ne (Nat.log2_self_le (Nat.ne_of_gt (Nat.pow_pos (by decide)))) ?_
  intro same
  -- five divides the one and not the other
  have five : 5 ∣ 2 ^ (10 ^ places).log2 := by
    rw [same]
    exact dvd_pow (by decide) (Nat.ne_of_gt positive)
  exact absurd (Nat.prime_five.dvd_of_dvd_pow five) (by decide)

/-- What is more than half a unit is printed as one unit or more. -/
theorem fixed_units_pos {places : Nat} (positive : 0 < mantissa) (places_pos : 0 < places)
    (h : -((10 ^ places).log2 : Int) ≤ totalExponent mantissa exponent) :
    0 < roundDiv (mantissa * powerOfTwo exponent.toNat * powerOfTen places)
      (powerOfTwo (-exponent).toNat) := by
  apply roundDiv_pos
  simp only [totalExponent] at h
  have leading : 2 ^ mantissa.log2 ≤ mantissa := Nat.log2_self_le (Nat.ne_of_gt positive)
  calc powerOfTwo (-exponent).toNat
      ≤ 2 ^ (1 + (mantissa.log2 + exponent.toNat + (10 ^ places).log2)) :=
        Nat.pow_le_pow_right (by decide) (by omega)
    _ = 2 * (2 ^ mantissa.log2 * 2 ^ exponent.toNat * 2 ^ (10 ^ places).log2) := by
        rw [Nat.pow_add, Nat.pow_add, Nat.pow_add, Nat.pow_one]
    _ < 2 * (mantissa * powerOfTwo exponent.toNat * powerOfTen places) := by
        refine Nat.mul_lt_mul_of_pos_left (Nat.mul_lt_mul_of_le_of_lt ?_ ?_ ?_) (by decide)
        · exact Nat.mul_le_mul_right _ leading
        · exact two_pow_log2_lt places_pos
        · exact Nat.mul_pos positive (powerOfTwo_pos _)

variable {places : Nat} {rounded : Rounded}

/-- A value that rounds to one unit of its last place or more is not written as zero. -/
theorem text_ne_zero (h : roundHalfUp x places = .ok rounded) (places_pos : 0 < places)
    (few : places ≤ 22) (units_pos : 0 < rounded.units) : rounded.text ≠ ['0'] := by
  obtain ⟨rfl, held⟩ := of_roundHalfUp h
  have value : rounded.toFloat = Float.ofScientific rounded.units.natAbs true rounded.places := by
    rw [Rounded.toFloat, if_neg (by omega)]
  obtain ⟨negative, mantissa, exponent, decoded, positive, top⟩ :=
    atLeast_ofScientific (Int.natAbs_pos.2 (by omega)) held.log2_lt places_pos few
  rw [Rounded.text, value, decoded, fixed_eq_text, PlainDecimal.stripZeros_text]
  · intro zero
    have units : 0 < roundDiv (mantissa * powerOfTwo exponent.toNat * powerOfTen rounded.places)
        (powerOfTwo (-exponent).toNat) := fixed_units_pos positive places_pos (by omega)
    exact absurd (PlainDecimal.eq_zero_of_text_stripped zero) (Nat.ne_of_gt units)
  · rw [← List.length_pos_iff, PlainDecimal.length_fraction_ofUnits]
    exact places_pos

end DesignTokens.Decimal
