import DesignTokens.Proofs.Decimal.Packing
import DesignTokens.Proofs.Decimal.PlainDecimal

/-!
# Whole numbers in print

A value that is rounded to no places is printed exactly. It was rounded down from a double, so all
its bits but 53 are zeros, and a natural of this kind is a double itself. On the way to it nothing
is rounded: neither the conversion of the digits nor the division by one.

* `IsFull.round` — a number that has all its bits is rounded without a loss.
* `IsBitsOf` — the bits of a natural that a double holds; `IsBitsOf.ofScientific_eq` — the natural
  is converted to them.
* `fixed_of_no_places` — the theorem.
-/

namespace DesignTokens.Decimal

open Float.Model (UnpackedFloat totalExponent Format)
open Float.Model.UnpackedFloat (ExtendedMantissa Accuracy Sign)

variable {sign : Sign} {mantissa : Nat} {exponent : Int}

/-! ### Rounding without a loss -/

/-- Zeros are shifted out without a trace. -/
theorem shiftRight_mul_two_pow (shift : Nat) :
    ExtendedMantissa.ofMantissaAndAccuracy (mantissa * 2 ^ shift) .exact >>> shift =
      ExtendedMantissa.ofMantissaAndAccuracy mantissa .exact := by
  change shift.repeat ExtendedMantissa.shiftRightOne _ = _
  induction shift generalizing mantissa with
  | zero => simp [Nat.repeat]
  | succ shift ih =>
    have twice : mantissa * 2 ^ (shift + 1) = mantissa * 2 * 2 ^ shift := by
      rw [Nat.pow_succ', Nat.mul_assoc]
    rw [Nat.repeat, twice, ih]
    simp [ExtendedMantissa.shiftRightOne, ExtendedMantissa.ofMantissaAndAccuracy]

theorem IsFull.log2_shifted (full : IsFull mantissa exponent) (shift : Nat) :
    (mantissa * 2 ^ shift).log2 = 52 + shift := by
  rw [← Nat.shiftLeft_eq, log2_shiftLeft full.pos, full.log2_eq]

/-- **Rounding** drops zeros behind 53 bits and nothing else. -/
theorem IsFull.round {shift : Nat} {bottom : Int} (full : IsFull mantissa exponent)
    (h : bottom + shift = exponent) :
    UnpackedFloat.roundWithAccuracy .binary64 sign (mantissa * 2 ^ shift) bottom .exact =
      .finite sign mantissa exponent full.pos := by
  subst h
  have low := full.low
  have first : UnpackedFloat.shiftToTargetExponent .binary64 (mantissa * 2 ^ shift) bottom
      .exact = (ExtendedMantissa.ofMantissaAndAccuracy mantissa .exact, bottom + shift) := by
    have target : (max (((52 + shift : Nat) : Int) + 1 + bottom - 53) (-1074) - bottom).toNat =
        shift := by omega
    simp only [UnpackedFloat.shiftToTargetExponent, UnpackedFloat.shiftToExponent,
      targetExponent_binary64, totalExponent, full.log2_shifted, target, shiftRight_mul_two_pow]
  -- after the rounding the bits are counted again, and they are as many as before
  have second : UnpackedFloat.shiftToTargetExponent .binary64 mantissa (bottom + shift) .exact =
      (ExtendedMantissa.ofMantissaAndAccuracy mantissa .exact, bottom + shift) := by
    have target : (max (((52 : Nat) : Int) + 1 + (bottom + shift) - 53) (-1074) -
        (bottom + shift)).toNat = 0 := by omega
    simp only [UnpackedFloat.shiftToTargetExponent, UnpackedFloat.shiftToExponent,
      targetExponent_binary64, totalExponent, full.log2_eq, target]
    rw [Int.natCast_zero, Int.add_zero]
    rfl
  have kept : (ExtendedMantissa.ofMantissaAndAccuracy mantissa .exact).roundedMantissa =
      mantissa := rfl
  simp only [UnpackedFloat.roundWithAccuracy, first, kept, second,
    mantissa_ofMantissaAndAccuracy]
  rw [dif_neg (Nat.ne_of_gt full.pos)]

/-! ### Naturals that doubles hold -/

/-- A quotient without a remainder is not rounded. -/
theorem roundDiv_mul_right {n denominator : Nat} (positive : 0 < denominator) :
    roundDiv (n * denominator) denominator = n := by
  have below : compare (2 * 0) denominator = .lt := Nat.compare_eq_lt.2 positive
  simp only [roundDiv, Nat.mul_div_cancel _ positive, Nat.mul_mod_left, below]

/-- The bits of a natural, 53 of them, at the exponent that makes them the natural. -/
structure IsBitsOf (n mantissa : Nat) : Prop where
  full : IsFull mantissa (n.log2 - 52)
  same : n * 2 ^ 53 = mantissa * 2 ^ (n.log2 + 1)

variable {n : Nat}

theorem Held.exists_isBitsOf (held : Held n) (positive : 0 < n) :
    ∃ mantissa, IsBitsOf n mantissa := by
  obtain ⟨front, zeros, rfl, short, few⟩ := held
  have front_pos : 0 < front := Nat.pos_of_mul_pos_right positive
  have bits : front.log2 < 53 := log2_lt_of_lt (by decide) short
  have top : (front * 2 ^ zeros).log2 = front.log2 + zeros := by
    rw [← Nat.shiftLeft_eq, log2_shiftLeft front_pos]
  have filled : (front * 2 ^ (52 - front.log2)).log2 = 52 := by
    rw [← Nat.shiftLeft_eq, log2_shiftLeft front_pos]
    omega
  have nonzero : front * 2 ^ (52 - front.log2) ≠ 0 :=
    Nat.ne_of_gt (Nat.mul_pos front_pos (Nat.two_pow_pos _))
  obtain ⟨long, below⟩ := (Nat.log2_eq_iff nonzero).1 filled
  refine ⟨front * 2 ^ (52 - front.log2), ⟨long, below, by omega, by omega⟩, ?_⟩
  rw [top, Nat.mul_assoc, Nat.mul_assoc, ← Nat.pow_add, ← Nat.pow_add]
  congr 2
  omega

/-- A power of ten that is one changes nothing. -/
theorem unpack_one :
    ∃ positive, Float.exactlyRepresentablePowersOfTen[0].toModel.unpack =
      .finite .positive (2 ^ 52) (-52) positive :=
  ⟨by decide, rfl⟩

namespace IsBitsOf

variable (bits : IsBitsOf n mantissa)

include bits

theorem mul_two_pow_eq {amount shift : Nat} (h : amount + (n.log2 + 1) = shift + 53) :
    n * 2 ^ amount = mantissa * 2 ^ shift := by
  refine Nat.eq_of_mul_eq_mul_right (Nat.two_pow_pos 53) ?_
  calc n * 2 ^ amount * 2 ^ 53 = n * 2 ^ 53 * 2 ^ amount := Nat.mul_right_comm _ _ _
    _ = mantissa * 2 ^ (n.log2 + 1) * 2 ^ amount := by rw [bits.same]
    _ = mantissa * 2 ^ (amount + (n.log2 + 1)) := by
      rw [Nat.mul_assoc, ← Nat.pow_add, Nat.add_comm]
    _ = mantissa * 2 ^ shift * 2 ^ 53 := by rw [h, Nat.pow_add, Nat.mul_assoc]

theorem ofNat_eq_finite (positive : 0 < n) :
    UnpackedFloat.ofNat .binary64 n =
      .finite .positive mantissa (n.log2 - 52) bits.full.pos := by
  obtain ⟨amount, long, rounded⟩ := ofNat_eq positive
  have shifted : n * 2 ^ amount = mantissa * 2 ^ (n.log2 + amount - 52) :=
    bits.mul_two_pow_eq (by omega)
  rw [rounded, Nat.shiftLeft_eq, shifted, bits.full.round (by omega)]

/-- A quotient by one is the number. -/
theorem div_one_eq (positive : 0 < 2 ^ 52) :
    UnpackedFloat.div .binary64 (.finite .positive mantissa (n.log2 - 52) bits.full.pos)
        (.finite .positive (2 ^ 52) (-52) positive) =
      .finite .positive mantissa (n.log2 - 52) bits.full.pos := by
  have unit : (2 ^ 52 : Nat).log2 = 52 := Nat.log2_two_pow
  have target : min ((n.log2 : Int) - 52 - -52)
      (max (((52 : Nat) : Int) + 1 + (n.log2 - 52) - (((52 : Nat) : Int) + 1 + -52) - 53) (-1074)) =
        n.log2 - 53 := by omega
  have amount : ((n.log2 : Int) - 52 - -52 - (n.log2 - 53)).toNat = 53 := by omega
  have twice : mantissa * 2 ^ 53 = mantissa * 2 ^ 1 * 2 ^ 52 := by omega
  simp only [UnpackedFloat.div, UnpackedFloat.divCore, targetExponent_binary64, totalExponent,
    bits.full.log2_eq, unit, target, amount, Nat.shiftLeft_eq]
  rw [twice, Nat.mul_div_cancel _ positive, Nat.mul_mod_left]
  -- no remainder is left, so the quotient is exact
  exact bits.full.round (by omega)

/-- **Naturals are converted exactly**, if doubles hold them. -/
theorem ofScientific_eq (positive : 0 < n) :
    Float.ofScientific n true 0 =
      ⟨Float.Model.pack (.finite .positive mantissa (n.log2 - 52) bits.full.pos)⟩ := by
  unfold Float.ofScientific
  split
  next short =>
    -- few digits are a quotient by a power of ten from the table, which is one here
    have value : n.toUInt64.toNat = n :=
      UInt64.toNat_ofNat_of_lt' (Nat.lt_trans short.1 (by decide))
    have numerator : n.toUInt64.toFloat.toModel.unpack =
        .finite .positive mantissa (n.log2 - 52) bits.full.pos := by
      change (Float.Model.pack (UnpackedFloat.ofNat .binary64 n.toUInt64.toNat)).unpack = _
      rw [value, bits.ofNat_eq_finite positive, bits.full.unpack_pack]
    obtain ⟨unit_pos, unit⟩ := unpack_one
    change Float.ofModel (Float.Model.pack (UnpackedFloat.div .binary64
      n.toUInt64.toFloat.toModel.unpack
      Float.exactlyRepresentablePowersOfTen[0].toModel.unpack)) = _
    rw [numerator, unit, bits.div_one_eq]
  next =>
    -- many digits are a product with a power of ten, which is one here
    have none : Int.negOfNat 0 = 0 := rfl
    have range : (2 : Int) ^ Format.binary64.exponentBits = 2048 := by decide
    have width : Format.binary64.mantissaBits = 53 := rfl
    have shifted : n <<< 53 * 10 ^ 0 = mantissa * 2 ^ (n.log2 + 1) := by
      rw [Nat.pow_zero, Nat.mul_one, Nat.shiftLeft_eq, bits.same]
    simp only [if_true, none, Float.Model.ofScientific, UnpackedFloat.ofScientific, range]
    rw [dif_neg (Nat.ne_of_gt positive), if_neg (by omega), if_neg (by omega), if_pos (by omega)]
    simp only [UnpackedFloat.mul, width, Int.toNat_zero]
    rw [shifted, bits.full.round (by omega)]
    rfl

/-- The decoder finds the bits, whatever the sign. -/
theorem ofFloat_pack (sign : Sign) :
    Binary.ofFloat ⟨Float.Model.pack (.finite sign mantissa (n.log2 - 52) bits.full.pos)⟩ =
      .finite (isMinus sign) mantissa (n.log2 - 52) :=
  ofFloat_of_unpack (bits.full.unpack_pack bits.full.pos)

/-- In units of one, the bits at their exponent are the natural. -/
theorem units_eq :
    roundDiv (mantissa * powerOfTwo ((n.log2 : Int) - 52).toNat * powerOfTen 0)
      (powerOfTwo (-((n.log2 : Int) - 52)).toNat) = n := by
  have scaled : mantissa * powerOfTwo ((n.log2 : Int) - 52).toNat * powerOfTen 0 =
      n * powerOfTwo (-((n.log2 : Int) - 52)).toNat := by
    have one : powerOfTen 0 = 1 := rfl
    rw [one, Nat.mul_one]
    exact (bits.mul_two_pow_eq (by omega)).symm
  rw [scaled, roundDiv_mul_right (powerOfTwo_pos _)]

end IsBitsOf

/-! ### In print -/

variable {x : Float} {units : Int} {rounded : Rounded}

/-- A whole number has the bits of its magnitude. -/
theorem exists_toFloat_eq (bits : IsBitsOf units.natAbs mantissa) (nonzero : units ≠ 0) :
    ∃ sign, isMinus sign = decide (units < 0) ∧ (Rounded.mk units 0).toFloat =
      ⟨Float.Model.pack (.finite sign mantissa (units.natAbs.log2 - 52) bits.full.pos)⟩ := by
  have magnitude := bits.ofScientific_eq (Int.natAbs_pos.2 nonzero)
  by_cases below : units < 0
  · refine ⟨.negative, (decide_eq_true below).symm, ?_⟩
    simp only [Rounded.toFloat, if_pos below, magnitude]
    change Float.ofModel (Float.Model.pack (UnpackedFloat.neg (Float.Model.pack _).unpack)) = _
    rw [bits.full.unpack_pack]
    rfl
  · refine ⟨.positive, (decide_eq_false below).symm, ?_⟩
    simp only [Rounded.toFloat, if_neg below, magnitude]

/-- **Whole numbers are printed exactly**: rounded to no places, a value is printed as the integer
that it is rounded to. -/
theorem fixed_of_no_places (h : roundHalfUp x 0 = .ok rounded) :
    (Binary.ofFloat rounded.toFloat).fixed 0 =
      (PlainDecimal.ofUnits (rounded.units < 0) rounded.units.natAbs 0).text := by
  obtain ⟨places, held⟩ := of_roundHalfUp h
  obtain ⟨units, _⟩ := rounded
  simp only at places held ⊢
  subst places
  by_cases zero : units = 0
  · subst zero
    have decoded : Binary.ofFloat (Rounded.mk 0 0).toFloat = .finite false 0 (-1074) := by decide
    have none : roundDiv (0 * powerOfTwo 1074) (powerOfTwo 1074) = 0 :=
      roundDiv_mul_right (powerOfTwo_pos 1074)
    rw [Nat.zero_mul] at none
    rw [decoded, fixed_eq_text, Nat.zero_mul, Nat.zero_mul]
    exact congrArg (fun units => (PlainDecimal.ofUnits false units 0).text) none
  · obtain ⟨mantissa, bits⟩ := held.exists_isBitsOf (Int.natAbs_pos.2 zero)
    obtain ⟨sign, minus, value⟩ := exists_toFloat_eq bits zero
    rw [value, bits.ofFloat_pack, fixed_eq_text, bits.units_eq, minus]

end DesignTokens.Decimal
