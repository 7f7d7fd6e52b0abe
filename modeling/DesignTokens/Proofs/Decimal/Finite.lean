import DesignTokens.Decimal.Rounding
import Mathlib

/-!
# Rounded values are finite

A value that has been rounded to a number of places is divided by a power of ten; the quotient is a
double again, never an infinity. The reason is in the binary exponents alone: what a finite double
holds is below `2 ^ 1024`, so a tenth of it is below `2 ^ 1021`, and rounding raises the exponent
by one at most.

* `IsFinite` — a double that is decoded as a mantissa and an exponent.
* `ExponentAtMost` bounds the exponent of an unpacked number; `exponentAtMost_roundWithAccuracy`
  and `exponentAtMost_div` carry the bound through rounding and division, and `isFinite_pack` ends
  in a finite double.
* `Held` — naturals that doubles hold; a rounded value counts as many units (`of_roundHalfUp`).
* `isFinite_toFloat` — the theorem.
-/

namespace DesignTokens.Decimal

open Float.Model (UnpackedFloat totalExponent Format)
open Float.Model.UnpackedFloat (ExtendedMantissa Accuracy Sign)

/-- Whether a double is a number, neither infinite nor undefined. -/
def IsFinite (x : Float) : Prop :=
  ∃ negative mantissa exponent, Binary.ofFloat x = .finite negative mantissa exponent

/-! ### The exponent bits -/

theorem toNat_unpackExponent (bits : BitVec 64) :
    (@UnpackedFloat.unpackExponent .binary64 bits).toNat = bits.toNat / 2 ^ 52 % 2 ^ 11 := by
  simp [UnpackedFloat.unpackExponent, BitVec.extractLsb, Nat.shiftRight_eq_div_pow]

/-- A double is a number unless its exponent bits are all set. -/
theorem isFinite_iff (x : Float) :
    IsFinite x ↔ @UnpackedFloat.unpackExponent .binary64 x.toModel.toBits.toBitVec ≠ -1#11 := by
  have exponent : x.toBits.toNat / powerOfTwo 52 % powerOfTwo 11 =
      (@UnpackedFloat.unpackExponent .binary64 x.toModel.toBits.toBitVec).toNat :=
    (toNat_unpackExponent _).symm
  have allSet : ∀ bits : BitVec 11, bits.toNat = 2047 ↔ bits = -1#11 := fun bits => by
    rw [← BitVec.toNat_inj]
    rfl
  unfold IsFinite Binary.ofFloat
  simp only [exponent, allSet]
  split_ifs <;> simp_all

/-! ### Bounds on the exponent -/

/-- An unpacked number whose binary exponent is bounded. -/
def ExponentAtMost (limit : Int) : UnpackedFloat → Prop
  | .zero _ => True
  | .finite _ _ exponent _ => exponent ≤ limit
  | .infinity _ => False
  | .notANumber => False

variable {sign : Sign} {mantissa : Nat} {exponent limit : Int} {accuracy : Accuracy}
  {number divisor : UnpackedFloat}

theorem ExponentAtMost.mono {lower : Int} (h : ExponentAtMost lower number) (le : lower ≤ limit) :
    ExponentAtMost limit number := by
  cases number with
  | finite => exact Int.le_trans h le
  | _ => exact h

theorem exponentAtMost_of_mantissa (h : exponent ≤ limit) :
    ExponentAtMost limit (if zero : mantissa = 0 then .zero sign
      else .finite sign mantissa exponent (Nat.pos_of_ne_zero zero)) := by
  by_cases zero : mantissa = 0
  · rw [dif_pos zero]
    trivial
  · rw [dif_neg zero]
    exact h

/-- The greatest exponent of a finite double is 971, and what has it or less is packed as one. -/
theorem isFinite_pack (h : ExponentAtMost 971 number) : IsFinite ⟨Float.Model.pack number⟩ := by
  rw [isFinite_iff]
  simp only [Float.Model.pack]
  cases number with
  | notANumber => exact h.elim
  | infinity _ => exact h.elim
  | zero _ =>
    simp only [UnpackedFloat.pack, UnpackedFloat.packedZero,
      UnpackedFloat.unpackExponent_packComponents]
    decide
  | finite sign mantissa exponent positive =>
    have small : exponent ≤ 971 := h
    have bias : Format.binary64.exponentBias = 1023 := rfl
    have biased : (exponent + (1023 : Nat) + (52 : Nat)).toNat < 2047 := by omega
    simp only [UnpackedFloat.pack, bias]
    rw [if_neg (by omega)]
    split
    · rw [UnpackedFloat.unpackExponent_packComponents, ne_eq, ← BitVec.toNat_inj,
        BitVec.toNat_ofNat, Nat.mod_eq_of_lt (by omega)]
      exact Nat.ne_of_lt biased
    · rw [UnpackedFloat.unpackExponent_packComponents]
      decide

/-! ### Bits of naturals -/

/-- A natural below a power of two has as many bits at most. -/
theorem log2_lt_of_lt {n bits : Nat} (positive : 0 < bits) (h : n < 2 ^ bits) : n.log2 < bits := by
  by_cases zero : n = 0
  · simpa [zero] using positive
  · exact (Nat.log2_lt zero).2 h

theorem log2_shiftLeft {n : Nat} (positive : 0 < n) (amount : Nat) :
    (n <<< amount).log2 = n.log2 + amount := by
  have nonzero : n ≠ 0 := Nat.ne_of_gt positive
  rw [Nat.log2_eq_iff (by simp [nonzero]), Nat.shiftLeft_eq, Nat.pow_add, Nat.add_right_comm,
    Nat.pow_add]
  exact ⟨Nat.mul_le_mul_right _ (Nat.log2_self_le nonzero),
    Nat.mul_lt_mul_of_pos_right Nat.lt_log2_self (Nat.two_pow_pos amount)⟩

theorem log2_div_le {numerator denominator : Nat} (nonzero : numerator / denominator ≠ 0) :
    (numerator / denominator).log2 + denominator.log2 ≤ numerator.log2 := by
  have positive : denominator ≠ 0 := fun zero => nonzero (by simp [zero])
  have large : numerator ≠ 0 := fun zero => nonzero (by simp [zero])
  rw [Nat.le_log2 large, Nat.pow_add]
  exact Nat.le_trans (Nat.mul_le_mul (Nat.log2_self_le nonzero) (Nat.log2_self_le positive))
    (Nat.div_mul_le_self numerator denominator)

/-- A power of ten that is not one has four bits at least. -/
theorem le_log2_powerOfTen {places : Nat} (positive : 0 < places) : 3 ≤ (10 ^ places).log2 := by
  rw [Nat.le_log2 (Nat.ne_of_gt (Nat.pow_pos (by decide)))]
  calc 2 ^ 3 ≤ 10 ^ 1 := by decide
    _ ≤ 10 ^ places := Nat.pow_le_pow_right (by decide) positive

/-! ### Rounding -/

theorem targetExponent_binary64 (top : Int) :
    Format.binary64.targetExponent top = max (top - 53) (-1074) :=
  rfl

theorem mantissa_shiftRight (em : ExtendedMantissa) (amount : Nat) :
    (em >>> amount).mantissa = em.mantissa / 2 ^ amount := by
  change (amount.repeat ExtendedMantissa.shiftRightOne em).mantissa = _
  induction amount with
  | zero => simp [Nat.repeat]
  | succ amount ih =>
    change (amount.repeat ExtendedMantissa.shiftRightOne em).mantissa / 2 = _
    rw [ih, Nat.div_div_eq_div_mul, Nat.pow_succ]

theorem mantissa_ofMantissaAndAccuracy (mantissa : Nat) (accuracy : Accuracy) :
    (ExtendedMantissa.ofMantissaAndAccuracy mantissa accuracy).mantissa = mantissa := by
  rcases accuracy with _ | (_ | _ | _) <;> rfl

/-- Rounding keeps a mantissa or takes the next one. -/
theorem roundedMantissa_bounds (em : ExtendedMantissa) :
    em.mantissa ≤ em.roundedMantissa ∧ em.roundedMantissa ≤ em.mantissa + 1 := by
  obtain ⟨mantissa, roundBit, stickyBit⟩ := em
  cases roundBit <;> cases stickyBit <;>
    simp only [ExtendedMantissa.roundedMantissa, ExtendedMantissa.accuracy,
      Accuracy.roundToNearestEven] <;> omega

/-- After the shift to its exponent, a mantissa has 53 bits at most. -/
theorem shiftToTargetExponent_mantissa_lt :
    (UnpackedFloat.shiftToTargetExponent .binary64 mantissa exponent accuracy).1.mantissa <
      2 ^ 53 := by
  simp only [UnpackedFloat.shiftToTargetExponent, UnpackedFloat.shiftToExponent,
    mantissa_shiftRight, mantissa_ofMantissaAndAccuracy, targetExponent_binary64]
  rw [Nat.div_lt_iff_lt_mul (Nat.two_pow_pos _), ← Nat.pow_add]
  refine Nat.lt_of_lt_of_le Nat.lt_log2_self (Nat.pow_le_pow_right (by decide) ?_)
  simp only [totalExponent]
  omega

/-- Rounding a mantissa that gets a bit longer raises the exponent by one. -/
theorem exponentAtMost_roundWithAccuracy :
    ExponentAtMost (max exponent (max (totalExponent mantissa exponent - 53) (-1074)) + 1)
      (UnpackedFloat.roundWithAccuracy .binary64 sign mantissa exponent accuracy) := by
  have bits :
      (UnpackedFloat.shiftToTargetExponent .binary64 mantissa exponent accuracy).1.mantissa <
        2 ^ 53 := shiftToTargetExponent_mantissa_lt
  have first : (UnpackedFloat.shiftToTargetExponent .binary64 mantissa exponent accuracy).2 =
      max exponent (max (totalExponent mantissa exponent - 53) (-1074)) := by
    simp only [UnpackedFloat.shiftToTargetExponent, UnpackedFloat.shiftToExponent,
      targetExponent_binary64]
    omega
  unfold UnpackedFloat.roundWithAccuracy
  generalize UnpackedFloat.shiftToTargetExponent .binary64 mantissa exponent accuracy = shifted at *
  obtain ⟨em, e⟩ := shifted
  have rounded : em.roundedMantissa.log2 < 54 := by
    have longer := (roundedMantissa_bounds em).2
    exact log2_lt_of_lt (by decide) (by simp only at bits; omega)
  simp only [UnpackedFloat.shiftToTargetExponent, UnpackedFloat.shiftToExponent,
    targetExponent_binary64, totalExponent] at first ⊢
  exact exponentAtMost_of_mantissa (by omega)

/-! ### Division -/

/-- An unpacked number that is below a power of two. -/
def TopAtMost (top : Int) : UnpackedFloat → Prop
  | .zero _ => True
  | .finite _ mantissa exponent _ => totalExponent mantissa exponent ≤ top
  | .infinity _ => False
  | .notANumber => False

/-- An unpacked number that is at least half a power of two. -/
def TopAtLeast (bottom : Int) : UnpackedFloat → Prop
  | .finite _ mantissa exponent _ => bottom ≤ totalExponent mantissa exponent
  | _ => False

instance (top : Int) (number : UnpackedFloat) : Decidable (TopAtMost top number) :=
  match number with
  | .zero _ => isTrue trivial
  | .finite _ mantissa exponent _ =>
    inferInstanceAs (Decidable (totalExponent mantissa exponent ≤ top))
  | .infinity _ | .notANumber => isFalse id

instance (bottom : Int) (number : UnpackedFloat) : Decidable (TopAtLeast bottom number) :=
  match number with
  | .finite _ mantissa exponent _ =>
    inferInstanceAs (Decidable (bottom ≤ totalExponent mantissa exponent))
  | .zero _ | .infinity _ | .notANumber => isFalse id

/-- The exponent of a quotient is the difference of the exponents, give or take one. -/
theorem exponentAtMost_div {top bottom : Int} (small : TopAtMost top number)
    (large : TopAtLeast bottom divisor) :
    ExponentAtMost (max (top - bottom - 52) (-1074) + 1)
      (UnpackedFloat.div .binary64 number divisor) := by
  match number, divisor, small, large with
  | .zero _, .finite _ _ _ _, _, _ => trivial
  | .finite _ m₁ e₁ positive₁, .finite _ m₂ e₂ positive₂, small, large =>
    simp only [TopAtMost, TopAtLeast, totalExponent] at small large
    simp only [UnpackedFloat.div, UnpackedFloat.divCore, targetExponent_binary64, totalExponent]
    refine exponentAtMost_roundWithAccuracy.mono ?_
    generalize target : min (e₁ - e₂) _ = e
    by_cases zero : m₁ <<< (e₁ - e₂ - e).toNat / m₂ = 0
    · rw [zero]
      simp only [totalExponent, Nat.log2_zero]
      omega
    · have quotient := log2_div_le zero
      rw [log2_shiftLeft positive₁] at quotient
      simp only [totalExponent]
      omega

/-! ### Doubles unpacked -/

/-- A finite double has 53 bits, and its exponent is 971 at most. -/
theorem exponentAtMost_unpack {x : Float} (finite : IsFinite x) :
    ExponentAtMost 971 x.toModel.unpack ∧ TopAtMost 1024 x.toModel.unpack := by
  rw [isFinite_iff] at finite
  have bias : Format.binary64.exponentBias = 1023 := rfl
  simp only [Float.Model.unpack, UnpackedFloat.unpack, bias]
  generalize x.toModel.toBits.toBitVec = bits at finite ⊢
  have field : (@UnpackedFloat.unpackExponent .binary64 bits).toNat ≤ 2046 := by
    have range : (@UnpackedFloat.unpackExponent .binary64 bits).toNat < 2048 := BitVec.isLt _
    have unset : (@UnpackedFloat.unpackExponent .binary64 bits).toNat ≠ 2047 := fun all =>
      finite (BitVec.eq_of_toNat_eq all)
    omega
  rw [if_neg finite]
  by_cases subnormal : @UnpackedFloat.unpackExponent .binary64 bits = 0#11
  · rw [if_pos subnormal]
    by_cases zero : @UnpackedFloat.unpackMantissa .binary64 bits = 0#52
    · rw [dif_pos zero]
      exact ⟨trivial, trivial⟩
    · have short : (@UnpackedFloat.unpackMantissa .binary64 bits).toNat.log2 < 52 :=
        log2_lt_of_lt (by decide) (BitVec.isLt _)
      rw [dif_neg zero]
      simp only [ExponentAtMost, TopAtMost, totalExponent, subnormal, BitVec.toNat_ofNat]
      omega
  · have short : (1#1 ++ @UnpackedFloat.unpackMantissa .binary64 bits).toNat.log2 < 53 :=
      log2_lt_of_lt (by decide) (BitVec.isLt _)
    rw [if_neg subnormal]
    simp only [ExponentAtMost, TopAtMost, totalExponent]
    omega

theorem isFinite_neg {x : Float} (finite : IsFinite x) : IsFinite (-x) := by
  have bounded : ExponentAtMost 971 x.toModel.unpack.neg := by
    have same := (exponentAtMost_unpack finite).1
    cases h : x.toModel.unpack <;> rw [h] at same <;> exact same
  exact isFinite_pack bounded

/-- A quotient by a number that is 8 at least is finite. -/
theorem isFinite_pack_div (small : TopAtMost 1024 number) (large : TopAtLeast 4 divisor) :
    IsFinite ⟨Float.Model.pack (UnpackedFloat.div .binary64 number divisor)⟩ :=
  isFinite_pack ((exponentAtMost_div small large).mono (by decide))

/-! ### Decimals -/

/-- A natural is shifted until it has bits enough, and rounded. -/
theorem ofNat_eq {n : Nat} (positive : 0 < n) :
    ∃ amount : Nat, 52 ≤ n.log2 + amount ∧ UnpackedFloat.ofNat .binary64 n =
      UnpackedFloat.roundWithAccuracy .binary64 .positive (n <<< amount) (-amount) .exact := by
  refine ⟨(0 - max ((n.log2 : Int) + 1 + 0 - 53) (-1074)).toNat, by omega, ?_⟩
  have above : compare (n : Int) 0 = .gt := Int.compare_eq_gt.2 (by omega)
  simp only [UnpackedFloat.ofNat, UnpackedFloat.ofInt, UnpackedFloat.normalize, above,
    UnpackedFloat.round, UnpackedFloat.decreaseExponent, targetExponent_binary64, totalExponent,
    Int.toNat_natCast, Int.zero_sub]

theorem exponentAtMost_ofNat {n : Nat} (bits : n.log2 < 64) :
    ExponentAtMost 971 (UnpackedFloat.ofNat .binary64 n) := by
  rcases Nat.eq_zero_or_pos n with rfl | positive
  · trivial
  · obtain ⟨amount, -, rounded⟩ := ofNat_eq positive
    rw [rounded]
    refine exponentAtMost_roundWithAccuracy.mono ?_
    simp only [totalExponent, log2_shiftLeft positive]
    omega

theorem isFinite_toFloat_uint64 (n : UInt64) : IsFinite n.toFloat :=
  isFinite_pack (exponentAtMost_ofNat (log2_lt_of_lt (by decide) n.toBitVec.isLt))

/-- The powers of ten in the table of exact ones are 10 at least, the first apart. -/
theorem topAtLeast_powersOfTen :
    ∀ (places : Nat) (_ : places < Float.exactlyRepresentablePowersOfTen.size), 0 < places →
      TopAtLeast 4 Float.exactlyRepresentablePowersOfTen[places].toModel.unpack := by
  decide +kernel

/-- A decimal with places is a quotient of naturals, or so small that it is zero. -/
theorem ofScientific_cases {digits places : Nat} (positive : 0 < places) :
    (UnpackedFloat.ofScientific .binary64 digits (Int.negOfNat places) = .zero .positive ∧
        (digits = 0 ∨ 2048 + digits.log2 < places)) ∨
      ∃ h₁ h₂, UnpackedFloat.ofScientific .binary64 digits (Int.negOfNat places) =
        UnpackedFloat.div .binary64 (.finite .positive digits 0 h₁)
          (.finite .positive (10 ^ places) 0 h₂) := by
  have below : Int.negOfNat places = -(places : Int) := Int.negOfNat_eq
  have range : (2 : Int) ^ Format.binary64.exponentBits = 2048 := by decide
  have power : (-Int.negOfNat places).toNat = places := by omega
  unfold UnpackedFloat.ofScientific
  split
  next zero => exact .inl ⟨rfl, .inl zero⟩
  next nonzero =>
    rw [if_neg (by omega)]
    split_ifs with tiny whole
    · exact .inl ⟨rfl, .inr (by omega)⟩
    · exact absurd whole (by omega)
    · refine .inr ⟨Nat.pos_of_ne_zero nonzero, Nat.pow_pos (by decide), ?_⟩
      congr 2
      rw [power]

theorem exponentAtMost_ofScientific {digits places : Nat} (bits : digits.log2 < 1024)
    (positive : 0 < places) :
    ExponentAtMost 971 (UnpackedFloat.ofScientific .binary64 digits (Int.negOfNat places)) := by
  obtain ⟨zero, -⟩ | ⟨h₁, h₂, quotient⟩ := @ofScientific_cases digits places positive
  · rw [zero]
    trivial
  · -- the numerator has 1024 bits at most, and the denominator four at least
    have numerator : TopAtMost 1024 (.finite .positive digits 0 h₁) := by
      simp only [TopAtMost, totalExponent]
      omega
    have denominator : TopAtLeast 4 (.finite .positive (10 ^ places) 0 h₂) := by
      have large := le_log2_powerOfTen positive
      simp only [TopAtLeast, totalExponent]
      omega
    have le : max ((1024 : Int) - 4 - 52) (-1074) + 1 ≤ 971 := by decide
    rw [quotient]
    exact (exponentAtMost_div numerator denominator).mono le

/-- The double nearest to a decimal with places is finite, if its digits alone are in the range of
doubles. -/
theorem isFinite_ofScientific {digits places : Nat} (bits : digits.log2 < 1024)
    (positive : 0 < places) : IsFinite (Float.ofScientific digits true places) := by
  unfold Float.ofScientific
  split
  next short =>
    -- few digits are a double, and the power of ten is one
    have numerator := (exponentAtMost_unpack (isFinite_toFloat_uint64 digits.toUInt64)).2
    exact isFinite_pack_div numerator
      (topAtLeast_powersOfTen places (Nat.lt_succ_of_le short.2) positive)
  next => exact isFinite_pack (exponentAtMost_ofScientific bits positive)

/-! ### Rounding to places -/

theorem ofFloat_bounds {x : Float} {negative : Bool}
    (h : Binary.ofFloat x = .finite negative mantissa exponent) :
    mantissa < 2 ^ 53 ∧ exponent ≤ 971 := by
  have fraction : x.toBits.toNat % powerOfTwo 52 < 2 ^ 52 := Nat.mod_lt _ (powerOfTwo_pos 52)
  have field : x.toBits.toNat / powerOfTwo 52 % powerOfTwo 11 < 2048 :=
    Nat.mod_lt _ (powerOfTwo_pos 11)
  have whole : powerOfTwo 52 = 2 ^ 52 := rfl
  unfold Binary.ofFloat at h
  simp only at h
  split_ifs at h <;> cases h <;> omega

/-- A natural that a double holds: behind 53 bits there are only zeros. -/
def Held (n : Nat) : Prop :=
  ∃ front zeros, n = front * 2 ^ zeros ∧ front < 2 ^ 53 ∧ zeros ≤ 971

/-- What doubles hold is in the range of doubles. -/
theorem Held.log2_lt {n : Nat} (held : Held n) : n.log2 < 1024 := by
  obtain ⟨front, zeros, rfl, short, few⟩ := held
  have below : front * 2 ^ zeros < 2 ^ (53 + zeros) := by
    rw [Nat.pow_add]
    exact Nat.mul_lt_mul_of_pos_right short (Nat.two_pow_pos zeros)
  have bits := log2_lt_of_lt (by omega) below
  omega

/-- What is rounded down to is held by a double again. -/
theorem held_floor {negative : Bool} {n : Int} (bits : mantissa < 2 ^ 53)
    (small : exponent ≤ 971) (h : (Binary.finite negative mantissa exponent).floor? = some n) :
    Held n.natAbs := by
  have magnitude : ∀ m : Nat, (Binary.signed negative m).natAbs = m := fun m => by
    cases negative <;> simp [Binary.signed]
  simp only [Binary.floor?] at h
  split at h
  next whole =>
    rw [← Option.some.inj h, magnitude]
    exact ⟨mantissa, exponent.toNat, rfl, bits, by omega⟩
  next =>
    have le : n.natAbs ≤ mantissa := by
      rw [← Option.some.inj h]
      exact Nat.le_trans (Int.natAbs_ediv_le_natAbs _ _) (Nat.le_of_eq (magnitude mantissa))
    exact ⟨n.natAbs, 0, (Nat.mul_one _).symm, Nat.lt_of_le_of_lt le bits, by decide⟩

variable {x : Float} {places : Nat} {rounded : Rounded}

/-- A rounded value counts as many units as a double holds. -/
theorem of_roundHalfUp (h : roundHalfUp x places = .ok rounded) :
    rounded.places = places ∧ Held rounded.units.natAbs := by
  simp only [roundHalfUp] at h
  split_ifs at h
  cases decoded : Binary.ofFloat (x * Float.ofScientific 1 false places + 0.5) with
  | notANumber => simp [decoded] at h
  | infinite => simp [decoded] at h
  | finite negative mantissa exponent =>
    rw [decoded] at h
    cases h
    obtain ⟨bits, small⟩ := ofFloat_bounds decoded
    obtain ⟨n, hn⟩ : ∃ n, (Binary.finite negative mantissa exponent).floor? = some n := by
      simp only [Binary.floor?]
      split <;> exact ⟨_, rfl⟩
    refine ⟨rfl, ?_⟩
    simp only [hn, Option.getD_some]
    exact held_floor bits small hn

/-- The double nearest to a value that was rounded to a number of places is finite. -/
theorem isFinite_toFloat (h : roundHalfUp x places = .ok rounded) (positive : 0 < places) :
    IsFinite rounded.toFloat := by
  obtain ⟨rfl, held⟩ := of_roundHalfUp h
  have magnitude := isFinite_ofScientific held.log2_lt positive
  unfold Rounded.toFloat
  simp only
  split
  · exact isFinite_neg magnitude
  · exact magnitude

end DesignTokens.Decimal
