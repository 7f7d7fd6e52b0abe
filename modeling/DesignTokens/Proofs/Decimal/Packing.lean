import DesignTokens.Proofs.Decimal.Finite

/-!
# Doubles packed and unpacked

A double is taken apart in two ways: the decoder reads its bits, and arithmetic unpacks them. Both
find the same sign, mantissa and exponent. Packing undoes it, for a mantissa that has all its bits.

* `ofFloat_of_unpack` — the decoder takes a double apart as unpacking does.
* `IsFull` — a mantissa of 53 bits at an exponent that doubles have; `IsFull.unpack_pack` — it is
  packed without a loss.
-/

namespace DesignTokens.Decimal

open Float.Model (UnpackedFloat Format)
open Float.Model.UnpackedFloat (Sign)

variable {sign : Sign} {mantissa : Nat} {exponent : Int}

/-! ### The parts of a double -/

theorem toNat_unpackMantissa (bits : BitVec 64) :
    (@UnpackedFloat.unpackMantissa .binary64 bits).toNat = bits.toNat % 2 ^ 52 := by
  simp [UnpackedFloat.unpackMantissa, BitVec.extractLsb]

theorem toNat_unpackSign (bits : BitVec 64) :
    (@UnpackedFloat.unpackSign .binary64 bits).toNat = bits.toNat / 2 ^ 63 := by
  have range : bits.toNat < 2 ^ 64 := bits.isLt
  have bit : (@UnpackedFloat.unpackSign .binary64 bits).toNat = bits.toNat / 2 ^ 63 % 2 := by
    simp [UnpackedFloat.unpackSign, BitVec.extractLsb, Nat.shiftRight_eq_div_pow]
  omega

theorem toNat_packComponents (field : BitVec 11) (fraction : BitVec 52) :
    (UnpackedFloat.packComponents .binary64 sign field fraction).toNat =
      (sign.toBitVec.toNat * 2 ^ 11 + field.toNat) * 2 ^ 52 + fraction.toNat := by
  simp only [UnpackedFloat.packComponents]
  rw [BitVec.toNat_append, ← Nat.shiftLeft_add_eq_or_of_lt fraction.isLt, BitVec.toNat_append,
    ← Nat.shiftLeft_add_eq_or_of_lt field.isLt, Nat.shiftLeft_eq, Nat.shiftLeft_eq]

theorem unpackSign_packComponents (field : BitVec 11) (fraction : BitVec 52) :
    @UnpackedFloat.unpackSign .binary64
      (UnpackedFloat.packComponents .binary64 sign field fraction) = sign.toBitVec := by
  have packed := @toNat_packComponents sign field fraction
  have short := field.isLt
  have rest := fraction.isLt
  rw [← BitVec.toNat_inj, toNat_unpackSign, packed]
  omega

/-- Whether a sign is a minus. -/
def isMinus : Sign → Bool
  | .negative => true
  | .positive => false

theorem isMinus_ofBitVec : ∀ bit : BitVec 1,
    isMinus (Sign.ofBitVec bit) = decide (bit.toNat = 1) := by
  decide

/-- The leading bit is written in front of the others. -/
theorem toNat_one_append (fraction : BitVec 52) :
    (1#1 ++ fraction).toNat = powerOfTwo 52 + fraction.toNat := by
  rw [BitVec.toNat_append, ← Nat.shiftLeft_add_eq_or_of_lt fraction.isLt]
  rfl

/-- **The decoder** takes a finite double apart as unpacking does. -/
theorem ofFloat_of_unpack {x : Float} {positive : 0 < mantissa}
    (h : x.toModel.unpack = .finite sign mantissa exponent positive) :
    Binary.ofFloat x = .finite (isMinus sign) mantissa exponent := by
  have bias : Format.binary64.exponentBias = 1023 := rfl
  simp only [Float.Model.unpack, UnpackedFloat.unpack, bias] at h
  have field := toNat_unpackExponent x.toModel.toBits.toBitVec
  have fraction := toNat_unpackMantissa x.toModel.toBits.toBitVec
  have minus : isMinus (Sign.ofBitVec (@UnpackedFloat.unpackSign .binary64
      x.toModel.toBits.toBitVec)) = decide (powerOfTwo 63 ≤ x.toBits.toNat) := by
    have range : x.toBits.toNat < 2 ^ 64 := x.toModel.toBits.toBitVec.isLt
    have bits : x.toModel.toBits.toBitVec.toNat = x.toBits.toNat := rfl
    rw [isMinus_ofBitVec, toNat_unpackSign, bits]
    exact decide_eq_decide.2 (by simp only [powerOfTwo, Nat.pow_eq]; omega)
  have allSet : @UnpackedFloat.unpackExponent .binary64 x.toModel.toBits.toBitVec = -1#11 ↔
      x.toBits.toNat / powerOfTwo 52 % powerOfTwo 11 = 2047 := by
    rw [← BitVec.toNat_inj, field]
    rfl
  have unset : @UnpackedFloat.unpackExponent .binary64 x.toModel.toBits.toBitVec = 0#11 ↔
      x.toBits.toNat / powerOfTwo 52 % powerOfTwo 11 = 0 := by
    rw [← BitVec.toNat_inj, field]
    rfl
  simp only [Binary.ofFloat]
  split_ifs at h with all _ none
  · -- below the normal range there is no leading bit
    obtain ⟨rfl, rfl, rfl⟩ := UnpackedFloat.finite.inj h
    rw [if_neg (mt allSet.2 all), if_pos (unset.1 none), ← minus, fraction, none]
    rfl
  · obtain ⟨rfl, rfl, rfl⟩ := UnpackedFloat.finite.inj h
    rw [if_neg (mt allSet.2 all), if_neg (mt unset.2 none), ← minus, toNat_one_append, fraction,
      field]
    rfl

/-! ### Numbers that have all their bits -/

/-- A mantissa of 53 bits at an exponent that doubles have. -/
structure IsFull (mantissa : Nat) (exponent : Int) : Prop where
  long : 2 ^ 52 ≤ mantissa
  short : mantissa < 2 ^ 53
  low : -1074 ≤ exponent
  high : exponent ≤ 971

namespace IsFull

variable (full : IsFull mantissa exponent)

include full

theorem pos : 0 < mantissa :=
  Nat.lt_of_lt_of_le (by decide) full.long

theorem log2_eq : mantissa.log2 = 52 :=
  (Nat.log2_eq_iff (Nat.ne_of_gt full.pos)).2 ⟨full.long, full.short⟩

/-- Such a number keeps its parts when it is packed. -/
theorem unpack_pack (positive : 0 < mantissa) :
    (Float.Model.pack (.finite sign mantissa exponent positive)).unpack =
      .finite sign mantissa exponent positive := by
  obtain ⟨long, short, low, high⟩ := full
  have bias : Format.binary64.exponentBias = 1023 := rfl
  have bits : mantissa.log2 + 1 = Format.binary64.mantissaBits := by
    rw [IsFull.log2_eq ⟨long, short, low, high⟩]
    rfl
  have field : (BitVec.ofNat 11 (exponent + (1023 : Nat) + (52 : Nat)).toNat).toNat =
      (exponent + 1075).toNat := by
    rw [BitVec.toNat_ofNat, Nat.mod_eq_of_lt (by omega)]
    omega
  have finite : BitVec.ofNat 11 (exponent + (1023 : Nat) + (52 : Nat)).toNat ≠ -1#11 := by
    rw [ne_eq, ← BitVec.toNat_inj, field]
    exact Nat.ne_of_lt (by simp; omega)
  have normal : BitVec.ofNat 11 (exponent + (1023 : Nat) + (52 : Nat)).toNat ≠ 0#11 := by
    rw [ne_eq, ← BitVec.toNat_inj, field]
    exact Nat.ne_of_gt (by simp; omega)
  have leading : (1#1 ++ BitVec.ofNat 52 mantissa).toNat = mantissa := by
    have whole : powerOfTwo 52 = 2 ^ 52 := rfl
    rw [toNat_one_append, BitVec.toNat_ofNat]
    omega
  have signed : Sign.ofBitVec sign.toBitVec = sign := by cases sign <;> rfl
  have packed : UnpackedFloat.pack .binary64 (.finite sign mantissa exponent positive) =
      UnpackedFloat.packComponents .binary64 sign
        (BitVec.ofNat 11 (exponent + (1023 : Nat) + (52 : Nat)).toNat)
        (BitVec.ofNat 52 mantissa) := by
    simp only [UnpackedFloat.pack, bias]
    rw [if_neg (by omega), if_pos bits]
  change UnpackedFloat.unpack .binary64
    (UnpackedFloat.pack .binary64 (.finite sign mantissa exponent positive)) = _
  rw [packed]
  simp only [UnpackedFloat.unpack, UnpackedFloat.unpackExponent_packComponents,
    UnpackedFloat.unpackMantissa_packComponents, unpackSign_packComponents, signed, leading, field,
    bias]
  rw [if_neg finite, if_neg normal]
  congr 1
  omega

end IsFull

end DesignTokens.Decimal
