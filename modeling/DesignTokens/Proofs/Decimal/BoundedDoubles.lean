import DesignTokens.Proofs.Decimal.Bounds

/-!
# Doubles within bounds

Bounds by powers of two are carried through the operations on doubles. What is in bounds in the end
is finite, and can be rounded to a number of places.

* `IsBelow` — a double whose absolute value is below a power of two; `IsWithin` — one that is not
  negative besides.
* `IsBelow.mul`, `IsBelow.add`, `IsWithin.div` and `IsWithin.sqrt` — what operations make of bounds;
  `isWithin_ofNat` — the bounds of a natural.
* `IsBelow.of_between`, `IsBelow.le_of_unpack` and `IsBelow.ge_of_unpack` — bounds by comparison.
* `exists_roundHalfUp` — what is far below the largest double can be rounded.
-/

namespace DesignTokens.Decimal

open Float.Model (UnpackedFloat totalExponent)

variable {top top' : Int} {number : UnpackedFloat}

/-- A finite double whose absolute value is below a power of two. -/
def IsBelow (top : Int) (x : Float) : Prop :=
  Below top x.toModel.unpack

/-- A double from zero up to a power of two. -/
structure IsWithin (top : Int) (x : Float) : Prop where
  below : IsBelow top x
  nonNegative : NonNegative x.toModel.unpack

theorem IsBelow.mono {x : Float} (below : IsBelow top x) (le : top ≤ top') : IsBelow top' x :=
  Below.mono below le

instance (top : Int) (x : Float) : Decidable (IsBelow top x) :=
  inferInstanceAs (Decidable (Below top x.toModel.unpack))

/-- What is packed stays below its bound. -/
theorem isBelow_pack (h : ExponentAtMost (top - 53) number) (low : -1021 ≤ top)
    (high : top ≤ 1024) : IsBelow top ⟨Float.Model.pack number⟩ := by
  unfold IsBelow
  match number, h with
  | .zero sign, _ =>
    rw [unpack_pack_zero]
    trivial
  | .finite sign mantissa exponent positive, small =>
    have small : exponent ≤ top - 53 := small
    obtain zero | ⟨m, e, h, unpacked, short, le⟩ :=
      @unpack_pack_cases sign mantissa exponent positive (by omega)
    · rw [zero]
      trivial
    · rw [unpacked]
      exact ⟨short, by omega⟩

/-! ### Operations -/

namespace IsBelow

variable {x y : Float}

theorem mul (hx : IsBelow top x) (hy : IsBelow top' y) (low : -1021 ≤ top + top')
    (high : top + top' < 1024) : IsBelow (top + top' + 1) (x * y) := by
  have product := exponentAtMost_mul hx hy
  exact isBelow_pack (product.mono (by omega)) (by omega) (by omega)

theorem add (hx : IsBelow top x) (hy : IsBelow top y) (low : -1021 ≤ top)
    (high : top ≤ 1022) : IsBelow (top + 2) (x + y) := by
  have sum := exponentAtMost_add hx hy low
  exact isBelow_pack sum (by omega) (by omega)

theorem topAtMost (hx : IsBelow top x) : TopAtMost top x.toModel.unpack := by
  unfold IsBelow at hx
  generalize x.toModel.unpack = number at hx
  match number, hx with
  | .zero _, _ => trivial
  | .finite _ m e _, ⟨short, small⟩ =>
    have bits : m.log2 < 53 := log2_lt_of_lt (by decide) short
    simp only [TopAtMost, totalExponent]
    omega

/-- What is below a power of two is finite. -/
theorem isInf_eq_false (hx : IsBelow top x) : x.isInf = false := by
  change x.toModel.unpack.isInf = false
  unfold IsBelow at hx
  cases unpacked : x.toModel.unpack with
  | infinity sign => exact (unpacked ▸ hx : Below top (.infinity sign)).elim
  | _ => rfl

theorem isFinite (hx : IsBelow top x) : IsFinite x := by
  rw [isFinite_iff]
  intro all
  -- with all bits of the exponent set there is no number
  simp only [IsBelow, Float.Model.unpack, UnpackedFloat.unpack, all, if_true] at hx
  split at hx <;> exact hx

end IsBelow

/-! ### Doubles that are not negative -/

theorem isWithin_pack (h : ExponentAtMost (top - 53) number) (positive : NonNegative number)
    (low : -1021 ≤ top) (high : top ≤ 1024) : IsWithin top ⟨Float.Model.pack number⟩ :=
  ⟨isBelow_pack h low high, nonNegative_unpack_pack positive (h.mono (by omega))⟩

/-- A square is below twice the power. -/
theorem IsBelow.square {x : Float} (hx : IsBelow top x) (low : -500 ≤ top) (high : top < 500) :
    IsWithin (2 * top + 1) (x * x) := by
  have product := exponentAtMost_mul hx hx
  exact isWithin_pack (product.mono (by omega)) (nonNegative_mul_self hx) (by omega) (by omega)

namespace IsWithin

variable {x y : Float}

theorem add (hx : IsWithin top x) (hy : IsWithin top y) (low : -1021 ≤ top) (high : top ≤ 1022) :
    IsWithin (top + 2) (x + y) := by
  have sum := exponentAtMost_add hx.below hy.below low
  exact isWithin_pack sum (nonNegative_add hx.nonNegative hy.nonNegative) (by omega) (by omega)

theorem mul (hx : IsWithin top x) (hy : IsWithin top' y) (low : -1021 ≤ top + top')
    (high : top + top' < 1024) : IsWithin (top + top' + 1) (x * y) := by
  have product := exponentAtMost_mul hx.below hy.below
  exact isWithin_pack (product.mono (by omega)) (nonNegative_mul hx.nonNegative hy.nonNegative)
    (by omega) (by omega)

theorem div {bottom : Int} (hx : IsWithin top x) (positive : NonNegative y.toModel.unpack)
    (large : TopAtLeast bottom y.toModel.unpack) (low : -1000 ≤ top - bottom)
    (high : top - bottom < 1000) : IsWithin (top - bottom + 2) (x / y) := by
  have quotient := exponentAtMost_div hx.below.topAtMost large
  exact isWithin_pack (quotient.mono (by omega)) (nonNegative_div hx.nonNegative positive large)
    (by omega) (by omega)

theorem sqrt (hx : IsWithin top x) (low : 0 ≤ top) (high : top ≤ 1022) :
    IsBelow (top + 2) x.sqrt := by
  have root := exponentAtMost_sqrt hx.below hx.nonNegative low
  exact isBelow_pack root (by omega) (by omega)

end IsWithin

/-- A natural of few bits is below its power of two. -/
theorem isWithin_toFloat {n : UInt64} {bits : Nat} (few : n.toNat < 2 ^ bits) (low : 0 < bits)
    (high : bits ≤ 64) : IsWithin (bits + 1) n.toFloat := by
  have leading := log2_lt_of_lt low few
  change IsWithin _ ⟨Float.Model.pack (UnpackedFloat.ofNat .binary64 n.toNat)⟩
  rcases Nat.eq_zero_or_pos n.toNat with zero | positive
  · rw [zero]
    exact isWithin_pack trivial trivial (by omega) (by omega)
  · obtain ⟨amount, long, rounded⟩ := ofNat_eq positive
    rw [rounded]
    refine isWithin_pack (exponentAtMost_roundWithAccuracy.mono ?_) nonNegative_roundWithAccuracy
      (by omega) (by omega)
    simp only [totalExponent, log2_shiftLeft positive]
    omega

theorem isWithin_ofNat {n bits : Nat} (few : n < 2 ^ bits) (low : 0 < bits) (high : bits ≤ 53) :
    IsWithin (bits + 3) (Float.ofNat n) := by
  have short : n < 2 ^ 53 := Nat.lt_of_lt_of_le few (Nat.pow_le_pow_right (by decide) high)
  have value : n.toUInt64.toNat = n :=
    UInt64.toNat_ofNat_of_lt' (Nat.lt_trans short (by decide))
  have whole : IsWithin (bits + 1) n.toUInt64.toFloat :=
    isWithin_toFloat (by rwa [value]) low (by omega)
  -- the digits are scaled by the first power of ten
  have one : IsWithin 1 Float.exactlyRepresentablePowersOfTen[0] := ⟨by decide, rfl⟩
  have scaled := whole.mul one (by omega) (by omega)
  change IsWithin _ (Float.ofScientific n false 0)
  rw [Float.ofScientific, dif_pos ⟨short, by decide⟩]
  exact scaled

/-! ### Comparisons -/

/-- Doubles are compared as they are unpacked. -/
theorem le_iff {x y : Float} : x ≤ y ↔ x.toModel.unpack.le y.toModel.unpack = true :=
  decide_eq_true_iff

namespace IsBelow

variable {a b x : Float}

theorem of_between (ha : IsBelow top a) (hb : IsBelow top b) (lower : a ≤ x) (upper : x ≤ b) :
    IsBelow top x := by
  refine Below.of_between ha hb (le_iff.1 lower) (le_iff.1 upper) ?_
  intro sign m e h unpacked
  exact (ofFloat_bounds (ofFloat_of_unpack unpacked)).1

/-- A double with a larger exponent bounds what is below a power of two from above. -/
theorem le_of_unpack {m : Nat} {e : Int} {h : 0 < m} (hx : IsBelow top x)
    (unpacked : b.toModel.unpack = .finite .positive m e h) (large : top < 53 + e) : x ≤ b := by
  rw [le_iff, unpacked]
  unfold IsBelow at hx
  generalize x.toModel.unpack = number at hx
  match number, hx with
  | .zero _, _ => rfl
  | .finite .negative _ _ _, _ => rfl
  | .finite .positive _ e' _, ⟨_, small⟩ =>
    have less : compare e' e = .lt := Int.compare_eq_lt.2 (by omega)
    simp [UnpackedFloat.le, UnpackedFloat.compare, less]

/-- A negative double with a larger exponent bounds what is below a power of two from below. -/
theorem ge_of_unpack {m : Nat} {e : Int} {h : 0 < m} (hx : IsBelow top x)
    (unpacked : a.toModel.unpack = .finite .negative m e h) (large : top < 53 + e) : a ≤ x := by
  rw [le_iff, unpacked]
  unfold IsBelow at hx
  generalize x.toModel.unpack = number at hx
  match number, hx with
  | .zero _, _ => rfl
  | .finite .positive _ _ _, _ => rfl
  | .finite .negative _ e' _, ⟨_, small⟩ =>
    have greater : compare e e' = .gt := Int.compare_eq_gt.2 (by omega)
    simp [UnpackedFloat.le, UnpackedFloat.compare, greater]

end IsBelow

theorem IsWithin.zero_le {x : Float} (hx : IsWithin top x) : 0.0 ≤ x := by
  have zero : (0.0 : Float).toModel.unpack = .zero .positive := rfl
  rw [le_iff, zero]
  obtain ⟨-, positive⟩ := hx
  generalize x.toModel.unpack = number at positive
  match number, positive with
  | .zero _, _ => rfl
  | .finite .positive _ _ _, _ => rfl

/-! ### Rounding to places -/

theorem isBelow_powersOfTen :
    ∀ places < 23, IsBelow 74 (Float.ofScientific 1 false places) := by
  decide +kernel

/-- What is far below the largest double can be rounded to a number of places. -/
theorem exists_roundHalfUp {x : Float} {places : Nat} (hx : IsBelow 512 x) (few : places < 23) :
    ∃ rounded, roundHalfUp x places = .ok rounded := by
  have factor := isBelow_powersOfTen places few
  have half : IsBelow 587 (0.5 : Float) := by decide
  have scaled := (hx.mul factor (by decide) (by decide)).add half (by decide) (by decide)
  -- neither the power of ten nor the scaled value is refused
  obtain ⟨negative, mantissa, exponent, decoded⟩ := scaled.isFinite
  simp only [roundHalfUp, factor.isInf_eq_false, decoded]
  exact ⟨_, rfl⟩

end DesignTokens.Decimal
