import DesignTokens.Proofs.Decimal.Packing

/-!
# Bounds on the exponents of unpacked numbers

A computation with doubles stays finite as long as its operands are not too large. Each operation
raises the bound by little: a product is below the product of the bounds, a sum below their sum,
and rounding may add one more bit. So a chain of operations is followed by adding up exponents.

* `Below` — an unpacked number below a power of two; `NonNegative` — one without a minus.
* `unpack_pack_cases` — what packing leaves of a number with a small exponent.
* `exponentAtMost_mul`, `exponentAtMost_add` and `exponentAtMost_sqrt` — what the operations make of
  bounds; `nonNegative_mul`, `nonNegative_div` and `nonNegative_add` — what they make of signs.
* `Below.of_between` — what is between two numbers has the bound of both.
-/

namespace DesignTokens.Decimal

open Float.Model (UnpackedFloat totalExponent Format)
open Float.Model.UnpackedFloat (Accuracy Sign)

variable {sign : Sign} {mantissa : Nat} {exponent top top' : Int} {number other : UnpackedFloat}

/-- An unpacked number of 53 bits that is below a power of two. -/
def Below (top : Int) : UnpackedFloat → Prop
  | .zero _ => True
  | .finite _ mantissa exponent _ => mantissa < 2 ^ 53 ∧ 53 + exponent ≤ top
  | .infinity _ => False
  | .notANumber => False

/-- An unpacked number that is not negative. -/
def NonNegative : UnpackedFloat → Prop
  | .zero _ => True
  | .finite sign _ _ _ => sign = .positive
  | .infinity _ => False
  | .notANumber => False

theorem Below.mono (below : Below top number) (le : top ≤ top') : Below top' number := by
  cases number with
  | finite => exact ⟨below.1, Int.le_trans below.2 le⟩
  | _ => exact below

instance (top : Int) (number : UnpackedFloat) : Decidable (Below top number) :=
  match number with
  | .zero _ => isTrue trivial
  | .finite _ mantissa exponent _ =>
    inferInstanceAs (Decidable (mantissa < 2 ^ 53 ∧ 53 + exponent ≤ top))
  | .infinity _ | .notANumber => isFalse id

/-! ### Packing -/

/-- Bits with a field for the exponent that is not all set are those of a finite double. -/
theorem unpack_packComponents {field : BitVec 11} {fraction : BitVec 52}
    (finite : field.toNat < 2047) :
    UnpackedFloat.unpack .binary64 (UnpackedFloat.packComponents .binary64 sign field fraction) =
        .zero sign ∨
      ∃ m e h, UnpackedFloat.unpack .binary64
          (UnpackedFloat.packComponents .binary64 sign field fraction) = .finite sign m e h ∧
        m < 2 ^ 53 ∧ e = max ((field.toNat : Int) - 1075) (-1074) := by
  have bias : Format.binary64.exponentBias = 1023 := rfl
  have signed : Sign.ofBitVec sign.toBitVec = sign := by cases sign <;> rfl
  have some : field ≠ -1#11 := fun all => absurd (all ▸ finite) (by decide)
  have short : fraction.toNat < 2 ^ 52 := fraction.isLt
  have leading : (1#1 ++ fraction).toNat < 2 ^ 53 := (1#1 ++ fraction).isLt
  simp only [UnpackedFloat.unpack, UnpackedFloat.unpackExponent_packComponents,
    UnpackedFloat.unpackMantissa_packComponents, unpackSign_packComponents, signed, bias]
  rw [if_neg some]
  by_cases subnormal : field = 0#11
  · rw [if_pos subnormal]
    by_cases zero : fraction = 0#52
    · exact .inl (dif_pos zero)
    · have positive : 0 < fraction.toNat :=
        Nat.pos_of_ne_zero fun none => zero (BitVec.eq_of_toNat_eq none)
      have field_zero : field.toNat = 0 := congrArg BitVec.toNat subnormal
      exact .inr ⟨_, _, positive, dif_neg zero, by omega, by omega⟩
  · have positive : field.toNat ≠ 0 := fun zero => subnormal (BitVec.eq_of_toNat_eq zero)
    have leading_pos : 0 < (1#1 ++ fraction).toNat := by
      rw [toNat_one_append]
      exact Nat.add_pos_left (powerOfTwo_pos 52) _
    rw [if_neg subnormal]
    exact .inr ⟨_, _, leading_pos, rfl, leading, by omega⟩

/-- A finite number that is packed and unpacked keeps its sign, and its exponent where that is
large enough. -/
theorem unpack_pack_cases {positive : 0 < mantissa} (small : exponent ≤ 971) :
    (Float.Model.pack (.finite sign mantissa exponent positive)).unpack = .zero sign ∨
      ∃ m e h, (Float.Model.pack (.finite sign mantissa exponent positive)).unpack =
          .finite sign m e h ∧ m < 2 ^ 53 ∧ e ≤ max exponent (-1074) := by
  have bias : Format.binary64.exponentBias = 1023 := rfl
  have biased : (exponent + (1023 : Nat) + (52 : Nat)).toNat < 2047 := by omega
  change UnpackedFloat.unpack .binary64 (UnpackedFloat.pack .binary64 _) = _ ∨ ∃ m e h,
    UnpackedFloat.unpack .binary64 (UnpackedFloat.pack .binary64 _) = _ ∧ _
  simp only [UnpackedFloat.pack, bias]
  rw [if_neg (by omega)]
  split
  · have field : (BitVec.ofNat 11 (exponent + (1023 : Nat) + (52 : Nat)).toNat).toNat =
        (exponent + (1023 : Nat) + (52 : Nat)).toNat := by
      rw [BitVec.toNat_ofNat, Nat.mod_eq_of_lt (by omega)]
    refine (unpack_packComponents (lt_of_eq_of_lt field biased)).imp_right ?_
    rintro ⟨m, e, h, unpacked, short, same⟩
    rw [field] at same
    exact ⟨m, e, h, unpacked, short, by omega⟩
  · have field : (0#11 : BitVec 11).toNat = 0 := rfl
    refine (unpack_packComponents (lt_of_eq_of_lt field (by decide))).imp_right ?_
    rintro ⟨m, e, h, unpacked, short, same⟩
    rw [field] at same
    exact ⟨m, e, h, unpacked, short, by omega⟩

theorem unpack_pack_zero : (Float.Model.pack (.zero sign)).unpack = .zero sign := by
  cases sign <;> rfl

/-- What is packed keeps its sign. -/
theorem nonNegative_unpack_pack (h : NonNegative number) (small : ExponentAtMost 971 number) :
    NonNegative (Float.Model.pack number).unpack := by
  match number, h, small with
  | .zero sign, _, _ =>
    rw [unpack_pack_zero]
    trivial
  | .finite sign mantissa exponent positive, h, small =>
    obtain zero | ⟨m, e, h', unpacked, -⟩ :=
      @unpack_pack_cases sign mantissa exponent positive small
    · rw [zero]
      trivial
    · rw [unpacked]
      exact h

/-! ### Operations -/

/-- A product has the bits of both numbers. -/
theorem exponentAtMost_mul (hx : Below top number) (hy : Below top' other) :
    ExponentAtMost (max (top + top' - 53) (-1074) + 1)
      (UnpackedFloat.mul .binary64 number other) := by
  match number, other, hx, hy with
  | .zero _, .zero _, _, _ => trivial
  | .zero _, .finite _ _ _ _, _, _ => trivial
  | .finite _ _ _ _, .zero _, _, _ => trivial
  | .finite _ m₁ e₁ _, .finite _ m₂ e₂ _, ⟨short₁, small₁⟩, ⟨short₂, small₂⟩ =>
    have product : m₁ * m₂ < 2 ^ 106 := by
      calc m₁ * m₂ < 2 ^ 53 * 2 ^ 53 := Nat.mul_lt_mul'' short₁ short₂
        _ = 2 ^ 106 := by decide
    have bits := log2_lt_of_lt (by decide) product
    simp only [UnpackedFloat.mul]
    refine exponentAtMost_roundWithAccuracy.mono ?_
    simp only [totalExponent]
    omega

/-- What is rounded after a shift to the left is below the bound of its leading bit. -/
theorem exponentAtMost_round (bits : mantissa.log2 + 1 + exponent ≤ top) :
    ExponentAtMost (max (top - 53) (-1074) + 1)
      (UnpackedFloat.round .binary64 sign mantissa exponent) := by
  simp only [UnpackedFloat.round, UnpackedFloat.decreaseExponent, targetExponent_binary64]
  refine exponentAtMost_roundWithAccuracy.mono ?_
  by_cases zero : mantissa = 0
  · simp only [zero, Nat.zero_shiftLeft, totalExponent, Nat.log2_zero] at bits ⊢
    omega
  · simp only [totalExponent, log2_shiftLeft (Nat.pos_of_ne_zero zero)]
    omega

theorem exponentAtMost_normalize {sum : Int} (bits : sum.natAbs.log2 + 1 + exponent ≤ top) :
    ExponentAtMost (max (top - 53) (-1074) + 1)
      (UnpackedFloat.normalize .binary64 sum exponent sign) := by
  unfold UnpackedFloat.normalize
  split
  · next negative =>
    have below := Int.compare_eq_lt.1 negative
    have magnitude : (-sum).toNat = sum.natAbs := by omega
    exact exponentAtMost_round (by rwa [magnitude])
  · trivial
  · next positive =>
    have above := Int.compare_eq_gt.1 positive
    have magnitude : sum.toNat = sum.natAbs := by omega
    exact exponentAtMost_round (by rwa [magnitude])

/-- A mantissa that is aligned to a smaller exponent stays below the same power of two. -/
theorem aligned_lt {least : Int} (short : mantissa < 2 ^ 53) (small : 53 + exponent ≤ top)
    (le : least ≤ exponent) :
    mantissa <<< (exponent - least).toNat < 2 ^ (top - least).toNat := by
  rw [Nat.shiftLeft_eq]
  calc mantissa * 2 ^ (exponent - least).toNat
      < 2 ^ 53 * 2 ^ (exponent - least).toNat :=
        Nat.mul_lt_mul_of_pos_right short (Nat.two_pow_pos _)
    _ = 2 ^ (53 + (exponent - least).toNat) := (Nat.pow_add 2 53 _).symm
    _ ≤ 2 ^ (top - least).toNat := Nat.pow_le_pow_right (by decide) (by omega)

/-- A sum has one bit more than the larger number, and rounding may add another. -/
theorem exponentAtMost_add (hx : Below top number) (hy : Below top other) (low : -1021 ≤ top) :
    ExponentAtMost (top + 2 - 53) (UnpackedFloat.add .binary64 number other) := by
  match number, other, hx, hy with
  | .zero s, .zero s', _, _ => cases s <;> cases s' <;> trivial
  | .zero _, .finite _ _ _ _, _, ⟨_, small⟩ =>
    change _ ≤ _
    omega
  | .finite _ _ _ _, .zero _, ⟨_, small⟩, _ =>
    change _ ≤ _
    omega
  | .finite s₁ m₁ e₁ _, .finite s₂ m₂ e₂ _, ⟨short₁, small₁⟩, ⟨short₂, small₂⟩ =>
    -- both mantissas are aligned to the smaller exponent before they are added
    have first := aligned_lt short₁ small₁ (Int.min_le_left e₁ e₂)
    have second := aligned_lt short₂ small₂ (Int.min_le_right e₁ e₂)
    simp only [UnpackedFloat.add, UnpackedFloat.decreaseExponent]
    generalize m₁ <<< (e₁ - min e₁ e₂).toNat = n₁ at first
    generalize m₂ <<< (e₂ - min e₁ e₂).toNat = n₂ at second
    have magnitude : (s₁.apply n₁ + s₂.apply n₂).natAbs < 2 ^ ((top - min e₁ e₂).toNat + 1) := by
      rw [Nat.pow_succ]
      cases s₁ <;> cases s₂ <;> simp only [Sign.apply] <;> omega
    have bits := log2_lt_of_lt (by omega) magnitude
    exact (@exponentAtMost_normalize .positive _ (top + 1) _ (by omega)).mono (by omega)

theorem log2_sqrt_le (n : Nat) : 2 * n.sqrt.log2 ≤ n.log2 := by
  rcases Nat.eq_zero_or_pos n with rfl | positive
  · decide
  · have root : n.sqrt ≠ 0 := Nat.ne_of_gt (Nat.sqrt_pos.2 positive)
    rw [Nat.le_log2 (Nat.ne_of_gt positive), Nat.two_mul, Nat.pow_add]
    exact Nat.le_trans (Nat.mul_le_mul (Nat.log2_self_le root) (Nat.log2_self_le root))
      (Nat.sqrt_le n)

/-- A square root has half the bits, and is rounded. -/
theorem exponentAtMost_sqrt (hx : Below top number) (positive : NonNegative number)
    (low : 0 ≤ top) : ExponentAtMost (top + 2 - 53) (UnpackedFloat.sqrt .binary64 number) := by
  match number, hx, positive with
  | .zero _, _, _ => trivial
  | .finite .positive m e h, ⟨short, small⟩, _ =>
    -- the mantissa is shifted so that its root has bits enough, by twice what the exponent loses
    have bits : m.log2 < 53 := log2_lt_of_lt (by decide) short
    have half : ∀ i : Int, i.ediv 2 = i / 2 := fun _ => rfl
    simp only [UnpackedFloat.sqrt, UnpackedFloat.sqrtCore, targetExponent_binary64, totalExponent,
      half]
    refine exponentAtMost_roundWithAccuracy.mono ?_
    generalize target : min (e / 2) _ = t
    have root := log2_sqrt_le (m <<< (e - 2 * t).toNat)
    rw [log2_shiftLeft h] at root
    simp only [totalExponent]
    omega
  | .finite .negative _ _ _, _, positive => cases positive

/-! ### Signs -/

theorem nonNegative_roundWithAccuracy {accuracy : Accuracy} :
    NonNegative
      (UnpackedFloat.roundWithAccuracy .binary64 .positive mantissa exponent accuracy) := by
  unfold UnpackedFloat.roundWithAccuracy
  simp only
  split <;> trivial

/-- A square is not negative. -/
theorem nonNegative_mul_self (hx : Below top number) :
    NonNegative (UnpackedFloat.mul .binary64 number number) := by
  match number, hx with
  | .zero _, _ => trivial
  | .finite sign m e _, _ =>
    have positive : sign * sign = .positive := by cases sign <;> rfl
    simp only [UnpackedFloat.mul, positive]
    exact nonNegative_roundWithAccuracy

theorem nonNegative_mul (hx : NonNegative number) (hy : NonNegative other) :
    NonNegative (UnpackedFloat.mul .binary64 number other) := by
  match number, other, hx, hy with
  | .zero _, .zero _, _, _ => trivial
  | .zero _, .finite _ _ _ _, _, _ => trivial
  | .finite _ _ _ _, .zero _, _, _ => trivial
  | .finite .positive _ _ _, .finite .positive _ _ _, _, _ => exact nonNegative_roundWithAccuracy

theorem nonNegative_div {bottom : Int} (hx : NonNegative number) (hy : NonNegative other)
    (nonzero : TopAtLeast bottom other) :
    NonNegative (UnpackedFloat.div .binary64 number other) := by
  match number, other, hx, hy, nonzero with
  | .zero _, .finite _ _ _ _, _, _, _ => trivial
  | .finite .positive _ _ _, .finite .positive _ _ _, _, _, _ =>
    exact nonNegative_roundWithAccuracy

theorem nonNegative_add (hx : NonNegative number) (hy : NonNegative other) :
    NonNegative (UnpackedFloat.add .binary64 number other) := by
  match number, other, hx, hy with
  | .zero s, .zero s', _, _ => cases s <;> cases s' <;> trivial
  | .zero _, .finite _ _ _ _, _, hy => exact hy
  | .finite _ _ _ _, .zero _, hx, _ => exact hx
  | .finite .positive m₁ e₁ _, .finite .positive m₂ e₂ _, _, _ =>
    simp only [UnpackedFloat.add, UnpackedFloat.decreaseExponent, UnpackedFloat.normalize,
      Sign.apply]
    split
    · next negative =>
      exact absurd (Int.compare_eq_lt.1 negative) (Int.not_lt.2 (by positivity))
    · trivial
    · exact nonNegative_roundWithAccuracy

/-! ### Comparisons -/

/-- Numbers are compared by their exponents first. -/
theorem exponent_le_of_isLE {m₁ m₂ : Nat} {e₁ e₂ : Int}
    (h : ((compare e₁ e₂).then (compare m₁ m₂)).isLE = true) : e₁ ≤ e₂ := by
  by_contra above
  rw [Int.compare_eq_gt.2 (Int.not_le.1 above)] at h
  cases h

theorem exponent_le_of_isLE_swap {m₁ m₂ : Nat} {e₁ e₂ : Int}
    (h : ((compare e₁ e₂).then (compare m₁ m₂)).swap.isLE = true) : e₂ ≤ e₁ := by
  by_contra below
  rw [Int.compare_eq_lt.2 (Int.not_le.1 below)] at h
  cases h

variable {lower upper : UnpackedFloat}

/-- What is between numbers that are below a power of two is below it as well: a positive number is
compared with the upper one, and a negative number with the lower one. -/
theorem Below.of_between (hl : Below top lower) (hu : Below top upper)
    (above : lower.le number = true) (below : number.le upper = true)
    (short : ∀ sign m e h, number = .finite sign m e h → m < 2 ^ 53) : Below top number := by
  match number with
  | .zero _ => trivial
  | .notANumber => simp [UnpackedFloat.le, UnpackedFloat.compare] at below
  | .infinity .positive =>
    cases upper <;> simp_all [UnpackedFloat.le, UnpackedFloat.compare, Below]
  | .infinity .negative =>
    cases lower <;> simp_all [UnpackedFloat.le, UnpackedFloat.compare, Below]
  | .finite .positive m e h =>
    refine ⟨short _ m e h rfl, ?_⟩
    match upper, hu with
    | .zero _, _ => cases below
    | .finite .negative _ _ _, _ => cases below
    | .finite .positive _ _ _, ⟨_, small⟩ =>
      have le := exponent_le_of_isLE below
      omega
  | .finite .negative m e h =>
    refine ⟨short _ m e h rfl, ?_⟩
    match lower, hl with
    | .zero _, _ => cases above
    | .finite .positive _ _ _, _ => cases above
    | .finite .negative _ _ _, ⟨_, small⟩ =>
      have le := exponent_le_of_isLE_swap above
      omega

end DesignTokens.Decimal
