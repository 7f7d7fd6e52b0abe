import DesignTokens.Color.Conversion
import DesignTokens.Proofs.Decimal.BoundedDoubles

/-!
# Every colour of the screen is converted

The conversion to `oklch()` notation may fail: a number that is too large, or that is none, cannot
be rounded. For the channels of a colour this does not happen. The channels are small, the matrices
have small entries, and each step raises the bound by a few binary places, so that what is rounded
in the end is far below the largest double.

Three steps are curves that the library of the machine computes. All that is asked of them is that
they stay in range (`CurvesInRange`).

* `Triple.IsBelow` — three numbers below a power of two; `Matrix.IsBelow.apply` — what a matrix
  makes of them.
* `Rgba.oklch_eq_ok` — the conversion of a colour has a result.
-/

namespace DesignTokens

open Decimal

/-- Curves that stay in range. The bounds leave room for what a machine rounds: the power of 256 is
less than `2 ^ 20`, the root of `2 ^ 31` less than `2 ^ 11`, and half a turn less than four. -/
structure CurvesInRange (pow : Float → Float → Float) (cbrt : Float → Float)
    (atan2 : Float → Float → Float) : Prop where
  pow : ∀ x, 0.0 ≤ x → x ≤ 256.0 → 0.0 ≤ pow x 2.4 ∧ pow x 2.4 ≤ 1048576.0
  cbrt : ∀ x, -2147483648.0 ≤ x → x ≤ 2147483648.0 → -2048.0 ≤ cbrt x ∧ cbrt x ≤ 2048.0
  atan2 : ∀ y x, IsFinite y → IsFinite x → -4.0 ≤ atan2 y x ∧ atan2 y x ≤ 4.0

/-- Curves that are one everywhere are in range. -/
example : CurvesInRange (fun _ _ => 1.0) (fun _ => 1.0) (fun _ _ => 1.0) :=
  ⟨fun _ _ _ => by decide, fun _ _ _ => by decide, fun _ _ _ _ => by decide⟩

/-! ### Three numbers -/

variable {top bottom : Int} {row v : Triple} {m : Matrix}

/-- Three numbers below a power of two. -/
def Triple.IsBelow (top : Int) (v : Triple) : Prop :=
  Decimal.IsBelow top v.first ∧ Decimal.IsBelow top v.second ∧ Decimal.IsBelow top v.third

instance (top : Int) (v : Triple) : Decidable (v.IsBelow top) :=
  inferInstanceAs (Decidable (_ ∧ _ ∧ _))

/-- A matrix whose entries are below a power of two. -/
def Matrix.IsBelow (top : Int) (m : Matrix) : Prop :=
  m.row₁.IsBelow top ∧ m.row₂.IsBelow top ∧ m.row₃.IsBelow top

instance (top : Int) (m : Matrix) : Decidable (m.IsBelow top) :=
  inferInstanceAs (Decidable (_ ∧ _ ∧ _))

theorem Triple.IsBelow.dot (hr : row.IsBelow bottom) (hv : v.IsBelow top) (low : 0 ≤ bottom + top)
    (high : bottom + top < 1000) : Decimal.IsBelow (bottom + top + 5) (row.dot v) := by
  obtain ⟨r₁, r₂, r₃⟩ := hr
  obtain ⟨v₁, v₂, v₃⟩ := hv
  have first := r₁.mul v₁ (by omega) (by omega)
  have second := r₂.mul v₂ (by omega) (by omega)
  have third := r₃.mul v₃ (by omega) (by omega)
  have two := first.add second (by omega) (by omega)
  have three := two.add (third.mono (by omega)) (by omega) (by omega)
  exact three.mono (by omega)

theorem Matrix.IsBelow.apply (hm : m.IsBelow bottom) (hv : v.IsBelow top) (low : 0 ≤ bottom + top)
    (high : bottom + top < 1000) : (m.apply v).IsBelow (bottom + top + 5) :=
  ⟨hm.1.dot hv low high, hm.2.1.dot hv low high, hm.2.2.dot hv low high⟩

theorem isBelow_tristimulusOfLinear : tristimulusOfLinear.IsBelow 0 := by
  decide

theorem isBelow_conesOfTristimulus : conesOfTristimulus.IsBelow 0 := by
  decide

theorem isBelow_opponentOfRoots : opponentOfRoots.IsBelow 2 := by
  decide

/-! ### Within bounds -/

/-- A finite result is not refused. -/
theorem finiteFrom_eq_ok {argument result : Float} (below : Decimal.IsBelow top result) :
    finiteFrom argument result = .ok result := by
  simp [finiteFrom, below.isInf_eq_false]

theorem Channel.isWithin_toUnit (c : Channel) : IsWithin 5 c.toUnit := by
  have whole : IsWithin 11 (Float.ofNat c.val) :=
    @isWithin_ofNat c.val 8 c.isLt (by decide) (by decide)
  have full : TopAtLeast 8 (255.0 : Float).toModel.unpack := by decide
  exact whole.div (by rfl) full (by decide) (by decide)

/-- On the straight part of the curve a channel gets smaller. -/
theorem Channel.isBelow_straight (c : Channel) : Decimal.IsBelow 3 (c.toUnit / 12.92) := by
  have slope : TopAtLeast 4 (12.92 : Float).toModel.unpack := by decide
  exact (c.isWithin_toUnit.div (by rfl) slope (by decide) (by decide)).below

/-- The power is taken of a small number that is not negative. -/
theorem Channel.isWithin_base (c : Channel) : IsWithin 8 ((c.toUnit + 0.055) / 1.055) := by
  have offset : IsWithin 5 (0.055 : Float) := ⟨by decide, rfl⟩
  have scale : TopAtLeast 1 (1.055 : Float).toModel.unpack := by decide
  have sum := c.isWithin_toUnit.add offset (by decide) (by decide)
  exact sum.div (by rfl) scale (by decide) (by decide)

/-- A colour with small coordinates is written. -/
theorem Oklch.exists_css {converted : Oklch} {alpha : Float}
    (lightness : Decimal.IsBelow 19 converted.lightness)
    (chroma : Decimal.IsBelow 43 converted.chroma) (hue : Decimal.IsBelow 12 converted.hue)
    (opacity : Decimal.IsBelow 5 alpha) : ∃ text, converted.css alpha = .ok text := by
  have hundred : Decimal.IsBelow 7 (100.0 : Float) := by decide
  have percent := lightness.mul hundred (by decide) (by decide)
  obtain ⟨l, hl⟩ := exists_roundHalfUp (percent.mono (by decide)) (by decide : 2 < 23)
  obtain ⟨c, hc⟩ := exists_roundHalfUp (chroma.mono (by decide)) (by decide : 4 < 23)
  obtain ⟨h, hh⟩ := exists_roundHalfUp (hue.mono (by decide)) (by decide : 1 < 23)
  obtain ⟨a, ha⟩ := exists_roundHalfUp (opacity.mono (by decide)) (by decide : 2 < 23)
  have chromaHue : ∃ text, chromaHueText converted.chroma converted.hue = .ok text := by
    -- a grey is written without its hue
    simp only [chromaHueText, roundedText, hc, hh]
    exact ⟨_, (apply_ite Except.ok _ _ _).symm⟩
  obtain ⟨middle, hmiddle⟩ := chromaHue
  simp only [css, alphaText, roundedText, hl, hmiddle, ha]
  exact ⟨_, rfl⟩

variable (curves : CurvesInRange Float.pow Float.cbrt Float.atan2)

include curves

/-- A channel is made linear, and stays small. -/
theorem Channel.exists_linearOfScreen (c : Channel) :
    ∃ x, linearOfScreen c.toUnit = .ok x ∧ Decimal.IsBelow 21 x := by
  unfold linearOfScreen
  split
  · exact ⟨_, rfl, c.isBelow_straight.mono (by decide)⟩
  · have base := c.isWithin_base
    have limit : (256.0 : Float).toModel.unpack = .finite .positive (2 ^ 52) (-44) (by decide) :=
      rfl
    obtain ⟨low, high⟩ := curves.pow _ base.zero_le (base.below.le_of_unpack limit (by decide))
    have below : Decimal.IsBelow 21 (Float.pow ((c.toUnit + 0.055) / 1.055) 2.4) :=
      .of_between (by decide) (by decide) low high
    exact ⟨_, finiteFrom_eq_ok below, below⟩

/-- The cube roots of small numbers are small. -/
theorem isBelow_cbrt {x : Float} (hx : Decimal.IsBelow 31 x) : Decimal.IsBelow 12 x.cbrt := by
  have upper : (2147483648.0 : Float).toModel.unpack =
      .finite .positive (2 ^ 52) (-21) (by decide) := rfl
  have lower : (-2147483648.0 : Float).toModel.unpack =
      .finite .negative (2 ^ 52) (-21) (by decide) := rfl
  obtain ⟨low, high⟩ := curves.cbrt x (hx.ge_of_unpack lower (by decide))
    (hx.le_of_unpack upper (by decide))
  exact .of_between (by decide) (by decide) low high

/-- An angle in degrees, counted once around. -/
theorem isBelow_degrees {x y : Float} (hx : Decimal.IsBelow top x) (hy : Decimal.IsBelow top y) :
    let degrees := Float.atan2 y x * (180.0 / pi)
    Decimal.IsBelow 12 (if degrees < 0.0 then degrees + 360.0 else degrees) := by
  intro degrees
  obtain ⟨low, high⟩ := curves.atan2 y x hy.isFinite hx.isFinite
  have angle : Decimal.IsBelow 3 (Float.atan2 y x) := .of_between (by decide) (by decide) low high
  have turn : Decimal.IsBelow 6 (180.0 / pi) := by decide
  have around : Decimal.IsBelow 10 (360.0 : Float) := by decide
  have below : Decimal.IsBelow 10 degrees := angle.mul turn (by decide) (by decide)
  split
  · exact (below.add around (by decide) (by decide)).mono (by decide)
  · exact below.mono (by decide)

/-- Lightness, chroma and hue of a colour of the screen are small. -/
theorem Oklch.exists_ofScreen (c : Rgba) :
    ∃ converted, ofScreen ⟨c.red.toUnit, c.green.toUnit, c.blue.toUnit⟩ = .ok converted ∧
      Decimal.IsBelow 19 converted.lightness ∧ Decimal.IsBelow 43 converted.chroma ∧
      Decimal.IsBelow 12 converted.hue := by
  obtain ⟨red, hred, redBelow⟩ := c.red.exists_linearOfScreen curves
  obtain ⟨green, hgreen, greenBelow⟩ := c.green.exists_linearOfScreen curves
  obtain ⟨blue, hblue, blueBelow⟩ := c.blue.exists_linearOfScreen curves
  -- each of the three matrices adds its own bound and five binary places
  have linear : Triple.IsBelow 21 ⟨red, green, blue⟩ := ⟨redBelow, greenBelow, blueBelow⟩
  have tristimulus := isBelow_tristimulusOfLinear.apply linear (by decide) (by decide)
  have cones := isBelow_conesOfTristimulus.apply tristimulus (by decide) (by decide)
  generalize responses : conesOfTristimulus.apply _ = r at cones
  have roots : Triple.IsBelow 12 ⟨r.first.cbrt, r.second.cbrt, r.third.cbrt⟩ :=
    ⟨isBelow_cbrt curves cones.1, isBelow_cbrt curves cones.2.1, isBelow_cbrt curves cones.2.2⟩
  have opponent := isBelow_opponentOfRoots.apply roots (by decide) (by decide)
  generalize axes : opponentOfRoots.apply _ = lab at opponent
  obtain ⟨lightness, across, along⟩ := opponent
  have squares := (across.square (by decide) (by decide)).add
    (along.square (by decide) (by decide)) (by decide) (by decide)
  have chroma := squares.sqrt (by decide) (by decide)
  have hue := isBelow_degrees curves across along
  -- the bounds are those of what is computed
  refine ⟨⟨lab.first, _, _⟩, ?_, lightness, chroma, hue⟩
  simp only [ofScreen, hred, hgreen, hblue, Except.bind, bind, responses, axes]
  rfl

namespace Rgba

/-- **The conversion of a colour has a result**, which is what is written for it. -/
theorem oklch_eq_ok (c : Rgba) : c.oklch = .ok c.oklchText := by
  obtain ⟨converted, computed, lightness, chroma, hue⟩ := Oklch.exists_ofScreen curves c
  obtain ⟨text, written⟩ := Oklch.exists_css lightness chroma hue c.alpha.isWithin_toUnit.below
  have result : c.oklch = .ok text := by
    simp only [oklch, computed]
    exact written
  rw [oklchText, result]

end Rgba

end DesignTokens
