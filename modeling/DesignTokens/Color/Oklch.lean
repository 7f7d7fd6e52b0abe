import DesignTokens.Decimal.Rounding

/-!
# Between the colour spaces

A colour of the screen is converted to lightness, chroma and hue, and back. The way leads
through the linear channels, the tristimulus values of the standard observer under daylight,
and the responses of the cones, each step being a matrix or a curve on each channel.

All steps are double arithmetic in a fixed order, so that the digits that are printed are the
same everywhere.

* `linearOfScreen` and `screenOfLinear` are the curves of the screen.
* `Oklch.ofScreen` and `Oklch.toScreen` are the conversions.
-/

namespace DesignTokens

/-- Three numbers: channels, or coordinates in a colour space. -/
structure Triple where
  first : Float
  second : Float
  third : Float

/-- Three rows. -/
structure Matrix where
  row₁ : Triple
  row₂ : Triple
  row₃ : Triple

/-- The product of a row and a column, summed from the left. -/
def Triple.dot (row v : Triple) : Float :=
  row.first * v.first + row.second * v.second + row.third * v.third

/-- The product of a matrix and a column. -/
def Matrix.apply (m : Matrix) (v : Triple) : Triple :=
  ⟨m.row₁.dot v, m.row₂.dot v, m.row₃.dot v⟩

/-- From linear channels to tristimulus values. -/
def tristimulusOfLinear : Matrix :=
  ⟨⟨0.4124564, 0.3575761, 0.1804375⟩, ⟨0.2126729, 0.7151522, 0.0721750⟩,
    ⟨0.0193339, 0.1191920, 0.9503041⟩⟩

/-- From tristimulus values to linear channels. -/
def linearOfTristimulus : Matrix :=
  ⟨⟨3.2404542, -1.5371385, -0.4985314⟩, ⟨-0.9692660, 1.8760108, 0.0415560⟩,
    ⟨0.0556434, -0.2040259, 1.0572252⟩⟩

/-- From tristimulus values to the responses of the cones. -/
def conesOfTristimulus : Matrix :=
  ⟨⟨0.8189330101, 0.3618667424, -0.1288597137⟩, ⟨0.0329845436, 0.9293118715, 0.0361456387⟩,
    ⟨0.0482003018, 0.2643662691, 0.6338517070⟩⟩

/-- From the responses of the cones to tristimulus values. -/
def tristimulusOfCones : Matrix :=
  ⟨⟨1.2270138511035211, -0.5577999806518222, 0.2812561489664678⟩,
    ⟨-0.0405801784232806, 1.1122568696168302, -0.0716766786656012⟩,
    ⟨-0.0763812845057069, -0.4214819784180127, 1.5861632204407947⟩⟩

/-- From the cube roots of the responses to lightness and the two opponent axes. -/
def opponentOfRoots : Matrix :=
  ⟨⟨0.2104542553, 0.7936177850, -0.0040720468⟩, ⟨1.9779984951, -2.4285922050, 0.4505937099⟩,
    ⟨0.0259040371, 0.7827717662, -0.8086757660⟩⟩

/-- From lightness and the two opponent axes to the cube roots of the responses. -/
def rootsOfOpponent : Matrix :=
  ⟨⟨0.9999999984505198, 0.3963377921737679, 0.2158037580607588⟩,
    ⟨1.0000000088817609, -0.1055613423236564, -0.0638541747717059⟩,
    ⟨1.0000000546724109, -0.0894841820949658, -1.2914855378640917⟩⟩

/-- Half a turn. -/
def pi : Float := 3.141592653589793

/-- Refuses an infinite result that no argument explains. -/
def finiteFrom (argument result : Float) : Except Decimal.ArithmeticError Float :=
  if result.isInf && !argument.isInf then .error .overflow else .ok result

/-- One channel of the screen, from 0 to 1, made linear. -/
def linearOfScreen (c : Float) : Except Decimal.ArithmeticError Float :=
  if c ≤ 0.04045 then .ok (c / 12.92)
  else
    let base := (c + 0.055) / 1.055
    finiteFrom base (Float.pow base 2.4)

/-- One linear channel, from 0 to 1, for the screen. -/
def screenOfLinear (c : Float) : Float :=
  if c ≤ 0.0031308 then 12.92 * c else 1.055 * Float.pow c (1.0 / 2.4) - 0.055

/-- The channel in range that is nearest; what is not a number counts as full. -/
def clampChannel (c : Float) : Float :=
  -- no comparison holds of what is not a number, so it takes the upper bound
  let upper := if c < 1.0 then c else 1.0
  if 0.0 < upper then upper else 0.0

/-- A colour by lightness (from 0 to 1), chroma and hue (in degrees). -/
structure Oklch where
  lightness : Float
  chroma : Float
  hue : Float

namespace Oklch

/-- From the channels of the screen. -/
def ofScreen (screen : Triple) : Except Decimal.ArithmeticError Oklch := do
  let red ← linearOfScreen screen.first
  let green ← linearOfScreen screen.second
  let blue ← linearOfScreen screen.third
  let cones := conesOfTristimulus.apply (tristimulusOfLinear.apply ⟨red, green, blue⟩)
  let lab := opponentOfRoots.apply ⟨cones.first.cbrt, cones.second.cbrt, cones.third.cbrt⟩
  let degrees := Float.atan2 lab.third lab.second * (180.0 / pi)
  -- hues are counted once around, from 0 to 360
  return {
    lightness := lab.first
    chroma := (lab.second * lab.second + lab.third * lab.third).sqrt
    hue := if degrees < 0.0 then degrees + 360.0 else degrees }

/-- The cube of a number. -/
def cube (x : Float) : Except Decimal.ArithmeticError Float :=
  finiteFrom x (Float.pow x 3.0)

/-- To the channels of the screen, each in range. -/
def toScreen (c : Oklch) : Except Decimal.ArithmeticError Triple := do
  let angle := c.hue * (pi / 180.0)
  -- an infinite angle has neither a cosine nor a sine
  if angle.isInf then throw .undefined
  let roots := rootsOfOpponent.apply ⟨c.lightness, c.chroma * angle.cos, c.chroma * angle.sin⟩
  let first ← cube roots.first
  let second ← cube roots.second
  let third ← cube roots.third
  let linear := linearOfTristimulus.apply (tristimulusOfCones.apply ⟨first, second, third⟩)
  return ⟨screenOfLinear (clampChannel linear.first), screenOfLinear (clampChannel linear.second),
    screenOfLinear (clampChannel linear.third)⟩

end Oklch

end DesignTokens
