import DesignTokens.Color.Oklch
import DesignTokens.Color.OklchNotation
import DesignTokens.Color.Rgba
import DesignTokens.Value.Basic

/-!
# Colours in text, converted

* `Oklch.css` writes a colour in `oklch()` notation: lightness as a percentage with two
  places, chroma with four, hue with one, and alpha with two if it rounds below one. A colour
  whose chroma rounds to less than five ten-thousandths is grey and has no hue.
* `Oklch.hex` writes the nearest colour of the screen in hex notation.
* `oklchOfText?` converts a colour that is written in either notation.
* `isColor` is the class of texts that can be converted (`isSome_oklchOfText?`).
* `Value.oklch?` and `Value.isColor` ask the same of a value of any type; only a text is a colour.
-/

namespace DesignTokens

namespace Oklch

/-- Chroma below this many ten-thousandths counts as grey. -/
def greyBelow : Int := 5

/-- The chroma and the hue, separated by a space; a grey has no hue. -/
def chromaHueText (chroma hue : Float) : Except Decimal.ArithmeticError (List Char) := do
  let rounded ← Decimal.roundHalfUp chroma 4
  -- the hue of a grey is not even rounded, so it may be anything
  if rounded.units < greyBelow then return "0 none".toList
  else
    let hueText ← Decimal.roundedText hue 1
    return rounded.text ++ ' ' :: hueText

/-- The alpha, led by a slash, if it rounds below one. -/
def alphaText (alpha : Float) : Except Decimal.ArithmeticError (List Char) := do
  let rounded ← Decimal.roundHalfUp alpha 2
  return if rounded.units < 100 then " / ".toList ++ rounded.text else []

/-- Writes a colour in `oklch()` notation. -/
def css (c : Oklch) (alpha : Float) : Except Decimal.ArithmeticError (List Char) := do
  let lightness ← Decimal.roundedText (c.lightness * 100.0) 2
  let chromaHue ← chromaHueText c.chroma c.hue
  let alpha ← alphaText alpha
  return "oklch(".toList ++ lightness ++ "% ".toList ++ chromaHue ++ alpha ++ [')']

/-- The two digits of a channel from 0 to 1. -/
def channelHex (c : Float) : List Char :=
  match Decimal.Binary.ofFloat (c * 255.0) with
  | .finite false mantissa exponent =>
    let n := Decimal.roundDiv (mantissa * Decimal.powerOfTwo exponent.toNat)
      (Decimal.powerOfTwo (-exponent).toNat)
    [Text.upperHexDigit ⟨n / 16 % 16, Nat.mod_lt _ (by decide)⟩,
      Text.upperHexDigit ⟨n % 16, Nat.mod_lt _ (by decide)⟩]
  | _ => ['0', '0']

/-- Writes the nearest colour of the screen in hex notation. -/
def hex (c : Oklch) : Except Decimal.ArithmeticError (List Char) := do
  let screen ← c.toScreen
  return '#' :: channelHex screen.first ++ channelHex screen.second ++ channelHex screen.third

end Oklch

/-- A channel from 0 to 1. -/
def Channel.toUnit (c : Channel) : Float :=
  Float.ofNat c.val / 255.0

namespace Rgba

/-- The colour in `oklch()` notation, as it is computed. -/
def oklch (c : Rgba) : Except Decimal.ArithmeticError (List Char) := do
  let converted ← Oklch.ofScreen ⟨Channel.toUnit c.red, Channel.toUnit c.green,
    Channel.toUnit c.blue⟩
  converted.css (Channel.toUnit c.alpha)

/-- The colour in `oklch()` notation. A computation that fails has no text, and black is written in
its place. It does not fail as long as the curves that the machine computes stay in range
(`oklch_eq_ok`), and only under that condition this is the text of the colour. -/
def oklchText (c : Rgba) : List Char :=
  match c.oklch with
  | .ok text => text
  | .error _ => "oklch(0% 0 none)".toList

end Rgba

/-- The `oklch()` notation of a colour in hex notation. -/
def oklchOfHex? (text : List Char) : Option (List Char) :=
  (Rgba.ofHex? text).map Rgba.oklchText

/-- The `oklch()` notation of a colour in either notation; one that is written so already keeps
its text, without the blanks around it. -/
def oklchOfText? (text : List Char) : Option (List Char) :=
  if isOklch text then some (Text.trim text) else oklchOfHex? text

/-- Whether a text is a colour that can be converted. -/
def isColor (text : List Char) : Bool :=
  isOklch text || (Rgba.ofHex? text).isSome

/-- Exactly the colours are converted. -/
theorem isSome_oklchOfText? (text : List Char) : (oklchOfText? text).isSome = isColor text := by
  unfold oklchOfText? isColor oklchOfHex?
  cases isOklch text <;> simp

namespace Value

/-- The `oklch()` notation of a value that is a colour. -/
def oklch? : Value → Option (List Char)
  | .str text => oklchOfText? text.toList
  | _ => none

/-- Whether a value is a colour that can be converted. -/
def isColor : Value → Bool
  | .str text => DesignTokens.isColor text.toList
  | _ => false

/-- Exactly the colours are converted. -/
theorem isSome_oklch? (v : Value) : v.oklch?.isSome = v.isColor := by
  cases v with
  | str text => exact isSome_oklchOfText? text.toList
  | _ => rfl

end Value

end DesignTokens
