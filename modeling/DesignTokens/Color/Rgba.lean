import DesignTokens.Text.Blank
import DesignTokens.Text.HexDigit

/-!
# Hex colours

A hex colour is a number sign and three, four, six or eight hexadecimal digits, of either
case, with blanks around it. The short forms write each channel with one digit that stands
for two, and a form without the fourth channel is opaque.

* `Rgba` holds the four channels.
* `Rgba.ofHex?` reads the notation.
-/

namespace DesignTokens

/-- One channel of a colour. -/
abbrev Channel := Fin 256

/-- A colour by its channels. -/
structure Rgba where
  red : Channel
  green : Channel
  blue : Channel
  alpha : Channel
deriving DecidableEq, Repr

namespace Rgba

/-- The channel that two digits write. -/
def channel (high low : Fin 16) : Channel :=
  ⟨16 * high.val + low.val, by omega⟩

/-- The values of digits, if all characters are digits. -/
def hexDigits? : List Char → Option (List (Fin 16))
  | [] => some []
  | c :: rest =>
    match Text.hexDigit? c, hexDigits? rest with
    | some d, some more => some (d :: more)
    | _, _ => none

/-- The colour that digits write. -/
def ofDigits? : List (Fin 16) → Option Rgba
  | [r, g, b] => some ⟨channel r r, channel g g, channel b b, channel 15 15⟩
  | [r, g, b, a] => some ⟨channel r r, channel g g, channel b b, channel a a⟩
  | [r, r', g, g', b, b'] => some ⟨channel r r', channel g g', channel b b', channel 15 15⟩
  | [r, r', g, g', b, b', a, a'] => some ⟨channel r r', channel g g', channel b b', channel a a'⟩
  | _ => none

/-- Reads the hex notation of a colour. -/
def ofHex? (text : List Char) : Option Rgba :=
  match Text.trim text with
  | '#' :: digits => (hexDigits? digits).bind ofDigits?
  | _ => none

end Rgba

end DesignTokens
