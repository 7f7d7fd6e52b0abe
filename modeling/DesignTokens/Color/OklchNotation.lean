import DesignTokens.Decimal.Numeral

/-!
# The `oklch()` notation

A colour in the notation `oklch(L C H / A)`: lightness, chroma and hue separated by blanks,
and an optional alpha after a slash. The name may be written in either case.

* `isOklch` only looks whether a text starts as such a colour.
* `OklchParts.ofText?` cuts a whole text into the texts of its components, and
  `OklchReading.ofText?` reads these as numbers: a percentage is taken of a full scale, and
  `none` is zero.
-/

namespace DesignTokens

/-- Whether a character is a given small letter in either case; the sign for kelvin counts as
a `k`. -/
def isLetter (letter c : Char) : Bool :=
  c.toLower == letter || (letter == 'k' && c == '\u212A')

/-- The rest of a text after a word in either case that it starts with. -/
def afterName? : (name text : List Char) → Option (List Char)
  | [], text => some text
  | _ :: _, [] => none
  | letter :: name, c :: text => if isLetter letter c then afterName? name text else none

/-- Skips blanks. -/
def skipBlanks (text : List Char) : List Char :=
  text.dropWhile Text.isBlank

/-- What follows the opening bracket of an `oklch()` colour. -/
def afterOklch? (text : List Char) : Option (List Char) :=
  match afterName? ['o', 'k', 'l', 'c', 'h'] (skipBlanks text) with
  | none => none
  | some rest =>
    match skipBlanks rest with
    | '(' :: inside => some inside
    | _ => none

/-- Whether a text starts as a colour in `oklch()` notation. -/
def isOklch (text : List Char) : Bool :=
  (afterOklch? text).isSome

/-- The texts of the components of a colour. -/
structure OklchParts where
  lightness : List Char
  chroma : List Char
  hue : List Char
  alpha : Option (List Char)
deriving DecidableEq, Repr

/-- The characters of a component: neither blank nor one that ends it. -/
def isComponentChar (c : Char) : Bool :=
  !Text.isBlank c && c != '/' && c != ')'

/-- The characters of an alpha component, which may hold a slash. -/
def isAlphaChar (c : Char) : Bool :=
  !Text.isBlank c && c != ')'

/-- A run of one or more characters of a class at the front of a text, and the rest. -/
def takeRun? (p : Char → Bool) (text : List Char) : Option (List Char × List Char) :=
  match text.takeWhile p with
  | [] => none
  | run => some (run, text.dropWhile p)

/-- Skips one blank or more. -/
def skipSomeBlanks? (text : List Char) : Option (List Char) :=
  (takeRun? Text.isBlank text).map Prod.snd

/-- Accepts the closing bracket with nothing but blanks after it. -/
def closes (text : List Char) : Bool :=
  match skipBlanks text with
  | ')' :: rest => skipBlanks rest == []
  | _ => false

/-- What follows the hue: an optional alpha, and the end. -/
def readAlpha? (text : List Char) : Option (Option (List Char)) :=
  match skipBlanks text with
  | '/' :: rest =>
    match takeRun? isAlphaChar (skipBlanks rest) with
    | none => none
    | some (alpha, after) => if closes after then some (some alpha) else none
  | rest => if closes rest then some none else none

namespace OklchParts

/-- Cuts a colour in `oklch()` notation into its components. -/
def ofText? (text : List Char) : Option OklchParts := do
  let inside ← afterOklch? text
  let (lightness, rest) ← takeRun? isComponentChar (skipBlanks inside)
  let rest ← skipSomeBlanks? rest
  let (chroma, rest) ← takeRun? isComponentChar rest
  let rest ← skipSomeBlanks? rest
  let (hue, rest) ← takeRun? isComponentChar rest
  -- no blank need stand before the slash or the closing bracket
  let alpha ← readAlpha? rest
  return { lightness := lightness, chroma := chroma, hue := hue, alpha := alpha }

end OklchParts

/-- Reads a component. A percentage is divided by the scale of the component and is refused if
it has none. -/
def readComponent? (percentScale : Option Float) (text : List Char) : Option Float :=
  if text.map Char.toLower = ['n', 'o', 'n', 'e'] then some 0.0
  else if text.getLast? = some '%' then
    match percentScale, Decimal.readFloat? text.dropLast with
    | some scale, some number => some (number / scale)
    | _, _ => none
  else Decimal.readFloat? text

/-- The components of a colour as they are read. -/
structure OklchReading where
  lightness : Float
  chroma : Float
  hue : Float
  alpha : Float

namespace OklchReading

/-- Reads the components. Lightness and alpha are full at 100%, chroma is 0.4 there, and a hue
is no percentage; a colour without alpha is opaque. -/
def ofParts? (parts : OklchParts) : Option OklchReading := do
  let lightness ← readComponent? (some 100.0) parts.lightness
  let chroma ← readComponent? (some 250.0) parts.chroma
  let hue ← readComponent? none parts.hue
  let alpha ←
    match parts.alpha with
    | none => some 1.0
    | some text => readComponent? (some 100.0) text
  return { lightness := lightness, chroma := chroma, hue := hue, alpha := alpha }

/-- Reads a colour in `oklch()` notation. -/
def ofText? (text : List Char) : Option OklchReading :=
  (OklchParts.ofText? text).bind ofParts?

end OklchReading

end DesignTokens
