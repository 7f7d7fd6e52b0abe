import DesignTokens.Decimal.Shortest
import DesignTokens.Text.Blank
import DesignTokens.Text.DecimalDigit

/-!
# Reading numbers

A decimal numeral is a sign, a natural number of digits and a power of ten; the double
nearest to it is the number it stands for.

* `Numeral` and `Numeral.toFloat`.
* `takeDigits` splits off a run of digits.
* `readFloat?` reads the text of a number as it may stand in a style sheet: with blanks around
  it, in the digits of any script, with single underscores between digits, and with the words
  for infinity and not-a-number.
-/

namespace DesignTokens.Decimal

/-- A decimal in its written form: `digits * 10 ^ exponent`, negated when `negative` holds. -/
structure Numeral where
  negative : Bool
  digits : Nat
  exponent : Int
deriving DecidableEq, Repr

/-- The double nearest to the numeral. A magnitude far outside the doubles is settled by the
power of ten of its leading digit, so that no huge power is ever computed. -/
def Numeral.toFloat (n : Numeral) : Float :=
  let leading : Int := (digitCount n.digits : Int) + n.exponent
  let magnitude : Float :=
    if n.digits = 0 then 0.0
    -- the greatest double is below `10 ^ 309`, half the least one above `10 ^ -324`
    else if leading > 310 then 1.0 / 0.0
    else if leading < -330 then 0.0
    else Float.ofScientific n.digits (n.exponent < 0) n.exponent.natAbs
  if n.negative then -magnitude else magnitude

/-- The value of an ASCII digit. -/
def asciiDigit? (c : Char) : Option Nat :=
  if '0' ≤ c ∧ c ≤ '9' then some (c.toNat - '0'.toNat) else none

/-- The digits at the front of a text, and what follows them. -/
def takeDigits : List Char → List Nat × List Char
  | [] => ([], [])
  | c :: rest =>
    match asciiDigit? c with
    | none => ([], c :: rest)
    | some value =>
      let (more, after) := takeDigits rest
      (value :: more, after)

/-- The natural number that a row of digits writes. -/
def ofDigits (digits : List Nat) : Nat :=
  digits.foldl (fun n d => 10 * n + d) 0

/-- The rest after a run of digits is never longer than the text. -/
theorem length_takeDigits_le (text : List Char) : (takeDigits text).2.length ≤ text.length := by
  induction text with
  | nil => exact Nat.le_refl _
  | cons c rest ih =>
    simp only [takeDigits]
    split
    · exact Nat.le_refl _
    · exact Nat.le_succ_of_le ih

/-- Writes blanks beyond ASCII as spaces and the digits of every script as ASCII digits. -/
def asciiForm (text : List Char) : List Char :=
  text.map fun c =>
    if c.toNat < 128 then c
    else if Text.isBlank c then ' '
    else
      match Text.digitValue? c with
      | some value => Char.ofNat ('0'.toNat + value)
      | none => c

/-- The blanks that may stand around a number in its ASCII form. -/
def isNumberBlank (c : Char) : Bool :=
  c == ' ' || (0x09 ≤ c.toNat && c.toNat ≤ 0x0D)

/-- Whether every underscore stands between two digits; `before` is the character before the
text. -/
def underscoresSeparateDigits (before : Char) : List Char → Bool
  | [] => before != '_'
  | c :: rest =>
    (c != '_' || (asciiDigit? before).isSome) &&
      (before != '_' || (asciiDigit? c).isSome) && underscoresSeparateDigits c rest

/-- Splits a sign off; a missing sign is positive. -/
def takeSign : List Char → Bool × List Char
  | '-' :: rest => (true, rest)
  | '+' :: rest => (false, rest)
  | text => (false, text)

/-- The power of ten after an `e`, which must end the text. -/
def readExponent? (text : List Char) : Option Int :=
  let (negative, unsigned) := takeSign text
  match takeDigits unsigned with
  | ([], _) => none
  | (digits, []) => some (Binary.signed negative (ofDigits digits))
  | (_, _ :: _) => none

/-- Reads digits with an optional point among them and an optional power of ten. -/
def readUnsigned? (negative : Bool) (text : List Char) : Option Numeral :=
  let (whole, afterWhole) := takeDigits text
  let (fraction, rest) :=
    match afterWhole with
    | '.' :: more => takeDigits more
    | _ => ([], afterWhole)
  if whole = [] ∧ fraction = [] then none
  else
    let digits := ofDigits (whole ++ fraction)
    let places : Int := fraction.length
    match rest with
    | [] => some { negative := negative, digits := digits, exponent := -places }
    | c :: more =>
      if c = 'e' ∨ c = 'E' then
        (readExponent? more).map fun power =>
          { negative := negative, digits := digits, exponent := power - places }
      else none

/-- Reads the text of a number, or nothing when the text is none. -/
def readFloat? (text : List Char) : Option Float :=
  -- blanks of every kind are spaces in the ASCII form, so trimming comes after it
  let ascii := (Text.dropEndWhile isNumberBlank (asciiForm text)).dropWhile isNumberBlank
  if underscoresSeparateDigits ' ' ascii then
    let (negative, unsigned) := takeSign (ascii.filter (· != '_'))
    let word := unsigned.map Char.toLower
    if word = "inf".toList ∨ word = "infinity".toList then
      some (if negative then -1.0 / 0.0 else 1.0 / 0.0)
    else if word = "nan".toList then some (0.0 / 0.0)
    else (readUnsigned? negative unsigned).map Numeral.toFloat
  else none

end DesignTokens.Decimal
