import DesignTokens.Decimal.Shortest

/-!
# The text of a number

A double is written with the fewest digits that read back. Where the decimal point stands
is decided by the power of ten of the leading digit: from `10 ^ -4` up to, but not
including, `10 ^ 16` the digits are written out, otherwise with an exponent of a sign and
at least two digits.

* `natText` writes a natural number.
* `Scaled.text` lays out a decimal.
* `floatText` writes any double; an integral one keeps its `.0`.
-/

namespace DesignTokens.Decimal

/-- The decimal digits of a natural number. -/
def natText (n : Nat) : List Char :=
  Nat.toDigits 10 n

/-- The decimal digits of an integer, after a minus sign when it is negative. -/
def intText : Int → List Char
  | .ofNat n => natText n
  | .negSucc n => '-' :: natText (n + 1)

/-- The powers of ten at which the leading digit may stand for the digits to be written out. -/
def isPositional (leading : Int) : Bool :=
  -4 ≤ leading && leading < 16

/-- An exponent: its sign, then at least two digits. -/
def exponentText (exponent : Int) : List Char :=
  let digits := natText exponent.natAbs
  let padded := if digits.length < 2 then '0' :: digits else digits
  (if exponent < 0 then '-' else '+') :: padded

/-- Lays out a decimal that is not zero. -/
def Scaled.text (d : Scaled) : List Char :=
  let digits := natText d.digits
  let leading : Int := digits.length - 1 + d.exponent
  if isPositional leading then
    -- the point stands after all digits, among them, or before them
    if 0 ≤ d.exponent then digits ++ List.replicate d.exponent.toNat '0' ++ ['.', '0']
    else if 0 ≤ leading then
      digits.take (leading.toNat + 1) ++ '.' :: digits.drop (leading.toNat + 1)
    else ['0', '.'] ++ List.replicate (-leading - 1).toNat '0' ++ digits
  else
    let fraction := if digits.length ≤ 1 then [] else '.' :: digits.drop 1
    digits.take 1 ++ fraction ++ 'e' :: exponentText leading

/-- The text of a decoded double. -/
def Binary.text : Binary → List Char
  | .notANumber => "nan".toList
  | .infinite negative => (if negative then "-inf" else "inf").toList
  | .finite negative mantissa exponent =>
    let magnitude := if mantissa = 0 then "0.0".toList else (shortest mantissa exponent).text
    if negative then '-' :: magnitude else magnitude

/-- The text of a double. -/
def floatText (x : Float) : String :=
  String.ofList (Binary.ofFloat x).text

end DesignTokens.Decimal
