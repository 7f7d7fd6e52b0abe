import DesignTokens.Decimal.NumberText
import DesignTokens.Text.Blank

/-!
# Rounding to a number of places

Two roundings are in use, one after the other: a value is first rounded half-up to a
multiple of `10 ^ -places`, and the double nearest to that multiple is then written with a
fixed number of places and stripped of its trailing zeros.

* `roundDiv` is an integer quotient rounded to nearest, a tie to the even side.
* `Binary.fixed` writes a finite double with a fixed number of places.
* `Rounded` is a multiple of a power of ten; `roundHalfUp` produces it, or says why it cannot
  (`ArithmeticError`).
* `roundedText` is the text of the rounded value without trailing zeros.
-/

namespace DesignTokens.Decimal

/-- Why a computation has no result. -/
inductive ArithmeticError where
  /-- an infinity cannot be rounded, and a finite value must not become one -/
  | overflow
  /-- what is not a number cannot be rounded, and an infinite angle has no cosine -/
  | undefined
deriving DecidableEq, Repr

/-- The quotient rounded to the nearest integer; a tie goes to the even one. -/
def roundDiv (numerator denominator : Nat) : Nat :=
  let quotient := numerator / denominator
  match compare (2 * (numerator % denominator)) denominator with
  | .lt => quotient
  | .gt => quotient + 1
  | .eq => if quotient % 2 = 0 then quotient else quotient + 1

/-- `count` characters at least, filled up with zeros on the left. -/
def padZeros (count : Nat) (digits : List Char) : List Char :=
  List.replicate (count - digits.length) '0' ++ digits

/-- `units * 10 ^ -places`, with exactly `places` digits after the point. -/
def fixedText (units places : Nat) : List Char :=
  let digits := padZeros (places + 1) (natText units)
  let whole := digits.length - places
  if places = 0 then digits else digits.take whole ++ '.' :: digits.drop whole

/-- A double with exactly `places` digits after the point, rounded from its exact value. -/
def Binary.fixed (places : Nat) : Binary → List Char
  | .notANumber => "nan".toList
  | .infinite negative => (if negative then "-inf" else "inf").toList
  | .finite negative mantissa exponent =>
    let units := roundDiv (mantissa * powerOfTwo exponent.toNat * powerOfTen places)
      (powerOfTwo (-exponent).toNat)
    if negative then '-' :: fixedText units places else fixedText units places

/-- `units * 10 ^ -places`. -/
structure Rounded where
  units : Int
  places : Nat
deriving DecidableEq, Repr

/-- The double nearest to a rounded value. -/
def Rounded.toFloat (r : Rounded) : Float :=
  let magnitude := Float.ofScientific r.units.natAbs true r.places
  if r.units < 0 then -magnitude else magnitude

/-- Rounds half-up: the value is scaled by `10 ^ places`, a half is added, both in double
arithmetic, and the result is rounded down. -/
def roundHalfUp (x : Float) (places : Nat) : Except ArithmeticError Rounded :=
  let factor := Float.ofScientific 1 false places
  -- so many places that their power of ten is no double
  if factor.isInf then .error .overflow
  else
    match Binary.ofFloat (x * factor + 0.5) with
    | .notANumber => .error .undefined
    | .infinite _ => .error .overflow
    | scaled => .ok { units := scaled.floor?.getD 0, places := places }

/-- Removes zeros at the end, then a point at the end; what is left of a zero is `0`. -/
def stripZeros (text : List Char) : List Char :=
  let kept := Text.dropEndWhile (· == '.') (Text.dropEndWhile (· == '0') text)
  -- a text of zeros alone loses all of them
  if kept = [] ∨ kept = ['-', '0'] then ['0'] else kept

/-- The text of a rounded value. -/
def Rounded.text (r : Rounded) : List Char :=
  stripZeros ((Binary.ofFloat r.toFloat).fixed r.places)

/-- Rounds half-up to `places` decimals and writes the result without trailing zeros. -/
def roundedText (x : Float) (places : Nat) : Except ArithmeticError (List Char) :=
  (roundHalfUp x places).map Rounded.text

end DesignTokens.Decimal
