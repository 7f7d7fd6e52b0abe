import DesignTokens.Decimal.Power

/-!
# What the bits of a double say

A double is decoded once, into a sign, a natural mantissa and a binary exponent; all
text of a number is then made by exact arithmetic on these, never from another printer.

* `Binary` is the decoded form and `Binary.ofFloat` the decoder.
* `Binary.whole?` is the exact integer that a double holds, if it holds one.
* `Binary.floor?` rounds towards minus infinity, exactly.
-/

namespace DesignTokens.Decimal

/-- A double taken apart; `finite s m q` is `m * 2 ^ q`, negated when `s` holds. -/
inductive Binary where
  | notANumber
  | infinite (negative : Bool)
  | finite (negative : Bool) (mantissa : Nat) (exponent : Int)
deriving DecidableEq, Repr

namespace Binary

/-- Decodes the sign, the eleven exponent bits and the fifty-two fraction bits. -/
def ofFloat (x : Float) : Binary :=
  let bits := x.toBits.toNat
  let negative := decide (powerOfTwo 63 ≤ bits)
  let exponent : Nat := bits / powerOfTwo 52 % powerOfTwo 11
  let fraction := bits % powerOfTwo 52
  if exponent = 2047 then
    if fraction = 0 then .infinite negative else .notANumber
  -- below the normal range there is no leading one bit
  else if exponent = 0 then .finite negative fraction (-1074)
  else .finite negative (powerOfTwo 52 + fraction) ((exponent : Int) - 1075)

/-- An integer with the given sign. -/
def signed (negative : Bool) (magnitude : Nat) : Int :=
  if negative then -(magnitude : Int) else magnitude

/-- The integer that the number is equal to; the two zeros are both `0`. -/
def whole? : Binary → Option Int
  | .notANumber => none
  | .infinite _ => none
  | .finite negative mantissa exponent =>
    if 0 ≤ exponent then some (signed negative (mantissa * powerOfTwo exponent.toNat))
    else if mantissa % powerOfTwo (-exponent).toNat = 0 then
      some (signed negative (mantissa / powerOfTwo (-exponent).toNat))
    else none

/-- The greatest integer that is not above the number. -/
def floor? : Binary → Option Int
  | .notANumber => none
  | .infinite _ => none
  | .finite negative mantissa exponent =>
    if 0 ≤ exponent then some (signed negative (mantissa * powerOfTwo exponent.toNat))
    else some (signed negative mantissa / powerOfTwo (-exponent).toNat)

end Binary

end DesignTokens.Decimal
