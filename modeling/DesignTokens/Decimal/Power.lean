/-!
# Powers of two and of ten

A double counts in powers of two, its text in powers of ten. Both are naturals here; a negative
power is a divisor.
-/

namespace DesignTokens.Decimal

/-- `2 ^ n`. -/
def powerOfTwo (n : Nat) : Nat :=
  Nat.pow 2 n

/-- `10 ^ n`. -/
def powerOfTen (n : Nat) : Nat :=
  Nat.pow 10 n

theorem powerOfTwo_pos (n : Nat) : 0 < powerOfTwo n :=
  Nat.two_pow_pos n

end DesignTokens.Decimal
