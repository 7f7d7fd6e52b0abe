import DesignTokens.Decimal.Binary

/-!
# The fewest digits that read back

Between two neighbouring doubles lies an interval of reals that are nearer to one of them
than to any other double; every decimal in it reads back as that double. `shortest` looks
for the decimal with the fewest digits in that interval: on the grid of one significant
digit, then of two, and so on, it tests the two grid points around the value, in exact
integer arithmetic.

* `Scaled` is a natural number of digits scaled by a power of ten.
* `Grid` is one such grid with the value and the interval's ends scaled to it.
* `shortest` is the search.
-/

namespace DesignTokens.Decimal

/-- `digits * 10 ^ exponent`. -/
structure Scaled where
  digits : Nat
  exponent : Int
deriving DecidableEq, Repr

/-- How many decimal digits a natural number has; zero has one. -/
def digitCount (n : Nat) : Nat :=
  (Nat.toDigits 10 n).length

/-- The power of ten of the leading digit of `numerator / denominator`. The digit counts fix
it up to one, and one comparison decides. -/
def leadingExponent (numerator denominator : Nat) : Int :=
  let estimate : Int := (digitCount numerator : Int) - digitCount denominator
  if denominator * powerOfTen estimate.toNat ≤ numerator * powerOfTen (-estimate).toNat then
    estimate
  else estimate - 1

/-- The value `mantissa * 2 ^ exponent` seen on the grid of the multiples of `10 ^ power`. All
quantities are scaled by common factors to naturals: a grid point `c` stands at `c * unit`,
the value at `value`, and the reals that read back lie between `low` and `high`. -/
structure Grid where
  unit : Nat
  value : Nat
  low : Nat
  high : Nat
  /-- whether the ends themselves read back: a tie goes to the even mantissa -/
  closed : Bool

/-- Below a power of two the neighbour is only half as far away as above it. -/
def Grid.of (mantissa : Nat) (exponent : Int) (power : Int) : Grid :=
  -- in quarters of the last bit the value and both ends are whole numbers
  let quarters := exponent - 2
  let scale := powerOfTwo quarters.toNat * powerOfTen (-power).toNat
  let below := if mantissa = powerOfTwo 52 ∧ exponent ≠ -1074 then 1 else 2
  { unit := powerOfTwo (-quarters).toNat * powerOfTen power.toNat
    value := 4 * mantissa * scale
    low := (4 * mantissa - below) * scale
    high := (4 * mantissa + 2) * scale
    closed := mantissa % 2 == 0 }

/-- Whether the grid point `c` reads back as the value. -/
def Grid.readsBack (g : Grid) (c : Nat) : Bool :=
  if g.closed then g.low ≤ c * g.unit && c * g.unit ≤ g.high
  else g.low < c * g.unit && c * g.unit < g.high

/-- The grid point that reads back; of two the nearer, and of two equally near the even one. -/
def Grid.best? (g : Grid) : Option Nat :=
  let below := g.value / g.unit
  let above := below + 1
  match g.readsBack below, g.readsBack above with
  | false, false => none
  | true, false => some below
  | false, true => some above
  | true, true =>
    -- compares the value with the middle of the two points
    match compare (2 * g.value) ((below + above) * g.unit) with
    | .lt => some below
    | .gt => some above
    | .eq => some (if below % 2 = 0 then below else above)

/-- How many zeros the decimal digits of a natural number end in. -/
def trailingZeros (n : Nat) : Nat :=
  ((Nat.toDigits 10 n).reverse.takeWhile (· == '0')).length

/-- Moves trailing zeros of the digits into the exponent. -/
def Scaled.normalize (d : Scaled) : Scaled :=
  { digits := d.digits / powerOfTen (trailingZeros d.digits)
    exponent := d.exponent + trailingZeros d.digits }

/-- The exact decimal of `mantissa * 2 ^ exponent`; every binary fraction has one. -/
def exactDecimal (mantissa : Nat) (exponent : Int) : Scaled :=
  if 0 ≤ exponent then { digits := mantissa * powerOfTwo exponent.toNat, exponent := 0 }
  else { digits := mantissa * Nat.pow 5 (-exponent).toNat, exponent := exponent }

/-- The decimal with the fewest digits that reads back as `mantissa * 2 ^ exponent`, for a
mantissa that is not zero. Seventeen digits are enough for every double; the exact decimal
stands in for the case that does not arise. -/
def shortest (mantissa : Nat) (exponent : Int) : Scaled :=
  let leading :=
    leadingExponent (mantissa * powerOfTwo exponent.toNat) (powerOfTwo (-exponent).toNat)
  let found := (List.range 17).findSome? fun (extra : Nat) =>
    let power := leading - extra
    (Grid.of mantissa exponent power).best?.map fun digits =>
      ({ digits := digits, exponent := power } : Scaled)
  (found.getD (exactDecimal mantissa exponent)).normalize

/-- The chosen grid point reads back. -/
theorem Grid.readsBack_of_best? {g : Grid} {c : Nat} (h : g.best? = some c) :
    g.readsBack c = true := by
  unfold Grid.best? at h
  simp only at h
  split at h
  next => exact absurd h (by simp)
  next below _ => exact Option.some.inj h ▸ below
  next _ above => exact Option.some.inj h ▸ above
  next below above =>
    split at h
    · exact Option.some.inj h ▸ below
    · exact Option.some.inj h ▸ above
    · split at h
      · exact Option.some.inj h ▸ below
      · exact Option.some.inj h ▸ above

end DesignTokens.Decimal
