/-!
# Binary numbers

A finite double is a significand times a power of two.  The reals that round to
it reach halfway to its two neighbours; the ends belong to them if the
significand is even.  All comparisons are exact, in natural numbers.
-/

namespace Scenery

/-- A number `digits * 10 ^ exponent`. -/
structure Decimal where
  digits : Nat
  exponent : Int
  deriving DecidableEq, Repr

namespace Decimal

/-- A positive number `significand * 2 ^ exponent`. -/
structure Binary where
  significand : Nat
  exponent : Int
  /-- The neighbour below is half as far away as the neighbour above. -/
  narrowBelow : Bool
  deriving DecidableEq, Repr

namespace Binary

/-- The magnitude of a finite double. -/
def ofFloat (x : Float) : Binary :=
  let bits : Nat := x.toBits.toNat
  let biased : Nat := bits / Nat.pow 2 52 % Nat.pow 2 11
  let fraction : Nat := bits % Nat.pow 2 52
  if biased = 0 then
    ⟨fraction, -1074, false⟩
  else
    ⟨Nat.pow 2 52 + fraction, biased - 1075, fraction = 0 ∧ 1 < biased⟩

/--
Numerator and denominator of the quotient of `quarters * 2 ^ (exponent - 2)` and
`10 ^ grid`.  Quarters of the last place are fine enough for the ends of the
interval.
-/
def onGrid (x : Binary) (quarters : Nat) (grid : Int) : Nat × Nat :=
  let power := x.exponent - 2
  (quarters * Nat.pow 2 power.toNat * Nat.pow 10 (-grid).toNat,
    Nat.pow 10 grid.toNat * Nat.pow 2 (-power).toNat)

def quarters (x : Binary) : Nat :=
  4 * x.significand

/-- The lower end of the reals that round to the number, in quarters. -/
def lowQuarters (x : Binary) : Nat :=
  if x.narrowBelow then x.quarters - 1 else x.quarters - 2

def highQuarters (x : Binary) : Nat :=
  x.quarters + 2

/-- Whether `units * 10 ^ grid` lies among the reals that round to the number. -/
def holds (x : Binary) (units : Nat) (grid : Int) : Bool :=
  let (low, denominator) := x.onGrid x.lowQuarters grid
  let (high, _) := x.onGrid x.highQuarters grid
  if x.significand % 2 = 0 then
    low ≤ units * denominator && units * denominator ≤ high
  else
    low < units * denominator && units * denominator < high

/-- Whether the number is below `10 ^ power`. -/
def below (x : Binary) (power : Int) : Bool :=
  let (value, one) := x.onGrid x.quarters power
  value < one

/--
The exponent of the leading decimal digit.  The length of the significand gives
it up to one place; comparison with the powers of ten decides.
-/
def leadingExponent (x : Binary) : Int :=
  let guess := (x.significand.log2 + x.exponent) * 30103 / 100000
  ([guess - 1, guess, guess + 1].find? (fun lead => x.below (lead + 1))).getD (guess + 2)

end Binary

end Decimal

end Scenery
