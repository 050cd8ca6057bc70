import Scenery.Decimal.Binary

/-!
# Shortest decimals

Of all decimals that read back to a number, those with the fewest digits, and of
those the nearest to the number.  Grids of ever more digits are tried; on each
grid only the two neighbours of the number can be the answer.
-/

namespace Scenery.Decimal

/-- Which of two equally near decimals is taken. -/
inductive Tie where
  | toEven
  | up
  deriving DecidableEq, Repr

/-- The same number without zeros at the end of its digits. -/
def strip (digits : Nat) (exponent : Int) : Decimal :=
  if digits ≠ 0 ∧ digits % 10 = 0 then strip (digits / 10) (exponent + 1)
  else ⟨digits, exponent⟩
  termination_by digits
  decreasing_by omega

namespace Binary

/-- Whether the upper of the two neighbours on a grid is nearer, or is taken at a tie. -/
def roundsUp (x : Binary) (tie : Tie) (grid : Int) : Bool :=
  let (value, unit) := x.onGrid x.quarters grid
  let rest := 2 * (value % unit)
  if rest = unit then
    match tie with
    | .up => true
    | .toEven => value / unit % 2 = 1
  else
    unit < rest

/-- The nearest decimal of a grid that reads back to the number, if one does. -/
def nearestOnGrid? (x : Binary) (tie : Tie) (grid : Int) : Option Decimal :=
  let (value, unit) := x.onGrid x.quarters grid
  let units := value / unit
  match x.holds units grid, x.holds (units + 1) grid with
  | true, true => some ⟨if x.roundsUp tie grid then units + 1 else units, grid⟩
  | true, false => some ⟨units, grid⟩
  | false, true => some ⟨units + 1, grid⟩
  | false, false => none

/-- The number itself, on a grid that is fine enough to hold it. -/
def exact (x : Binary) : Decimal :=
  let grid := min 0 (x.exponent - 2)
  let (value, unit) := x.onGrid x.quarters grid
  ⟨value / unit, grid⟩

/--
The shortest decimal that reads back to the number.  Seventeen digits always
suffice; the exact value stands for the search that finds none.
-/
def shortest (x : Binary) (tie : Tie) : Decimal :=
  let lead := x.leadingExponent
  let found := (List.range 17).findSome? fun (more : Nat) => x.nearestOnGrid? tie (lead - more)
  let decimal := found.getD x.exact
  strip decimal.digits decimal.exponent

end Binary

end Scenery.Decimal
