/-!
# Reading decimals

A decimal denotes the double nearest to it, the one with the even significand if
two are equally near.  Decimals beyond all doubles read as infinity, and those
too small for any read as zero.
-/

namespace Scenery.Decimal

def isDigit (c : Char) : Bool :=
  '0' ≤ c && c ≤ '9'

def natOfDigits (digits : List Char) : Nat :=
  digits.foldl (fun value c => 10 * value + (c.toNat - '0'.toNat)) 0

/--
The double nearest to `digits * 10 ^ exponent`.  Where the leading digit stands
far outside the range of doubles, the answer is known without rounding.
-/
def toFloat (negative : Bool) (digits : Nat) (exponent : Int) : Float :=
  let lead := (Nat.toDigits 10 digits).length + exponent
  let magnitude : Float :=
    if digits = 0 ∨ lead < -330 then 0
    else if 310 < lead then 1 / 0
    else Float.ofScientific digits (exponent < 0) exponent.natAbs
  if negative then -magnitude else magnitude

/-- An optional sign: whether it is a minus, and what stands behind it. -/
def splitSign : List Char → Bool × List Char
  | '-' :: rest => (true, rest)
  | '+' :: rest => (false, rest)
  | cs => (false, cs)

/-- An exponent that ends the text, where an empty text is the exponent zero. -/
def readExponent? : List Char → Option Int
  | [] => some 0
  | c :: rest =>
    let (negative, digits) := splitSign rest
    if (c = 'e' ∨ c = 'E') ∧ digits ≠ [] ∧ digits.all isDigit then
      let value : Int := natOfDigits digits
      some (if negative then -value else value)
    else
      none

/-- The digits behind a point, and what stands behind them. -/
def splitFraction : List Char → List Char × List Char
  | '.' :: rest => (rest.takeWhile isDigit, rest.dropWhile isDigit)
  | cs => ([], cs)

/-- A number of whole part, fraction and exponent, the first two not both empty. -/
def readFinite? (negative : Bool) (cs : List Char) : Option Float :=
  let whole := cs.takeWhile isDigit
  let (fraction, behind) := splitFraction (cs.dropWhile isDigit)
  if whole ++ fraction = [] then none
  else (readExponent? behind).map fun exponent =>
    toFloat negative (natOfDigits (whole ++ fraction)) (exponent - fraction.length)

/-- The double that a text denotes: a decimal, an infinity or `NaN`, each with an optional sign. -/
def read? (text : String) : Option Float :=
  let (negative, body) := splitSign text.toList
  let word := String.ofList (body.map Char.toLower)
  if word = "nan" then some (0 / 0)
  else if word = "inf" ∨ word = "infinity" then some (if negative then -(1 / 0) else 1 / 0)
  else readFinite? negative body

end Scenery.Decimal
