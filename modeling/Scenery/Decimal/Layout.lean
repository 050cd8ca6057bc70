import Scenery.Decimal.Shortest

/-!
# Layouts of numbers

How the shortest decimal of a double is written: where the point stands, when an
exponent is used, and what stands for the values that are no numbers.  Each
format of numbers is one value of `Layout`, kept where its output is written.
-/

namespace Scenery.Decimal

/-- The decisions of a number format. -/
structure Layout where
  /-- Which of two equally near shortest decimals is written. -/
  tie : Tie
  /-- Whether a number with this exponent of its leading digit is written without exponent. -/
  isPositional : Int → Bool
  /-- Whether whole numbers in positional form end in `.0`. -/
  pointZero : Bool
  nan : String
  infinity : String
  negativeInfinity : String

namespace Layout

/-- Digits with the point where the exponent puts it. -/
def positional (layout : Layout) (digits : List Char) (exponent : Int) : List Char :=
  let point := digits.length + exponent
  if 0 ≤ exponent then
    digits ++ List.replicate exponent.toNat '0' ++ (if layout.pointZero then ['.', '0'] else [])
  else if 0 < point then
    digits.take point.toNat ++ '.' :: digits.drop point.toNat
  else
    '0' :: '.' :: List.replicate (-point).toNat '0' ++ digits

/-- The leading digit, the other digits behind a point, and the signed exponent. -/
def scientific (digits : List Char) (lead : Int) : List Char :=
  let exponent := (if lead < 0 then '-' else '+') :: Nat.toDigits 10 lead.natAbs
  match digits with
  | [] => 'e' :: exponent
  | [digit] => digit :: 'e' :: exponent
  | digit :: others => digit :: '.' :: others ++ 'e' :: exponent

/-- A decimal that is not zero, without its sign. -/
def decimal (layout : Layout) (value : Decimal) : List Char :=
  let digits := Nat.toDigits 10 value.digits
  let lead := digits.length - 1 + value.exponent
  if layout.isPositional lead then layout.positional digits value.exponent
  else scientific digits lead

def magnitude (layout : Layout) (x : Float) : List Char :=
  let binary := Binary.ofFloat x
  if binary.significand = 0 then layout.positional ['0'] 0
  else layout.decimal (binary.shortest layout.tie)

def render (layout : Layout) (x : Float) : String :=
  if x.isNaN then layout.nan
  else if x.isInf then (if x < 0 then layout.negativeInfinity else layout.infinity)
  else
    let sign := if x.toBits.toNat.testBit 63 then ['-'] else []
    String.ofList (sign ++ layout.magnitude x)

end Layout

end Scenery.Decimal
