import Scenery.Decimal.Reading
import Scenery.Json.Fault

/-!
# Numerals

What the digits of a JSON number denote.  Whole numbers that fit 64 bits stay
whole.  Every other number is a significand of at most 64 bits and a power of
ten, which are turned into doubles one by one and then put together: digits
beyond the significand count for its magnitude only.  Main statement: a
significand never leaves its 64 bits.
-/

namespace Scenery.Json

/-- A number as it is written: whole numbers that fit 64 bits stay whole. -/
inductive Numeral where
  | integer (n : Int)
  | float (x : Float)
  deriving Inhabited

/-- A significand and the power of ten that it is taken times. -/
structure Scaled where
  significand : Nat
  exponent : Int
  deriving DecidableEq, Repr, Inhabited

namespace Scaled

/-- Put digits behind a significand while it fits 64 bits; the other digits are left. -/
def absorb (significand : Nat) : List Char → Nat × List Char
  | [] => (significand, [])
  | c :: rest =>
    let next := 10 * significand + Decimal.natOfDigits [c]
    if next < UInt64.size then absorb next rest else (significand, c :: rest)

theorem absorb_lt {significand : Nat} (h : significand < UInt64.size) (digits : List Char) :
    (absorb significand digits).1 < UInt64.size := by
  fun_induction absorb significand digits with
  | case1 => exact h
  | case2 _ _ _ _ hnext ih => exact ih hnext
  | case3 => exact h

/--
The number with these digits before and behind the point.  A digit before it that
does not fit raises the exponent, one behind it is left out.
-/
def ofDigits (whole places : List Char) (exponent : Int) : Scaled :=
  let (above, beyond) := absorb 0 whole
  let (significand, dropped) := absorb above places
  ⟨significand, exponent + beyond.length - (places.length - dropped.length : Nat)⟩

theorem significand_ofDigits_lt (whole places : List Char) (exponent : Int) :
    (ofDigits whole places exponent).significand < UInt64.size :=
  absorb_lt (absorb_lt (by decide) whole) places

def powerOfTen (exponent : Nat) : Float :=
  Float.ofScientific 1 false exponent

/--
The number as a double.  The largest power of ten is that with exponent 308;
smaller numbers are divided twice, after which nothing is left of those that are
too small for that.
-/
def toFloat (number : Scaled) : Float :=
  let significand := Float.ofNat number.significand
  if number.significand = 0 then 0
  else if 308 < number.exponent then 1 / 0
  else if 0 ≤ number.exponent then significand * powerOfTen number.exponent.toNat
  else if -308 ≤ number.exponent then significand / powerOfTen (-number.exponent).toNat
  else if -616 ≤ number.exponent then
    significand / powerOfTen 308 / powerOfTen (-number.exponent - 308).toNat
  else 0

end Scaled

namespace Numeral

/-- The double that a numeral denotes. -/
def toFloat : Numeral → Float
  | integer n => Decimal.toFloat (n < 0) n.natAbs 0
  | float x => x

/-- A double with a sign, if it is not too large. -/
def finite (negative : Bool) (magnitude : Float) : Except Fault Numeral :=
  if magnitude.isInf then .error .numberOutOfRange
  else .ok (.float (if negative then -magnitude else magnitude))

/--
The number that is written with these parts.  Whole numbers that fit 64 bits
stay whole, but for the negative zero.
-/
def ofParts (negative : Bool) (whole : List Char) (fraction : Option (List Char))
    (exponent : Option Int) : Except Fault Numeral :=
  let magnitude := (Scaled.ofDigits whole (fraction.getD []) (exponent.getD 0)).toFloat
  match fraction, exponent, Scaled.absorb 0 whole with
  | none, none, (n, []) =>
    if negative then
      if 0 < n ∧ n ≤ UInt64.size / 2 then .ok (.integer (-n)) else finite true magnitude
    else .ok (.integer n)
  | _, _, _ => finite negative magnitude

end Numeral

end Scenery.Json
