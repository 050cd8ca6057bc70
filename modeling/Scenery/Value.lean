import Scenery.Decimal.Layout

/-!
# Attribute values

The scalar values that attributes hold.  `text` shows a value in full; `text?`
gives the text of a value that is one.
-/

namespace Scenery

inductive Value where
  | bool (flag : Bool)
  | number (x : Float)
  | text (content : String)
  | null
  deriving Inhabited

namespace Value

/--
Numbers are shown without exponent and without a point where they are whole; of
two equally near decimals the upper is shown.
-/
def numberLayout : Decimal.Layout where
  tie := .up
  isPositional _ := true
  pointZero := false
  nan := "NaN"
  infinity := "inf"
  negativeInfinity := "-inf"

/-- The value as it is shown. -/
def display : Value → String
  | bool flag => if flag then "true" else "false"
  | number x => numberLayout.render x
  | text content => content
  | null => "null"

def text? : Value → Option String
  | text content => some content
  | _ => none

/-- Whether the value is this very text; no other value equals a text, however it is shown. -/
def isText (value : Value) (content : String) : Bool :=
  value.text? == some content

/-- Whether two values are equal; numbers are compared as numbers, so none equals `NaN`. -/
def same : Value → Value → Bool
  | bool a, bool b => a == b
  | number x, number y => x == y
  | text a, text b => a == b
  | null, null => true
  | _, _ => false

theorem isText_eq_true_iff (value : Value) (content : String) :
    value.isText content = true ↔ value = text content := by
  cases value <;> simp [isText, text?]

end Value

end Scenery
