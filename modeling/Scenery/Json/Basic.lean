import Scenery.Decimal.Layout
import Scenery.Value

/-!
# JSON values

Objects keep their members in the order in which they were written.
-/

namespace Scenery

inductive Json where
  | null
  | bool (flag : Bool)
  | number (x : Float)
  | string (content : String)
  | array (items : List Json)
  | object (members : List (String × Json))
  deriving Inhabited

namespace Json

/--
Numbers are written without exponent from a hundred-thousandth up to ten to the
sixteenth, whole ones with `.0`; what is no number becomes `null`.  Of two
equally near decimals the one with the even last digit is written.
-/
def numberLayout : Decimal.Layout where
  tie := .toEven
  isPositional lead := -5 ≤ lead && lead < 16
  pointZero := true
  nan := "null"
  infinity := "null"
  negativeInfinity := "null"

/-- The scalar that a value is; arrays and objects are none. -/
def scalar? : Json → Option Value
  | null => some .null
  | bool flag => some (.bool flag)
  | number x => some (.number x)
  | string content => some (.text content)
  | array _ => none
  | object _ => none

end Json

namespace Value

def toJson : Value → Json
  | bool flag => .bool flag
  | number x => .number x
  | text content => .string content
  | null => .null

@[simp] theorem scalar?_toJson (value : Value) : value.toJson.scalar? = some value := by
  cases value <;> rfl

end Value

theorem Json.eq_toJson_of_scalar? {json : Json} {value : Value} (h : json.scalar? = some value) :
    json = value.toJson := by
  cases json <;> cases h <;> rfl

end Scenery
