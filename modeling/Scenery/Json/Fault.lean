/-!
# Faults of JSON text

What can be wrong with a JSON text, as far as it concerns its grammar alone.
-/

namespace Scenery.Json

/-- What was being read when the text ended. -/
inductive Construct where
  | value
  | string
  | list
  | object
  deriving DecidableEq, Repr, Inhabited

/-- A construct with its article, as it stands in a message. -/
def Construct.phrase : Construct → String
  | value => "a value"
  | string => "a string"
  | list => "a list"
  | object => "an object"

/-- Why a text is no JSON. -/
inductive Fault where
  | endOfText (inside : Construct)
  | expectedValue
  /-- A word that starts like `null`, `true` or `false` is none of them. -/
  | expectedIdent
  | expectedColon
  /-- An item is followed neither by a comma nor by the end of the array. -/
  | expectedItemEnd
  /-- A member is followed neither by a comma nor by the end of the object. -/
  | expectedMemberEnd
  /-- A member starts with something that is no string. -/
  | nameNotString
  /-- A comma stands before a closing bracket. -/
  | trailingComma
  | trailingCharacters
  /-- A number is not written as numbers are. -/
  | invalidNumber
  | numberOutOfRange
  /-- A backslash is followed by something that makes no escape. -/
  | invalidEscape
  /-- One half of a surrogate pair lacks the other. -/
  | loneSurrogate
  /-- The first half of a surrogate pair is not followed by an escape. -/
  | endOfHexEscape
  | controlCharacter
  /-- Arrays and objects are nested too deeply. -/
  | recursionLimit
  deriving DecidableEq, Repr, Inhabited

namespace Fault

def message : Fault → String
  | endOfText inside => "EOF while parsing " ++ inside.phrase
  | expectedValue => "expected value"
  | expectedIdent => "expected ident"
  | expectedColon => "expected `:`"
  | expectedItemEnd => "expected `,` or `]`"
  | expectedMemberEnd => "expected `,` or `\x7d`"
  | nameNotString => "key must be a string"
  | trailingComma => "trailing comma"
  | trailingCharacters => "trailing characters"
  | invalidNumber => "invalid number"
  | numberOutOfRange => "number out of range"
  | invalidEscape => "invalid escape"
  | loneSurrogate => "lone leading surrogate in hex escape"
  | endOfHexEscape => "unexpected end of hex escape"
  | controlCharacter => "control character (\\u0000-\\u001F) found while parsing a string"
  | recursionLimit => "recursion limit exceeded"

end Fault

end Scenery.Json
