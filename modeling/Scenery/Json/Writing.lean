import Scenery.Json.Basic

/-!
# Writing JSON

Strings are written between double quotes, with a short escape where there is
one and the character's number for the other control characters.  `pretty`
writes each item and each member on a line of its own, indented by two spaces
for every level; empty arrays and objects stay on one line.
-/

namespace Scenery.Json

/-- A control character by its number, in four hexadecimal digits. -/
def controlEscape (c : Char) : List Char :=
  let digits := Nat.toDigits 16 c.toNat
  '\\' :: 'u' :: List.replicate (4 - digits.length) '0' ++ digits

/-- How one character is written in a JSON string. -/
def escapeChar (c : Char) : List Char :=
  if c = '"' then ['\\', '"']
  else if c = '\\' then ['\\', '\\']
  else if c = '\x08' then ['\\', 'b']
  else if c = '\x0c' then ['\\', 'f']
  else if c = '\n' then ['\\', 'n']
  else if c = '\r' then ['\\', 'r']
  else if c = '\t' then ['\\', 't']
  else if c < ' ' then controlEscape c
  else [c]

def writeString (content : String) : String :=
  String.ofList ('"' :: content.toList.flatMap escapeChar ++ ['"'])

/-- A line break with the indentation of a level. -/
def newline (level : Nat) : String :=
  "\n".pushn ' ' (2 * level)

/-- Written items between brackets, one a line; without items the brackets alone. -/
def enclose (opening closing : String) (level : Nat) (items : List String) : String :=
  if items.isEmpty then
    opening ++ closing
  else
    opening ++ newline (level + 1) ++
      ("," ++ newline (level + 1)).intercalate items ++ newline level ++ closing

mutual

/-- A value whose first line starts at a level of indentation. -/
def prettyAt (level : Nat) : Json → String
  | null => "null"
  | bool flag => if flag then "true" else "false"
  | number x => numberLayout.render x
  | string content => writeString content
  | array items => enclose "[" "]" level (prettyItems (level + 1) items)
  | object members => enclose "\x7b" "\x7d" level (prettyMembers (level + 1) members)

def prettyItems (level : Nat) : List Json → List String
  | [] => []
  | item :: rest => prettyAt level item :: prettyItems level rest

def prettyMembers (level : Nat) : List (String × Json) → List String
  | [] => []
  | (name, value) :: rest =>
    (writeString name ++ ": " ++ prettyAt level value) :: prettyMembers level rest

end

/-- A value over several lines. -/
def pretty (json : Json) : String :=
  prettyAt 0 json

end Scenery.Json

namespace Scenery.Value

/-- A scalar written as JSON. -/
def writeJson (value : Value) : String :=
  value.toJson.pretty

end Scenery.Value
