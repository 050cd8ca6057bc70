import Scenery.Json.Basic
import Scenery.Json.Lexeme

/-!
# Reading JSON

A text is read from left to right into a tree that goes as far as the text does.
Where reading stops, the tree holds the fault: in the place of a value, or at
the end of the array or object that could not be read to its end.  So whoever
walks the tree in the order of the text meets every fault where the text has it,
behind all that was read before.
-/

namespace Scenery.Json

/-- A JSON text as far as it was read. -/
inductive Reading where
  | null
  | bool (flag : Bool)
  | number (n : Numeral)
  | string (content : String)
  /-- An array, and the fault at which it was left if it does not end. -/
  | array (items : List Reading) (stop : Option Fault)
  /-- An object, and the fault at which it was left if it does not end. -/
  | object (members : List (String × Reading)) (stop : Option Fault)
  /-- A fault in the place of a value. -/
  | broken (fault : Fault)
  deriving Inhabited

/-- Arrays and objects may be nested less deeply than this. -/
def nestingLimit : Nat := 128

namespace Reading

/-- An array or object that waits for a value; what it holds so far has its last part first. -/
inductive Frame where
  | array (items : List Reading)
  | object (members : List (String × Reading)) (name : String)
  deriving Inhabited

/-- What is to come next; `outer` holds the arrays and objects around it, the innermost first. -/
inductive State where
  /-- A value that is no item of an array. -/
  | value (outer : List Frame)
  /-- An item, or the end of an array that has no item yet. -/
  | item (first : Bool) (items : List Reading) (outer : List Frame)
  | afterItem (items : List Reading) (outer : List Frame)
  /-- The name of a member, or the end of an object that has no member yet. -/
  | name (first : Bool) (members : List (String × Reading)) (outer : List Frame)
  | colon (members : List (String × Reading)) (name : String) (outer : List Frame)
  | afterMember (members : List (String × Reading)) (outer : List Frame)
  | done (root : Reading)
  deriving Inhabited

/-- The tree that a part and the arrays and objects around it make. -/
def plug : List Frame → Reading → Reading
  | [], part => part
  | .array items :: outer, part => plug outer (.array (part :: items).reverse none)
  | .object members name :: outer, part =>
    plug outer (.object ((name, part) :: members).reverse none)

/-- The whole tree at the end of reading, and the fault behind it if the text goes on. -/
abbrev Outcome := Reading × Option Fault

/-- Reading goes on or ends. -/
abbrev Step := Except Outcome State

/-- Go on behind a value. -/
def deliver (part : Reading) : List Frame → Step
  | [] => .ok (.done part)
  | .array items :: outer => .ok (.afterItem (part :: items) outer)
  | .object members name :: outer => .ok (.afterMember ((name, part) :: members) outer)

/-- End with a part that could not be read to its end. -/
def leave (part : Reading) (outer : List Frame) : Step :=
  .error (plug outer part, none)

/-- End at a fault inside an array. -/
def leaveArray (items : List Reading) (fault : Fault) (outer : List Frame) : Step :=
  leave (.array items.reverse (some fault)) outer

/-- End at a fault inside an object. -/
def leaveObject (members : List (String × Reading)) (fault : Fault) (outer : List Frame) : Step :=
  leave (.object members.reverse (some fault)) outer

/-- Take in the lexeme with which a value starts. -/
def startValue (outer : List Frame) : Lexeme → Step
  | .null => deliver .null outer
  | .bool flag => deliver (.bool flag) outer
  | .number n => deliver (.number n) outer
  | .string content => deliver (.string content) outer
  | .openArray =>
    if outer.length + 1 < nestingLimit then .ok (.item true [] outer)
    else leaveArray [] .recursionLimit outer
  | .openObject =>
    if outer.length + 1 < nestingLimit then .ok (.name true [] outer)
    else leaveObject [] .recursionLimit outer
  | .badString fault => leave (.broken fault) outer
  | .bad fault => leave (.broken fault) outer
  | _ => leave (.broken .expectedValue) outer

def step : State → Lexeme → Step
  | .value outer, lexeme => startValue outer lexeme
  | .item first items outer, .closeArray =>
    if first then deliver (.array [] none) outer
    else leaveArray items .trailingComma outer
  | .item _ items outer, lexeme => startValue (.array items :: outer) lexeme
  | .afterItem items outer, .closeArray => deliver (.array items.reverse none) outer
  | .afterItem items outer, .comma => .ok (.item false items outer)
  | .afterItem items outer, _ => leaveArray items .expectedItemEnd outer
  | .name _ members outer, .string name => .ok (.colon members name outer)
  | .name first members outer, .closeObject =>
    if first then deliver (.object [] none) outer
    else leaveObject members .trailingComma outer
  | .name _ members outer, .badString fault => leaveObject members fault outer
  | .name _ members outer, _ => leaveObject members .nameNotString outer
  | .colon members name outer, .colon => .ok (.value (.object members name :: outer))
  | .colon members name outer, _ => leave (.broken .expectedColon) (.object members name :: outer)
  | .afterMember members outer, .closeObject => deliver (.object members.reverse none) outer
  | .afterMember members outer, .comma => .ok (.name false members outer)
  | .afterMember members outer, _ => leaveObject members .expectedMemberEnd outer
  | .done root, _ => .error (root, some .trailingCharacters)

/-- What the end of the text makes of a state. -/
def atEnd : State → Outcome
  | .value outer => (plug outer (.broken (.endOfText .value)), none)
  | .item true items outer =>
    (plug outer (.array items.reverse (some (.endOfText .list))), none)
  | .item false items outer =>
    (plug outer (.array items.reverse (some (.endOfText .value))), none)
  | .afterItem items outer =>
    (plug outer (.array items.reverse (some (.endOfText .list))), none)
  | .name true members outer =>
    (plug outer (.object members.reverse (some (.endOfText .object))), none)
  | .name false members outer =>
    (plug outer (.object members.reverse (some (.endOfText .value))), none)
  | .colon members name outer =>
    (plug (.object members name :: outer) (.broken (.endOfText .object)), none)
  | .afterMember members outer =>
    (plug outer (.object members.reverse (some (.endOfText .object))), none)
  | .done root => (root, none)

/-- Take in lexemes until reading ends or the text does. -/
def run (state : State) : List Lexeme → Outcome
  | [] => atEnd state
  | lexeme :: rest =>
    match step state lexeme with
    | .ok next => run next rest
    | .error outcome => outcome

def ofText (text : String) : Outcome :=
  run (.value []) (Lexeme.scan text.toList)

mutual

/-- The value that was read, or the first fault in it. -/
def toJson : Reading → Except Fault Json
  | null => .ok .null
  | bool flag => .ok (.bool flag)
  | number n => .ok (.number n.toFloat)
  | string content => .ok (.string content)
  | array items stop => do
    let values ← itemsToJson items
    match stop with
    | none => .ok (.array values)
    | some fault => .error fault
  | object members stop => do
    let values ← membersToJson members
    match stop with
    | none => .ok (.object values)
    | some fault => .error fault
  | broken fault => .error fault

/-- The items that were read, or the first fault in them. -/
def itemsToJson : List Reading → Except Fault (List Json)
  | [] => .ok []
  | item :: rest => do
    let value ← toJson item
    let values ← itemsToJson rest
    .ok (value :: values)

/-- The members that were read, or the first fault in them. -/
def membersToJson : List (String × Reading) → Except Fault (List (String × Json))
  | [] => .ok []
  | (name, member) :: rest => do
    let value ← toJson member
    let values ← membersToJson rest
    .ok ((name, value) :: values)

end

end Reading

end Scenery.Json
