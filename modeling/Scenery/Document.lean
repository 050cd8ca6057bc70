import Scenery.Json.Reading
import Scenery.Node
import Scenery.Text.Quoted

/-!
# Scene documents

A scene document is an object with an `id`, a `type`, perhaps `children`, and
attributes under all other names.  `ofReading` takes a JSON text as far as it was
read and follows it from the front, so the first thing that is wrong is reported,
be it the text or the shape of the document.
-/

namespace Scenery

open Json (Fault Reading)

/-- A node of a scene document with all nodes below it. -/
inductive Document where
  | mk (id type : String) (attributes : Keyed Json) (children : Option (List Document))

namespace Document

instance : Inhabited Document := ⟨.mk "" "" .empty none⟩

/-- The members of an object that are no attributes. -/
inductive Field where
  | id
  | type
  | children
  deriving DecidableEq, Repr, Inhabited

def Field.name : Field → String
  | id => "id"
  | type => "type"
  | children => "children"

/-- What kind of value is asked for. -/
inductive Expected where
  | node
  | text
  | sequence
  deriving DecidableEq, Repr, Inhabited

def Expected.wording : Expected → String
  | node => "struct RawNode"
  | text => "a string"
  | sequence => "a sequence"

/-- What kind of value was found. -/
inductive Found where
  | null
  | bool (flag : Bool)
  | number (n : Json.Numeral)
  | string (content : String)
  | array
  | object
  deriving Inhabited

def Found.wording : Found → String
  | null => "null"
  | bool flag => "boolean `" ++ (if flag then "true" else "false") ++ "`"
  | number (.integer n) => "integer `" ++ toString n ++ "`"
  | number (.float x) => "floating point `" ++ Json.numberLayout.render x ++ "`"
  | string content => "string " ++ Text.quoted content
  | array => "sequence"
  | object => "map"

/-- Why a text is no scene document. -/
inductive Error where
  | malformed (fault : Fault)
  | missing (field : Field)
  | duplicate (field : Field)
  | invalidType (found : Found) (expected : Expected)
  deriving Inhabited

/-- What kind of mistake an error is. -/
inductive Category where
  /-- The text ends too early. -/
  | eof
  | syntactic
  /-- The text is JSON, but no scene document. -/
  | data
  deriving DecidableEq, Repr, Inhabited

namespace Error

def message : Error → String
  | malformed fault => fault.message
  | missing field => "missing field `" ++ field.name ++ "`"
  | duplicate field => "duplicate field `" ++ field.name ++ "`"
  | invalidType found expected =>
    "invalid type: " ++ found.wording ++ ", expected " ++ expected.wording

def category : Error → Category
  | malformed (.endOfText _) => .eof
  | malformed _ => .syntactic
  | missing _ => .data
  | duplicate _ => .data
  | invalidType _ _ => .data

end Error

/-- A value of the wrong type, or the fault in its place. -/
def refuse (expected : Expected) : Reading → Error
  | .null => .invalidType .null expected
  | .bool flag => .invalidType (.bool flag) expected
  | .number n => .invalidType (.number n) expected
  | .string content => .invalidType (.string content) expected
  | .array _ _ => .invalidType .array expected
  | .object _ _ => .invalidType .object expected
  | .broken fault => .malformed fault

def readText : Reading → Except Error String
  | .string content => .ok content
  | reading => .error (refuse .text reading)

/-- An attribute of any type. -/
def readAttribute (reading : Reading) : Except Error Json :=
  reading.toJson.mapError .malformed

/-- Nothing more, unless reading stopped here. -/
def readEnd : Option Fault → Except Error Unit
  | none => .ok ()
  | some fault => .error (.malformed fault)

/-- The members of an object that were read so far. -/
structure Members where
  id : Option String := none
  type : Option String := none
  children : Option (Option (List Document)) := none
  attributes : Keyed Json := .empty
  deriving Inhabited

/-- The document that the members make; of two missing fields `id` is reported. -/
def Members.finish (members : Members) : Except Error Document :=
  match members.id, members.type with
  | none, _ => .error (.missing .id)
  | some _, none => .error (.missing .type)
  | some id, some type => .ok (.mk id type members.attributes (members.children.getD none))

mutual

def ofReading : Reading → Except Error Document
  | .object members stop => do
    let read ← addMembers {} members
    readEnd stop
    read.finish
  | reading => .error (refuse .node reading)

/-- The children that an array holds, if there is one and not `null`. -/
def readChildren : Reading → Except Error (Option (List Document))
  | .null => .ok none
  | .array items stop => do
    let children ← readItems items
    readEnd stop
    .ok (some children)
  | reading => .error (refuse .sequence reading)

/-- The documents that the items of an array hold. -/
def readItems : List Reading → Except Error (List Document)
  | [] => .ok []
  | item :: rest => do
    let document ← ofReading item
    let documents ← readItems rest
    .ok (document :: documents)

/--
Take in the members of an object.  A field that is there already is refused
before its value is read.
-/
def addMembers (read : Members) : List (String × Reading) → Except Error Members
  | [] => .ok read
  | (name, value) :: rest =>
    if name = "id" then
      if read.id.isSome then .error (.duplicate .id)
      else do
        let id ← readText value
        addMembers { read with id := some id } rest
    else if name = "type" then
      if read.type.isSome then .error (.duplicate .type)
      else do
        let type ← readText value
        addMembers { read with type := some type } rest
    else if name = "children" then
      if read.children.isSome then .error (.duplicate .children)
      else do
        let children ← readChildren value
        addMembers { read with children := some children } rest
    else do
      let json ← readAttribute value
      addMembers { read with attributes := read.attributes.insert name json } rest

end

def parse (text : String) : Except Error Document := do
  let (root, behind) := Reading.ofText text
  let document ← ofReading root
  readEnd behind
  .ok document

def attributes : Document → Keyed Json
  | mk _ _ attributes _ => attributes

/-- The nodes right below the topmost one, if it can have any. -/
def children : Document → Option (List Document)
  | mk _ _ _ children => children

/-- The data of the topmost node: of its attributes the scalars are kept. -/
def node : Document → Node
  | mk id type attributes _ =>
    { Node.ofType id type with attributes := attributes.filterMap Json.scalar? }

/-- The names of the attributes that are no scalars, in ascending order. -/
def skipped (document : Document) : List String :=
  (document.attributes.entries.filter fun entry => entry.2.scalar?.isNone).map (·.1)

mutual

def count : Document → Nat
  | mk _ _ _ none => 1
  | mk _ _ _ (some children) => 1 + countAll children

def countAll : List Document → Nat
  | [] => 0
  | document :: rest => document.count + countAll rest

end

end Document

end Scenery
