import Scenery.Keyed
import Scenery.Text.UpperCase
import Scenery.Value

/-!
# Nodes

What a node of a scene carries: an identifier, a tag in upper case, and named
attributes.  Under the names `id` and `type` the identifier and the tag are
found, whatever the attributes hold there.
-/

namespace Scenery

/-- The data of a node. -/
structure Node where
  id : String
  tag : String
  attributes : Keyed Value := .empty
  deriving Inhabited

namespace Node

/-- A node without attributes; its tag is put in upper case. -/
def ofType (id type : String) : Node :=
  ⟨id, Text.upperCase type, .empty⟩

/-- The node with an attribute added. -/
def withAttribute (node : Node) (name : String) (value : Value) : Node :=
  { node with attributes := node.attributes.insert name value }

/-- The value found under a name. -/
def attribute? (node : Node) (name : String) : Option Value :=
  if name = "id" then some (.text node.id)
  else if name = "type" then some (.text node.tag)
  else node.attributes.get? name

/-- The attribute `name`, if it is a text. -/
def name? (node : Node) : Option String :=
  (node.attributes.get? "name").bind Value.text?

/-- Whether two attribute maps have the same names with equal values. -/
def sameAttributes (a b : Keyed Value) : Bool :=
  a.entries.length == b.entries.length &&
    (a.entries.zip b.entries).all fun (x, y) => x.1 == y.1 && x.2.same y.2

/-- Whether two nodes carry equal data. -/
def same (a b : Node) : Bool :=
  a.id == b.id && a.tag == b.tag && sameAttributes a.attributes b.attributes

@[simp] theorem attribute?_id (node : Node) :
    node.attribute? "id" = some (.text node.id) := rfl

@[simp] theorem attribute?_type (node : Node) :
    node.attribute? "type" = some (.text node.tag) := rfl

end Node

end Scenery
