import Scenery.Json.Basic
import Scenery.Node
import Scenery.Selector.Basic

/-!
# Nodes and selectors as JSON

A node is an object of its identifier, its tag and its attributes.  A selector is
a list of compounds; every simple selector names its kind.
-/

namespace Scenery

/-- A node: identifier and tag first, then the attributes in the order of their names. -/
def Node.toJson (node : Node) : Json :=
  .object
    (("id", .string node.id) :: ("type", .string node.tag) ::
      node.attributes.entries.map fun (name, value) => (name, value.toJson))

namespace Selector

/-- A text, or `null` if there is none. -/
def textOrNull : Option String → Json
  | none => .null
  | some text => .string text

/-- An attribute test with all its parts. -/
def AttributeTest.toJson (test : AttributeTest) : Json :=
  .object
    [("name", textOrNull test.name), ("value", textOrNull test.value),
      ("operator", .string test.operator), ("closed", .bool test.closed)]

/-- A simple selector: its kind, and its value if it has one. -/
def Simple.toJson : Simple → Json
  | all => .object [("kind", .string "all")]
  | byId id => .object [("kind", .string "by_id"), ("value", .string id)]
  | byType name => .object [("kind", .string "by_type"), ("value", .string name)]
  | byAttribute test => .object [("kind", .string "by_attribute"), ("value", test.toJson)]

/-- A compound: its simple selectors, and where it looks. -/
def Compound.toJson (compound : Compound) : Json :=
  .object
    [("selectors", .array (compound.selectors.map Simple.toJson)),
      ("direct_children_only", .bool compound.childOnly)]

end Selector

end Scenery
