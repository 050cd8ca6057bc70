import Scenery.Node
import Scenery.Selector.Basic
import Scenery.Text.Search

/-!
# Which nodes a compound accepts

A compound accepts a node if all its simple selectors do.  An attribute test
looks at the attribute as it is shown, except that equality asks for a text.
-/

namespace Scenery.Selector

/-- Whether a value passes a comparison with a text. -/
def Comparison.accepts (comparison : Comparison) (value : Value) (needle : String) : Bool :=
  let shown := value.display.toList
  match comparison with
  | equals => value.isText needle
  | includes => (Text.words shown).contains needle.toList
  | dashMatch => value.isText needle || Text.holds (needle.toList ++ ['-']) shown
  | prefixMatch => Text.startsWith needle.toList shown
  | suffixMatch => Text.endsWith needle.toList shown
  | substringMatch => Text.holds needle.toList shown

/-- Whether the node has the attribute and it passes; a test without a value accepts nothing. -/
def AttributeTest.accepts (test : AttributeTest) (node : Node) : Bool :=
  match test.name, test.value with
  | some name, some needle =>
    match node.attribute? name with
    | some value => test.comparison.accepts value needle
    | none => false
  | _, _ => false

/-- Whether the node meets the condition. -/
def Simple.accepts (simple : Simple) (node : Node) : Bool :=
  match simple with
  | all => true
  | byId id => node.id == id
  | byType name => node.tag == Text.upperCase name
  | byAttribute test => test.accepts node

/-- Whether the node meets all conditions. -/
def Compound.accepts (compound : Compound) (node : Node) : Bool :=
  compound.selectors.all (·.accepts node)

@[simp] theorem Compound.accepts_eq_true_iff (compound : Compound) (node : Node) :
    compound.accepts node = true ↔
      ∀ simple ∈ compound.selectors, simple.accepts node = true := by
  simp [Compound.accepts]

end Scenery.Selector
