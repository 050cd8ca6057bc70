import Scenery.Node

/-!
# Scene graphs

What a query needs to know of a scene: the data of a node, its children in
order, and a search among all nodes below it.  Each of the three may be missing
for a node.
-/

namespace Scenery

/-- The number of a node in its scene. -/
structure NodeId where
  index : Nat
  deriving DecidableEq, Repr, Hashable, Inhabited

namespace NodeId

/-- The root of every scene. -/
def root : NodeId := ⟨0⟩

/-- The node number as it stands in messages. -/
def text (id : NodeId) : String :=
  "NodeId(" ++ toString id.index ++ ")"

end NodeId

/-- A graph of nodes as queries see it. -/
structure Graph where
  node? : NodeId → Option Node
  /-- The children of a node in order, if it can have children. -/
  children? : NodeId → Option (List NodeId)
  /-- The nodes below a node that a predicate accepts, if the node can be searched. -/
  search? : NodeId → (NodeId → Bool) → Option (List NodeId)

end Scenery
