import Scenery.Graph.Links

/-!
# Scenes

A scene holds its nodes in the order in which they were added.  Each is a leaf or
a container with an ordered list of children, and knows the container it was put
in.  The root is the first node.  A node is added detached, and is put into a
container once; the checks of `append` come in a fixed order, and a refused
`append` changes nothing.
-/

namespace Scenery

/-- A node of a scene and its links. -/
structure Cell where
  node : Node
  /-- The container that the node was put in. -/
  parent : Option NodeId := none
  /-- The children of a container in order; a leaf has no list of children. -/
  children : Option (List NodeId) := none
  deriving Inhabited

/-- Why a node cannot be put into another. -/
inductive AppendError where
  | unknownNode (id : NodeId)
  | notAContainer (id : NodeId)
  /-- The node was put into a container before. -/
  | alreadyAttached (child parent : NodeId)
  /-- The node is the other itself, or one that holds it. -/
  | cycle (child parent : NodeId)
  deriving DecidableEq, Repr, Inhabited

namespace AppendError

def message : AppendError → String
  | unknownNode id => "node " ++ id.text ++ " does not exist in this scene"
  | notAContainer id => "node " ++ id.text ++ " is a leaf and cannot have children"
  | alreadyAttached child parent =>
    "node " ++ child.text ++ " is already attached to " ++ parent.text
  | cycle child parent =>
    "appending " ++ child.text ++ " under " ++ parent.text ++ " would create a cycle"

end AppendError

/-- A scene; there is always a root. -/
structure Scene where
  cells : Array Cell
  cells_nonempty : 0 < cells.size

namespace Scene

/-- The scene of a root without children. -/
def ofRoot (node : Node) : Scene :=
  ⟨#[{ node := node, children := some [] }], by simp⟩

instance : Inhabited Scene := ⟨ofRoot default⟩

/-- How many nodes there are, in containers or detached. -/
def size (scene : Scene) : Nat :=
  scene.cells.size

/-- A node with its links. -/
def get? (scene : Scene) (id : NodeId) : Option Cell :=
  scene.cells[id.index]?

/-- The root with its links. -/
def rootCell (scene : Scene) : Cell :=
  have := scene.cells_nonempty
  scene.cells[0]

def node? (scene : Scene) (id : NodeId) : Option Node :=
  (scene.get? id).map (·.node)

/-- The container of a node. -/
def parent? (scene : Scene) (id : NodeId) : Option NodeId :=
  (scene.get? id).bind (·.parent)

/-- The children of a container. -/
def children? (scene : Scene) (id : NodeId) : Option (List NodeId) :=
  (scene.get? id).bind (·.children)

/-- Whether a node can have children. -/
def isContainer (scene : Scene) (id : NodeId) : Bool :=
  (scene.children? id).isSome

/-- The first containers around a node, the nearest first. -/
def firstAncestors (scene : Scene) : Nat → NodeId → List NodeId
  | 0, _ => []
  | count + 1, id =>
    match scene.parent? id with
    | none => []
    | some parent => parent :: scene.firstAncestors count parent

/-- The containers around a node, the nearest first; no more than there are nodes. -/
def ancestors (scene : Scene) (id : NodeId) : List NodeId :=
  scene.firstAncestors scene.size id

/-- Add a detached node. -/
def add (scene : Scene) (cell : Cell) : Scene × NodeId :=
  (⟨scene.cells.push cell, by simp⟩, ⟨scene.size⟩)

def addContainer (scene : Scene) (node : Node) : Scene × NodeId :=
  scene.add { node := node, children := some [] }

def addLeaf (scene : Scene) (node : Node) : Scene × NodeId :=
  scene.add { node := node }

/-- Put a child behind the children of a node, and note its container. -/
def attach (scene : Scene) (parent child : NodeId) (children : List NodeId) : Scene where
  cells := (scene.cells.modify parent.index
      fun cell => { cell with children := some (children ++ [child]) }).modify child.index
    fun cell => { cell with parent := some parent }
  cells_nonempty := by simpa using scene.cells_nonempty

/-- Put a node behind the children of a container. -/
def append (scene : Scene) (parent child : NodeId) : Except AppendError Scene :=
  match scene.get? child with
  | none => .error (.unknownNode child)
  | some cell =>
    match cell.parent with
    | some existing => .error (.alreadyAttached child existing)
    | none =>
      if child = parent ∨ child ∈ scene.ancestors parent then
        .error (.cycle child parent)
      else
        match scene.get? parent with
        | none => .error (.unknownNode parent)
        | some holder =>
          match holder.children with
          | none => .error (.notAContainer parent)
          | some children => .ok (scene.attach parent child children)

def links (scene : Scene) : Links where
  size := scene.size
  node? := scene.node?
  children? := scene.children?

/-- The scene as queries see it. -/
def graph (scene : Scene) : Graph :=
  scene.links.graph

/-- The first node in the order of the tree that has this identifier, the root included. -/
def findById? (scene : Scene) (id : String) : Option NodeId :=
  if scene.rootCell.node.id = id then
    some .root
  else
    (scene.graph.search? .root fun other => (scene.node? other).any (·.id == id)).bind (·.head?)

@[simp] theorem size_ofRoot (node : Node) : (ofRoot node).size = 1 := rfl

@[simp] theorem size_add (scene : Scene) (cell : Cell) :
    (scene.add cell).1.size = scene.size + 1 := by
  simp [add, size]

@[simp] theorem size_attach (scene : Scene) (parent child : NodeId) (children : List NodeId) :
    (scene.attach parent child children).size = scene.size := by
  simp [attach, size]

theorem get?_add (scene : Scene) (cell : Cell) (id : NodeId) :
    (scene.add cell).1.get? id = if id.index = scene.size then some cell else scene.get? id := by
  simp only [add, get?, size, Array.getElem?_push]
  rfl

theorem get?_attach
    (scene : Scene) (parent child : NodeId) (children : List NodeId) (id : NodeId)
    (h : child ≠ parent) :
    (scene.attach parent child children).get? id =
      if id = child then
        (scene.get? id).map fun cell => { cell with parent := some parent }
      else if id = parent then
        (scene.get? id).map fun cell => { cell with children := some (children ++ [child]) }
      else scene.get? id := by
  obtain ⟨n⟩ := id
  obtain ⟨c⟩ := child
  obtain ⟨p⟩ := parent
  have hindex : c ≠ p := fun heq => h (by rw [heq])
  simp only [attach, get?, Array.getElem?_modify, NodeId.mk.injEq, eq_comm (a := n)]
  by_cases hc : c = n
  · subst hc
    simp [Ne.symm hindex]
  · by_cases hp : p = n <;> simp [hc, hp]

theorem get?_eq_none_iff (scene : Scene) (id : NodeId) :
    scene.get? id = none ↔ scene.size ≤ id.index := by
  simp [get?, size]

end Scene

end Scenery
