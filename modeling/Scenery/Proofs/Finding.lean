import Scenery.Proofs.Selecting

/-!
# Finding a node by its identifier

Identifiers need not be unique, and detached nodes have them too.  A look-up takes the
root if it has the identifier, and otherwise the first node below the root that has it,
in the order of the tree.  That node is also the first one that the selector of the
identifier finds, although matching goes another way to it.
-/

namespace Scenery

open Selector (Compound)

namespace Scene

/-- The node is there and has the identifier. -/
def HasId (scene : Scene) (id : String) (node : NodeId) : Prop :=
  ∃ data, scene.node? node = some data ∧ data.id = id

theorem hasId_iff (scene : Scene) (id : String) (node : NodeId) :
    scene.HasId id node ↔ ((scene.node? node).any fun data => data.id == id) = true := by
  rw [Option.any_eq_true, HasId]
  simp only [beq_iff_eq]

theorem node?_root (scene : Scene) : scene.node? .root = some scene.rootCell.node := by
  have hknown : scene.get? .root = some scene.rootCell := by
    rw [get?, rootCell, NodeId.root, Array.getElem?_eq_getElem scene.cells_nonempty]
  rw [node?, hknown, Option.map_some]

theorem hasId_root_iff (scene : Scene) (id : String) :
    scene.HasId id .root ↔ scene.rootCell.node.id = id := by
  rw [HasId, node?_root]
  simp

/-- A condition on the identifier accepts the nodes that have it. -/
theorem accepts_byId (scene : Scene) (id : String) (childOnly : Bool) (node : NodeId) :
    scene.graph.accepts ⟨[.byId id], childOnly⟩ node =
      (scene.node? node).any fun data => data.id == id := by
  have hsame : Compound.accepts ⟨[.byId id], childOnly⟩ = fun data => data.id == id := by
    funext data
    simp [Compound.accepts, Selector.Simple.accepts]
  rw [Graph.accepts, hsame]
  rfl

namespace Linked

variable {scene : Scene} (h : scene.Linked)

include h

/-- Behind the root, a look-up goes through the nodes below it in the order of the tree. -/
theorem findById?_eq_find? {id : String} (hroot : ¬ scene.HasId id .root) :
    scene.findById? id = (scene.links.below .root).find? fun node =>
      (scene.node? node).any fun data => data.id == id := by
  obtain ⟨children, hchildren⟩ := Option.isSome_iff_exists.mp h.isContainer_root
  rw [hasId_root_iff] at hroot
  rw [findById?, if_neg hroot, ← List.head?_filter]
  change ((scene.links.search? .root _).bind _) = _
  rw [Links.search?_eq]
  change (((scene.children? .root).map _).bind _) = _
  rw [hchildren]
  rfl

theorem findById?_eq_head? {id : String} (hroot : ¬ scene.HasId id .root) :
    scene.findById? id = (scene.graph.matching [⟨[.byId id], false⟩] .root).head? := by
  rw [h.findById?_eq_find? hroot, h.matching_descendants rfl, List.head?_filter,
    funext (scene.accepts_byId id false)]

theorem findById?_eq_some_iff {id : String} (hroot : ¬ scene.HasId id .root) (node : NodeId) :
    scene.findById? id = some node ↔
      ∃ front back, scene.links.below .root = front ++ node :: back ∧ scene.HasId id node ∧
        ∀ earlier ∈ front, ¬ scene.HasId id earlier := by
  rw [h.findById?_eq_find? hroot, List.find?_eq_some_iff_append]
  simp only [hasId_iff, Bool.not_eq_true', Bool.not_eq_true]
  constructor
  · intro hfirst
    obtain ⟨hnode, front, back, hsplit, hnone⟩ := hfirst
    exact ⟨front, back, hsplit, hnode, hnone⟩
  · intro hfirst
    obtain ⟨front, back, hsplit, hnode, hnone⟩ := hfirst
    exact ⟨hnode, front, back, hsplit, hnone⟩

theorem findById?_eq_none_iff {id : String} (hroot : ¬ scene.HasId id .root) :
    scene.findById? id = none ↔ ∀ node, .root ∈ scene.ancestors node → ¬ scene.HasId id node := by
  rw [h.findById?_eq_find? hroot, List.find?_eq_none]
  simp only [hasId_iff, h.mem_below_iff]

end Linked

/--
A look-up gives the root if it has the identifier.  Otherwise it gives the first node below the
root that has it, in the order of the tree, and nothing if there is none, however many other
nodes have it; the selector of the identifier finds the same node first.
-/
theorem findById?_in_tree_order {scene : Scene} (h : scene.Reachable) (id : String) :
    (scene.HasId id .root → scene.findById? id = some .root) ∧
    (¬ scene.HasId id .root →
      (∀ node, scene.findById? id = some node ↔
        ∃ front back, scene.links.below .root = front ++ node :: back ∧ scene.HasId id node ∧
          ∀ earlier ∈ front, ¬ scene.HasId id earlier) ∧
      (scene.findById? id = none ↔
        ∀ node, .root ∈ scene.ancestors node → ¬ scene.HasId id node) ∧
      scene.findById? id = (scene.graph.matching [⟨[.byId id], false⟩] .root).head?) ∧
    (scene.links.below .root).Nodup ∧
    (∀ node, node ∈ scene.links.below .root ↔ .root ∈ scene.ancestors node) ∧
    ∀ top, scene.links.below top =
      (scene.childrenOf top).flatMap fun child => child :: scene.links.below child := by
  have hlinked := h.linked
  refine ⟨?_, ?_, hlinked.nodup_below .root, hlinked.mem_below_iff .root, hlinked.below_eq⟩
  · intro hroot
    rw [findById?, if_pos ((scene.hasId_root_iff id).mp hroot)]
  · intro hroot
    exact ⟨hlinked.findById?_eq_some_iff hroot, hlinked.findById?_eq_none_iff hroot,
      hlinked.findById?_eq_head? hroot⟩

/-- Of four nodes with the identifier one is detached, and two stand behind the first. -/
theorem findById?_in_tree_order_of_frames :
    let scene := (ofRoot (.ofType "p" "PAGE")).edited [.addLeaf (.ofType "x" "RECT"),
      .addContainer (.ofType "f" "FRAME"), .addLeaf (.ofType "x" "TEXT"),
      .addLeaf (.ofType "x" "RECT"), .addLeaf (.ofType "x" "TEXT"), .append .root ⟨2⟩,
      .append .root ⟨3⟩, .append ⟨2⟩ ⟨5⟩, .append ⟨2⟩ ⟨4⟩]
    scene.Reachable ∧ ¬ scene.HasId "x" .root ∧ scene.HasId "x" ⟨1⟩ ∧
      scene.findById? "x" = some ⟨5⟩ ∧
      (scene.graph.matching [⟨[.byId "x"], false⟩] .root).head? = some ⟨5⟩ := by
  intro scene
  have hscene : scene.Reachable := ⟨_, _, .ofRoot _, rfl⟩
  have hroot : ¬ scene.HasId "x" .root := by
    rw [hasId_root_iff]
    decide +kernel
  have hdetached : scene.HasId "x" ⟨1⟩ := by
    rw [hasId_iff]
    decide +kernel
  have hfound : scene.findById? "x" = some ⟨5⟩ := by decide +kernel
  obtain ⟨-, -, hmatching⟩ := (findById?_in_tree_order hscene "x").2.1 hroot
  exact ⟨hscene, hroot, hdetached, hfound, hmatching.symm.trans hfound⟩

end Scene

end Scenery
