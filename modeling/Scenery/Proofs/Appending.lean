import Scenery.Proofs.Forest
import Scenery.Scene.InPlace

/-!
# When a node is put into a container

Five things can keep a node out of a container, and several of them can hold at once;
which one is reported is settled by an order.  Where none holds, the node is put behind
the children of the container and nothing else is written, so that the way up changes
for the node and for what stands below it, and goes on at the container there.
-/

namespace Scenery

namespace Scene

/-- What keeps a node out of another, if anything does; of several reasons the first counts. -/
def refusal? (scene : Scene) (parent child : NodeId) : Option AppendError :=
  if scene.size ≤ child.index then
    some (.unknownNode child)
  else if let some holder := scene.parent? child then
    some (.alreadyAttached child holder)
  else if child = parent ∨ child ∈ scene.ancestors parent then
    some (.cycle child parent)
  else if scene.size ≤ parent.index then
    some (.unknownNode parent)
  else if scene.isContainer parent then
    none
  else
    some (.notAContainer parent)

/-- One scene is the other with a child put behind the children of a container, and no more. -/
structure Appends (before : Scene) (parent child : NodeId) (after : Scene) : Prop where
  size_eq : after.size = before.size
  /-- Of all that the nodes hold, only the link of the child and the list of the container change. -/
  get?_eq : ∀ id, after.get? id = (before.get? id).map fun cell =>
    { cell with
      parent := if id = child then some parent else cell.parent
      children := if id = parent then cell.children.map (· ++ [child]) else cell.children }
  /-- The ways up that ended at the child, or began there, go on with its container. -/
  ancestors_eq : ∀ id, after.ancestors id =
    if child ∈ id :: before.ancestors id then
      before.ancestors id ++ parent :: before.ancestors parent
    else before.ancestors id

theorem append_eq_refusal (scene : Scene) (parent child : NodeId) :
    scene.append parent child =
      match scene.refusal? parent child with
      | some error => .error error
      | none => .ok (scene.attach parent child (scene.childrenOf parent)) := by
  unfold append refusal? parent? isContainer childrenOf children?
  cases hchild : scene.get? child with
  | none => simp [(scene.get?_eq_none_iff child).mp hchild]
  | some cell =>
      have hknown : ¬ scene.size ≤ child.index := Nat.not_le.mpr (lt_size_of_get? hchild)
      rw [if_neg hknown]
      cases hparent : cell.parent with
      | some existing => simp [hparent]
      | none =>
          by_cases hcycle : child = parent ∨ child ∈ scene.ancestors parent
          · simp [hparent, hcycle]
          · cases hholder : scene.get? parent with
            | none => simp [hparent, hcycle, (scene.get?_eq_none_iff parent).mp hholder]
            | some holder =>
                have hthere : ¬ scene.size ≤ parent.index := Nat.not_le.mpr (lt_size_of_get? hholder)
                cases hchildren : holder.children <;> simp [hparent, hcycle, hthere, hchildren]

theorem Linked.ancestors_attach {scene : Scene} (h : scene.Linked) {parent child : NodeId}
    (hknown : child.index < scene.size) (hdetached : scene.parent? child = none)
    (hne : child ≠ parent) (houtside : child ∉ scene.ancestors parent) {children : List NodeId}
    (hchildren : scene.children? parent = some children) (id : NodeId) :
    (scene.attach parent child children).ancestors id =
      if child ∈ id :: scene.ancestors id then scene.ancestors id ++ parent :: scene.ancestors parent
      else scene.ancestors id := by
  have hgrown := linked_attach h hknown hdetached hne houtside hchildren
  have hup := parent?_attach scene children hne hknown
  have haround := h.lineage_ancestors parent
  have hchain := Lineage.attach hup hdetached haround (by simp [hne, houtside])
    (h.lineage_ancestors id)
  exact (hgrown.lineage_ancestors id).unique hchain

theorem get?_attach_eq (scene : Scene) {parent child : NodeId} (hne : child ≠ parent)
    {children : List NodeId} (hchildren : scene.children? parent = some children) (id : NodeId) :
    (scene.attach parent child children).get? id = (scene.get? id).map fun cell =>
      { cell with
        parent := if id = child then some parent else cell.parent
        children := if id = parent then cell.children.map (· ++ [child]) else cell.children } := by
  rw [get?_attach scene parent child children id hne]
  by_cases hid : id = child
  · subst hid
    simp [hne]
  · by_cases hparent : id = parent
    · subst hparent
      obtain ⟨cell, hcell, hlist⟩ := Option.bind_eq_some_iff.mp hchildren
      simp [hid, hcell, hlist]
    · simp [hid, hparent]

theorem Linked.appends {scene grown : Scene} (h : scene.Linked) {parent child : NodeId}
    (hok : scene.append parent child = .ok grown) : scene.Appends parent child grown := by
  obtain ⟨hknown, hdetached, hne, houtside, children, hchildren, rfl⟩ :=
    (append_eq_ok_iff ..).mp hok
  exact ⟨size_attach .., scene.get?_attach_eq hne hchildren,
    h.ancestors_attach hknown hdetached hne houtside hchildren⟩

/--
Putting a node into a container is refused for the first reason there is, and leaves the scene
as it was then; where there is none it is done, step by step as at once, and changes the two
links and the ways up through the node only.  The way up that it looks at always ends.
-/
theorem append_of_refusal {scene : Scene} (h : scene.Reachable) (parent child : NodeId) :
    Lineage scene.parent? parent (scene.ancestors parent) ∧
      (∀ error, scene.refusal? parent child = some error →
        scene.append parent child = .error error ∧
          (appendInPlace parent child).run.run scene = some (.error error, scene)) ∧
      (scene.refusal? parent child = none →
        ∃ grown, scene.append parent child = .ok grown ∧
          (appendInPlace parent child).run.run scene = some (.ok (), grown) ∧
          scene.Appends parent child grown) := by
  have hlinked := h.linked
  have happend := append_eq_refusal scene parent child
  have hsteps := run_appendInPlace scene parent child
  refine ⟨hlinked.lineage_ancestors parent, ?_, ?_⟩
  · intro error hrefusal
    rw [hrefusal] at happend
    rw [happend] at hsteps
    exact ⟨happend, hsteps⟩
  · intro hnone
    rw [hnone] at happend
    rw [happend] at hsteps
    exact ⟨_, happend, hsteps, hlinked.appends happend⟩

/-- A frame with a leaf goes into the root, and the root does not go into the frame then. -/
theorem append_of_refusal_of_frame :
    let scene := (ofRoot (.ofType "p" "PAGE")).edited
      [.addContainer (.ofType "f" "FRAME"), .addLeaf (.ofType "r" "RECT"), .append ⟨1⟩ ⟨2⟩]
    scene.Reachable ∧ scene.refusal? .root ⟨1⟩ = none ∧
      scene.refusal? ⟨2⟩ ⟨1⟩ = some (.cycle ⟨1⟩ ⟨2⟩) ∧
      (appendInPlace ⟨2⟩ ⟨1⟩).run.run scene = some (.error (.cycle ⟨1⟩ ⟨2⟩), scene) ∧
      ∃ grown, scene.append .root ⟨1⟩ = .ok grown ∧ grown.ancestors ⟨2⟩ = [⟨1⟩, .root] := by
  intro scene
  have hscene : scene.Reachable := ⟨_, _, .ofRoot _, rfl⟩
  have hnone : scene.refusal? .root ⟨1⟩ = none := by decide +kernel
  have hcycle : scene.refusal? ⟨2⟩ ⟨1⟩ = some (.cycle ⟨1⟩ ⟨2⟩) := by decide +kernel
  obtain ⟨grown, hgrown, -, happends⟩ := (append_of_refusal hscene .root ⟨1⟩).2.2 hnone
  refine ⟨hscene, hnone, hcycle, ((append_of_refusal hscene ⟨2⟩ ⟨1⟩).2.1 _ hcycle).2, grown, hgrown,
    ?_⟩
  rw [happends.ancestors_eq]
  decide +kernel

end Scene

end Scenery
