import Mathlib.Data.List.Flatten
import Scenery.Proofs.Selecting

/-!
# The order of what is found

What a compound finds stands in the order of the context, not of the tree.  The two are
the same as long as no compound that looks at children stands behind one that looks at
all nodes below.  Children of nodes whose subtrees come one after the other are such
nodes again, so that child steps keep the order of the tree.  Nodes below a context may
stand in several of its subtrees, but where one subtree lies in another, the outer one
comes first and holds all there is.
-/

namespace Scenery

open Selector (Compound)

theorem eraseDups_append_of_subset {first second : List NodeId}
    (h : ∀ item ∈ second, item ∈ first) : (first ++ second).eraseDups = first.eraseDups := by
  have hnone : second.removeAll first = [] := by
    unfold List.removeAll
    rw [List.filter_eq_nil_iff]
    intro item hitem
    simpa using h item hitem
  rw [List.eraseDups_append, hnone, List.eraseDups_nil, List.append_nil]

/-- Behind other items no more is kept than alone. -/
theorem eraseDups_append_sublist (first second : List NodeId) :
    (first ++ second).eraseDups.Sublist (first.eraseDups ++ second.eraseDups) := by
  rw [List.eraseDups_append]
  unfold List.removeAll
  rw [eraseDups_filter]
  exact List.Sublist.append_left List.filter_sublist _

namespace Scene

/-- A compound finds what it accepts of the nodes it looks at. -/
theorem narrow_eq_filter (scene : Scene) (context : List NodeId) (compound : Compound) :
    scene.graph.narrow context compound =
      (context.flatMap (scene.scope compound)).eraseDups.filter (scene.graph.accepts compound) := by
  have hcandidates : scene.graph.candidates compound =
      fun id => (scene.scope compound id).filter (scene.graph.accepts compound) :=
    funext (scene.candidates_eq compound)
  rw [Graph.narrow_eq, hcandidates, ← List.filter_flatMap, eraseDups_filter]

namespace Linked

variable {scene : Scene} (h : scene.Linked)

include h

/-! ## Steps to children -/

theorem flatMap_below_eq (context : List NodeId) :
    context.flatMap scene.links.below = scene.links.subtrees (context.flatMap scene.childrenOf) := by
  rw [Links.subtrees, List.flatMap_assoc]
  exact List.flatMap_congr fun id _ => h.below_eq id

/--
From a context whose subtrees come one after the other in the order of the tree, a step to
children leads to nodes in that order, and to such a context.
-/
theorem narrow_children {start : NodeId} {context : List NodeId} {compound : Compound}
    (hchild : compound.childOnly = true)
    (hcontext : (context.flatMap scene.links.below).Sublist (scene.links.below start)) :
    (scene.graph.narrow context compound).Sublist (scene.links.below start) ∧
      ((scene.graph.narrow context compound).flatMap scene.links.below).Sublist
        (scene.links.below start) := by
  let children := context.flatMap scene.childrenOf
  have hsubtrees : (scene.links.subtrees children).Sublist (scene.links.below start) := by
    rwa [← h.flatMap_below_eq]
  have hchildren := (scene.links.sublist_subtrees children).trans hsubtrees
  have hscope : scene.scope compound = scene.childrenOf := by
    funext id
    rw [scope, if_pos hchild]
  have hnarrow : scene.graph.narrow context compound =
      children.filter (scene.graph.accepts compound) := by
    rw [narrow_eq_filter, hscope, eraseDups_of_nodup (hchildren.nodup (h.nodup_below start))]
  rw [hnarrow]
  refine ⟨List.filter_sublist.trans hchildren, ?_⟩
  calc
    ((children.filter (scene.graph.accepts compound)).flatMap scene.links.below).Sublist
        (children.flatMap scene.links.below) := List.filter_sublist.flatMap _
    List.Sublist _ (scene.links.subtrees children) :=
      List.Sublist.flatMap_right _ fun id _ => List.sublist_cons_self ..
    List.Sublist _ (scene.links.below start) := hsubtrees

/-! ## Steps to all nodes below -/

theorem mem_below_trans {first second third : NodeId} (hsecond : second ∈ scene.links.below first)
    (hthird : third ∈ scene.links.below second) : third ∈ scene.links.below first := by
  rw [h.mem_below_iff] at *
  exact h.mem_ancestors_trans hsecond hthird

theorem eraseDups_flatMap_below_of_cons {id : NodeId} {rest : List NodeId}
    (hrest : ∀ node ∈ rest, node ∈ scene.links.below id) :
    ((id :: rest).flatMap scene.links.below).eraseDups = scene.links.below id := by
  rw [List.flatMap_cons, eraseDups_append_of_subset, eraseDups_of_nodup (h.nodup_below id)]
  intro item hitem
  obtain ⟨node, hnode, hbelow⟩ := List.mem_flatMap.mp hitem
  exact h.mem_below_trans (hrest node hnode) hbelow

/-- The subtrees of a context are searched in the order of the trees that the context is in. -/
theorem eraseDups_flatMap_below_of_subtrees {nodes context : List NodeId}
    (hnodes : ∀ node ∈ nodes, ∀ inner : List NodeId, inner.Sublist (scene.links.below node) →
      (inner.flatMap scene.links.below).eraseDups.Sublist (scene.links.below node))
    (hcontext : context.Sublist (scene.links.subtrees nodes)) :
    (context.flatMap scene.links.below).eraseDups.Sublist (scene.links.subtrees nodes) := by
  induction nodes generalizing context with
  | nil =>
      rw [List.eq_nil_of_sublist_nil hcontext]
      exact List.Sublist.refl _
  | cons node rest ih =>
      have hrest : ∀ {others : List NodeId}, others.Sublist (scene.links.subtrees rest) →
          (others.flatMap scene.links.below).eraseDups.Sublist (scene.links.subtrees rest) :=
        ih fun other hother => hnodes other (List.mem_cons_of_mem node hother)
      obtain ⟨inner, others, rfl, hinner, hothers⟩ := List.sublist_append_iff.mp hcontext
      have hfirst : (inner.flatMap scene.links.below).eraseDups.Sublist
          (node :: scene.links.below node) := by
        rcases List.sublist_cons_iff.mp hinner with hbelow | ⟨more, rfl, hmore⟩
        · exact (hnodes node List.mem_cons_self inner hbelow).cons node
        · rw [h.eraseDups_flatMap_below_of_cons fun other hother => hmore.subset hother]
          exact List.sublist_cons_self ..
      rw [List.flatMap_append]
      exact (eraseDups_append_sublist _ _).trans (hfirst.append (hrest hothers))

/-- From nodes in the order of the tree, the nodes below are reached in that order. -/
theorem eraseDups_flatMap_below {start : NodeId} {context : List NodeId}
    (hcontext : context.Sublist (scene.links.below start)) :
    (context.flatMap scene.links.below).eraseDups.Sublist (scene.links.below start) := by
  have hshallow := h.shallow start
  generalize scene.links.size = levels at hshallow
  have hbelow : ∀ id, scene.links.below id = scene.links.subtrees (scene.childrenOf id) := h.below_eq
  induction levels generalizing start context with
  | zero =>
      have hnone : scene.childrenOf start = [] := hshallow
      rw [hbelow, hnone] at hcontext ⊢
      exact h.eraseDups_flatMap_below_of_subtrees (by simp) hcontext
  | succ levels ih =>
      rw [hbelow] at hcontext ⊢
      apply h.eraseDups_flatMap_below_of_subtrees _ hcontext
      intro child hchild inner hinner
      exact ih hinner (hshallow child hchild)

omit h in
theorem narrow_descendants (context : List NodeId) {compound : Compound}
    (hall : compound.childOnly = false) :
    scene.graph.narrow context compound =
      (context.flatMap scene.links.below).eraseDups.filter (scene.graph.accepts compound) := by
  have hscope : scene.scope compound = scene.links.below := by
    funext id
    rw [scope, hall]
    rfl
  rw [narrow_eq_filter, hscope]

/-! ## Runs of steps -/

/-- Compounds that look at all nodes below keep the order of the tree. -/
theorem foldl_narrow_descendants {start : NodeId} {context : List NodeId}
    {compounds : List Compound} (hall : ∀ compound ∈ compounds, compound.childOnly = false)
    (hcontext : context.Sublist (scene.links.below start)) :
    (compounds.foldl scene.graph.narrow context).Sublist (scene.links.below start) := by
  induction compounds generalizing context with
  | nil => exact hcontext
  | cons compound rest ih =>
      apply ih fun other hother => hall other (List.mem_cons_of_mem compound hother)
      rw [narrow_descendants context (hall compound List.mem_cons_self)]
      exact List.filter_sublist.trans (h.eraseDups_flatMap_below hcontext)

/-- From a context of subtrees one after the other, the first step keeps the order as well. -/
theorem foldl_narrow_below {start : NodeId} {context : List NodeId} {compound : Compound}
    {rest : List Compound} (hall : ∀ other ∈ compound :: rest, other.childOnly = false)
    (hcontext : (context.flatMap scene.links.below).Sublist (scene.links.below start)) :
    ((compound :: rest).foldl scene.graph.narrow context).Sublist (scene.links.below start) := by
  rw [List.foldl_cons, narrow_descendants context (hall compound List.mem_cons_self),
    eraseDups_of_nodup (hcontext.nodup (h.nodup_below start))]
  exact h.foldl_narrow_descendants
    (fun other hother => hall other (List.mem_cons_of_mem compound hother))
    (List.filter_sublist.trans hcontext)

/-- Child steps first, and then steps to all nodes below, keep the order of the tree. -/
theorem foldl_narrow_sublist {start : NodeId} {context : List NodeId} {compound : Compound}
    {rest : List Compound}
    (horder : (compound :: rest).Pairwise fun first second =>
      second.childOnly = true → first.childOnly = true)
    (hcontext : (context.flatMap scene.links.below).Sublist (scene.links.below start)) :
    ((compound :: rest).foldl scene.graph.narrow context).Sublist (scene.links.below start) := by
  induction rest generalizing compound context with
  | nil =>
      cases hchild : compound.childOnly with
      | true => exact (h.narrow_children hchild hcontext).1
      | false => exact h.foldl_narrow_below (by simp [hchild]) hcontext
  | cons next rest ih =>
      obtain ⟨hfirst, hrest⟩ := List.pairwise_cons.mp horder
      cases hchild : compound.childOnly with
      | true => exact ih hrest (h.narrow_children hchild hcontext).2
      | false =>
          refine h.foldl_narrow_below ?_ hcontext
          intro other hother
          rcases List.mem_cons.mp hother with rfl | hother
          · exact hchild
          · cases hother' : other.childOnly with
            | false => rfl
            | true => exact absurd (hfirst other hother hother') (by simp [hchild])

end Linked

/--
A selector in which no compound that looks at children stands behind one that looks at all nodes
below finds its nodes in the order of the tree, in which each child stands before what stands
below it and no node stands twice.
-/
theorem matching_in_tree_order {scene : Scene} (h : scene.Reachable) {compounds : List Compound}
    (horder : compounds.Pairwise fun first second =>
      second.childOnly = true → first.childOnly = true) (start : NodeId) :
    (scene.graph.matching compounds start).Sublist (scene.links.below start) ∧
      (scene.links.below start).Nodup ∧
      ∀ top, scene.links.below top =
        (scene.childrenOf top).flatMap fun child => child :: scene.links.below child := by
  have hlinked := h.linked
  refine ⟨?_, hlinked.nodup_below start, hlinked.below_eq⟩
  cases compounds with
  | nil => exact List.nil_sublist _
  | cons compound rest =>
      rw [Graph.matching_cons]
      apply hlinked.foldl_narrow_sublist horder
      rw [List.flatMap_singleton]

/-- Frames in each other, whose rectangles are reached from several of them. -/
theorem matching_in_tree_order_of_frames :
    let scene := (ofRoot (.ofType "p" "PAGE")).edited [.addContainer (.ofType "f" "FRAME"),
      .addContainer (.ofType "g" "FRAME"), .addContainer (.ofType "h" "FRAME"),
      .addLeaf (.ofType "r" "RECT"), .addLeaf (.ofType "s" "RECT"), .append .root ⟨1⟩,
      .append ⟨1⟩ ⟨2⟩, .append ⟨2⟩ ⟨3⟩, .append ⟨3⟩ ⟨4⟩, .append ⟨2⟩ ⟨5⟩]
    let compounds : List Compound := [⟨[.byType "frame"], true⟩, ⟨[.all], false⟩,
      ⟨[.byType "rect"], false⟩]
    scene.Reachable ∧
      (compounds.Pairwise fun first second =>
        second.childOnly = true → first.childOnly = true) ∧
      scene.graph.matching compounds .root = [⟨4⟩, ⟨5⟩] ∧
      [⟨4⟩, ⟨5⟩].Sublist (scene.links.below .root) := by
  intro scene compounds
  have hscene : scene.Reachable := ⟨_, _, .ofRoot _, rfl⟩
  have horder : compounds.Pairwise fun first second =>
      second.childOnly = true → first.childOnly = true := by decide
  have hfound : scene.graph.matching compounds .root = [⟨4⟩, ⟨5⟩] := by
    rw [Graph.matching_cons_eraseDups]
    decide +kernel
  have hsorted := (matching_in_tree_order hscene horder .root).1
  rw [hfound] at hsorted
  exact ⟨hscene, horder, hfound, hsorted⟩

end Scene

end Scenery
