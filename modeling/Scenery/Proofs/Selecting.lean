import Scenery.Matching
import Scenery.Proofs.Composing
import Scenery.Proofs.Search

/-!
# Selecting from right to left

Matching goes down from the start, compound by compound, and keeps the nodes it
reaches.  A selector can also be read the other way: a node is selected if the
last compound accepts it and the compounds before lead up from it to the start.
`Selects` says so by the containers of the nodes alone.  In every scene that can
be built both find the same nodes.
-/

namespace Scenery

open Selector (Compound)

namespace NodeSet

theorem nodup_toList_foldl_insert (ids : List NodeId) {set : NodeSet} (h : set.toList.Nodup) :
    (ids.foldl insert set).toList.Nodup := by
  induction ids generalizing set with
  | nil => exact h
  | cons id rest ih =>
      apply ih
      rw [toList_insert]
      split
      · exact h
      · rename_i hnew
        rw [← List.concat_eq_append]
        exact h.concat hnew

end NodeSet

namespace Graph

theorem nodup_narrow (graph : Graph) (context : List NodeId) (compound : Compound) :
    (graph.narrow context compound).Nodup :=
  NodeSet.nodup_toList_foldl_insert _ List.nodup_nil

theorem mem_narrow_iff (graph : Graph) (context : List NodeId) (compound : Compound)
    (id : NodeId) :
    id ∈ graph.narrow context compound ↔
      ∃ node ∈ context, id ∈ graph.candidates compound node := by
  rw [narrow_eq, List.mem_eraseDups, List.mem_flatMap]

theorem nodup_matching (graph : Graph) (compounds : List Compound) (start : NodeId) :
    (graph.matching compounds start).Nodup := by
  rcases List.eq_nil_or_concat compounds with rfl | ⟨front, last, rfl⟩
  · exact List.nodup_nil
  · rw [List.concat_eq_append, matching_concat]
    exact graph.nodup_narrow _ last

end Graph

theorem Links.candidates_eq (links : Links) (compound : Compound) (id : NodeId) :
    links.graph.candidates compound id =
      (if compound.childOnly then links.childrenOf id else links.below id).filter
        (links.graph.accepts compound) := by
  unfold Graph.candidates
  cases compound.childOnly with
  | true => rfl
  | false =>
      show (links.search? id (links.graph.accepts compound)).getD [] = _
      rw [links.search?_eq]
      cases hchildren : links.children? id with
      | none =>
          -- What cannot be searched has nothing below it.
          have hnone : links.childrenOf id = [] := by
            simp [childrenOf, hchildren]
          simp [below, belowUpTo, hnone]
      | some children => rfl

namespace Scene

/--
Whether the compounds from the first up to this number select a node below the
start, told by the containers around the node.
-/
def Selects (scene : Scene) (compounds : List Compound) (start : NodeId) : Nat → NodeId → Prop
  | 0, id =>
    ∃ compound, compounds[0]? = some compound ∧ scene.graph.accepts compound id = true ∧
      if compound.childOnly then scene.parent? id = some start
      else start ∈ scene.ancestors id
  | number + 1, id =>
    ∃ compound, compounds[number + 1]? = some compound ∧
      scene.graph.accepts compound id = true ∧
      if compound.childOnly then
        ∃ parent, scene.parent? id = some parent ∧ scene.Selects compounds start number parent
      else
        ∃ around ∈ scene.ancestors id, scene.Selects compounds start number around

/-- The nodes that a compound looks at below a node, in the order of the tree. -/
def scope (scene : Scene) (compound : Compound) (id : NodeId) : List NodeId :=
  if compound.childOnly then scene.childrenOf id else scene.links.below id

theorem candidates_eq (scene : Scene) (compound : Compound) (id : NodeId) :
    scene.graph.candidates compound id =
      (scene.scope compound id).filter (scene.graph.accepts compound) :=
  scene.links.candidates_eq compound id

namespace Linked

variable {scene : Scene} (h : scene.Linked)

include h

theorem mem_scope_iff (compound : Compound) (id node : NodeId) :
    node ∈ scene.scope compound id ↔
      if compound.childOnly then scene.parent? node = some id
      else id ∈ scene.ancestors node := by
  unfold scope
  cases compound.childOnly with
  | true => exact h.mem_childrenOf_iff id node
  | false => exact h.mem_below_iff id node

theorem mem_candidates_iff (compound : Compound) (id node : NodeId) :
    node ∈ scene.graph.candidates compound id ↔
      scene.graph.accepts compound node = true ∧
        if compound.childOnly then scene.parent? node = some id
        else id ∈ scene.ancestors node := by
  rw [candidates_eq, List.mem_filter, h.mem_scope_iff, and_comm]

/-- A compound that looks at all nodes below the start finds them in the order of the tree. -/
theorem matching_descendants {compound : Compound} (hall : compound.childOnly = false)
    (start : NodeId) :
    scene.graph.matching [compound] start =
      (scene.links.below start).filter (scene.graph.accepts compound) := by
  have hscope : scene.scope compound start = scene.links.below start := by
    rw [scope, hall]
    rfl
  rw [Graph.matching_cons, List.foldl_cons, List.foldl_nil, Graph.narrow_eq,
    List.flatMap_singleton, candidates_eq, hscope]
  exact eraseDups_of_nodup ((h.nodup_below start).filter _)

/-- After each compound the nodes that are left are those it selects. -/
theorem mem_foldl_narrow_iff (compounds : List Compound) (start : NodeId) (number : Nat)
    (hnumber : number < compounds.length) (id : NodeId) :
    id ∈ (compounds.take (number + 1)).foldl scene.graph.narrow [start] ↔
      scene.Selects compounds start number id := by
  induction number generalizing id with
  | zero =>
      rw [List.take_succ_eq_append_getElem hnumber, List.foldl_append]
      simp [Graph.mem_narrow_iff, h.mem_candidates_iff, Selects, hnumber]
  | succ number ih =>
      -- `narrow` takes one step down from a node of the context, `Selects` the same step up.
      have hcontext := ih (Nat.lt_of_succ_lt hnumber)
      rw [List.take_succ_eq_append_getElem hnumber, List.foldl_append]
      simp only [List.foldl_cons, List.foldl_nil, Graph.mem_narrow_iff, hcontext,
        h.mem_candidates_iff, Selects, List.getElem?_eq_getElem hnumber, Option.some.injEq,
        exists_eq_left']
      constructor
      · rintro ⟨node, hnode, haccepts, hstep⟩
        refine ⟨haccepts, ?_⟩
        split
        · rename_i hchild
          rw [if_pos hchild] at hstep
          exact ⟨node, hstep, hnode⟩
        · rename_i hchild
          rw [if_neg hchild] at hstep
          exact ⟨node, hstep, hnode⟩
      · rintro ⟨haccepts, hstep⟩
        split at hstep
        · rename_i hchild
          obtain ⟨node, hparent, hnode⟩ := hstep
          exact ⟨node, hnode, haccepts, by rwa [if_pos hchild]⟩
        · rename_i hchild
          obtain ⟨node, haround, hnode⟩ := hstep
          exact ⟨node, hnode, haccepts, by rwa [if_neg hchild]⟩

theorem mem_ancestors_of_parent {child parent : NodeId}
    (hparent : scene.parent? child = some parent) : parent ∈ scene.ancestors child := by
  rw [h.ancestors_of_parent hparent]
  exact List.mem_cons_self

theorem mem_ancestors_of_mem_scope {compound : Compound} {id node : NodeId}
    (hnode : node ∈ scene.scope compound id) : id ∈ scene.ancestors node := by
  rw [h.mem_scope_iff] at hnode
  split at hnode
  · exact h.mem_ancestors_of_parent hnode
  · exact hnode

theorem mem_ancestors_trans {first second third : NodeId}
    (houter : first ∈ scene.ancestors second) (hinner : second ∈ scene.ancestors third) :
    first ∈ scene.ancestors third :=
  (h.lineage_ancestors third).mem_trans hinner (h.lineage_ancestors second) houter

/-- What is selected stands below the start. -/
theorem mem_ancestors_of_selects {compounds : List Compound} {start : NodeId} {number : Nat}
    {id : NodeId} (hselects : scene.Selects compounds start number id) :
    start ∈ scene.ancestors id := by
  induction number generalizing id with
  | zero =>
      obtain ⟨compound, _, _, hstep⟩ := hselects
      split at hstep
      · exact h.mem_ancestors_of_parent hstep
      · exact hstep
  | succ number ih =>
      obtain ⟨compound, _, _, hstep⟩ := hselects
      split at hstep
      · obtain ⟨parent, hparent, hselects⟩ := hstep
        exact h.mem_ancestors_trans (ih hselects) (h.mem_ancestors_of_parent hparent)
      · obtain ⟨around, haround, hselects⟩ := hstep
        exact h.mem_ancestors_trans (ih hselects) haround

end Linked

theorem lt_size_of_selects {scene : Scene} {compounds : List Compound} {start : NodeId}
    {number : Nat} {id : NodeId} (hselects : scene.Selects compounds start number id) :
    id.index < scene.size := by
  have haccepts : ∃ compound, scene.graph.accepts compound id = true := by
    cases number with
    | zero =>
        obtain ⟨compound, _, haccepts, _⟩ := hselects
        exact ⟨compound, haccepts⟩
    | succ number =>
        obtain ⟨compound, _, haccepts, _⟩ := hselects
        exact ⟨compound, haccepts⟩
  obtain ⟨compound, haccepts⟩ := haccepts
  rw [← isSome_get?_iff]
  cases hget : scene.get? id with
  | none => simp [Graph.accepts, graph, Links.graph, links, node?, hget] at haccepts
  | some _ => rfl

/--
Matching a selector downwards ends, and finds each node once that the selector
selects upwards; all of them are nodes of the scene below the start.
-/
theorem mem_matching_iff_selects (root : Node) (edits : List Edit) (compounds : List Compound)
    (start : NodeId) :
    let scene := (ofRoot root).edited edits
    (∀ compound id, scene.links.Traverses
        (fun node (_ : Unit) => (scene.graph.accepts compound node, ()))
        (scene.links.childrenOf id) ()
        ((scene.graph.search? id (scene.graph.accepts compound)).getD []) ()) ∧
      (scene.graph.matching compounds start).Nodup ∧
      (∀ id ∈ scene.graph.matching compounds start, id.index < scene.size) ∧
      start ∉ scene.graph.matching compounds start ∧
      ∀ id, id ∈ scene.graph.matching compounds start ↔
        compounds ≠ [] ∧ scene.Selects compounds start (compounds.length - 1) id := by
  intro scene
  have h : scene.Linked := linked_edited (linked_ofRoot root) edits
  have hselects : ∀ id, id ∈ scene.graph.matching compounds start ↔
      compounds ≠ [] ∧ scene.Selects compounds start (compounds.length - 1) id := by
    intro id
    cases compounds with
    | nil => simp
    | cons compound rest =>
        have hmem := h.mem_foldl_narrow_iff (compound :: rest) start rest.length (by simp) id
        have hall : (compound :: rest).take (rest.length + 1) = compound :: rest := by simp
        rw [hall] at hmem
        rw [Graph.matching_cons, hmem]
        simp
  refine ⟨fun compound id => h.traverses_search _ id, Graph.nodup_matching .., ?_, ?_, hselects⟩
  · intro id hmem
    exact lt_size_of_selects ((hselects id).mp hmem).2
  · intro hmem
    exact (h.lineage_ancestors start).not_mem
      (h.mem_ancestors_of_selects ((hselects start).mp hmem).2)

theorem selects_rect_in_frame :
    let edits : List Edit := [.addContainer (.ofType "f" "FRAME"), .addLeaf (.ofType "r" "RECT"),
      .append ⟨1⟩ ⟨2⟩, .append ⟨0⟩ ⟨1⟩, .append ⟨2⟩ ⟨0⟩]
    let scene := (ofRoot (.ofType "p" "PAGE")).edited edits
    let compounds : List Compound := [⟨[.byType "frame"], false⟩, ⟨[.byType "rect"], true⟩]
    scene.Selects compounds .root 1 ⟨2⟩ ∧ ⟨2⟩ ∈ scene.graph.matching compounds .root ∧
      2 < scene.size := by
  intro edits scene compounds
  have hframe : scene.Selects compounds .root 0 ⟨1⟩ :=
    ⟨_, rfl, by decide +kernel, by decide +kernel⟩
  have hrect : scene.Selects compounds .root 1 ⟨2⟩ :=
    ⟨_, rfl, by decide +kernel, ⟨1⟩, by decide +kernel, hframe⟩
  have h := mem_matching_iff_selects (.ofType "p" "PAGE") edits compounds .root
  have hmem := (h.2.2.2.2 ⟨2⟩).mpr ⟨by simp [compounds], hrect⟩
  exact ⟨hrect, hmem, h.2.2.1 ⟨2⟩ hmem⟩

end Scene

end Scenery
