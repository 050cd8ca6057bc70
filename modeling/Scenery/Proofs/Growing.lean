import Scenery.Proofs.Composing
import Scenery.Proofs.Selecting

/-!
# Growing scenes

A scene only grows.  Its nodes keep their data, a node that stands in a container
stays there, and children come behind those that are there.  So the nodes below a
start keep their order, and nothing that is added comes between them and the
start.  A query finds what it found before, in the same order, and perhaps nodes
that were not below its start then.
-/

namespace Scenery

open Selector (Compound)

/-- A way up that goes on is as before up to where it ended. -/
theorem Lineage.isPrefix {up up' : NodeId → Option NodeId} {id : NodeId} {chain chain' : List NodeId}
    (hup : ∀ node parent, up node = some parent → up' node = some parent)
    (h : Lineage up id chain) (h' : Lineage up' id chain') : chain <+: chain' := by
  induction h generalizing chain' with
  | top => exact List.nil_prefix
  | above hparent _ ih =>
      cases h' with
      | top hnone => simp [hup _ _ hparent] at hnone
      | above hparent' rest' =>
          rw [hup _ _ hparent] at hparent'
          cases hparent'
          exact List.prefix_cons_inj _ |>.mpr (ih rest')

namespace Scene

/-! ## What growing leaves as it is -/

/-- The nodes of a scene, each with what it has, and perhaps more of them. -/
structure Extends (before after : Scene) : Prop where
  size_le : before.size ≤ after.size
  node?_eq : ∀ id : NodeId, id.index < before.size → after.node? id = before.node? id
  isContainer_eq : ∀ id : NodeId, id.index < before.size →
    after.isContainer id = before.isContainer id
  parent?_eq : ∀ id parent, before.parent? id = some parent → after.parent? id = some parent
  childrenOf_isPrefix : ∀ id, before.childrenOf id <+: after.childrenOf id

theorem Extends.refl (scene : Scene) : scene.Extends scene :=
  ⟨Nat.le_refl _, fun _ _ => rfl, fun _ _ => rfl, fun _ _ h => h, fun _ => List.prefix_rfl⟩

theorem Extends.trans {first second third : Scene} (h : first.Extends second)
    (h' : second.Extends third) : first.Extends third where
  size_le := Nat.le_trans h.size_le h'.size_le
  node?_eq := by
    intro id hid
    rw [h'.node?_eq id (Nat.lt_of_lt_of_le hid h.size_le), h.node?_eq id hid]
  isContainer_eq := by
    intro id hid
    rw [h'.isContainer_eq id (Nat.lt_of_lt_of_le hid h.size_le), h.isContainer_eq id hid]
  parent?_eq := fun id parent hparent => h'.parent?_eq id parent (h.parent?_eq id parent hparent)
  childrenOf_isPrefix := fun id => (h.childrenOf_isPrefix id).trans (h'.childrenOf_isPrefix id)

theorem extends_add (scene : Scene) {cell : Cell} (hparent : cell.parent = none)
    (hchildren : cell.children.getD [] = []) : scene.Extends (scene.add cell).1 := by
  have hget : ∀ id : NodeId, id.index < scene.size → (scene.add cell).1.get? id = scene.get? id := by
    intro id hid
    rw [get?_add, if_neg (Nat.ne_of_lt hid)]
  refine ⟨?_, ?_, ?_, ?_, ?_⟩
  · rw [size_add]
    exact Nat.le_succ _
  · intro id hid
    rw [node?, node?, hget id hid]
  · intro id hid
    rw [isContainer, isContainer, children?, children?, hget id hid]
  · intro id parent h
    rw [parent?_add scene hparent, h]
  · intro id
    have hsame := childrenOf_add scene hchildren id
    exact ⟨[], (List.append_nil _).trans hsame.symm⟩

theorem extends_attach (scene : Scene) {parent child : NodeId} {children : List NodeId}
    (hknown : child.index < scene.size) (hdetached : scene.parent? child = none)
    (hne : child ≠ parent) (hchildren : scene.children? parent = some children) :
    scene.Extends (scene.attach parent child children) := by
  refine ⟨?_, ?_, ?_, ?_, ?_⟩
  · exact Nat.le_of_eq (size_attach ..).symm
  · intro id _
    exact scene.node?_attach children hne id
  · intro id _
    exact scene.isContainer_attach hne hchildren id
  · intro id holder h
    have hid : id ≠ child := by
      rintro rfl
      simp [hdetached] at h
    rw [parent?_attach scene children hne hknown, if_neg hid, h]
  · intro id
    have hgrown := childrenOf_attach scene hne hchildren id
    by_cases hid : id = parent
    · subst hid
      rw [if_pos rfl] at hgrown
      exact ⟨[child], hgrown.symm⟩
    · rw [if_neg hid] at hgrown
      exact ⟨[], (List.append_nil _).trans hgrown.symm⟩

theorem extends_edit (scene : Scene) (step : Edit) : scene.Extends (scene.edit step) := by
  cases step with
  | addContainer node => exact extends_add scene rfl rfl
  | addLeaf node => exact extends_add scene rfl rfl
  | append parent child =>
      simp only [edit]
      split
      · rename_i grown hgrown
        obtain ⟨hknown, hdetached, hne, -, children, hchildren, rfl⟩ :=
          (append_eq_ok_iff ..).mp hgrown
        exact extends_attach scene hknown hdetached hne hchildren
      · exact .refl scene

theorem extends_edited (scene : Scene) (edits : List Edit) :
    scene.Extends (scene.edited edits) := by
  induction edits generalizing scene with
  | nil => exact .refl scene
  | cons step edits ih => exact (extends_edit scene step).trans (ih (scene.edit step))

theorem Extends.accepts_eq {before after : Scene} (h : before.Extends after) (compound : Compound)
    {id : NodeId} (hid : id.index < before.size) :
    after.graph.accepts compound id = before.graph.accepts compound id := by
  change (after.node? id).any compound.accepts = (before.node? id).any compound.accepts
  rw [h.node?_eq id hid]

/-! ## What stands between a node and the start -/

namespace Extends

variable {before after : Scene} (h : before.Extends after) (hbefore : before.Linked)
  (hafter : after.Linked)

include h hbefore hafter

theorem ancestors_isPrefix (id : NodeId) : before.ancestors id <+: after.ancestors id :=
  (hbefore.lineage_ancestors id).isPrefix h.parent?_eq (hafter.lineage_ancestors id)

/-- What stands between a node and one of its old ancestors stood there before. -/
theorem mem_ancestors_of_between {start middle id : NodeId} (hstart : start ∈ before.ancestors id)
    (hmiddle : middle ∈ after.ancestors id) (habove : start ∈ after.ancestors middle) :
    start ∈ before.ancestors middle := by
  have hold := hbefore.lineage_ancestors id
  have hnew := hafter.lineage_ancestors id
  obtain ⟨more, hmore⟩ := h.ancestors_isPrefix hbefore hafter id
  obtain ⟨front, back, hsplit⟩ := List.append_of_mem hstart
  rw [hsplit] at hold
  rw [← hmore, hsplit, List.append_assoc, List.cons_append] at hmiddle hnew
  have hrest : after.ancestors start = back ++ more :=
    (hafter.lineage_ancestors start).unique hnew.of_append
  rcases List.mem_append.mp hmiddle with hmem | hmem
  · obtain ⟨first, second, rfl⟩ := List.append_of_mem hmem
    rw [List.append_assoc, List.cons_append] at hold
    rw [(hbefore.lineage_ancestors middle).unique hold.of_append]
    simp
  · -- Above the start, the way would come back to the start.
    have hself : start ∈ after.ancestors start := by
      rcases List.mem_cons.mp hmem with rfl | hmem
      · exact habove
      · rw [← hrest] at hmem
        exact hafter.mem_ancestors_trans habove hmem
    exact absurd hself (hafter.lineage_ancestors start).not_mem

/-- Children that are new stood in no container before. -/
theorem childrenOf_eq_append (id : NodeId) :
    ∃ more, after.childrenOf id = before.childrenOf id ++ more ∧
      ∀ child ∈ more, after.parent? child = some id ∧ before.ancestors child = [] := by
  obtain ⟨more, hmore⟩ := h.childrenOf_isPrefix id
  refine ⟨more, hmore.symm, ?_⟩
  intro child hchild
  have hparent : after.parent? child = some id := by
    rw [← hafter.mem_childrenOf_iff, ← hmore]
    exact List.mem_append_right _ hchild
  refine ⟨hparent, ?_⟩
  have hlineage := hbefore.lineage_ancestors child
  generalize before.ancestors child = chain at hlineage
  cases hlineage with
  | top => rfl
  | @above _ holder _ hholder _ =>
      -- The container it stood in would be this one, which would list it twice.
      have hsame := h.parent?_eq child holder hholder
      rw [hparent] at hsame
      cases hsame
      have hold := (hbefore.mem_childrenOf_iff id child).mpr hholder
      have hnodup := hafter.nodup_childrenOf id
      rw [← hmore] at hnodup
      exact absurd hchild (List.disjoint_of_nodup_append hnodup hold)

end Extends

/-- Whether a node stands below a start. -/
def isBelow (scene : Scene) (start id : NodeId) : Bool :=
  decide (start ∈ scene.ancestors id)

@[simp] theorem isBelow_eq_true_iff (scene : Scene) (start id : NodeId) :
    scene.isBelow start id = true ↔ start ∈ scene.ancestors id :=
  decide_eq_true_iff

/-- Whether a node is the start or stands below it. -/
def isWithin (scene : Scene) (start id : NodeId) : Bool :=
  id == start || scene.isBelow start id

@[simp] theorem isWithin_eq_true_iff (scene : Scene) (start id : NodeId) :
    scene.isWithin start id = true ↔ id = start ∨ start ∈ scene.ancestors id := by
  simp [isWithin]

namespace Linked

variable {scene : Scene} (h : scene.Linked)

include h

/-- Children of what is within a subtree are below its top. -/
theorem mem_ancestors_of_isWithin {start id child : NodeId} (hid : scene.isWithin start id = true)
    (hparent : scene.parent? child = some id) : start ∈ scene.ancestors child := by
  rw [h.ancestors_of_parent hparent, List.mem_cons]
  exact ((scene.isWithin_eq_true_iff start id).mp hid).imp_left Eq.symm

/-- What a compound finds from within a subtree stands below its top. -/
theorem mem_ancestors_of_mem_narrow {start id : NodeId} {context : List NodeId}
    {compound : Compound} (hcontext : ∀ node ∈ context, scene.isWithin start node = true)
    (hid : id ∈ scene.graph.narrow context compound) : start ∈ scene.ancestors id := by
  rw [Graph.mem_narrow_iff] at hid
  obtain ⟨node, hnode, hcandidate⟩ := hid
  obtain ⟨-, hstep⟩ := (h.mem_candidates_iff compound node id).mp hcandidate
  split at hstep
  · exact h.mem_ancestors_of_isWithin (hcontext node hnode) hstep
  · rcases (scene.isWithin_eq_true_iff start node).mp (hcontext node hnode) with rfl | habove
    · exact hstep
    · exact h.mem_ancestors_trans habove hstep

theorem lt_size_of_mem_ancestors {id node : NodeId} (hmem : node ∈ scene.ancestors id) :
    id.index < scene.size := by
  have hlineage := h.lineage_ancestors id
  generalize scene.ancestors id = chain at hmem hlineage
  cases hlineage with
  | top => cases hmem
  | above hparent _ => exact lt_size_of_parent? hparent

end Linked

namespace Extends

variable {before after : Scene} (h : before.Extends after) (hbefore : before.Linked)
  (hafter : after.Linked)

include h hbefore hafter

theorem isWithin_after {start id : NodeId} (hid : before.isWithin start id = true) :
    after.isWithin start id = true := by
  rw [isWithin_eq_true_iff] at hid ⊢
  exact hid.imp_right fun hmem => (h.ancestors_isPrefix hbefore hafter id).subset hmem

/-! ## What a query looks at -/

theorem filter_childrenOf {start id : NodeId} (hid : before.isWithin start id = true) :
    (after.childrenOf id).filter (before.isBelow start) = before.childrenOf id := by
  obtain ⟨more, hmore, hnew⟩ := h.childrenOf_eq_append hbefore hafter id
  have hkept : ∀ child ∈ before.childrenOf id, before.isBelow start child = true := by
    intro child hchild
    rw [isBelow_eq_true_iff]
    exact hbefore.mem_ancestors_of_isWithin hid ((hbefore.mem_childrenOf_iff id child).mp hchild)
  have hdropped : ∀ child ∈ more, ¬ before.isBelow start child = true := by
    intro child hchild
    simp [(hnew child hchild).2]
  rw [hmore, List.filter_append, List.filter_eq_self.mpr hkept, List.filter_eq_nil_iff.mpr hdropped,
    List.append_nil]

/-- A subtree that was put under an old node holds nothing that was below the start. -/
theorem filter_new_subtree {start id child : NodeId} (hid : before.isWithin start id = true)
    (hparent : after.parent? child = some id) (hnew : before.ancestors child = []) :
    (child :: after.links.below child).filter (before.isBelow start) = [] := by
  rw [List.filter_eq_nil_iff]
  intro node hnode hbelow
  rw [isBelow_eq_true_iff] at hbelow
  have hchild : start ∈ before.ancestors child := by
    rcases List.mem_cons.mp hnode with rfl | hnode
    · exact hbelow
    · have habove := hafter.mem_ancestors_of_isWithin (h.isWithin_after hbefore hafter hid) hparent
      exact h.mem_ancestors_of_between hbefore hafter hbelow
        ((hafter.mem_below_iff child node).mp hnode) habove
  rw [hnew] at hchild
  cases hchild

theorem filter_below_of_children {start id : NodeId} (hid : before.isWithin start id = true)
    (hchildren : ∀ child ∈ before.childrenOf id,
      (after.links.below child).filter (before.isBelow start) = before.links.below child) :
    (after.links.below id).filter (before.isBelow start) = before.links.below id := by
  obtain ⟨more, hmore, hnew⟩ := h.childrenOf_eq_append hbefore hafter id
  have hdropped : more.flatMap (fun child =>
      (child :: after.links.below child).filter (before.isBelow start)) = [] := by
    rw [List.flatMap_eq_nil_iff]
    intro child hchild
    obtain ⟨hparent, hdetached⟩ := hnew child hchild
    exact h.filter_new_subtree hbefore hafter hid hparent hdetached
  rw [hafter.below_eq, hbefore.below_eq, List.filter_flatMap, hmore, List.flatMap_append, hdropped,
    List.append_nil]
  apply List.flatMap_congr
  intro child hchild
  have hbelow : before.isBelow start child = true := by
    rw [isBelow_eq_true_iff]
    exact hbefore.mem_ancestors_of_isWithin hid ((hbefore.mem_childrenOf_iff id child).mp hchild)
  rw [List.filter_cons_of_pos hbelow, hchildren child hchild]

/-- Of the nodes below an old node, those that were below the start stand in the old order. -/
theorem filter_below {start id : NodeId} (hid : before.isWithin start id = true) :
    (after.links.below id).filter (before.isBelow start) = before.links.below id := by
  have hshallow := hafter.shallow id
  -- Every child has one level less below it.
  generalize after.links.size = levels at hshallow
  induction levels generalizing id with
  | zero =>
      apply h.filter_below_of_children hbefore hafter hid
      intro child hchild
      have hnone : after.childrenOf id = [] := hshallow
      have hmem := (h.childrenOf_isPrefix id).subset hchild
      rw [hnone] at hmem
      cases hmem
  | succ levels ih =>
      apply h.filter_below_of_children hbefore hafter hid
      intro child hchild
      have hparent := (hbefore.mem_childrenOf_iff id child).mp hchild
      have hwithin : before.isWithin start child = true := by
        rw [isWithin_eq_true_iff]
        exact .inr (hbefore.mem_ancestors_of_isWithin hid hparent)
      exact ih hwithin (hshallow child ((h.childrenOf_isPrefix id).subset hchild))

theorem filter_scope {start id : NodeId} (compound : Compound)
    (hid : before.isWithin start id = true) :
    (after.scope compound id).filter (before.isBelow start) = before.scope compound id := by
  unfold scope
  cases compound.childOnly with
  | true => exact h.filter_childrenOf hbefore hafter hid
  | false => exact h.filter_below hbefore hafter hid

/-- From a node that came below the start later, nothing is reached that was below it. -/
theorem filter_scope_eq_nil {start id : NodeId} (compound : Compound)
    (hid : after.isWithin start id = true) (hnew : before.isWithin start id = false) :
    (after.scope compound id).filter (before.isBelow start) = [] := by
  have hout : id ≠ start ∧ start ∉ before.ancestors id := by
    rw [← not_or, ← before.isWithin_eq_true_iff, hnew]
    decide
  have habove := ((after.isWithin_eq_true_iff start id).mp hid).resolve_left hout.1
  rw [List.filter_eq_nil_iff]
  intro node hnode hbelow
  rw [isBelow_eq_true_iff] at hbelow
  have hancestor := hafter.mem_ancestors_of_mem_scope hnode
  exact hout.2 (h.mem_ancestors_of_between hbefore hafter hbelow hancestor habove)

/-! ## What a query finds -/

omit hafter in
theorem filter_candidates_eq {start id : NodeId} (compound : Compound) :
    (after.graph.candidates compound id).filter (before.isBelow start) =
      ((after.scope compound id).filter (before.isBelow start)).filter
        (before.graph.accepts compound) := by
  rw [candidates_eq, List.filter_filter, List.filter_filter]
  apply List.filter_congr
  intro node _
  cases hbelow : before.isBelow start node with
  | false => simp
  | true =>
      have hknown := hbefore.lt_size_of_mem_ancestors ((before.isBelow_eq_true_iff ..).mp hbelow)
      rw [h.accepts_eq compound hknown, Bool.true_and, Bool.and_true]

/-- A compound finds what it found, from the nodes of the context that were there. -/
theorem filter_narrow {start : NodeId} {context : List NodeId} (compound : Compound)
    (hcontext : ∀ id ∈ context, after.isWithin start id = true) :
    (after.graph.narrow context compound).filter (before.isBelow start) =
      before.graph.narrow (context.filter (before.isWithin start)) compound := by
  rw [Graph.narrow_eq, Graph.narrow_eq, ← eraseDups_filter, List.filter_flatMap]
  congr 1
  rw [← flatMap_filter_of_eq_nil (before.isWithin start)]
  · apply List.flatMap_congr
    intro id hid
    have hwithin := (List.mem_filter.mp hid).2
    rw [h.filter_candidates_eq hbefore, h.filter_scope hbefore hafter compound hwithin,
      candidates_eq]
  · intro id hid hout
    rw [h.filter_candidates_eq hbefore,
      h.filter_scope_eq_nil hbefore hafter compound (hcontext id hid) hout]
    rfl

theorem filter_foldl_narrow {start : NodeId} (compound : Compound) (rest : List Compound)
    (context : List NodeId) (hcontext : ∀ id ∈ context, after.isWithin start id = true) :
    ((compound :: rest).foldl after.graph.narrow context).filter (before.isBelow start) =
      (compound :: rest).foldl before.graph.narrow (context.filter (before.isWithin start)) := by
  induction rest generalizing compound context with
  | nil => exact h.filter_narrow hbefore hafter compound hcontext
  | cons next rest ih =>
      have hnext : ∀ id ∈ after.graph.narrow context compound, start ∈ after.ancestors id :=
        fun id hid => hafter.mem_ancestors_of_mem_narrow hcontext hid
      -- The start itself is never found, so that it makes no difference from here on.
      have hsame : (after.graph.narrow context compound).filter (before.isWithin start) =
          (after.graph.narrow context compound).filter (before.isBelow start) := by
        apply List.filter_congr
        intro id hid
        have hne : id ≠ start := by
          rintro rfl
          exact (hafter.lineage_ancestors id).not_mem (hnext id hid)
        simp [isWithin, hne]
      have hwithin : ∀ id ∈ after.graph.narrow context compound,
          after.isWithin start id = true := by
        intro id hid
        rw [isWithin_eq_true_iff]
        exact .inr (hnext id hid)
      have hrest := ih next (after.graph.narrow context compound) hwithin
      rw [hsame, h.filter_narrow hbefore hafter compound hcontext] at hrest
      exact hrest

end Extends

/--
A scene that grows keeps its nodes, and what a query found before is what it finds of the
nodes that stood below the start before, in the same order.
-/
theorem matching_eq_filter_of_grown (root : Node) (built more : List Edit) :
    let before := (ofRoot root).edited built
    let after := before.edited more
    before.Extends after ∧
      ∀ compounds start, before.graph.matching compounds start =
        (after.graph.matching compounds start).filter (before.isBelow start) := by
  intro before after
  have hextends : before.Extends after := extends_edited before more
  have hbefore : before.Linked := linked_edited (linked_ofRoot root) built
  have hafter : after.Linked := linked_edited hbefore more
  refine ⟨hextends, ?_⟩
  intro compounds start
  cases compounds with
  | nil => rfl
  | cons compound rest =>
      have hstart : ∀ id ∈ [start], after.isWithin start id = true := by
        simp
      have hfound := hextends.filter_foldl_narrow hbefore hafter compound rest [start] hstart
      have hkept : [start].filter (before.isWithin start) = [start] := by
        simp
      rw [hkept] at hfound
      rw [Graph.matching_cons, Graph.matching_cons, hfound]

end Scene

end Scenery
