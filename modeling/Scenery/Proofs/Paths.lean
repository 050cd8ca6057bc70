import Scenery.Proofs.Selecting

/-!
# Paths through a graph

Nothing in a search asks for a tree.  A graph may list a node below several
others, or several times below one, and may have children where it has no data;
if no way down comes back to where it began, every search ends, and matching
finds the nodes that a way through one node for each compound leads to.
-/

namespace Scenery

open Selector (Compound)

namespace Links

/-- One or more steps from a node to a child lead from the first node to the second. -/
def Below (links : Links) : NodeId → NodeId → Prop :=
  Relation.TransGen fun parent child => child ∈ links.childrenOf parent

/-- Only the nodes of the graph have children, and no node stands below itself. -/
structure Acyclic (links : Links) : Prop where
  lt_size : ∀ id, links.childrenOf id ≠ [] → id.index < links.size
  irreflexive : ∀ id, ¬ links.Below id id

/-- Whether the compounds, one node for each, lead from the first node down to the second. -/
def Leads (links : Links) : List Compound → NodeId → NodeId → Prop
  | [], start, id => id = start
  | compound :: rest, start, id =>
    ∃ next, links.graph.accepts compound next = true ∧
      (if compound.childOnly then next ∈ links.childrenOf start else links.Below start next) ∧
      links.Leads rest next id

variable {links : Links}

theorem childrenOf_ne_nil_of_below {id node : NodeId} (h : links.Below id node) :
    links.childrenOf id ≠ [] := by
  obtain ⟨child, hchild, -⟩ := Relation.TransGen.head'_iff.mp h
  exact List.ne_nil_of_mem hchild

/-- Numbers that grow on every way down keep it from coming back. -/
theorem acyclic_of_lt (hsize : ∀ id, links.childrenOf id ≠ [] → id.index < links.size)
    (hlt : ∀ id, ∀ child ∈ links.childrenOf id, id.index < child.index) : links.Acyclic := by
  have hbelow : ∀ {id node}, links.Below id node → id.index < node.index := by
    intro id node h
    induction h with
    | single hstep => exact hlt _ _ hstep
    | tail _ hstep ih => exact Nat.lt_trans ih (hlt _ _ hstep)
  exact ⟨hsize, fun id h => Nat.lt_irrefl _ (hbelow h)⟩

/-! ## No path is longer than the graph has nodes -/

theorem Acyclic.shallow_of_above (h : links.Acyclic) {levels : Nat} {id : NodeId}
    {above : List NodeId} (hnodup : above.Nodup) (habove : ∀ node ∈ above, links.Below node id)
    (hlevels : links.size ≤ above.length + levels) : links.Shallow levels id := by
  -- The nodes passed on the way down to `id` are distinct, and each of them has children.
  have hnew : (id :: above).Nodup :=
    List.nodup_cons.mpr ⟨fun hmem => h.irreflexive id (habove id hmem), hnodup⟩
  induction levels generalizing id above with
  | zero =>
      by_contra hchildren
      have hknown : ∀ node ∈ id :: above, node.index < links.size := by
        intro node hnode
        rcases List.mem_cons.mp hnode with rfl | hnode
        · exact h.lt_size node hchildren
        · exact h.lt_size node (childrenOf_ne_nil_of_below (habove node hnode))
      have hlength := length_le_of_nodup hnew hknown
      rw [List.length_cons] at hlength
      omega
  | succ levels ih =>
      intro child hchild
      have hchain : ∀ node ∈ id :: above, links.Below node child := by
        intro node hnode
        rcases List.mem_cons.mp hnode with rfl | hnode
        · exact .single hchild
        · exact (habove node hnode).tail hchild
      refine ih hnew hchain (by rw [List.length_cons]; omega) ?_
      exact List.nodup_cons.mpr ⟨fun hmem => h.irreflexive child (hchain child hmem), hnew⟩

theorem Acyclic.shallow (h : links.Acyclic) (id : NodeId) : links.Shallow links.size id :=
  h.shallow_of_above List.nodup_nil (List.forall_mem_nil _) (Nat.le_add_left _ _)

theorem Acyclic.mem_below_iff (h : links.Acyclic) (id node : NodeId) :
    node ∈ links.below id ↔ links.Below id node :=
  mem_belowUpTo_iff fun child _ => h.shallow child

/-! ## Matching follows the paths -/

theorem Acyclic.mem_candidates_iff (h : links.Acyclic) (compound : Compound) (id node : NodeId) :
    node ∈ links.graph.candidates compound id ↔
      links.graph.accepts compound node = true ∧
        if compound.childOnly then node ∈ links.childrenOf id else links.Below id node := by
  rw [links.candidates_eq, List.mem_filter, and_comm]
  cases compound.childOnly with
  | true => rfl
  | false => exact and_congr_right fun _ => h.mem_below_iff id node

theorem Acyclic.mem_foldl_narrow_iff (h : links.Acyclic) (compounds : List Compound)
    (context : List NodeId) (id : NodeId) :
    id ∈ compounds.foldl links.graph.narrow context ↔
      ∃ node ∈ context, links.Leads compounds node id := by
  induction compounds generalizing context with
  | nil => simp [Leads]
  | cons compound rest ih =>
      rw [List.foldl_cons, ih]
      simp only [Graph.mem_narrow_iff, h.mem_candidates_iff, Leads]
      constructor
      · intro hfound
        obtain ⟨next, ⟨node, hnode, haccepts, hstep⟩, hleads⟩ := hfound
        exact ⟨node, hnode, next, haccepts, hstep, hleads⟩
      · intro hpath
        obtain ⟨node, hnode, next, haccepts, hstep, hleads⟩ := hpath
        exact ⟨next, ⟨node, hnode, haccepts, hstep⟩, hleads⟩

/-- Every compound goes at least one step down. -/
theorem below_of_leads {compound : Compound} {rest : List Compound} {start id : NodeId}
    (h : links.Leads (compound :: rest) start id) : links.Below start id := by
  obtain ⟨next, _, hstep, hleads⟩ := h
  have hnext : links.Below start next := by
    split at hstep
    · exact .single hstep
    · exact hstep
  cases rest with
  | nil =>
      cases hleads
      exact hnext
  | cons second rest => exact hnext.trans (below_of_leads hleads)

/--
In a graph without cycles every search ends, and matching finds each node once to which the
compounds lead from the start, one node for each compound; the start is none of them.
-/
theorem mem_matching_iff_leads (h : links.Acyclic) (compounds : List Compound) (start : NodeId) :
    (∀ compound id, links.Traverses
        (fun node (_ : Unit) => (links.graph.accepts compound node, ())) (links.childrenOf id) ()
        ((links.graph.search? id (links.graph.accepts compound)).getD []) ()) ∧
      (links.graph.matching compounds start).Nodup ∧
      start ∉ links.graph.matching compounds start ∧
      ∀ id, id ∈ links.graph.matching compounds start ↔
        compounds ≠ [] ∧ links.Leads compounds start id := by
  have hleads : ∀ id, id ∈ links.graph.matching compounds start ↔
      compounds ≠ [] ∧ links.Leads compounds start id := by
    intro id
    cases compounds with
    | nil => simp
    | cons compound rest =>
        rw [Graph.matching_cons, h.mem_foldl_narrow_iff]
        simp
  refine ⟨fun compound id => traverses_search h.shallow _ id, Graph.nodup_matching .., ?_, hleads⟩
  intro hmem
  obtain ⟨hne, hstart⟩ := (hleads start).mp hmem
  obtain ⟨compound, rest, rfl⟩ := List.exists_cons_of_ne_nil hne
  exact h.irreflexive start (below_of_leads hstart)

/-- Children listed twice and below two nodes, a node without data and a leaf. -/
theorem leads_through_shared_children :
    let links : Links := {
      size := 4
      node? := fun id => if id.index = 1 then none else some (.ofType "n" "GROUP")
      children? := fun id => [[⟨1⟩, ⟨2⟩, ⟨2⟩], [⟨3⟩], [⟨3⟩, ⟨4⟩, ⟨3⟩], [⟨4⟩]][id.index]? }
    let compounds : List Compound := [⟨[.all], false⟩, ⟨[.byType "group"], true⟩]
    links.Acyclic ∧ links.Leads compounds .root ⟨4⟩ ∧
      ⟨4⟩ ∈ links.graph.matching compounds .root ∧ ⟨2⟩ ∉ links.graph.matching compounds .root := by
  intro links compounds
  have hchildren : ∀ id child, child ∈ links.childrenOf id →
      id.index < links.size ∧ id.index < child.index ∧ (child = ⟨2⟩ → id = .root) := by
    rintro ⟨index⟩ child hchild
    rcases index with _ | _ | _ | _ | index <;> simp [links, childrenOf] at hchild ⊢
    all_goals rcases hchild with rfl | rfl | rfl <;> decide
  have hacyclic : links.Acyclic := by
    refine acyclic_of_lt ?_ fun id child hchild => (hchildren id child hchild).2.1
    intro id hne
    obtain ⟨child, hchild⟩ := List.exists_mem_of_ne_nil _ hne
    exact (hchildren id child hchild).1
  have hstep : (⟨4⟩ : NodeId) ∈ links.childrenOf ⟨2⟩ := by decide
  have hleads : links.Leads compounds .root ⟨4⟩ :=
    ⟨⟨2⟩, by decide, .single (by decide), ⟨4⟩, by decide +kernel, hstep, rfl⟩
  have hnone : ¬ links.Leads compounds .root ⟨2⟩ := by
    intro hpath
    obtain ⟨next, _, hbelow, _, _, hchild, heq⟩ := hpath
    have hroot := (hchildren next _ hchild).2.2 heq.symm
    exact hacyclic.irreflexive _ (hroot ▸ hbelow)
  obtain ⟨-, -, -, hmem⟩ := mem_matching_iff_leads hacyclic compounds .root
  have hne : compounds ≠ [] := List.cons_ne_nil _ _
  exact ⟨hacyclic, hleads, (hmem _).mpr ⟨hne, hleads⟩, fun h => hnone ((hmem _).mp h).2⟩

end Links

end Scenery
