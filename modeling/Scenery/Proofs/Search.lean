import Mathlib.Logic.Relation
import Scenery.Proofs.Forest

/-!
# Searching without a bound

The search below a node opens no more levels than the scene has nodes.  Here is
the search that has no such bound, as a relation between the nodes still to
visit and what is found: it need not end for every scene.  Where no path is
longer than the bound it ends, and finds what the bounded search finds.  In a
forest that is so, and what stands below a node is what has it among its
ancestors.
-/

namespace Scenery

namespace Links

/--
The search without a bound: with these nodes still to visit and this state of the
predicate it ends, with the nodes that were accepted in the order of the visits.
-/
inductive Traverses (links : Links) (accept : NodeId → σ → Bool × σ) :
    List NodeId → σ → List NodeId → σ → Prop where
  | done {state : σ} : Traverses links accept [] state [] state
  | visit {id : NodeId} {rest found : List NodeId} {state last : σ}
      (onward : Traverses links accept (links.childrenOf id ++ rest) (accept id state).2
        found last) :
      Traverses links accept (id :: rest) state
        (if (accept id state).1 then id :: found else found) last

/-- No path below the node has more than this many steps. -/
def Shallow (links : Links) : Nat → NodeId → Prop
  | 0, id => links.childrenOf id = []
  | levels + 1, id => ∀ child ∈ links.childrenOf id, links.Shallow levels child

/-- The nodes with what stands below them, one subtree after the other. -/
def subtrees (links : Links) (nodes : List NodeId) : List NodeId :=
  nodes.flatMap fun id => id :: links.below id

theorem sublist_subtrees (links : Links) (nodes : List NodeId) :
    nodes.Sublist (links.subtrees nodes) := by
  induction nodes with
  | nil => exact List.Sublist.refl _
  | cons id rest ih =>
      rw [subtrees, List.flatMap_cons, List.cons_append]
      exact (ih.trans (List.sublist_append_right _ _)).cons_cons id

variable {links : Links}

theorem map_opened {levels : Nat} {id : NodeId} (h : links.Shallow levels id) :
    (links.opened levels id).map (·.1) = links.childrenOf id := by
  cases levels with
  | zero => exact h.symm
  | succ levels => simp [opened, Function.comp_def]

theorem shallow_of_mem_opened {levels : Nat} {id : NodeId} (h : links.Shallow levels id)
    {entry : NodeId × Nat} (hentry : entry ∈ links.opened levels id) :
    links.Shallow entry.2 entry.1 := by
  cases levels with
  | zero => simp [opened] at hentry
  | succ levels =>
      obtain ⟨child, hchild, rfl⟩ := List.mem_map.mp hentry
      exact h child hchild

/-- Where the bound is never met, visiting nodes is the search without a bound. -/
theorem traverses_visit (accept : NodeId → σ → Bool × σ) (pending : List (NodeId × Nat))
    (found : Array NodeId) (state : σ) (h : ∀ entry ∈ pending, links.Shallow entry.2 entry.1) :
    ∃ more, (links.visit accept pending found state).1.toList = found.toList ++ more ∧
      links.Traverses accept (pending.map (·.1)) state more
        (links.visit accept pending found state).2 := by
  match pending with
  | [] => exact ⟨[], by simp [visit], by simpa [visit] using .done⟩
  | (id, levels) :: rest =>
      -- What is opened has one level less to go, so the bound is not met there either.
      have hid : links.Shallow levels id := h (id, levels) List.mem_cons_self
      have hnext : ∀ entry ∈ links.opened levels id ++ rest, links.Shallow entry.2 entry.1 := by
        intro entry hentry
        rcases List.mem_append.mp hentry with hentry | hentry
        · exact shallow_of_mem_opened hid hentry
        · exact h entry (List.mem_cons_of_mem _ hentry)
      obtain ⟨more, hfound, honward⟩ := traverses_visit accept (links.opened levels id ++ rest)
        (if (accept id state).1 then found.push id else found) (accept id state).2 hnext
      rw [List.map_append, map_opened hid] at honward
      refine ⟨if (accept id state).1 then id :: more else more, ?_, ?_⟩
      · rw [visit, hfound]
        cases (accept id state).1 <;> simp
      · rw [visit]
        exact .visit honward
  termination_by links.pendingVisits pending
  decreasing_by exact links.pendingVisits_opened_append_lt id levels rest

/-- Where no path is too long, the search without a bound ends with what the search finds. -/
theorem exists_traverses_of_shallow (accept : NodeId → σ → Bool × σ) (state : σ) {id : NodeId}
    {children : List NodeId} (hchildren : links.children? id = some children)
    (h : ∀ child ∈ children, links.Shallow links.size child) :
    ∃ found last, links.searchWith? id accept state = some (found, last) ∧
      links.Traverses accept children state found last := by
  have hpending : ∀ entry ∈ children.map (·, links.size), links.Shallow entry.2 entry.1 := by
    intro entry hentry
    obtain ⟨child, hchild, rfl⟩ := List.mem_map.mp hentry
    exact h child hchild
  obtain ⟨more, hfound, htraverses⟩ := traverses_visit accept _ #[] state hpending
  refine ⟨more, _, ?_, by simpa [Function.comp_def] using htraverses⟩
  simp only [searchWith?, hchildren, Option.map_some, hfound]
  rfl

/-- Below a node that can have no children there is nothing to visit. -/
theorem traverses_search (h : ∀ id, links.Shallow links.size id) (accept : NodeId → Bool)
    (id : NodeId) :
    links.Traverses (fun node (_ : Unit) => (accept node, ())) (links.childrenOf id) ()
      ((links.graph.search? id accept).getD []) () := by
  unfold childrenOf
  cases hchildren : links.children? id with
  | none =>
      have hsearch : links.graph.search? id accept = none := by
        simp [graph, search?, searchWith?, hchildren]
      rw [hsearch]
      exact .done
  | some children =>
      obtain ⟨found, last, hfound, htraverses⟩ :=
        exists_traverses_of_shallow (fun node (_ : Unit) => (accept node, ())) () hchildren
          fun child _ => h child
      have hsearch : links.graph.search? id accept = some found := by
        show (links.searchWith? id _ ()).map (·.1) = some found
        rw [hfound]
        rfl
      rw [hsearch]
      exact htraverses

/-- Where no path is too long, the nodes below a node are those that child steps lead to. -/
theorem mem_belowUpTo_iff {levels : Nat} {id node : NodeId} (h : links.Shallow levels id) :
    node ∈ links.belowUpTo levels id ↔
      Relation.TransGen (fun parent child => child ∈ links.childrenOf parent) id node := by
  rw [Relation.TransGen.head'_iff]
  induction levels generalizing id with
  | zero =>
      have hnone : links.childrenOf id = [] := h
      simp [belowUpTo, hnone]
  | succ levels ih =>
      simp only [belowUpTo, List.mem_flatMap, List.mem_cons]
      refine exists_congr fun child => and_congr_right fun hchild => ?_
      rw [ih (h child hchild), Relation.reflTransGen_iff_eq_or_transGen,
        Relation.TransGen.head'_iff]

/-- Levels below the deepest node add nothing. -/
theorem belowUpTo_eq_of_shallow {levels more : Nat} {id : NodeId} (h : links.Shallow levels id)
    (hle : levels ≤ more) : links.belowUpTo more id = links.belowUpTo levels id := by
  induction levels generalizing id more with
  | zero =>
      have hnone : links.childrenOf id = [] := h
      cases more <;> simp [belowUpTo, hnone]
  | succ levels ih =>
      cases more with
      | zero => omega
      | succ more =>
          rw [belowUpTo, belowUpTo]
          apply List.flatMap_congr
          intro child hchild
          rw [ih (h child hchild) (Nat.le_of_succ_le_succ hle)]

/-- In the order of the tree each child stands before what stands below it. -/
theorem below_eq (h : ∀ id, links.Shallow links.size id) (id : NodeId) :
    links.below id =
      (links.childrenOf id).flatMap fun child => child :: links.below child := by
  rw [below, belowUpTo]
  apply List.flatMap_congr
  intro child _
  rw [below, belowUpTo_eq_of_shallow (h child) (Nat.le_succ _)]

end Links

namespace Scene

namespace Linked

variable {scene : Scene} (h : scene.Linked)

include h

theorem ancestors_of_parent {child parent : NodeId} (hparent : scene.parent? child = some parent) :
    scene.ancestors child = parent :: scene.ancestors parent :=
  (h.lineage_ancestors child).unique (.above hparent (h.lineage_ancestors parent))

/-- Each step down lengthens the way up, which is shorter than the scene is large. -/
theorem shallow_of_size_le {levels : Nat} {id : NodeId}
    (hlevels : scene.size ≤ (scene.ancestors id).length + levels) :
    scene.links.Shallow levels id := by
  induction levels generalizing id with
  | zero =>
      have hlength := h.length_lineage_lt (h.lineage_ancestors id)
      omega
  | succ levels ih =>
      intro child hchild
      have hparent := (h.mem_childrenOf_iff id child).mp hchild
      apply ih
      rw [h.ancestors_of_parent hparent, List.length_cons]
      omega

theorem shallow (id : NodeId) : scene.links.Shallow scene.links.size id :=
  h.shallow_of_size_le (Nat.le_add_left _ _)

theorem mem_ancestors_iff (id node : NodeId) :
    id ∈ scene.ancestors node ↔
      Relation.TransGen (fun parent child => child ∈ scene.links.childrenOf parent) id node := by
  constructor
  · intro hmem
    have hlineage := h.lineage_ancestors node
    generalize scene.ancestors node = chain at hmem hlineage
    induction hlineage with
    | top => simp at hmem
    | above hup _ ih =>
        have hstep := (h.mem_childrenOf_iff _ _).mpr hup
        rcases List.mem_cons.mp hmem with rfl | hmem
        · exact .single hstep
        · exact (ih hmem).tail hstep
  · intro hpath
    induction hpath with
    | single hstep =>
        rw [h.ancestors_of_parent ((h.mem_childrenOf_iff _ _).mp hstep)]
        exact List.mem_cons_self
    | tail _ hstep ih =>
        rw [h.ancestors_of_parent ((h.mem_childrenOf_iff _ _).mp hstep)]
        exact List.mem_cons_of_mem _ ih

/-- What stands below a node is what has the node among its ancestors. -/
theorem mem_below_iff (id node : NodeId) :
    node ∈ scene.links.below id ↔ id ∈ scene.ancestors node := by
  have hshallow : scene.links.Shallow (scene.links.size + 1) id := fun child _ => h.shallow child
  rw [Links.below, Links.mem_belowUpTo_iff hshallow, h.mem_ancestors_iff]

theorem below_eq (id : NodeId) :
    scene.links.below id =
      (scene.childrenOf id).flatMap fun child => child :: scene.links.below child :=
  Links.below_eq h.shallow id

/-- What is below a node is one of its children or below one. -/
theorem mem_ancestors_iff_exists_child (id node : NodeId) :
    id ∈ scene.ancestors node ↔
      ∃ child ∈ scene.childrenOf id, node = child ∨ child ∈ scene.ancestors node := by
  simp only [← h.mem_below_iff, h.below_eq id, List.mem_flatMap, List.mem_cons]

/-- Two children of a node have nothing below them in common. -/
theorem disjoint_subtrees {id first second : NodeId} (hfirst : first ∈ scene.childrenOf id)
    (hsecond : second ∈ scene.childrenOf id) (hne : first ≠ second) :
    List.Disjoint (first :: scene.links.below first) (second :: scene.links.below second) := by
  have habove : ∀ {top node : NodeId}, node ∈ top :: scene.links.below top →
      top ∈ node :: scene.ancestors node := by
    intro top node hnode
    rcases List.mem_cons.mp hnode with heq | hnode
    · rw [heq]
      exact List.mem_cons_self
    · exact List.mem_cons_of_mem node ((h.mem_below_iff top node).mp hnode)
  intro node hnode hnode'
  have hsame : scene.ancestors first = scene.ancestors second := by
    rw [h.ancestors_of_parent ((h.mem_childrenOf_iff id first).mp hfirst),
      h.ancestors_of_parent ((h.mem_childrenOf_iff id second).mp hsecond)]
  have hlineage := h.lineage_ancestors first
  have hlineage' := h.lineage_ancestors second
  rcases (h.lineage_ancestors node).comparable (habove hnode) (habove hnode') hlineage hlineage'
    with heq | hmem | hmem
  · exact hne heq
  · rw [hsame] at hmem
    exact hlineage'.not_mem hmem
  · rw [← hsame] at hmem
    exact hlineage.not_mem hmem

/-- No node stands twice below another. -/
theorem nodup_below (id : NodeId) : (scene.links.below id).Nodup := by
  have hshallow := h.shallow id
  generalize scene.links.size = levels at hshallow
  induction levels generalizing id with
  | zero =>
      have hnone : scene.childrenOf id = [] := hshallow
      rw [h.below_eq, hnone]
      exact List.nodup_nil
  | succ levels ih =>
      rw [h.below_eq, List.nodup_flatMap]
      constructor
      · intro child hchild
        refine List.nodup_cons.mpr ⟨?_, ih child (hshallow child hchild)⟩
        rw [h.mem_below_iff]
        exact (h.lineage_ancestors child).not_mem
      · refine (h.nodup_childrenOf id).imp_of_mem ?_
        intro first second hfirst hsecond hne
        exact h.disjoint_subtrees hfirst hsecond hne

/-- The search without a bound ends with what the search finds; a leaf has nothing to visit. -/
theorem traverses_search (accept : NodeId → Bool) (id : NodeId) :
    scene.links.Traverses (fun node (_ : Unit) => (accept node, ())) (scene.links.childrenOf id) ()
      ((scene.graph.search? id accept).getD []) () :=
  Links.traverses_search h.shallow accept id

end Linked

end Scene

end Scenery
