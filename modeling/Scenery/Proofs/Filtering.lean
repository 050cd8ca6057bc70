import Scenery.Proofs.Paths
import Scenery.Proofs.Visiting

/-!
# Conditions as filters

In which order a search comes by its nodes does not depend on what it looks for.  One
more condition in a compound therefore takes nodes out of what the compound finds and
leaves the others where they were, also where a node is reached several times or has no
data.  So a compound is told by the set of its conditions: their order and their
repetitions count for nothing, in whatever place of a selector the compound stands.
-/

namespace Scenery

open Selector (Compound Simple)
open Links (Walk)

/-! ## The order of a search -/

/-- The walk goes through the same nodes whatever it accepts, if it ends for one predicate. -/
theorem Links.Walk.Ends.exists_order {links : Links} {accept : NodeId → Bool}
    {walk last : Walk Unit}
    (h : Walk.Ends links (fun node _ => (accept node, ())) walk last) :
    ∃ order : List NodeId, ∀ (other : NodeId → Bool) (found : List NodeId),
      Walk.Ends links (fun node (_ : Unit) => (other node, ())) ⟨walk.stack, found, ()⟩
        ⟨[], found ++ order.filter other, ()⟩ := by
  induction h with
  | @here walk hnone =>
      have hstack : walk.stack = [] := by
        rw [Walk.round?, Option.map_eq_none_iff, List.getLast?_eq_none_iff] at hnone
        exact hnone
      refine ⟨[], ?_⟩
      intro other found
      rw [hstack, List.filter_nil, List.append_nil]
      exact .here (Walk.round?_nil ..)
  | @round walk next last hsome _ ih =>
      obtain ⟨order, horder⟩ := ih
      obtain ⟨stack, before, ⟨⟩⟩ := walk
      rcases List.eq_nil_or_concat stack with hempty | ⟨front, id, hstack⟩
      · subst hempty
        cases hsome
      · rw [List.concat_eq_append] at hstack
        subst hstack
        rw [Walk.round?_concat, Option.some_inj] at hsome
        subst hsome
        refine ⟨id :: order, ?_⟩
        intro other found
        refine .round (Walk.round?_concat ..) ?_
        have hrest := horder other (if other id then found ++ [id] else found)
        cases hid : other id <;> simpa [hid] using hrest

namespace Graph

/-- The data and the children of a graph.  A walk has no use for the number of the nodes. -/
def links (graph : Graph) : Links where
  size := 0
  node? := graph.node?
  children? := graph.children?

/--
The search is the walk with a stack through the children, and comes to an end below every
node that can have children.
-/
def SearchesByWalk (graph : Graph) : Prop :=
  ∀ (id : NodeId) (accept : NodeId → Bool),
    match graph.children? id with
    | none => graph.search? id accept = none
    | some children =>
      ∃ found, graph.search? id accept = some found ∧
        Walk.Ends graph.links (fun node (_ : Unit) => (accept node, ()))
          ⟨children.reverse, [], ()⟩ ⟨[], found, ()⟩

variable {graph : Graph}

theorem SearchesByWalk.exists_order (h : graph.SearchesByWalk) (id : NodeId) :
    ∃ order : List NodeId, ∀ accept,
      (graph.search? id accept).getD [] = order.filter accept := by
  have hall := h id
  cases hchildren : graph.children? id with
  | none =>
      refine ⟨[], ?_⟩
      intro accept
      have hnone := hall accept
      rw [hchildren] at hnone
      simp only at hnone
      rw [hnone]
      rfl
  | some children =>
      rw [hchildren] at hall
      obtain ⟨_, -, hends⟩ := hall fun _ => true
      obtain ⟨order, horder⟩ := hends.exists_order
      refine ⟨order, ?_⟩
      intro accept
      obtain ⟨found, hfound, hlast⟩ := hall accept
      have hsame := hlast.unique (horder accept [])
      rw [List.nil_append, Walk.mk.injEq] at hsame
      rw [hfound, Option.getD_some, hsame.2.1]

/-- A compound finds what it accepts among nodes that are settled by where it looks. -/
theorem SearchesByWalk.exists_scope (h : graph.SearchesByWalk) (childOnly : Bool) (id : NodeId) :
    ∃ scope : List NodeId, ∀ compound : Compound, compound.childOnly = childOnly →
      graph.candidates compound id = scope.filter (graph.accepts compound) := by
  cases childOnly with
  | true =>
      refine ⟨(graph.children? id).getD [], ?_⟩
      intro compound hchild
      rw [candidates, if_pos hchild]
  | false =>
      obtain ⟨order, horder⟩ := h.exists_order id
      refine ⟨order, ?_⟩
      intro compound hall
      rw [candidates, hall]
      exact horder _

/-! ## One more condition -/

/-- Whether a node has data that meets a condition. -/
def meets (graph : Graph) (simple : Simple) (id : NodeId) : Bool :=
  (graph.node? id).any simple.accepts

theorem accepts_insert (graph : Graph) (front back : List Simple) (simple : Simple)
    (childOnly : Bool) (id : NodeId) :
    graph.accepts ⟨front ++ simple :: back, childOnly⟩ id =
      (graph.accepts ⟨front ++ back, childOnly⟩ id && graph.meets simple id) := by
  unfold accepts meets
  cases graph.node? id with
  | none => rfl
  | some node =>
      simp only [Option.any_some, Compound.accepts, List.all_append, List.all_cons]
      ac_rfl

theorem SearchesByWalk.candidates_insert (h : graph.SearchesByWalk) (front back : List Simple)
    (simple : Simple) (childOnly : Bool) (id : NodeId) :
    graph.candidates ⟨front ++ simple :: back, childOnly⟩ id =
      (graph.candidates ⟨front ++ back, childOnly⟩ id).filter (graph.meets simple) := by
  obtain ⟨scope, hscope⟩ := h.exists_scope childOnly id
  rw [hscope _ rfl, hscope _ rfl, List.filter_filter]
  apply List.filter_congr
  intro node _
  rw [accepts_insert, Bool.and_comm]

theorem SearchesByWalk.narrow_insert (h : graph.SearchesByWalk) (front back : List Simple)
    (simple : Simple) (childOnly : Bool) (context : List NodeId) :
    graph.narrow context ⟨front ++ simple :: back, childOnly⟩ =
      (graph.narrow context ⟨front ++ back, childOnly⟩).filter (graph.meets simple) := by
  rw [narrow_eq, narrow_eq, ← eraseDups_filter, List.filter_flatMap,
    funext (h.candidates_insert front back simple childOnly)]

theorem accepts_eq_of_mem_iff {compound other : Compound}
    (h : ∀ simple, simple ∈ compound.selectors ↔ simple ∈ other.selectors) (node : Node) :
    compound.accepts node = other.accepts node := by
  rw [Bool.eq_iff_iff, Compound.accepts_eq_true_iff, Compound.accepts_eq_true_iff]
  simp only [h]

/--
One more condition in the last compound keeps, of the nodes that were found, those that meet
it, in their order.  Selectors whose compounds have the same conditions, in any order and
any number, find the same nodes in the same order.
-/
theorem matching_insert_condition (h : graph.SearchesByWalk) (compounds : List Compound)
    (front back : List Simple) (simple : Simple) (childOnly : Bool) (start : NodeId) :
    graph.matching (compounds ++ [⟨front ++ simple :: back, childOnly⟩]) start =
        (graph.matching (compounds ++ [⟨front ++ back, childOnly⟩]) start).filter
          (fun id => (graph.node? id).any simple.accepts) ∧
      ∀ selector other : List Compound,
        List.Forall₂ (fun first second => first.childOnly = second.childOnly ∧
          ∀ condition, condition ∈ first.selectors ↔ condition ∈ second.selectors)
          selector other →
        graph.matching selector start = graph.matching other start := by
  constructor
  · rw [matching_concat, matching_concat, h.narrow_insert]
    rfl
  · intro selector other hsame
    apply graph.matching_congr
    exact hsame.imp fun _ _ halike => ⟨halike.1, accepts_eq_of_mem_iff halike.2⟩

end Graph

/-! ## Graphs without cycles -/

namespace Links

variable {links : Links}

/-- A walk asks for the children of the nodes and for nothing else. -/
theorem Walk.Ends.of_childrenOf_eq {other : Links} {accept : NodeId → σ → Bool × σ}
    {walk last : Walk σ} (h : Walk.Ends links accept walk last)
    (hsame : other.childrenOf = links.childrenOf) : Walk.Ends other accept walk last := by
  have hround : ∀ walk : Walk σ, Walk.round? other accept walk = Walk.round? links accept walk := by
    intro walk
    rw [Walk.round?, Walk.round?, hsame]
  induction h with
  | here hnone => exact .here ((hround _).trans hnone)
  | round hsome _ ih => exact .round ((hround _).trans hsome) ih

/-- Where no path is too long, the search is the walk. -/
theorem searchesByWalk_of_shallow (h : ∀ id, links.Shallow links.size id) :
    links.graph.SearchesByWalk := by
  intro id accept
  cases hchildren : links.graph.children? id with
  | none =>
      change links.search? id accept = none
      rw [search?_eq, Option.map_eq_none_iff]
      exact hchildren
  | some children =>
      have hknown : links.children? id = some children := hchildren
      have hahead : Walk.ahead links (⟨children.reverse, [], ()⟩ : Walk Unit) = links.below id := by
        rw [Walk.ahead, List.reverse_reverse, below_eq h, childrenOf, hknown]
        rfl
      have hends := ends_of_shallow h (fun node (_ : Unit) => (accept node, ()))
        ⟨children.reverse, [], ()⟩
      rw [hahead, fst_ask] at hends
      refine ⟨(links.below id).filter accept, ?_, hends.of_childrenOf_eq rfl⟩
      change links.search? id accept = _
      rw [search?_eq, hknown]
      rfl

end Links

namespace Graph

/-- A child listed twice and below two nodes, and a node without data. -/
theorem matching_insert_condition_shared_child :
    let links : Links := {
      size := 2
      node? := fun id => [some (.ofType "p" "PAGE"), none, some (.ofType "a" "RECT"),
        some (.ofType "b" "RECT"), some (.ofType "a" "TEXT")][id.index]?.join
      children? := fun id => [[⟨1⟩, ⟨2⟩, ⟨1⟩, ⟨3⟩, ⟨4⟩], [⟨3⟩, ⟨2⟩, ⟨4⟩]][id.index]? }
    let narrowed : List Compound := [⟨[.byType "rect", .byId "a", .all], false⟩]
    links.graph.SearchesByWalk ∧
      List.Forall₂ (fun first second : Compound => first.childOnly = second.childOnly ∧
        ∀ condition, condition ∈ first.selectors ↔ condition ∈ second.selectors)
        narrowed [⟨[.all, .byId "a", .byType "rect", .all], false⟩] ∧
      links.graph.matching [⟨[.byType "rect", .all], false⟩] .root = [⟨3⟩, ⟨2⟩] ∧
      links.graph.matching narrowed .root = [⟨2⟩] ∧
      links.graph.matching [⟨[.all, .byId "a", .byType "rect", .all], false⟩] .root = [⟨2⟩] := by
  intro links narrowed
  have hchildren : ∀ id child, child ∈ links.childrenOf id →
      id.index < links.size ∧ id.index < child.index := by
    rintro ⟨index⟩ child hchild
    rcases index with _ | _ | index <;> simp [links, Links.childrenOf] at hchild ⊢
    all_goals rcases hchild with rfl | rfl | rfl | rfl | rfl <;> decide
  have hacyclic : links.Acyclic := by
    refine Links.acyclic_of_lt ?_ fun id child hchild => (hchildren id child hchild).2
    intro id hne
    obtain ⟨child, hchild⟩ := List.exists_mem_of_ne_nil _ hne
    exact (hchildren id child hchild).1
  have hwalk := Links.searchesByWalk_of_shallow hacyclic.shallow
  have hsame : List.Forall₂ (fun first second : Compound => first.childOnly = second.childOnly ∧
      ∀ condition, condition ∈ first.selectors ↔ condition ∈ second.selectors)
      narrowed [⟨[.all, .byId "a", .byType "rect", .all], false⟩] := by
    refine .cons ⟨rfl, ?_⟩ .nil
    intro condition
    simp only [List.mem_cons]
    tauto
  have hfound : links.graph.matching [⟨[.byType "rect", .all], false⟩] .root = [⟨3⟩, ⟨2⟩] := by
    rw [matching_cons_eraseDups]
    decide +kernel
  obtain ⟨hinsert, hreorder⟩ :=
    matching_insert_condition hwalk [] [.byType "rect"] [.all] (.byId "a") false .root
  have hnarrowed : links.graph.matching narrowed .root = [⟨2⟩] := by
    refine hinsert.trans ?_
    simp only [List.nil_append, List.singleton_append]
    rw [hfound]
    decide +kernel
  exact ⟨hwalk, hsame, hfound, hnarrowed, (hreorder _ _ hsame).symm.trans hnarrowed⟩

end Graph

end Scenery
