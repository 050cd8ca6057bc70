import Mathlib.Data.List.Forall2
import Scenery.Matching

/-!
# Composing selectors

A query can be cut in two at any place.  What the whole finds is what the second
part finds below the nodes that the first part found, each node where it was
first reached.  Matching drops repetitions after every compound; here it is
shown that dropping them once, at the end, gives the same nodes in the same
order.
-/

namespace Scenery

open Selector (Compound)

/-! ## First occurrences -/

theorem eraseDups_filter (keep : NodeId → Bool) (items : List NodeId) :
    (items.filter keep).eraseDups = items.eraseDups.filter keep := by
  match items with
  | [] => rfl
  | item :: rest =>
      have hrest := eraseDups_filter keep (rest.filter fun other => !other == item)
      rw [List.eraseDups_cons, List.filter_cons, List.filter_cons, ← hrest]
      by_cases hitem : keep item = true
      · rw [if_pos hitem, if_pos hitem, List.eraseDups_cons]
        rw [List.filter_filter, List.filter_filter]
        simp only [Bool.and_comm]
      · rw [if_neg hitem, if_neg hitem, List.filter_filter]
        -- What is kept is not `item` anyway.
        have hne : ∀ other ∈ rest, keep other = (keep other && !other == item) := by
          intro other _
          by_cases hother : other = item
          · simp [hother, hitem]
          · simp [hother]
        rw [List.filter_congr hne]
  termination_by items.length
  decreasing_by exact Nat.lt_succ_of_le (List.length_filter_le _ _)

theorem eraseDups_eraseDups (items : List NodeId) :
    items.eraseDups.eraseDups = items.eraseDups := by
  match items with
  | [] => rfl
  | item :: rest =>
      have hrest := eraseDups_eraseDups (rest.filter fun other => !other == item)
      have hfresh : (rest.filter fun other => !other == item).eraseDups.filter
          (fun other => !other == item) = (rest.filter fun other => !other == item).eraseDups := by
        rw [← eraseDups_filter, List.filter_filter]
        simp only [Bool.and_self]
      rw [List.eraseDups_cons, List.eraseDups_cons, hfresh, hrest]
  termination_by items.length
  decreasing_by exact Nat.lt_succ_of_le (List.length_filter_le _ _)

/-- Renaming keeps first occurrences where it takes no two items to one. -/
theorem eraseDups_map {α β : Type} [BEq α] [LawfulBEq α] [BEq β] [LawfulBEq β] {f : α → β}
    {items : List α}
    (h : ∀ item ∈ items, ∀ other ∈ items, f item = f other → item = other) :
    (items.map f).eraseDups = items.eraseDups.map f := by
  match items with
  | [] => rfl
  | item :: rest =>
      have hsame : ∀ other ∈ rest, (!f other == f item) = !other == item := by
        intro other hother
        have hiff : f other = f item ↔ other = item :=
          ⟨h other (List.mem_cons_of_mem _ hother) item List.mem_cons_self, congrArg f⟩
        rw [Bool.eq_iff_iff]
        simp [hiff]
      have hfewer : ∀ first ∈ rest.filter (fun other => !other == item),
          ∀ second ∈ rest.filter (fun other => !other == item),
            f first = f second → first = second :=
        fun first hfirst second hsecond =>
          h first (List.mem_cons_of_mem _ (List.mem_filter.mp hfirst).1) second
            (List.mem_cons_of_mem _ (List.mem_filter.mp hsecond).1)
      have hrest := eraseDups_map hfewer
      rw [List.map_cons, List.eraseDups_cons, List.eraseDups_cons, List.map_cons, List.filter_map,
        ← hrest]
      congr 3
      exact List.filter_congr hsame
  termination_by items.length
  decreasing_by exact Nat.lt_succ_of_le (List.length_filter_le _ _)

theorem eraseDups_of_nodup {items : List NodeId} (h : items.Nodup) : items.eraseDups = items := by
  induction items with
  | nil => rfl
  | cons item rest ih =>
      obtain ⟨hnew, hrest⟩ := List.nodup_cons.mp h
      have hkept : rest.filter (fun other => !other == item) = rest := by
        rw [List.filter_eq_self]
        intro other hother
        have hne : other ≠ item := ne_of_mem_of_not_mem hother hnew
        simpa using hne
      rw [List.eraseDups_cons, hkept, ih hrest]

/-- Behind other items, repetitions and what those items hold already do not count. -/
theorem eraseDups_append_congr {first first' second second' : List NodeId}
    (hfirst : first.eraseDups = first'.eraseDups)
    (hsecond : second.eraseDups = second'.eraseDups) :
    (first ++ second).eraseDups = (first' ++ second').eraseDups := by
  have hmem : ∀ item, first.contains item = first'.contains item := by
    intro item
    rw [Bool.eq_iff_iff, List.contains_iff_mem, List.contains_iff_mem, ← List.mem_eraseDups,
      hfirst, List.mem_eraseDups]
  rw [List.eraseDups_append, List.eraseDups_append]
  unfold List.removeAll
  rw [eraseDups_filter, eraseDups_filter, hfirst, hsecond]
  simp only [hmem]

theorem eraseDups_flatMap_congr {items : List NodeId} {f g : NodeId → List NodeId}
    (h : ∀ item ∈ items, (f item).eraseDups = (g item).eraseDups) :
    (items.flatMap f).eraseDups = (items.flatMap g).eraseDups := by
  induction items with
  | nil => rfl
  | cons item rest ih =>
      have hrest := ih fun other hother => h other (List.mem_cons_of_mem item hother)
      rw [List.flatMap_cons, List.flatMap_cons]
      exact eraseDups_append_congr (h item List.mem_cons_self) hrest

/-- Items that lead nowhere can be left out. -/
theorem flatMap_filter_of_eq_nil (keep : NodeId → Bool) {items : List NodeId}
    {f : NodeId → List NodeId} (h : ∀ item ∈ items, keep item = false → f item = []) :
    (items.filter keep).flatMap f = items.flatMap f := by
  induction items with
  | nil => rfl
  | cons item rest ih =>
      have hrest := ih fun other hother => h other (List.mem_cons_of_mem item hother)
      cases hitem : keep item with
      | true => simp [hitem, hrest]
      | false => simp [hitem, hrest, h item List.mem_cons_self hitem]

/-- Going on from an item a second time adds nothing. -/
theorem eraseDups_flatMap_eraseDups (items : List NodeId) (f : NodeId → List NodeId) :
    (items.eraseDups.flatMap f).eraseDups = (items.flatMap f).eraseDups := by
  match items with
  | [] => rfl
  | item :: rest =>
      have hrest := eraseDups_flatMap_eraseDups (rest.filter fun other => !other == item) f
      have hskip : ((rest.filter fun other => !other == item).flatMap f).removeAll (f item) =
          (rest.flatMap f).removeAll (f item) := by
        unfold List.removeAll
        rw [List.filter_flatMap, List.filter_flatMap]
        apply flatMap_filter_of_eq_nil
        intro other _ hother
        have heq : other = item := by simpa using hother
        simp [heq]
      rw [List.eraseDups_cons, List.flatMap_cons, List.flatMap_cons]
      calc
        (f item ++ (rest.filter fun other => !other == item).eraseDups.flatMap f).eraseDups =
            (f item ++ (rest.filter fun other => !other == item).flatMap f).eraseDups :=
          eraseDups_append_congr rfl hrest
        _ = (f item ++ rest.flatMap f).eraseDups := by
          rw [List.eraseDups_append, hskip, ← List.eraseDups_append]
  termination_by items.length
  decreasing_by exact Nat.lt_succ_of_le (List.length_filter_le _ _)

namespace Graph

/-! ## One context after the other -/

/-- Matching without the index of what was found already. -/
theorem matching_cons_eraseDups (graph : Graph) (compound : Compound) (rest : List Compound)
    (start : NodeId) :
    graph.matching (compound :: rest) start =
      (compound :: rest).foldl
        (fun context next => (context.flatMap (graph.candidates next)).eraseDups) [start] := by
  rw [matching_cons]
  simp only [← narrow_eq]

/-- Compounds are told apart by the nodes they accept and by where they look. -/
theorem narrow_congr (graph : Graph) {compound other : Compound}
    (hchild : compound.childOnly = other.childOnly)
    (haccepts : ∀ node, compound.accepts node = other.accepts node) (context : List NodeId) :
    graph.narrow context compound = graph.narrow context other := by
  have hsame : graph.accepts compound = graph.accepts other := by
    funext id
    rw [accepts, accepts, funext haccepts]
  have hcandidates : graph.candidates compound = graph.candidates other := by
    funext id
    rw [candidates, candidates, hchild, hsame]
  rw [narrow, narrow, hcandidates]

theorem matching_congr (graph : Graph) {compounds others : List Compound}
    (h : List.Forall₂ (fun compound other => compound.childOnly = other.childOnly ∧
      ∀ node, compound.accepts node = other.accepts node) compounds others) (start : NodeId) :
    graph.matching compounds start = graph.matching others start := by
  have hfold : ∀ context,
      compounds.foldl graph.narrow context = others.foldl graph.narrow context := by
    induction h with
    | nil => exact fun _ => rfl
    | cons hsame _ ih =>
        intro context
        rw [List.foldl_cons, List.foldl_cons, graph.narrow_congr hsame.1 hsame.2, ih]
  cases h with
  | nil => rfl
  | cons => rw [matching_cons, matching_cons, hfold]

theorem matching_map (graph : Graph) (f : Compound → Compound)
    (hchild : ∀ compound, (f compound).childOnly = compound.childOnly)
    (haccepts : ∀ compound node, (f compound).accepts node = compound.accepts node)
    (compounds : List Compound) (start : NodeId) :
    graph.matching (compounds.map f) start = graph.matching compounds start := by
  apply matching_congr
  rw [List.forall₂_map_left_iff, List.forall₂_same]
  exact fun compound _ => ⟨hchild compound, haccepts compound⟩

/-- The last compound narrows what the others leave. -/
theorem matching_concat (graph : Graph) (front : List Compound) (compound : Compound)
    (start : NodeId) :
    graph.matching (front ++ [compound]) start =
      graph.narrow (front.foldl graph.narrow [start]) compound := by
  cases front with
  | nil => rw [List.nil_append, matching_cons, List.foldl_cons, List.foldl_nil, List.foldl_nil]
  | cons first rest =>
      rw [List.cons_append, matching_cons, ← List.cons_append, List.foldl_append, List.foldl_cons,
        List.foldl_nil]

/-- The nodes of a context can be searched one by one. -/
theorem foldl_narrow_eq (graph : Graph) (compound : Compound) (rest : List Compound)
    (context : List NodeId) :
    (compound :: rest).foldl graph.narrow context =
      (context.flatMap fun id => (compound :: rest).foldl graph.narrow [id]).eraseDups := by
  induction rest generalizing compound context with
  | nil =>
      simp only [List.foldl_cons, List.foldl_nil, narrow_eq]
      apply eraseDups_flatMap_congr
      intro id _
      rw [List.flatMap_singleton, eraseDups_eraseDups]
  | cons next rest ih =>
      -- Both sides go on from the candidates, here of the context and there of each node alone.
      have hstep : ∀ nodes : List NodeId,
          (compound :: next :: rest).foldl graph.narrow nodes =
            ((nodes.flatMap (graph.candidates compound)).flatMap fun id =>
              (next :: rest).foldl graph.narrow [id]).eraseDups := by
        intro nodes
        rw [List.foldl_cons, ih, narrow_eq, eraseDups_flatMap_eraseDups]
      rw [hstep, List.flatMap_assoc]
      apply eraseDups_flatMap_congr
      intro id _
      rw [hstep, List.flatMap_singleton, eraseDups_eraseDups]

/--
What two selectors find one after the other: the second searches below each node that
the first found, and of every node the first occurrence counts.
-/
theorem matching_append (graph : Graph) (start : NodeId) {first second : List Compound}
    (hfirst : first ≠ []) (hsecond : second ≠ []) :
    graph.matching (first ++ second) start =
      ((graph.matching first start).flatMap (graph.matching second)).eraseDups := by
  obtain ⟨compound, rest, rfl⟩ := List.exists_cons_of_ne_nil hfirst
  obtain ⟨next, others, rfl⟩ := List.exists_cons_of_ne_nil hsecond
  have hsecond : graph.matching (next :: others) =
      fun id => (next :: others).foldl graph.narrow [id] := by
    funext id
    exact graph.matching_cons next others id
  rw [List.cons_append, matching_cons, ← List.cons_append, List.foldl_append, foldl_narrow_eq,
    hsecond, matching_cons]

/-- Two nodes with a child in common, and a search that finds one of them twice. -/
theorem matching_append_shared_child :
    let graph : Graph := {
      node? := fun _ => some (.ofType "n" "GROUP")
      children? := fun id => [[⟨1⟩], [⟨3⟩], [⟨3⟩, ⟨4⟩]][id.index]?
      search? := fun id accept =>
        if id = .root then some ([⟨2⟩, ⟨1⟩, ⟨2⟩, ⟨5⟩].filter accept) else none }
    let first : List Compound := [⟨[.all], false⟩]
    let second : List Compound := [⟨[.byType "group"], true⟩]
    first ≠ [] ∧ second ≠ [] ∧ graph.matching (first ++ second) .root = [⟨3⟩, ⟨4⟩] ∧
      ((graph.matching first .root).flatMap (graph.matching second)).eraseDups = [⟨3⟩, ⟨4⟩] := by
  intro graph first second
  have hfirst : first ≠ [] := List.cons_ne_nil _ _
  have hsecond : second ≠ [] := List.cons_ne_nil _ _
  have hfound : graph.matching (first ++ second) .root = [⟨3⟩, ⟨4⟩] := by
    rw [List.singleton_append, matching_cons, List.foldl_cons, List.foldl_cons, narrow_eq, narrow_eq]
    decide +kernel
  have h := matching_append graph .root hfirst hsecond
  exact ⟨hfirst, hsecond, hfound, h.symm.trans hfound⟩

end Graph

end Scenery
