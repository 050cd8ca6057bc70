import Scenery.Graph.Basic

/-!
# Links and depth-first search

A finite scene gives each node its data and its children.  The search below a
node keeps a list of nodes still to visit; the children of the node it visits
come first.  Each of those nodes carries how many levels may still be opened
below it.  In a scene without cycles no path is longer than the scene has nodes,
so this bound is never met there.  Main definitions: `visit`, the search, and
`belowUpTo`, the nodes in the order of the tree.
-/

namespace Scenery

/--
Data and children of the nodes of a finite scene.  Nodes with a number from
`size` on have no children.
-/
structure Links where
  size : Nat
  node? : NodeId → Option Node
  children? : NodeId → Option (List NodeId)

namespace Links

/-- The children of a node; none for a node that can have none. -/
def childrenOf (links : Links) (id : NodeId) : List NodeId :=
  (links.children? id).getD []

/-- How many visits a node takes if this many levels are opened below it. -/
def visits (links : Links) : Nat → NodeId → Nat
  | 0, _ => 1
  | levels + 1, id =>
    (links.childrenOf id).foldr (fun child total => links.visits levels child + total) 1

/-- The children of a node as nodes to visit, with one level less to open. -/
def opened (links : Links) : Nat → NodeId → List (NodeId × Nat)
  | 0, _ => []
  | levels + 1, id => (links.childrenOf id).map (·, levels)

/-- How many visits a list of nodes takes. -/
def pendingVisits (links : Links) : List (NodeId × Nat) → Nat
  | [] => 0
  | (id, levels) :: rest => links.visits levels id + links.pendingVisits rest

theorem pendingVisits_append (links : Links) (first second : List (NodeId × Nat)) :
    links.pendingVisits (first ++ second) =
      links.pendingVisits first + links.pendingVisits second := by
  induction first with
  | nil => simp [pendingVisits]
  | cons entry rest ih =>
      rw [List.cons_append, pendingVisits, pendingVisits, ih]
      omega

/-- A node takes one visit more than the nodes that it opens. -/
theorem foldr_visits (links : Links) (levels : Nat) (children : List NodeId) :
    children.foldr (fun child total => links.visits levels child + total) 1 =
      links.pendingVisits (children.map (·, levels)) + 1 := by
  induction children with
  | nil => simp [pendingVisits]
  | cons child rest ih =>
      rw [List.foldr_cons, ih, List.map_cons, pendingVisits]
      omega

theorem pendingVisits_opened_lt (links : Links) (levels : Nat) (id : NodeId) :
    links.pendingVisits (links.opened levels id) < links.visits levels id := by
  cases levels with
  | zero => simp [pendingVisits, opened, visits]
  | succ levels =>
      rw [opened, visits, foldr_visits]
      omega

theorem pendingVisits_opened_append_lt
    (links : Links) (id : NodeId) (levels : Nat) (rest : List (NodeId × Nat)) :
    links.pendingVisits (links.opened levels id ++ rest) <
      links.pendingVisits ((id, levels) :: rest) := by
  have := links.pendingVisits_opened_lt levels id
  rw [pendingVisits_append, pendingVisits]
  omega

/--
Visit nodes from left to right, each before the nodes below it, and collect those
that the predicate accepts.  The predicate may pass a state on from visit to visit.
-/
def visit (links : Links) (accept : NodeId → σ → Bool × σ)
    (pending : List (NodeId × Nat)) (found : Array NodeId) (state : σ) :
    Array NodeId × σ :=
  match pending with
  | [] => (found, state)
  | (id, levels) :: rest =>
    let (accepted, next) := accept id state
    links.visit accept (links.opened levels id ++ rest)
      (if accepted then found.push id else found) next
  termination_by links.pendingVisits pending
  decreasing_by exact links.pendingVisits_opened_append_lt id levels rest

/--
The nodes below a node that a predicate with a state accepts, and the last state;
nothing for a node that can have no children.
-/
def searchWith? (links : Links) (id : NodeId) (accept : NodeId → σ → Bool × σ) (state : σ) :
    Option (List NodeId × σ) :=
  (links.children? id).map fun children =>
    let (found, last) := links.visit accept (children.map (·, links.size)) #[] state
    (found.toList, last)

/-- The nodes below a node that a predicate accepts. -/
def search? (links : Links) (id : NodeId) (accept : NodeId → Bool) : Option (List NodeId) :=
  (links.searchWith? id (fun node (_ : Unit) => (accept node, ())) ()).map (·.1)

/-- The nodes below a node down to a level, each before the nodes below it. -/
def belowUpTo (links : Links) : Nat → NodeId → List NodeId
  | 0, _ => []
  | levels + 1, id =>
    (links.childrenOf id).flatMap fun child => child :: links.belowUpTo levels child

/-- All nodes below a node in the order of the tree. -/
def below (links : Links) (id : NodeId) : List NodeId :=
  links.belowUpTo (links.size + 1) id

/-- The graph whose search goes through the nodes in the order of the tree. -/
def graph (links : Links) : Graph where
  node? := links.node?
  children? := links.children?
  search? := links.search?

theorem flatMap_opened (links : Links) (levels : Nat) (id : NodeId) :
    (links.opened levels id).flatMap
        (fun entry => entry.1 :: links.belowUpTo entry.2 entry.1) =
      links.belowUpTo levels id := by
  cases levels with
  | zero => rfl
  | succ levels => simp [opened, belowUpTo, List.flatMap_map]

/--
Ask a predicate about nodes, one after the other: the nodes it accepts, and the last state.
-/
def ask (accept : NodeId → σ → Bool × σ) : List NodeId → σ → List NodeId × σ
  | [], state => ([], state)
  | id :: rest, state =>
    let answer := accept id state
    let later := ask accept rest answer.2
    (if answer.1 then id :: later.1 else later.1, later.2)

theorem fst_ask (accept : NodeId → Bool) (nodes : List NodeId) :
    (ask (fun node (_ : Unit) => (accept node, ())) nodes ()).1 = nodes.filter accept := by
  induction nodes with
  | nil => rfl
  | cons id rest ih =>
      rw [ask, List.filter_cons, ← ih]

/-- Visiting nodes asks the predicate about them and about all nodes below, in tree order. -/
theorem visit_eq_ask
    (links : Links) (accept : NodeId → σ → Bool × σ) (pending : List (NodeId × Nat))
    (found : Array NodeId) (state : σ) :
    links.visit accept pending found state =
      (found ++ (ask accept (pending.flatMap fun entry =>
          entry.1 :: links.belowUpTo entry.2 entry.1) state).1,
        (ask accept (pending.flatMap fun entry =>
          entry.1 :: links.belowUpTo entry.2 entry.1) state).2) := by
  match pending with
  | [] => simp [visit, ask]
  | (id, levels) :: rest =>
      rcases haccept : accept id state with ⟨accepted, next⟩
      simp only [visit, haccept]
      rw [visit_eq_ask links accept (links.opened levels id ++ rest), List.flatMap_append,
        flatMap_opened, List.flatMap_cons, List.cons_append, ask, haccept]
      cases accepted <;> simp
  termination_by links.pendingVisits pending
  decreasing_by exact links.pendingVisits_opened_append_lt id levels rest

/-- The search asks the predicate about the nodes below, in tree order. -/
theorem searchWith?_eq
    (links : Links) (id : NodeId) (accept : NodeId → σ → Bool × σ) (state : σ) :
    links.searchWith? id accept state =
      (links.children? id).map fun _ => ask accept (links.below id) state := by
  simp only [searchWith?, below, belowUpTo, childrenOf]
  cases hchildren : links.children? id with
  | none => rfl
  | some children => simp [visit_eq_ask, List.flatMap_map]

/-- The search finds what the predicate accepts of the nodes below, in tree order. -/
theorem search?_eq (links : Links) (id : NodeId) (accept : NodeId → Bool) :
    links.search? id accept =
      (links.children? id).map fun _ => (links.below id).filter accept := by
  simp only [search?, searchWith?_eq, Option.map_map, Function.comp_def, fst_ask]

end Links

end Scenery
