import Scenery.Graph.NodeSet
import Scenery.Selector.Accepts
import Scenery.Selector.Compile

/-!
# Matching

The compounds of a selector are applied from left to right.  The first looks at
the nodes below the start, each other one below the nodes that the one before it
left.  Every node is kept once, where it was first reached; the start itself is
no candidate.  Main statement: matching is a left fold of `narrow` over the
compounds, which ends early once nothing is left.
-/

namespace Scenery

open Selector (Compound)

/-- The nodes found by a query, and what was reported on the way. -/
structure Selection where
  found : List NodeId
  notices : List Notice
  deriving DecidableEq, Repr, Inhabited

namespace Graph

/-- Whether a node has data that a compound accepts. -/
def accepts (graph : Graph) (compound : Compound) (id : NodeId) : Bool :=
  (graph.node? id).any compound.accepts

/--
The nodes that a compound finds below one node: among its children or among all
nodes below it.  A node that cannot be searched so has none.
-/
def candidates (graph : Graph) (compound : Compound) (id : NodeId) : List NodeId :=
  if compound.childOnly then
    ((graph.children? id).getD []).filter (graph.accepts compound)
  else
    (graph.search? id (graph.accepts compound)).getD []

/-- The nodes that a compound finds below the nodes of a context, each once. -/
def narrow (graph : Graph) (context : List NodeId) (compound : Compound) : List NodeId :=
  (NodeSet.ofList (context.flatMap (graph.candidates compound))).toList

/-- A compound and the nodes that were left when it was applied. -/
structure Stage where
  compound : Compound
  context : List NodeId

/-- The stages of a match; the first that leaves no node is the last. -/
def stages (graph : Graph) (context : List NodeId) : List Compound → List Stage
  | [] => []
  | compound :: rest =>
    let next := graph.narrow context compound
    ⟨compound, next⟩ :: if next.isEmpty then [] else graph.stages next rest

/-- The notice of the stage with this number. -/
def Stage.notice (stage : Stage) (index : Nat) : Notice :=
  .trace "matching"
    ("group " ++ toString index ++ " `" ++ stage.compound.text ++ "` left " ++
      toString stage.context.length ++ " node(s) in context")

/-- The nodes that the compounds find below a start; no compound finds nothing. -/
def matching (graph : Graph) (compounds : List Compound) (start : NodeId) : List NodeId :=
  match (graph.stages [start] compounds).getLast? with
  | none => []
  | some stage => stage.context

/-- The nodes that the compounds find below a start, with a notice for every stage. -/
def selection (graph : Graph) (compounds : List Compound) (start : NodeId) : Selection :=
  ⟨graph.matching compounds start,
    (graph.stages [start] compounds).zipIdx.map fun (stage, index) => stage.notice index⟩

/-- The nodes that a selector finds below a start, with all notices. -/
def select (graph : Graph) (selector : String) (start : NodeId) : Selection :=
  let compiled := Selector.compile selector
  let matched := graph.selection compiled.compounds start
  let summary := "compiled `" ++ selector ++ "` into " ++
    toString compiled.compounds.length ++ " group(s): " ++ Selector.textOf compiled.compounds
  ⟨matched.found, compiled.notices ++ .debug "selector" summary :: matched.notices⟩

theorem found_select (graph : Graph) (selector : String) (start : NodeId) :
    (graph.select selector start).found =
      graph.matching (Selector.compile selector).compounds start := rfl

theorem narrow_eq (graph : Graph) (context : List NodeId) (compound : Compound) :
    graph.narrow context compound = (context.flatMap (graph.candidates compound)).eraseDups :=
  NodeSet.toList_ofList _

@[simp] theorem narrow_nil (graph : Graph) (compound : Compound) :
    graph.narrow [] compound = [] := by
  simp [narrow_eq]

theorem foldl_narrow_nil (graph : Graph) (compounds : List Compound) :
    compounds.foldl graph.narrow [] = [] := by
  induction compounds with
  | nil => rfl
  | cons compound rest ih => rw [List.foldl_cons, narrow_nil, ih]

theorem getLast?_stages
    (graph : Graph) (context : List NodeId) (compound : Compound) (rest : List Compound) :
    ((graph.stages context (compound :: rest)).getLast?.map (·.context)) =
      some ((compound :: rest).foldl graph.narrow context) := by
  induction rest generalizing context compound with
  | nil => simp [stages]
  | cons second rest ih =>
      rw [stages, List.foldl_cons]
      by_cases hempty : graph.narrow context compound = []
      · simp [hempty, foldl_narrow_nil]
      · have hnext := ih (graph.narrow context compound) second
        rw [stages] at hnext ⊢
        simpa [hempty] using hnext

/-- With a compound to apply, matching folds `narrow` over the compounds. -/
theorem matching_cons
    (graph : Graph) (compound : Compound) (rest : List Compound) (start : NodeId) :
    graph.matching (compound :: rest) start =
      (compound :: rest).foldl graph.narrow [start] := by
  have hlast := graph.getLast?_stages [start] compound rest
  unfold matching
  split <;> simp_all

@[simp] theorem matching_nil (graph : Graph) (start : NodeId) :
    graph.matching [] start = [] := rfl

end Graph

end Scenery
