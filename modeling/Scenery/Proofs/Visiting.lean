import Scenery.Graph.Walk
import Scenery.Proofs.Search

/-!
# What a search visits

A search with a stack holds, at every moment, the tops of the subtrees that it has not
entered.  Put one after the other, the last of the stack first, these subtrees are the
nodes still to visit, and each round takes the first of them away.  Where no path below
a node is too long there are finitely many of them, so that every search ends, whatever
its predicate remembers from visit to visit; in a forest each of them comes once.
-/

namespace Scenery

namespace Links

/-- The nodes that a search has still to visit, in the order of its rounds. -/
def Walk.ahead (links : Links) (walk : Walk σ) : List NodeId :=
  links.subtrees walk.stack.reverse

variable {links : Links}

/-- A round visits the first node ahead and leaves the others ahead. -/
theorem ahead_concat (h : ∀ id, links.Shallow links.size id) (stack found more : List NodeId)
    (id : NodeId) (state next : σ) :
    Walk.ahead links ⟨stack ++ [id], found, state⟩ =
      id :: Walk.ahead links ⟨stack ++ (links.childrenOf id).reverse, more, next⟩ := by
  simp only [Walk.ahead, subtrees, List.reverse_append, List.reverse_reverse,
    List.reverse_singleton, List.flatMap_cons, List.flatMap_append, List.cons_append]
  rw [below_eq h id]
  rfl

/-- Every search ends when all nodes ahead are visited, each before the nodes below it. -/
theorem ends_of_shallow (h : ∀ id, links.Shallow links.size id) (accept : NodeId → σ → Bool × σ)
    (walk : Walk σ) :
    Walk.Ends links accept walk
      ⟨[], walk.found ++ (ask accept (walk.ahead links) walk.state).1,
        (ask accept (walk.ahead links) walk.state).2⟩ := by
  obtain ⟨stack, found, state⟩ := walk
  generalize hahead : Walk.ahead links ⟨stack, found, state⟩ = ahead
  induction ahead generalizing stack found state with
  | nil =>
      cases stack with
      | nil => simpa [ask] using Walk.Ends.here (Walk.round?_nil ..)
      | cons id stack => simp [Walk.ahead, subtrees] at hahead
  | cons first ahead ih =>
      rcases List.eq_nil_or_concat stack with hempty | ⟨front, id, hstack⟩
      · subst hempty
        cases hahead
      · rw [List.concat_eq_append] at hstack
        subst hstack
        have hnext := ahead_concat h front found
          (if (accept id state).1 then found ++ [id] else found) id state (accept id state).2
        rw [hahead] at hnext
        obtain ⟨rfl, hrest⟩ := List.cons.inj hnext
        have hends := ih _ _ _ hrest.symm
        refine .round (Walk.round?_concat ..) ?_
        cases haccepted : (accept first state).1 <;>
          simpa [ask, haccepted] using hends

end Links

namespace Scene

open Links (Walk ask)

variable {scene : Scene}

theorem Linked.ends (h : scene.Linked) (accept : NodeId → σ → Bool × σ) (walk : Walk σ) :
    Walk.Ends scene.links accept walk
      ⟨[], walk.found ++ (ask accept (walk.ahead scene.links) walk.state).1,
        (ask accept (walk.ahead scene.links) walk.state).2⟩ :=
  Links.ends_of_shallow h.shallow accept walk

/--
A search below a node asks the predicate, which may remember what it was asked, about every
node that stands below it and about no other, each once and in the order of the tree, and finds
the nodes for which the answer was yes, in that order.  The loop over the stack ends with that.
Only what can have no children, or is not there, is not searched.
-/
theorem searchWith?_asks_below (h : scene.Reachable) (id : NodeId)
    (accept : NodeId → σ → Bool × σ) (state : σ) :
    let order := scene.links.below id
    let answers := ask accept order state
    (scene.links.searchWith? id accept state = none ↔
      scene.get? id = none ∨ ∃ cell, scene.get? id = some cell ∧ cell.children = none) ∧
    (∀ children, scene.children? id = some children →
      scene.links.searchWith? id accept state = some answers ∧
        ∀ last, Walk.Ends scene.links accept ⟨children.reverse, [], state⟩ last ↔
          last = ⟨[], answers.1, answers.2⟩) ∧
    order.Nodup ∧ (∀ node, node ∈ order ↔ id ∈ scene.ancestors node) ∧
    ∀ top, scene.links.below top =
      (scene.childrenOf top).flatMap fun child => child :: scene.links.below child := by
  intro order answers
  have hlinked := h.linked
  refine ⟨?_, ?_, hlinked.nodup_below id, hlinked.mem_below_iff id, hlinked.below_eq⟩
  · rw [Links.searchWith?_eq, Option.map_eq_none_iff]
    change (scene.get? id).bind (·.children) = none ↔ _
    cases scene.get? id <;> simp
  · intro children hchildren
    have hstart : Walk.ahead scene.links ⟨children.reverse, [], state⟩ = order := by
      rw [Walk.ahead, List.reverse_reverse]
      change _ = scene.links.below id
      rw [hlinked.below_eq, childrenOf, hchildren]
      rfl
    have hends := hlinked.ends accept ⟨children.reverse, [], state⟩
    rw [hstart] at hends
    refine ⟨?_, fun last => ⟨fun hlast => hlast.unique hends, fun hlast => hlast ▸ hends⟩⟩
    rw [Links.searchWith?_eq]
    change (scene.children? id).map _ = _
    rw [hchildren]
    rfl

/-- A predicate that accepts every other node that it is asked about. -/
theorem searchWith?_asks_below_of_frame :
    let scene := (ofRoot (.ofType "p" "PAGE")).edited [.addContainer (.ofType "f" "FRAME"),
      .addLeaf (.ofType "r" "RECT"), .addLeaf (.ofType "t" "TEXT"), .append .root ⟨1⟩,
      .append .root ⟨3⟩, .append ⟨1⟩ ⟨2⟩]
    let accept := fun (_ : NodeId) (asked : Nat) => (asked % 2 == 0, asked + 1)
    scene.Reachable ∧ scene.children? .root = some [⟨1⟩, ⟨3⟩] ∧
      scene.links.searchWith? .root accept 0 = some ([⟨1⟩, ⟨3⟩], 3) ∧
      Walk.Ends scene.links accept ⟨[⟨3⟩, ⟨1⟩], [], 0⟩ ⟨[], [⟨1⟩, ⟨3⟩], 3⟩ := by
  intro scene accept
  have hscene : scene.Reachable := ⟨_, _, .ofRoot _, rfl⟩
  have hchildren : scene.children? .root = some [⟨1⟩, ⟨3⟩] := by decide +kernel
  have hanswers : ask accept (scene.links.below .root) 0 = ([⟨1⟩, ⟨3⟩], 3) := by decide +kernel
  obtain ⟨hfound, hends⟩ := (searchWith?_asks_below hscene .root accept 0).2.1 _ hchildren
  rw [hanswers] at hfound hends
  exact ⟨hscene, hchildren, hfound, (hends _).mpr rfl⟩

end Scene

end Scenery
