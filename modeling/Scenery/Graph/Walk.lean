import Scenery.Graph.Links

/-!
# Searching with a stack

The search below a node as a loop, round by round.  The nodes still to visit are kept on
a stack whose last node is next; its children take its place, the first of them last.
Nothing bounds the number of rounds here: the loop may go on for ever.
-/

namespace Scenery

namespace Links

/-- A search under way: the stack, the nodes accepted so far and the state of the predicate. -/
structure Walk (σ : Type u) where
  stack : List NodeId
  found : List NodeId
  state : σ

namespace Walk

variable (links : Links) (accept : NodeId → σ → Bool × σ)

/-- The search after one more round; with nothing on the stack there is none. -/
def round? (walk : Walk σ) : Option (Walk σ) :=
  walk.stack.getLast?.map fun id =>
    let answer := accept id walk.state
    { stack := walk.stack.dropLast ++ (links.childrenOf id).reverse
      found := if answer.1 then walk.found ++ [id] else walk.found
      state := answer.2 }

/-- The rounds come to an end, and leave the second search of the first. -/
inductive Ends : Walk σ → Walk σ → Prop where
  | here {walk : Walk σ} (h : walk.round? links accept = none) : Ends walk walk
  | round {walk next last : Walk σ} (h : walk.round? links accept = some next)
      (rest : Ends next last) : Ends walk last

@[simp] theorem round?_nil (found : List NodeId) (state : σ) :
    round? links accept ⟨[], found, state⟩ = none := rfl

/-- A round visits the last node of the stack. -/
theorem round?_concat (stack found : List NodeId) (id : NodeId) (state : σ) :
    round? links accept ⟨stack ++ [id], found, state⟩ =
      some ⟨stack ++ (links.childrenOf id).reverse,
        if (accept id state).1 then found ++ [id] else found, (accept id state).2⟩ := by
  simp [round?]

/-- What the rounds lead to is settled by where they begin. -/
theorem Ends.unique {links : Links} {accept : NodeId → σ → Bool × σ} {walk last other : Walk σ}
    (h : Ends links accept walk last) (h' : Ends links accept walk other) : last = other := by
  induction h with
  | here hnone =>
      cases h' with
      | here => rfl
      | round hsome _ => simp [hnone] at hsome
  | round hsome _ ih =>
      cases h' with
      | here hnone => simp [hsome] at hnone
      | round hsome' rest' =>
          rw [hsome] at hsome'
          cases hsome'
          exact ih rest'

end Walk

end Links

end Scenery
