import Scenery.Scene.Basic

/-!
# Changing a scene in place

`append` gives back a new scene or an error.  Here it is carried out on one scene that
every step reads and may change: first the checks, then a write to the container, then
a write to the node.  A write to a node that is not there stops everything, and an
error leaves the scene as the steps before it made it.  Main statement: the steps give
the answer of `append`, and leave the scene as it was where `append` gives an error.
-/

namespace Scenery.Scene

/-- The scene with one of its nodes changed. -/
def change (scene : Scene) (id : NodeId) (f : Cell → Cell) : Scene :=
  ⟨scene.cells.modify id.index f, by simpa using scene.cells_nonempty⟩

/--
Steps that read and change one scene.  They end with an answer or an error, and with the scene
as they leave it, or do not end at all.
-/
abbrev InPlace := ExceptT AppendError (StateT Scene Option)

/-- Change a node of the scene; nothing comes of a write to a node that is not there. -/
def write (id : NodeId) (f : Cell → Cell) : StateT Scene Option Unit := fun scene =>
  if id.index < scene.size then some ((), scene.change id f) else none

/-- Put a node behind the children of a container, step by step. -/
def appendInPlace (parent child : NodeId) : InPlace Unit := do
  let some cell := (← get).get? child | throw (.unknownNode child)
  if let some existing := cell.parent then
    throw (.alreadyAttached child existing)
  if child = parent ∨ child ∈ (← get).ancestors parent then
    throw (.cycle child parent)
  let some holder := (← get).get? parent | throw (.unknownNode parent)
  let some children := holder.children | throw (.notAContainer parent)
  write parent fun cell => { cell with children := some (children ++ [child]) }
  write child fun cell => { cell with parent := some parent }

@[simp] theorem size_change (scene : Scene) (id : NodeId) (f : Cell → Cell) :
    (scene.change id f).size = scene.size := by
  simp [change, size]

theorem attach_eq_change (scene : Scene) (parent child : NodeId) (children : List NodeId) :
    scene.attach parent child children =
      (scene.change parent fun cell => { cell with children := some (children ++ [child]) }).change
        child fun cell => { cell with parent := some parent } := rfl

theorem lt_size_of_get? {scene : Scene} {id : NodeId} {cell : Cell}
    (h : scene.get? id = some cell) : id.index < scene.size := by
  apply Nat.lt_of_not_le
  intro hunknown
  rw [(scene.get?_eq_none_iff id).mpr hunknown] at h
  cases h

section

variable {α : Type} (scene : Scene)

/-- A step that reads the scene hands it to the steps behind. -/
theorem run_get_bind (next : Scene → InPlace α) :
    (get >>= next).run.run scene = (next scene).run.run scene := rfl

theorem run_throw (error : AppendError) :
    (throw error : InPlace α).run.run scene =
      some (.error error, scene) := rfl

variable {scene} {id : NodeId} (h : id.index < scene.size) (f : Cell → Cell)

include h

theorem write_of_lt : write id f scene = some ((), scene.change id f) :=
  if_pos h

theorem run_write :
    (write id f : InPlace Unit).run.run scene =
      some (.ok (), scene.change id f) := by
  change (write id f scene).bind _ = _
  rw [write_of_lt h f]
  rfl

/-- The steps behind a write find the scene changed. -/
theorem run_write_bind (next : Unit → InPlace α) :
    ((write id f : InPlace Unit) >>= next).run.run scene =
      (next ()).run.run (scene.change id f) := by
  change ((write id f : InPlace Unit).run.run scene).bind _ = _
  rw [run_write h f]
  rfl

end

/-- The steps give the answer of `append`; where it is an error, they have changed nothing. -/
theorem run_appendInPlace (scene : Scene) (parent child : NodeId) :
    (appendInPlace parent child).run.run scene =
      match scene.append parent child with
      | .error error => some (.error error, scene)
      | .ok grown => some (.ok (), grown) := by
  unfold appendInPlace append
  rw [run_get_bind]
  cases hchild : scene.get? child with
  | none => exact run_throw scene _
  | some cell =>
      cases hparent : cell.parent with
      | some existing =>
          simp only [hparent]
          exact run_throw scene _
      | none =>
          simp only [hparent, run_get_bind]
          by_cases hcycle : child = parent ∨ child ∈ scene.ancestors parent
          · simp only [if_pos hcycle]
            exact run_throw scene _
          · simp only [if_neg hcycle, run_get_bind]
            cases hholder : scene.get? parent with
            | none => exact run_throw scene _
            | some holder =>
                cases hchildren : holder.children with
                | none =>
                    simp only [hchildren]
                    exact run_throw scene _
                | some children =>
                    have hknown : child.index < scene.size := lt_size_of_get? hchild
                    simp only [hchildren]
                    rw [run_write_bind (lt_size_of_get? hholder), run_write (by rwa [size_change]),
                      attach_eq_change]

end Scenery.Scene
