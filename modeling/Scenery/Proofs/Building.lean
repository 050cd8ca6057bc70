import Scenery.Scene.Load

/-!
# Building scenes

A scene is built from a root by adding detached nodes and by putting nodes into
containers, in any order and with any node numbers.  Below, every step is
described by what it does to the two links of a node, its container and its
children.  A loaded scene is one of those that can be built so.
-/

namespace Scenery

namespace Scene

/-- One step in building a scene. -/
inductive Edit where
  /-- Add a detached container. -/
  | addContainer (node : Node)
  /-- Add a detached leaf. -/
  | addLeaf (node : Node)
  /-- Put a node behind the children of a container. -/
  | append (parent child : NodeId)
  deriving Inhabited

/-- The scene after a step; a refused one leaves it as it is. -/
def edit (scene : Scene) : Edit → Scene
  | .addContainer node => (scene.addContainer node).1
  | .addLeaf node => (scene.addLeaf node).1
  | .append parent child =>
    match scene.append parent child with
    | .ok grown => grown
    | .error _ => scene

/-- The scene after a list of steps. -/
def edited (scene : Scene) (edits : List Edit) : Scene :=
  edits.foldl edit scene

@[simp] theorem edited_nil (scene : Scene) : scene.edited [] = scene := rfl

@[simp] theorem edited_cons (scene : Scene) (step : Edit) (edits : List Edit) :
    scene.edited (step :: edits) = (scene.edit step).edited edits := rfl

/-- The scenes to begin with: a root without children, or what a text is loaded as. -/
inductive Initial : Scene → Prop where
  | ofRoot (node : Node) : Initial (ofRoot node)
  | ofText {text : String} {loaded : Loaded} (h : ofText text = .ok loaded) : Initial loaded.scene

/-- The scenes that steps lead to. -/
def Reachable (scene : Scene) : Prop :=
  ∃ initial edits, Initial initial ∧ scene = initial.edited edits

/-- The children of a node; none for a leaf and for an unknown node. -/
def childrenOf (scene : Scene) (id : NodeId) : List NodeId :=
  (scene.children? id).getD []

/-! ## The links after a step -/

theorem isSome_get?_iff (scene : Scene) (id : NodeId) :
    (scene.get? id).isSome ↔ id.index < scene.size := by
  simp [get?, size]

theorem lt_size_of_parent? {scene : Scene} {id parent : NodeId}
    (h : scene.parent? id = some parent) : id.index < scene.size := by
  rw [← isSome_get?_iff]
  unfold parent? at h
  cases hget : scene.get? id with
  | none => simp [hget] at h
  | some _ => rfl

theorem parent?_add
    (scene : Scene) {cell : Cell} (hparent : cell.parent = none) (id : NodeId) :
    (scene.add cell).1.parent? id = scene.parent? id := by
  unfold parent?
  rw [get?_add]
  by_cases hid : id.index = scene.size
  · have hnone : scene.get? id = none := by
      rw [get?_eq_none_iff]
      omega
    simp [hid, hparent, hnone]
  · simp [hid]

theorem childrenOf_add
    (scene : Scene) {cell : Cell} (hchildren : cell.children.getD [] = []) (id : NodeId) :
    (scene.add cell).1.childrenOf id = scene.childrenOf id := by
  unfold childrenOf children?
  rw [get?_add]
  by_cases hid : id.index = scene.size
  · have hnone : scene.get? id = none := by
      rw [get?_eq_none_iff]
      omega
    simp [hid, hchildren, hnone]
  · simp [hid]

theorem isContainer_add (scene : Scene) (cell : Cell) {id : NodeId}
    (h : scene.isContainer id = true) : (scene.add cell).1.isContainer id = true := by
  unfold isContainer children? at h ⊢
  rw [get?_add]
  by_cases hid : id.index = scene.size
  · have hnone : scene.get? id = none := by
      rw [get?_eq_none_iff]
      omega
    simp [hnone] at h
  · rw [if_neg hid]
    exact h

/-- What a node has to meet to be put into another, and what is done with it then. -/
theorem append_eq_ok_iff (scene : Scene) (parent child : NodeId) (grown : Scene) :
    scene.append parent child = .ok grown ↔
      child.index < scene.size ∧ scene.parent? child = none ∧ child ≠ parent ∧
        child ∉ scene.ancestors parent ∧
        ∃ children, scene.children? parent = some children ∧
          grown = scene.attach parent child children := by
  have hknown := scene.isSome_get?_iff child
  unfold append parent? children?
  cases hchild : scene.get? child with
  | none =>
      have hunknown : ¬ child.index < scene.size := by
        rw [← hknown, hchild]
        decide
      simp [hunknown]
  | some cell =>
      cases hparent : cell.parent with
      | some existing => simp [hparent]
      | none =>
          by_cases hcycle : child = parent ∨ child ∈ scene.ancestors parent
          · rcases hcycle with heq | hmem
            · simp [hparent, heq]
            · simp [hparent, hmem]
          · rw [not_or] at hcycle
            cases hholder : scene.get? parent with
            | none => simp [hparent, hcycle]
            | some holder =>
                cases hchildren : holder.children with
                | none => simp [hparent, hcycle, hchildren]
                | some children =>
                    have hlt : child.index < scene.size := by
                      rw [← hknown, hchild]
                      rfl
                    simp [hparent, hcycle, hchildren, hlt, eq_comm]

theorem parent?_attach
    (scene : Scene) {parent child : NodeId} (children : List NodeId)
    (hne : child ≠ parent) (hknown : child.index < scene.size) (id : NodeId) :
    (scene.attach parent child children).parent? id =
      if id = child then some parent else scene.parent? id := by
  unfold parent?
  rw [get?_attach scene parent child children id hne]
  by_cases hid : id = child
  · subst hid
    obtain ⟨cell, hcell⟩ := Option.isSome_iff_exists.mp ((scene.isSome_get?_iff id).mpr hknown)
    simp [hcell]
  · by_cases hparent : id = parent
    · subst hparent
      cases scene.get? id <;> simp [hid]
    · simp [hid, hparent]

theorem childrenOf_attach
    (scene : Scene) {parent child : NodeId} {children : List NodeId}
    (hne : child ≠ parent) (hchildren : scene.children? parent = some children) (id : NodeId) :
    (scene.attach parent child children).childrenOf id =
      if id = parent then scene.childrenOf parent ++ [child] else scene.childrenOf id := by
  unfold childrenOf
  rw [hchildren]
  unfold children? at hchildren ⊢
  rw [get?_attach scene parent child children id hne]
  by_cases hid : id = parent
  · subst hid
    obtain ⟨cell, hcell, _⟩ := Option.bind_eq_some_iff.mp hchildren
    simp [hne.symm, hcell]
  · by_cases hchild : id = child
    · subst hchild
      cases scene.get? id <;> simp [hid]
    · simp [hid, hchild]

theorem node?_attach
    (scene : Scene) {parent child : NodeId} (children : List NodeId) (hne : child ≠ parent)
    (id : NodeId) : (scene.attach parent child children).node? id = scene.node? id := by
  unfold node?
  rw [get?_attach scene parent child children id hne]
  by_cases hid : id = child
  · subst hid
    cases scene.get? id <;> simp
  · by_cases hparent : id = parent
    · subst hparent
      cases scene.get? id <;> simp [hid]
    · simp [hid, hparent]

/-- Putting a node into a container makes no leaf a container. -/
theorem isContainer_attach
    (scene : Scene) {parent child : NodeId} {children : List NodeId} (hne : child ≠ parent)
    (hchildren : scene.children? parent = some children) (id : NodeId) :
    (scene.attach parent child children).isContainer id = scene.isContainer id := by
  unfold isContainer children? at *
  rw [get?_attach scene parent child children id hne]
  by_cases hid : id = child
  · subst hid
    cases scene.get? id <;> simp
  · by_cases hparent : id = parent
    · subst hparent
      obtain ⟨cell, hcell, hsome⟩ := Option.bind_eq_some_iff.mp hchildren
      simp [hid, hcell, hsome]
    · simp [hid, hparent]

/-! ## Loading builds -/

theorem edited_addDocument (scene : Scene) (document : Document) :
    ∃ step, (scene.addDocument document).1 = scene.edit step := by
  unfold addDocument
  split
  · exact ⟨.addContainer document.node, rfl⟩
  · exact ⟨.addLeaf document.node, rfl⟩

theorem edited_addUnder
    {loading loaded : Loading} {parent : NodeId} {documents : List Document}
    {waiting : List Waiting}
    (h : addUnder loading parent documents waiting = .ok loaded) :
    ∃ edits, loaded.scene = loading.scene.edited edits := by
  fun_induction addUnder loading parent documents waiting with
  | case1 loading parent =>
      cases h
      exact ⟨[], rfl⟩
  | case2 loading parent next children rest ih => exact ih h
  | case3 => cases h
  | case4 loading parent waiting document others grown id hadd scene happend ih =>
      obtain ⟨step, hstep⟩ := edited_addDocument loading.scene document
      obtain ⟨edits, hedits⟩ := ih h
      refine ⟨step :: .append parent id :: edits, ?_⟩
      rw [hadd] at hstep
      rw [hedits, edited_cons, edited_cons, ← hstep]
      simp only [edit, happend]

/-- A loaded scene is one that can be built step by step. -/
theorem exists_edited_of_ofText {text : String} {loaded : Loaded} (h : ofText text = .ok loaded) :
    ∃ root edits, loaded.scene = (ofRoot root).edited edits := by
  unfold ofText at h
  split at h
  · cases h
  · rename_i document _
    split at h
    · cases h
    · rename_i loading hloading
      cases h
      obtain ⟨edits, hedits⟩ := edited_addUnder hloading
      exact ⟨document.node, edits, hedits⟩

end Scene

end Scenery
