import Scenery.Proofs.Loading

/-!
# Where the root stands

No scene begins with its root in a container.  A step that puts a node into a
container asks whether the node stands in one already, and whether it would come
to stand below itself; the root is a node like any other there.  So the root
stands in no container exactly as long as every step that would put it into one
was refused, and a container that is detached itself does not refuse it.
-/

namespace Scenery

namespace Scene

theorem exists_error_append_iff (scene : Scene) (parent child : NodeId) :
    (∃ error, scene.append parent child = .error error) ↔
      scene.size ≤ child.index ∨ scene.parent? child ≠ none ∨ child = parent ∨
        child ∈ scene.ancestors parent ∨ scene.isContainer parent = false := by
  have hok : (∃ error, scene.append parent child = .error error) ↔
      ¬ ∃ grown, scene.append parent child = .ok grown := by
    cases scene.append parent child <;> simp
  have hcontainer : scene.isContainer parent = false ↔
      ¬ ∃ children, scene.children? parent = some children := by
    unfold isContainer
    cases scene.children? parent <;> simp
  rw [hok, hcontainer]
  simp only [append_eq_ok_iff]
  constructor
  · intro hrefused
    by_contra hmeets
    simp only [not_or, not_not, Nat.not_le] at hmeets
    obtain ⟨hknown, hdetached, hne, houtside, children, hchildren⟩ := hmeets
    exact hrefused ⟨_, hknown, hdetached, hne, houtside, children, hchildren, rfl⟩
  · rintro hfails ⟨grown, hknown, hdetached, hne, houtside, children, hchildren, -⟩
    rcases hfails with hunknown | hattached | heq | hmem | hnone
    · exact Nat.not_lt.mpr hunknown hknown
    · exact hattached hdetached
    · exact hne heq
    · exact houtside hmem
    · exact hnone ⟨children, hchildren⟩

/-! ## How long a node stays outside -/

/-- Only a step that puts this very node into a container changes where it stands. -/
theorem parent?_edit_eq_none_iff (scene : Scene) (step : Edit) (id : NodeId) :
    (scene.edit step).parent? id = none ↔
      scene.parent? id = none ∧
        ∀ holder, step = .append holder id → ∃ error, scene.append holder id = .error error := by
  cases step with
  | addContainer node => simp [edit, addContainer, parent?_add]
  | addLeaf node => simp [edit, addLeaf, parent?_add]
  | append parent child =>
      simp only [edit]
      cases happend : scene.append parent child with
      | error error =>
          simp only [iff_self_and]
          rintro - holder hstep
          cases hstep
          exact ⟨error, happend⟩
      | ok grown =>
          obtain ⟨hknown, -, hne, -, children, -, rfl⟩ := (append_eq_ok_iff ..).mp happend
          simp only [parent?_attach scene children hne hknown]
          by_cases hid : id = child
          · subst hid
            simp [happend]
          · simp [hid, Ne.symm hid]

/-- A node stays outside as long as every step that would put it into a container is refused. -/
theorem parent?_edited_eq_none_iff (scene : Scene) (edits : List Edit) (id : NodeId) :
    (scene.edited edits).parent? id = none ↔
      scene.parent? id = none ∧
        ∀ front holder back, edits = front ++ .append holder id :: back →
          ∃ error, (scene.edited front).append holder id = .error error := by
  induction edits generalizing scene with
  | nil => simp
  | cons step edits ih =>
      rw [edited_cons, ih, parent?_edit_eq_none_iff, and_assoc]
      refine and_congr_right fun _ => ?_
      constructor
      · rintro ⟨hstep, hrest⟩ front holder back hsplit
        cases front with
        | nil =>
            cases hsplit
            exact hstep holder rfl
        | cons first front =>
            obtain ⟨rfl, hedits⟩ := List.cons.inj hsplit
            exact hrest front holder back hedits
      · intro hrefused
        refine ⟨?_, ?_⟩
        · rintro holder rfl
          exact hrefused [] holder edits rfl
        · rintro front holder back rfl
          exact hrefused (step :: front) holder back rfl

/-! ## The root -/

theorem parent?_root_of_ofText {text : String} {loaded : Loaded} (h : ofText text = .ok loaded) :
    loaded.scene.parent? .root = none := by
  unfold ofText at h
  split at h
  · cases h
  · rename_i document _
    split at h
    · cases h
    · rename_i loading hloading
      cases h
      obtain ⟨built, hbuilt, -, hcompletes⟩ := exists_ofDocument document
      have hsame : built = loading := Except.ok.inj (hbuilt.symm.trans hloading)
      rw [← hsame]
      exact hcompletes.parent?_eq .root Nat.zero_lt_one

theorem Initial.parent?_root {scene : Scene} (h : Initial scene) : scene.parent? .root = none := by
  cases h with
  | ofRoot node => rfl
  | ofText h => exact parent?_root_of_ofText h

/-- A way up that passes a node which stands in no container ends there. -/
theorem getLast?_ancestors_of_parent?_eq_none {scene : Scene} (h : scene.Linked)
    {id top : NodeId} (htop : scene.parent? top = none) (hmem : top ∈ scene.ancestors id) :
    (scene.ancestors id).getLast? = some top := by
  have hlineage := h.lineage_ancestors id
  obtain ⟨before, after, hsplit⟩ := List.append_of_mem hmem
  rw [hsplit] at hlineage ⊢
  have hafter : after = [] := hlineage.of_append.unique (.top htop)
  rw [hafter, List.getLast?_concat]

/--
The root of a scene stands in no container if and only if every step that would put it into
one was refused, and as long as it stands in none each way up that passes it ends there.  What
is refused is the root itself, a node below the root, and what is no container.
-/
theorem parent?_root_eq_none_iff {initial : Scene} (h : Initial initial) (edits : List Edit) :
    let scene := initial.edited edits
    (scene.parent? .root = none ↔
      ∀ front holder back, edits = front ++ .append holder .root :: back →
        ∃ error, (initial.edited front).append holder .root = .error error) ∧
    (scene.parent? .root = none →
      (∀ id, .root ∈ scene.ancestors id → (scene.ancestors id).getLast? = some .root) ∧
        ∀ holder, (∃ error, scene.append holder .root = .error error) ↔
          holder = .root ∨ .root ∈ scene.ancestors holder ∨ scene.isContainer holder = false) := by
  intro scene
  have hlinked : scene.Linked := linked_edited h.linked edits
  refine ⟨?_, fun htop => ⟨?_, ?_⟩⟩
  · rw [parent?_edited_eq_none_iff, h.parent?_root]
    exact and_iff_right rfl
  · intro id hmem
    exact getLast?_ancestors_of_parent?_eq_none hlinked htop hmem
  · intro holder
    have hknown : ¬ scene.size ≤ NodeId.root.index := Nat.not_le.mpr scene.cells_nonempty
    rw [exists_error_append_iff, eq_comm (a := NodeId.root)]
    simp only [hknown, htop, ne_eq, not_true_eq_false, false_or]

/-- A frame in the root refuses the root, and so does the root itself. -/
theorem parent?_root_of_refused_steps :
    let initial := ofRoot (.ofType "p" "PAGE")
    let edits : List Edit := [.addContainer (.ofType "f" "FRAME"), .append .root ⟨1⟩,
      .append ⟨1⟩ .root, .append .root .root, .addLeaf (.ofType "r" "RECT"), .append ⟨1⟩ ⟨2⟩]
    Initial initial ∧ (initial.edited edits).parent? .root = none ∧
      ((initial.edited edits).ancestors ⟨2⟩).getLast? = some .root := by
  intro initial edits
  have hinitial : Initial initial := .ofRoot _
  have htop : (initial.edited edits).parent? .root = none := by decide +kernel
  have hmem : .root ∈ (initial.edited edits).ancestors ⟨2⟩ := by decide +kernel
  exact ⟨hinitial, htop, ((parent?_root_eq_none_iff hinitial edits).2 htop).1 ⟨2⟩ hmem⟩

/-- A detached frame takes the root, and then the way up from a leaf goes on behind the root. -/
theorem parent?_root_of_detached_frame :
    let scene := (ofRoot (.ofType "p" "PAGE")).edited [.addLeaf (.ofType "r" "RECT"),
      .append .root ⟨1⟩, .addContainer (.ofType "f" "FRAME"), .append ⟨2⟩ .root]
    scene.parent? .root = some ⟨2⟩ ∧ scene.ancestors ⟨1⟩ = [.root, ⟨2⟩] := by
  decide +kernel

end Scene

end Scenery
