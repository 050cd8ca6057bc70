import Mathlib.Data.List.Nodup
import Mathlib.Data.List.Perm.Subperm
import Scenery.Proofs.Building

/-!
# The forest of a scene

A node knows its container, and a container lists its children.  In every scene
that can be built these links say the same, and the walk from a node through
the containers around it comes to an end.  The walk is a relation of its own,
`Lineage`, which has no bound built in; `ancestors` is that walk.
-/

namespace Scenery

/-- There are no more nodes than numbers for them. -/
theorem length_le_of_nodup {nodes : List NodeId} {size : Nat} (hnodup : nodes.Nodup)
    (h : ∀ node ∈ nodes, node.index < size) : nodes.length ≤ size := by
  have hindices : (nodes.map NodeId.index).Nodup := by
    refine hnodup.map ?_
    rintro ⟨first⟩ ⟨second⟩ rfl
    rfl
  have hsubset : nodes.map NodeId.index ⊆ List.range size := by
    intro index hindex
    obtain ⟨node, hnode, rfl⟩ := List.mem_map.mp hindex
    rw [List.mem_range]
    exact h node hnode
  have hlength := (hindices.subperm hsubset).length_le
  rwa [List.length_map, List.length_range] at hlength

/-! ## Lineages -/

/-- The nodes met on the way up from a node, as far as the way goes. -/
inductive Lineage (up : NodeId → Option NodeId) : NodeId → List NodeId → Prop where
  /-- The way ends at a node with nothing above it. -/
  | top {id : NodeId} (h : up id = none) : Lineage up id []
  | above {id parent : NodeId} {chain : List NodeId} (h : up id = some parent)
      (rest : Lineage up parent chain) : Lineage up id (parent :: chain)

namespace Lineage

variable {up : NodeId → Option NodeId} {id : NodeId} {chain : List NodeId}

theorem unique {other : List NodeId} (h : Lineage up id chain) (h' : Lineage up id other) :
    chain = other := by
  induction h generalizing other with
  | top hup =>
      cases h' with
      | top => rfl
      | above hup' => simp [hup] at hup'
  | above hup _ ih =>
      cases h' with
      | top hup' => simp [hup] at hup'
      | above hup' rest' =>
          rw [hup] at hup'
          cases hup'
          rw [ih rest']

/-- The rest of a way is the way of the node where it begins. -/
theorem of_append {before after : List NodeId} {middle : NodeId}
    (h : Lineage up id (before ++ middle :: after)) : Lineage up middle after := by
  induction before generalizing id with
  | nil =>
      cases h with
      | above _ rest => exact rest
  | cons first before ih =>
      cases h with
      | above _ rest => exact ih rest

/-- Nothing stands above itself: its way would go on without end. -/
theorem not_mem (h : Lineage up id chain) : id ∉ chain := by
  intro hmem
  obtain ⟨before, after, rfl⟩ := List.append_of_mem hmem
  have heq := h.unique h.of_append
  have hlength := congrArg List.length heq
  simp only [List.length_append, List.length_cons] at hlength
  omega

theorem nodup (h : Lineage up id chain) : (id :: chain).Nodup := by
  induction h with
  | top => simp
  | above hup rest ih => exact List.nodup_cons.mpr ⟨(above hup rest).not_mem, ih⟩

theorem up_getLastD (h : Lineage up id chain) : up (chain.getLastD id) = none := by
  induction h with
  | top hup => exact hup
  | above _ _ ih =>
      rw [List.getLastD_cons]
      exact ih

theorem exists_up_of_mem {node : NodeId} (h : Lineage up id chain) (hmem : node ∈ chain) :
    ∃ below, up below = some node := by
  induction h with
  | top => simp at hmem
  | above hup _ ih =>
      rcases List.mem_cons.mp hmem with rfl | hmem
      · exact ⟨_, hup⟩
      · exact ih hmem

theorem mem_trans {middle node : NodeId} {rest : List NodeId}
    (h : Lineage up id chain) (hmiddle : middle ∈ chain)
    (hrest : Lineage up middle rest) (hnode : node ∈ rest) : node ∈ chain := by
  obtain ⟨before, after, rfl⟩ := List.append_of_mem hmiddle
  rw [h.of_append.unique hrest]
  simp [hnode]

/-- Of two nodes on one way, one stands above the other. -/
theorem comparable {first second : NodeId} {before after : List NodeId}
    (h : Lineage up id chain) (hfirst : first ∈ id :: chain) (hsecond : second ∈ id :: chain)
    (hbefore : Lineage up first before) (hafter : Lineage up second after) :
    first = second ∨ second ∈ before ∨ first ∈ after := by
  induction h with
  | top hup =>
      rw [List.mem_singleton] at hfirst hsecond
      exact .inl (hfirst.trans hsecond.symm)
  | above hup rest ih =>
      rcases List.mem_cons.mp hfirst with heq | hmem
      · rcases List.mem_cons.mp hsecond with heq' | hmem'
        · exact .inl (heq.trans heq'.symm)
        · subst heq
          rw [hbefore.unique (above hup rest)]
          exact .inr (.inl hmem')
      · rcases List.mem_cons.mp hsecond with heq' | hmem'
        · subst heq'
          rw [hafter.unique (above hup rest)]
          exact .inr (.inr hmem)
        · exact ih hmem hmem'

/-- A way depends only on the links that it uses. -/
theorem congr {up' : NodeId → Option NodeId} (h : Lineage up id chain)
    (hsame : ∀ node ∈ id :: chain, up' node = up node) : Lineage up' id chain := by
  induction h with
  | top hup => exact top (by rw [hsame _ List.mem_cons_self, hup])
  | above hup _ ih =>
      refine above (by rw [hsame _ List.mem_cons_self, hup]) (ih ?_)
      intro node hnode
      exact hsame node (List.mem_cons_of_mem _ hnode)

/--
A topmost node gets something above it: the ways that ended there go on, all others
are as before.
-/
theorem attach {up' : NodeId → Option NodeId} {parent child : NodeId} {around : List NodeId}
    (hup' : ∀ node, up' node = if node = child then some parent else up node)
    (hchild : up child = none) (haround : Lineage up parent around)
    (houtside : child ∉ parent :: around) (h : Lineage up id chain) :
    Lineage up' id (if child ∈ id :: chain then chain ++ parent :: around else chain) := by
  have hparent : Lineage up' parent around := by
    refine haround.congr ?_
    intro node hnode
    rw [hup', if_neg]
    rintro rfl
    exact houtside hnode
  induction h with
  | @top id hup =>
      by_cases hid : id = child
      · subst hid
        simpa using above (by simp [hup']) hparent
      · rw [if_neg (by simpa using Ne.symm hid)]
        exact top (by rw [hup', if_neg hid, hup])
  | @above id next chain hup _ ih =>
      have hid : id ≠ child := by
        rintro rfl
        simp [hchild] at hup
      have hnext : up' id = some next := by
        rw [hup', if_neg hid, hup]
      by_cases hmem : child ∈ next :: chain
      · rw [if_pos hmem] at ih
        rw [if_pos (List.mem_cons_of_mem _ hmem)]
        exact above hnext ih
      · rw [if_neg hmem] at ih
        rw [if_neg (by simpa [Ne.symm hid] using hmem)]
        exact above hnext ih

end Lineage

namespace Scene

/-! ## The invariant -/

/-- The two links of the nodes agree, and every way up ends. -/
structure Linked (scene : Scene) : Prop where
  mem_childrenOf_iff : ∀ parent child,
    child ∈ scene.childrenOf parent ↔ scene.parent? child = some parent
  nodup_childrenOf : ∀ parent, (scene.childrenOf parent).Nodup
  isContainer_root : scene.isContainer .root = true
  exists_lineage : ∀ id, ∃ chain, Lineage scene.parent? id chain

theorem linked_ofRoot (node : Node) : (ofRoot node).Linked := by
  have hparent : ∀ id, (ofRoot node).parent? id = none := by
    intro id
    unfold parent? get? ofRoot
    cases id.index <;> simp
  have hchildren : ∀ id, (ofRoot node).childrenOf id = [] := by
    intro id
    unfold childrenOf children? get? ofRoot
    cases id.index <;> simp
  constructor
  · simp [hparent, hchildren]
  · simp [hchildren]
  · rfl
  · intro id
    exact ⟨[], .top (hparent id)⟩

theorem linked_add {scene : Scene} {cell : Cell} (h : scene.Linked)
    (hparent : cell.parent = none) (hchildren : cell.children.getD [] = []) :
    (scene.add cell).1.Linked := by
  have hup : (scene.add cell).1.parent? = scene.parent? := funext (parent?_add scene hparent)
  constructor
  · intro parent child
    rw [childrenOf_add scene hchildren, hup]
    exact h.mem_childrenOf_iff parent child
  · intro parent
    rw [childrenOf_add scene hchildren]
    exact h.nodup_childrenOf parent
  · exact isContainer_add scene cell h.isContainer_root
  · rw [hup]
    exact h.exists_lineage

/-! ## Ancestors -/

theorem firstAncestors_of_lineage (scene : Scene) {id : NodeId} {chain : List NodeId}
    (h : Lineage scene.parent? id chain) {count : Nat} (hcount : chain.length ≤ count) :
    scene.firstAncestors count id = chain := by
  induction h generalizing count with
  | top hup =>
      cases count with
      | zero => rfl
      | succ count => simp [firstAncestors, hup]
  | above hup _ ih =>
      cases count with
      | zero => simp at hcount
      | succ count =>
          have hrest := ih (Nat.le_of_succ_le_succ hcount)
          simp [firstAncestors, hup, hrest]

namespace Linked

variable {scene : Scene} (h : scene.Linked)

include h

theorem parent_lt {child parent : NodeId} (hparent : scene.parent? child = some parent) :
    parent.index < scene.size := by
  have hmem := (h.mem_childrenOf_iff parent child).mpr hparent
  rw [← isSome_get?_iff]
  unfold childrenOf children? at hmem
  cases hget : scene.get? parent with
  | none => simp [hget] at hmem
  | some _ => rfl

theorem lt_of_mem_lineage {id node : NodeId} {chain : List NodeId}
    (hlineage : Lineage scene.parent? id chain) (hmem : node ∈ chain) :
    node.index < scene.size := by
  obtain ⟨below, hbelow⟩ := hlineage.exists_up_of_mem hmem
  exact h.parent_lt hbelow

theorem length_lineage_lt {id : NodeId} {chain : List NodeId}
    (hlineage : Lineage scene.parent? id chain) : chain.length < scene.size := by
  cases hlineage with
  | top => exact scene.cells_nonempty
  | @above _ parent chain hup rest =>
      have hknown : id.index < scene.size := lt_size_of_parent? hup
      have hlineage := Lineage.above hup rest
      have hknown : ∀ node ∈ id :: parent :: chain, node.index < scene.size := by
        intro node hnode
        rcases List.mem_cons.mp hnode with rfl | hnode
        · exact hknown
        · exact h.lt_of_mem_lineage hlineage hnode
      have hlength := length_le_of_nodup hlineage.nodup hknown
      simp only [List.length_cons] at hlength ⊢
      omega

theorem lineage_ancestors (id : NodeId) :
    Lineage scene.parent? id (scene.ancestors id) := by
  obtain ⟨chain, hchain⟩ := h.exists_lineage id
  unfold ancestors
  rw [scene.firstAncestors_of_lineage hchain (Nat.le_of_lt (h.length_lineage_lt hchain))]
  exact hchain

end Linked

/-! ## Every step keeps the invariant -/

theorem linked_attach {scene : Scene} {parent child : NodeId} {children : List NodeId}
    (h : scene.Linked) (hknown : child.index < scene.size) (hdetached : scene.parent? child = none)
    (hne : child ≠ parent) (houtside : child ∉ scene.ancestors parent)
    (hchildren : scene.children? parent = some children) :
    (scene.attach parent child children).Linked := by
  have hup := parent?_attach scene children hne hknown
  have hbelow := childrenOf_attach scene hne hchildren
  have hnew : child ∉ scene.childrenOf parent := by
    rw [h.mem_childrenOf_iff, hdetached]
    simp
  constructor
  · intro holder node
    rw [hbelow, hup]
    by_cases hholder : holder = parent
    · subst hholder
      rw [if_pos rfl, List.mem_append, List.mem_singleton, h.mem_childrenOf_iff]
      by_cases hnode : node = child
      · simp [hnode]
      · simp [hnode]
    · rw [if_neg hholder, h.mem_childrenOf_iff]
      by_cases hnode : node = child
      · simp [hnode, hdetached, Ne.symm hholder]
      · simp [hnode]
  · intro holder
    rw [hbelow]
    by_cases hholder : holder = parent
    · rw [if_pos hholder]
      rw [← List.concat_eq_append]
      exact (h.nodup_childrenOf parent).concat hnew
    · rw [if_neg hholder]
      exact h.nodup_childrenOf holder
  · exact (scene.isContainer_attach hne hchildren .root).trans h.isContainer_root
  · intro id
    obtain ⟨chain, hchain⟩ := h.exists_lineage id
    -- `child` is not on the way up from `parent`, so no way comes back to where it began.
    have haround := h.lineage_ancestors parent
    exact ⟨_, .attach hup hdetached haround (by simp [hne, houtside]) hchain⟩

theorem linked_edit {scene : Scene} (h : scene.Linked) (step : Edit) :
    (scene.edit step).Linked := by
  cases step with
  | addContainer node => exact linked_add h rfl rfl
  | addLeaf node => exact linked_add h rfl rfl
  | append parent child =>
      simp only [edit]
      split
      · rename_i grown hgrown
        obtain ⟨hknown, hdetached, hne, houtside, children, hchildren, rfl⟩ :=
          (append_eq_ok_iff ..).mp hgrown
        exact linked_attach h hknown hdetached hne houtside hchildren
      · exact h

theorem linked_edited {scene : Scene} (h : scene.Linked) (edits : List Edit) :
    (scene.edited edits).Linked := by
  induction edits generalizing scene with
  | nil => exact h
  | cons step edits ih => exact ih (linked_edit h step)

theorem Initial.linked {scene : Scene} (h : Initial scene) : scene.Linked := by
  cases h with
  | ofRoot node => exact linked_ofRoot node
  | ofText h =>
      obtain ⟨root, edits, hscene⟩ := exists_edited_of_ofText h
      rw [hscene]
      exact linked_edited (linked_ofRoot root) edits

theorem Reachable.linked {scene : Scene} (h : Reachable scene) : scene.Linked := by
  obtain ⟨initial, edits, hinitial, rfl⟩ := h
  exact linked_edited hinitial.linked edits

/-! ## What the invariant says -/

/-- The nodes of a scene form a forest, in which each way up ends, and its two links agree. -/
structure IsForest (scene : Scene) : Prop where
  child_lt : ∀ parent child, child ∈ scene.childrenOf parent → child.index < scene.size
  parent_lt : ∀ child parent, scene.parent? child = some parent → parent.index < scene.size
  mem_childrenOf_iff : ∀ parent child,
    child ∈ scene.childrenOf parent ↔ scene.parent? child = some parent
  nodup_childrenOf : ∀ parent, (scene.childrenOf parent).Nodup
  isContainer_of_parent : ∀ child parent,
    scene.parent? child = some parent → scene.isContainer parent = true
  isContainer_root : scene.isContainer .root = true
  /-- The way up from a node ends, and `ancestors` is the whole of it. -/
  lineage_ancestors : ∀ id, Lineage scene.parent? id (scene.ancestors id)
  length_ancestors_lt : ∀ id, (scene.ancestors id).length < scene.size
  /-- No node is met twice on the way up, and none meets itself. -/
  nodup_ancestors : ∀ id, (id :: scene.ancestors id).Nodup
  /-- The last node on the way up, or the node itself, stands in no container. -/
  parent?_top : ∀ id, scene.parent? ((scene.ancestors id).getLastD id) = none

theorem Linked.isForest {scene : Scene} (h : scene.Linked) : scene.IsForest where
  child_lt := by
    intro parent child hmem
    have hparent := (h.mem_childrenOf_iff parent child).mp hmem
    exact lt_size_of_parent? hparent
  parent_lt := fun _ _ => h.parent_lt
  mem_childrenOf_iff := h.mem_childrenOf_iff
  nodup_childrenOf := h.nodup_childrenOf
  isContainer_of_parent := by
    intro child parent hparent
    have hmem := (h.mem_childrenOf_iff parent child).mpr hparent
    unfold childrenOf at hmem
    unfold isContainer
    cases hchildren : scene.children? parent with
    | none => simp [hchildren] at hmem
    | some _ => rfl
  isContainer_root := h.isContainer_root
  lineage_ancestors := h.lineage_ancestors
  length_ancestors_lt := fun id => h.length_lineage_lt (h.lineage_ancestors id)
  nodup_ancestors := fun id => (h.lineage_ancestors id).nodup
  parent?_top := fun id => (h.lineage_ancestors id).up_getLastD

theorem isForest_edited (root : Node) (edits : List Edit) :
    ((ofRoot root).edited edits).IsForest :=
  (linked_edited (linked_ofRoot root) edits).isForest

/-- Every scene that is built step by step or loaded is a forest. -/
theorem isForest_built_and_loaded (root : Node) (edits : List Edit) :
    ((ofRoot root).edited edits).IsForest ∧
      ∀ text loaded, ofText text = .ok loaded → loaded.scene.IsForest := by
  refine ⟨isForest_edited root edits, ?_⟩
  intro text loaded hloaded
  obtain ⟨node, steps, hscene⟩ := exists_edited_of_ofText hloaded
  rw [hscene]
  exact isForest_edited node steps

theorem isForest_of_nested_document :
    let text := "\x7b\"id\":\"p\",\"type\":\"PAGE\",\"children\":[" ++
      "\x7b\"id\":\"f\",\"type\":\"FRAME\",\"children\":[" ++
      "\x7b\"id\":\"r\",\"type\":\"RECT\"\x7d]\x7d," ++
      "\x7b\"id\":\"t\",\"type\":\"TEXT\"\x7d]\x7d"
    ∃ loaded, ofText text = .ok loaded ∧ loaded.scene.size = 4 ∧ loaded.scene.IsForest := by
  intro text
  have hsize : (ofText text).toOption.map (·.scene.size) = some 4 := by decide +kernel
  cases hloaded : ofText text with
  | error error =>
      rw [hloaded] at hsize
      cases hsize
  | ok loaded =>
      rw [hloaded] at hsize
      refine ⟨loaded, rfl, Option.some.inj hsize, ?_⟩
      exact (isForest_built_and_loaded (.ofType "p" "PAGE") []).2 text loaded hloaded

end Scene

end Scenery
