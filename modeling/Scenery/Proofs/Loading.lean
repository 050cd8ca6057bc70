import Scenery.Proofs.Forest

/-!
# What loading builds

A document is put into a scene node by node, and the containers wait with their
children in a list.  Whatever waits, every node that is added can be put where
the document has it, and when nothing waits any more the scene shows the
document: its nodes with their data and their children in order, and no others.
-/

namespace Scenery

/-! ## Documents and scenes -/

namespace Document

/-- A node carries the identifier, the type and of the attributes the scalars. -/
structure Describes (id type : String) (attributes : Keyed Json) (node : Node) : Prop where
  id_eq : node.id = id
  tag_eq : node.tag = Text.upperCase type
  get?_eq_some_iff : ∀ name value,
    node.attributes.get? name = some value ↔ attributes.get? name = some value.toJson

/-- The document with a list of children, if only an empty one. -/
def asContainer : Document → Document
  | mk id type attributes children => mk id type attributes (some (children.getD []))

theorem describes_node (id type : String) (attributes : Keyed Json)
    (children : Option (List Document)) :
    Describes id type attributes (mk id type attributes children).node := by
  refine ⟨rfl, rfl, ?_⟩
  intro name value
  change (attributes.filterMap Json.scalar?).get? name = some value ↔ _
  rw [Keyed.get?_filterMap, Option.bind_eq_some_iff]
  constructor
  · rintro ⟨json, hjson, hvalue⟩
    rw [hjson, Json.eq_toJson_of_scalar? hvalue]
  · intro hjson
    exact ⟨value.toJson, hjson, value.scalar?_toJson⟩

/-- What a document says of its topmost node leaves no choice. -/
theorem Describes.unique {id type : String} {attributes : Keyed Json} {node other : Node}
    (h : Describes id type attributes node) (hother : Describes id type attributes other) :
    node = other := by
  obtain ⟨id, tag, found⟩ := node
  obtain ⟨id', tag', found'⟩ := other
  have hfound : found = found' := by
    apply Keyed.eq_of_get?_eq
    intro name
    apply Option.ext
    intro value
    exact (h.get?_eq_some_iff name value).trans (hother.get?_eq_some_iff name value).symm
  rw [Node.mk.injEq]
  exact ⟨h.id_eq.trans hother.id_eq.symm, h.tag_eq.trans hother.tag_eq.symm, hfound⟩

end Document

namespace Scene

mutual

/-- A node with all that stands below it is what a document says. -/
def Depicts (scene : Scene) : Document → NodeId → Prop
  | .mk name type attributes none, id =>
    (∃ node, scene.node? id = some node ∧ Document.Describes name type attributes node) ∧
      scene.children? id = none
  | .mk name type attributes (some documents), id =>
    (∃ node, scene.node? id = some node ∧ Document.Describes name type attributes node) ∧
      ∃ ids, scene.children? id = some ids ∧ scene.DepictsAll documents ids

/-- The nodes of a list are what the documents of a list say, one by one. -/
def DepictsAll (scene : Scene) : List Document → List NodeId → Prop
  | [], ids => ids = []
  | document :: documents, ids =>
    ∃ id others, ids = id :: others ∧ scene.Depicts document id ∧ scene.DepictsAll documents others

end

theorem isContainer_iff (scene : Scene) (id : NodeId) :
    scene.isContainer id = true ↔ scene.children? id = some (scene.childrenOf id) := by
  unfold isContainer childrenOf
  cases scene.children? id <;> simp

theorem lt_size_of_isContainer {scene : Scene} {id : NodeId} (h : scene.isContainer id = true) :
    id.index < scene.size := by
  rw [← isSome_get?_iff]
  unfold isContainer children? at h
  cases hget : scene.get? id with
  | none => simp [hget] at h
  | some _ => rfl

theorem ne_of_isContainer {scene : Scene} {id : NodeId} (h : scene.isContainer id = true) :
    id ≠ ⟨scene.size⟩ := by
  rintro rfl
  exact Nat.lt_irrefl _ (lt_size_of_isContainer h)

/-! ## One more node -/

/-- The scene with the topmost node of a document behind the children of a container. -/
def place (scene : Scene) (parent : NodeId) (document : Document) : Scene :=
  (scene.addDocument document).1.attach parent ⟨scene.size⟩ (scene.childrenOf parent)

theorem addDocument_eq (scene : Scene) (document : Document) :
    scene.addDocument document =
      scene.add { node := document.node, children := document.children.map fun _ => [] } := by
  unfold addDocument addContainer addLeaf
  cases document.children <;> rfl

@[simp] theorem size_place (scene : Scene) (parent : NodeId) (document : Document) :
    (scene.place parent document).size = scene.size + 1 := by
  rw [place, size_attach, addDocument_eq, size_add]

section Place

variable {scene : Scene} {parent : NodeId} (hparent : scene.isContainer parent = true)
  (document : Document)

include hparent

theorem get?_place (id : NodeId) :
    (scene.place parent document).get? id =
      if id = ⟨scene.size⟩ then
        some {
          node := document.node
          parent := some parent
          children := document.children.map fun _ => [] }
      else if id = parent then
        (scene.get? parent).map fun cell =>
          { cell with children := some (scene.childrenOf parent ++ [⟨scene.size⟩]) }
      else scene.get? id := by
  have hne := (ne_of_isContainer hparent).symm
  have hindex : ∀ other : NodeId, other.index = scene.size ↔ other = ⟨scene.size⟩ := by
    rintro ⟨index⟩
    simp
  rw [place, get?_attach _ _ _ _ _ hne, addDocument_eq]
  simp only [get?_add, hindex]
  by_cases hid : id = ⟨scene.size⟩
  · simp [hid]
  · by_cases hholder : id = parent
    · simp [hholder, Ne.symm hne]
    · simp [hid, hholder]

theorem node?_place (id : NodeId) :
    (scene.place parent document).node? id =
      if id = ⟨scene.size⟩ then some document.node else scene.node? id := by
  unfold node?
  rw [get?_place hparent]
  by_cases hid : id = ⟨scene.size⟩
  · simp [hid]
  · by_cases hholder : id = parent
    · subst hholder
      cases scene.get? id <;> simp [hid]
    · simp [hid, hholder]

theorem parent?_place (id : NodeId) :
    (scene.place parent document).parent? id =
      if id = ⟨scene.size⟩ then some parent else scene.parent? id := by
  unfold parent?
  rw [get?_place hparent]
  by_cases hid : id = ⟨scene.size⟩
  · simp [hid]
  · by_cases hholder : id = parent
    · subst hholder
      cases scene.get? id <;> simp [hid]
    · simp [hid, hholder]

theorem children?_place (id : NodeId) :
    (scene.place parent document).children? id =
      if id = ⟨scene.size⟩ then document.children.map fun _ => []
      else if id = parent then some (scene.childrenOf parent ++ [⟨scene.size⟩])
      else scene.children? id := by
  unfold children?
  rw [get?_place hparent]
  by_cases hid : id = ⟨scene.size⟩
  · simp [hid]
  · by_cases hholder : id = parent
    · have hknown := (scene.isSome_get?_iff parent).mpr (lt_size_of_isContainer hparent)
      obtain ⟨cell, hcell⟩ := Option.isSome_iff_exists.mp hknown
      subst hholder
      simp [hid, hcell]
    · simp [hid, hholder]

theorem isContainer_place (id : NodeId) :
    (scene.place parent document).isContainer id =
      if id = ⟨scene.size⟩ then document.children.isSome else scene.isContainer id := by
  unfold isContainer at hparent ⊢
  rw [children?_place hparent]
  by_cases hid : id = ⟨scene.size⟩
  · simp [hid]
  · by_cases hholder : id = parent
    · subst hholder
      simp [hid, hparent]
    · simp [hid, hholder]

theorem childrenOf_place (id : NodeId) :
    (scene.place parent document).childrenOf id =
      if id = ⟨scene.size⟩ then []
      else if id = parent then scene.childrenOf parent ++ [⟨scene.size⟩]
      else scene.childrenOf id := by
  unfold childrenOf
  rw [children?_place hparent]
  by_cases hid : id = ⟨scene.size⟩
  · cases document.children <;> simp [hid]
  · by_cases hholder : id = parent
    · subst hholder
      simp [hid, childrenOf]
    · simp [hid, hholder]

/-- A node that was just added can be put into any container. -/
theorem append_addDocument (h : scene.Linked) :
    (scene.addDocument document).1.append parent (scene.addDocument document).2 =
      .ok (scene.place parent document) := by
  have hne := (ne_of_isContainer hparent).symm
  rw [append_eq_ok_iff]
  unfold place
  rw [addDocument_eq]
  generalize hcell : ({ node := document.node, children := document.children.map fun _ => [] } :
    Cell) = cell
  have hdetached : cell.parent = none := by
    rw [← hcell]
  have hchildren : cell.children.getD [] = [] := by
    rw [← hcell]
    cases document.children <;> rfl
  have hup : (scene.add cell).1.parent? = scene.parent? := funext (parent?_add scene hdetached)
  refine ⟨?_, ?_, hne, ?_, scene.childrenOf parent, ?_, rfl⟩
  · rw [size_add]
    exact Nat.lt_succ_self _
  · rw [hup]
    unfold parent?
    have hnone : scene.get? (scene.add cell).2 = none :=
      (scene.get?_eq_none_iff _).mpr (Nat.le_refl _)
    rw [hnone]
    rfl
  · -- The way up from the container was there before the node was.
    intro hmem
    have hlineage := (linked_add h hdetached hchildren).lineage_ancestors parent
    rw [hup] at hlineage
    exact Nat.lt_irrefl _ (h.lt_of_mem_lineage hlineage hmem)
  · have hcontainer := isContainer_add scene cell hparent
    rw [isContainer_iff, childrenOf_add scene hchildren] at hcontainer
    exact hcontainer

theorem linked_place (h : scene.Linked) : (scene.place parent document).Linked := by
  obtain ⟨step, hstep⟩ := edited_addDocument scene document
  have hadded := linked_edit h step
  rw [← hstep] at hadded
  have hplaced := linked_edit hadded (.append parent (scene.addDocument document).2)
  simpa only [edit, append_addDocument hparent document h] using hplaced

end Place

/-! ## What waits -/

/-- How many nodes wait to be added. -/
def waitingCount : List Waiting → Nat
  | [] => 0
  | (_, documents) :: rest => Document.countAll documents + waitingCount rest

theorem waitingCount_append (first second : List Waiting) :
    waitingCount (first ++ second) = waitingCount first + waitingCount second := by
  induction first with
  | nil => simp [waitingCount]
  | cons entry rest ih =>
      rw [List.cons_append, waitingCount, waitingCount, ih]
      omega

theorem count_eq (id : NodeId) (document : Document) :
    document.count = 1 + waitingCount (waitingUnder id document) := by
  obtain ⟨_, _, _, children⟩ := document
  cases children with
  | none => simp [waitingUnder, Document.children, waitingCount, Document.count]
  | some children => simp [waitingUnder, Document.children, waitingCount, Document.count]

/-- Everything that waits does so under a container of its own. -/
structure Ready (scene : Scene) (waiting : List Waiting) : Prop where
  linked : scene.Linked
  isContainer : ∀ entry ∈ waiting, scene.isContainer entry.1 = true
  nodup : (waiting.map (·.1)).Nodup

theorem Ready.size_not_mem {scene : Scene} {waiting : List Waiting} (h : scene.Ready waiting) :
    (⟨scene.size⟩ : NodeId) ∉ waiting.map (·.1) := by
  intro hmem
  obtain ⟨entry, hentry, hid⟩ := List.mem_map.mp hmem
  exact ne_of_isContainer (h.isContainer entry hentry) hid

theorem Ready.tail {scene : Scene} {entry : Waiting} {waiting : List Waiting}
    (h : scene.Ready (entry :: waiting)) : scene.Ready waiting where
  linked := h.linked
  isContainer := fun other hother => h.isContainer other (List.mem_cons_of_mem _ hother)
  nodup := (List.nodup_cons.mp h.nodup).2

/-- What waited stands where it waited, and nothing else was touched or added. -/
structure Completes (before : Scene) (waiting : List Waiting) (after : Scene) : Prop where
  size_eq : after.size = before.size + waitingCount waiting
  node?_eq : ∀ id, id.index < before.size → after.node? id = before.node? id
  parent?_eq : ∀ id, id.index < before.size → after.parent? id = before.parent? id
  children?_eq : ∀ id, id.index < before.size → id ∉ waiting.map (·.1) →
    after.children? id = before.children? id
  depicts : ∀ entry ∈ waiting, ∃ ids,
    after.children? entry.1 = some (before.childrenOf entry.1 ++ ids) ∧
      after.DepictsAll entry.2 ids
  attached : ∀ id, before.size ≤ id.index → id.index < after.size →
    (after.parent? id).isSome = true

theorem completes_nil (scene : Scene) : scene.Completes [] scene where
  size_eq := rfl
  node?_eq := fun _ _ => rfl
  parent?_eq := fun _ _ => rfl
  children?_eq := fun _ _ _ => rfl
  depicts := by simp
  attached := by
    intro id hle hlt
    omega

/-- Under a container that gets no more children nothing is left to do. -/
theorem Completes.cons_nil {before after : Scene} {parent : NodeId} {waiting : List Waiting}
    (h : before.Completes waiting after) (hready : before.Ready ((parent, []) :: waiting)) :
    before.Completes ((parent, []) :: waiting) after := by
  have hparent := hready.isContainer _ List.mem_cons_self
  have hfresh : parent ∉ waiting.map (·.1) := (List.nodup_cons.mp hready.nodup).1
  refine ⟨?_, h.node?_eq, h.parent?_eq, ?_, ?_, h.attached⟩
  · rw [h.size_eq, waitingCount, Document.countAll]
    omega
  · intro id hid hout
    rw [List.map_cons, List.mem_cons, not_or] at hout
    exact h.children?_eq id hid hout.2
  · intro entry hentry
    rcases List.mem_cons.mp hentry with rfl | hentry
    · refine ⟨[], ?_, rfl⟩
      rw [h.children?_eq parent (lt_size_of_isContainer hparent) hfresh, List.append_nil]
      exact (before.isContainer_iff parent).mp hparent
    · exact h.depicts entry hentry

section Place

variable {scene : Scene} {parent : NodeId} {document : Document} {documents : List Document}
  {waiting : List Waiting}

theorem mem_waitingUnder {id : NodeId} {entry : Waiting} (h : entry ∈ waitingUnder id document) :
    entry.1 = id ∧ document.children = some entry.2 := by
  unfold waitingUnder at h
  cases hchildren : document.children with
  | none => simp [hchildren] at h
  | some children =>
      rw [hchildren, List.mem_singleton] at h
      subst h
      exact ⟨rfl, rfl⟩

theorem not_mem_map_waitingUnder {id other : NodeId} (h : other ≠ id) :
    other ∉ (waitingUnder id document).map (·.1) := by
  intro hmem
  obtain ⟨entry, hentry, rfl⟩ := List.mem_map.mp hmem
  exact h (mem_waitingUnder hentry).1

theorem nodup_map_waitingUnder_append {id : NodeId} (h : (waiting.map (·.1)).Nodup)
    (hid : id ∉ waiting.map (·.1)) :
    ((waitingUnder id document ++ waiting).map (·.1)).Nodup := by
  unfold waitingUnder
  cases document.children with
  | none => exact h
  | some children => exact List.nodup_cons.mpr ⟨hid, h⟩

theorem Ready.place (h : scene.Ready ((parent, document :: documents) :: waiting)) :
    (scene.place parent document).Ready
      ((parent, documents) :: (waitingUnder ⟨scene.size⟩ document ++ waiting)) := by
  have hparent := h.isContainer _ List.mem_cons_self
  obtain ⟨hfresh, hnodup⟩ := List.nodup_cons.mp h.nodup
  have hold : ∀ entry ∈ waiting, scene.isContainer entry.1 = true := by
    intro entry hentry
    exact h.isContainer entry (List.mem_cons_of_mem _ hentry)
  refine ⟨linked_place hparent document h.linked, ?_, ?_⟩
  · intro entry hentry
    rw [isContainer_place hparent]
    rcases List.mem_cons.mp hentry with rfl | hentry
    · rw [if_neg (ne_of_isContainer hparent)]
      exact hparent
    · rcases List.mem_append.mp hentry with hentry | hentry
      · obtain ⟨hid, hchildren⟩ := mem_waitingUnder hentry
        rw [if_pos hid, hchildren]
        rfl
      · rw [if_neg (ne_of_isContainer (hold entry hentry))]
        exact hold entry hentry
  · have hnew := List.mem_cons.not.mp h.size_not_mem
    rw [not_or] at hnew
    refine List.nodup_cons.mpr ⟨?_, nodup_map_waitingUnder_append hnodup hnew.2⟩
    rw [List.map_append, List.mem_append, not_or]
    exact ⟨not_mem_map_waitingUnder (ne_of_isContainer hparent), hfresh⟩

/-- The node that was placed shows its document, once its children stand under it. -/
theorem depicts_of_place {after : Scene}
    (hready : scene.Ready ((parent, document :: documents) :: waiting))
    (h : (scene.place parent document).Completes
      ((parent, documents) :: (waitingUnder ⟨scene.size⟩ document ++ waiting)) after) :
    after.Depicts document ⟨scene.size⟩ := by
  have hparent := hready.isContainer _ List.mem_cons_self
  have hknown : (⟨scene.size⟩ : NodeId).index < (scene.place parent document).size := by
    rw [size_place]
    exact Nat.lt_succ_self _
  have hnode : after.node? ⟨scene.size⟩ = some document.node := by
    rw [h.node?_eq _ hknown, node?_place hparent, if_pos rfl]
  have hchildren := h.children?_eq _ hknown
  rw [children?_place hparent, if_pos rfl] at hchildren
  obtain ⟨name, type, attributes, children⟩ := document
  have hdescribes := Document.describes_node name type attributes children
  cases children with
  | none =>
      exact ⟨⟨_, hnode, hdescribes⟩, hchildren hready.size_not_mem⟩
  | some children =>
      have hentry : ((⟨scene.size⟩ : NodeId), children) ∈
          (parent, documents) :: (waitingUnder ⟨scene.size⟩
            (.mk name type attributes (some children)) ++ waiting) := by
        simp [waitingUnder, Document.children]
      obtain ⟨ids, hids, hdepicts⟩ := h.depicts _ hentry
      rw [childrenOf_place hparent, if_pos rfl, List.nil_append] at hids
      exact ⟨⟨_, hnode, hdescribes⟩, ids, hids, hdepicts⟩

theorem Completes.of_place {after : Scene}
    (hready : scene.Ready ((parent, document :: documents) :: waiting))
    (h : (scene.place parent document).Completes
      ((parent, documents) :: (waitingUnder ⟨scene.size⟩ document ++ waiting)) after) :
    scene.Completes ((parent, document :: documents) :: waiting) after := by
  have hparent := hready.isContainer _ List.mem_cons_self
  obtain ⟨hfresh, -⟩ := List.nodup_cons.mp hready.nodup
  have hold : ∀ id : NodeId, id.index < scene.size →
      id ≠ ⟨scene.size⟩ ∧ id.index < (scene.place parent document).size := by
    intro id hid
    rw [size_place]
    refine ⟨?_, Nat.lt_succ_of_lt hid⟩
    rintro rfl
    exact Nat.lt_irrefl _ hid
  constructor
  case size_eq =>
    have hcount := count_eq ⟨scene.size⟩ document
    rw [h.size_eq, size_place, waitingCount, waitingCount, waitingCount_append, Document.countAll]
    omega
  case node?_eq =>
    intro id hid
    rw [h.node?_eq id (hold id hid).2, node?_place hparent, if_neg (hold id hid).1]
  case parent?_eq =>
    intro id hid
    rw [h.parent?_eq id (hold id hid).2, parent?_place hparent, if_neg (hold id hid).1]
  case children?_eq =>
    intro id hid hout
    rw [List.map_cons, List.mem_cons, not_or] at hout
    have hwaiting : id ∉ (waitingUnder ⟨scene.size⟩ document).map (·.1) :=
      not_mem_map_waitingUnder (hold id hid).1
    have hstays : id ∉ ((parent, documents) ::
        (waitingUnder ⟨scene.size⟩ document ++ waiting)).map (·.1) := by
      simp only [List.map_cons, List.map_append, List.mem_cons, List.mem_append, not_or]
      exact ⟨hout.1, hwaiting, hout.2⟩
    rw [h.children?_eq id (hold id hid).2 hstays, children?_place hparent,
      if_neg (hold id hid).1, if_neg hout.1]
  case depicts =>
    intro entry hentry
    rcases List.mem_cons.mp hentry with rfl | hentry
    · obtain ⟨ids, hids, hdepicts⟩ := h.depicts _ List.mem_cons_self
      rw [childrenOf_place hparent, if_neg (ne_of_isContainer hparent), if_pos rfl,
        List.append_assoc, List.singleton_append] at hids
      exact ⟨_, hids, _, ids, rfl, depicts_of_place hready h, hdepicts⟩
    · have hcontainer := hready.isContainer entry (List.mem_cons_of_mem _ hentry)
      have hne : entry.1 ≠ parent := by
        intro heq
        exact hfresh (List.mem_map.mpr ⟨entry, hentry, heq⟩)
      obtain ⟨ids, hids, hdepicts⟩ :=
        h.depicts entry (List.mem_cons_of_mem _ (List.mem_append_right _ hentry))
      rw [childrenOf_place hparent, if_neg (ne_of_isContainer hcontainer), if_neg hne] at hids
      exact ⟨ids, hids, hdepicts⟩
  case attached =>
    intro id hle hlt
    by_cases hid : id = ⟨scene.size⟩
    · have hknown : id.index < (scene.place parent document).size := by
        rw [size_place, hid]
        exact Nat.lt_succ_self _
      rw [h.parent?_eq id hknown, parent?_place hparent, if_pos hid]
      rfl
    · refine h.attached id ?_ hlt
      rw [size_place]
      have hindex : id.index ≠ scene.size := fun heq => hid (by rw [← heq])
      omega

end Place

/-- The node that is next gets the next number and is put where its document has it. -/
theorem Ready.append_eq {scene grown : Scene} {parent id : NodeId} {document : Document}
    {documents : List Document} {waiting : List Waiting}
    (h : scene.Ready ((parent, document :: documents) :: waiting))
    (hadd : scene.addDocument document = (grown, id)) :
    id = ⟨scene.size⟩ ∧ grown.append parent id = .ok (scene.place parent document) := by
  have hplace := append_addDocument (h.isContainer _ List.mem_cons_self) document h.linked
  rw [hadd] at hplace
  rw [addDocument_eq] at hadd
  exact ⟨(Prod.mk.inj hadd).2.symm, hplace⟩

/-- Whatever waits can be added, and stands where it waited then. -/
theorem exists_addUnder (loading : Loading) {parent : NodeId} {documents : List Document}
    {waiting : List Waiting} (h : loading.scene.Ready ((parent, documents) :: waiting)) :
    ∃ loaded, addUnder loading parent documents waiting = .ok loaded ∧
      loading.scene.Completes ((parent, documents) :: waiting) loaded.scene := by
  fun_induction addUnder loading parent documents waiting with
  | case1 loading parent => exact ⟨loading, rfl, (completes_nil _).cons_nil h⟩
  | case2 loading parent next children rest ih =>
      obtain ⟨loaded, hloaded, hcompletes⟩ := ih h.tail
      exact ⟨loaded, hloaded, hcompletes.cons_nil h⟩
  | case3 loading parent waiting document others grown id hadd error happend =>
      rw [(h.append_eq hadd).2] at happend
      cases happend
  | case4 loading parent waiting document others grown id hadd scene happend ih =>
      obtain ⟨hid, hplace⟩ := h.append_eq hadd
      rw [hplace] at happend
      cases happend
      subst hid
      obtain ⟨loaded, hloaded, hcompletes⟩ := ih h.place
      exact ⟨loaded, hloaded, .of_place h hcompletes⟩

/-! ## The whole document -/

/-- Where only the root stands in no container, every way up ends at the root. -/
theorem Linked.eq_root_or_mem_ancestors {scene : Scene} (h : scene.Linked)
    (hattached : ∀ id : NodeId, 1 ≤ id.index → id.index < scene.size →
      (scene.parent? id).isSome = true)
    {id : NodeId} (hid : id.index < scene.size) : id = .root ∨ .root ∈ scene.ancestors id := by
  have hlineage := h.lineage_ancestors id
  generalize scene.ancestors id = chain at hlineage
  have hmem : chain.getLastD id = id ∨ chain.getLastD id ∈ chain :=
    List.mem_cons.mp (List.getLastD_mem_cons ..)
  have hknown : (chain.getLastD id).index < scene.size := by
    rcases hmem with heq | hmem
    · rw [heq]
      exact hid
    · exact h.lt_of_mem_lineage hlineage hmem
  have hroot : chain.getLastD id = .root := by
    by_contra hne
    have hpos : 1 ≤ (chain.getLastD id).index :=
      Nat.one_le_iff_ne_zero.mpr fun hzero => hne (congrArg NodeId.mk hzero)
    have hparent := hattached _ hpos hknown
    rw [hlineage.up_getLastD] at hparent
    cases hparent
  rw [hroot] at hmem
  exact hmem.imp_left Eq.symm

theorem ready_ofRoot (node : Node) (documents : List Document) :
    (ofRoot node).Ready [(.root, documents)] where
  linked := linked_ofRoot node
  isContainer := by
    intro entry hentry
    rw [List.mem_singleton.mp hentry]
    rfl
  nodup := List.nodup_singleton _

/-- Every document is loaded, and then its parts stand below the root. -/
theorem exists_ofDocument (document : Document) :
    ∃ loading, ofDocument document = .ok loading ∧ loading.scene.Linked ∧
      (ofRoot document.node).Completes [(.root, document.children.getD [])] loading.scene := by
  obtain ⟨loading, hloading, hcompletes⟩ :=
    exists_addUnder ⟨ofRoot document.node, document.notices.toArray⟩
      (ready_ofRoot document.node (document.children.getD []))
  obtain ⟨edits, hedits⟩ := edited_addUnder hloading
  refine ⟨loading, hloading, ?_, hcompletes⟩
  rw [hedits]
  exact linked_edited (linked_ofRoot _) edits

section Root

variable {document : Document} {scene : Scene}
  (h : (ofRoot document.node).Completes [(.root, document.children.getD [])] scene)

include h

theorem size_eq_count : scene.size = document.count := by
  obtain ⟨name, type, attributes, children⟩ := document
  rw [h.size_eq, size_ofRoot]
  cases children <;> simp [waitingCount, Document.children, Document.count, Document.countAll]

theorem depicts_root : scene.Depicts document.asContainer .root := by
  obtain ⟨name, type, attributes, children⟩ := document
  obtain ⟨ids, hids, hdepicts⟩ := h.depicts _ List.mem_cons_self
  have hnode := h.node?_eq .root Nat.zero_lt_one
  exact ⟨⟨_, hnode, Document.describes_node name type attributes children⟩, ids, hids, hdepicts⟩

end Root

section Text

variable {text : String} {document : Document} {loading : Loading}
  (htext : Document.parse text = .ok document) (h : ofDocument document = .ok loading)

include htext h

theorem ofText_eq :
    ofText text = .ok ⟨loading.scene, loading.notices.toList ++
      [.debug "scene" ("built scene with " ++ toString loading.scene.size ++ " nodes")]⟩ := by
  simp only [ofText, htext, h]

theorem scene_ofText : (ofText text).map (·.scene) = .ok loading.scene := by
  rw [ofText_eq htext h]
  rfl

end Text

/--
Every document is loaded.  The scene has as many nodes as the document, each of them
is the root or stands below it, and from the root down it shows the document.
-/
theorem ofDocument_depicts (document : Document) :
    ∃ loading, ofDocument document = .ok loading ∧
      loading.scene.size = document.count ∧
      (∀ id : NodeId, id.index < loading.scene.size →
        id = .root ∨ .root ∈ loading.scene.ancestors id) ∧
      loading.scene.Depicts document.asContainer .root ∧
      ∀ text, Document.parse text = .ok document →
        (ofText text).map (·.scene) = .ok loading.scene := by
  obtain ⟨loading, hloading, hlinked, hcompletes⟩ := exists_ofDocument document
  refine ⟨loading, hloading, size_eq_count hcompletes, ?_, depicts_root hcompletes, ?_⟩
  · intro id hid
    exact hlinked.eq_root_or_mem_ancestors hcompletes.attached hid
  · intro text htext
    exact scene_ofText htext hloading

theorem ofDocument_depicts_nested :
    let text := "\x7b\"id\":\"p\",\"type\":\"page\",\"children\":[" ++
      "\x7b\"id\":\"f\",\"type\":\"frame\",\"children\":[" ++
      "\x7b\"id\":\"g\",\"type\":\"group\",\"children\":[]\x7d]\x7d," ++
      "\x7b\"id\":\"r\",\"type\":\"rect\",\"a\":[],\"children\":null,\"b\":true\x7d]\x7d"
    ∃ document scene, Document.parse text = .ok document ∧ (ofText text).map (·.scene) = .ok scene ∧
      3 < scene.size ∧ .root ∈ scene.ancestors ⟨3⟩ ∧ scene.Depicts document.asContainer .root := by
  intro text
  have hcount : (Document.parse text).toOption.map Document.count = some 4 := by decide +kernel
  cases hparse : Document.parse text with
  | error error =>
      rw [hparse] at hcount
      cases hcount
  | ok document =>
      rw [hparse] at hcount
      obtain ⟨loading, -, hsize, hattached, hdepicts, htext⟩ := ofDocument_depicts document
      have hknown : 3 < loading.scene.size := by
        rw [hsize, Option.some.inj hcount]
        decide
      have hbelow := (hattached ⟨3⟩ hknown).resolve_left (by decide)
      exact ⟨document, loading.scene, rfl, htext text hparse, hknown, hbelow, hdepicts⟩

end Scene

end Scenery
