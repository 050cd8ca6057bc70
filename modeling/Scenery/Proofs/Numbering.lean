import Scenery.Proofs.Loading
import Scenery.Proofs.Search

/-!
# Which numbers loading gives

The children of a node are added one right behind the other, and then what is below
them: first all that is below the last child, at the end all that is below the first.
So each document of a list has its own range of numbers for what is below it, and the
ranges lie in the opposite order of the list.
-/

namespace Scenery

namespace Document

/-- The documents right below a document; a leaf has none. -/
def parts (document : Document) : List Document :=
  document.children.getD []

theorem count_eq_countAll_parts (document : Document) :
    document.count = 1 + countAll document.parts := by
  obtain ⟨_, _, _, children⟩ := document
  cases children with
  | none => rw [parts, children, Option.getD_none, count, countAll]
  | some children => rw [parts, Document.children, Option.getD_some, count]

/--
What is below the documents of a list, in the order in which it is loaded: below the last of
them first, and each list of parts before what is below it.
-/
def deeper : List Document → List Document
  | [] => []
  | document :: rest => deeper rest ++ (document.parts ++ deeper document.parts)
  termination_by documents => countAll documents
  decreasing_by
    · rw [countAll, count_eq_countAll_parts]
      omega
    · rw [countAll, count_eq_countAll_parts]
      omega

/-- All documents of a document in the order in which they are loaded. -/
def order (document : Document) : List Document :=
  document :: (document.parts ++ deeper document.parts)

theorem countAll_eq (documents : List Document) :
    countAll documents = (documents ++ deeper documents).length := by
  fun_induction deeper documents with
  | case1 => rfl
  | case2 document rest ihrest ihparts =>
      rw [countAll, count_eq_countAll_parts, ihrest, ihparts]
      simp only [List.length_append, List.length_cons]
      omega

theorem length_order (document : Document) : document.order.length = document.count := by
  rw [order, List.length_cons, count_eq_countAll_parts, countAll_eq, Nat.add_comm]

end Document

namespace Scene

open Document (deeper)

/-- As many nodes as are asked for, one behind the other. -/
def numbered (first count : Nat) : List NodeId :=
  (List.range' first count).map NodeId.mk

theorem numbered_succ (first count : Nat) :
    numbered first (count + 1) = ⟨first⟩ :: numbered (first + 1) count := rfl

@[simp] theorem length_numbered (first count : Nat) : (numbered first count).length = count := by
  rw [numbered, List.length_map, List.length_range']

theorem getElem?_numbered {first count place : Nat} (h : place < count) :
    (numbered first count)[place]? = some ⟨first + place⟩ := by
  rw [numbered, List.getElem?_map, List.getElem?_range' h, Nat.one_mul, Option.map_some]

theorem mem_numbered_iff {first count : Nat} {id : NodeId} :
    id ∈ numbered first count ↔ first ≤ id.index ∧ id.index < first + count := by
  simp only [numbered, List.mem_map, List.mem_range'_1]
  constructor
  · intro hmem
    obtain ⟨index, hindex, hid⟩ := hmem
    rw [← hid]
    exact hindex
  · intro hindex
    exact ⟨id.index, hindex, rfl⟩

/--
The documents of a list stand at `number` and right behind it, and what is below them is
numbered from `first` on: below the last of them first.
-/
def Lays (scene : Scene) : List Document → Nat → Nat → Prop
  | [], _, _ => True
  | document :: rest, number, first =>
    let behind := first + (deeper rest).length
    scene.Lays rest (number + 1) first ∧
      scene.childrenOf ⟨number⟩ = numbered behind document.parts.length ∧
      scene.Lays document.parts behind (behind + document.parts.length)
  termination_by documents => Document.countAll documents
  decreasing_by
    · rw [Document.countAll, Document.count_eq_countAll_parts]
      omega
    · rw [Document.countAll, Document.count_eq_countAll_parts]
      omega

/-! ## What waits gets numbers in turn -/

/-- The documents of what waits, in the order in which they are loaded. -/
def awaited : List Waiting → List Document
  | [] => []
  | (_, documents) :: rest => documents ++ deeper documents ++ awaited rest

theorem awaited_append (first second : List Waiting) :
    awaited (first ++ second) = awaited first ++ awaited second := by
  induction first with
  | nil => rfl
  | cons entry rest ih => simp only [List.cons_append, awaited, ih, List.append_assoc]

theorem awaited_waitingUnder (id : NodeId) (document : Document) :
    awaited (waitingUnder id document) = document.parts ++ deeper document.parts := by
  unfold waitingUnder Document.parts
  cases document.children with
  | none => rw [Option.getD_none, deeper]; rfl
  | some children => rw [awaited, awaited, List.append_nil, Option.getD_some]

/-- A document that is placed goes in front of all that waits then. -/
theorem awaited_cons_cons (parent id : NodeId) (document : Document) (documents : List Document)
    (waiting : List Waiting) :
    awaited ((parent, document :: documents) :: waiting) =
      document :: awaited ((parent, documents) :: (waitingUnder id document ++ waiting)) := by
  simp only [awaited, awaited_append, awaited_waitingUnder, deeper, List.cons_append,
    List.append_assoc]

/-- What waited stands behind the children that were there, numbered from `first` on. -/
def Fills (before after : Scene) : List Waiting → Nat → Prop
  | [], _ => True
  | (id, documents) :: rest, first =>
    (after.childrenOf id = before.childrenOf id ++ numbered first documents.length ∧
      after.Lays documents first (first + documents.length)) ∧
    before.Fills after rest (first + (documents ++ deeper documents).length)

theorem fills_append {before after : Scene} (front back : List Waiting) (first : Nat) :
    before.Fills after (front ++ back) first ↔
      before.Fills after front first ∧
        before.Fills after back (first + (awaited front).length) := by
  induction front generalizing first with
  | nil => simp [Fills, awaited]
  | cons entry rest ih =>
      simp only [List.cons_append, Fills, ih, awaited, List.length_append, Nat.add_assoc, and_assoc]

theorem Fills.congr {before before' after : Scene} {waiting : List Waiting} {first : Nat}
    (h : before'.Fills after waiting first)
    (hsame : ∀ entry ∈ waiting, before'.childrenOf entry.1 = before.childrenOf entry.1) :
    before.Fills after waiting first := by
  induction waiting generalizing first with
  | nil => trivial
  | cons entry rest ih =>
      obtain ⟨hentry, hrest⟩ := List.forall_mem_cons.mp hsame
      rw [Fills] at h ⊢
      rw [← hentry]
      exact ⟨h.1, ih h.2 hrest⟩

section Place

variable {scene after : Scene} {parent : NodeId} {document : Document}
  {documents : List Document} {waiting : List Waiting}

theorem childrenOf_of_fills_waitingUnder {id : NodeId} {first : Nat}
    (hnew : scene.childrenOf id = [])
    (hleaf : document.children = none → after.childrenOf id = [])
    (h : scene.Fills after (waitingUnder id document) first) :
    after.childrenOf id = numbered first document.parts.length ∧
      after.Lays document.parts first (first + document.parts.length) := by
  unfold waitingUnder at h
  unfold Document.parts
  cases hchildren : document.children with
  | none =>
      rw [Option.getD_none, Lays]
      exact ⟨hleaf hchildren, trivial⟩
  | some children =>
      rw [hchildren, Fills, hnew, List.nil_append] at h
      exact h.1

theorem Fills.of_place (hready : scene.Ready ((parent, document :: documents) :: waiting))
    (hleaf : document.children = none → after.childrenOf ⟨scene.size⟩ = [])
    (h : (scene.place parent document).Fills after
      ((parent, documents) :: (waitingUnder ⟨scene.size⟩ document ++ waiting)) (scene.size + 1)) :
    scene.Fills after ((parent, document :: documents) :: waiting) scene.size := by
  have hparent := hready.isContainer _ List.mem_cons_self
  have hbelow := childrenOf_place hparent document
  obtain ⟨hfresh, -⟩ := List.nodup_cons.mp hready.nodup
  rw [Fills, fills_append] at h
  obtain ⟨⟨hchildren, hlays⟩, hnew, hrest⟩ := h
  rw [hbelow, if_neg (ne_of_isContainer hparent), if_pos rfl, List.append_assoc,
    List.singleton_append, ← numbered_succ] at hchildren
  have hnone : (scene.place parent document).childrenOf ⟨scene.size⟩ = [] := by
    rw [hbelow, if_pos rfl]
  have hunder := childrenOf_of_fills_waitingUnder hnone hleaf hnew
  have hsame : ∀ entry ∈ waiting,
      (scene.place parent document).childrenOf entry.1 = scene.childrenOf entry.1 := by
    intro entry hentry
    have hcontainer := hready.isContainer entry (List.mem_cons_of_mem _ hentry)
    have hne : entry.1 ≠ parent := by
      intro heq
      exact hfresh (List.mem_map.mpr ⟨entry, hentry, heq⟩)
    rw [hbelow, if_neg (ne_of_isContainer hcontainer), if_neg hne]
  have hfirst : scene.size + 1 + (documents ++ deeper documents).length =
      scene.size + (document :: documents).length + (deeper documents).length := by
    simp only [List.length_append, List.length_cons]
    omega
  rw [hfirst] at hunder
  rw [Fills, Lays]
  refine ⟨⟨hchildren, ?_, hunder⟩, ?_⟩
  · have hnext : scene.size + 1 + documents.length =
        scene.size + (document :: documents).length := by
      rw [List.length_cons]
      omega
    rwa [hnext] at hlays
  · have hlength : scene.size + 1 + (documents ++ deeper documents).length +
        (awaited (waitingUnder ⟨scene.size⟩ document)).length =
          scene.size + (document :: documents ++ deeper (document :: documents)).length := by
      rw [awaited_waitingUnder, deeper]
      simp only [List.length_append, List.length_cons]
      omega
    rw [hlength] at hrest
    exact hrest.congr hsame

end Place

theorem completes_of_addUnder {loading loaded : Loading} {parent : NodeId}
    {documents : List Document} {waiting : List Waiting}
    (hready : loading.scene.Ready ((parent, documents) :: waiting))
    (h : addUnder loading parent documents waiting = .ok loaded) :
    loading.scene.Completes ((parent, documents) :: waiting) loaded.scene := by
  obtain ⟨last, hlast, hcompletes⟩ := exists_addUnder loading hready
  rw [h] at hlast
  cases hlast
  exact hcompletes

/-- Under a container that gets no more children there are those that were there. -/
theorem Completes.childrenOf_eq {before after : Scene} {parent : NodeId} {waiting : List Waiting}
    (h : before.Completes ((parent, []) :: waiting) after) :
    after.childrenOf parent = before.childrenOf parent := by
  obtain ⟨ids, hids, hnone⟩ := h.depicts _ List.mem_cons_self
  rw [DepictsAll] at hnone
  rw [hnone, List.append_nil] at hids
  rw [childrenOf, hids, Option.getD_some]

/-- A leaf that was placed has no children later on. -/
theorem Completes.childrenOf_leaf {scene after : Scene} {parent : NodeId} {document : Document}
    {documents : List Document} {waiting : List Waiting}
    (hready : scene.Ready ((parent, document :: documents) :: waiting))
    (h : (scene.place parent document).Completes
      ((parent, documents) :: (waitingUnder ⟨scene.size⟩ document ++ waiting)) after)
    (hleaf : document.children = none) : after.childrenOf ⟨scene.size⟩ = [] := by
  have hparent := hready.isContainer _ List.mem_cons_self
  have hknown : (⟨scene.size⟩ : NodeId).index < (scene.place parent document).size := by
    rw [size_place]
    exact Nat.lt_succ_self _
  have hnone : waitingUnder ⟨scene.size⟩ document = [] := by
    rw [waitingUnder, hleaf]
  rw [hnone, List.nil_append] at h
  have hchildren := h.children?_eq _ hknown hready.size_not_mem
  rw [children?_place hparent, if_pos rfl, hleaf, Option.map_none] at hchildren
  rw [childrenOf, hchildren, Option.getD_none]

/-- Whatever waits gets its numbers in turn, and the new numbers are those that come next. -/
theorem fills_addUnder {loading loaded : Loading} {parent : NodeId} {documents : List Document}
    {waiting : List Waiting} (hready : loading.scene.Ready ((parent, documents) :: waiting))
    (h : addUnder loading parent documents waiting = .ok loaded) :
    loading.scene.Fills loaded.scene ((parent, documents) :: waiting) loading.scene.size := by
  have hcompletes := completes_of_addUnder hready h
  fun_induction addUnder loading parent documents waiting with
  | case1 loading parent =>
      refine ⟨⟨?_, ?_⟩, trivial⟩
      · rw [hcompletes.childrenOf_eq]
        exact (List.append_nil _).symm
      · rw [Lays]
        trivial
  | case2 loading parent next children rest ih =>
      refine ⟨⟨?_, ?_⟩, ?_⟩
      · rw [hcompletes.childrenOf_eq]
        exact (List.append_nil _).symm
      · rw [Lays]
        trivial
      · rw [List.nil_append, deeper]
        exact ih hready.tail h (completes_of_addUnder hready.tail h)
  | case3 => cases h
  | case4 loading parent waiting document others grown id hadd scene happend ih =>
      obtain ⟨hid, hplace⟩ := hready.append_eq hadd
      rw [hplace] at happend
      cases happend
      subst hid
      have hrest := completes_of_addUnder hready.place h
      have hfills := ih hready.place h hrest
      rw [size_place] at hfills
      exact .of_place hready (hrest.childrenOf_leaf hready) hfills

/-! ## Ranges of numbers -/

namespace Lays

variable {scene : Scene} (h : scene.Linked)

include h

/-- What is below the documents has the numbers from `first` on, as many as there are. -/
theorem range {documents : List Document} {number first : Nat}
    (hlays : scene.Lays documents number first) {top id : NodeId}
    (htop : top ∈ numbered number documents.length) (hid : top ∈ scene.ancestors id) :
    first ≤ id.index ∧ id.index < first + (deeper documents).length := by
  fun_induction Lays scene documents number first generalizing top id with
  | case1 => cases htop
  | case2 document rest number first behind ihrest ihparts =>
      obtain ⟨hrest, hchildren, hparts⟩ := hlays
      rw [deeper, List.length_append, List.length_append]
      rw [List.length_cons, numbered_succ, List.mem_cons] at htop
      rcases htop with htop | htop
      · rw [htop, h.mem_ancestors_iff_exists_child, hchildren] at hid
        obtain ⟨child, hchild, hid⟩ := hid
        rcases hid with hid | hid
        · rw [hid]
          have hindex := mem_numbered_iff.mp hchild
          omega
        · have hindex := ihparts hparts hchild hid
          omega
      · have hindex := ihrest hrest htop hid
        omega

/-- What is below a document has larger numbers than what is below those behind it. -/
theorem lt_of_lt {documents : List Document} {number first : Nat}
    (hlays : scene.Lays documents number first) {top other id node : NodeId}
    (htop : top ∈ numbered number documents.length)
    (hother : other ∈ numbered number documents.length) (hlt : top.index < other.index)
    (hid : top ∈ scene.ancestors id) (hnode : other ∈ scene.ancestors node) :
    node.index < id.index := by
  induction documents generalizing number with
  | nil => cases htop
  | cons document rest ih =>
      rw [Lays] at hlays
      obtain ⟨hrest, hchildren, hparts⟩ := hlays
      have hbehind : other ∈ numbered (number + 1) rest.length := by
        have hnumber := mem_numbered_iff.mp htop
        rw [List.length_cons, mem_numbered_iff] at hother
        rw [mem_numbered_iff]
        omega
      rw [List.length_cons, numbered_succ, List.mem_cons] at htop
      rcases htop with htop | htop
      · have hnodes := range h hrest hbehind hnode
        have hfirst : scene.Lays [document] number (first + (deeper rest).length) := by
          rw [Lays, Lays, deeper]
          exact ⟨trivial, hchildren, hparts⟩
        have hid' := range h hfirst (by rw [htop]; exact List.mem_cons_self) hid
        omega
      · exact ih hrest htop hbehind

end Lays

/-! ## The node of each document -/

/--
A document stands at a node if it is the one with the node's number, and its parts and what is
below them follow from some number on.
-/
structure Stands (scene : Scene) (documents : List Document) (id : NodeId) (document : Document)
    (first : Nat) : Prop where
  document_eq : documents[id.index]? = some document
  lt : id.index < first
  childrenOf_eq : scene.childrenOf id = numbered first document.parts.length
  lays : scene.Lays document.parts first (first + document.parts.length)
  isPrefix : document.parts ++ deeper document.parts <+: documents.drop first

theorem isPrefix_drop_append {α : Type} {front back all : List α} {start : Nat}
    (h : front ++ back <+: all.drop start) :
    front <+: all.drop start ∧ back <+: all.drop (start + front.length) := by
  refine ⟨(List.prefix_append _ _).trans h, ?_⟩
  obtain ⟨rest, hrest⟩ := h
  refine ⟨rest, ?_⟩
  rw [← List.drop_drop, ← hrest, List.append_assoc, List.drop_left]

theorem exists_stands {scene : Scene} (h : scene.Linked) {all documents : List Document}
    {number first : Nat} (hlays : scene.Lays documents number first)
    (hbefore : number + documents.length ≤ first) (hhere : documents <+: all.drop number)
    (hbelow : deeper documents <+: all.drop first) {top id : NodeId}
    (htop : top ∈ numbered number documents.length)
    (hid : id = top ∨ top ∈ scene.ancestors id) :
    ∃ document first, scene.Stands all id document first := by
  fun_induction Lays scene documents number first generalizing top id with
  | case1 => cases htop
  | case2 document rest number first behind ihrest ihparts =>
      obtain ⟨hrest, hchildren, hparts⟩ := hlays
      rw [deeper] at hbelow
      obtain ⟨hdeeper, hunder⟩ := isPrefix_drop_append hbelow
      have hhead : [document] <+: all.drop number ∧ rest <+: all.drop (number + 1) :=
        isPrefix_drop_append hhere
      rw [List.length_cons] at hbefore
      rw [List.length_cons, numbered_succ, List.mem_cons] at htop
      rcases htop with htop | htop
      · have hdocument : all[number]? = some document := by
          obtain ⟨others, hothers⟩ := hhead.1
          rw [← List.head?_drop, ← hothers]
          rfl
        rcases hid with hid | hid
        · have hlt : number < behind := by
            simp only [behind]
            omega
          rw [hid, htop]
          exact ⟨document, behind, hdocument, hlt, hchildren, hparts, hunder⟩
        · rw [htop, h.mem_ancestors_iff_exists_child, hchildren] at hid
          obtain ⟨child, hchild, hid⟩ := hid
          obtain ⟨hpart, hrest⟩ := isPrefix_drop_append hunder
          exact ihparts hparts (Nat.le_refl _) hpart hrest hchild hid
      · exact ihrest hrest (by omega) hhead.2 hdeeper htop hid

/-- The documents of a loaded document stand at the nodes in the order of loading. -/
theorem stands_of_ofDocument {document : Document} {loading : Loading}
    (hloading : ofDocument document = .ok loading) (hlinked : loading.scene.Linked)
    (hcompletes : (ofRoot document.node).Completes [(.root, document.parts)] loading.scene)
    {id : NodeId} (hid : id.index < loading.scene.size) :
    ∃ other first, loading.scene.Stands document.order id other first := by
  have hfills := fills_addUnder (ready_ofRoot document.node document.parts) hloading
  have hlays : loading.scene.Lays [document] 0 1 := by
    rw [Lays, Lays, deeper]
    exact ⟨trivial, hfills.1⟩
  have habove := hlinked.eq_root_or_mem_ancestors hcompletes.attached hid
  have hroot : NodeId.root ∈ numbered 0 [document].length := List.mem_cons_self
  refine exists_stands hlinked hlays (Nat.le_refl 1) ?_ ?_ hroot habove
  · exact List.prefix_append [document] _
  · rw [deeper, deeper]
    exact List.prefix_rfl

theorem pairwise_numbered (first count : Nat) :
    (numbered first count).Pairwise fun id other => id.index < other.index :=
  List.pairwise_map.mpr List.pairwise_lt_range'

/-- Every node is numbered by where it stands. -/
structure Numbered (scene : Scene) : Prop where
  /-- The numbers of children follow one another. -/
  childrenOf_eq : ∀ id, ∃ first,
    scene.childrenOf id = numbered first (scene.childrenOf id).length
  parent_lt : ∀ child parent, scene.parent? child = some parent → parent.index < child.index
  /-- Of two children what is below the first is numbered behind all that is below the second. -/
  pairwise : ∀ parent, (scene.childrenOf parent).Pairwise fun child later =>
    ∀ id node, child ∈ scene.ancestors id → later ∈ scene.ancestors node → node.index < id.index

theorem Stands.pairwise {scene : Scene} (h : scene.Linked) {documents : List Document}
    {id : NodeId} {document : Document} {first : Nat}
    (hstands : scene.Stands documents id document first) :
    (scene.childrenOf id).Pairwise fun child later =>
      ∀ id node, child ∈ scene.ancestors id → later ∈ scene.ancestors node →
        node.index < id.index := by
  rw [hstands.childrenOf_eq]
  refine (pairwise_numbered ..).imp_of_mem ?_
  intro child later hchild hlater hlt id node hid hnode
  exact Lays.lt_of_lt h hstands.lays hchild hlater hlt hid hnode

theorem numbered_of_stands {scene : Scene} (h : scene.Linked) {documents : List Document}
    (hstands : ∀ id : NodeId, id.index < scene.size →
      ∃ document first, scene.Stands documents id document first) : scene.Numbered := by
  have hunknown : ∀ id : NodeId, ¬ id.index < scene.size → scene.childrenOf id = [] := by
    intro id hid
    have hnone := (scene.get?_eq_none_iff id).mpr (Nat.le_of_not_lt hid)
    rw [childrenOf, children?, hnone]
    rfl
  constructor
  · intro id
    by_cases hid : id.index < scene.size
    · obtain ⟨document, first, hstands⟩ := hstands id hid
      refine ⟨first, ?_⟩
      rw [hstands.childrenOf_eq, length_numbered]
    · exact ⟨0, by rw [hunknown id hid]; rfl⟩
  · intro child parent hparent
    obtain ⟨document, first, hstands⟩ := hstands parent (h.parent_lt hparent)
    have hchild := (h.mem_childrenOf_iff parent child).mpr hparent
    rw [hstands.childrenOf_eq] at hchild
    have hfirst := hstands.lt
    have hindex := mem_numbered_iff.mp hchild
    omega
  · intro parent
    by_cases hparent : parent.index < scene.size
    · obtain ⟨document, first, hstands⟩ := hstands parent hparent
      exact hstands.pairwise h
    · rw [hunknown parent hparent]
      exact List.Pairwise.nil

/--
A loaded scene shows the document from the root down, with the children of each node in the
order of the document.  The root is node zero and the only node in no container.  The children
of a node have numbers that follow one another, every node has a larger number than its
container, and below the later of two children all numbers are smaller than below the earlier.
-/
theorem ofDocument_numbered (document : Document) :
    ∃ loading, ofDocument document = .ok loading ∧
      (∀ text, Document.parse text = .ok document →
        (ofText text).map (·.scene) = .ok loading.scene) ∧
      loading.scene.Depicts document.asContainer ⟨0⟩ ∧
      (∀ id : NodeId, id.index < loading.scene.size →
        (loading.scene.parent? id = none ↔ id = ⟨0⟩)) ∧
      loading.scene.Numbered := by
  obtain ⟨loading, hloading, hlinked, hcompletes⟩ := exists_ofDocument document
  have hnumbered := numbered_of_stands hlinked fun id hid =>
    stands_of_ofDocument hloading hlinked hcompletes hid
  refine ⟨loading, hloading, fun text htext => scene_ofText htext hloading,
    depicts_root hcompletes, ?_, hnumbered⟩
  intro id hid
  constructor
  · intro hnone
    have htop : loading.scene.ancestors id = [] :=
      (hlinked.lineage_ancestors id).unique (.top hnone)
    have hroot := hlinked.eq_root_or_mem_ancestors hcompletes.attached hid
    rw [htop] at hroot
    exact hroot.resolve_right List.not_mem_nil
  · intro hroot
    cases hparent : loading.scene.parent? id with
    | none => rfl
    | some parent =>
        have hlt := hnumbered.parent_lt id parent hparent
        rw [hroot] at hlt
        exact absurd hlt (Nat.not_lt_zero _)

end Scene

end Scenery
