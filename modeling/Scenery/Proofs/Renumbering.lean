import Mathlib.Data.List.Forall2
import Scenery.Proofs.Growing
import Scenery.Proofs.Loading

/-!
# Queries do not see node numbers

Nodes are numbered as they are added, so one and the same tree can have its nodes
under many numbers.  `unfold` shows a node with all that stands below it and leaves
the numbers out.  Where two starts have the same below them, the nodes below one
correspond to those below the other, place by place in the order of the tree, and
a query finds at the one what corresponds to what it finds at the other, in the
same order.  A loaded scene has below its root what its document says, so that it
can be compared with one that was built.
-/

namespace Scenery

open Selector (Compound)

/-- A node with what stands below it; what can have no children has no list of them. -/
inductive Unfolding where
  | mk (node : Option Node) (children : Option (List Unfolding))

mutual

/-- The node that a document says, with the nodes below it. -/
def Document.unfolding : Document → Unfolding
  | document@(.mk _ _ _ none) => .mk (some document.node) none
  | document@(.mk _ _ _ (some children)) => .mk (some document.node) (some (unfoldings children))

def Document.unfoldings : List Document → List Unfolding
  | [] => []
  | document :: rest => document.unfolding :: unfoldings rest

end

namespace Links

/-- A node with what stands below it down to a level. -/
def unfoldUpTo (links : Links) : Nat → NodeId → Unfolding
  | 0, id => .mk (links.node? id) ((links.children? id).map fun _ => [])
  | levels + 1, id =>
    .mk (links.node? id) ((links.children? id).map (List.map (links.unfoldUpTo levels)))

/-- A node with all that stands below it. -/
def unfold (links : Links) (id : NodeId) : Unfolding :=
  links.unfoldUpTo links.size id

/-- All that stands below a node, whatever the node itself carries. -/
def unfoldBelow (links : Links) (id : NodeId) : List Unfolding :=
  (links.childrenOf id).map links.unfold

theorem unfoldBelow_eq (links : Links) (id : NodeId) :
    links.unfoldBelow id = ((links.children? id).map (List.map links.unfold)).getD [] := by
  unfold unfoldBelow childrenOf
  cases links.children? id <;> rfl

/-- Levels below the deepest node add nothing. -/
theorem unfoldUpTo_eq_of_shallow {links : Links} {levels more : Nat} {id : NodeId}
    (h : links.Shallow levels id) (hle : levels ≤ more) :
    links.unfoldUpTo more id = links.unfoldUpTo levels id := by
  induction levels generalizing id more with
  | zero =>
      have hnone : (links.children? id).getD [] = [] := h
      cases hchildren : links.children? id with
      | none => cases more <;> simp [unfoldUpTo, hchildren]
      | some children =>
          rw [hchildren, Option.getD_some] at hnone
          cases more <;> simp [unfoldUpTo, hchildren, hnone]
  | succ levels ih =>
      cases more with
      | zero => omega
      | succ more =>
          rw [unfoldUpTo, unfoldUpTo]
          cases hchildren : links.children? id with
          | none => rfl
          | some children =>
              have hsame : ∀ child ∈ children,
                  links.unfoldUpTo more child = links.unfoldUpTo levels child := by
                intro child hchild
                have hmem : child ∈ links.childrenOf id := by
                  rw [childrenOf, hchildren]
                  exact hchild
                exact ih (h child hmem) (Nat.le_of_succ_le_succ hle)
              rw [Option.map_some, Option.map_some, List.map_congr_left hsame]

end Links

namespace Scene

namespace Linked

variable {scene : Scene} (h : scene.Linked)

include h

/-- The unfolding of a node is the node with the unfoldings of its children. -/
theorem unfold_eq (id : NodeId) :
    scene.links.unfold id =
      .mk (scene.node? id) ((scene.children? id).map (List.map scene.links.unfold)) := by
  have hlevels := Links.unfoldUpTo_eq_of_shallow (h.shallow id) (Nat.le_succ _)
  rw [Links.unfold, ← hlevels, Links.unfoldUpTo]
  rfl

/-- What has the same unfolding carries the same data and has the same below it. -/
theorem eq_of_unfold_eq {other : Scene} (hother : other.Linked) {id id' : NodeId}
    (heq : scene.links.unfold id = other.links.unfold id') :
    scene.node? id = other.node? id' ∧
      scene.links.unfoldBelow id = other.links.unfoldBelow id' := by
  rw [h.unfold_eq, hother.unfold_eq, Unfolding.mk.injEq] at heq
  refine ⟨heq.1, ?_⟩
  rw [Links.unfoldBelow_eq, Links.unfoldBelow_eq]
  exact congrArg (·.getD []) heq.2

end Linked

/-! ## The unfolding of a document -/

mutual

/-- A node that a document depicts is unfolded to what the document says. -/
theorem unfold_of_depicts {scene : Scene} (hlinked : scene.Linked) {document : Document}
    {id : NodeId} (h : scene.Depicts document id) :
    scene.links.unfold id = document.unfolding := by
  rw [hlinked.unfold_eq]
  match document with
  | .mk name type attributes none =>
      obtain ⟨⟨node, hnode, hdescribes⟩, hchildren⟩ := h
      have hsame := hdescribes.unique (Document.describes_node name type attributes none)
      rw [hnode, hchildren, hsame, Document.unfolding]
      rfl
  | .mk name type attributes (some documents) =>
      obtain ⟨⟨node, hnode, hdescribes⟩, ids, hchildren, hall⟩ := h
      have hsame := hdescribes.unique (Document.describes_node name type attributes (some documents))
      rw [hnode, hchildren, hsame, Option.map_some, map_unfold_of_depictsAll hlinked hall,
        Document.unfolding]

theorem map_unfold_of_depictsAll {scene : Scene} (hlinked : scene.Linked)
    {documents : List Document} {ids : List NodeId} (h : scene.DepictsAll documents ids) :
    ids.map scene.links.unfold = Document.unfoldings documents := by
  match documents with
  | [] =>
      have hnone : ids = [] := h
      rw [hnone, Document.unfoldings]
      rfl
  | document :: documents =>
      obtain ⟨id, others, rfl, hid, hothers⟩ := h
      rw [List.map_cons, unfold_of_depicts hlinked hid, map_unfold_of_depictsAll hlinked hothers,
        Document.unfoldings]

end

/-- Whatever numbers loading gives, below the root stands what the document says. -/
theorem unfoldBelow_ofDocument {document : Document} {loading : Loading}
    (h : ofDocument document = .ok loading) :
    loading.scene.links.unfoldBelow .root = Document.unfoldings (document.children.getD []) := by
  obtain ⟨other, hother, hlinked, hcompletes⟩ := exists_ofDocument document
  obtain rfl : other = loading := Except.ok.inj (hother.symm.trans h)
  obtain ⟨ids, hids, hall⟩ := hcompletes.depicts _ List.mem_cons_self
  have hchildren : other.scene.links.children? .root = some ids := hids
  rw [Links.unfoldBelow_eq, hchildren, Option.map_some, Option.getD_some,
    map_unfold_of_depictsAll hlinked hall]

/-! ## Place by place -/

section Correspondence

variable {first second : Scene} (hfirst : first.Linked) (hsecond : second.Linked)

include hfirst hsecond

theorem map_unfold_below_of_children {id id' : NodeId}
    (h : first.links.unfoldBelow id = second.links.unfoldBelow id')
    (hchildren : ∀ child ∈ first.childrenOf id, ∀ child',
      first.links.unfold child = second.links.unfold child' →
        (first.links.below child).map first.links.unfold =
          (second.links.below child').map second.links.unfold) :
    (first.links.below id).map first.links.unfold =
      (second.links.below id').map second.links.unfold := by
  rw [hfirst.below_eq, hsecond.below_eq, List.map_flatMap, List.map_flatMap]
  change (first.childrenOf id).map _ = (second.childrenOf id').map _ at h
  generalize first.childrenOf id = children at h hchildren
  generalize second.childrenOf id' = children' at h
  induction children generalizing children' with
  | nil =>
      have hnone : children' = [] := List.map_eq_nil_iff.mp h.symm
      rw [hnone]
      rfl
  | cons child rest ih =>
      obtain ⟨child', rest', rfl, hchild, hrest⟩ := List.map_eq_cons_iff.mp h.symm
      have hbelow := hchildren child List.mem_cons_self child' hchild.symm
      have hmore := ih (fun other hmem => hchildren other (List.mem_cons_of_mem _ hmem)) rest'
        hrest.symm
      rw [List.flatMap_cons, List.flatMap_cons, List.map_cons, List.map_cons, hbelow, hchild, hmore]

/-- In the order of the tree the same unfoldings stand below both nodes. -/
theorem map_unfold_below {id id' : NodeId}
    (h : first.links.unfoldBelow id = second.links.unfoldBelow id') :
    (first.links.below id).map first.links.unfold =
      (second.links.below id').map second.links.unfold := by
  have hshallow := hfirst.shallow id
  -- Every child has one level less below it.
  generalize first.links.size = levels at hshallow
  induction levels generalizing id id' with
  | zero =>
      apply map_unfold_below_of_children hfirst hsecond h
      intro child hchild
      have hnone : first.childrenOf id = [] := hshallow
      rw [hnone] at hchild
      cases hchild
  | succ levels ih =>
      apply map_unfold_below_of_children hfirst hsecond h
      intro child hchild child' heq
      exact ih (hfirst.eq_of_unfold_eq hsecond heq).2 (hshallow child hchild)

end Correspondence

/-- A map of node numbers takes all that stands below a node to what stands below another. -/
structure Corresponds (first second : Scene) (f : NodeId → NodeId) (id id' : NodeId) : Prop where
  unfoldBelow_eq : first.links.unfoldBelow id = second.links.unfoldBelow id'
  map_below : (first.links.below id).map f = second.links.below id'

namespace Corresponds

variable {first second : Scene} {f : NodeId → NodeId} {id id' : NodeId}
  (hfirst : first.Linked) (hsecond : second.Linked) (h : first.Corresponds second f id id')

include hfirst hsecond

/-- The subtrees of two lists of children have the same sizes, and so the same places. -/
theorem of_children {children children' : List NodeId}
    (hunfold : children.map first.links.unfold = children'.map second.links.unfold)
    (hmap : (children.flatMap fun child => child :: first.links.below child).map f =
      children'.flatMap fun child => child :: second.links.below child) :
    children.map f = children' ∧
      ∀ child ∈ children, first.Corresponds second f child (f child) := by
  induction children generalizing children' with
  | nil =>
      have hnone : children' = [] := List.map_eq_nil_iff.mp hunfold.symm
      exact ⟨hnone.symm, List.forall_mem_nil _⟩
  | cons child rest ih =>
      obtain ⟨child', rest', rfl, hchild, hrest⟩ := List.map_eq_cons_iff.mp hunfold.symm
      have hbelow := (hfirst.eq_of_unfold_eq hsecond hchild.symm).2
      have hlength := congrArg List.length (map_unfold_below hfirst hsecond hbelow)
      simp only [List.length_map] at hlength
      rw [List.flatMap_cons, List.flatMap_cons, List.map_append] at hmap
      obtain ⟨hsubtree, hmore⟩ := List.append_inj hmap (by simp [hlength])
      rw [List.map_cons, List.cons.injEq] at hsubtree
      obtain ⟨hothers, hall⟩ := ih hrest.symm hmore
      refine ⟨by rw [List.map_cons, hsubtree.1, hothers], ?_⟩
      intro other hmem
      rcases List.mem_cons.mp hmem with rfl | hmem
      · rw [hsubtree.1]
        exact ⟨hbelow, hsubtree.2⟩
      · exact hall other hmem

include h

theorem map_childrenOf : (first.childrenOf id).map f = second.childrenOf id' ∧
    ∀ child ∈ first.childrenOf id, first.Corresponds second f child (f child) := by
  have hmap := h.map_below
  rw [hfirst.below_eq, hsecond.below_eq] at hmap
  exact of_children hfirst hsecond h.unfoldBelow_eq hmap

theorem of_mem_below {node : NodeId} (hnode : node ∈ first.links.below id) :
    first.Corresponds second f node (f node) := by
  have hpath := (hfirst.mem_ancestors_iff id node).mp ((hfirst.mem_below_iff id node).mp hnode)
  induction hpath with
  | single hstep => exact (h.map_childrenOf hfirst hsecond).2 _ hstep
  | @tail parent child hpath hstep ih =>
      have hparent : parent ∈ first.links.below id := by
        rw [hfirst.mem_below_iff, hfirst.mem_ancestors_iff]
        exact hpath
      exact ((ih hparent).map_childrenOf hfirst hsecond).2 child hstep

theorem node?_eq {node : NodeId} (hnode : node ∈ first.links.below id) :
    first.node? node = second.node? (f node) := by
  have hplaces := map_unfold_below hfirst hsecond h.unfoldBelow_eq
  rw [← h.map_below, List.map_map, List.map_inj_left] at hplaces
  exact (hfirst.eq_of_unfold_eq hsecond (hplaces node hnode)).1

/-! ## What a query finds -/

theorem map_scope (compound : Compound) :
    (first.scope compound id).map f = second.scope compound id' := by
  unfold scope
  cases compound.childOnly with
  | true => exact (h.map_childrenOf hfirst hsecond).1
  | false => exact h.map_below

theorem map_candidates (compound : Compound) :
    (first.graph.candidates compound id).map f = second.graph.candidates compound id' := by
  rw [candidates_eq, candidates_eq, ← h.map_scope hfirst hsecond, List.filter_map]
  congr 1
  apply List.filter_congr
  intro node hnode
  have hbelow := (hfirst.mem_below_iff id node).mpr (hfirst.mem_ancestors_of_mem_scope hnode)
  change (first.node? node).any compound.accepts = (second.node? (f node)).any compound.accepts
  rw [h.node?_eq hfirst hsecond hbelow]

omit hfirst in
theorem injective {node node' : NodeId} (hnode : node ∈ first.links.below id)
    (hnode' : node' ∈ first.links.below id) (heq : f node = f node') : node = node' := by
  have hnodup := hsecond.nodup_below id'
  rw [← h.map_below] at hnodup
  exact List.inj_on_of_nodup_map hnodup hnode hnode' heq

/-- From contexts that correspond node by node, corresponding nodes are found. -/
theorem map_narrow {context context' : List NodeId}
    (hcontext : List.Forall₂ (first.Corresponds second f) context context')
    (hwithin : ∀ node ∈ context, first.isWithin id node = true) (compound : Compound) :
    (first.graph.narrow context compound).map f = second.graph.narrow context' compound := by
  have hflat : (context.flatMap (first.graph.candidates compound)).map f =
      context'.flatMap (second.graph.candidates compound) := by
    clear hwithin
    induction hcontext with
    | nil => rfl
    | cons hnode _ ih =>
        rw [List.flatMap_cons, List.flatMap_cons, List.map_append, ih,
          hnode.map_candidates hfirst hsecond]
  have hbelow : ∀ node ∈ context.flatMap (first.graph.candidates compound),
      node ∈ first.links.below id := by
    intro node hnode
    have hfound : node ∈ first.graph.narrow context compound := by
      rw [Graph.narrow_eq, List.mem_eraseDups]
      exact hnode
    rw [hfirst.mem_below_iff]
    exact hfirst.mem_ancestors_of_mem_narrow hwithin hfound
  rw [Graph.narrow_eq, Graph.narrow_eq, ← hflat]
  refine (eraseDups_map ?_).symm
  intro node hnode node' hnode'
  exact h.injective hsecond (hbelow node hnode) (hbelow node' hnode')

theorem map_foldl_narrow (compound : Compound) (rest : List Compound)
    {context context' : List NodeId}
    (hcontext : List.Forall₂ (first.Corresponds second f) context context')
    (hwithin : ∀ node ∈ context, first.isWithin id node = true) :
    ((compound :: rest).foldl first.graph.narrow context).map f =
      (compound :: rest).foldl second.graph.narrow context' := by
  induction rest generalizing compound context context' with
  | nil => exact h.map_narrow hfirst hsecond hcontext hwithin compound
  | cons next rest ih =>
      have hbelow : ∀ node ∈ first.graph.narrow context compound, id ∈ first.ancestors node :=
        fun node hnode => hfirst.mem_ancestors_of_mem_narrow hwithin hnode
      have hnext : List.Forall₂ (first.Corresponds second f)
          (first.graph.narrow context compound) (second.graph.narrow context' compound) := by
        rw [← h.map_narrow hfirst hsecond hcontext hwithin compound, List.forall₂_map_right_iff,
          List.forall₂_same]
        intro node hnode
        exact h.of_mem_below hfirst hsecond ((hfirst.mem_below_iff id node).mpr (hbelow node hnode))
      refine ih next hnext ?_
      intro node hnode
      rw [isWithin_eq_true_iff]
      exact .inr (hbelow node hnode)

theorem map_matching (compounds : List Compound) :
    (first.graph.matching compounds id).map f = second.graph.matching compounds id' := by
  cases compounds with
  | nil => rfl
  | cons compound rest =>
      rw [Graph.matching_cons, Graph.matching_cons]
      refine h.map_foldl_narrow hfirst hsecond compound rest (.cons h .nil) ?_
      simp

end Corresponds

/-! ## Two numberings -/

/-- The node that stands at the same place in another list. -/
def counterpart (nodes others : List NodeId) (id : NodeId) : NodeId :=
  others.getD (nodes.idxOf id) id

theorem map_counterpart {nodes others : List NodeId} (hnodup : nodes.Nodup)
    (hlength : nodes.length = others.length) : nodes.map (counterpart nodes others) = others := by
  apply List.ext_getElem
  · rw [List.length_map, hlength]
  · intro place hplace hplace'
    rw [List.length_map] at hplace
    rw [List.getElem_map, counterpart, hnodup.idxOf_getElem place hplace,
      List.getD_eq_getElem?_getD, List.getElem?_eq_getElem hplace', Option.getD_some]

/--
Where two starts have the same below them, the nodes below one correspond to those below the
other place by place, and every selector finds nodes that correspond, in the same order.
-/
theorem matching_of_unfoldBelow_eq {first second : Scene} (hfirst : Reachable first)
    (hsecond : Reachable second) {start other : NodeId}
    (h : first.links.unfoldBelow start = second.links.unfoldBelow other) :
    let f := counterpart (first.links.below start) (second.links.below other)
    (first.links.below start).map f = second.links.below other ∧
      ∀ compounds, second.graph.matching compounds other =
        (first.graph.matching compounds start).map f := by
  intro f
  have hlength := congrArg List.length (map_unfold_below hfirst.linked hsecond.linked h)
  simp only [List.length_map] at hlength
  have hmap : (first.links.below start).map f = second.links.below other :=
    map_counterpart (hfirst.linked.nodup_below start) hlength
  have hcorresponds : first.Corresponds second f start other := ⟨h, hmap⟩
  refine ⟨hmap, fun compounds => ?_⟩
  exact (hcorresponds.map_matching hfirst.linked hsecond.linked compounds).symm

/-- A document with two equal leaves, loaded, and the same built in another order. -/
theorem matching_of_loaded_and_built :
    let rect := (Node.ofType "r" "rect").withAttribute "fill" (.text "red")
    let text := "\x7b\"id\":\"p\",\"type\":\"page\",\"children\":[" ++
      "\x7b\"id\":\"f\",\"type\":\"frame\",\"children\":[" ++
      "\x7b\"id\":\"r\",\"type\":\"rect\",\"fill\":\"red\"\x7d," ++
      "\x7b\"fill\":\"red\",\"id\":\"r\",\"type\":\"rect\"\x7d]\x7d," ++
      "\x7b\"id\":\"t\",\"type\":\"text\"\x7d]\x7d"
    let built := (ofRoot (.ofType "q" "group")).edited [.addLeaf rect, .addLeaf (.ofType "t" "text"),
      .addContainer (.ofType "f" "frame"), .addLeaf rect, .append ⟨3⟩ ⟨4⟩, .append .root ⟨3⟩,
      .append .root ⟨2⟩, .append ⟨3⟩ ⟨1⟩]
    let compounds : List Compound := [⟨[.byType "frame"], true⟩, ⟨[.byId "r"], false⟩]
    ∃ loaded, ofText text = .ok loaded ∧
      loaded.scene.links.unfoldBelow .root = built.links.unfoldBelow .root ∧
      loaded.scene.graph.matching compounds .root = [⟨3⟩, ⟨4⟩] ∧
      built.graph.matching compounds .root = [⟨4⟩, ⟨1⟩] := by
  intro rect text built compounds
  let red : Document := .mk "r" "rect" (Keyed.empty.insert "fill" (.string "red")) none
  let document : Document := .mk "p" "page" .empty
    (some [.mk "f" "frame" .empty (some [red, red]), .mk "t" "text" .empty none])
  have hparse : Document.parse text = .ok document := by
    -- Only rewriting gets through the scan; what its lexemes make is so by definition.
    simp [text, Document.parse, Json.Reading.ofText, Json.Lexeme.scan, Json.Lexeme.read,
      Json.Lexeme.readString, Json.Lexeme.isBlank, Json.Lexeme.orBad, Except.map]
    rfl
  obtain ⟨loading, hloading, -⟩ := exists_ofDocument document
  have hloaded := ofText_eq hparse hloading
  have hbuilt : built.links.unfoldBelow .root =
      Document.unfoldings (document.children.getD []) := by
    dsimp only [built, document, red, rect]
    rfl
  have hsame : loading.scene.links.unfoldBelow .root = built.links.unfoldBelow .root :=
    (unfoldBelow_ofDocument hloading).trans hbuilt.symm
  have hnumbers : (ofDocument document).toOption.map (fun loading =>
      (loading.scene.links.below .root, compounds.foldl (fun context next =>
        (context.flatMap (loading.scene.graph.candidates next)).eraseDups) [.root])) =
      some ([⟨1⟩, ⟨3⟩, ⟨4⟩, ⟨2⟩], [⟨3⟩, ⟨4⟩]) := by decide +kernel
  rw [hloading] at hnumbers
  obtain ⟨horder, hfound⟩ := Prod.mk.inj (Option.some.inj hnumbers)
  have hmatching : loading.scene.graph.matching compounds .root = [⟨3⟩, ⟨4⟩] :=
    (Graph.matching_cons_eraseDups ..).trans hfound
  have hfirst : Reachable loading.scene := ⟨_, [], .ofText hloaded, rfl⟩
  have hsecond : Reachable built := ⟨_, _, .ofRoot _, rfl⟩
  refine ⟨_, hloaded, hsame, hmatching, ?_⟩
  rw [(matching_of_unfoldBelow_eq hfirst hsecond hsame).2 compounds, hmatching, horder]
  decide +kernel

end Scene

end Scenery
