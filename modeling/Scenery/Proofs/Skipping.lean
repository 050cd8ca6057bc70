import Scenery.Proofs.Composing
import Scenery.Proofs.Numbering
import Scenery.Proofs.Reporting
import Scenery.Text.ByteOrder

/-!
# Which attributes are left out

Of the members of an object under one name the last counts, and of the attributes that
are left then a node keeps the scalars.  The other ones are warned of.  A load numbers
the nodes in the order in which it takes up their documents, so its warnings come in
the order of the numbers, whatever the shape of the document, and before they are shown
the registry takes out what it knows.
-/

namespace Scenery

open Json (Reading)

/-! ## The last of several members -/

theorem exists_of_bind_eq_ok {ε α β : Type} {first : Except ε α} {next : α → Except ε β}
    {result : β} (h : first >>= next = .ok result) :
    ∃ value, first = .ok value ∧ next value = .ok result := by
  cases first with
  | error error => cases h
  | ok value => exact ⟨value, rfl, h⟩

namespace Document

/-- The value of the last member with a name. -/
def lastMember? (name : String) (members : List (String × Reading)) : Option Reading :=
  (members.reverse.find? (·.1 == name)).map (·.2)

theorem lastMember?_cons (name key : String) (value : Reading)
    (rest : List (String × Reading)) :
    lastMember? name ((key, value) :: rest) =
      (lastMember? name rest).or (if key = name then some value else none) := by
  rw [lastMember?, lastMember?, List.reverse_cons, List.find?_append, List.find?_singleton]
  by_cases hkey : key = name <;> cases rest.reverse.find? (·.1 == name) <;> simp [hkey]

/-- The name is that of a field, and not of an attribute. -/
def NamesField (name : String) : Prop :=
  ∃ field : Field, field.name = name

/-- Take in one member of an object. -/
def addMember (read : Members) (name : String) (value : Reading) : Except Error Members :=
  if name = "id" then
    if read.id.isSome then .error (.duplicate .id)
    else do
      let id ← readText value
      .ok { read with id := some id }
  else if name = "type" then
    if read.type.isSome then .error (.duplicate .type)
    else do
      let type ← readText value
      .ok { read with type := some type }
  else if name = "children" then
    if read.children.isSome then .error (.duplicate .children)
    else do
      let children ← readChildren value
      .ok { read with children := some children }
  else do
    let json ← readAttribute value
    .ok { read with attributes := read.attributes.insert name json }

/-- The members of an object are taken in one by one. -/
theorem addMembers_cons (read : Members) (name : String) (value : Reading)
    (rest : List (String × Reading)) :
    addMembers read ((name, value) :: rest) =
      addMember read name value >>= fun next => addMembers next rest := by
  rw [addMembers, addMember]
  split
  · split
    · rfl
    · cases readText value <;> rfl
  split
  · split
    · rfl
    · cases readText value <;> rfl
  split
  · split
    · rfl
    · cases readChildren value <;> rfl
  · cases readAttribute value <;> rfl

/-- A member with the name of a field leaves the attributes alone, and any other is one of them. -/
theorem addMember_eq_ok {read next : Members} {name : String} {value : Reading}
    (h : addMember read name value = .ok next) :
    (NamesField name ∧ next.attributes = read.attributes ∧
      ((∃ text, readText value = .ok text) ∨ ∃ children, readChildren value = .ok children)) ∨
    (¬ NamesField name ∧ ∃ json, value.toJson = .ok json ∧
      next.attributes = read.attributes.insert name json) := by
  rw [addMember] at h
  split at h
  case isTrue hid =>
    split at h
    · cases h
    · obtain ⟨text, hvalue, hnext⟩ := exists_of_bind_eq_ok h
      cases hnext
      exact .inl ⟨⟨.id, hid.symm⟩, rfl, .inl ⟨text, hvalue⟩⟩
  split at h
  case isTrue htype =>
    split at h
    · cases h
    · obtain ⟨text, hvalue, hnext⟩ := exists_of_bind_eq_ok h
      cases hnext
      exact .inl ⟨⟨.type, htype.symm⟩, rfl, .inl ⟨text, hvalue⟩⟩
  split at h
  case isTrue hchildren =>
    split at h
    · cases h
    · obtain ⟨children, hvalue, hnext⟩ := exists_of_bind_eq_ok h
      cases hnext
      exact .inl ⟨⟨.children, hchildren.symm⟩, rfl, .inr ⟨children, hvalue⟩⟩
  case isFalse hid htype hchildren =>
    obtain ⟨json, hvalue, hnext⟩ := exists_of_bind_eq_ok h
    cases hnext
    refine .inr ⟨?_, json, ?_, rfl⟩
    · rintro ⟨field, hfield⟩
      cases field
      · exact hid hfield.symm
      · exact htype hfield.symm
      · exact hchildren hfield.symm
    · unfold readAttribute at hvalue
      cases hread : value.toJson with
      | error fault => simp [hread, Except.mapError] at hvalue
      | ok found => simpa [hread, Except.mapError] using hvalue

theorem get?_addMembers {read last : Members} {members : List (String × Reading)}
    (h : addMembers read members = .ok last) (name : String) :
    (NamesField name → last.attributes.get? name = read.attributes.get? name) ∧
      (¬ NamesField name → last.attributes.get? name =
        match lastMember? name members with
        | some value => value.toJson.toOption
        | none => read.attributes.get? name) := by
  induction members generalizing read with
  | nil =>
      rw [addMembers] at h
      cases h
      exact ⟨fun _ => rfl, fun _ => rfl⟩
  | cons member rest ih =>
      obtain ⟨key, value⟩ := member
      rw [addMembers_cons] at h
      obtain ⟨next, hnext, hrest⟩ := exists_of_bind_eq_ok h
      obtain ⟨hfield, hattribute⟩ := ih hrest
      rw [lastMember?_cons]
      rcases addMember_eq_ok hnext with ⟨hkey, hsame, -⟩ | ⟨hkey, json, hjson, hadded⟩
      · rw [hsame] at hfield hattribute
        refine ⟨hfield, ?_⟩
        intro hname
        have hne : key ≠ name := fun heq => hname (heq ▸ hkey)
        rw [hattribute hname, if_neg hne, Option.or_none]
      · rw [hadded] at hfield hattribute
        constructor
        · intro hname
          have hne : name ≠ key := fun heq => hkey (heq ▸ hname)
          rw [hfield hname, Keyed.get?_insert, if_neg hne]
        · intro hname
          rw [hattribute hname, Keyed.get?_insert]
          cases lastMember? name rest with
          | some later => rfl
          | none =>
              by_cases hsame : key = name
              · simp [hsame, hjson, Except.toOption]
              · simp [hsame, Ne.symm hsame]

/-- The attributes of an object are its members that are no fields, each with its last value. -/
theorem get?_attributes_ofReading {members : List (String × Reading)} {stop : Option Json.Fault}
    {document : Document} (h : ofReading (.object members stop) = .ok document) (name : String) :
    (NamesField name → document.attributes.get? name = none) ∧
      (¬ NamesField name → document.attributes.get? name =
        (lastMember? name members).bind fun value => value.toJson.toOption) := by
  rw [ofReading] at h
  obtain ⟨last, hmembers, h⟩ := exists_of_bind_eq_ok h
  obtain ⟨-, -, hfinish⟩ := exists_of_bind_eq_ok h
  have hsame : document.attributes = last.attributes := by
    unfold Members.finish at hfinish
    split at hfinish
    · cases hfinish
    · cases hfinish
    · cases hfinish
      rfl
  obtain ⟨hfield, hattribute⟩ := get?_addMembers hmembers name
  rw [hsame]
  refine ⟨hfield, ?_⟩
  intro hname
  rw [hattribute hname]
  cases lastMember? name members <;> rfl

/-! ## Attributes that are no scalars -/

theorem scalar?_eq_none_iff (json : Json) :
    json.scalar? = none ↔
      (∃ items, json = .array items) ∨ ∃ members, json = .object members := by
  cases json <;> simp [Json.scalar?]

theorem mem_skipped_iff (document : Document) (name : String) :
    name ∈ document.skipped ↔
      ∃ json, document.attributes.get? name = some json ∧ json.scalar? = none := by
  simp [skipped, Keyed.get?_eq_some_iff, and_comm]

theorem pairwise_skipped (document : Document) : document.skipped.Pairwise (· < ·) :=
  (document.attributes.ordered.filter _).map _ fun _ _ hlt => hlt

/--
Of the attributes those that are arrays or objects are skipped, in ascending order of their
names, and a node has all others.
-/
structure Sifts (document : Document) (node : Node) : Prop where
  mem_skipped_iff : ∀ name, name ∈ document.skipped ↔
    (∃ items, document.attributes.get? name = some (.array items)) ∨
      ∃ members, document.attributes.get? name = some (.object members)
  /-- The order is that of the bytes of the names. -/
  ordered : document.skipped.Pairwise fun name later =>
    name.toUTF8.data.toList < later.toUTF8.data.toList
  absent : ∀ name ∈ document.skipped, node.attributes.get? name = none
  present : ∀ name, name ∉ document.skipped →
    (node.attributes.get? name).map Value.toJson = document.attributes.get? name

theorem get?_attributes_node (document : Document) (name : String) :
    document.node.attributes.get? name = (document.attributes.get? name).bind Json.scalar? := by
  obtain ⟨id, type, attributes, children⟩ := document
  exact Keyed.get?_filterMap attributes Json.scalar? name

theorem sifts_node (document : Document) : document.Sifts document.node where
  mem_skipped_iff := by
    intro name
    rw [document.mem_skipped_iff]
    constructor
    · rintro ⟨json, hjson, hscalar⟩
      rcases (scalar?_eq_none_iff json).mp hscalar with ⟨items, rfl⟩ | ⟨members, rfl⟩
      · exact .inl ⟨items, hjson⟩
      · exact .inr ⟨members, hjson⟩
    · rintro (⟨items, hjson⟩ | ⟨members, hjson⟩)
      · exact ⟨_, hjson, rfl⟩
      · exact ⟨_, hjson, rfl⟩
  ordered := document.pairwise_skipped.imp Text.toUTF8_lt_of_lt
  absent := by
    intro name hname
    obtain ⟨json, hjson, hscalar⟩ := (document.mem_skipped_iff name).mp hname
    rw [get?_attributes_node, hjson, Option.bind_some, hscalar]
  present := by
    intro name hname
    rw [get?_attributes_node]
    cases hjson : document.attributes.get? name with
    | none => rfl
    | some json =>
        cases hscalar : json.scalar? with
        | none => exact absurd ((document.mem_skipped_iff name).mpr ⟨json, hjson, hscalar⟩) hname
        | some value =>
            rw [Option.bind_some, hscalar, Option.map_some, Json.eq_toJson_of_scalar? hscalar]

/-- What a warning says of an attribute that is skipped. -/
def skipMessage (name : String) : String :=
  "attribute '" ++ name ++ "' has a non-scalar value and was skipped"

theorem skipMessage_inj {name name' : String} :
    skipMessage name = skipMessage name' ↔ name = name' := by
  simp [skipMessage, ← String.toList_inj, String.toList_append]

theorem notices_eq (document : Document) :
    document.notices = document.skipped.map fun name => .warning "scene" (skipMessage name) := rfl

theorem isFrom_of_mem_notices {document : Document} {notice : Notice}
    (h : notice ∈ document.notices) : Registry.IsFrom "scene" notice := by
  obtain ⟨name, -, rfl⟩ := List.mem_map.mp h
  rfl

theorem filterMap_message?_notices (document : Document) :
    document.notices.filterMap Registry.message? = document.skipped.map skipMessage := by
  rw [notices_eq, List.filterMap_map, ← List.filterMap_eq_map]
  rfl

end Document

namespace Scene

open Document (deeper skipMessage)

/-! ## The notices and the nodes of a load -/

/-- Loading reports what is skipped, document by document in the order of loading. -/
theorem notices_addUnder {loading loaded : Loading} {parent : NodeId} {documents : List Document}
    {waiting : List Waiting} (h : addUnder loading parent documents waiting = .ok loaded) :
    loaded.notices.toList = loading.notices.toList ++
      (awaited ((parent, documents) :: waiting)).flatMap Document.notices := by
  fun_induction addUnder loading parent documents waiting with
  | case1 loading parent =>
      cases h
      simp [awaited, deeper]
  | case2 loading parent next children rest ih =>
      rw [ih h]
      simp [awaited, deeper]
  | case3 => cases h
  | case4 loading parent waiting document others grown id hadd scene happend ih =>
      rw [ih h, awaited_cons_cons parent id, List.flatMap_cons, ← List.append_assoc]
      exact congrArg (· ++ _) Array.toList_appendList

/-- The nodes carry what their documents say, in the order of loading. -/
theorem node?_addUnder {loading loaded : Loading} {parent : NodeId} {documents : List Document}
    {waiting : List Waiting} (hready : loading.scene.Ready ((parent, documents) :: waiting))
    (h : addUnder loading parent documents waiting = .ok loaded) {place : Nat}
    {document : Document}
    (hplace : (awaited ((parent, documents) :: waiting))[place]? = some document) :
    loaded.scene.node? ⟨loading.scene.size + place⟩ = some document.node := by
  fun_induction addUnder loading parent documents waiting generalizing place with
  | case1 loading parent => simp [awaited, deeper] at hplace
  | case2 loading parent next children rest ih =>
      rw [awaited, deeper] at hplace
      exact ih hready.tail h hplace
  | case3 => cases h
  | case4 loading parent waiting first others grown id hadd scene happend ih =>
      obtain ⟨hid, heq⟩ := hready.append_eq hadd
      rw [heq] at happend
      cases happend
      subst hid
      rw [awaited_cons_cons parent ⟨loading.scene.size⟩] at hplace
      cases place with
      | zero =>
          -- The document that is placed now has the next number, and nothing touches its node later.
          have hcompletes := completes_of_addUnder hready.place h
          have hparent := hready.isContainer _ List.mem_cons_self
          rw [List.getElem?_cons_zero, Option.some_inj] at hplace
          rw [hcompletes.node?_eq _ (by rw [size_place]; exact Nat.lt_succ_self _),
            node?_place hparent, Nat.add_zero, if_pos rfl, hplace]
      | succ place =>
          rw [List.getElem?_cons_succ] at hplace
          have hlater := ih hready.place h hplace
          rw [size_place] at hlater
          rw [← hlater]
          congr 2
          omega

/--
Every node has a document of its own: the root has the whole, and the children of a node have
the parts of its document, in order.
-/
structure Assigns (scene : Scene) (document : Document) (documents : List Document) : Prop where
  length_eq : documents.length = scene.size
  root : documents[NodeId.root.index]? = some document
  childrenOf : ∀ (id : NodeId) (other : Document), documents[id.index]? = some other →
    (scene.childrenOf id).map (fun child => documents[child.index]?) = other.parts.map some

theorem map_getElem?_numbered {parts documents : List Document} {first : Nat}
    (h : parts <+: documents.drop first) :
    (numbered first parts.length).map (fun id => documents[id.index]?) = parts.map some := by
  obtain ⟨rest, hrest⟩ := h
  apply List.ext_getElem?
  intro place
  rw [List.getElem?_map, List.getElem?_map]
  by_cases hplace : place < parts.length
  · rw [getElem?_numbered hplace, Option.map_some, ← List.getElem?_drop, ← hrest,
      List.getElem?_append_left hplace, List.getElem?_eq_getElem hplace, Option.map_some]
  · rw [List.getElem?_eq_none (by rw [length_numbered]; omega),
      List.getElem?_eq_none (Nat.le_of_not_lt hplace)]
    rfl

section Load

variable {document : Document} {loading : Loading} (hloading : ofDocument document = .ok loading)

include hloading

theorem assigns_order (hlinked : loading.scene.Linked)
    (hcompletes : (ofRoot document.node).Completes [(.root, document.parts)] loading.scene) :
    loading.scene.Assigns document document.order where
  length_eq := by rw [Document.length_order, size_eq_count hcompletes]
  root := rfl
  childrenOf := by
    intro id other hother
    have hid : id.index < loading.scene.size := by
      rw [size_eq_count hcompletes, ← Document.length_order]
      exact (List.getElem?_eq_some_iff.mp hother).1
    obtain ⟨same, first, hstands⟩ := stands_of_ofDocument hloading hlinked hcompletes hid
    obtain rfl : same = other := by
      rw [hstands.document_eq] at hother
      exact Option.some.inj hother
    rw [hstands.childrenOf_eq]
    exact map_getElem?_numbered ((List.prefix_append _ _).trans hstands.isPrefix)

theorem node?_order
    (hcompletes : (ofRoot document.node).Completes [(.root, document.parts)] loading.scene)
    {id : NodeId} {other : Document} (hother : document.order[id.index]? = some other) :
    loading.scene.node? id = some other.node := by
  obtain ⟨index⟩ := id
  cases index with
  | zero =>
      obtain rfl : document = other := Option.some.inj hother
      exact hcompletes.node?_eq .root Nat.zero_lt_one
  | succ place =>
      have hwaits : (awaited [(.root, document.parts)])[place]? = some other := by
        rw [awaited, awaited, List.append_nil]
        exact hother
      have hnode := node?_addUnder (ready_ofRoot document.node document.parts) hloading hwaits
      rwa [size_ofRoot, Nat.add_comm] at hnode

theorem notices_eq_flatMap_order :
    loading.notices.toList = document.order.flatMap Document.notices := by
  rw [notices_addUnder hloading, Document.order, List.flatMap_cons, awaited, awaited,
    List.append_nil]
  rfl

end Load

/-! ## What is shown -/

/-- Notices that are reported in order show each skipped name once, unless it is known. -/
theorem warnings_replay_notices (registry : Registry) (documents : List Document) :
    (registry.replay (documents.flatMap Document.notices)).2.filter (·.level = .warn) =
      ((documents.flatMap Document.skipped).eraseDups.filter
        fun name => !registry.wasWarned "scene" (skipMessage name)).map
          fun name => ⟨.warn, "scene", skipMessage name⟩ := by
  have hfrom : ∀ notice ∈ documents.flatMap Document.notices, Registry.IsFrom "scene" notice := by
    intro notice hnotice
    obtain ⟨document, -, hnotice⟩ := List.mem_flatMap.mp hnotice
    exact Document.isFrom_of_mem_notices hnotice
  have hmessages : (documents.flatMap Document.notices).filterMap Registry.message? =
      (documents.flatMap Document.skipped).map skipMessage := by
    rw [List.filterMap_flatMap, List.map_flatMap]
    simp only [Document.filterMap_message?_notices]
  have hinjective : ∀ name ∈ documents.flatMap Document.skipped,
      ∀ later ∈ documents.flatMap Document.skipped,
        skipMessage name = skipMessage later → name = later :=
    fun name _ later _ => Document.skipMessage_inj.mp
  rw [Registry.warnings_replay hfrom, hmessages, eraseDups_map hinjective, List.filter_map,
    List.map_map]
  rfl

/--
A load warns of the attributes that are arrays or objects.  Taken node by node in the order of
their numbers, and for each node in the order of the bytes, their names are shown once, but for
those that the registry knows.  The nodes have all other attributes.
-/
theorem ofDocument_shows (document : Document) (registry : Registry) :
    ∃ loading documents, ofDocument document = .ok loading ∧
      loading.scene.Assigns document documents ∧
      (∀ (id : NodeId) (other : Document), documents[id.index]? = some other →
        ∃ node, loading.scene.node? id = some node ∧ other.Sifts node) ∧
      (registry.replay loading.notices.toList).2.filter (·.level = .warn) =
        ((documents.flatMap Document.skipped).eraseDups.filter
          fun name => !registry.wasWarned "scene" (skipMessage name)).map
            (fun name => ⟨.warn, "scene", skipMessage name⟩) ∧
      (∀ text, Document.parse text = .ok document →
        ∃ loaded, ofText text = .ok loaded ∧ loaded.scene = loading.scene ∧
          (registry.replay loaded.notices).2.filter (·.level = .warn) =
            (registry.replay loading.notices.toList).2.filter (·.level = .warn)) ∧
      ∀ members stop (other : Document), Document.ofReading (.object members stop) = .ok other →
        ∀ name, (Document.NamesField name → other.attributes.get? name = none) ∧
          (¬ Document.NamesField name → other.attributes.get? name =
            (Document.lastMember? name members).bind fun value => value.toJson.toOption) := by
  obtain ⟨loading, hloading, hlinked, hcompletes⟩ := exists_ofDocument document
  refine ⟨loading, document.order, hloading, assigns_order hloading hlinked hcompletes, ?_, ?_,
    ?_, ?_⟩
  · intro id other hother
    exact ⟨other.node, node?_order hloading hcompletes hother, other.sifts_node⟩
  · rw [notices_eq_flatMap_order hloading, warnings_replay_notices]
  · intro text htext
    refine ⟨_, ofText_eq htext hloading, rfl, ?_⟩
    rw [Registry.replay_append, List.filter_append]
    simp [Registry.replay, Registry.note, Notice.debug]
  · intro members stop other hother name
    exact Document.get?_attributes_ofReading hother name

/-- What is below the second frame is warned of before what is below the first. -/
example :
    let leaf (name : String) : Document :=
      .mk "leaf" "rect" (Keyed.empty.insert name (.array [])) none
    let frame (children : List Document) : Document := .mk "frame" "frame" .empty (some children)
    let page := frame [frame [leaf "x"], frame [leaf "y", leaf "x"]]
    (ofDocument page).toOption.map (fun loading =>
      (Registry.empty.replay loading.notices.toList).2.map (·.message)) =
        some [skipMessage "y", skipMessage "x"] := by
  decide +kernel

end Scene

end Scenery
