import Scenery.Proofs.Spelling

/-!
# The order of members

The members of an object may stand in any order: what a scene document is loaded to
depends only on what each member can be read as, and members of different names are
taken in in either order.  Of attributes that are arrays or objects no more counts than
that they are, so the order inside them does not matter either.
-/

namespace Scenery

open Json (Lexeme Reading)

namespace Json.Reading

mutual

/-- No object in a document has two members of one name. -/
def Distinct : Reading → Prop
  | array items _ => ItemsDistinct items
  | object members _ => (members.map (·.1)).Nodup ∧ MembersDistinct members
  | _ => True

def ItemsDistinct : List Reading → Prop
  | [] => True
  | item :: rest => Distinct item ∧ ItemsDistinct rest

def MembersDistinct : List (String × Reading) → Prop
  | [] => True
  | (_, value) :: rest => Distinct value ∧ MembersDistinct rest

end

mutual

/-- A document differs from another at most in the order of the members, at any depth. -/
inductive Rearranges : Reading → Reading → Prop where
  | refl (document : Reading) : Rearranges document document
  | array {items others : List Reading} {stop : Option Fault} (h : ItemsRearrange items others) :
      Rearranges (array items stop) (array others stop)
  | object {members kept others : List (String × Reading)} {stop : Option Fault}
      (h : MembersRearrange members kept) (perm : kept.Perm others) :
      Rearranges (object members stop) (object others stop)

/-- Items stand where they stood. -/
inductive ItemsRearrange : List Reading → List Reading → Prop where
  | nil : ItemsRearrange [] []
  | cons {item other : Reading} {rest later : List Reading} (head : Rearranges item other)
      (tail : ItemsRearrange rest later) : ItemsRearrange (item :: rest) (other :: later)

/-- Members before their own order is changed. -/
inductive MembersRearrange : List (String × Reading) → List (String × Reading) → Prop where
  | nil : MembersRearrange [] []
  | cons {value other : Reading} {rest later : List (String × Reading)} (name : String)
      (head : Rearranges value other) (tail : MembersRearrange rest later) :
      MembersRearrange ((name, value) :: rest) ((name, other) :: later)

end

/--
What `f` finds in an array is settled by what it finds in the items, and in an object by what
it finds in the members, in whatever order they stand.
-/
structure Unordered {α : Type} (f : Reading → α) : Prop where
  array : ∀ items others stop, items.map f = others.map f →
    f (array items stop) = f (array others stop)
  object : ∀ members others stop, (members.map (·.1)).Nodup →
    (members.map (Prod.map id f)).Perm (others.map (Prod.map id f)) →
      f (object members stop) = f (object others stop)

-- By induction on the way in which the order was changed.
mutual

theorem Unordered.eq_of_rearranges {α : Type} {f : Reading → α} (hf : Unordered f)
    {document other : Reading} (hdistinct : document.Distinct) (h : document.Rearranges other) :
    f document = f other := by
  match h with
  | .refl document => rfl
  | .array hitems =>
      rw [Distinct] at hdistinct
      exact hf.array _ _ _ (hf.map_eq_of_rearrange hdistinct hitems)
  | .object hmembers hperm =>
      rw [Distinct] at hdistinct
      refine hf.object _ _ _ hdistinct.1 ?_
      rw [hf.map_members_eq_of_rearrange hdistinct.2 hmembers]
      exact hperm.map _

theorem Unordered.map_eq_of_rearrange {α : Type} {f : Reading → α} (hf : Unordered f)
    {items others : List Reading} (hdistinct : ItemsDistinct items)
    (h : ItemsRearrange items others) : items.map f = others.map f := by
  match h with
  | .nil => rfl
  | .cons hitem hrest =>
      rw [ItemsDistinct] at hdistinct
      rw [List.map_cons, List.map_cons, hf.eq_of_rearranges hdistinct.1 hitem,
        hf.map_eq_of_rearrange hdistinct.2 hrest]

theorem Unordered.map_members_eq_of_rearrange {α : Type} {f : Reading → α} (hf : Unordered f)
    {members others : List (String × Reading)} (hdistinct : MembersDistinct members)
    (h : MembersRearrange members others) :
    members.map (Prod.map id f) = others.map (Prod.map id f) := by
  match h with
  | .nil => rfl
  | .cons name hvalue hrest =>
      rw [MembersDistinct] at hdistinct
      rw [List.map_cons, List.map_cons, Prod.map_apply, Prod.map_apply,
        hf.eq_of_rearranges hdistinct.1 hvalue, hf.map_members_eq_of_rearrange hdistinct.2 hrest]

end

theorem forall_values_iff_of_perm {α : Type} {f : Reading → α}
    {members others : List (String × Reading)}
    (h : (members.map (Prod.map id f)).Perm (others.map (Prod.map id f))) (p : α → Prop) :
    (∀ member ∈ members, p (f member.2)) ↔ ∀ member ∈ others, p (f member.2) := by
  have hentries : (∀ entry ∈ members.map (Prod.map id f), p entry.2) ↔
      ∀ entry ∈ others.map (Prod.map id f), p entry.2 := by
    simp only [h.mem_iff]
  simpa only [List.forall_mem_map, Prod.map_snd] using hentries

/-! ## Depth -/

theorem itemsFit_iff (depth : Nat) (items : List Reading) :
    ItemsFit depth items ↔ ∀ item ∈ items, item.Fits depth := by
  induction items with
  | nil => simp [ItemsFit]
  | cons item rest ih => rw [ItemsFit, ih, List.forall_mem_cons]

theorem membersFit_iff (depth : Nat) (members : List (String × Reading)) :
    MembersFit depth members ↔ ∀ member ∈ members, member.2.Fits depth := by
  induction members with
  | nil => simp [MembersFit]
  | cons member rest ih => rw [MembersFit, ih, List.forall_mem_cons]

theorem unordered_fits : Unordered fun reading depth => reading.Fits depth where
  array := by
    intro items others stop hsame
    funext depth
    have hall := congrArg (fun fits => ∀ fit ∈ fits, fit (depth + 1)) hsame
    simp only [List.forall_mem_map] at hall
    simp only [Fits, itemsFit_iff, hall]
  object := by
    intro members others stop _ hsame
    funext depth
    have hall := forall_values_iff_of_perm hsame fun fits => fits (depth + 1)
    simp only [Fits, membersFit_iff, hall]

end Json.Reading

/-! ## What counts of a document -/

namespace Keyed

theorem insert_comm {α : Type} (map : Keyed α) {name other : String} (h : name ≠ other)
    (value later : α) :
    (map.insert name value).insert other later = (map.insert other later).insert name value := by
  refine eq_of_get?_eq fun key => ?_
  simp only [get?_insert]
  by_cases hname : key = name
  · rw [if_neg (fun heq => h (hname.symm.trans heq)), if_pos hname, if_pos hname]
  · rw [if_neg hname, if_neg hname]

theorem filterMap_insert {α β : Type} (map : Keyed α) (name : String) (value : α) (f : α → β) :
    (map.insert name value).filterMap (fun a => some (f a)) =
      (map.filterMap fun a => some (f a)).insert name (f value) := by
  refine eq_of_get?_eq fun key => ?_
  rw [get?_filterMap, get?_insert, get?_insert, get?_filterMap]
  by_cases hname : key = name
  · rw [if_pos hname, if_pos hname, Option.bind_some]
  · rw [if_neg hname, if_neg hname]

end Keyed

/-- The scalar itself; of an array or an object only that it is one. -/
def Json.outline : Json → Json
  | .array _ => .array []
  | .object _ => .object []
  | json => json

theorem Json.scalar?_outline (json : Json) : json.outline.scalar? = json.scalar? := by
  cases json <;> rfl

namespace Document

mutual

/-- The document with the outlines of its attributes. -/
def outline : Document → Document
  | mk id type attributes none =>
    mk id type (attributes.filterMap fun json => some json.outline) none
  | mk id type attributes (some children) =>
    mk id type (attributes.filterMap fun json => some json.outline) (some (outlineAll children))

def outlineAll : List Document → List Document
  | [] => []
  | document :: rest => outline document :: outlineAll rest

end

theorem attributes_outline (document : Document) :
    document.outline.attributes = document.attributes.filterMap fun json => some json.outline := by
  obtain ⟨id, type, attributes, _ | children⟩ := document <;> rfl

theorem children_outline (document : Document) :
    document.outline.children = document.children.map outlineAll := by
  obtain ⟨id, type, attributes, _ | children⟩ := document <;> rfl

theorem node_outline (document : Document) : document.outline.node = document.node := by
  have hattributes (attributes : Keyed Json) :
      (attributes.filterMap fun json => some json.outline).filterMap Json.scalar? =
        attributes.filterMap Json.scalar? := by
    refine Keyed.eq_of_get?_eq fun name => ?_
    simp only [Keyed.get?_filterMap]
    cases attributes.get? name with
    | none => rfl
    | some json => exact json.scalar?_outline
  obtain ⟨id, type, attributes, _ | children⟩ := document <;>
    rw [outline, node, node, hattributes]

theorem skipped_outline (document : Document) : document.outline.skipped = document.skipped := by
  unfold skipped
  rw [attributes_outline]
  simp [Keyed.filterMap, List.filter_map, Function.comp_def, Json.scalar?_outline]

theorem notices_outline (document : Document) : document.outline.notices = document.notices := by
  rw [notices, notices, skipped_outline]

/-- What the members make of the outlines. -/
def Members.outline (read : Members) : Members :=
  { read with
    children := read.children.map (Option.map outlineAll)
    attributes := read.attributes.filterMap fun json => some json.outline }

/-- What a value can be read as, in outline. -/
@[ext] structure Uses where
  text : Option String
  children : Option (Option (List Document))
  json : Option Json
  document : Option Document

def uses (reading : Reading) : Uses where
  text := (readText reading).toOption
  children := (readChildren reading).toOption.map (Option.map outlineAll)
  json := (readAttribute reading).toOption.map Json.outline
  document := (ofReading reading).toOption.map outline

/-- Put a value that could be read in a place that is not taken. -/
def fill {α : Type} (taken : Members → Bool) (put : α → Members → Members) (value : Option α)
    (read : Members) : Option Members :=
  bif taken read then none else value.map fun content => put content read

/-- Take in a member that can be read so. -/
def Members.take? (read : Members) (member : String × Uses) : Option Members :=
  if member.1 = "id" then
    fill (·.id.isSome) (fun id read => { read with id := some id }) member.2.text read
  else if member.1 = "type" then
    fill (·.type.isSome) (fun type read => { read with type := some type }) member.2.text read
  else if member.1 = "children" then
    fill (·.children.isSome) (fun children read => { read with children := some children })
      member.2.children read
  else
    fill (fun _ => false)
      (fun json read => { read with attributes := read.attributes.insert member.1 json })
      member.2.json read

/-- Two places are filled in either order if neither touches the other. -/
theorem fill_comm {α β : Type} {taken taken' : Members → Bool} {put : α → Members → Members}
    {put' : β → Members → Members}
    (hput : ∀ a b read, put' b (put a read) = put a (put' b read))
    (htaken : ∀ b read, taken (put' b read) = taken read)
    (htaken' : ∀ a read, taken' (put a read) = taken' read)
    (value : Option α) (value' : Option β) (read : Members) :
    (fill taken put value read).bind (fill taken' put' value') =
      (fill taken' put' value' read).bind (fill taken put value) := by
  unfold fill
  cases hread : taken read <;> cases hread' : taken' read <;> cases value <;> cases value' <;>
    simp [htaken, htaken', hput, hread, hread']

theorem outline_addMember (read : Members) (name : String) (value : Reading) :
    (addMember read name value).toOption.map Members.outline =
      read.outline.take? (name, uses value) := by
  simp only [addMember, Members.take?, fill, uses]
  split
  · have htaken : read.outline.id.isSome = read.id.isSome := rfl
    rw [htaken]
    cases read.id.isSome <;> cases readText value <;> rfl
  split
  · have htaken : read.outline.type.isSome = read.type.isSome := rfl
    rw [htaken]
    cases read.type.isSome <;> cases readText value <;> rfl
  split
  · have htaken : read.outline.children.isSome = read.children.isSome := Option.isSome_map
    rw [htaken]
    cases read.children.isSome <;> cases readChildren value <;> rfl
  · cases readAttribute value with
    | error error => rfl
    | ok json =>
      refine congrArg some ?_
      simp only [Members.outline, Keyed.filterMap_insert]

/-- Members of different names are taken in in either order. -/
theorem take?_comm (read : Members) {first second : String × Uses} (h : first.1 ≠ second.1) :
    (read.take? first).bind (·.take? second) = (read.take? second).bind (·.take? first) := by
  unfold Members.take?
  split_ifs
  all_goals first
    -- Two members for one field have one name.
    | (simp_all only [ne_eq, not_true_eq_false]; done)
    -- Otherwise they have their places apart, or are attributes.
    | (refine fill_comm ?_ ?_ ?_ _ _ _ <;> intros <;> first | rfl | rw [Keyed.insert_comm _ h])

/-- Take in members one after the other, until one cannot be taken in. -/
def takeAll (read : Option Members) (members : List (String × Uses)) : Option Members :=
  members.foldl (fun read member => read.bind (·.take? member)) read

theorem takeAll_none (members : List (String × Uses)) : takeAll none members = none := by
  induction members with
  | nil => rfl
  | cons member rest ih => exact ih

theorem outline_addMembers (read : Members) (members : List (String × Reading)) :
    (addMembers read members).toOption.map Members.outline =
      takeAll (some read.outline) (members.map (Prod.map id uses)) := by
  induction members generalizing read with
  | nil => rw [addMembers]; rfl
  | cons member rest ih =>
      obtain ⟨name, value⟩ := member
      have hmember := outline_addMember read name value
      rw [addMembers_cons, List.map_cons, takeAll, List.foldl_cons, Option.bind_some,
        Prod.map_apply, id, ← hmember]
      cases addMember read name value with
      | error error => exact (takeAll_none _).symm
      | ok next => exact ih next

/-- Members with different names are taken in in any order. -/
theorem takeAll_eq_of_perm {members others : List (String × Uses)}
    (hnodup : (members.map (·.1)).Nodup) (h : members.Perm others) (read : Option Members) :
    takeAll read members = takeAll read others := by
  refine h.foldl_eq' ?_ read
  intro first hfirst second hsecond between
  by_cases hname : first.1 = second.1
  · -- A name occurs once, so the two are one member.
    rw [List.inj_on_of_nodup_map hnodup hfirst hsecond hname]
  · cases between with
    | none => rfl
    | some read => exact take?_comm read hname

theorem outline_finish (read : Members) :
    read.finish.toOption.map outline = read.outline.finish.toOption := by
  obtain ⟨_ | id, _ | type, _ | _ | children, attributes⟩ := read <;> rfl

theorem outline_ofReading (members : List (String × Reading)) (stop : Option Json.Fault) :
    (ofReading (.object members stop)).toOption.map outline =
      (takeAll (some {}) (members.map (Prod.map id uses))).bind fun read =>
        (readEnd stop).toOption.bind fun _ => read.finish.toOption := by
  have hmembers := outline_addMembers {} members
  have hstart : Members.outline {} = {} := rfl
  rw [hstart] at hmembers
  rw [← hmembers, ofReading]
  cases addMembers {} members with
  | error error => rfl
  | ok read =>
      cases stop with
      | none => exact outline_finish read
      | some fault => rfl

theorem outline_readItems (items : List Reading) :
    (readItems items).toOption.map outlineAll = (items.map uses).mapM Uses.document := by
  induction items with
  | nil => rw [readItems]; rfl
  | cons item rest ih =>
      rw [readItems, List.map_cons, List.mapM_cons, ← ih]
      simp only [uses]
      cases ofReading item with
      | error error => rfl
      | ok document => cases readItems rest <;> rfl

theorem children_uses_array (items : List Reading) (stop : Option Json.Fault) :
    (uses (.array items stop)).children =
      ((items.map uses).mapM Uses.document).bind fun documents =>
        (readEnd stop).toOption.map fun _ => some documents := by
  rw [← outline_readItems]
  simp only [uses, readChildren]
  cases readItems items with
  | error error => rfl
  | ok documents => cases stop <;> rfl

theorem whole_iff (reading : Reading) : reading.Whole ↔ (uses reading).json.isSome = true := by
  unfold Reading.Whole uses readAttribute
  cases reading.toJson <;> simp [Except.mapError, Except.toOption]

theorem json_uses_eq {reading other : Reading} {shape : Json}
    (hreading : ∀ json, reading.toJson = .ok json → json.outline = shape)
    (hother : ∀ json, other.toJson = .ok json → json.outline = shape)
    (h : reading.Whole ↔ other.Whole) : (uses reading).json = (uses other).json := by
  unfold Reading.Whole at h
  unfold uses readAttribute
  cases hread : reading.toJson with
  | error fault =>
      cases hread' : other.toJson with
      | error later => rfl
      | ok json => simp [hread, hread'] at h
  | ok json =>
      cases hread' : other.toJson with
      | error fault => simp [hread, hread'] at h
      | ok later => exact congrArg some ((hreading json hread).trans (hother later hread').symm)

theorem outline_array {items : List Reading} {stop : Option Json.Fault} (json : Json)
    (h : (Reading.array items stop).toJson = .ok json) : json.outline = .array [] := by
  rw [Reading.toJson] at h
  obtain ⟨values, -, h⟩ := exists_of_bind_eq_ok h
  cases stop <;> cases h
  rfl

theorem outline_object {members : List (String × Reading)} {stop : Option Json.Fault} (json : Json)
    (h : (Reading.object members stop).toJson = .ok json) : json.outline = .object [] := by
  rw [Reading.toJson] at h
  obtain ⟨values, -, h⟩ := exists_of_bind_eq_ok h
  cases stop <;> cases h
  rfl

/-- What a value can be read as is settled by what its parts can be read as. -/
theorem unordered_uses : Reading.Unordered uses where
  array := by
    intro items others stop hsame
    have hwhole : (Reading.array items stop).Whole ↔ (Reading.array others stop).Whole := by
      have hall : (∀ use ∈ items.map uses, use.json.isSome = true) ↔
          ∀ use ∈ others.map uses, use.json.isSome = true := by
        rw [hsame]
      simp only [List.forall_mem_map, ← whole_iff] at hall
      rw [Reading.whole_array_iff, Reading.whole_array_iff, hall]
    have hjson := json_uses_eq outline_array outline_array hwhole
    have hchildren : (uses (.array items stop)).children =
        (uses (.array others stop)).children := by
      rw [children_uses_array, children_uses_array, hsame]
    exact Uses.ext rfl hchildren hjson rfl
  object := by
    intro members others stop hnodup hperm
    have hwhole : (Reading.object members stop).Whole ↔ (Reading.object others stop).Whole := by
      have hall := Reading.forall_values_iff_of_perm hperm fun use => use.json.isSome = true
      simp only [← whole_iff] at hall
      rw [Reading.whole_object_iff, Reading.whole_object_iff, hall]
    have hjson := json_uses_eq outline_object outline_object hwhole
    have hdocument : (uses (.object members stop)).document =
        (uses (.object others stop)).document := by
      have hnames : ((members.map (Prod.map id uses)).map (·.1)).Nodup := by
        rw [List.map_map]
        exact hnodup
      change (ofReading _).toOption.map outline = (ofReading _).toOption.map outline
      rw [outline_ofReading, outline_ofReading, takeAll_eq_of_perm hnames hperm]
    exact Uses.ext rfl rfl hjson hdocument

end Document

namespace Scene

open Document (outlineAll)

/-! ## Loading in outline -/

theorem addDocument_outline (scene : Scene) (document : Document) :
    scene.addDocument document.outline = scene.addDocument document := by
  rw [addDocument, addDocument, document.children_outline, document.node_outline,
    Option.isSome_map]

/-- Documents that wait, in outline. -/
def outlineWaiting (waiting : List Waiting) : List Waiting :=
  waiting.map fun entry => (entry.1, outlineAll entry.2)

theorem waitingUnder_outline (id : NodeId) (document : Document) :
    waitingUnder id document.outline = outlineWaiting (waitingUnder id document) := by
  rw [waitingUnder, waitingUnder, document.children_outline]
  cases document.children <;> rfl

theorem addUnder_outline (loading : Loading) (parent : NodeId) (documents : List Document)
    (waiting : List Waiting) :
    addUnder loading parent (outlineAll documents) (outlineWaiting waiting) =
      addUnder loading parent documents waiting := by
  fun_induction addUnder loading parent documents waiting with
  | case1 loading parent => rw [outlineAll, outlineWaiting, List.map_nil, addUnder]
  | case2 loading parent next children rest ih =>
      rw [outlineAll, outlineWaiting, List.map_cons, addUnder]
      exact ih
  | case3 loading parent waiting document others grown id hadd error happend =>
      rw [outlineAll, addUnder, addDocument_outline, hadd]
      simp only [happend]
  | case4 loading parent waiting document others grown id hadd scene happend ih =>
      rw [outlineAll, addUnder, addDocument_outline, hadd]
      simp only [happend]
      rw [document.notices_outline, waitingUnder_outline, outlineWaiting, outlineWaiting,
        ← List.map_append]
      exact ih

/-- A document is loaded like its outline. -/
theorem ofDocument_outline (document : Document) :
    ofDocument document.outline = ofDocument document := by
  have hchildren : document.outline.children.getD [] = outlineAll (document.children.getD []) := by
    rw [document.children_outline]
    cases document.children <;> rfl
  rw [ofDocument, ofDocument, document.node_outline, document.notices_outline, hchildren]
  exact addUnder_outline _ _ _ []

theorem toOption_ofText_eq {first second : String}
    (h : (Document.parse first).toOption.map Document.outline =
      (Document.parse second).toOption.map Document.outline) :
    (ofText first).toOption = (ofText second).toOption := by
  unfold ofText
  cases hfirst : Document.parse first with
  | error error =>
      cases hsecond : Document.parse second with
      | error later => rfl
      | ok other => simp [hfirst, hsecond, Except.toOption] at h
  | ok document =>
      cases hsecond : Document.parse second with
      | error error => simp [hfirst, hsecond, Except.toOption] at h
      | ok other =>
          rw [hfirst, hsecond] at h
          have hload : ofDocument document = ofDocument other := by
            rw [← ofDocument_outline document, Option.some.inj h, ofDocument_outline]
          simp only [hload]

theorem toOption_parse (text : String) :
    (Document.parse text).toOption =
      (Document.ofReading (Reading.ofText text).1).toOption.bind fun document =>
        (Document.readEnd (Reading.ofText text).2).toOption.map fun _ => document := by
  rw [Document.parse]
  obtain ⟨root, behind⟩ := Reading.ofText text
  simp only
  cases Document.ofReading root with
  | error error => rfl
  | ok document => cases behind <;> rfl

theorem toOption_parse_of_fits {document : Reading} {text : String} (h : document.Spelled text)
    (hfits : document.Fits 0) :
    (Document.parse text).toOption = (Document.ofReading document).toOption := by
  rw [toOption_parse, h.ofText_eq hfits]
  cases Document.ofReading document <;> rfl

theorem toOption_parse_of_not_fits {document : Reading} {text : String} (h : document.Spelled text)
    (hfits : ¬ document.Fits 0) : (Document.parse text).toOption = none := by
  have hbroken := h.not_whole hfits
  rw [toOption_parse]
  cases hread : Document.ofReading (Reading.ofText text).1 with
  | error error => rfl
  | ok made => exact absurd (Document.whole_of_ofReading _ hread) hbroken

/--
A document may have the members of its objects in any order, if no two have one name: the
texts of the one and the other are loaded both or neither, to the same scene, and whatever was
reported before, the same notices of them are shown.
-/
theorem ofText_rearranged {first second : String} {document other : Reading}
    (hfirst : document.Spelled first) (hsecond : other.Spelled second)
    (hdistinct : document.Distinct) (h : document.Rearranges other) :
    ((∃ loaded, ofText first = .ok loaded) ↔ ∃ loaded, ofText second = .ok loaded) ∧
      ∀ loaded later, ofText first = .ok loaded → ofText second = .ok later →
        later.scene = loaded.scene ∧ ∀ registry : Registry,
          registry.replay later.notices = registry.replay loaded.notices := by
  have hfits := congrFun (Reading.unordered_fits.eq_of_rearranges hdistinct h) 0
  have huses := Document.unordered_uses.eq_of_rearranges hdistinct h
  have hsame : (ofText first).toOption = (ofText second).toOption := by
    refine toOption_ofText_eq ?_
    by_cases hdepth : document.Fits 0
    · rw [toOption_parse_of_fits hfirst hdepth, toOption_parse_of_fits hsecond (hfits ▸ hdepth)]
      exact congrArg Document.Uses.document huses
    · rw [toOption_parse_of_not_fits hfirst hdepth,
        toOption_parse_of_not_fits hsecond (hfits ▸ hdepth)]
  cases hload : ofText first with
  | error error =>
      cases hlater : ofText second with
      | error later => simp
      | ok later => simp [hload, hlater, Except.toOption] at hsame
  | ok loaded =>
      cases hlater : ofText second with
      | error error => simp [hload, hlater, Except.toOption] at hsame
      | ok later =>
          rw [hload, hlater] at hsame
          cases Option.some.inj hsame
          refine ⟨⟨fun _ => ⟨_, rfl⟩, fun _ => ⟨_, rfl⟩⟩, ?_⟩
          intro made other hmade hother
          cases hmade
          cases hother
          exact ⟨rfl, fun _ => rfl⟩

/-- All members of the second text stand the other way round. -/
theorem ofText_rearranged_of_nested :
    let fill : List (String × Reading) := [("x", .array [] none), ("y", .null)]
    let leaf (fill : List (String × Reading)) : List (String × Reading) :=
      [("id", .string "a"), ("fill", .object fill none), ("type", .string "R")]
    let page (leaf : List (String × Reading)) : List (String × Reading) :=
      [("type", .string "P"), ("children", .array [.object leaf none] none), ("id", .string "p")]
    let document : Reading := .object (page (leaf fill)) none
    let other : Reading := .object (page (leaf fill.reverse).reverse).reverse none
    let first := "\x7b\"type\":\"P\",\"children\":[" ++
      "\x7b\"id\":\"a\",\"fill\":\x7b\"x\":[],\"y\":null\x7d,\"type\":\"R\"\x7d],\"id\":\"p\"\x7d"
    let second := "\x7b\"id\":\"p\",\"children\":[" ++
      "\x7b\"type\":\"R\",\"fill\":\x7b\"y\":null,\"x\":[]\x7d,\"id\":\"a\"\x7d],\"type\":\"P\"\x7d"
    document.Spelled first ∧ other.Spelled second ∧ document.Distinct ∧ document.Rearranges other ∧
      ∃ loaded later, ofText first = .ok loaded ∧ ofText second = .ok later ∧
        later.scene = loaded.scene ∧
        (Registry.empty.replay later.notices).2 = (Registry.empty.replay loaded.notices).2 := by
  intro fill leaf page document other first second
  have hfirst : document.Spelled first := by
    refine ⟨⟨_, rfl⟩, ?_⟩
    simp [first, document, page, leaf, fill, Reading.lexemes, Reading.itemLexemes,
      Reading.memberLexemes, Lexeme.scan, Lexeme.read, Lexeme.readString, Lexeme.readWord,
      Lexeme.isBlank, Lexeme.orBad, Except.map]
  have hsecond : other.Spelled second := by
    refine ⟨⟨_, rfl⟩, ?_⟩
    simp [second, other, page, leaf, fill, Reading.lexemes, Reading.itemLexemes,
      Reading.memberLexemes, Lexeme.scan, Lexeme.read, Lexeme.readString, Lexeme.readWord,
      Lexeme.isBlank, Lexeme.orBad, Except.map]
  have hdistinct : document.Distinct := by
    simp [document, page, leaf, fill, Reading.Distinct, Reading.MembersDistinct,
      Reading.ItemsDistinct]
  have hfill : (Reading.object fill none).Rearranges (.object fill.reverse none) :=
    .object (.cons _ (.refl _) (.cons _ (.refl _) .nil)) (List.reverse_perm fill).symm
  have hleaf : (Reading.object (leaf fill) none).Rearranges
      (.object (leaf fill.reverse).reverse none) :=
    .object (.cons _ (.refl _) (.cons _ hfill (.cons _ (.refl _) .nil)))
      (List.reverse_perm (leaf fill.reverse)).symm
  have hrearranges : document.Rearranges other :=
    .object (.cons _ (.refl _) (.cons _ (.array (.cons hleaf .nil)) (.cons _ (.refl _) .nil)))
      (List.reverse_perm (page (leaf fill.reverse).reverse)).symm
  have hloads : (ofText first).toOption.isSome = true := by decide +kernel
  cases hload : ofText first with
  | error error => simp [hload, Except.toOption] at hloads
  | ok loaded =>
      obtain ⟨hboth, hsame⟩ := ofText_rearranged hfirst hsecond hdistinct hrearranges
      obtain ⟨later, hlater⟩ := hboth.mp ⟨loaded, hload⟩
      obtain ⟨hscene, hshown⟩ := hsame loaded later hload hlater
      exact ⟨hfirst, hsecond, hdistinct, hrearranges, loaded, later, rfl, hlater, hscene,
        congrArg Prod.snd (hshown .empty)⟩

end Scene

end Scenery
