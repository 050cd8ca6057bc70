import Scenery.Proofs.Skipping

/-!
# Documents and their lexemes

A document is spelled with a comma in front of every item and every member but the
first.  Reading its lexemes gives it back if no array and no object stands too deep in
it; otherwise reading stops at a fault.  A reading with a fault makes no scene.
-/

namespace Scenery.Json.Reading

/-! ## Readings without a fault -/

/-- There is no fault in a reading. -/
def Whole (reading : Reading) : Prop :=
  ∃ json, reading.toJson = .ok json

theorem exists_bind_bind_iff {ε α β γ : Type} (first : Except ε α) (second : Except ε β)
    (make : α → β → γ) :
    (∃ made, (do let a ← first; let b ← second; .ok (make a b)) = Except.ok (ε := ε) made) ↔
      (∃ a, first = .ok a) ∧ ∃ b, second = .ok b := by
  cases first <;> cases second <;> simp [bind, Except.bind]

theorem exists_itemsToJson_iff (items : List Reading) :
    (∃ values, itemsToJson items = .ok values) ↔ ∀ item ∈ items, item.Whole := by
  induction items with
  | nil => simp [itemsToJson]
  | cons item rest ih =>
      rw [List.forall_mem_cons, ← ih, itemsToJson, exists_bind_bind_iff, Whole]

theorem exists_membersToJson_iff (members : List (String × Reading)) :
    (∃ values, membersToJson members = .ok values) ↔ ∀ member ∈ members, member.2.Whole := by
  induction members with
  | nil => simp [membersToJson]
  | cons member rest ih =>
      rw [List.forall_mem_cons, ← ih, membersToJson, exists_bind_bind_iff, Whole]

theorem whole_array_iff (items : List Reading) (stop : Option Fault) :
    (array items stop).Whole ↔ (∀ item ∈ items, item.Whole) ∧ stop = none := by
  rw [Whole, toJson, ← exists_itemsToJson_iff]
  cases itemsToJson items <;> cases stop <;> simp [bind, Except.bind]

theorem whole_object_iff (members : List (String × Reading)) (stop : Option Fault) :
    (object members stop).Whole ↔ (∀ member ∈ members, member.2.Whole) ∧ stop = none := by
  rw [Whole, toJson, ← exists_membersToJson_iff]
  cases membersToJson members <;> cases stop <;> simp [bind, Except.bind]

theorem not_whole_plug {part : Reading} (h : ¬ part.Whole) (outer : List Frame) :
    ¬ (plug outer part).Whole := by
  induction outer generalizing part with
  | nil => exact h
  | cons frame outer ih =>
      cases frame with
      | array items =>
          refine ih fun hwhole => h ?_
          exact ((whole_array_iff ..).mp hwhole).1 part (by simp)
      | object members name =>
          refine ih fun hwhole => h ?_
          exact ((whole_object_iff ..).mp hwhole).1 (name, part) (by simp)

/-! ## The lexemes of a document -/

mutual

/-- The lexemes that a document is written with. -/
def lexemes : Reading → List Lexeme
  | null => [.null]
  | bool flag => [.bool flag]
  | number n => [.number n]
  | string content => [.string content]
  | array items _ => .openArray :: itemLexemes true items
  | object members _ => .openObject :: memberLexemes true members
  | broken fault => [.bad fault]

/-- The items of an array with its end; the first has no comma in front. -/
def itemLexemes (first : Bool) : List Reading → List Lexeme
  | [] => [.closeArray]
  | item :: rest =>
    (if first then [] else [.comma]) ++ (lexemes item ++ itemLexemes false rest)

/-- The members of an object with its end; the first has no comma in front. -/
def memberLexemes (first : Bool) : List (String × Reading) → List Lexeme
  | [] => [.closeObject]
  | (name, value) :: rest =>
    (if first then [] else [.comma]) ++
      (.string name :: .colon :: (lexemes value ++ memberLexemes false rest))

end

mutual

/-- With so many arrays and objects around it a document is not nested too deeply. -/
def Fits (depth : Nat) : Reading → Prop
  | array items _ => depth + 1 < nestingLimit ∧ ItemsFit (depth + 1) items
  | object members _ => depth + 1 < nestingLimit ∧ MembersFit (depth + 1) members
  | _ => True

def ItemsFit (depth : Nat) : List Reading → Prop
  | [] => True
  | item :: rest => Fits depth item ∧ ItemsFit depth rest

def MembersFit (depth : Nat) : List (String × Reading) → Prop
  | [] => True
  | (_, value) :: rest => Fits depth value ∧ MembersFit depth rest

end

/-! ## Reading a document -/

/-- The state behind a value. -/
def delivered (part : Reading) : List Frame → State
  | [] => .done part
  | .array items :: outer => .afterItem (part :: items) outer
  | .object members name :: outer => .afterMember ((name, part) :: members) outer

theorem deliver_eq (part : Reading) (outer : List Frame) :
    deliver part outer = .ok (delivered part outer) := by
  rcases outer with _ | ⟨_ | _, outer⟩ <;> rfl

/-- Some lexemes lead from one state to another if `fits` holds, and else to a fault. -/
structure Reads (state : State) (part : List Lexeme) (fits : Prop) (next : State) : Prop where
  run_eq : fits → ∀ rest, run state (part ++ rest) = run next rest
  not_whole : ¬ fits → ∀ rest, ¬ (run state (part ++ rest)).1.Whole

theorem reads_nil (state : State) : Reads state [] True state where
  run_eq := fun _ _ => rfl
  not_whole := fun h => absurd trivial h

section Reads

variable {state middle next : State} {lexeme : Lexeme} {first second part : List Lexeme}
  {fits others : Prop}

theorem Reads.cons (hstep : step state lexeme = .ok middle) (h : Reads middle part fits next) :
    Reads state (lexeme :: part) fits next := by
  have hrun : ∀ rest, run state (lexeme :: part ++ rest) = run middle (part ++ rest) := by
    intro rest
    rw [List.cons_append, run, hstep]
  constructor
  · intro hfits rest
    rw [hrun, h.run_eq hfits]
  · intro hfits rest
    rw [hrun]
    exact h.not_whole hfits rest

theorem Reads.append (hfirst : Reads state first fits middle)
    (hsecond : Reads middle second others next) :
    Reads state (first ++ second) (fits ∧ others) next := by
  constructor
  · intro hfits rest
    rw [List.append_assoc, hfirst.run_eq hfits.1, hsecond.run_eq hfits.2]
  · intro hfits rest
    rw [List.append_assoc]
    by_cases h : fits
    · rw [hfirst.run_eq h]
      exact hsecond.not_whole (fun hothers => hfits ⟨h, hothers⟩) rest
    · exact hfirst.not_whole h _

/-- Reading ends at a lexeme that opens one array or object too many. -/
theorem reads_of_leave {broken : Reading} (hbroken : ¬ broken.Whole) {outer : List Frame}
    (hstep : step state lexeme = leave broken outer) (hfits : ¬ fits) :
    Reads state (lexeme :: part) fits next where
  run_eq := fun h => absurd h hfits
  not_whole := by
    intro _ rest
    rw [List.cons_append, run, hstep]
    exact not_whole_plug hbroken outer

/-- A document is read as an item as it is read anywhere else. -/
theorem Reads.item {document : Reading} {items : List Reading} {outer : List Frame}
    (h : Reads (.value (.array items :: outer)) document.lexemes fits next) (start : Bool) :
    Reads (.item start items outer) document.lexemes fits next := by
  have hrun : ∀ rest, run (.item start items outer) (document.lexemes ++ rest) =
      run (.value (.array items :: outer)) (document.lexemes ++ rest) := by
    intro rest
    cases document <;> rw [lexemes] <;> rfl
  constructor
  · intro hfits rest
    rw [hrun, h.run_eq hfits]
  · intro hfits rest
    rw [hrun]
    exact h.not_whole hfits rest

end Reads

/-- The state in front of an item, or of its comma, or of the end of the array. -/
def inArray (start : Bool) (items : List Reading) (outer : List Frame) : State :=
  if start then .item true items outer else .afterItem items outer

def inObject (start : Bool) (members : List (String × Reading)) (outer : List Frame) : State :=
  if start then .name true members outer else .afterMember members outer

mutual

/-- Reading goes on behind a document, or stops inside where it is nested too deeply. -/
theorem reads_value (document : Reading) (hwhole : document.Whole) (outer : List Frame) :
    Reads (.value outer) document.lexemes (document.Fits outer.length)
      (delivered document outer) := by
  match document with
  | null => exact .cons (deliver_eq _ _) (reads_nil _)
  | bool flag => exact .cons (deliver_eq _ _) (reads_nil _)
  | number n => exact .cons (deliver_eq _ _) (reads_nil _)
  | string content => exact .cons (deliver_eq _ _) (reads_nil _)
  | array items stop =>
      obtain ⟨hitems, rfl⟩ := (whole_array_iff items stop).mp hwhole
      rw [lexemes, Fits]
      by_cases hdepth : outer.length + 1 < nestingLimit
      · rw [and_iff_right hdepth]
        exact .cons (if_pos hdepth) (reads_items items hitems true [] (fun _ => rfl) outer)
      · exact reads_of_leave (by simp [whole_array_iff]) (if_neg hdepth)
          (fun hfits => hdepth hfits.1)
  | object members stop =>
      obtain ⟨hmembers, rfl⟩ := (whole_object_iff members stop).mp hwhole
      rw [lexemes, Fits]
      by_cases hdepth : outer.length + 1 < nestingLimit
      · rw [and_iff_right hdepth]
        exact .cons (if_pos hdepth) (reads_members members hmembers true [] (fun _ => rfl) outer)
      · exact reads_of_leave (by simp [whole_object_iff]) (if_neg hdepth)
          (fun hfits => hdepth hfits.1)
  | broken fault => exact absurd hwhole (by simp [Whole, toJson])

theorem reads_items (items : List Reading) (hwhole : ∀ item ∈ items, item.Whole) (start : Bool)
    (front : List Reading) (hstart : start = true → front = []) (outer : List Frame) :
    Reads (inArray start front outer) (itemLexemes start items)
      (ItemsFit (outer.length + 1) items)
      (delivered (.array (front.reverse ++ items) none) outer) := by
  match items with
  | [] =>
      rw [itemLexemes, ItemsFit, List.append_nil]
      cases start with
      | true =>
          rw [hstart rfl]
          exact .cons (deliver_eq _ _) (reads_nil _)
      | false => exact .cons (deliver_eq _ _) (reads_nil _)
  | item :: others =>
      obtain ⟨hitem, hothers⟩ := List.forall_mem_cons.mp hwhole
      have hvalue := reads_value item hitem (.array front :: outer)
      have hlater := reads_items others hothers false (item :: front) nofun outer
      rw [List.reverse_cons, List.append_assoc, List.singleton_append] at hlater
      rw [itemLexemes, ItemsFit]
      cases start with
      | true => exact (hvalue.item true).append hlater
      | false => exact .cons rfl ((hvalue.item false).append hlater)

theorem reads_members (members : List (String × Reading))
    (hwhole : ∀ member ∈ members, member.2.Whole) (start : Bool)
    (front : List (String × Reading)) (hstart : start = true → front = []) (outer : List Frame) :
    Reads (inObject start front outer) (memberLexemes start members)
      (MembersFit (outer.length + 1) members)
      (delivered (.object (front.reverse ++ members) none) outer) := by
  match members with
  | [] =>
      rw [memberLexemes, MembersFit, List.append_nil]
      cases start with
      | true =>
          rw [hstart rfl]
          exact .cons (deliver_eq _ _) (reads_nil _)
      | false => exact .cons (deliver_eq _ _) (reads_nil _)
  | (name, value) :: others =>
      obtain ⟨hvalue, hothers⟩ := List.forall_mem_cons.mp hwhole
      have hread := reads_value value hvalue (.object front name :: outer)
      have hlater := reads_members others hothers false ((name, value) :: front) nofun outer
      rw [List.reverse_cons, List.append_assoc, List.singleton_append] at hlater
      rw [memberLexemes, MembersFit]
      cases start with
      | true => exact .cons rfl (.cons rfl (hread.append hlater))
      | false => exact .cons rfl (.cons rfl (.cons rfl (hread.append hlater)))

end

/-- The text is written with the lexemes of the document. -/
structure Spelled (document : Reading) (text : String) : Prop where
  whole : document.Whole
  scan_eq : Lexeme.scan text.toList = document.lexemes

theorem Spelled.ofText_eq {document : Reading} {text : String} (h : document.Spelled text)
    (hfits : document.Fits 0) : ofText text = (document, none) := by
  rw [ofText, h.scan_eq, ← List.append_nil document.lexemes]
  exact (reads_value document h.whole []).run_eq hfits []

theorem Spelled.not_whole {document : Reading} {text : String} (h : document.Spelled text)
    (hfits : ¬ document.Fits 0) : ¬ (ofText text).1.Whole := by
  rw [ofText, h.scan_eq, ← List.append_nil document.lexemes]
  exact (reads_value document h.whole []).not_whole hfits []

end Scenery.Json.Reading

namespace Scenery

open Json (Reading)

/-! ## What makes a document -/

namespace Document

theorem whole_of_readText {reading : Reading} {text : String} (h : readText reading = .ok text) :
    reading.Whole := by
  cases reading with
  | string content => exact ⟨_, rfl⟩
  | _ => cases h

theorem eq_none_of_readEnd {stop : Option Json.Fault} (h : readEnd stop = .ok ()) :
    stop = none := by
  cases stop with
  | none => rfl
  | some fault => cases h

mutual

/-- What makes a document holds no fault. -/
theorem whole_of_ofReading (reading : Reading) {document : Document}
    (h : ofReading reading = .ok document) : reading.Whole := by
  match reading with
  | .object members stop =>
      rw [ofReading] at h
      obtain ⟨read, hmembers, h⟩ := exists_of_bind_eq_ok h
      obtain ⟨_, hend, -⟩ := exists_of_bind_eq_ok h
      rw [Reading.whole_object_iff]
      exact ⟨whole_of_addMembers members hmembers, eq_none_of_readEnd hend⟩
  | .null | .bool _ | .number _ | .string _ | .array _ _ | .broken _ => cases h

theorem whole_of_readChildren (reading : Reading) {children : Option (List Document)}
    (h : readChildren reading = .ok children) : reading.Whole := by
  match reading with
  | .null => exact ⟨_, rfl⟩
  | .array items stop =>
      rw [readChildren] at h
      obtain ⟨read, hitems, h⟩ := exists_of_bind_eq_ok h
      obtain ⟨_, hend, -⟩ := exists_of_bind_eq_ok h
      rw [Reading.whole_array_iff]
      exact ⟨whole_of_readItems items hitems, eq_none_of_readEnd hend⟩
  | .bool _ | .number _ | .string _ | .object _ _ | .broken _ => cases h

theorem whole_of_readItems (items : List Reading) {documents : List Document}
    (h : readItems items = .ok documents) : ∀ item ∈ items, item.Whole := by
  match items with
  | [] => exact List.forall_mem_nil _
  | item :: rest =>
      rw [readItems] at h
      obtain ⟨document, hitem, h⟩ := exists_of_bind_eq_ok h
      obtain ⟨others, hrest, -⟩ := exists_of_bind_eq_ok h
      exact List.forall_mem_cons.mpr ⟨whole_of_ofReading item hitem, whole_of_readItems rest hrest⟩

theorem whole_of_addMembers (members : List (String × Reading)) {read last : Members}
    (h : addMembers read members = .ok last) : ∀ member ∈ members, member.2.Whole := by
  match members with
  | [] => exact List.forall_mem_nil _
  | (name, value) :: rest =>
      rw [addMembers_cons] at h
      obtain ⟨next, hvalue, hrest⟩ := exists_of_bind_eq_ok h
      refine List.forall_mem_cons.mpr ⟨?_, whole_of_addMembers rest hrest⟩
      rcases addMember_eq_ok hvalue with
        ⟨-, -, ⟨text, htext⟩ | ⟨children, hchildren⟩⟩ | ⟨-, json, hjson, -⟩
      · exact whole_of_readText htext
      · exact whole_of_readChildren value hchildren
      · exact ⟨json, hjson⟩

end

end Document

end Scenery
