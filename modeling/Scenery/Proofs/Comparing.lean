import Scenery.Selector.Accepts

/-!
# What attribute tests ask for

An operator text says how a value, as it is shown, has to be put together from
the needle of a test.  Each comparison is a search in a text and comes to a
statement by concatenation, with an empty needle too, and with one that occurs
more than once.  A test without its name or its needle asks for nothing that a
node can have.
-/

namespace Scenery

/-- What a node has under a name: its identifier, its tag, or under any other name an attribute. -/
inductive Node.Has (node : Node) : String → Value → Prop where
  | identifier : Has node "id" (.text node.id)
  | tag : Has node "type" (.text node.tag)
  | entry {name : String} {value : Value} (hid : name ≠ "id") (htype : name ≠ "type")
      (hentry : (name, value) ∈ node.attributes.entries) : Has node name value

theorem Node.attribute?_eq_some_iff (node : Node) (name : String) (value : Value) :
    node.attribute? name = some value ↔ node.Has name value := by
  have hentry := node.attributes.get?_eq_some_iff name value
  constructor
  · intro hfound
    by_cases hid : name = "id"
    · rw [hid, attribute?_id, Option.some_inj] at hfound
      rw [hid, ← hfound]
      exact .identifier
    · by_cases htype : name = "type"
      · rw [htype, attribute?_type, Option.some_inj] at hfound
        rw [htype, ← hfound]
        exact .tag
      · rw [attribute?, if_neg hid, if_neg htype] at hfound
        exact .entry hid htype (hentry.mp hfound)
  · intro hhas
    cases hhas with
    | identifier => exact node.attribute?_id
    | tag => exact node.attribute?_type
    | entry hid htype hmem =>
        rw [attribute?, if_neg hid, if_neg htype]
        exact hentry.mpr hmem

namespace Selector

/--
What an operator text asks of a value: to be put together in some way from the
needle, or, for a text that is none of the five, to be the needle itself.
-/
def Asks (operator : String) (value : Value) (needle : String) : Prop :=
  let shown := value.display.toList
  let sought := needle.toList
  match operator with
  | "~=" =>
    ' ' ∉ sought ∧ ∃ before behind, shown = before ++ sought ++ behind ∧
      (before = [] ∨ ∃ front, before = front ++ [' ']) ∧
      (behind = [] ∨ ∃ back, behind = ' ' :: back)
  | "|=" => value = .text needle ∨ ∃ before behind, shown = before ++ sought ++ '-' :: behind
  | "^=" => ∃ behind, shown = sought ++ behind
  | "$=" => ∃ before, shown = before ++ sought
  | "*=" => ∃ before behind, shown = before ++ sought ++ behind
  | _ => value = .text needle

/-- Every operator text but the five compares for equality, also `==`, `-=` and no text at all. -/
theorem Comparison.ofOperator_eq_equals {operator : String} (hincludes : operator ≠ "~=")
    (hdash : operator ≠ "|=") (hstart : operator ≠ "^=") (hend : operator ≠ "$=")
    (hsubstring : operator ≠ "*=") : ofOperator operator = equals := by
  rw [ofOperator, parse?, if_neg hincludes, if_neg hdash, if_neg hstart, if_neg hend,
    if_neg hsubstring]
  split <;> rfl

theorem Comparison.accepts_dashMatch_iff (value : Value) (needle : String) :
    dashMatch.accepts value needle = true ↔
      value = .text needle ∨
        ∃ before behind, value.display.toList = before ++ needle.toList ++ '-' :: behind := by
  rw [accepts, Bool.or_eq_true, Value.isText_eq_true_iff, Text.holds_eq_true_iff]
  simp only [List.append_assoc, List.singleton_append]

/-- The search that an operator text calls for finds what the text asks for. -/
theorem Comparison.accepts_ofOperator_iff (operator : String) (value : Value) (needle : String) :
    (ofOperator operator).accepts value needle = true ↔ Asks operator value needle := by
  unfold Asks
  split
  · exact List.contains_iff_mem.trans (Text.mem_words_iff _ _)
  · exact accepts_dashMatch_iff value needle
  · exact Text.startsWith_eq_true_iff _ _
  · exact Text.endsWith_eq_true_iff _ _
  · exact Text.holds_eq_true_iff _ _
  · rename_i hincludes hdash hstart hend hsubstring
    rw [ofOperator_eq_equals hincludes hdash hstart hend hsubstring]
    exact value.isText_eq_true_iff needle

/-- A test that has its name and its needle compares the value under the name. -/
theorem AttributeTest.accepts_eq_true_iff {test : AttributeTest} {name needle : String}
    (hname : test.name = some name) (hneedle : test.value = some needle) (node : Node) :
    test.accepts node = true ↔
      ∃ value, node.attribute? name = some value ∧
        test.comparison.accepts value needle = true := by
  simp only [accepts, hname, hneedle]
  cases node.attribute? name with
  | none => simp
  | some value => simp

theorem AttributeTest.exists_of_accepts {test : AttributeTest} {node : Node}
    (h : test.accepts node = true) :
    ∃ name needle, test.name = some name ∧ test.value = some needle := by
  unfold accepts at h
  split at h
  · rename_i name needle hname hneedle
    exact ⟨name, needle, hname, hneedle⟩
  · cases h

/--
A test accepts a node if it has a name and a needle, the node has a value under
the name, and the value is what the operator text asks for.  It does not matter
whether the bracket of the test is closed.
-/
theorem AttributeTest.accepts_iff_asks (test : AttributeTest) (node : Node) :
    test.accepts node = true ↔
      ∃ name needle value, test.name = some name ∧ test.value = some needle ∧
        node.Has name value ∧ Asks test.operator value needle := by
  constructor
  · intro haccepts
    obtain ⟨name, needle, hname, hneedle⟩ := exists_of_accepts haccepts
    obtain ⟨value, hfound, hvalue⟩ := (accepts_eq_true_iff hname hneedle node).mp haccepts
    exact ⟨name, needle, value, hname, hneedle, (node.attribute?_eq_some_iff name value).mp hfound,
      (Comparison.accepts_ofOperator_iff test.operator value needle).mp hvalue⟩
  · intro ⟨name, needle, value, hname, hneedle, hhas, hasks⟩
    have hfound := (node.attribute?_eq_some_iff name value).mpr hhas
    have hvalue := (Comparison.accepts_ofOperator_iff test.operator value needle).mpr hasks
    exact (accepts_eq_true_iff hname hneedle node).mpr ⟨value, hfound, hvalue⟩

end Selector

end Scenery
