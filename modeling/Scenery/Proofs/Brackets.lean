import Scenery.Selector.Compile

/-!
# What stands in brackets

An attribute test takes parameters and operator characters from its brackets, each of
them in their order and whatever stands between them: the first parameter names the
attribute, the second is the value, and all operator characters make up the operator.
Everything else is left out.  What was there before the bracket stays as it is, even a
bracket that is still open.
-/

namespace Scenery.Selector

/-- Names and literals are parameters. -/
def Token.parameter? : Token → Option String
  | ident name => some name
  | string text => some text
  | _ => none

def Token.operatorChar? : Token → Option Char
  | delim c => if isOperatorChar c then some c else none
  | _ => none

/-- Whether an open bracket goes on behind the token, and the compound is not marked. -/
def Token.staysInside : Token → Bool
  | whitespace => false
  | hash _ => false
  | delim c => c != '[' && c != ']' && c != '>'
  | _ => true

def parameters (body : List Token) : List String :=
  body.filterMap Token.parameter?

def operatorChars (body : List Token) : List Char :=
  body.filterMap Token.operatorChar?

theorem parameters_append (first second : List Token) :
    parameters (first ++ second) = parameters first ++ parameters second :=
  List.filterMap_append

theorem operatorChars_append (first second : List Token) :
    operatorChars (first ++ second) = operatorChars first ++ operatorChars second :=
  List.filterMap_append

theorem parameters_singleton (token : Token) : parameters [token] = token.parameter?.toList := by
  cases h : token.parameter? <;> simp [parameters, h]

theorem operatorChars_singleton (token : Token) :
    operatorChars [token] = token.operatorChar?.toList := by
  cases h : token.operatorChar? <;> simp [operatorChars, h]

/-! ## Literals and operator characters -/

theorem parameters_map_string (literals : List String) :
    parameters (literals.map .string) = literals := by
  simp [parameters, Token.parameter?, Function.comp_def]

theorem operatorChars_map_string (literals : List String) :
    operatorChars (literals.map .string) = [] := by
  simp [operatorChars, Token.operatorChar?]

theorem parameters_map_delim (chars : List Char) : parameters (chars.map .delim) = [] := by
  simp [parameters, Token.parameter?]

theorem operatorChars_map_delim {chars : List Char} (h : ∀ c ∈ chars, isOperatorChar c = true) :
    operatorChars (chars.map .delim) = chars := by
  induction chars with
  | nil => rfl
  | cons c chars ih =>
      rw [List.forall_mem_cons] at h
      have hfirst : (Token.delim c).operatorChar? = some c := if_pos h.1
      rw [List.map_cons, operatorChars, List.filterMap_cons_some hfirst, ← operatorChars, ih h.2]

theorem Token.staysInside_delim {c : Char} (h : isOperatorChar c = true) :
    (Token.delim c).staysInside = true := by
  have hne : ∀ d, isOperatorChar d = false → c ≠ d := by
    rintro d hd rfl
    rw [h] at hd
    cases hd
  simp [staysInside, hne '[' rfl, hne ']' rfl, hne '>' rfl]

/-! ## The test that a body makes -/

namespace AttributeTest

/-- The open test with what stands in its bracket. -/
def ofBody (body : List Token) : AttributeTest where
  name := (parameters body)[0]?
  value := (parameters body)[1]?
  operator := String.ofList (operatorChars body)

theorem ofBody_concat_parameter (body : List Token) {token : Token} {parameter : String}
    (h : token.parameter? = some parameter) :
    ofBody (body ++ [token]) = (ofBody body).addParameter parameter := by
  have hoperator : token.operatorChar? = none := by
    cases token <;> first | rfl | cases h
  simp only [ofBody, addParameter, parameters_append, operatorChars_append, parameters_singleton,
    operatorChars_singleton, h, hoperator, Option.toList_some, Option.toList_none, List.append_nil]
  match parameters body with
  | [] => rfl
  | [_] => rfl
  | _ :: _ :: _ => rfl

theorem ofBody_concat_operator (body : List Token) {c : Char} (h : isOperatorChar c = true) :
    ofBody (body ++ [.delim c]) = (ofBody body).addOperator c := by
  have hparameter : (Token.delim c).parameter? = none := rfl
  have hoperator : (Token.delim c).operatorChar? = some c := if_pos h
  have hpush : String.ofList (operatorChars body ++ [c]) =
      (String.ofList (operatorChars body)).push c := by
    apply String.toList_inj.mp
    simp
  simp only [ofBody, addOperator, parameters_append, operatorChars_append, parameters_singleton,
    operatorChars_singleton, hparameter, hoperator, Option.toList_some, Option.toList_none,
    List.append_nil, hpush]

theorem ofBody_concat_of_none (body : List Token) {token : Token}
    (hparameter : token.parameter? = none) (hoperator : token.operatorChar? = none) :
    ofBody (body ++ [token]) = ofBody body := by
  simp only [ofBody, parameters_append, operatorChars_append, parameters_singleton,
    operatorChars_singleton, hparameter, hoperator, Option.toList_none, List.append_nil]

/-- Two bodies make the same test if the first two parameters and the operators are the same. -/
theorem close_ofBody_eq_iff (body other : List Token) :
    (ofBody other).close = (ofBody body).close ↔
      (parameters other).take 2 = (parameters body).take 2 ∧
        operatorChars other = operatorChars body := by
  have htake : ∀ words words' : List String, words.take 2 = words'.take 2 ↔
      words[0]? = words'[0]? ∧ words[1]? = words'[1]? := by
    intro words words'
    match words, words' with
    | [], [] => simp
    | [], _ :: _ => simp
    | _ :: _, [] => simp
    | [_], [_] => simp
    | [_], _ :: _ :: _ => simp
    | _ :: _ :: _, [_] => simp
    | _ :: _ :: _, _ :: _ :: _ => simp
  rw [htake]
  simp [ofBody, close, String.ofList_inj, and_assoc]

end AttributeTest

/-! ## Feeding a body -/

open AttributeTest (ofBody)

namespace Draft

/-- A bracket was opened behind a draft and holds this test, and nothing else was changed. -/
structure Opens (draft : Draft) (test : AttributeTest) (now : Draft) : Prop where
  done : now.done = draft.done
  selectors : now.selectors = draft.conditions
  bracket : now.bracket = some test
  childOnly : now.childOnly = draft.childOnly

theorem feed_openBracket (draft : Draft) : draft.feed (.delim '[') = draft.openBracket := by
  simp only [feed, delim]
  cases draft.bracket <;> rfl

theorem opens_openBracket (draft : Draft) : draft.Opens (ofBody []) draft.openBracket :=
  ⟨rfl, rfl, rfl, rfl⟩

section

variable {draft now : Draft} {body : List Token}

theorem Opens.report {test : AttributeTest} (h : draft.Opens test now) (notice : Notice) :
    draft.Opens test (now.report notice) :=
  ⟨h.done, h.selectors, h.bracket, h.childOnly⟩

theorem Opens.addParameter (h : draft.Opens (ofBody body) now) {token : Token} {parameter : String}
    (hparameter : token.parameter? = some parameter) :
    draft.Opens (ofBody (body ++ [token])) (now.addParameter (ofBody body) parameter) := by
  rw [AttributeTest.ofBody_concat_parameter body hparameter]
  exact ⟨h.done, h.selectors, rfl, h.childOnly⟩

/-- What is punctuation in brackets is only reported, since `*` and `~` are none there. -/
theorem Opens.punctuation {test : AttributeTest} (h : draft.Opens test now) {c : Char}
    (hinside : (Token.delim c).staysInside = true) (hoperator : isOperatorChar c = false) :
    draft.Opens test (now.punctuation c) := by
  unfold Draft.punctuation
  split
  case h_1 => cases hinside
  case h_2 => cases hinside
  case h_3 => cases hoperator
  all_goals exact h.report _

theorem Opens.delim (h : draft.Opens (ofBody body) now) {c : Char}
    (hinside : (Token.delim c).staysInside = true) :
    draft.Opens (ofBody (body ++ [.delim c])) (now.delim c) := by
  have hclose : c ≠ ']' := by
    rintro rfl
    cases hinside
  simp only [Draft.delim, h.bracket, if_neg hclose]
  by_cases hoperator : isOperatorChar c = true
  · rw [if_pos hoperator, AttributeTest.ofBody_concat_operator body hoperator]
    exact ⟨h.done, h.selectors, rfl, h.childOnly⟩
  · have hnone : (Token.delim c).operatorChar? = none := if_neg hoperator
    rw [if_neg hoperator, AttributeTest.ofBody_concat_of_none body rfl hnone]
    exact h.punctuation hinside (Bool.eq_false_iff.mpr hoperator)

/-- One more token is taken in or left out. -/
theorem Opens.feed (h : draft.Opens (ofBody body) now) {token : Token}
    (hinside : token.staysInside = true) :
    draft.Opens (ofBody (body ++ [token])) (now.feed token) := by
  cases token with
  | whitespace => cases hinside
  | hash id => cases hinside
  | delim c => exact h.delim hinside
  | ident name =>
      simp only [Draft.feed, h.bracket]
      exact h.addParameter rfl
  | string text =>
      simp only [Draft.feed, h.bracket]
      exact h.addParameter rfl
  | badString =>
      rw [AttributeTest.ofBody_concat_of_none body rfl rfl]
      exact h.report _
  | number numeral =>
      rw [AttributeTest.ofBody_concat_of_none body rfl rfl]
      exact h.report _
  | function name =>
      rw [AttributeTest.ofBody_concat_of_none body rfl rfl]
      exact h.report _
  | eof =>
      rw [AttributeTest.ofBody_concat_of_none body rfl rfl]
      exact h

theorem Opens.feedAll (h : draft.Opens (ofBody body) now) {more : List Token}
    (hinside : ∀ token ∈ more, token.staysInside = true) :
    draft.Opens (ofBody (body ++ more)) (now.feedAll more) := by
  induction more generalizing body now with
  | nil => rwa [List.append_nil]
  | cons token more ih =>
      rw [List.forall_mem_cons] at hinside
      have hnext := ih (h.feed hinside.1) hinside.2
      rwa [List.append_assoc] at hnext

end

/-- The closing bracket ends the test, whatever stands in front of it. -/
theorem Opens.closeBracket {draft now : Draft} {test : AttributeTest} (h : draft.Opens test now) :
    let after := now.feed (.delim ']')
    after.done = draft.done ∧ after.childOnly = draft.childOnly ∧ after.bracket = none ∧
      after.conditions = draft.conditions ++ [.byAttribute test.close] := by
  have hfeed : now.feed (.delim ']') = now.closeBracket test := by
    simp only [Draft.feed, Draft.delim, h.bracket, if_true]
  rw [hfeed]
  refine ⟨h.done, h.childOnly, rfl, ?_⟩
  simp [Draft.closeBracket, conditions, h.selectors]

theorem feedAll_brackets_eq (draft : Draft) {body : List Token}
    (h : ∀ token ∈ body, token.staysInside = true) :
    let after := draft.feedAll (.delim '[' :: (body ++ [.delim ']']))
    after.done = draft.done ∧ after.childOnly = draft.childOnly ∧ after.bracket = none ∧
      after.conditions = draft.conditions ++ [.byAttribute (ofBody body).close] := by
  rw [feedAll_cons, feed_openBracket, feedAll_append]
  exact (draft.opens_openBracket.feedAll h).closeBracket

/--
Whatever was read before it, a pair of brackets adds one condition and changes nothing else: the
closed test of the first two parameters and of all operator characters.  So two bodies add the same
condition just when they agree in these.
-/
theorem feedAll_brackets (draft : Draft) {body : List Token}
    (h : ∀ token ∈ body, token.staysInside = true) :
    let after := draft.feedAll (.delim '[' :: (body ++ [.delim ']']))
    after.done = draft.done ∧ after.childOnly = draft.childOnly ∧ after.bracket = none ∧
      after.conditions = draft.conditions ++ [.byAttribute (ofBody body).close] ∧
      ∀ other, (∀ token ∈ other, token.staysInside = true) →
        ((draft.feedAll (.delim '[' :: (other ++ [.delim ']']))).current = after.current ↔
          (parameters other).take 2 = (parameters body).take 2 ∧
            operatorChars other = operatorChars body) := by
  obtain ⟨hdone, hchild, hbracket, hconditions⟩ := feedAll_brackets_eq draft h
  refine ⟨hdone, hchild, hbracket, hconditions, ?_⟩
  intro other hother
  obtain ⟨-, hotherChild, -, hotherConditions⟩ := feedAll_brackets_eq draft hother
  rw [← AttributeTest.close_ofBody_eq_iff, current, current, hchild, hotherChild, hconditions,
    hotherConditions]
  simp

/-- In an open bracket behind `>rect`, two orders of words and operators make the same test. -/
theorem feedAll_brackets_of_shuffled :
    let draft : Draft :=
      { done := #[⟨[.all], false⟩], selectors := [.byType "rect"],
        bracket := some { name := some "x" }, childOnly := true }
    let body : List Token :=
      [.delim '~', .ident "fill", .number "5", .delim '.', .delim '=', .string "a", .function "f",
        .eof, .badString, .ident "b", .delim '*']
    let other : List Token :=
      [.string "fill", .ident "a", .ident "c", .delim '~', .delim '=', .delim '*']
    let after := draft.feedAll (.delim '[' :: (body ++ [.delim ']']))
    (∀ token ∈ body, token.staysInside = true) ∧ (∀ token ∈ other, token.staysInside = true) ∧
      after.done = draft.done ∧ after.childOnly = true ∧ after.bracket = none ∧
      after.conditions =
        [.byType "rect", .byAttribute { name := some "x" },
          .byAttribute ⟨some "fill", some "a", "~=*", true⟩] ∧
      (draft.feedAll (.delim '[' :: (other ++ [.delim ']']))).current = after.current := by
  intro draft body other after
  have hbody : ∀ token ∈ body, token.staysInside = true := List.all_eq_true.mp (by decide)
  have hother : ∀ token ∈ other, token.staysInside = true := List.all_eq_true.mp (by decide)
  obtain ⟨hdone, hchild, hbracket, hconditions, hsame⟩ := draft.feedAll_brackets hbody
  refine ⟨hbody, hother, hdone, hchild, hbracket, hconditions.trans ?_, (hsame other hother).mpr ?_⟩
  · decide
  · decide

end Draft

end Scenery.Selector
