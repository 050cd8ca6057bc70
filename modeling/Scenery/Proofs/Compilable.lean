import Scenery.Proofs.Brackets
import Scenery.Proofs.Canonical

/-!
# What compiling can yield

Compiling takes any list of tokens, but not every list of compounds comes out of
it.  A test gets a value only behind a name, its operator is made of operator
characters, and behind a bracket that is never closed only `#` and `[` start a
condition: a name or `*` goes into the bracket.  These rules are all there is:
whatever keeps them is what some tokens are compiled to.
-/

namespace Scenery.Selector

/-! ## The rules -/

/-- A value stands behind a name, and the operator is made of operator characters. -/
structure AttributeTest.Compilable (test : AttributeTest) : Prop where
  isSome_name : test.value.isSome = true → test.name.isSome = true
  isOperatorChar : ∀ c ∈ test.operator.toList, isOperatorChar c = true

def Simple.Compilable : Simple → Prop
  | byAttribute test => test.Compilable
  | _ => True

/-- Whether the condition is a test whose bracket was never closed. -/
def Simple.isOpen : Simple → Bool
  | byAttribute test => !test.closed
  | _ => false

/-- Whether the condition starts with `#` or `[`, which no bracket takes in. -/
def Simple.leavesBracket : Simple → Bool
  | byId _ => true
  | byAttribute _ => true
  | _ => false

/-- The second condition can stand right behind the first. -/
def Simple.Continues (first second : Simple) : Prop :=
  first.isOpen = true → second.leavesBracket = true

/-- Conditions that keep the rules, one by one and side by side. -/
structure Compilable (selectors : List Simple) : Prop where
  compilable : ∀ simple ∈ selectors, simple.Compilable
  continues : selectors.IsChain Simple.Continues

structure Compound.Compilable (compound : Compound) : Prop where
  selectors_ne_nil : compound.selectors ≠ []
  compilable : Selector.Compilable compound.selectors

theorem compilable_concat_iff (selectors : List Simple) (simple : Simple) :
    Compilable (selectors ++ [simple]) ↔
      Compilable selectors ∧ simple.Compilable ∧
        ∀ last ∈ selectors.getLast?, last.Continues simple := by
  constructor
  · rintro ⟨hall, hchain⟩
    rw [List.isChain_append] at hchain
    obtain ⟨hfront, -, hlast⟩ := hchain
    refine ⟨⟨fun other hother => hall other (by simp [hother]), hfront⟩, hall simple (by simp), ?_⟩
    intro last hmem
    exact hlast last hmem simple rfl
  · rintro ⟨⟨hall, hchain⟩, hsimple, hlast⟩
    constructor
    · intro other hother
      rcases List.mem_append.mp hother with hother | hother
      · exact hall other hother
      · rw [List.mem_singleton.mp hother]
        exact hsimple
    · rw [List.isChain_append]
      refine ⟨hchain, List.isChain_singleton simple, ?_⟩
      intro last hmem other hother
      cases hother
      exact hlast last hmem

/-- The test at the end can be any: what stands before a bracket does not matter to it. -/
theorem compilable_concat_test {selectors : List Simple} {test next : AttributeTest}
    (h : Compilable (selectors ++ [.byAttribute test])) (hnext : next.Compilable) :
    Compilable (selectors ++ [.byAttribute next]) := by
  obtain ⟨hfront, -, -⟩ := (compilable_concat_iff ..).mp h
  exact (compilable_concat_iff ..).mpr ⟨hfront, hnext, fun _ _ _ => rfl⟩

namespace AttributeTest

theorem compilable_empty : empty.Compilable :=
  ⟨by simp [empty], by simp [empty]⟩

theorem compilable_addParameter {test : AttributeTest} (h : test.Compilable) (parameter : String) :
    (test.addParameter parameter).Compilable := by
  obtain ⟨name, value, operator, closed⟩ := test
  obtain ⟨hname, hoperator⟩ := h
  cases name with
  | none => exact ⟨fun _ => rfl, hoperator⟩
  | some name =>
      cases value with
      | none => exact ⟨fun _ => rfl, hoperator⟩
      | some value => exact ⟨hname, hoperator⟩

theorem compilable_addOperator {test : AttributeTest} (h : test.Compilable) {c : Char}
    (hc : Selector.isOperatorChar c = true) : (test.addOperator c).Compilable := by
  refine ⟨h.isSome_name, ?_⟩
  intro d hd
  have hmem : d ∈ test.operator.toList ∨ d = c := by
    simpa [addOperator] using hd
  rcases hmem with hmem | rfl
  · exact h.isOperatorChar d hmem
  · exact hc

end AttributeTest

namespace Draft

/-! ## Compiling keeps the rules -/

/--
What is complete and what is under construction keep the rules, and the last condition
is open just when its bracket is.
-/
structure Compilable (draft : Draft) : Prop where
  done : ∀ compound ∈ draft.done, compound.Compilable
  conditions : Selector.Compilable draft.conditions
  isOpen_last : ∀ last ∈ draft.conditions.getLast?, last.isOpen = draft.bracket.isSome

theorem compilable_empty : Compilable {} where
  done := by simp
  conditions := ⟨by simp [conditions], by simp [conditions]⟩
  isOpen_last := by simp [conditions]

theorem conditions_eq_concat {draft : Draft} {test : AttributeTest}
    (h : draft.bracket = some test) :
    draft.conditions = draft.selectors ++ [.byAttribute test] := by
  simp [conditions, h]

theorem conditions_push (draft : Draft) (simple : Simple) :
    (draft.push simple).conditions = draft.conditions ++ [simple] := by
  simp [push, conditions]

theorem conditions_openBracket (draft : Draft) :
    draft.openBracket.conditions = draft.conditions ++ [.byAttribute .empty] := by
  simp [openBracket, conditions]

theorem conditions_closeBracket (draft : Draft) (test : AttributeTest) :
    (draft.closeBracket test).conditions = draft.selectors ++ [.byAttribute test.close] := by
  simp [closeBracket, conditions]

/-- Notices and the mark of a compound do not matter. -/
theorem Compilable.of_eq {draft other : Draft} (h : draft.Compilable)
    (hdone : other.done = draft.done) (hselectors : other.selectors = draft.selectors)
    (hbracket : other.bracket = draft.bracket) : other.Compilable := by
  have hconditions : other.conditions = draft.conditions := by
    simp [Draft.conditions, hselectors, hbracket]
  obtain ⟨hall, hshape, hlast⟩ := h
  rw [← hdone] at hall
  rw [← hconditions] at hshape hlast
  rw [← hbracket] at hlast
  exact ⟨hall, hshape, hlast⟩

theorem Compilable.of_concat {draft : Draft} {selectors : List Simple} {simple : Simple}
    (hdone : ∀ compound ∈ draft.done, compound.Compilable)
    (hconditions : draft.conditions = selectors ++ [simple])
    (hshape : Selector.Compilable (selectors ++ [simple]))
    (hopen : simple.isOpen = draft.bracket.isSome) : draft.Compilable := by
  refine ⟨hdone, hconditions ▸ hshape, ?_⟩
  intro last hlast
  rw [hconditions, List.getLast?_concat] at hlast
  cases hlast
  exact hopen

variable {draft : Draft}

theorem compilable_push (h : draft.Compilable) {simple : Simple} (hsimple : simple.Compilable)
    (hclosed : simple.isOpen = false)
    (hfits : draft.bracket.isSome = true → simple.leavesBracket = true) :
    (draft.push simple).Compilable := by
  refine .of_concat h.done (conditions_push draft simple) ?_ hclosed
  rw [compilable_concat_iff]
  refine ⟨h.conditions, hsimple, ?_⟩
  intro last hlast hopen
  rw [h.isOpen_last last hlast] at hopen
  exact hfits hopen

theorem compilable_openBracket (h : draft.Compilable) : draft.openBracket.Compilable := by
  refine .of_concat h.done (conditions_openBracket draft) ?_ rfl
  rw [compilable_concat_iff]
  exact ⟨h.conditions, AttributeTest.compilable_empty, fun _ _ _ => rfl⟩

theorem compilable_test (h : draft.Compilable) {test : AttributeTest}
    (hbracket : draft.bracket = some test) : test.Compilable ∧ test.closed = false := by
  have hconditions := conditions_eq_concat hbracket
  have hlast := h.isOpen_last (.byAttribute test) (by simp [hconditions])
  refine ⟨h.conditions.compilable (.byAttribute test) (by simp [hconditions]), ?_⟩
  simpa [Simple.isOpen, hbracket] using hlast

/-- The bracket may hold any other open test. -/
theorem compilable_bracket (h : draft.Compilable) {test next : AttributeTest}
    (hbracket : draft.bracket = some test) (hnext : next.Compilable)
    (hclosed : next.closed = test.closed) (notices : Array Notice) :
    Compilable { draft with bracket := some next, notices := notices } := by
  have hshape := h.conditions
  rw [conditions_eq_concat hbracket] at hshape
  have hopen : next.closed = false := by
    rw [hclosed]
    exact (compilable_test h hbracket).2
  exact .of_concat h.done (conditions_eq_concat rfl) (compilable_concat_test hshape hnext)
    (by simp [Simple.isOpen, hopen])

theorem compilable_closeBracket (h : draft.Compilable) {test : AttributeTest}
    (hbracket : draft.bracket = some test) : (draft.closeBracket test).Compilable := by
  obtain ⟨htest, -⟩ := compilable_test h hbracket
  have hshape := h.conditions
  rw [conditions_eq_concat hbracket] at hshape
  have hnext : test.close.Compilable := ⟨htest.isSome_name, htest.isOperatorChar⟩
  exact .of_concat h.done (conditions_closeBracket draft test)
    (compilable_concat_test hshape hnext) rfl

theorem compilable_addParameter (h : draft.Compilable) {test : AttributeTest}
    (hbracket : draft.bracket = some test) (parameter : String) :
    (draft.addParameter test parameter).Compilable := by
  have hnext := AttributeTest.compilable_addParameter (compilable_test h hbracket).1 parameter
  refine compilable_bracket h hbracket hnext ?_ _
  unfold AttributeTest.addParameter
  split <;> rfl

/-- Inside a bracket `*` is an operator character, so that it starts a condition outside only. -/
theorem compilable_punctuation (h : draft.Compilable) {c : Char}
    (hc : draft.bracket.isSome = true → isOperatorChar c = false) :
    (draft.punctuation c).Compilable := by
  unfold punctuation
  split
  case h_2 => exact compilable_openBracket h
  case h_3 =>
      refine compilable_push h trivial rfl ?_
      intro hsome
      exact absurd (hc hsome) (by decide)
  all_goals exact h.of_eq rfl rfl rfl

theorem compilable_delim (h : draft.Compilable) (c : Char) : (draft.delim c).Compilable := by
  unfold delim
  cases hbracket : draft.bracket with
  | none => exact compilable_punctuation h (by simp [hbracket])
  | some test =>
      by_cases hclose : c = ']'
      · simp only [hclose, if_true]
        exact compilable_closeBracket h hbracket
      · by_cases hoperator : isOperatorChar c = true
        · simp only [hclose, hoperator, if_false, if_true]
          have hnext := AttributeTest.compilable_addOperator (compilable_test h hbracket).1 hoperator
          exact compilable_bracket h hbracket hnext rfl draft.notices
        · simp only [hclose, hoperator, if_false]
          exact compilable_punctuation h fun _ => by simpa using hoperator

theorem compilable_flush (h : draft.Compilable) : draft.flush.Compilable := by
  unfold flush
  by_cases hempty : draft.conditions = []
  · rw [if_pos (by simp [hempty])]
    exact h
  · rw [if_neg (by simp [hempty])]
    refine ⟨?_, compilable_empty.conditions, compilable_empty.isOpen_last⟩
    intro compound hcompound
    rcases Array.mem_push.mp hcompound with hcompound | rfl
    · exact h.done compound hcompound
    · exact ⟨hempty, h.conditions⟩

/-- Every token keeps the rules, whatever was read before it. -/
theorem compilable_feed (h : draft.Compilable) (token : Token) : (draft.feed token).Compilable := by
  cases token with
  | whitespace => exact compilable_flush h
  | delim c => exact compilable_delim h c
  | ident name =>
      simp only [feed]
      cases hbracket : draft.bracket with
      | none => exact compilable_push h trivial rfl (by simp [hbracket])
      | some test => exact compilable_addParameter h hbracket name
  | hash id => exact compilable_push h trivial rfl fun _ => rfl
  | string text =>
      simp only [feed]
      cases hbracket : draft.bracket with
      | none => exact h.of_eq rfl rfl rfl
      | some test => exact compilable_addParameter h hbracket text
  | badString => exact h.of_eq rfl rfl rfl
  | number numeral => exact h.of_eq rfl rfl rfl
  | function name => exact h.of_eq rfl rfl rfl
  | eof => exact h

theorem compilable_feedAll (h : draft.Compilable) (tokens : List Token) :
    (draft.feedAll tokens).Compilable := by
  induction tokens generalizing draft with
  | nil => exact h
  | cons token rest ih => exact ih (compilable_feed h token)

end Draft

theorem compilable_of_mem_compounds {tokens : List Token} {compound : Compound}
    (h : compound ∈ (compileTokens tokens).compounds) : compound.Compilable := by
  have hfed := Draft.compilable_feedAll Draft.compilable_empty tokens
  exact (Draft.compilable_flush hfed).done compound (by simpa [compileTokens, Draft.finish] using h)

/-! ## Tokens for every selector that keeps the rules -/

/-- A name and a value are written as literals, with the operator between them. -/
def AttributeTest.spelling (test : AttributeTest) : List Token :=
  .delim '[' :: (test.name.toList.map .string ++ test.operator.toList.map .delim ++
    test.value.toList.map .string ++ if test.closed then [.delim ']'] else [])

/-- What is written between the brackets of a test makes it up. -/
theorem AttributeTest.ofBody_filling {test : AttributeTest} (h : test.Compilable) :
    ofBody (test.name.toList.map .string ++ test.operator.toList.map .delim ++
        test.value.toList.map .string) =
      { test with closed := false } := by
  obtain ⟨name, value, operator, closed⟩ := test
  simp only [ofBody, parameters_append, operatorChars_append, parameters_map_string,
    operatorChars_map_string, parameters_map_delim, operatorChars_map_delim h.isOperatorChar,
    List.append_nil, List.nil_append, String.ofList_toList]
  cases name with
  | none =>
      cases value with
      | none => rfl
      | some value => cases h.isSome_name rfl
  | some name => cases value <;> rfl

theorem AttributeTest.staysInside_of_mem_filling {test : AttributeTest} (h : test.Compilable) :
    ∀ token ∈ test.name.toList.map Token.string ++ test.operator.toList.map .delim ++
      test.value.toList.map .string, token.staysInside = true := by
  simp only [List.forall_mem_append, List.forall_mem_map]
  refine ⟨⟨fun _ _ => rfl, ?_⟩, fun _ _ => rfl⟩
  intro c hc
  exact Token.staysInside_delim (h.isOperatorChar c hc)

def Simple.spelling : Simple → List Token
  | all => [.delim '*']
  | byId id => [.hash id]
  | byType name => [.ident name]
  | byAttribute test => test.spelling

/-- The mark of a compound is written in front of its conditions. -/
def Compound.spelling (compound : Compound) : List Token :=
  (if compound.childOnly then [.delim '>'] else []) ++
    compound.selectors.flatMap Simple.spelling ++ [.whitespace]

namespace Draft

/-- Conditions were added, and nothing else that matters was changed. -/
structure Adds (before : Draft) (selectors : List Simple) (after : Draft) : Prop where
  done : after.done = before.done
  conditions : after.conditions = before.conditions ++ selectors
  childOnly : after.childOnly = before.childOnly

theorem Adds.refl (draft : Draft) : draft.Adds [] draft :=
  ⟨rfl, by simp, rfl⟩

theorem Adds.trans {first second third : Draft} {before after : List Simple}
    (h : first.Adds before second) (h' : second.Adds after third) :
    first.Adds (before ++ after) third := by
  refine ⟨h'.done.trans h.done, ?_, h'.childOnly.trans h.childOnly⟩
  rw [h'.conditions, h.conditions, List.append_assoc]

theorem adds_push (draft : Draft) (simple : Simple) : draft.Adds [simple] (draft.push simple) :=
  ⟨rfl, conditions_push draft simple, rfl⟩

theorem feedAll_spelling_test {test : AttributeTest} (h : test.Compilable) (draft : Draft) :
    draft.Adds [.byAttribute test] (draft.feedAll test.spelling) ∧
      (draft.feedAll test.spelling).bracket.isSome = !test.closed := by
  have hfilled := draft.opens_openBracket.feedAll (AttributeTest.staysInside_of_mem_filling h)
  rw [List.nil_append, AttributeTest.ofBody_filling h] at hfilled
  rw [AttributeTest.spelling, feedAll_cons, feed_openBracket, feedAll_append]
  obtain ⟨name, value, operator, closed⟩ := test
  cases closed with
  | false =>
      refine ⟨⟨hfilled.done, ?_, hfilled.childOnly⟩, congrArg Option.isSome hfilled.bracket⟩
      exact (conditions_eq_concat hfilled.bracket).trans (congrArg (· ++ _) hfilled.selectors)
  | true =>
      obtain ⟨hdone, hchild, hbracket, hconditions⟩ := hfilled.closeBracket
      exact ⟨⟨hdone, hconditions, hchild⟩, congrArg Option.isSome hbracket⟩

/-- Behind what it can stand behind, a condition is added by its tokens. -/
theorem feedAll_spelling {simple : Simple} (h : simple.Compilable) {draft : Draft}
    (hfits : draft.bracket.isSome = true → simple.leavesBracket = true) :
    draft.Adds [simple] (draft.feedAll simple.spelling) ∧
      (draft.feedAll simple.spelling).bracket.isSome = simple.isOpen := by
  have hbracket : simple.leavesBracket = false → draft.bracket = none := by
    intro hstays
    rw [hstays] at hfits
    simpa using hfits
  cases simple with
  | all =>
      have hfed : draft.feedAll (Simple.spelling .all) = draft.push .all := by
        simp [Simple.spelling, feed, delim, hbracket rfl, punctuation]
      rw [hfed]
      exact ⟨adds_push draft .all, rfl⟩
  | byId id => exact ⟨adds_push draft (.byId id), rfl⟩
  | byType name =>
      have hfed : draft.feedAll (Simple.spelling (.byType name)) = draft.push (.byType name) := by
        simp [Simple.spelling, feed, hbracket rfl]
      rw [hfed]
      exact ⟨adds_push draft (.byType name), rfl⟩
  | byAttribute test => exact feedAll_spelling_test h draft

theorem feedAll_spellings {selectors : List Simple} (h : Selector.Compilable selectors)
    (draft : Draft)
    (hfits : ∀ first ∈ selectors.head?,
      draft.bracket.isSome = true → first.leavesBracket = true) :
    draft.Adds selectors (draft.feedAll (selectors.flatMap Simple.spelling)) := by
  induction selectors generalizing draft with
  | nil => exact .refl draft
  | cons first others ih =>
      obtain ⟨hall, hchain⟩ := h
      obtain ⟨hfirst, hbracket⟩ :=
        feedAll_spelling (hall first List.mem_cons_self) (hfits first rfl)
      have hothers : Selector.Compilable others :=
        ⟨fun simple hsimple => hall simple (List.mem_cons_of_mem first hsimple), hchain.tail⟩
      rw [List.flatMap_cons, feedAll_append]
      refine hfirst.trans (ih hothers _ ?_)
      intro second hsecond
      rw [hbracket]
      cases others with
      | nil => cases hsecond
      | cons next others =>
          cases hsecond
          exact (List.isChain_cons_cons.mp hchain).1

theorem feedAll_spelling_compound {compound : Compound} (h : compound.Compilable) {draft : Draft}
    (hidle : draft.Idle) (hmark : draft.childOnly = false) :
    (draft.feedAll compound.spelling).done = draft.done.push compound ∧
      (draft.feedAll compound.spelling).Idle ∧
      (draft.feedAll compound.spelling).childOnly = false := by
  have hmarked : draft.feedAll (if compound.childOnly then [.delim '>'] else []) =
      { draft with childOnly := compound.childOnly } := by
    obtain ⟨done, selectors, bracket, childOnly, notices⟩ := draft
    obtain ⟨rfl, rfl⟩ := hidle
    cases hmark
    cases compound.childOnly <;> rfl
  have hadds := feedAll_spellings h.compilable { draft with childOnly := compound.childOnly }
    (by simp [hidle.2])
  rw [Compound.spelling, feedAll_append, feedAll_append, hmarked, feedAll_cons, feedAll_nil, feed]
  generalize feedAll _ (compound.selectors.flatMap Simple.spelling) = full at hadds
  have hconditions : full.conditions = compound.selectors := by
    rw [hadds.conditions]
    simp [Draft.conditions, hidle.1, hidle.2]
  have hcurrent : full.current = compound := by
    rw [current, hconditions, hadds.childOnly]
  rw [flush, if_neg (by simp [hconditions, h.selectors_ne_nil]), hcurrent, hadds.done]
  exact ⟨rfl, ⟨rfl, rfl⟩, rfl⟩

theorem compounds_feedAll_spelling {compounds : List Compound}
    (h : ∀ compound ∈ compounds, compound.Compilable) {draft : Draft}
    (hidle : draft.Idle) (hmark : draft.childOnly = false) :
    (draft.feedAll (compounds.flatMap Compound.spelling)).finish.compounds =
      draft.done.toList ++ compounds := by
  induction compounds generalizing draft with
  | nil =>
      have hempty := (conditions_eq_nil_iff draft).mpr hidle
      simp [finish, flush, hempty]
  | cons compound rest ih =>
      obtain ⟨hdone, hnext, hunmarked⟩ :=
        feedAll_spelling_compound (h compound List.mem_cons_self) hidle hmark
      rw [List.flatMap_cons, feedAll_append,
        ih (fun other hother => h other (List.mem_cons_of_mem compound hother)) hnext hunmarked,
        hdone]
      simp

end Draft

/-- Compiling yields the lists of compounds that keep the rules, and no others. -/
theorem exists_compileTokens_iff (compounds : List Compound) :
    (∃ tokens, (compileTokens tokens).compounds = compounds) ↔
      ∀ compound ∈ compounds, compound.Compilable := by
  constructor
  · rintro ⟨tokens, rfl⟩ compound hcompound
    exact compilable_of_mem_compounds hcompound
  · intro h
    exact ⟨compounds.flatMap Compound.spelling,
      Draft.compounds_feedAll_spelling h ⟨rfl, rfl⟩ rfl⟩

end Scenery.Selector
