import Mathlib.Data.List.Chain
import Scenery.Proofs.Chunks
import Scenery.Proofs.Scanning

/-!
# Canonical selectors

A selector is canonical if it is written so that its text says all of it: its
names need no escapes, its brackets are closed, and no two names stand where one
would run into the other.  The text of a canonical selector falls into the
tokens it was made of, and compiling these tokens gives the selector back.
-/

namespace Scenery.Selector

/-! ## Which selectors are canonical -/

/-- A closed test of a plain name, without a comparison or with one of the six. -/
def AttributeTest.Canonical (test : AttributeTest) : Prop :=
  test.closed = true ∧
    (∃ name, test.name = some name ∧ isIdentifier name.toList = true) ∧
    (test.value = none ∧ test.operator = "" ∨
      ∃ comparison value, test.operator = Comparison.text comparison ∧ test.value = some value ∧
        ∀ c ∈ value.toList, Text.quoteChar c = [c] ∨ c = '"' ∨ c = '\\')

/-- A condition whose text is read back as the condition. -/
def Simple.Canonical : Simple → Prop
  | all => True
  | byId id => id ≠ "" ∧ ∀ c ∈ id.toList, isNameChar c = true
  | byType name => isIdentifier name.toList = true
  | byAttribute test => test.Canonical

/-- Whether the text of the condition ends with a name. -/
def Simple.endsWithName : Simple → Bool
  | byId _ => true
  | byType _ => true
  | _ => false

/-- Whether the condition is a bare name, which would lengthen a name before it. -/
def Simple.isBare : Simple → Bool
  | byType _ => true
  | _ => false

/-- A bare name is an identifier. -/
def Simple.Plain : Simple → Prop
  | byType name => isIdentifier name.toList = true
  | _ => True

/-- The two conditions can stand side by side. -/
def Simple.Separable (first second : Simple) : Prop :=
  first.endsWithName = true → second.isBare = false

/-- Canonical conditions, of which no two run into each other. -/
structure Compound.Canonical (compound : Compound) : Prop where
  selectors_ne_nil : compound.selectors ≠ []
  canonical : ∀ simple ∈ compound.selectors, simple.Canonical
  separable : compound.selectors.IsChain Simple.Separable

/-! ## The tokens of a selector -/

/-- The tokens of an operator and a value. -/
def AttributeTest.valueTokens (test : AttributeTest) : List Token :=
  match test.value with
  | none => []
  | some value => test.operator.toList.map .delim ++ [.string value]

/-- The tokens that the text of a canonical condition falls into. -/
def Simple.tokens : Simple → List Token
  | all => [.delim '*']
  | byId id => [.hash id]
  | byType name => [.ident name]
  | byAttribute test =>
    .delim '[' :: .ident (test.name.getD "") :: (test.valueTokens ++ [.delim ']'])

def Compound.tokens (compound : Compound) : List Token :=
  (if compound.childOnly then [.delim '>', .whitespace] else []) ++
    compound.selectors.flatMap Simple.tokens

/-- The tokens of a selector with the end of its text. -/
def tokensOf : List Compound → List Token
  | [] => [.eof]
  | [compound] => compound.tokens ++ [.eof]
  | compound :: next :: rest => compound.tokens ++ .whitespace :: tokensOf (next :: rest)

/-! ## Scanning the text -/

open Token (scan)

theorem scan_operator (comparison : Comparison) (rest : List Char) :
    scan (comparison.text.toList ++ rest) =
      comparison.text.toList.map .delim ++ scan rest := by
  cases comparison with
  | equals => exact Token.scan_delim (by decide) rest
  | _ =>
      refine (Token.scan_delim (by decide) _).trans (congrArg _ ?_)
      exact Token.scan_delim (by decide) rest

theorem endsName_operator (comparison : Comparison) (rest : List Char) :
    endsName (comparison.text.toList ++ rest) = true := by
  cases comparison <;> rfl

theorem scan_attribute {test : AttributeTest} (h : test.Canonical) (rest : List Char) :
    scan (test.text.toList ++ rest) = (Simple.byAttribute test).tokens ++ scan rest := by
  obtain ⟨hclosed, ⟨name, hname, hident⟩, hvalue⟩ := h
  rcases hvalue with ⟨hvalue, hoperator⟩ | ⟨comparison, value, hoperator, hvalue, hchars⟩
  · have htext : test.text.toList ++ rest = '[' :: (name.toList ++ ']' :: rest) := by
      simp [AttributeTest.text, hclosed, hname, hvalue]
    rw [htext, Token.scan_delim (by decide), Token.scan_ident hident (by rfl),
      Token.scan_delim (by decide)]
    simp [Simple.tokens, AttributeTest.valueTokens, hname, hvalue]
  · have hne : comparison.text ≠ "" := by cases comparison <;> decide
    have htext : test.text.toList ++ rest = '[' :: (name.toList ++ (comparison.text.toList ++
        ((Text.quoted value).toList ++ ']' :: rest))) := by
      simp [AttributeTest.text, AttributeTest.operatorText, hclosed, hname, hvalue, hoperator,
        hne]
    rw [htext, Token.scan_delim (by decide),
      Token.scan_ident hident (endsName_operator comparison _), scan_operator,
      Token.scan_quoted _ hchars, Token.scan_delim (by decide)]
    simp [Simple.tokens, AttributeTest.valueTokens, hname, hvalue, hoperator]

theorem scan_simple {simple : Simple} (h : simple.Canonical) {rest : List Char}
    (hrest : simple.endsWithName = true → endsName rest = true) :
    scan (simple.text.toList ++ rest) = simple.tokens ++ scan rest := by
  cases simple with
  | all => exact Token.scan_delim (by decide) rest
  | byId id =>
      obtain ⟨hne, hchars⟩ := h
      have hname : id.toList ≠ [] := by simpa using hne
      have hscan := Token.scan_hash hname hchars (hrest rfl)
      simpa [Simple.text, Simple.tokens] using hscan
  | byType name =>
      have hscan := Token.scan_ident h (hrest rfl)
      simpa [Simple.text, Simple.tokens] using hscan
  | byAttribute test => exact scan_attribute h rest

theorem Simple.Canonical.plain {simple : Simple} (h : simple.Canonical) : simple.Plain := by
  cases simple with
  | byType name => exact h
  | _ => trivial

/-- The text of a condition begins with its own first character, never with a blank. -/
theorem text_eq_cons {simple : Simple} (h : simple.Plain) :
    ∃ c rest, simple.text.toList = c :: rest ∧ isBlank c = false ∧
      (simple.isBare = false → isNameChar c = false ∧ c ≠ '\\' ∧ c ≠ '(') := by
  cases simple with
  | all => exact ⟨'*', [], by simp [Simple.text], by decide, fun _ => by decide⟩
  | byId id => exact ⟨'#', id.toList, by simp [Simple.text], by decide, fun _ => by decide⟩
  | byType name =>
      cases hname : name.toList with
      | nil => simp [Simple.Plain, hname, isIdentifier] at h
      | cons c rest =>
          have hc := isNameChar_of_isIdentifier h c (by simp [hname])
          refine ⟨c, rest, hname, ?_, by simp [Simple.isBare]⟩
          rw [Bool.eq_false_iff]
          intro hblank
          simp [isNameChar_eq_false_of_isBlank hblank] at hc
  | byAttribute test =>
      refine ⟨'[', test.text.toList.tail, ?_, by decide, fun _ => by decide⟩
      simp [Simple.text, AttributeTest.text]

/--
Conditions fall into the tokens of each, if a name has to be ended only where one ends
and no bare name stands there.
-/
theorem scan_flatMap_text (tokens : Simple → List Token) (ends : Simple → Bool)
    {selectors : List Simple} (hplain : ∀ simple ∈ selectors, simple.Plain)
    (hscan : ∀ simple ∈ selectors, ∀ rest, (ends simple = true → endsName rest = true) →
      scan (simple.text.toList ++ rest) = tokens simple ++ scan rest)
    (hchain : selectors.IsChain fun first second => ends first = true → second.isBare = false)
    {rest : List Char} (hrest : endsName rest = true) :
    scan (selectors.flatMap (·.text.toList) ++ rest) =
      selectors.flatMap tokens ++ scan rest := by
  induction selectors with
  | nil => rfl
  | cons first others ih =>
      have hothers := ih (fun simple hsimple => hplain simple (List.mem_cons_of_mem first hsimple))
        (fun simple hsimple => hscan simple (List.mem_cons_of_mem first hsimple)) hchain.tail
      rw [List.flatMap_cons, List.flatMap_cons, List.append_assoc, List.append_assoc,
        hscan first List.mem_cons_self, hothers]
      -- Only a name looks at what follows it: the first character of its neighbour.
      intro hname
      cases others with
      | nil => exact hrest
      | cons second others =>
          have hbare := (List.isChain_cons_cons.mp hchain).1 hname
          obtain ⟨c, tail, htext, -, hend⟩ := text_eq_cons (hplain second (by simp))
          obtain ⟨hchar, hslash, hparen⟩ := hend hbare
          rw [List.flatMap_cons, htext]
          simp [endsName, hchar, hslash, hparen]

theorem scan_selectors {selectors : List Simple} (h : ∀ simple ∈ selectors, simple.Canonical)
    (hchain : selectors.IsChain Simple.Separable) {rest : List Char}
    (hrest : endsName rest = true) :
    scan (selectors.flatMap (·.text.toList) ++ rest) =
      selectors.flatMap Simple.tokens ++ scan rest :=
  scan_flatMap_text Simple.tokens Simple.endsWithName (fun simple hsimple => (h simple hsimple).plain)
    (fun simple hsimple _ => scan_simple (h simple hsimple)) hchain hrest

theorem toList_text_compound (compound : Compound) :
    compound.text.toList = (if compound.childOnly then ['>', ' '] else []) ++
      compound.selectors.flatMap (·.text.toList) := by
  unfold Compound.text
  rw [String.toList_append, String.toList_join, List.flatMap_map]
  cases compound.childOnly <;> rfl

theorem dropWhile_isBlank {c : Char} (hc : isBlank c = false) (rest : List Char) :
    (c :: rest).dropWhile isBlank = c :: rest := by
  simp [hc]

theorem exists_text_selectors {compound : Compound} (hne : compound.selectors ≠ [])
    (hplain : ∀ simple ∈ compound.selectors, simple.Plain) :
    ∃ c rest, compound.selectors.flatMap (·.text.toList) = c :: rest ∧ isBlank c = false := by
  cases hselectors : compound.selectors with
  | nil => exact absurd hselectors hne
  | cons first others =>
      obtain ⟨c, tail, htext, hblank, -⟩ := text_eq_cons (hplain first (by simp [hselectors]))
      exact ⟨c, tail ++ others.flatMap (·.text.toList), by simp [htext], hblank⟩

theorem exists_text_compound {compound : Compound} (hne : compound.selectors ≠ [])
    (hplain : ∀ simple ∈ compound.selectors, simple.Plain) :
    ∃ c rest, compound.text.toList = c :: rest ∧ isBlank c = false := by
  rw [toList_text_compound]
  cases compound.childOnly with
  | true => exact ⟨'>', _, rfl, by decide⟩
  | false => exact exists_text_selectors hne hplain

/-- The mark of a compound, and the space behind it, come before the tokens of its conditions. -/
theorem scan_text_compound {compound : Compound} (hne : compound.selectors ≠ [])
    (hplain : ∀ simple ∈ compound.selectors, simple.Plain) {rest : List Char} {tokens : List Token}
    (h : scan (compound.selectors.flatMap (·.text.toList) ++ rest) = tokens) :
    scan (compound.text.toList ++ rest) =
      (if compound.childOnly then [.delim '>', .whitespace] else []) ++ tokens := by
  obtain ⟨c, tail, htext, hblank⟩ := exists_text_selectors hne hplain
  rw [toList_text_compound]
  cases compound.childOnly with
  | true =>
      change scan ('>' :: ' ' :: (compound.selectors.flatMap (·.text.toList) ++ rest)) = _
      rw [Token.scan_delim (by decide), Token.scan_blank (by decide), htext, List.cons_append,
        dropWhile_isBlank hblank, ← List.cons_append, ← htext, h]
      rfl
  | false => exact h

theorem Compound.Canonical.plain {compound : Compound} (h : compound.Canonical) :
    ∀ simple ∈ compound.selectors, simple.Plain :=
  fun simple hsimple => (h.canonical simple hsimple).plain

theorem scan_compound {compound : Compound} (h : compound.Canonical) {rest : List Char}
    (hrest : endsName rest = true) :
    scan (compound.text.toList ++ rest) = compound.tokens ++ scan rest := by
  rw [scan_text_compound h.selectors_ne_nil h.plain (scan_selectors h.canonical h.separable hrest),
    Compound.tokens, List.append_assoc]

/-- Between two compounds stands one space, which is a token of its own. -/
theorem scan_textOf_cons {compound next : Compound} {rest : List Compound} {tokens : List Token}
    (hne : next.selectors ≠ []) (hplain : ∀ simple ∈ next.selectors, simple.Plain)
    (h : ∀ behind, endsName behind = true →
      scan (compound.text.toList ++ behind) = tokens ++ scan behind) :
    scan (textOf (compound :: next :: rest)).toList =
      tokens ++ .whitespace :: scan (textOf (next :: rest)).toList := by
  obtain ⟨c, tail, htext, hblank⟩ := exists_text_compound hne hplain
  obtain ⟨others, hothers⟩ : ∃ others, (textOf (next :: rest)).toList = c :: others := by
    rw [textOf, String.toList_intercalate, List.map_cons, List.map_cons, htext]
    cases rest.map Compound.text <;> simp
  have hlist : (textOf (compound :: next :: rest)).toList =
      compound.text.toList ++ ' ' :: (textOf (next :: rest)).toList := by
    rw [textOf, List.map_cons, List.map_cons, String.intercalate_cons_cons, ← List.map_cons,
      String.toList_append, String.toList_append, List.append_assoc]
    rfl
  rw [hlist, h _ rfl, Token.scan_blank (by decide), hothers, dropWhile_isBlank hblank]

/-- The text of a canonical selector falls into its tokens. -/
theorem ofText_textOf {compounds : List Compound} (h : ∀ compound ∈ compounds, compound.Canonical) :
    Token.ofText (textOf compounds) = tokensOf compounds := by
  unfold Token.ofText
  induction compounds with
  | nil => exact Token.scan_nil
  | cons compound rest ih =>
      have hcompound := h compound List.mem_cons_self
      have hrest : ∀ other ∈ rest, other.Canonical :=
        fun other hother => h other (List.mem_cons_of_mem compound hother)
      cases rest with
      | nil =>
          have hscan : scan (compound.text.toList ++ []) = compound.tokens ++ scan [] :=
            scan_compound hcompound rfl
          simpa [textOf, tokensOf, Token.scan_nil] using hscan
      | cons next rest =>
          have hnext := hrest next List.mem_cons_self
          rw [scan_textOf_cons hnext.selectors_ne_nil hnext.plain fun _ => scan_compound hcompound,
            ih hrest, tokensOf]

/-! ## Compiling the tokens -/

namespace Draft

theorem feedAll_operators {test : AttributeTest} {chars : List Char}
    (h : ∀ c ∈ chars, isOperatorChar c = true) {draft : Draft} (hbracket : draft.bracket = some test) :
    draft.feedAll (chars.map .delim) =
      { draft with
        bracket := some { test with operator := test.operator ++ String.ofList chars } } := by
  induction chars generalizing draft test with
  | nil =>
      obtain ⟨done, selectors, bracket, childOnly, notices⟩ := draft
      cases hbracket
      simp
  | cons c chars ih =>
      have hc := h c List.mem_cons_self
      have hclose : c ≠ ']' := by
        rintro rfl
        exact absurd hc (by decide)
      have hfeed : draft.feed (.delim c) =
          { draft with bracket := some (test.addOperator c) } := by
        simp [feed, delim, hbracket, hclose, hc]
      have hoperator : (test.operator.push c) ++ String.ofList chars =
          test.operator ++ String.ofList (c :: chars) := by
        apply String.toList_inj.mp
        simp
      rw [List.map_cons, feedAll_cons, hfeed,
        ih (fun d hd => h d (List.mem_cons_of_mem c hd)) rfl]
      simp only [AttributeTest.addOperator, hoperator]

theorem feedAll_simple {simple : Simple} (h : simple.Canonical) {draft : Draft}
    (hbracket : draft.bracket = none) : draft.feedAll simple.tokens = draft.push simple := by
  cases simple with
  | all => simp [Simple.tokens, feed, delim, hbracket, punctuation]
  | byId id => rfl
  | byType name => simp [Simple.tokens, feed, hbracket]
  | byAttribute test =>
      obtain ⟨name, value, operator, closed⟩ := test
      obtain ⟨rfl, ⟨name, rfl, -⟩, hvalue⟩ := h
      have hnamed : draft.feedAll [.delim '[', .ident name] =
          { draft with selectors := draft.conditions, bracket := some { name := some name } } := by
        simp [feed, delim, hbracket, punctuation, openBracket, addParameter,
          AttributeTest.addParameter, AttributeTest.parameterNotices, AttributeTest.empty]
      change draft.feedAll ([.delim '[', .ident name] ++ (_ ++ [.delim ']'])) = _
      rw [feedAll_append, hnamed]
      -- The bracket is still open here and takes operator and value, if there are any.
      rcases hvalue with ⟨rfl, rfl⟩ | ⟨comparison, value, rfl, rfl, -⟩
      · simp [AttributeTest.valueTokens, feed, delim, closeBracket, AttributeTest.close, push]
      · have hchars : comparison.text.toList.all isOperatorChar = true := by
          cases comparison <;> rfl
        rw [AttributeTest.valueTokens, List.append_assoc, feedAll_append,
          feedAll_operators (List.all_eq_true.mp hchars) rfl]
        simp [feed, delim, closeBracket, AttributeTest.close, push, addParameter,
          AttributeTest.addParameter, AttributeTest.parameterNotices]

theorem feedAll_selectors {selectors : List Simple} (h : ∀ simple ∈ selectors, simple.Canonical)
    {draft : Draft} (hbracket : draft.bracket = none) :
    draft.feedAll (selectors.flatMap Simple.tokens) =
      { draft with selectors := draft.selectors ++ selectors } := by
  induction selectors generalizing draft with
  | nil => simp
  | cons first others ih =>
      have hothers : ∀ simple ∈ others, simple.Canonical :=
        fun simple hsimple => h simple (List.mem_cons_of_mem first hsimple)
      rw [List.flatMap_cons, feedAll_append, feedAll_simple (h first List.mem_cons_self) hbracket,
        ih hothers rfl]
      simp [push, conditions, hbracket]

theorem feedAll_compound {compound : Compound} (h : compound.Canonical) {draft : Draft}
    (hidle : draft.Idle) (hmark : draft.childOnly = false) :
    draft.feedAll compound.tokens =
      { draft with selectors := compound.selectors, childOnly := compound.childOnly } := by
  obtain ⟨done, selectors, bracket, childOnly, notices⟩ := draft
  obtain ⟨rfl, rfl⟩ := hidle
  cases hmark
  rw [Compound.tokens, feedAll_append]
  cases compound.childOnly with
  | true =>
      change Draft.feedAll ⟨done, [], none, true, notices⟩ _ = _
      rw [feedAll_selectors h.canonical rfl]
      rfl
  | false =>
      change Draft.feedAll ⟨done, [], none, false, notices⟩ _ = _
      rw [feedAll_selectors h.canonical rfl]
      rfl

theorem compounds_feedAll_tokensOf {compounds : List Compound}
    (h : ∀ compound ∈ compounds, compound.Canonical) {draft : Draft}
    (hidle : draft.Idle) (hmark : draft.childOnly = false) :
    (draft.feedAll (tokensOf compounds)).finish.compounds = draft.done.toList ++ compounds := by
  induction compounds generalizing draft with
  | nil =>
      have hempty := (conditions_eq_nil_iff draft).mpr hidle
      simp [tokensOf, feed, finish, flush, hempty]
  | cons compound rest ih =>
      have hcompound := h compound List.mem_cons_self
      have hfeed := feedAll_compound hcompound hidle hmark
      have hne := hcompound.selectors_ne_nil
      have hflush : (draft.feedAll compound.tokens).flush.done = draft.done.push compound ∧
          (draft.feedAll compound.tokens).flush.Idle ∧
          (draft.feedAll compound.tokens).flush.childOnly = false := by
        rw [hfeed]
        simp [flush, conditions, hidle.2, hne, current, Idle]
      cases rest with
      | nil =>
          rw [tokensOf, feedAll_append]
          change (draft.feedAll compound.tokens).flush.done.toList = _
          simp [hflush.1]
      | cons next rest =>
          have hrest := ih (fun other hother => h other (List.mem_cons_of_mem compound hother))
            hflush.2.1 hflush.2.2
          rw [tokensOf, feedAll_append, feedAll_cons]
          change ((draft.feedAll compound.tokens).flush.feedAll _).finish.compounds = _
          rw [hrest, hflush.1]
          simp

end Draft

/-- The text of a canonical selector, compiled again, is the selector. -/
theorem compile_textOf {compounds : List Compound}
    (h : ∀ compound ∈ compounds, compound.Canonical) :
    (compile (textOf compounds)).compounds = compounds := by
  unfold compile compileTokens
  rw [ofText_textOf h, Draft.compounds_feedAll_tokensOf h ⟨rfl, rfl⟩ rfl]
  rfl

theorem compile_textOf_neighbours :
    let compounds : List Compound :=
      [⟨[.byId "a-1", .byAttribute ⟨some "-x", none, "", true⟩, .byType "--y", .all], true⟩,
        ⟨[.all, .byType "é", .byId "2", .byAttribute ⟨some "n", some "q\"\\]", "|=", true⟩,
          .byAttribute ⟨some "m", some "", "*=", true⟩], false⟩]
    (∀ compound ∈ compounds, compound.Canonical) ∧
      (compile (textOf compounds)).compounds = compounds := by
  intro compounds
  have hx : AttributeTest.Canonical ⟨some "-x", none, "", true⟩ :=
    ⟨rfl, ⟨"-x", rfl, by decide⟩, .inl ⟨rfl, rfl⟩⟩
  have hquoted : ∀ c ∈ ['q', '"', '\\', ']'],
      Text.quoteChar c = [c] ∨ c = '"' ∨ c = '\\' := by
    simp only [List.forall_mem_cons]
    exact ⟨.inl (by decide +kernel), .inr (.inl trivial), .inr (.inr trivial),
      .inl (by decide +kernel), List.forall_mem_nil _⟩
  have hn : AttributeTest.Canonical ⟨some "n", some "q\"\\]", "|=", true⟩ :=
    ⟨rfl, ⟨"n", rfl, by decide⟩, .inr ⟨.dashMatch, _, rfl, rfl, hquoted⟩⟩
  have hm : AttributeTest.Canonical ⟨some "m", some "", "*=", true⟩ :=
    ⟨rfl, ⟨"m", rfl, by decide⟩, .inr ⟨.substringMatch, _, rfl, rfl, List.forall_mem_nil _⟩⟩
  have hhyphens : isIdentifier "--y".toList = true := by decide
  have hletter : isIdentifier "é".toList = true := by decide
  have hcanonical : ∀ compound ∈ compounds, compound.Canonical := by
    intro compound hcompound
    simp only [compounds, List.mem_cons, List.not_mem_nil, or_false] at hcompound
    rcases hcompound with rfl | rfl
    · refine ⟨by simp, ?_, by simp [Simple.Separable, Simple.endsWithName, Simple.isBare]⟩
      simp only [List.forall_mem_cons, List.not_mem_nil, false_implies, implies_true]
      exact ⟨⟨by decide, List.all_eq_true.mp rfl⟩, hx, hhyphens, trivial, trivial⟩
    · refine ⟨by simp, ?_, by simp [Simple.Separable, Simple.endsWithName, Simple.isBare]⟩
      simp only [List.forall_mem_cons, List.not_mem_nil, false_implies, implies_true]
      exact ⟨trivial, hletter, ⟨by decide, List.all_eq_true.mp rfl⟩, hn, hm, trivial⟩
  exact ⟨hcanonical, compile_textOf hcanonical⟩

end Scenery.Selector
