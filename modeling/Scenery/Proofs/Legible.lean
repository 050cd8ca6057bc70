import Scenery.Proofs.Building
import Scenery.Proofs.Compilable
import Scenery.Proofs.Composing

/-!
# Legible selectors

The text of a compiled selector writes names as they are and values between
quotes.  Where every name is an identifier, and every value is quoted with no
escape but those of quote and backslash, the text is read back as what it shows:
brackets may be open, names and values missing, and the operator can be any that
a name before it does not take in.  What it does not show, the operator of a
test without a value, no node can tell.
-/

namespace Scenery.Selector

open Token (scan)

/-! ## What the text shows -/

/-- The operator is written in front of a value only, and is `=` if there is none. -/
def AttributeTest.shown (test : AttributeTest) : AttributeTest :=
  { test with operator := if test.value.isSome then test.operatorText else "" }

def Simple.shown : Simple → Simple
  | byAttribute test => .byAttribute test.shown
  | simple => simple

def Compound.shown (compound : Compound) : Compound :=
  ⟨compound.selectors.map Simple.shown, compound.childOnly⟩

/-- A plain name, a value without special characters, and no hyphens that belong to a name. -/
structure AttributeTest.Legible (test : AttributeTest) : Prop where
  isIdentifier_name : ∀ name ∈ test.name, isIdentifier name.toList = true
  head_operator : test.value.isSome = true → test.operator.toList.head? ≠ some '-'
  hyphens_apart : test.value.isSome = true →
    test.operator.toList.IsChain fun first second => first = '-' → second ≠ '-'
  quoted_value : ∀ value ∈ test.value, ∀ c ∈ value.toList,
    Text.quoteChar c = [c] ∨ c = '"' ∨ c = '\\'

def Simple.Legible : Simple → Prop
  | all => True
  | byId id => id ≠ "" ∧ ∀ c ∈ id.toList, isNameChar c = true
  | byType name => isIdentifier name.toList = true
  | byAttribute test => test.Legible

/-- Legible conditions, of which no two run into each other. -/
structure Compound.Legible (compound : Compound) : Prop where
  legible : ∀ simple ∈ compound.selectors, simple.Legible
  separable : compound.selectors.IsChain Simple.Separable

theorem Simple.Legible.plain {simple : Simple} (h : simple.Legible) : simple.Plain := by
  cases simple with
  | byType name => exact h
  | _ => trivial

/-! ## No node tells a selector from what it shows -/

theorem AttributeTest.accepts_shown (test : AttributeTest) (node : Node) :
    test.shown.accepts node = test.accepts node := by
  obtain ⟨name, value, operator, closed⟩ := test
  cases value with
  | none => cases name <;> rfl
  | some value =>
      have hcomparison : Comparison.ofOperator (AttributeTest.operatorText
          ⟨name, some value, operator, closed⟩) = Comparison.ofOperator operator := by
        unfold operatorText
        split
        · rename_i hempty
          rw [show operator = "" from hempty]
          rfl
        · rfl
      cases name with
      | none => rfl
      | some name => simp [accepts, shown, comparison, hcomparison]

theorem Compound.accepts_shown (compound : Compound) (node : Node) :
    compound.shown.accepts node = compound.accepts node := by
  have hsimple : ∀ simple : Simple, simple.shown.accepts node = simple.accepts node := by
    intro simple
    cases simple with
    | byAttribute test => exact test.accepts_shown node
    | _ => rfl
  simp only [Compound.accepts, Compound.shown, List.all_map, Function.comp_def, hsimple]

/-! ## What is shown can be compiled -/

theorem AttributeTest.compilable_shown {test : AttributeTest} (h : test.Compilable) :
    test.shown.Compilable := by
  refine ⟨h.isSome_name, ?_⟩
  unfold shown operatorText
  split
  · split
    · exact List.all_eq_true.mp (show "=".toList.all Selector.isOperatorChar = true by decide)
    · exact h.isOperatorChar
  · exact List.forall_mem_nil _

theorem Simple.compilable_shown {simple : Simple} (h : simple.Compilable) :
    simple.shown.Compilable := by
  cases simple with
  | byAttribute test => exact AttributeTest.compilable_shown h
  | _ => trivial

theorem Compound.compilable_shown {compound : Compound} (h : compound.Compilable) :
    compound.shown.Compilable := by
  obtain ⟨hne, hall, hchain⟩ := h
  refine ⟨by simpa [shown] using hne, ?_, ?_⟩
  · intro simple hsimple
    obtain ⟨other, hother, rfl⟩ := List.mem_map.mp hsimple
    exact Simple.compilable_shown (hall other hother)
  · have hcontinues : ∀ first second : Simple, first.Continues second →
        first.shown.Continues second.shown := by
      intro first second h
      cases first <;> cases second <;> exact h
    rw [shown, List.isChain_map]
    exact hchain.imp hcontinues

/-! ## The tokens of the text -/

/-- The tokens that the text of a test falls into. -/
def AttributeTest.textTokens (test : AttributeTest) : List Token :=
  .delim '[' :: (test.name.toList.map .ident ++ test.shown.operator.toList.map .delim ++
    test.value.toList.map .string ++ if test.closed then [.delim ']'] else [])

def Simple.textTokens : Simple → List Token
  | byAttribute test => test.textTokens
  | simple => simple.spelling

theorem scan_hyphen {c : Char} (hc : isOperatorChar c = true ∨ c = '"') (hne : c ≠ '-')
    (rest : List Char) : scan ('-' :: c :: rest) = .delim '-' :: scan (c :: rest) := by
  simp only [isOperatorChar, Bool.or_eq_true, beq_iff_eq, hne, or_false] at hc
  rcases hc with (((((rfl | rfl) | rfl) | rfl) | rfl) | rfl) | rfl <;>
    exact Token.scan_cons (by decide) rfl

theorem scan_operatorChar {c : Char} (hc : isOperatorChar c = true) (hne : c ≠ '-')
    (rest : List Char) : scan (c :: rest) = .delim c :: scan rest := by
  apply Token.scan_delim
  simp only [isOperatorChar, Bool.or_eq_true, beq_iff_eq, hne, or_false] at hc
  rcases hc with ((((rfl | rfl) | rfl) | rfl) | rfl) | rfl <;> decide

/-- Operator characters in front of a quote, of which no two are hyphens side by side. -/
theorem scan_operatorChars {chars : List Char} (hchars : ∀ c ∈ chars, isOperatorChar c = true)
    (hchain : chars.IsChain fun first second => first = '-' → second ≠ '-') (rest : List Char) :
    scan (chars ++ '"' :: rest) = chars.map .delim ++ scan ('"' :: rest) := by
  induction chars with
  | nil => rfl
  | cons c chars ih =>
      have hrest := ih (fun d hd => hchars d (List.mem_cons_of_mem c hd)) hchain.tail
      rw [List.map_cons, List.cons_append, List.cons_append, ← hrest]
      by_cases hc : c = '-'
      · subst hc
        cases chars with
        | nil => exact scan_hyphen (.inr rfl) (by decide) rest
        | cons d chars =>
            have hd := (List.isChain_cons_cons.mp hchain).1 rfl
            exact scan_hyphen (.inl (hchars d (by simp))) hd (chars ++ '"' :: rest)
      · exact scan_operatorChar (hchars c List.mem_cons_self) hc _

theorem endsName_operatorChar {c : Char} (hc : isOperatorChar c = true) (hne : c ≠ '-')
    (rest : List Char) : endsName (c :: rest) = true := by
  simp only [isOperatorChar, Bool.or_eq_true, beq_iff_eq, hne, or_false] at hc
  rcases hc with ((((rfl | rfl) | rfl) | rfl) | rfl) | rfl <;> rfl

/-- The operator of a legible test ends a name before it, and is read as it is written. -/
theorem AttributeTest.Legible.scan_operatorText {test : AttributeTest} (h : test.Legible)
    (hcompilable : test.Compilable) (hvalue : test.value.isSome = true) (rest : List Char) :
    scan (test.operatorText.toList ++ '"' :: rest) =
        test.operatorText.toList.map .delim ++ scan ('"' :: rest) ∧
      endsName (test.operatorText.toList ++ '"' :: rest) = true := by
  unfold operatorText
  split
  · exact ⟨Token.scan_delim (by decide) _, rfl⟩
  · rename_i hne
    refine ⟨scan_operatorChars hcompilable.isOperatorChar (h.hyphens_apart hvalue) rest, ?_⟩
    have hhead := h.head_operator hvalue
    have hchars := hcompilable.isOperatorChar
    cases hoperator : test.operator.toList with
    | nil => exact absurd (String.toList_eq_nil_iff.mp hoperator) hne
    | cons c chars =>
        rw [hoperator] at hhead hchars
        have hc : c ≠ '-' := by simpa using hhead
        exact endsName_operatorChar (hchars c List.mem_cons_self) hc _

/-- The text of operator and value, if there is a value. -/
def AttributeTest.valueText (test : AttributeTest) : List Char :=
  match test.value with
  | none => []
  | some value => test.operatorText.toList ++ (Text.quoted value).toList

theorem scan_valueText {test : AttributeTest} (h : test.Legible) (hcompilable : test.Compilable)
    {rest : List Char} (hrest : endsName rest = true) :
    scan (test.valueText ++ rest) = test.shown.operator.toList.map .delim ++
        test.value.toList.map .string ++ scan rest ∧
      endsName (test.valueText ++ rest) = true := by
  cases hvalue : test.value with
  | none => simpa [AttributeTest.valueText, AttributeTest.shown, hvalue] using hrest
  | some value =>
      have hscan := h.scan_operatorText hcompilable (by simp [hvalue])
        (value.toList.flatMap Text.quoteChar ++ '"' :: rest)
      have hquoted := Token.scan_quoted rest (h.quoted_value value hvalue)
      have hliteral : '"' :: (value.toList.flatMap Text.quoteChar ++ '"' :: rest) =
          (Text.quoted value).toList ++ rest := by simp
      rw [hliteral, hquoted] at hscan
      simpa [AttributeTest.valueText, AttributeTest.shown, hvalue] using hscan

theorem scan_test {test : AttributeTest} (h : test.Legible) (hcompilable : test.Compilable)
    {rest : List Char} (hrest : test.closed = false → endsName rest = true) :
    scan (test.text.toList ++ rest) = test.textTokens ++ scan rest := by
  have hclosed : scan ((if test.closed then [']'] else []) ++ rest) =
      (if test.closed then [.delim ']'] else []) ++ scan rest ∧
      endsName ((if test.closed then [']'] else []) ++ rest) = true := by
    cases hclosed : test.closed with
    | true => exact ⟨Token.scan_delim (by decide) rest, rfl⟩
    | false => exact ⟨rfl, hrest hclosed⟩
  have htext : test.text.toList ++ rest = '[' :: ((test.name.getD "").toList ++
      (test.valueText ++ ((if test.closed then [']'] else []) ++ rest))) := by
    rw [AttributeTest.text, AttributeTest.valueText]
    cases test.value <;> cases test.closed <;> simp
  obtain ⟨hvalue, hends⟩ := scan_valueText h hcompilable hclosed.2
  have hname : ∀ behind, endsName behind = true →
      scan ((test.name.getD "").toList ++ behind) =
        test.name.toList.map .ident ++ scan behind := by
    intro behind hbehind
    cases hname : test.name with
    | none => rfl
    | some name =>
        have hscan := Token.scan_ident (h.isIdentifier_name name hname) hbehind
        simpa using hscan
  rw [htext, Token.scan_delim (by decide), hname _ hends, hvalue, hclosed.1,
    AttributeTest.textTokens]
  simp only [List.cons_append, List.append_assoc]

theorem scan_legible {simple : Simple} (h : simple.Legible) (hcompilable : simple.Compilable)
    {rest : List Char}
    (hrest : (simple.endsWithName || simple.isOpen) = true → endsName rest = true) :
    scan (simple.text.toList ++ rest) = simple.textTokens ++ scan rest := by
  cases simple with
  | all => exact Token.scan_delim (by decide) rest
  | byId id =>
      obtain ⟨hne, hchars⟩ := h
      have hname : id.toList ≠ [] := by simpa using hne
      have hscan := Token.scan_hash hname hchars (hrest rfl)
      simpa [Simple.text, Simple.textTokens, Simple.spelling] using hscan
  | byType name =>
      have hscan := Token.scan_ident h (hrest rfl)
      simpa [Simple.text, Simple.textTokens, Simple.spelling] using hscan
  | byAttribute test =>
      refine scan_test h hcompilable fun hopen => hrest ?_
      simp [Simple.isOpen, hopen]

/-- Behind a name stands no bare name, and behind an open bracket neither. -/
theorem Compound.Legible.chain {compound : Compound} (h : compound.Legible)
    (hcompilable : compound.Compilable) :
    compound.selectors.IsChain fun first second =>
      (first.endsWithName || first.isOpen) = true → second.isBare = false := by
  rw [List.isChain_iff_getElem]
  intro index hindex hends
  rcases (Bool.or_eq_true _ _).mp hends with hname | hopen
  · exact h.separable.getElem index hindex hname
  · have hleaves := hcompilable.compilable.continues.getElem index hindex hopen
    cases hsecond : compound.selectors[index + 1] with
    | byType name => simp [hsecond, Simple.leavesBracket] at hleaves
    | _ => rfl

theorem scan_legible_compound {compound : Compound} (h : compound.Legible)
    (hcompilable : compound.Compilable) {rest : List Char} (hrest : endsName rest = true) :
    scan (compound.text.toList ++ rest) =
      ((if compound.childOnly then [.delim '>', .whitespace] else []) ++
        compound.selectors.flatMap Simple.textTokens) ++ scan rest := by
  have hplain : ∀ simple ∈ compound.selectors, simple.Plain :=
    fun simple hsimple => (h.legible simple hsimple).plain
  have hscan : ∀ simple ∈ compound.selectors, ∀ behind,
      ((simple.endsWithName || simple.isOpen) = true → endsName behind = true) →
        scan (simple.text.toList ++ behind) = simple.textTokens ++ scan behind :=
    fun simple hsimple _ => scan_legible (h.legible simple hsimple)
      (hcompilable.compilable.compilable simple hsimple)
  have hselectors := scan_flatMap_text Simple.textTokens _ hplain hscan (h.chain hcompilable) hrest
  rw [scan_text_compound hcompilable.selectors_ne_nil hplain hselectors, List.append_assoc]

/-! ## Compiling the tokens -/

namespace Draft

/-- In an open bracket a name and a literal do the same. -/
theorem feedAll_textTokens (draft : Draft) (simple : Simple) :
    draft.feedAll simple.textTokens = draft.feedAll simple.shown.spelling := by
  cases simple with
  | byAttribute test =>
      have hname : draft.openBracket.feedAll (test.name.toList.map .ident) =
          draft.openBracket.feedAll (test.name.toList.map .string) := by
        cases test.name <;> rfl
      show draft.feedAll test.textTokens = draft.feedAll test.shown.spelling
      simp only [AttributeTest.textTokens, AttributeTest.spelling, feedAll_cons,
        feed_openBracket, feedAll_append, hname]
      rfl
  | _ => rfl

theorem feedAll_flatMap_textTokens (selectors : List Simple) (draft : Draft) :
    draft.feedAll (selectors.flatMap Simple.textTokens) =
      draft.feedAll ((selectors.map Simple.shown).flatMap Simple.spelling) := by
  induction selectors generalizing draft with
  | nil => rfl
  | cons first others ih =>
      rw [List.flatMap_cons, List.map_cons, List.flatMap_cons, feedAll_append, feedAll_append,
        feedAll_textTokens, ih]

/-- The blank behind `>` changes nothing, and the one behind a compound completes it. -/
theorem feedAll_text_compound (compound : Compound) {draft : Draft} (hidle : draft.Idle) :
    (draft.feedAll ((if compound.childOnly then [.delim '>', .whitespace] else []) ++
        compound.selectors.flatMap Simple.textTokens)).flush =
      draft.feedAll compound.shown.spelling := by
  obtain ⟨done, selectors, bracket, childOnly, notices⟩ := draft
  obtain ⟨rfl, rfl⟩ := hidle
  rw [Compound.spelling, feedAll_append, feedAll_append, feedAll_append,
    feedAll_flatMap_textTokens]
  cases hmark : compound.childOnly with
  | true =>
      simp only [Compound.shown, hmark, if_true]
      rfl
  | false =>
      simp only [Compound.shown, hmark]
      rfl

end Draft

/-- What a legible selector shows is what compiling its text yields. -/
theorem compounds_textOf {compounds : List Compound}
    (h : ∀ compound ∈ compounds, compound.Legible ∧ compound.Compilable) {draft : Draft}
    (hidle : draft.Idle) (hmark : draft.childOnly = false) :
    (draft.feedAll (scan (textOf compounds).toList)).finish.compounds =
      draft.done.toList ++ compounds.map Compound.shown := by
  -- Every compound is completed by the blank behind it, so that the draft is idle again.
  induction compounds generalizing draft with
  | nil =>
      have hempty := (Draft.conditions_eq_nil_iff draft).mpr hidle
      rw [show (textOf []).toList = [] from rfl, Token.scan_nil]
      simp [Draft.feed, Draft.finish, Draft.flush, hempty]
  | cons compound rest ih =>
      obtain ⟨hlegible, hcompilable⟩ := h compound List.mem_cons_self
      have hfed := Draft.feedAll_text_compound compound hidle
      obtain ⟨hdone, hnext, hunmarked⟩ :=
        Draft.feedAll_spelling_compound (Compound.compilable_shown hcompilable) hidle hmark
      cases rest with
      | nil =>
          have hend : endsName [] = true := rfl
          have hscan := scan_legible_compound hlegible hcompilable hend
          have htext : (textOf [compound]).toList = compound.text.toList ++ [] := by simp [textOf]
          rw [htext, hscan, Token.scan_nil, Draft.feedAll_append]
          show (Draft.flush _).done.toList = _
          rw [Draft.feedAll_cons, Draft.feedAll_nil, Draft.feed, hfed, hdone]
          simp
      | cons next rest =>
          have hrest : ∀ other ∈ next :: rest, other.Legible ∧ other.Compilable :=
            fun other hother => h other (List.mem_cons_of_mem compound hother)
          obtain ⟨hlegible', hcompilable'⟩ := hrest next List.mem_cons_self
          rw [scan_textOf_cons hcompilable'.selectors_ne_nil
              (fun simple hsimple => (hlegible'.legible simple hsimple).plain)
              fun _ => scan_legible_compound hlegible hcompilable,
            Draft.feedAll_append, Draft.feedAll_cons, Draft.feed, hfed, ih hrest hnext hunmarked,
            hdone]
          simp

/--
The text of a legible selector selects what the selector selects, in every graph and in the
same order.
-/
theorem select_textOf {raw : String} (h : ∀ compound ∈ (compile raw).compounds, compound.Legible)
    (graph : Graph) (start : NodeId) :
    (graph.select (textOf (compile raw).compounds) start).found =
      (graph.select raw start).found := by
  have hshown : (compile (textOf (compile raw).compounds)).compounds =
      (compile raw).compounds.map Compound.shown := by
    have hall : ∀ compound ∈ (compile raw).compounds, compound.Legible ∧ compound.Compilable :=
      fun compound hcompound => ⟨h compound hcompound, compilable_of_mem_compounds hcompound⟩
    exact compounds_textOf hall ⟨rfl, rfl⟩ rfl
  rw [Graph.found_select, Graph.found_select, hshown]
  exact graph.matching_map Compound.shown (fun _ => rfl) Compound.accepts_shown _ start

/-- Brackets that stay open, an operator that is none of the six, and one that is missing. -/
theorem select_textOf_open_brackets :
    let scene := (Scene.ofRoot (.ofType "root" "PAGE")).edited
      [.addContainer ((Node.ofType "k" "FRAME").withAttribute "label" (.text "x\"y")),
        .addLeaf ((Node.ofType "r" "RECT").withAttribute "c" (.text "v")), .append ⟨1⟩ ⟨2⟩,
        .append ⟨0⟩ ⟨1⟩]
    let raw := "*frame[label=-'x\\22y'#k > [c'v'"
    (∀ compound ∈ (compile raw).compounds, compound.Legible) ∧
      textOf (compile raw).compounds = "*frame[label=-\"x\\\"y\"#k > [c=\"v\"" ∧
      (scene.graph.select (textOf (compile raw).compounds) .root).found = [⟨2⟩] := by
  intro scene raw
  have hraw : (compile raw).compounds =
      [⟨[.all, .byType "frame", .byAttribute ⟨some "label", some "x\"y", "=-", false⟩, .byId "k"],
          false⟩,
        ⟨[.byAttribute ⟨some "c", some "v", "", false⟩], true⟩] := by decide +kernel
  have htest : ∀ name value operator : String, isIdentifier name.toList = true →
      (value.toList.all fun c => Text.quoteChar c == [c] || c == '"' || c == '\\') = true →
      operator.toList.head? ≠ some '-' →
      operator.toList.IsChain (fun first second => first = '-' → second ≠ '-') →
      AttributeTest.Legible ⟨some name, some value, operator, false⟩ := by
    intro name value operator hname hvalue hhead hchain
    refine ⟨?_, fun _ => hhead, fun _ => hchain, ?_⟩
    · intro other hother
      cases hother
      exact hname
    · intro other hother c hc
      cases hother
      simpa [or_assoc] using List.all_eq_true.mp hvalue c hc
  have hoperator : "=-".toList = ['=', '-'] := by decide
  have hlabel := htest "label" "x\"y" "=-" (by decide) (by decide +kernel) (by simp [hoperator])
    (by simp [hoperator])
  have hc := htest "c" "v" "" (by decide) (by decide +kernel) (by simp) (by simp)
  have hlegible : ∀ compound ∈ (compile raw).compounds, compound.Legible := by
    have hframe : isIdentifier "frame".toList = true := by decide
    rw [hraw]
    simp only [List.forall_mem_cons, List.not_mem_nil, false_implies, implies_true, and_true]
    refine ⟨⟨?_, by simp [Simple.Separable, Simple.endsWithName, Simple.isBare]⟩, ⟨?_, by simp⟩⟩
    · simp only [List.forall_mem_cons, List.not_mem_nil, false_implies, implies_true, and_true]
      exact ⟨trivial, hframe, hlabel, by decide, List.all_eq_true.mp (by decide)⟩
    · rw [List.forall_mem_singleton]
      exact hc
  have htext : textOf (compile raw).compounds = "*frame[label=-\"x\\\"y\"#k > [c=\"v\"" := by
    decide +kernel
  refine ⟨hlegible, htext, ?_⟩
  rw [select_textOf hlegible, Graph.found_select, hraw, Graph.matching_cons_eraseDups]
  decide +kernel

/-- An identifier with a space, and a value with a tabulation, are not read back. -/
theorem select_textOf_of_escape :
    let scene := (Scene.ofRoot (.ofType "root" "PAGE")).edited
      [.addLeaf (.ofType "a b" "RECT"), .append ⟨0⟩ ⟨1⟩,
        .addLeaf ((Node.ofType "t" "RECT").withAttribute "label" (.text "x\ty")), .append ⟨0⟩ ⟨2⟩]
    let spaced := "#a\\20 b"
    let tabbed := "[label=\"x\\9 y\"]"
    (scene.graph.select spaced .root).found = [⟨1⟩] ∧
      (scene.graph.select (textOf (compile spaced).compounds) .root).found = [] ∧
      (scene.graph.select tabbed .root).found = [⟨2⟩] ∧
      (scene.graph.select (textOf (compile tabbed).compounds) .root).found = [] := by
  intro scene spaced tabbed
  have hspaced : (compile spaced).compounds = [⟨[.byId "a b"], false⟩] := by decide +kernel
  have hspaced' : (compile "#a b").compounds = [⟨[.byId "a"], false⟩, ⟨[.byType "b"], false⟩] := by
    decide +kernel
  have htabbed : (compile tabbed).compounds =
      [⟨[.byAttribute ⟨some "label", some "x\ty", "=", true⟩], false⟩] := by decide +kernel
  have htabbed' : (compile "[label=\"x\\ty\"]").compounds =
      [⟨[.byAttribute ⟨some "label", some "xty", "=", true⟩], false⟩] := by decide +kernel
  have htexts : textOf (compile spaced).compounds = "#a b" ∧
      textOf (compile tabbed).compounds = "[label=\"x\\ty\"]" := by decide +kernel
  rw [htexts.1, htexts.2]
  simp only [Graph.found_select, hspaced, hspaced', htabbed, htabbed']
  refine ⟨?_, ?_, ?_, ?_⟩ <;> rw [Graph.matching_cons_eraseDups] <;> decide +kernel

end Scenery.Selector
