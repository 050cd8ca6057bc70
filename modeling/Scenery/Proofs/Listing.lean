import Scenery.Cli.Outcome
import Scenery.Proofs.Selecting

/-!
# Lines of a listing

A listing in text form prints every found node with a line break behind it.  Styles and
numbers hold no line break, but the texts of a node are printed as they are.  So the
lines are the found nodes, one by one, if and only if no identifier, no tag, no name and
no text of an attribute holds a line break; otherwise there are more lines than nodes.
-/

namespace Scenery

/-! ## Lines -/

namespace Text

/-- Put a character in front of the first line. -/
def prependChar (c : Char) : List (List Char) → List (List Char)
  | [] => [[c]]
  | line :: others => (c :: line) :: others

/-- The lines of a text: a line break ends its line, and so does the end of the text. -/
def lines : List Char → List (List Char)
  | [] => []
  | c :: rest => if c = '\n' then [] :: lines rest else prependChar c (lines rest)

theorem lines_break (rest : List Char) : lines ('\n' :: rest) = [] :: lines rest := by
  rw [lines, if_pos rfl]

theorem lines_cons_of_ne {c : Char} (h : c ≠ '\n') (rest : List Char) :
    lines (c :: rest) = prependChar c (lines rest) := by
  rw [lines, if_neg h]

theorem lines_append_break_ne_nil (front : List Char) : lines (front ++ ['\n']) ≠ [] := by
  cases front with
  | nil => simp [lines]
  | cons c rest =>
      rw [List.cons_append, lines]
      split
      · exact List.cons_ne_nil _ _
      · cases lines (rest ++ ['\n']) <;> exact List.cons_ne_nil _ _

/-- Behind a line break the lines begin anew. -/
theorem lines_append_break (front rest : List Char) :
    lines (front ++ '\n' :: rest) = lines (front ++ ['\n']) ++ lines rest := by
  induction front with
  | nil => simp [lines]
  | cons c front ih =>
      rw [List.cons_append, List.cons_append]
      by_cases hc : c = '\n'
      · rw [hc, lines_break, lines_break, ih, List.cons_append]
      · rw [lines_cons_of_ne hc, lines_cons_of_ne hc, ih]
        cases hfront : lines (front ++ ['\n']) with
        | nil => exact absurd hfront (lines_append_break_ne_nil front)
        | cons line others => rfl

theorem lines_of_not_mem {line : List Char} (h : '\n' ∉ line) :
    lines (line ++ ['\n']) = [line] := by
  induction line with
  | nil => rfl
  | cons c rest ih =>
      obtain ⟨hc, hrest⟩ := not_or.mp (List.mem_cons.not.mp h)
      rw [List.cons_append, lines_cons_of_ne (Ne.symm hc), ih hrest]
      rfl

/-- There are as many lines as line breaks. -/
theorem length_lines (front : List Char) :
    (lines (front ++ ['\n'])).length = front.count '\n' + 1 := by
  induction front with
  | nil => rfl
  | cons c rest ih =>
      rw [List.cons_append]
      by_cases hc : c = '\n'
      · rw [hc, lines_break, List.length_cons, ih, List.count_cons_self]
      · rw [lines_cons_of_ne hc, List.count_cons_of_ne hc, ← ih]
        cases hrest : lines (rest ++ ['\n']) with
        | nil => exact absurd hrest (lines_append_break_ne_nil rest)
        | cons line others => rfl

theorem lines_flatMap (texts : List (List Char)) :
    lines (texts.flatMap (· ++ ['\n'])) = texts.flatMap fun text => lines (text ++ ['\n']) := by
  induction texts with
  | nil => rfl
  | cons text rest ih =>
      rw [List.flatMap_cons, List.flatMap_cons, List.append_assoc, List.singleton_append,
        lines_append_break, ih]

/-- A line break in one of the texts makes more lines than there are texts. -/
theorem length_lines_flatMap_iff (texts : List (List Char)) :
    (lines (texts.flatMap (· ++ ['\n']))).length = texts.length ↔ ∀ text ∈ texts, '\n' ∉ text := by
  have hlength : (lines (texts.flatMap (· ++ ['\n']))).length =
      texts.length + (texts.map (List.count '\n')).sum := by
    rw [lines_flatMap]
    induction texts with
    | nil => rfl
    | cons text rest ih =>
        rw [List.flatMap_cons, List.length_append, length_lines, ih, List.length_cons,
          List.map_cons, List.sum_cons]
        omega
  rw [hlength, Nat.add_eq_left, List.sum_eq_zero_iff_forall_eq_nat]
  simp [List.count_eq_zero]

/-- The lines are the texts if and only if none of them holds a line break. -/
theorem lines_flatMap_eq_iff (texts : List (List Char)) :
    lines (texts.flatMap (· ++ ['\n'])) = texts ↔ ∀ text ∈ texts, '\n' ∉ text := by
  constructor
  · intro hlines
    rw [← length_lines_flatMap_iff, hlines]
  · intro hnone
    rw [lines_flatMap]
    have hsingle : ∀ text ∈ texts, lines (text ++ ['\n']) = [text] :=
      fun text htext => lines_of_not_mem (hnone text htext)
    rw [List.flatMap_congr hsingle, List.flatMap_singleton']

end Text

/-! ## What a node prints -/

namespace Decimal.Layout

theorem break_not_mem_toDigits (n : Nat) : '\n' ∉ Nat.toDigits 10 n := by
  intro hmem
  have hdigit := Nat.isDigit_of_mem_toDigits (by decide) (by decide) hmem
  exact absurd hdigit (by decide)

theorem break_not_mem_positional (layout : Layout) {digits : List Char} (h : '\n' ∉ digits)
    (exponent : Int) : '\n' ∉ layout.positional digits exponent := by
  have htake : ∀ count, '\n' ∉ digits.take count := fun _ hmem => h (List.mem_of_mem_take hmem)
  have hdrop : ∀ count, '\n' ∉ digits.drop count := fun _ hmem => h (List.mem_of_mem_drop hmem)
  simp only [positional]
  split
  · cases layout.pointZero <;> simp [h]
  · split
    · simp [htake, hdrop]
    · simp [h]

theorem break_not_mem_scientific {digits : List Char} (h : '\n' ∉ digits) (lead : Int) :
    '\n' ∉ scientific digits lead := by
  have hexponent : '\n' ∉ (if lead < 0 then '-' else '+') :: Nat.toDigits 10 lead.natAbs := by
    split <;> simp [break_not_mem_toDigits]
  simp only [scientific]
  generalize (if lead < 0 then '-' else '+') :: Nat.toDigits 10 lead.natAbs = exponent at hexponent
  match digits with
  | [] => simp [hexponent]
  | [digit] => simpa [hexponent] using h
  | digit :: second :: others => simpa [hexponent] using h

theorem break_not_mem_magnitude (layout : Layout) (x : Float) : '\n' ∉ layout.magnitude x := by
  simp only [magnitude, decimal]
  split
  · exact layout.break_not_mem_positional (by decide) _
  · split
    · exact layout.break_not_mem_positional (break_not_mem_toDigits _) _
    · exact break_not_mem_scientific (break_not_mem_toDigits _) _

end Decimal.Layout

/-- Of the values only texts print line breaks. -/
theorem Value.break_mem_display_iff (value : Value) :
    '\n' ∈ value.display.toList ↔ ∃ content, value = .text content ∧ '\n' ∈ content.toList := by
  cases value with
  | bool flag => cases flag <;> simp [display]
  | number x =>
      have hmagnitude := numberLayout.break_not_mem_magnitude x
      simp only [display, Decimal.Layout.render, reduceCtorEq, false_and, exists_false, iff_false]
      split
      · decide
      · split
        · split <;> decide
        · split <;> simp [hmagnitude]
  | text content => simp [display]
  | null => simp [display]

namespace Cli

/-- A style prints no line break of its own. -/
theorem Style.break_mem_paint_iff (style : Style) (text : String) :
    '\n' ∈ (style.paint text).toList ↔ '\n' ∈ text.toList := by
  cases style <;> simp [paint, sequence, on, off]

end Cli

/-- No text of the node holds a line break. -/
structure Node.Unbroken (node : Node) : Prop where
  id : '\n' ∉ node.id.toList
  tag : '\n' ∉ node.tag.toList
  name : ∀ entry ∈ node.attributes.entries, '\n' ∉ entry.1.toList
  value : ∀ entry ∈ node.attributes.entries, ∀ content,
    entry.2 = .text content → '\n' ∉ content.toList

namespace Cli

/-- A printed node is one line if none of its texts holds a line break, and only then. -/
theorem break_not_mem_describe_iff (node : Node) :
    '\n' ∉ (describe node).toList ↔ node.Unbroken := by
  have hattributes : '\n' ∉ (String.join (node.attributes.entries.map fun entry =>
      " " ++ Style.dimmed.paint entry.1 ++ "=" ++ entry.2.display)).toList ↔
      ∀ entry ∈ node.attributes.entries, '\n' ∉ entry.1.toList ∧
        ∀ content, entry.2 = .text content → '\n' ∉ content.toList := by
    simp [String.toList_join, Style.break_mem_paint_iff, Value.break_mem_display_iff]
  have hdescribe : '\n' ∉ (describe node).toList ↔
      '\n' ∉ node.tag.toList ∧ '\n' ∉ node.id.toList ∧
        '\n' ∉ (String.join (node.attributes.entries.map fun entry =>
          " " ++ Style.dimmed.paint entry.1 ++ "=" ++ entry.2.display)).toList := by
    simp [describe, Style.break_mem_paint_iff]
  rw [hdescribe, hattributes]
  constructor
  · intro hnone
    obtain ⟨htag, hid, hentries⟩ := hnone
    exact ⟨hid, htag, fun entry hentry => (hentries entry hentry).1,
      fun entry hentry => (hentries entry hentry).2⟩
  · intro hnode
    exact ⟨hnode.tag, hnode.id, fun entry hentry => ⟨hnode.name entry hentry,
      hnode.value entry hentry⟩⟩

theorem toList_listing (nodes : List Node) :
    (listing .text nodes).toList =
      (nodes.map fun node => (describe node).toList).flatMap (· ++ ['\n']) := by
  simp [listing, String.toList_join, List.flatMap_map]

end Cli

/-! ## What a query prints -/

theorem Scene.exists_node_of_mem_matching {scene : Scene} {compounds : List Selector.Compound}
    {start id : NodeId} (h : id ∈ scene.graph.matching compounds start) :
    ∃ node, scene.node? id = some node := by
  rcases List.eq_nil_or_concat compounds with hnil | ⟨front, last, hconcat⟩
  · rw [hnil, Graph.matching_nil] at h
    cases h
  · rw [hconcat, List.concat_eq_append, Graph.matching_concat, Graph.mem_narrow_iff] at h
    obtain ⟨around, -, hcandidate⟩ := h
    rw [candidates_eq, List.mem_filter] at hcandidate
    obtain ⟨node, hnode, -⟩ := (Option.any_eq_true ..).mp hcandidate.2
    exact ⟨node, hnode⟩

namespace Cli

theorem exists_explanation_eq (compounds : List Selector.Compound) :
    ∃ front, (explanation compounds).toList = front ++ ['\n'] :=
  ⟨_, String.toList_append⟩

namespace Query

theorem map_node?_eq {scene : Scene} {found : List NodeId}
    (h : ∀ id ∈ found, ∃ node, scene.node? id = some node) :
    found.map scene.node? = (nodesOf scene found).map some := by
  rw [nodesOf, List.map_filterMap_some_eq_filter_map_isSome, eq_comm, List.filter_eq_self]
  intro entry hentry
  obtain ⟨id, hid, rfl⟩ := List.mem_map.mp hentry
  obtain ⟨node, hnode⟩ := h id hid
  rw [hnode]
  rfl

theorem exists_load_of_map_eq {source : Source} {content : Scene.Content} {see : Scene → α}
    {seen : α} (h : (source.load content).2.toOption.map see = some seen) :
    ∃ notices scene, source.load content = (notices, .ok scene) ∧ see scene = seen := by
  obtain ⟨scene, hscene, hsee⟩ := Option.map_eq_some_iff.mp h
  cases hload : source.load content with
  | mk notices result =>
      rw [hload] at hscene
      cases result with
      | error failure => cases hscene
      | ok loaded =>
          cases hscene
          exact ⟨notices, scene, rfl, hsee⟩

theorem outcome_eq_outcomeIn {query : Query} {content : Scene.Content} {notices : List Notice}
    {scene : Scene} (h : query.source.load content = (notices, .ok scene)) :
    query.outcome content = query.outcomeIn scene notices := by
  simp only [outcome, h]

theorem code_outcomeIn (query : Query) (scene : Scene) (loading : List Notice) :
    (query.outcomeIn scene loading).code = 0 := rfl

/-- The lines that explain the selector, if that was asked for. -/
def explainedLines (query : Query) : List (List Char) :=
  if query.explain then
    Text.lines (explanation (Selector.compile query.selector).compounds).toList
  else []

/-- In text form the lines of the found nodes stand behind those that explain the selector. -/
theorem lines_outcomeIn (query : Query) (scene : Scene) (loading : List Notice)
    (hformat : query.format = .text) :
    Text.lines (query.outcomeIn scene loading).output.toList =
      query.explainedLines ++ Text.lines (listing .text (nodesOf scene
        (scene.graph.matching (Selector.compile query.selector).compounds .root))).toList := by
  obtain ⟨front, hfront⟩ := exists_explanation_eq (Selector.compile query.selector).compounds
  simp only [outcomeIn, explainedLines, hformat, String.toList_append, Graph.selection]
  cases query.explain with
  | false =>
      simp only [Bool.false_eq_true, if_false, String.toList_empty, List.nil_append]
  | true =>
      rw [if_pos rfl, if_pos rfl, hfront, List.append_assoc, List.singleton_append,
        Text.lines_append_break]

/--
In text form a query prints the found nodes in order, one a line, if and only if no text of a
found node holds a line break, and only then as many lines as there are found nodes.
-/
theorem lines_outcome_eq_iff (query : Query) (content : Scene.Content) {notices : List Notice}
    {scene : Scene} (hload : query.source.load content = (notices, .ok scene))
    (hformat : query.format = .text) :
    let found := scene.graph.matching (Selector.compile query.selector).compounds .root
    let printed := Text.lines (query.outcome content).output.toList
    ∃ nodes : List Node, found.map scene.node? = nodes.map some ∧ (query.outcome content).code = 0 ∧
      (printed = query.explainedLines ++ nodes.map (fun node => (describe node).toList) ↔
        ∀ node ∈ nodes, node.Unbroken) ∧
      (printed.length = query.explainedLines.length + found.length ↔
        ∀ node ∈ nodes, node.Unbroken) := by
  intro found printed
  have houtcome := outcome_eq_outcomeIn hload
  have hnodes : found.map scene.node? = (nodesOf scene found).map some :=
    map_node?_eq fun id hid => Scene.exists_node_of_mem_matching hid
  have hprinted : printed = query.explainedLines ++
      Text.lines (((nodesOf scene found).map fun node => (describe node).toList).flatMap
        (· ++ ['\n'])) := by
    rw [← toList_listing, ← query.lines_outcomeIn scene notices hformat, ← houtcome]
  have hunbroken : (∀ text ∈ (nodesOf scene found).map fun node => (describe node).toList,
      '\n' ∉ text) ↔ ∀ node ∈ nodesOf scene found, node.Unbroken := by
    simp only [List.forall_mem_map, break_not_mem_describe_iff]
  refine ⟨nodesOf scene found, hnodes, by rw [houtcome, code_outcomeIn], ?_, ?_⟩
  · rw [hprinted, List.append_cancel_left_eq, Text.lines_flatMap_eq_iff, hunbroken]
  · have hcount : found.length =
        ((nodesOf scene found).map fun node => (describe node).toList).length := by
      have hlength := congrArg List.length hnodes
      simp only [List.length_map] at hlength ⊢
      exact hlength
    rw [hprinted, List.length_append, Nat.add_left_cancel_iff, hcount,
      Text.length_lines_flatMap_iff, hunbroken]

theorem compounds_compile_rect :
    (Selector.compile "rect").compounds = [⟨[.byType "rect"], false⟩] := by
  decide +kernel

theorem lines_outcome_of_plain_scene :
    let text := "\x7b\"id\":\"p\",\"type\":\"PAGE\",\"children\":[" ++
      "\x7b\"id\":\"a\",\"type\":\"RECT\",\"fill\":\"red\"\x7d," ++
      "\x7b\"id\":\"b\",\"type\":\"RECT\"\x7d]\x7d"
    let query : Query := { selector := "rect", source := .inline text, explain := true }
    ∃ notices scene, query.source.load (.error "") = (notices, .ok scene) ∧ query.format = .text ∧
      (Text.lines (query.outcome (.error "")).output.toList).length =
        query.explainedLines.length + 2 := by
  intro text query
  have hscene : (query.source.load (.error "")).2.toOption.map (fun scene =>
      (([NodeId.root].flatMap (scene.graph.candidates ⟨[.byType "rect"], false⟩)).eraseDups,
        ([⟨1⟩, ⟨2⟩].map scene.node?).map (Option.map fun node =>
          (describe node).toList.count '\n'))) = some ([⟨1⟩, ⟨2⟩], [some 0, some 0]) := by
    decide +kernel
  obtain ⟨notices, scene, hload, hseen⟩ := exists_load_of_map_eq hscene
  have hfound : scene.graph.matching (Selector.compile query.selector).compounds .root =
      [⟨1⟩, ⟨2⟩] := by
    rw [compounds_compile_rect, Graph.matching_cons_eraseDups]
    exact congrArg Prod.fst hseen
  obtain ⟨nodes, hnodes, -, -, hcount⟩ := lines_outcome_eq_iff query (.error "") hload rfl
  rw [hfound] at hnodes hcount
  have hbreaks : (nodes.map some).map (Option.map fun node =>
      (describe node).toList.count '\n') = [some 0, some 0] := by
    rw [← hnodes]
    exact congrArg Prod.snd hseen
  refine ⟨notices, scene, hload, rfl, hcount.mpr ?_⟩
  intro node hnode
  have hnone := List.mem_map_of_mem (f := Option.map fun node =>
    (describe node).toList.count '\n') (List.mem_map_of_mem (f := some) hnode)
  rw [hbreaks] at hnone
  rw [← break_not_mem_describe_iff, ← List.count_eq_zero]
  simpa using hnone

/-- The one found node has a line break in its identifier and is printed on two lines. -/
theorem two_lines_of_broken_id :
    let text := "\x7b\"id\":\"p\",\"type\":\"PAGE\",\"children\":[" ++
      "\x7b\"id\":\"a\\nb\",\"type\":\"RECT\"\x7d]\x7d"
    let query : Query := { selector := "rect", source := .inline text }
    ∃ notices scene, query.source.load (.error "") = (notices, .ok scene) ∧ query.format = .text ∧
      scene.graph.matching (Selector.compile query.selector).compounds .root = [⟨1⟩] ∧
      (query.outcome (.error "")).code = 0 ∧
      (Text.lines (query.outcome (.error "")).output.toList).length = 2 := by
  intro text query
  have hscene : (query.source.load (.error "")).2.toOption.map (fun scene =>
      (([NodeId.root].flatMap (scene.graph.candidates ⟨[.byType "rect"], false⟩)).eraseDups,
        (Text.lines (listing .text (nodesOf scene [⟨1⟩])).toList).length)) = some ([⟨1⟩], 2) := by
    decide +kernel
  obtain ⟨notices, scene, hload, hseen⟩ := exists_load_of_map_eq hscene
  have hfound : scene.graph.matching (Selector.compile query.selector).compounds .root = [⟨1⟩] := by
    rw [compounds_compile_rect, Graph.matching_cons_eraseDups]
    exact congrArg Prod.fst hseen
  have hlines := query.lines_outcomeIn scene notices rfl
  rw [hfound, ← outcome_eq_outcomeIn hload] at hlines
  refine ⟨notices, scene, hload, rfl, hfound, ?_, ?_⟩
  · rw [outcome_eq_outcomeIn hload, code_outcomeIn]
  · rw [hlines]
    exact congrArg Prod.snd hseen

end Query

end Cli

end Scenery
