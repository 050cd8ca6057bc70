import Scenery.Proofs.Chunks
import Scenery.Proofs.Compilable
import Scenery.Proofs.Scanning

/-!
# Streams of tokens

The guard that sends a text to one of its readers makes sure that the reader
finds something, so no name and no numeral of a stream is empty, and what is
left for a delimiter could begin no other token.  A literal is broken off in
front of a line feed, which makes the next token a whitespace.  For the compiler
this means that no name it is given is empty, and that a broken literal ends the
compound under construction, with its bracket open if it is.
-/

namespace Scenery.Selector

namespace Token

/-- A name or numeral is not empty, and a delimiter could begin no other token. -/
def WellFormed : Token → Prop
  | ident name => name ≠ ""
  | hash name => name ≠ ""
  | function name => name ≠ ""
  | number numeral => numeral ≠ ""
  | delim c =>
    isBlank c = false ∧ c ≠ '"' ∧ c ≠ '\'' ∧ isDigit c = false ∧ isNameStart c = false
  | _ => True

end Token

/-! ## Every reader finds something -/

theorem Name.read_ne_nil {c : Char} {rest : List Char}
    (h : isNameChar c = true ∨ startsEscape (c :: rest) = true) :
    (Name.read (c :: rest)).1 ≠ [] := by
  unfold Name.read
  split
  · exact List.cons_ne_nil _ _
  · rename_i hchar
    rw [if_pos (h.resolve_left hchar)]
    exact List.cons_ne_nil _ _

theorem Name.read_ne_nil_of_startsName {cs : List Char} (h : startsName cs = true) :
    (Name.read cs).1 ≠ [] := by
  obtain ⟨c, rest, hcs, hfirst⟩ := exists_of_startsName h
  rw [hcs]
  exact Name.read_ne_nil hfirst

theorem Name.read_ne_nil_of_startsHash {cs : List Char} (h : startsHash cs = true) :
    (Name.read cs).1 ≠ [] := by
  cases cs with
  | nil => cases h
  | cons c rest => exact Name.read_ne_nil ((Bool.or_eq_true _ _).mp h)

/-- Only a line feed breaks a literal off, and it is left in the text. -/
theorem Literal.head?_of_read_eq_none {quote : Char} {cs : List Char}
    (h : (Literal.read quote cs).1 = none) : (Literal.read quote cs).2.head? = some '\n' := by
  fun_induction Literal.read quote cs with
  | case1 => cases h
  | case2 => cases h
  | case3 => rfl
  | case4 => cases h
  | case5 _ _ _ ih => exact ih h
  | case6 d behind _ text left hread _ _ ih =>
      rw [hread] at ih
      exact ih (Option.map_eq_none_iff.mp h)
  | case7 c rest _ _ _ text left hread ih =>
      rw [hread] at ih
      exact ih (Option.map_eq_none_iff.mp h)

namespace Token

/-! ## Single tokens -/

theorem ofList_ne_empty {cs : List Char} (h : cs ≠ []) : String.ofList cs ≠ "" := by
  intro hempty
  have hcs := congrArg String.toList hempty
  rw [String.toList_ofList] at hcs
  exact h hcs

theorem wellFormed_readNamed {cs : List Char} (h : startsName cs = true) :
    (readNamed cs).1.WellFormed := by
  have hname := Name.read_ne_nil_of_startsName h
  fun_cases readNamed cs with
  | case1 name left hread =>
      rw [hread] at hname
      exact ofList_ne_empty hname
  | case2 name left _ hread =>
      rw [hread] at hname
      exact ofList_ne_empty hname

theorem wellFormed_readNumber {cs : List Char} (h : startsNumber cs = true) :
    (readNumber cs).1.WellFormed := by
  have hnumeral := Numeral.read_ne_nil h
  fun_cases readNumber cs with
  | case1 numeral behind hread hname =>
      rw [hread] at hnumeral
      exact ofList_ne_empty (List.append_ne_nil_of_left_ne_nil hnumeral _)
  | case2 numeral left hread hname =>
      exact ofList_ne_empty (List.append_ne_nil_of_right_ne_nil numeral (List.cons_ne_nil _ _))
  | case3 numeral behind hread hname _ =>
      rw [hread] at hnumeral
      exact ofList_ne_empty hnumeral

theorem startsNumber_of_isDigit {c : Char} (h : isDigit c = true) (rest : List Char) :
    startsNumber (c :: rest) = true := by
  have hmark : ¬ (c = '+' ∨ c = '.' ∨ c = '-') := by
    rintro (rfl | rfl | rfl) <;> cases h
  rw [startsNumber_eq_isDigit hmark, h]

theorem startsName_of_isNameStart {c : Char} (h : isNameStart c = true) (rest : List Char) :
    startsName (c :: rest) = true := by
  have hhyphen : c ≠ '-' := ne_of_isNameStart h (by decide)
  simp [startsName, hhyphen, h]

/-- What no guard lets through to a reader is a delimiter. -/
theorem wellFormed_delim {c : Char} {rest : List Char} (hblank : ¬ isBlank c = true)
    (hquote : ¬ (c = '"' ∨ c = '\'')) (hnumber : ¬ startsNumber (c :: rest) = true)
    (hname : ¬ startsName (c :: rest) = true) : (delim c).WellFormed := by
  obtain ⟨hdouble, hsingle⟩ := not_or.mp hquote
  have hdigit : isDigit c = false := by
    rw [Bool.eq_false_iff]
    exact fun hdigit => hnumber (startsNumber_of_isDigit hdigit rest)
  have hstart : isNameStart c = false := by
    rw [Bool.eq_false_iff]
    exact fun hstart => hname (startsName_of_isNameStart hstart rest)
  exact ⟨Bool.eq_false_iff.mpr hblank, hdouble, hsingle, hdigit, hstart⟩

theorem wellFormed_readToken (c : Char) (rest : List Char) : (readToken c rest).1.WellFormed := by
  fun_cases readToken c rest with
  | case1 => trivial
  | case2 =>
      fun_cases readString c rest with
      | case1 => trivial
      | case2 => trivial
  | case3 _ _ hhash => exact ofList_ne_empty (Name.read_ne_nil_of_startsHash hhash.2)
  | case4 _ _ _ hnumber => exact wellFormed_readNumber hnumber
  | case5 _ _ _ _ hname => exact wellFormed_readNamed hname
  | case6 hblank hquote _ hnumber hname => exact wellFormed_delim hblank hquote hnumber hname

theorem head?_of_readString_eq_badString {quote : Char} {cs : List Char}
    (h : (readString quote cs).1 = badString) : (readString quote cs).2.head? = some '\n' := by
  revert h
  fun_cases readString quote cs with
  | case1 text left _ =>
      intro h
      cases h
  | case2 left hread =>
      intro _
      have hline := Literal.head?_of_read_eq_none (congrArg Prod.fst hread)
      rwa [hread] at hline

theorem readNumber_ne_badString (cs : List Char) : (readNumber cs).1 ≠ badString := by
  fun_cases readNumber cs <;> simp

theorem readNamed_ne_badString (cs : List Char) : (readNamed cs).1 ≠ badString := by
  fun_cases readNamed cs <;> simp

/-- A text that a broken literal leaves begins with a line feed. -/
theorem head?_of_readToken_eq_badString {c : Char} {rest : List Char}
    (h : (readToken c rest).1 = badString) : (readToken c rest).2.head? = some '\n' := by
  revert h
  fun_cases readToken c rest with
  | case1 => simp
  | case2 => exact head?_of_readString_eq_badString
  | case3 => simp
  | case4 =>
      intro h
      exact absurd h (readNumber_ne_badString (c :: rest))
  | case5 =>
      intro h
      exact absurd h (readNamed_ne_badString (c :: rest))
  | case6 => simp

/-! ## Whole streams -/

/-- What holds of the first token and of the text behind it, whatever comments stand before it. -/
theorem exists_readToken_of_next? {cs left : List Char} {token : Token}
    (h : next? cs = some (token, left)) :
    ∃ c rest, token = (readToken c rest).1 ∧ left = (readToken c rest).2 := by
  unfold next? at h
  split at h
  · cases h
  · rename_i c rest _
    have hread := Option.some.inj h
    exact ⟨c, rest, by rw [hread], by rw [hread]⟩

theorem wellFormed_of_mem_scan (cs : List Char) : ∀ token ∈ scan cs, token.WellFormed := by
  fun_induction scan cs with
  | case1 => simp [WellFormed]
  | case2 cs token left hnext ih =>
      obtain ⟨c, rest, htoken, -⟩ := exists_readToken_of_next? hnext
      rw [List.forall_mem_cons]
      exact ⟨htoken ▸ wellFormed_readToken c rest, ih⟩

/-- A stream cannot end with a broken literal, nor go on with anything but a whitespace. -/
theorem exists_of_scan_eq_append {cs : List Char} {before after : List Token}
    (h : scan cs = before ++ badString :: after) : ∃ rest, after = whitespace :: rest := by
  fun_induction scan cs generalizing before with
  | case1 =>
      have hmem : badString ∈ [eof] := by
        rw [h]
        simp
      simp at hmem
  | case2 cs token left hnext ih =>
      cases before with
      | cons first others => exact ih (List.cons.inj h).2
      | nil =>
          obtain ⟨htoken, hafter⟩ := List.cons.inj h
          obtain ⟨c, rest, hread, hleft⟩ := exists_readToken_of_next? hnext
          have hhead := head?_of_readToken_eq_badString (hread.symm.trans htoken)
          obtain ⟨behind, hbehind⟩ := List.head?_eq_some_iff.mp (hleft ▸ hhead)
          rw [← hafter, hbehind]
          exact ⟨_, scan_blank (by decide) behind⟩

end Token

/-! ## What compiling takes from a stream -/

/-- A condition that names something has the name from a token. -/
def Simple.DrawnFrom (tokens : List Token) : Simple → Prop
  | byId id => .hash id ∈ tokens
  | byType name => .ident name ∈ tokens
  | _ => True

namespace Draft

/-- All conditions that are complete or under construction are drawn from the tokens. -/
structure DrawnFrom (tokens : List Token) (draft : Draft) : Prop where
  done : ∀ compound ∈ draft.done, ∀ simple ∈ compound.selectors, simple.DrawnFrom tokens
  selectors : ∀ simple ∈ draft.selectors, simple.DrawnFrom tokens

variable {tokens : List Token} {draft : Draft}

theorem DrawnFrom.of_eq {other : Draft} (h : draft.DrawnFrom tokens)
    (hdone : other.done = draft.done) (hselectors : other.selectors = draft.selectors) :
    other.DrawnFrom tokens := by
  obtain ⟨hall, hconditions⟩ := h
  rw [← hdone] at hall
  rw [← hselectors] at hconditions
  exact ⟨hall, hconditions⟩

/-- The test of an open bracket names nothing, so it may stand behind the conditions. -/
theorem DrawnFrom.conditions (h : draft.DrawnFrom tokens) :
    ∀ simple ∈ draft.conditions, simple.DrawnFrom tokens := by
  intro simple hsimple
  rcases List.mem_append.mp hsimple with hmem | hmem
  · exact h.selectors simple hmem
  · obtain ⟨test, -, htest⟩ := Option.map_eq_some_iff.mp (Option.mem_toList.mp hmem)
    rw [← htest]
    trivial

theorem DrawnFrom.push (h : draft.DrawnFrom tokens) {simple : Simple}
    (hsimple : simple.DrawnFrom tokens) : (draft.push simple).DrawnFrom tokens where
  done := h.done
  selectors := List.forall_mem_append.mpr ⟨h.conditions, List.forall_mem_singleton.mpr hsimple⟩

theorem DrawnFrom.punctuation (h : draft.DrawnFrom tokens) (c : Char) :
    (draft.punctuation c).DrawnFrom tokens := by
  unfold Draft.punctuation
  split
  case h_2 => exact ⟨h.done, h.conditions⟩
  case h_3 => exact h.push trivial
  all_goals exact h.of_eq rfl rfl

theorem DrawnFrom.delim (h : draft.DrawnFrom tokens) (c : Char) :
    (draft.delim c).DrawnFrom tokens := by
  unfold Draft.delim
  split
  · split
    · exact ⟨h.done, List.forall_mem_append.mpr
        ⟨h.selectors, List.forall_mem_singleton.mpr trivial⟩⟩
    · split
      · exact h.of_eq rfl rfl
      · exact h.punctuation c
  · exact h.punctuation c

theorem DrawnFrom.flush (h : draft.DrawnFrom tokens) : draft.flush.DrawnFrom tokens := by
  unfold Draft.flush
  split
  · exact h
  · refine ⟨?_, List.forall_mem_nil _⟩
    intro compound hcompound
    rcases Array.mem_push.mp hcompound with hcompound | hcompound
    · exact h.done compound hcompound
    · rw [hcompound]
      exact h.conditions

theorem DrawnFrom.feed (h : draft.DrawnFrom tokens) {token : Token} (htoken : token ∈ tokens) :
    (draft.feed token).DrawnFrom tokens := by
  cases token with
  | whitespace => exact h.flush
  | delim c => exact h.delim c
  | ident name =>
      rw [Draft.feed]
      cases draft.bracket with
      | none => exact h.push htoken
      | some test => exact h.of_eq rfl rfl
  | hash id => exact h.push htoken
  | string text =>
      rw [Draft.feed]
      cases draft.bracket with
      | none => exact h.of_eq rfl rfl
      | some test => exact h.of_eq rfl rfl
  | badString => exact h.of_eq rfl rfl
  | number numeral => exact h.of_eq rfl rfl
  | function name => exact h.of_eq rfl rfl
  | eof => exact h

theorem DrawnFrom.feedAll (h : draft.DrawnFrom tokens) {more : List Token}
    (hmore : ∀ token ∈ more, token ∈ tokens) : (draft.feedAll more).DrawnFrom tokens := by
  induction more generalizing draft with
  | nil => exact h
  | cons token rest ih =>
      obtain ⟨htoken, hrest⟩ := List.forall_mem_cons.mp hmore
      exact ih (h.feed htoken) hrest

end Draft

/-- Compiling invents no names. -/
theorem drawnFrom_of_mem_compounds {tokens : List Token} {compound : Compound}
    (h : compound ∈ (compileTokens tokens).compounds) :
    ∀ simple ∈ compound.selectors, simple.DrawnFrom tokens := by
  have hempty : Draft.DrawnFrom tokens {} := ⟨by simp, by simp⟩
  have hmem : ∀ token ∈ tokens, token ∈ tokens := fun _ htoken => htoken
  have hfed := (hempty.feedAll hmem).flush
  exact hfed.done compound (by simpa [compileTokens, Draft.finish] using h)

namespace Draft

/-! ## What a whitespace completes -/

theorem done_prefix_flush (draft : Draft) : draft.done.toList <+: draft.flush.done.toList := by
  unfold flush
  split
  · exact List.prefix_rfl
  · rw [Array.toList_push]
    exact List.prefix_append _ _

theorem done_prefix_feed (draft : Draft) (token : Token) :
    draft.done.toList <+: (draft.feed token).done.toList := by
  by_cases hblank : token = .whitespace
  · rw [hblank]
    exact draft.done_prefix_flush
  · have hdone : (draft.feed token).done = draft.done := (draft.done_feed hblank).1
    exact hdone ▸ List.prefix_rfl

/-- What is complete stays as it is, whatever tokens come behind it. -/
theorem done_prefix_compounds (draft : Draft) (tokens : List Token) :
    draft.done.toList <+: (draft.feedAll tokens).finish.compounds := by
  induction tokens generalizing draft with
  | nil => exact draft.done_prefix_flush
  | cons token rest ih => exact (draft.done_prefix_feed token).trans (ih _)

/-- A broken literal changes nothing, and the whitespace behind it completes the compound. -/
theorem done_feedAll_badString {draft : Draft} (h : draft.conditions ≠ []) :
    (draft.feedAll [.badString, .whitespace]).done = draft.done.push draft.current := by
  show (draft.report _).flush.done = _
  rw [flush, if_neg]
  · rfl
  · rw [List.isEmpty_iff]
    exact h

end Draft

/--
Names and numerals of a text are not empty, its delimiters could begin no other token, and
behind a broken literal stands a whitespace.  So no condition that is compiled from a text
asks for an empty name, and a broken literal ends the compound under construction: this is
complete as it stands, and a bracket that is open in it, as its last condition, stays open.
-/
theorem compile_of_wellFormed_stream (text : String) :
    (∀ token ∈ Token.ofText text, token.WellFormed) ∧
      (∀ compound ∈ (compile text).compounds,
        .byId "" ∉ compound.selectors ∧ .byType "" ∉ compound.selectors) ∧
      ∀ before after, Token.ofText text = before ++ .badString :: after →
        (∃ rest, after = .whitespace :: rest) ∧
          let draft := Draft.feedAll {} before
          (draft.conditions ≠ [] →
            draft.done.toList ++ [draft.current] <+: (compile text).compounds) ∧
          ∀ test, draft.bracket = some test →
            draft.conditions.getLast? = some (.byAttribute test) ∧ test.closed = false := by
  have hwell := Token.wellFormed_of_mem_scan text.toList
  refine ⟨hwell, ?_, ?_⟩
  · intro compound hcompound
    have hdrawn := drawnFrom_of_mem_compounds hcompound
    exact ⟨fun hid => hwell _ (hdrawn _ hid) rfl, fun htype => hwell _ (hdrawn _ htype) rfl⟩
  · intro before after hstream
    obtain ⟨rest, hafter⟩ := Token.exists_of_scan_eq_append hstream
    refine ⟨⟨rest, hafter⟩, ?_, ?_⟩
    · intro hconditions
      have hprefix := Draft.done_prefix_compounds
        ((Draft.feedAll {} before).feedAll [.badString, .whitespace]) rest
      rw [Draft.done_feedAll_badString hconditions, Array.toList_push, ← Draft.feedAll_append,
        ← Draft.feedAll_append] at hprefix
      rwa [compile, compileTokens, hstream, hafter]
    · intro test hbracket
      have hshape := Draft.compilable_feedAll Draft.compilable_empty before
      refine ⟨?_, (Draft.compilable_test hshape hbracket).2⟩
      rw [Draft.conditions_eq_concat hbracket, List.getLast?_concat]

theorem compile_of_wellFormed_stream_open_bracket :
    let text := "> #\\31 [b='c\nd]"
    let before : List Token :=
      [.delim '>', .whitespace, .hash "1", .delim '[', .ident "b", .delim '=']
    let draft := Draft.feedAll {} before
    .hash "1" ∈ Token.ofText text ∧ (Token.hash "1").WellFormed ∧
      Token.ofText text = before ++ .badString :: [.whitespace, .ident "d", .delim ']', .eof] ∧
      draft.conditions ≠ [] ∧ draft.bracket = some ⟨some "b", none, "=", false⟩ ∧
      [⟨[.byId "1", .byAttribute ⟨some "b", none, "=", false⟩], true⟩] <+:
        (compile text).compounds := by
  intro text before draft
  have hstream : Token.ofText text =
      before ++ .badString :: [.whitespace, .ident "d", .delim ']', .eof] := by decide +kernel
  have hmem : .hash "1" ∈ Token.ofText text := by
    rw [hstream]
    decide
  have hconditions : draft.conditions ≠ [] := by decide
  have hbracket : draft.bracket = some ⟨some "b", none, "=", false⟩ := by decide
  obtain ⟨hwell, -, hbroken⟩ := compile_of_wellFormed_stream text
  obtain ⟨-, hcomplete, -⟩ := hbroken before _ hstream
  exact ⟨hmem, hwell _ hmem, hstream, hconditions, hbracket, hcomplete hconditions⟩

end Scenery.Selector
