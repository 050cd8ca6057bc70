import Scenery.Selector.Compile

/-!
# Compiling chunk by chunk

Whitespace cuts a list of tokens into chunks.  Each chunk is compiled as if it
stood alone, and yields one compound or none.  All that a chunk leaves behind is
a `>` that no compound has used yet: the next compound takes it.  The reason is
`feed_behind`: between two whitespaces a draft only adds to what was there when
the first of them was read.
-/

namespace Scenery.Selector

namespace Draft

/-- A draft on top of what was complete, pending and reported before it. -/
def behind (first second : Draft) : Draft where
  done := first.done ++ second.done
  selectors := second.selectors
  bracket := second.bracket
  childOnly := first.childOnly || second.childOnly
  notices := first.notices ++ second.notices

/-- No condition is under construction. -/
def Idle (draft : Draft) : Prop :=
  draft.selectors = [] ∧ draft.bracket = none

@[simp] theorem conditions_behind (first second : Draft) :
    (first.behind second).conditions = second.conditions := rfl

@[simp] theorem childOnly_behind (first second : Draft) :
    (first.behind second).childOnly = (first.childOnly || second.childOnly) := rfl

@[simp] theorem done_behind (first second : Draft) :
    (first.behind second).done = first.done ++ second.done := rfl

theorem behind_empty {draft : Draft} (h : draft.Idle) : draft.behind {} = draft := by
  obtain ⟨done, selectors, bracket, childOnly, notices⟩ := draft
  obtain ⟨rfl, rfl⟩ := h
  simp [behind]

theorem conditions_eq_nil_iff (draft : Draft) : draft.conditions = [] ↔ draft.Idle := by
  unfold conditions Idle
  cases draft.bracket <;> simp

/-! ## Tokens that are no whitespace -/

theorem punctuation_behind (first second : Draft) (c : Char) :
    (first.behind second).punctuation c = first.behind (second.punctuation c) := by
  unfold punctuation
  split <;> simp [behind, openBracket, push, unsupported, report, conditions]

theorem delim_behind (first second : Draft) (c : Char) :
    (first.behind second).delim c = first.behind (second.delim c) := by
  unfold delim
  have hbracket : (first.behind second).bracket = second.bracket := rfl
  rw [hbracket]
  cases second.bracket with
  | none => exact punctuation_behind first second c
  | some test =>
      by_cases hclose : c = ']'
      · simp only [hclose, if_true]
        rfl
      · by_cases hoperator : isOperatorChar c = true
        · simp only [hclose, hoperator, if_false, if_true]
          rfl
        · simp only [hclose, hoperator, if_false]
          exact punctuation_behind first second c

theorem addParameter_behind (first second : Draft) (test : AttributeTest) (parameter : String) :
    (first.behind second).addParameter test parameter =
      first.behind (second.addParameter test parameter) := by
  have hnotices : first.notices ++ second.notices ++ test.parameterNotices parameter =
      first.notices ++ (second.notices ++ test.parameterNotices parameter) := by
    apply Array.ext'
    simp
  simp [behind, addParameter, hnotices]

/-- Until the next whitespace nothing looks back. -/
theorem feed_behind (first second : Draft) {token : Token} (h : token ≠ .whitespace) :
    (first.behind second).feed token = first.behind (second.feed token) := by
  have hbracket : (first.behind second).bracket = second.bracket := rfl
  cases token with
  | whitespace => exact absurd rfl h
  | delim c => exact delim_behind first second c
  | ident name =>
      simp only [feed, hbracket]
      cases second.bracket with
      | none => simp [behind, push, conditions]
      | some test => exact addParameter_behind first second test name
  | hash id => simp [feed, behind, push, conditions]
  | string text =>
      simp only [feed, hbracket]
      cases second.bracket with
      | none => simp [behind, report]
      | some test => exact addParameter_behind first second test text
  | badString => simp [feed, behind, report]
  | number numeral => simp [feed, behind, report]
  | function name => simp [feed, behind, unsupported, report]
  | eof => rfl

theorem feedAll_behind (first second : Draft) {chunk : List Token} (h : .whitespace ∉ chunk) :
    (first.behind second).feedAll chunk = first.behind (second.feedAll chunk) := by
  induction chunk generalizing second with
  | nil => rfl
  | cons token rest ih =>
      rw [List.mem_cons, not_or] at h
      rw [feedAll_cons, feedAll_cons, feed_behind first second (Ne.symm h.1), ih _ h.2]

/-- Only `>` marks a compound, and between whitespaces no compound is completed. -/
theorem done_punctuation (draft : Draft) (c : Char) :
    (draft.punctuation c).done = draft.done ∧
      (draft.punctuation c).childOnly = (draft.childOnly || c == '>') := by
  unfold punctuation
  split <;> simp_all [openBracket, push, unsupported, report]

theorem done_delim (draft : Draft) (c : Char) :
    (draft.delim c).done = draft.done ∧
      (draft.delim c).childOnly = (draft.childOnly || c == '>') := by
  unfold delim
  cases draft.bracket with
  | none => exact done_punctuation draft c
  | some test =>
      by_cases hclose : c = ']'
      · simp [hclose, closeBracket]
      · by_cases hoperator : isOperatorChar c = true
        · have hmark : c ≠ '>' := by
            rintro rfl
            exact absurd hoperator (by decide)
          simp [hclose, hoperator, hmark]
        · simp only [hclose, hoperator, if_false]
          exact done_punctuation draft c

theorem done_feed (draft : Draft) {token : Token} (h : token ≠ .whitespace) :
    (draft.feed token).done = draft.done ∧
      (draft.feed token).childOnly = (draft.childOnly || token == .delim '>') := by
  cases token with
  | whitespace => exact absurd rfl h
  | delim c =>
      have hmark : (Token.delim c == .delim '>') = (c == '>') := by
        rw [Bool.eq_iff_iff]
        simp
      rw [hmark]
      exact done_delim draft c
  | ident name =>
      simp only [feed]
      cases draft.bracket <;> simp [push, addParameter]
  | hash id => simp [feed, push]
  | string text =>
      simp only [feed]
      cases draft.bracket <;> simp [report, addParameter]
  | badString => simp [feed, report]
  | number numeral => simp [feed, report]
  | function name => simp [feed, unsupported, report]
  | eof => simp [feed]

theorem done_feedAll (draft : Draft) {chunk : List Token} (h : .whitespace ∉ chunk) :
    (draft.feedAll chunk).done = draft.done ∧
      (draft.feedAll chunk).childOnly = (draft.childOnly || chunk.contains (.delim '>')) := by
  induction chunk generalizing draft with
  | nil => simp
  | cons token rest ih =>
      rw [List.mem_cons, not_or] at h
      obtain ⟨hdone, hmark⟩ := done_feed draft (Ne.symm h.1)
      obtain ⟨hrest, hmarks⟩ := ih (draft.feed token) h.2
      rw [feedAll_cons, hrest, hmarks, hdone, hmark, List.contains_cons, Bool.or_assoc]
      simp [Bool.beq_comm]

/-! ## A chunk after what came before -/

/-- What a chunk comes to: its conditions alone, marked by its own `>` or by one before it. -/
theorem flush_feedAll {draft : Draft} (hidle : draft.Idle) {chunk : List Token}
    (h : .whitespace ∉ chunk) :
    (draft.feedAll chunk).flush.Idle ∧
      match (compileTokens chunk).compounds with
      | [] =>
        (draft.feedAll chunk).flush.done = draft.done ∧
          (draft.feedAll chunk).flush.childOnly =
            (draft.childOnly || chunk.contains (.delim '>'))
      | compound :: others =>
        others = [] ∧
          (draft.feedAll chunk).flush.done = draft.done.push
            { compound with childOnly := draft.childOnly || chunk.contains (.delim '>') } ∧
          (draft.feedAll chunk).flush.childOnly = false := by
  obtain ⟨hdone, hmark⟩ := done_feedAll {} h
  -- The chunk is read as if alone, on top of the draft.
  have hsplit := feedAll_behind draft {} h
  rw [behind_empty hidle] at hsplit
  rw [hsplit]
  unfold compileTokens finish
  generalize feedAll {} chunk = alone at hdone hmark
  unfold flush
  rw [conditions_behind]
  by_cases hempty : alone.conditions = []
  · have halone := (conditions_eq_nil_iff alone).mp hempty
    have hnone : alone.done = #[] := hdone
    simpa [hempty, hnone, hmark, behind, Idle] using halone
  · have hnone : alone.done = #[] := hdone
    simp [hempty, hnone, hmark, Idle, current]

end Draft

/-! ## All chunks -/

/--
What chunks come to in order, and whether a `>` is left over.  A chunk that
yields nothing alone passes its `>` on; any other takes what was left over.
-/
def ofChunks : Bool → List (List Token) → List Compound × Bool
  | pending, [] => ([], pending)
  | pending, chunk :: rest =>
    let marked := pending || chunk.contains (.delim '>')
    match (compileTokens chunk).compounds with
    | [] => ofChunks marked rest
    | compound :: _ =>
      ({ compound with childOnly := marked } :: (ofChunks false rest).1, (ofChunks false rest).2)

theorem ofChunks_append (pending : Bool) (first second : List (List Token)) :
    ofChunks pending (first ++ second) =
      ((ofChunks pending first).1 ++ (ofChunks (ofChunks pending first).2 second).1,
        (ofChunks (ofChunks pending first).2 second).2) := by
  induction first generalizing pending with
  | nil => simp [ofChunks]
  | cons chunk rest ih =>
      simp only [List.cons_append, ofChunks]
      split
      · rw [ih]
      · rw [ih]
        rfl

/-- A `>` left over marks the next compound and no other. -/
theorem ofChunks_true (chunks : List (List Token)) :
    (ofChunks true chunks).1 =
      (ofChunks false chunks).1.modifyHead ({ · with childOnly := true }) := by
  induction chunks with
  | nil => rfl
  | cons chunk rest ih =>
      simp only [ofChunks, Bool.true_or, Bool.false_or]
      split
      · cases chunk.contains (.delim '>') with
        | true =>
            rw [ih]
            cases (ofChunks false rest).1 <;> rfl
        | false => exact ih
      · rfl

theorem compounds_feedAll {draft : Draft} (hidle : draft.Idle) (tokens : List Token) :
    (draft.feedAll tokens).finish.compounds =
      draft.done.toList ++ (ofChunks draft.childOnly (tokens.splitOn .whitespace)).1 := by
  by_cases hmem : .whitespace ∈ tokens
  · obtain ⟨chunk, rest, hsplit, hchunk⟩ := List.eq_append_cons_of_mem hmem
    subst hsplit
    obtain ⟨hnext, hcompounds⟩ := Draft.flush_feedAll hidle hchunk
    have hrest := compounds_feedAll hnext rest
    rw [Draft.feedAll_append, Draft.feedAll_cons]
    change ((draft.feedAll chunk).flush.feedAll rest).finish.compounds = _
    rw [hrest, List.splitOn_append_cons_self_of_not_mem hchunk, ofChunks]
    split at hcompounds
    · rw [hcompounds.1, hcompounds.2]
    · rw [hcompounds.2.1, hcompounds.2.2]
      simp
  · obtain ⟨-, hcompounds⟩ := Draft.flush_feedAll hidle hmem
    rw [List.splitOn_eq_singleton hmem, ofChunks]
    unfold Draft.finish
    split at hcompounds
    · simp [hcompounds.1, ofChunks]
    · simp [hcompounds.2.1, ofChunks]
  termination_by tokens.length
  decreasing_by
    simp only [hsplit, List.length_append, List.length_cons]
    omega

theorem not_mem_of_mem_splitOn {tokens chunk : List Token}
    (h : chunk ∈ tokens.splitOn .whitespace) : .whitespace ∉ chunk := by
  by_cases hmem : .whitespace ∈ tokens
  · obtain ⟨front, rest, hsplit, hfront⟩ := List.eq_append_cons_of_mem hmem
    rw [hsplit, List.splitOn_append_cons_self_of_not_mem hfront] at h
    rcases List.mem_cons.mp h with rfl | h
    · exact hfront
    · exact not_mem_of_mem_splitOn h
  · rw [List.splitOn_eq_singleton hmem, List.mem_singleton] at h
    rw [h]
    exact hmem
  termination_by tokens.length
  decreasing_by
    simp only [hsplit, List.length_append, List.length_cons]
    omega

theorem compounds_eq_ofChunks (tokens : List Token) :
    (compileTokens tokens).compounds = (ofChunks false (tokens.splitOn .whitespace)).1 :=
  compounds_feedAll ⟨rfl, rfl⟩ tokens

theorem length_compounds_le_one {chunk : List Token} (h : .whitespace ∉ chunk) :
    (compileTokens chunk).compounds.length ≤ 1 := by
  obtain ⟨-, hcompounds⟩ := Draft.flush_feedAll (⟨rfl, rfl⟩ : Draft.Idle {}) h
  split at hcompounds
  · rename_i halone
    simp [halone]
  · rename_i halone
    simp [halone, hcompounds.1]

/--
A list of tokens is compiled chunk by chunk.  Each chunk yields at most one
compound, and what stands behind a whitespace is compiled as if nothing stood
before it, but that a `>` left over marks its first compound.
-/
theorem compileTokens_by_chunks (tokens : List Token) :
    (compileTokens tokens).compounds = (ofChunks false (tokens.splitOn .whitespace)).1 ∧
      (∀ chunk ∈ tokens.splitOn .whitespace, (compileTokens chunk).compounds.length ≤ 1) ∧
      ∀ before after,
        (compileTokens (before ++ .whitespace :: after)).compounds =
          (compileTokens before).compounds ++
            if (ofChunks false (before.splitOn .whitespace)).2 then
              (compileTokens after).compounds.modifyHead ({ · with childOnly := true })
            else (compileTokens after).compounds := by
  refine ⟨compounds_eq_ofChunks tokens, ?_, ?_⟩
  · intro chunk hchunk
    exact length_compounds_le_one (not_mem_of_mem_splitOn hchunk)
  · intro before after
    simp only [compounds_eq_ofChunks]
    rw [List.splitOn_append_cons_self, ofChunks_append]
    cases (ofChunks false (before.splitOn .whitespace)).2 with
    | true => simp [ofChunks_true]
    | false => simp

/--
The bracket of the first chunk stays open.  The second chunk yields nothing and leaves a `>` over,
which passes by the third and marks the compound of the fourth, but not that of the fifth.
-/
theorem open_bracket_by_chunks :
    let opened : List Token := [.delim '[', .ident "a", .delim '>']
    let before := opened ++ [.whitespace, .delim '=', .delim '>']
    let after : List Token := [.delim ']', .whitespace, .ident "b", .whitespace, .delim '*']
    let tokens := before ++ .whitespace :: after
    (compileTokens tokens).compounds =
        [⟨[.byAttribute { name := some "a" }], true⟩, ⟨[.byType "b"], true⟩, ⟨[.all], false⟩] ∧
      opened ∈ tokens.splitOn .whitespace ∧ (compileTokens opened).compounds.length ≤ 1 ∧
      (ofChunks false (before.splitOn .whitespace)).2 = true ∧
      (compileTokens after).compounds = [⟨[.byType "b"], false⟩, ⟨[.all], false⟩] ∧
      (compileTokens tokens).compounds =
        (compileTokens before).compounds ++ [⟨[.byType "b"], true⟩, ⟨[.all], false⟩] := by
  intro opened before after tokens
  obtain ⟨hchunks, hone, hbehind⟩ := compileTokens_by_chunks tokens
  have hmem : opened ∈ tokens.splitOn .whitespace := by decide
  have hover : (ofChunks false (before.splitOn .whitespace)).2 = true := by decide +kernel
  have hafter : (compileTokens after).compounds = [⟨[.byType "b"], false⟩, ⟨[.all], false⟩] := by
    decide +kernel
  have hmarked := hbehind before after
  rw [if_pos hover, hafter] at hmarked
  exact ⟨hchunks.trans (by decide +kernel), hmem, hone opened hmem, hover, hafter, hmarked⟩

end Scenery.Selector
