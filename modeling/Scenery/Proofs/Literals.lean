import Scenery.Proofs.Escaping

/-!
# What stands between quotes

Every text can be written as a literal in many ways: a character stands for itself,
behind a backslash, or by its number, and between characters lines can be joined.
All of them are read as the text, with or without the quote at the end.  A line feed
breaks a literal off, unless it stands behind a backslash or ends a number; what
stands before it then is described by `Within`, and nothing else breaks a literal off.
-/

namespace Scenery.Selector

namespace Literal

/-- The ways to write one character of a literal: as it is, or by an escape as in a name. -/
inductive Writes (quote : Char) : Char → List Char → Prop where
  | plain {c : Char} (hquote : c ≠ quote) (hslash : c ≠ '\\') (hline : c ≠ '\n') :
    Writes quote c [c]
  | escape {c : Char} {behind : List Char} (h : Selector.Writes c ('\\' :: behind)) :
    Writes quote c ('\\' :: behind)

/-- A text and what stands for it between quotes, with lines joined anywhere between characters. -/
inductive Spells (quote : Char) : List Char → List Char → Prop where
  | nil : Spells quote [] []
  | cons {c : Char} {text piece body : List Char} (first : Writes quote c piece)
      (rest : Spells quote text body) : Spells quote (c :: text) (piece ++ body)
  | join {text body : List Char} (rest : Spells quote text body) :
    Spells quote text ('\\' :: '\n' :: body)

/--
What may stand between the opening quote and a line feed that breaks the literal off: no
quote and no line feed but behind a backslash or, of blanks, as the end of a number.
-/
inductive Within (quote : Char) : List Char → Prop where
  | nil : Within quote []
  | plain {c : Char} {body : List Char} (hquote : c ≠ quote) (hslash : c ≠ '\\') (hline : c ≠ '\n')
      (rest : Within quote body) : Within quote (c :: body)
  | join {body : List Char} (rest : Within quote body) : Within quote ('\\' :: '\n' :: body)
  | escaped {c : Char} {body : List Char} (hhex : isHexDigit c = false) (hline : c ≠ '\n')
      (rest : Within quote body) : Within quote ('\\' :: c :: body)
  /-- A number with the blank that ends it. -/
  | numbered {digits body : List Char} {blank : Char} (hne : digits ≠ [])
      (hlength : digits.length ≤ 6) (hhex : ∀ d ∈ digits, isHexDigit d = true)
      (hblank : isBlank blank = true) (rest : Within quote body) : Within quote ('\\' :: (digits ++ blank :: body))
  /-- A number that ends at its sixth digit or before a character that is no digit. -/
  | unspaced {c : Char} {digits body : List Char} (hne : digits ≠ []) (hlength : digits.length ≤ 6)
      (hhex : ∀ d ∈ digits, isHexDigit d = true) (hblank : isBlank c = false)
      (hends : digits.length = 6 ∨ isHexDigit c = false) (rest : Within quote (c :: body)) :
    Within quote ('\\' :: (digits ++ c :: body))

variable {quote : Char}

/-! ## Reading a spelling -/

/-- No character of a spelling is taken for a part of the one before it. -/
theorem read_of_writes (hquote : quote ≠ '\\') {c : Char} {piece : List Char}
    (h : Writes quote c piece) (rest : List Char) :
    read quote (piece ++ rest) = ((read quote rest).1.map (c :: ·), (read quote rest).2) := by
  cases h with
  | plain hne hslash hline => exact read_cons_of_ne hne hline hslash rest
  | escape h =>
      obtain ⟨d, behind, rfl, hline⟩ := exists_of_writes_escape h
      have hescape := Escape.read_of_writes h rest
      rw [List.cons_append] at hescape ⊢
      rw [List.cons_append, read_escape hquote hline, hescape]

/-- A spelling is read as its text up to where the literal ends. -/
theorem read_of_spells (hquote : quote ≠ '\\') {text body rest left : List Char}
    (h : Spells quote text body) (hrest : read quote rest = (some [], left)) :
    read quote (body ++ rest) = (some text, left) := by
  induction h with
  | nil => exact hrest
  | cons first _ ih =>
      rw [List.append_assoc, read_of_writes hquote first, ih]
      rfl
  | join _ ih => rw [List.cons_append, List.cons_append, read_join hquote, ih]

/-! ## What breaks a literal off -/

theorem ne_line_of_isHexDigit {c : Char} (h : isHexDigit c = true) : c ≠ '\n' := by
  intro hline
  rw [hline] at h
  exact absurd h (by decide)

theorem read_number (hquote : quote ≠ '\\') {digits rest : List Char} (hne : digits ≠ [])
    (hhex : ∀ d ∈ digits, isHexDigit d = true) :
    read quote ('\\' :: (digits ++ rest)) =
      ((read quote (Escape.read (digits ++ rest)).2).1.map ((Escape.read (digits ++ rest)).1 :: ·),
        (read quote (Escape.read (digits ++ rest)).2).2) := by
  cases digits with
  | nil => exact absurd rfl hne
  | cons d digits =>
      exact read_escape hquote (ne_line_of_isHexDigit (hhex d List.mem_cons_self)) (digits ++ rest)

theorem read_of_within (hquote : quote ≠ '\\') (hline : '\n' ≠ quote) {body : List Char}
    (h : Within quote body) (rest : List Char) :
    read quote (body ++ '\n' :: rest) = (none, '\n' :: rest) := by
  induction h with
  | nil => exact read_line hline rest
  | plain hne hslash hfeed _ ih =>
      rw [List.cons_append, read_cons_of_ne hne hfeed hslash, ih]
      rfl
  | join _ ih => rw [List.cons_append, List.cons_append, read_join hquote, ih]
  | escaped hhex hfeed _ ih =>
      rw [List.cons_append, List.cons_append, read_escape_char hquote hhex hfeed, ih]
      rfl
  | numbered hne hlength hhex hblank _ ih =>
      rw [List.cons_append, List.append_assoc, List.cons_append, read_number hquote hne hhex,
        Escape.read_digits hne hlength hhex hblank, ih]
      rfl
  | @unspaced c digits body hne hlength hhex hblank hends _ ih =>
      have hescape : Escape.read (digits ++ c :: (body ++ '\n' :: rest)) =
          (Escape.scalar (Escape.hexValue digits),
            Escape.dropBlank (c :: (body ++ '\n' :: rest))) :=
        Escape.read_of_ends hne hlength hhex hends
      rw [Escape.dropBlank, if_neg (by simp [hblank])] at hescape
      rw [List.cons_append] at ih
      rw [List.cons_append, List.append_assoc, List.cons_append, read_number hquote hne hhex,
        hescape, ih]
      rfl

/-- Digits at the start of a text, as many as there are up to a given number. -/
theorem exists_digits (count : Nat) (cs : List Char) :
    ∃ digits behind, cs = digits ++ behind ∧ digits.length ≤ count ∧
      (∀ d ∈ digits, isHexDigit d = true) ∧
      (digits.length = count ∨ behind.head?.any isHexDigit = false) := by
  induction count generalizing cs with
  | zero => exact ⟨[], cs, rfl, Nat.le_refl _, List.forall_mem_nil _, .inl rfl⟩
  | succ count ih =>
      have hnone (h : cs.head?.any isHexDigit = false) :
          ∃ digits behind, cs = digits ++ behind ∧ digits.length ≤ count + 1 ∧
            (∀ d ∈ digits, isHexDigit d = true) ∧
            (digits.length = count + 1 ∨ behind.head?.any isHexDigit = false) :=
        ⟨[], cs, rfl, Nat.zero_le _, List.forall_mem_nil _, .inr h⟩
      cases cs with
      | nil => exact hnone rfl
      | cons c rest =>
          cases hhex : isHexDigit c with
          | false => exact hnone hhex
          | true =>
              obtain ⟨digits, behind, hrest, hlength, hdigits, hends⟩ := ih rest
              refine ⟨c :: digits, behind, by rw [hrest]; rfl, Nat.succ_le_succ hlength,
                List.forall_mem_cons.mpr ⟨hhex, hdigits⟩, ?_⟩
              rw [List.length_cons, Nat.succ_inj]
              exact hends

/-- An escape before a text that breaks the literal off. -/
theorem exists_within_of_escape {c : Char} {behind body rest : List Char} (hline : c ≠ '\n')
    (h : Within quote body) (hescape : (Escape.read (c :: behind)).2 = body ++ '\n' :: rest) :
    ∃ front, Within quote front ∧ '\\' :: c :: behind = front ++ '\n' :: rest := by
  cases hhex : isHexDigit c with
  | false =>
      simp only [Escape.read, hhex, Bool.false_eq_true, if_false] at hescape
      exact ⟨'\\' :: c :: body, .escaped hhex hline h, by rw [hescape]; rfl⟩
  | true =>
      obtain ⟨others, tail, hbehind, hlength, hothers, hends⟩ := exists_digits 5 behind
      have hne : c :: others ≠ [] := List.cons_ne_nil _ _
      have hsix : (c :: others).length ≤ 6 := Nat.succ_le_succ hlength
      have hdigits : ∀ d ∈ c :: others, isHexDigit d = true :=
        List.forall_mem_cons.mpr ⟨hhex, hothers⟩
      have hlast : (c :: others).length = 6 ∨ tail.head?.any isHexDigit = false :=
        hends.imp_left (congrArg Nat.succ)
      rw [hbehind, ← List.cons_append] at hescape ⊢
      rw [Escape.read_of_ends hne hsix hdigits hlast] at hescape
      cases tail with
      | nil => simp [Escape.dropBlank] at hescape
      | cons d tail =>
          cases hblank : isBlank d with
          | true =>
              simp only [Escape.dropBlank, hblank, if_true] at hescape
              exact ⟨_, .numbered hne hsix hdigits hblank h, by simp [hescape]⟩
          | false =>
              simp only [Escape.dropBlank, hblank, Bool.false_eq_true, if_false] at hescape
              cases body with
              | nil =>
                  rw [(List.cons.inj hescape).1] at hblank
                  exact absurd hblank (by decide)
              | cons e body =>
                  obtain ⟨rfl, htail⟩ := List.cons.inj hescape
                  exact ⟨_, .unspaced hne hsix hdigits hblank hlast h, by simp [htail]⟩

/-- Where no closing quote is found first, what breaks the literal off is a line feed. -/
theorem exists_within_of_read_eq_none {cs : List Char} (h : (read quote cs).1 = none) :
    ∃ body rest, Within quote body ∧ cs = body ++ '\n' :: rest := by
  fun_induction read quote cs with
  | case1 => cases h
  | case2 => cases h
  | case3 rest hline => exact ⟨[], rest, .nil, rfl⟩
  | case4 => cases h
  | case5 behind _ _ ih =>
      obtain ⟨body, rest, hbody, hbehind⟩ := ih h
      exact ⟨'\\' :: '\n' :: body, rest, .join hbody, by rw [hbehind]; rfl⟩
  | case6 d behind hline text left hread _ _ ih =>
      rw [hread] at ih
      obtain ⟨body, rest, hbody, hescape⟩ := ih (Option.map_eq_none_iff.mp h)
      obtain ⟨front, hfront, hcs⟩ := exists_within_of_escape hline hbody hescape
      exact ⟨front, rest, hfront, hcs⟩
  | case7 c rest hquote hline hslash text left hread ih =>
      rw [hread] at ih
      obtain ⟨body, behind, hbody, hrest⟩ := ih (Option.map_eq_none_iff.mp h)
      exact ⟨c :: body, behind, .plain hquote hslash hline hbody, by rw [hrest]; rfl⟩

/-! ## Every text has spellings -/

theorem within_of_spells {text body : List Char} (h : Spells quote text body) :
    Within quote body := by
  induction h with
  | nil => exact .nil
  | join _ ih => exact .join ih
  | cons first _ ih =>
      cases first with
      | plain hne hslash hline => exact .plain hne hslash hline ih
      | escape hwrites =>
          cases hwrites with
          | plain hchar => exact absurd hchar (by decide)
          | escaped hhex hline => exact .escaped hhex hline ih
          | numbered hne hlength hhex _ _ hblank =>
              rw [List.cons_append, List.append_assoc, List.singleton_append]
              exact .numbered hne hlength hhex hblank ih

/-- A character that cannot stand for itself is none of a name, so it is escaped there too. -/
theorem exists_writes (hquote : quote = '"' ∨ quote = '\'') (c : Char) :
    ∃ piece, Writes quote c piece := by
  by_cases hplain : c ≠ quote ∧ c ≠ '\\' ∧ c ≠ '\n'
  · exact ⟨[c], .plain hplain.1 hplain.2.1 hplain.2.2⟩
  · have hmark : c = '"' ∨ c = '\'' ∨ c = '\\' ∨ c = '\n' := by
      by_contra hnone
      simp only [not_or] at hnone
      rcases hquote with rfl | rfl
      · exact hplain ⟨hnone.1, hnone.2.2⟩
      · exact hplain hnone.2
    have hchar : isNameChar c = false := by
      rcases hmark with rfl | rfl | rfl | rfl <;> decide
    obtain ⟨piece, hpiece⟩ := Selector.exists_writes c
    cases hpiece with
    | plain hname => simp [hchar] at hname
    | escaped hhex hline => exact ⟨_, .escape (.escaped hhex hline)⟩
    | numbered hne hlength hhex hvalue hnul hblank =>
        exact ⟨_, .escape (.numbered hne hlength hhex hvalue hnul hblank)⟩

theorem exists_spells (hquote : quote = '"' ∨ quote = '\'') (text : List Char) :
    ∃ body, Spells quote text body := by
  induction text with
  | nil => exact ⟨[], .nil⟩
  | cons c text ih =>
      obtain ⟨piece, hpiece⟩ := exists_writes hquote c
      obtain ⟨body, hbody⟩ := ih
      exact ⟨piece ++ body, .cons hpiece hbody⟩

end Literal

namespace Token

theorem scan_of_spells {quote : Char} (hquote : quote = '"' ∨ quote = '\'')
    {text body rest left : List Char} (h : Literal.Spells quote text body)
    (hrest : Literal.read quote rest = (some [], left)) :
    scan (quote :: (body ++ rest)) = string (String.ofList text) :: scan left := by
  have hslash : quote ≠ '\\' := ne_of_isQuote hquote (by decide)
  exact scan_string_of_read hquote (Literal.read_of_spells hslash h hrest)

theorem scan_of_within {quote : Char} (hquote : quote = '"' ∨ quote = '\'') {body : List Char}
    (h : Literal.Within quote body) (rest : List Char) :
    scan (quote :: (body ++ '\n' :: rest)) = badString :: scan ('\n' :: rest) := by
  have hslash : quote ≠ '\\' := ne_of_isQuote hquote (by decide)
  have hline : '\n' ≠ quote := (ne_of_isQuote hquote (by decide)).symm
  exact scan_badString_of_read hquote (Literal.read_of_within hslash hline h rest)

theorem exists_within_of_scan {quote : Char} (hquote : quote = '"' ∨ quote = '\'')
    {cs : List Char} {tokens : List Token} (h : scan (quote :: cs) = badString :: tokens) :
    ∃ body rest, Literal.Within quote body ∧ cs = body ++ '\n' :: rest := by
  apply Literal.exists_within_of_read_eq_none
  rw [scan_quote hquote] at h
  have hfirst := (List.cons.inj h).1
  revert hfirst
  fun_cases readString quote cs with
  | case1 text left _ => exact fun hstring => absurd hstring (by simp)
  | case2 left hread => exact fun _ => congrArg Prod.fst hread

/--
Every text has spellings between two quotes.  However it is spelled, it is read as one literal
with that text, whether or not the closing quote is there.  A line feed that belongs to no
escape and stands before the closing quote breaks the literal off, and the tokens behind it are
those of the text from the line feed on.  Nothing else breaks a literal off.
-/
theorem ofText_spelled_literal {quote : Char} (hquote : quote = '"' ∨ quote = '\'') :
    (∀ text : String, ∃ body : String, Literal.Spells quote text.toList body.toList) ∧
      (∀ text body : String, Literal.Spells quote text.toList body.toList →
        ofText (String.singleton quote ++ body ++ String.singleton quote) = [.string text, .eof] ∧
        ofText (String.singleton quote ++ body) = [.string text, .eof] ∧
        Literal.Within quote body.toList) ∧
      (∀ body rest : String, Literal.Within quote body.toList →
        ofText (String.singleton quote ++ body ++ "\n" ++ rest) =
          .badString :: ofText ("\n" ++ rest)) ∧
      ∀ (input : String) (tokens : List Token),
        ofText (String.singleton quote ++ input) = .badString :: tokens →
          ∃ body rest : String,
            Literal.Within quote body.toList ∧ input = body ++ "\n" ++ rest := by
  have hline : "\n".toList = ['\n'] := rfl
  refine ⟨?_, ?_, ?_, ?_⟩
  · intro text
    obtain ⟨body, hbody⟩ := Literal.exists_spells hquote text.toList
    exact ⟨String.ofList body, by rwa [String.toList_ofList]⟩
  · intro text body h
    have hclosed := scan_of_spells hquote h (Literal.read_quote quote [])
    have hopen := scan_of_spells hquote h (show Literal.read quote [] = (some [], []) by
      rw [Literal.read])
    rw [scan_nil, String.ofList_toList] at hclosed hopen
    rw [List.append_nil] at hopen
    refine ⟨?_, ?_, Literal.within_of_spells h⟩
    · rw [ofText, String.toList_append, String.toList_append, String.toList_singleton]
      exact hclosed
    · rw [ofText, String.toList_append, String.toList_singleton]
      exact hopen
  · intro body rest h
    have hbroken := scan_of_within hquote h rest.toList
    simp only [ofText, String.toList_append, String.toList_singleton, hline, List.append_assoc]
    exact hbroken
  · intro input tokens h
    rw [ofText, String.toList_append, String.toList_singleton, List.singleton_append] at h
    obtain ⟨body, rest, hbody, hinput⟩ := exists_within_of_scan hquote h
    refine ⟨String.ofList body, String.ofList rest, by rwa [String.toList_ofList], ?_⟩
    rw [← String.toList_inj, hinput]
    simp [String.toList_append]

/-- Every way to write a character, lines joined at both ends, and a line feed as a blank. -/
theorem ofText_spelled_literal_mixed :
    let body := "\\\na\\\"\\000022\t'\\41\n\\\\\\\n"
    ('"' = '"' ∨ '"' = '\'') ∧ Literal.Spells '"' "a\"\"'A\\".toList body.toList ∧
      ofText (String.singleton '"' ++ body ++ String.singleton '"') =
        [.string "a\"\"'A\\", .eof] ∧
      ofText (String.singleton '"' ++ body) = [.string "a\"\"'A\\", .eof] ∧
      ofText (String.singleton '"' ++ body ++ "\n" ++ "b\"") =
        [.badString, .whitespace, .ident "b", .string "", .eof] := by
  intro body
  have hplain : Literal.Writes '"' 'a' ['a'] ∧ Literal.Writes '"' '\'' ['\''] :=
    ⟨.plain (by decide) (by decide) (by decide), .plain (by decide) (by decide) (by decide)⟩
  have hquote : Literal.Writes '"' '"' ['\\', '"'] := .escape (.escaped (by decide) (by decide))
  have hslash : Literal.Writes '"' '\\' ['\\', '\\'] := .escape (.escaped (by decide) (by decide))
  have hsix : Literal.Writes '"' '"' ('\\' :: (['0', '0', '0', '0', '2', '2'] ++ ['\t'])) :=
    .escape (.numbered (by decide) (by decide) (List.all_eq_true.mp (by decide)) (by decide)
      (by decide) (by decide))
  have htwo : Literal.Writes '"' 'A' ('\\' :: (['4', '1'] ++ ['\n'])) :=
    .escape (.numbered (by decide) (by decide) (List.all_eq_true.mp (by decide)) (by decide)
      (by decide) (by decide))
  have hspells : Literal.Spells '"' "a\"\"'A\\".toList body.toList := by
    have htext : "a\"\"'A\\".toList = ['a', '"', '"', '\'', 'A', '\\'] := by decide
    have hbody : body.toList = '\\' :: '\n' :: (['a'] ++ (['\\', '"'] ++
        ('\\' :: (['0', '0', '0', '0', '2', '2'] ++ ['\t']) ++ (['\''] ++
          ('\\' :: (['4', '1'] ++ ['\n']) ++ (['\\', '\\'] ++ ('\\' :: '\n' :: []))))))) := by
      decide
    rw [htext, hbody]
    exact .join (.cons hplain.1 (.cons hquote (.cons hsix (.cons hplain.2 (.cons htwo
      (.cons hslash (.join .nil)))))))
  have hmark : '"' = '"' ∨ '"' = '\'' := .inl rfl
  obtain ⟨-, hspelled, hbroken, -⟩ := ofText_spelled_literal hmark
  obtain ⟨hclosed, hopen, hwithin⟩ := hspelled _ body hspells
  refine ⟨hmark, hspells, hclosed, hopen, ?_⟩
  rw [hbroken body "b\"" hwithin]
  decide +kernel

end Token

end Scenery.Selector
