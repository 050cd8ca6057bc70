import Scenery.Proofs.Requoting
import Scenery.Proofs.Separating
import Scenery.Proofs.Streams

/-!
# Texts written back from their tokens

Where a text has no escape and no comment, a token is written with the very
characters it was read from, except for blanks and literals.  Writing the tokens
back therefore changes the text from its first blank or quote on only, which is
where a name or a numeral ends in any case: what was cut into tokens at one place
is cut there again.
-/

namespace Scenery.Selector

/-! ## Names without an escape -/

theorem Name.read_of_dropWhile {cs : List Char}
    (h : (cs.dropWhile isNameChar).head? ≠ some '\\') :
    Name.read cs = (cs.takeWhile isNameChar, cs.dropWhile isNameChar) := by
  induction cs with
  | nil => exact Name.read_nil
  | cons c rest ih =>
      cases hc : isNameChar c with
      | true =>
          rw [List.dropWhile_cons_of_pos hc] at h
          rw [Name.read_cons_of_isNameChar hc, ih h, List.takeWhile_cons_of_pos hc,
            List.dropWhile_cons_of_pos hc]
      | false =>
          have hnone : ¬ isNameChar c = true := by simp [hc]
          rw [List.dropWhile_cons_of_neg hnone] at h
          rw [List.takeWhile_cons_of_neg hnone, List.dropWhile_cons_of_neg hnone,
            Name.read_of_head? (by simpa using hc) (startsEscape_of_head?_ne h)]

namespace FromOuter

variable {change : List Char → List Char} (h : FromOuter change)

include h

theorem startsEscape_eq {cs : List Char} (hslash : '\\' ∉ cs) :
    startsEscape (change cs) = startsEscape cs := by
  have hhead : cs.head? ≠ some '\\' := fun hhead => hslash (List.mem_of_mem_head? hhead)
  have hchanged := mt (h.head?_eq_some_iff (show isOuter '\\' = false by decide) cs).mp hhead
  rw [startsEscape_of_head?_ne hhead, startsEscape_of_head?_ne hchanged]

theorem startsName_eq_of_not_mem {cs : List Char} (hslash : '\\' ∉ cs) :
    startsName (change cs) = startsName cs := by
  apply h.startsName_eq (h.startsEscape_eq hslash)
  intro rest hcs
  exact h.startsEscape_eq fun hmem => hslash (hcs ▸ List.mem_cons_of_mem _ hmem)

/-- A name without an escape ends where its characters do, before the change as behind it. -/
theorem readName_eq {cs : List Char} (hslash : '\\' ∉ cs) :
    Name.read (change cs) = ((Name.read cs).1, change (Name.read cs).2) ∧
      (Name.read cs).1 ++ change (Name.read cs).2 = change cs := by
  obtain ⟨htake, hdrop⟩ := h.span inner_isNameChar cs
  have hhead : (cs.dropWhile isNameChar).head? ≠ some '\\' := by
    intro hhead
    exact hslash ((List.dropWhile_suffix isNameChar).mem (List.mem_of_mem_head? hhead))
  have hchanged := mt (h.head?_eq_some_iff (show isOuter '\\' = false by decide) _).mp hhead
  rw [← hdrop] at hchanged
  rw [Name.read_of_dropWhile hhead, Name.read_of_dropWhile hchanged, htake, hdrop]
  refine ⟨rfl, ?_⟩
  rw [← htake, ← hdrop, List.takeWhile_append_dropWhile]

/-! ## Tokens are written as they were read -/

theorem append_readNumeral (cs : List Char) :
    (Numeral.read cs).1 ++ change (Numeral.read cs).2 = change cs := by
  have happend := Numeral.read_append (change cs)
  rwa [h.readNumeral_eq] at happend

theorem text_readNamed {cs : List Char} (hslash : '\\' ∉ cs) :
    (Token.readNamed cs).1.text.toList ++ change (Token.readNamed cs).2 = change cs := by
  have hname := (h.readName_eq hslash).2
  fun_cases Token.readNamed cs with
  | case1 name left hread =>
      rw [hread, h.cons left (by decide)] at hname
      simpa [Token.text] using hname
  | case2 name left _ hread =>
      rw [hread] at hname
      simpa [Token.text] using hname

theorem text_readNumber {cs : List Char} (hslash : '\\' ∉ cs) :
    (Token.readNumber cs).1.text.toList ++ change (Token.readNumber cs).2 = change cs := by
  have hnumeral := h.append_readNumeral cs
  have hbehind : (Numeral.read cs).2 <:+ cs := ⟨_, Numeral.read_append cs⟩
  have hunit := (h.readName_eq fun hmem => hslash (hbehind.mem hmem)).2
  fun_cases Token.readNumber cs with
  | case1 numeral behind hread hname =>
      rw [hread] at hnumeral hunit
      simpa [Token.text, hunit] using hnumeral
  | case2 numeral left hread hname =>
      rw [hread, h.cons left (by decide)] at hnumeral
      simpa [Token.text] using hnumeral
  | case3 numeral behind hread hname _ =>
      rw [hread] at hnumeral
      simpa [Token.text] using hnumeral

variable {c : Char} {rest : List Char} (hcons : change (c :: rest) = c :: change rest)
  (hblank : isBlank c = false) (hquote : ¬ (c = '"' ∨ c = '\'')) (hslash : '\\' ∉ c :: rest)

include hcons hblank hquote hslash

theorem text_readToken :
    (Token.readToken c rest).1.text.toList ++ change (Token.readToken c rest).2 =
      c :: change rest := by
  have hrest : '\\' ∉ rest := fun hmem => hslash (List.mem_cons_of_mem c hmem)
  fun_cases Token.readToken c rest with
  | case1 hc => simp [hblank] at hc
  | case2 _ hc => exact absurd hc hquote
  | case3 _ _ hhash =>
      rw [hhash.1]
      simpa [Token.text] using (h.readName_eq hrest).2
  | case4 => rw [h.text_readNumber hslash, hcons]
  | case5 => rw [h.text_readNamed hslash, hcons]
  | case6 => simp [Token.text]

theorem readToken_eq_of_not_mem :
    Token.readToken c (change rest) =
      ((Token.readToken c rest).1, change (Token.readToken c rest).2) := by
  have hrest : '\\' ∉ rest := fun hmem => hslash (List.mem_cons_of_mem c hmem)
  have hbehind : (Numeral.read (c :: rest)).2 <:+ c :: rest := ⟨_, Numeral.read_append _⟩
  have hunit : '\\' ∉ (Numeral.read (c :: rest)).2 := fun hmem => hslash (hbehind.mem hmem)
  apply h.readToken_eq hcons hblank
  · intro hc
    exact absurd hc hquote
  · intro _
    exact h.startsHash_eq (h.startsEscape_eq hrest)
  · intro _ _
    exact (h.readName_eq hrest).1
  · intro _
    exact h.readNumber_eq (h.startsName_eq_of_not_mem hunit) fun _ => (h.readName_eq hunit).1
  · intro _
    exact h.startsName_eq_of_not_mem hslash
  · intro _ _
    exact h.readNamed_eq (h.readName_eq hslash).1

end FromOuter

/-! ## Texts with other blanks and literals -/

/-- The text with one space in place of every run of blanks. -/
def collapseBlanks : List Char → List Char
  | [] => []
  | c :: rest =>
    if isBlank c then
      ' ' :: collapseBlanks (rest.dropWhile isBlank)
    else
      c :: collapseBlanks rest
  termination_by cs => cs.length
  decreasing_by
    · have := (List.dropWhile_suffix isBlank (l := rest)).length_le
      simp only [List.length_cons]
      omega
    · simp

namespace Token

/-- The text with one space for every run of blanks, and every literal as its token is written. -/
def writtenBack : List Char → List Char
  | [] => []
  | c :: rest =>
    if isBlank c then
      ' ' :: writtenBack (rest.dropWhile isBlank)
    else if c = '"' ∨ c = '\'' then
      (readString c rest).1.text.toList ++ writtenBack (readString c rest).2
    else
      c :: writtenBack rest
  termination_by cs => cs.length
  decreasing_by
    · have := (List.dropWhile_suffix isBlank (l := rest)).length_le
      simp only [List.length_cons]
      omega
    · have := readString_length_le c rest
      simp only [List.length_cons]
      omega
    · simp

theorem writtenBack_blank {c : Char} (hblank : isBlank c = true) (rest : List Char) :
    writtenBack (c :: rest) = ' ' :: writtenBack (rest.dropWhile isBlank) := by
  rw [writtenBack, if_pos hblank]

theorem writtenBack_quote {c : Char} (hblank : isBlank c = false) (hquote : c = '"' ∨ c = '\'')
    (rest : List Char) : writtenBack (c :: rest) =
      (readString c rest).1.text.toList ++ writtenBack (readString c rest).2 := by
  rw [writtenBack, if_neg (by simp [hblank]), if_pos hquote]

theorem writtenBack_cons {c : Char} (hblank : isBlank c = false) (hquote : ¬ (c = '"' ∨ c = '\''))
    (rest : List Char) : writtenBack (c :: rest) = c :: writtenBack rest := by
  rw [writtenBack, if_neg (by simp [hblank]), if_neg hquote]

theorem writtenBack_eq_collapseBlanks {cs : List Char} (hdouble : '"' ∉ cs) (hsingle : '\'' ∉ cs) :
    writtenBack cs = collapseBlanks cs := by
  fun_induction collapseBlanks cs with
  | case1 => rw [writtenBack]
  | case2 c rest hblank ih =>
      have hleft : ∀ {d : Char}, d ∉ c :: rest → d ∉ rest.dropWhile isBlank :=
        fun hd hmem => hd (List.mem_cons_of_mem c ((List.dropWhile_suffix isBlank).mem hmem))
      rw [writtenBack_blank hblank, ih (hleft hdouble) (hleft hsingle)]
  | case3 c rest hblank ih =>
      obtain ⟨hne, hrest⟩ := not_or.mp (mt List.mem_cons.mpr hdouble)
      obtain ⟨hne', hrest'⟩ := not_or.mp (mt List.mem_cons.mpr hsingle)
      rw [writtenBack_cons (by simpa using hblank) (not_or.mpr ⟨Ne.symm hne, Ne.symm hne'⟩),
        ih hrest hrest']

/-- Every literal is written between double quotes, and the first of them stands in any case. -/
theorem head?_text_readString (quote : Char) (cs : List Char) :
    (readString quote cs).1.text.toList.head? = some '"' := by
  fun_cases readString quote cs with
  | case1 text left _ =>
      rw [Token.text, Text.toList_quoted]
      rfl
  | case2 left _ =>
      show badString.text.toList.head? = some '"'
      decide

theorem head?_writtenBack_quote {c : Char} (hblank : isBlank c = false)
    (hquote : c = '"' ∨ c = '\'') (rest : List Char) :
    (writtenBack (c :: rest)).head? = some '"' := by
  rw [writtenBack_quote hblank hquote, List.head?_append, head?_text_readString]
  rfl

theorem fromOuter_writtenBack : FromOuter writtenBack where
  cons := by
    intro c rest hc
    simp only [isOuter, Bool.or_eq_false_iff, beq_eq_false_iff_ne] at hc
    obtain ⟨⟨⟨hblank, -⟩, hdouble⟩, hsingle⟩ := hc
    exact writtenBack_cons hblank (not_or.mpr ⟨hdouble, hsingle⟩) rest
  head := by
    intro cs hcs d hd
    cases cs with
    | nil => simp [writtenBack] at hd
    | cons c rest =>
        cases hblank : isBlank c with
        | true =>
            rw [writtenBack_blank hblank] at hd
            obtain rfl : ' ' = d := Option.some.inj hd
            decide
        | false =>
            by_cases hquote : c = '"' ∨ c = '\''
            · rw [head?_writtenBack_quote hblank hquote] at hd
              obtain rfl : '"' = d := Option.some.inj hd
              decide
            · rw [writtenBack_cons hblank hquote] at hd
              obtain rfl : c = d := Option.some.inj hd
              exact hcs c rfl

theorem any_isBlank_writtenBack (cs : List Char) :
    (writtenBack cs).head?.any isBlank = cs.head?.any isBlank := by
  cases cs with
  | nil => rw [writtenBack]
  | cons c rest =>
      cases hblank : isBlank c with
      | true =>
          rw [writtenBack_blank hblank]
          exact hblank.symm
      | false =>
          by_cases hquote : c = '"' ∨ c = '\''
          · rw [head?_writtenBack_quote hblank hquote]
            exact hblank.symm
          · rw [writtenBack_cons hblank hquote]
            rfl

/-! ## One token -/

/-- A text without a backslash in which no comment starts. -/
structure Bare (cs : List Char) : Prop where
  no_escape : '\\' ∉ cs
  no_comment : ¬ ['/', '*'] <:+: cs

theorem Bare.of_suffix {cs left : List Char} (hbare : Bare cs) (h : left <:+ cs) : Bare left where
  no_escape hmem := hbare.no_escape (h.mem hmem)
  no_comment hmem := hbare.no_comment (hmem.trans h.isInfix)

theorem Bare.ne_comment {cs : List Char} (hbare : Bare cs) (body : List Char) :
    cs ≠ '/' :: '*' :: body := by
  intro hcs
  exact hbare.no_comment ⟨[], body, hcs.symm⟩

theorem Bare.left {c : Char} {rest : List Char} (hbare : Bare (c :: rest)) :
    Bare (readToken c rest).2 :=
  hbare.of_suffix (readToken_suffix c rest)

/-- Bare texts are taken apart token by token. -/
theorem Bare.induction {motive : (cs : List Char) → Bare cs → Prop}
    (nil : ∀ hbare, motive [] hbare)
    (cons : ∀ c rest (hbare : Bare (c :: rest)), motive (readToken c rest).2 hbare.left →
      motive (c :: rest) hbare)
    {cs : List Char} (hbare : Bare cs) : motive cs hbare := by
  induction hlength : cs.length using Nat.strongRecOn generalizing cs with
  | ind length ih =>
      subst hlength
      cases cs with
      | nil => exact nil hbare
      | cons c rest => exact cons c rest hbare (ih _ (readToken_length_lt c rest) hbare.left rfl)

/-- Each token is written back in its place. -/
theorem text_append_writtenBack {c : Char} {rest : List Char} (hbare : Bare (c :: rest)) :
    (readToken c rest).1.text.toList ++ writtenBack (readToken c rest).2 =
      writtenBack (c :: rest) := by
  cases hblank : isBlank c with
  | true =>
      have hspace : whitespace.text.toList = [' '] := by decide
      rw [readToken_blank hblank, writtenBack_blank hblank, hspace, List.singleton_append]
  | false =>
      by_cases hquote : c = '"' ∨ c = '\''
      · rw [readToken_quote hblank hquote, writtenBack_quote hblank hquote]
      · have hcons := writtenBack_cons hblank hquote rest
        rw [fromOuter_writtenBack.text_readToken hcons hblank hquote hbare.no_escape, hcons]

/-- The characters that a literal may hold so that it is read back as it is written. -/
def Requotable (content : String) : Prop :=
  ∀ c ∈ content.toList, Text.quoteChar c ∈ [[c], ['\\', '"']]

instance (content : String) : Decidable (Requotable content) :=
  List.decidableBAll _ content.toList

/-- A blank in front of a blank makes no difference. -/
theorem scan_blank_of_isBlank {c : Char} (hc : isBlank c = true) {cs : List Char}
    (h : cs.head?.any isBlank = true) : scan (c :: cs) = scan cs := by
  rw [scan_blank hc, scan_of_isBlank h]

/-- A broken literal is written back as an empty one, broken off by the line feed behind it. -/
theorem scan_text_badString {behind : List Char} (h : behind.head?.any isBlank = true) :
    scan (badString.text.toList ++ behind) = badString :: scan behind := by
  have hread : Literal.read '"' ('\n' :: behind) = (none, '\n' :: behind) :=
    Literal.read_line (by decide) behind
  have htoken : readToken '"' ('\n' :: behind) = (badString, '\n' :: behind) := by
    rw [readToken_quote (by decide) (.inl rfl), readString, hread]
  calc
    scan (badString.text.toList ++ behind) = scan ('"' :: '\n' :: behind) := rfl
    _ = badString :: scan ('\n' :: behind) := scan_cons (by decide) htoken
    _ = badString :: scan behind := by rw [scan_blank_of_isBlank (by decide) h]

theorem scan_text_readString {quote : Char} {cs : List Char}
    (h : ∀ content, (readString quote cs).1 = string content → Requotable content) :
    scan ((readString quote cs).1.text.toList ++ writtenBack (readString quote cs).2) =
      (readString quote cs).1 :: scan (writtenBack (readString quote cs).2) := by
  fun_cases readString quote cs with
  | case1 text left hread =>
      apply scan_quoted
      intro c hc
      rw [← quoteChar_mem_iff]
      have hmem := h _ (by rw [readString, hread]) c hc
      exact List.mem_append_left [['\\', '\\']] hmem
  | case2 left hread =>
      have hline := Literal.head?_of_read_eq_none (congrArg Prod.fst hread)
      rw [hread] at hline
      apply scan_text_badString
      rw [any_isBlank_writtenBack, hline]
      rfl

/-- The text written back is cut behind each token as the text itself is. -/
theorem scan_writtenBack_cons {c : Char} {rest : List Char} (hbare : Bare (c :: rest))
    (h : ∀ content, (readToken c rest).1 = string content → Requotable content) :
    scan (writtenBack (c :: rest)) =
      (readToken c rest).1 :: scan (writtenBack (readToken c rest).2) := by
  cases hblank : isBlank c with
  | true =>
      have hnone := (any_isBlank_writtenBack _).trans (any_head?_dropWhile isBlank rest)
      rw [readToken_blank hblank, writtenBack_blank hblank, scan_blank (by decide),
        (span_of_head? hnone).2]
  | false =>
      by_cases hquote : c = '"' ∨ c = '\''
      · rw [readToken_quote hblank hquote] at h ⊢
        rw [writtenBack_quote hblank hquote]
        exact scan_text_readString h
      · have hcons := writtenBack_cons hblank hquote rest
        -- What is written behind a slash begins with a star only if the text does.
        have hnone : ∀ body, c :: writtenBack rest ≠ '/' :: '*' :: body := by
          intro body htext
          obtain ⟨hc, hrest⟩ := List.cons.inj htext
          have hstar :=
            fromOuter_writtenBack.head?_eq_some_iff (show isOuter '*' = false by decide) rest
          rw [hrest] at hstar
          obtain ⟨behind, hbehind⟩ := List.head?_eq_some_iff.mp (hstar.mp rfl)
          exact hbare.ne_comment behind (by rw [hc, hbehind])
        rw [hcons, scan_token hnone,
          fromOuter_writtenBack.readToken_eq_of_not_mem hcons hblank hquote hbare.no_escape]

/-! ## All tokens -/

theorem textOf_cons (token : Token) (tokens : List Token) :
    (textOf (token :: tokens)).toList = token.text.toList ++ (textOf tokens).toList := by
  simp [textOf]

theorem toList_textOf_scan {cs : List Char} (hbare : Bare cs) :
    (textOf (scan cs)).toList = writtenBack cs := by
  induction hbare using Bare.induction with
  | nil _ =>
      rw [scan_nil, writtenBack]
      decide
  | cons c rest hbare ih =>
      rw [scan_token hbare.ne_comment, textOf_cons, ih, text_append_writtenBack hbare]

theorem scan_writtenBack {cs : List Char} (hbare : Bare cs)
    (h : ∀ content, string content ∈ scan cs → Requotable content) :
    scan (writtenBack cs) = scan cs := by
  revert h
  induction hbare using Bare.induction with
  | nil _ =>
      intro _
      rw [writtenBack]
  | cons c rest hbare ih =>
      intro h
      rw [scan_token hbare.ne_comment] at h ⊢
      rw [scan_writtenBack_cons hbare, ih]
      · intro content hcontent
        exact h content (List.mem_cons_of_mem _ hcontent)
      · intro content hcontent
        exact h content (hcontent ▸ List.mem_cons_self)

/--
Where no character is escaped and nothing is commented out, the tokens lose nothing of the
text.  Without quotes they are written as the text itself, with one space for every run of
blanks; with quotes the same tokens are read from what is written, unless a literal has a
character that is quoted with another escape than that of the double quote.
-/
theorem ofText_textOf_ofText {text : String} (hslash : '\\' ∉ text.toList)
    (hcomment : ¬ ['/', '*'] <:+: text.toList) :
    ('"' ∉ text.toList → '\'' ∉ text.toList →
      textOf (ofText text) = String.ofList (collapseBlanks text.toList)) ∧
    ((∀ content, string content ∈ ofText text → Requotable content) →
      ofText (textOf (ofText text)) = ofText text) := by
  have hwritten := toList_textOf_scan ⟨hslash, hcomment⟩
  constructor
  · intro hdouble hsingle
    rw [← writtenBack_eq_collapseBlanks hdouble hsingle, ← hwritten, String.ofList_toList, ofText]
  · intro hcontent
    have hscan := scan_writtenBack ⟨hslash, hcomment⟩ hcontent
    rwa [← hwritten] at hscan

theorem ofText_textOf_ofText_broken_literal :
    let plain := "\t \n> #a-1 [b=-.5e+3px]\r\n50% f(/.e"
    let text := "[a='x\"y']\t\"b\n\n c/ 'd"
    textOf (ofText plain) = " > #a-1 [b=-.5e+3px] 50% f(/.e" ∧
      textOf (ofText text) = "[a=\"x\\\"y\"] \"\n c/ \"d\"" ∧
      ofText (textOf (ofText text)) = ofText text := by
  intro plain text
  have hcomment : ¬ ['/', '*'] <:+: plain.toList ∧ ¬ ['/', '*'] <:+: text.toList := by
    decide +kernel
  have hslash : '\\' ∉ plain.toList ∧ '\\' ∉ text.toList := by decide
  have hquotes : '"' ∉ plain.toList ∧ '\'' ∉ plain.toList := by decide
  have hscan : ofText text =
      [.delim '[', .ident "a", .delim '=', .string "x\"y", .delim ']', .whitespace, .badString,
        .whitespace, .ident "c", .delim '/', .whitespace, .string "d", .eof] := by
    decide +kernel
  have hcontents : ∀ content, string content ∈ ofText text → Requotable content := by
    intro content hcontent
    have hcases : content = "x\"y" ∨ content = "d" := by simpa [hscan] using hcontent
    rcases hcases with hcontent | hcontent
    · rw [hcontent]
      decide +kernel
    · rw [hcontent]
      decide +kernel
  refine ⟨?_, ?_, (ofText_textOf_ofText hslash.2 hcomment.2).2 hcontents⟩
  · rw [(ofText_textOf_ofText hslash.1 hcomment.1).1 hquotes.1 hquotes.2]
    decide +kernel
  · rw [hscan]
    decide +kernel

end Token

end Scenery.Selector
