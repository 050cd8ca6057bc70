import Scenery.Proofs.Separating

/-!
# Ends of lines

A line can end with a line feed, a carriage return, both, or a form feed.  All
of these are blanks, so that between tokens and in comments it does not matter
which of them a text uses.  Literals and escapes know the line feed only: there
a text reads alike with every line end written as a line feed, as long as no
other line end is an escaped character, stands bare in a literal without a line
feed behind it, or has its carriage return taken as the blank that ends an
escape.
-/

namespace Scenery.Selector

/-- Carriage return and form feed end a line, and are no line feed. -/
def isReturn (c : Char) : Bool :=
  c == '\r' || c == '\x0c'

/-- A line feed for each of the two, and any other character as it is. -/
def unified (c : Char) : Char :=
  if isReturn c then '\n' else c

/--
The text with a line feed in place of every pair of carriage return and line
feed, every other carriage return and every form feed.
-/
def unifyLines : List Char → List Char
  | [] => []
  | '\r' :: '\n' :: rest => '\n' :: unifyLines rest
  | c :: rest => unified c :: unifyLines rest

theorem isBlank_of_isReturn {c : Char} (h : isReturn c = true) : isBlank c = true := by
  simp only [isReturn, Bool.or_eq_true, beq_iff_eq] at h
  rcases h with rfl | rfl <;> decide

/-- The carriage return of a pair leaves no trace beside the line feed. -/
theorem unifyLines_pair {rest : List Char} (h : rest.head? = some '\n') :
    unifyLines ('\r' :: rest) = unifyLines rest := by
  obtain ⟨behind, rfl⟩ := List.head?_eq_some_iff.mp h
  rfl

theorem unifyLines_cons {c : Char} {rest : List Char} (h : c = '\r' → rest.head? ≠ some '\n') :
    unifyLines (c :: rest) = unified c :: unifyLines rest := by
  apply unifyLines.eq_3
  rintro behind hc rfl
  exact h hc rfl

theorem unifyLines_cons_of_eq_false {c : Char} (h : isReturn c = false) (rest : List Char) :
    unifyLines (c :: rest) = c :: unifyLines rest := by
  rw [unifyLines_cons, unified, if_neg (by simp [h])]
  rintro rfl
  exact absurd h (by decide)

/-- A text is unified character by character, but for the carriage return of a pair. -/
theorem unifyLines_induction {motive : List Char → Prop} (nil : motive [])
    (pair : ∀ rest, rest.head? = some '\n' → motive rest → motive ('\r' :: rest))
    (cons : ∀ c rest, (c = '\r' → rest.head? ≠ some '\n') → motive rest → motive (c :: rest))
    (cs : List Char) : motive cs := by
  induction cs with
  | nil => exact nil
  | cons c rest ih =>
      by_cases hpair : c = '\r' ∧ rest.head? = some '\n'
      · obtain ⟨rfl, hhead⟩ := hpair
        exact pair rest hhead ih
      · exact cons c rest (fun hc hhead => hpair ⟨hc, hhead⟩) ih

/-- A blank stays a blank, and no other character becomes one. -/
theorem isBlank_unified (c : Char) : isBlank (unified c) = isBlank c := by
  unfold unified
  split
  · rename_i hreturn
    rw [isBlank_of_isReturn hreturn]
    rfl
  · rfl

theorem any_isBlank_unifyLines (cs : List Char) :
    (unifyLines cs).head?.any isBlank = cs.head?.any isBlank := by
  induction cs using unifyLines_induction with
  | nil => rfl
  | pair rest hhead ih =>
      rw [unifyLines_pair hhead, ih, hhead]
      rfl
  | cons c rest hpair ih =>
      rw [unifyLines_cons hpair]
      exact isBlank_unified c

theorem unified_eq_iff {c d : Char} (hd : isBlank d = false) :
    unified c = d ↔ c = d := by
  unfold unified
  split
  · rename_i hreturn
    constructor
    · rintro rfl
      cases hd
    · rintro rfl
      simp [isBlank_of_isReturn hreturn] at hd
  · rfl

theorem head?_unifyLines {d : Char} (hd : isBlank d = false) (cs : List Char) :
    (unifyLines cs).head? = some d ↔ cs.head? = some d := by
  induction cs using unifyLines_induction with
  | nil => rfl
  | pair rest hhead ih =>
      rw [unifyLines_pair hhead, ih, hhead]
      constructor
      · rintro ⟨⟩
        cases hd
      · rintro ⟨⟩
        cases hd
  | cons c rest hpair _ =>
      rw [unifyLines_cons hpair, List.head?_cons, List.head?_cons, Option.some_inj,
        Option.some_inj, unified_eq_iff hd]

theorem dropWhile_isBlank_unifyLines (cs : List Char) :
    (unifyLines cs).dropWhile isBlank = unifyLines (cs.dropWhile isBlank) := by
  induction cs using unifyLines_induction with
  | nil => rfl
  | pair rest hhead ih =>
      rw [unifyLines_pair hhead, ih]
      rfl
  | cons c rest hpair ih =>
      rw [unifyLines_cons hpair, List.dropWhile_cons, List.dropWhile_cons, isBlank_unified]
      split
      · exact ih
      · rw [unifyLines_cons hpair]

theorem fromBlank_unifyLines : FromBlank unifyLines where
  cons := by
    intro c rest hc
    apply unifyLines_cons_of_eq_false
    rw [Bool.eq_false_iff]
    intro hreturn
    simp [isBlank_of_isReturn hreturn] at hc
  head := by
    intro cs hcs d hd
    have hany := any_isBlank_unifyLines cs
    cases cs with
    | nil => simp [unifyLines] at hd
    | cons c rest =>
        rw [hd, List.head?_cons, Option.any_some, Option.any_some, hcs c rfl] at hany
        exact .inr hany

theorem fromOuter_unifyLines : FromOuter unifyLines :=
  fromBlank_unifyLines.fromOuter

/-! ## Escapes -/

/--
An escape, read behind its backslash, whose character is no return, and whose
blank is not the first of a pair.
-/
structure Escape.LineBlind (cs : List Char) : Prop where
  char : cs.head?.any isReturn = false
  blank : ¬ ['\r', '\n'] <+: cs.drop (Escape.hexDigits cs).length

theorem Escape.dropBlank_unifyLines {cs : List Char} (h : ¬ ['\r', '\n'] <+: cs) :
    Escape.dropBlank (unifyLines cs) = unifyLines (Escape.dropBlank cs) := by
  cases cs with
  | nil => rfl
  | cons c rest =>
      have hpair : c = '\r' → rest.head? ≠ some '\n' := by
        rintro rfl hhead
        obtain ⟨behind, rfl⟩ := List.head?_eq_some_iff.mp hhead
        exact h ⟨behind, rfl⟩
      rw [unifyLines_cons hpair, Escape.dropBlank, Escape.dropBlank, isBlank_unified]
      split
      · rfl
      · rw [unifyLines_cons hpair]

theorem Escape.read_unifyLines {cs : List Char} (h : Escape.LineBlind cs) :
    Escape.read (unifyLines cs) = ((Escape.read cs).1, unifyLines (Escape.read cs).2) := by
  cases cs with
  | nil => rfl
  | cons c rest =>
      apply fromOuter_unifyLines.readEscape_eq (unifyLines_cons_of_eq_false h.char rest)
      rintro left rfl
      exact Escape.dropBlank_unifyLines h.blank

/-- Only a return behind the backslash makes a difference to whether an escape begins. -/
theorem startsEscape_unifyLines {cs : List Char}
    (h : startsEscape cs = true → cs.tail.head?.any isReturn = false) :
    startsEscape (unifyLines cs) = startsEscape cs := by
  have hslash := head?_unifyLines (d := '\\') (by decide) cs
  by_cases hhead : cs.head? = some '\\'
  · obtain ⟨rest, rfl⟩ := List.head?_eq_some_iff.mp hhead
    rw [fromBlank_unifyLines.cons rest (by decide), startsEscape_backslash, startsEscape_backslash]
    cases rest with
    | nil => rfl
    | cons c rest =>
        by_cases hline : c = '\n'
        · subst hline
          rfl
        · have hreturn : isReturn c = false := h (by simp [startsEscape, hline])
          rw [unifyLines_cons_of_eq_false hreturn]
          rfl
  · rw [startsEscape_of_head?_ne hhead, startsEscape_of_head?_ne (mt hslash.mp hhead)]

/-! ## Names -/

/-- A name with no other escapes than those. -/
inductive Name.LineBlind : List Char → Prop where
  | stop {cs : List Char} (hchar : cs.head?.any isNameChar = false)
      (hescape : startsEscape cs = false) : LineBlind cs
  | char {c : Char} {rest : List Char} (hc : isNameChar c = true) (h : LineBlind rest) :
      LineBlind (c :: rest)
  | escape {rest : List Char} (hescape : startsEscape ('\\' :: rest) = true)
      (hblind : Escape.LineBlind rest) (h : LineBlind (Escape.read rest).2) :
      LineBlind ('\\' :: rest)

/-- No return stands behind the backslash that begins such a name. -/
theorem Name.LineBlind.escaped {cs : List Char} (h : Name.LineBlind cs)
    (hstarts : startsEscape cs = true) : cs.tail.head?.any isReturn = false := by
  cases h with
  | stop _ hescape => simp [hescape] at hstarts
  | @char c rest hc _ =>
      have hne : c ≠ '\\' := by
        rintro rfl
        exact absurd hc (by decide)
      rw [startsEscape_of_head?_ne (by simpa using hne)] at hstarts
      cases hstarts
  | escape _ hblind _ => exact hblind.char

theorem Name.LineBlind.of_not_mem {cs : List Char} (h : '\\' ∉ cs) : Name.LineBlind cs := by
  induction cs with
  | nil => exact .stop rfl rfl
  | cons c rest ih =>
      obtain ⟨hc, hrest⟩ := not_or.mp (mt List.mem_cons.mpr h)
      cases hchar : isNameChar c with
      | true => exact .char hchar (ih hrest)
      | false => exact .stop hchar (startsEscape_of_head?_ne (by simpa using Ne.symm hc))

theorem Name.read_unifyLines {cs : List Char} (h : Name.LineBlind cs) :
    Name.read (unifyLines cs) = ((Name.read cs).1, unifyLines (Name.read cs).2) := by
  induction h with
  | @stop cs hchar hescape =>
      have hunified := startsEscape_unifyLines (Name.LineBlind.stop hchar hescape).escaped
      rw [hescape] at hunified
      rw [Name.read_of_head? hchar hescape, Name.read_of_head?
        ((fromOuter_unifyLines.any_head? FromOuter.inner_isNameChar cs).trans hchar) hunified]
  | @char c rest hc _ ih =>
      have hblank : isBlank c = false := by
        rw [Bool.eq_false_iff]
        intro hblank
        simp [isNameChar_eq_false_of_isBlank hblank] at hc
      rw [fromBlank_unifyLines.cons rest hblank, Name.read_cons_of_isNameChar hc,
        Name.read_cons_of_isNameChar hc, ih]
  | @escape rest hescape hblind h ih =>
      have hunified := startsEscape_unifyLines (Name.LineBlind.escape hescape hblind h).escaped
      rw [fromBlank_unifyLines.cons rest (by decide), hescape] at hunified
      rw [fromBlank_unifyLines.cons rest (by decide)]
      rw [Name.read_escape hescape, Name.read_escape hunified, Escape.read_unifyLines hblind, ih]

/-! ## Literals -/

/--
A literal, read behind its opening quote, with no other escapes than those, in
which no return stands bare but that of a pair.
-/
inductive Literal.LineBlind (quote : Char) : List Char → Prop where
  | unclosed : LineBlind quote []
  | slash : LineBlind quote ['\\']
  | quote (rest : List Char) : LineBlind quote (quote :: rest)
  | line (rest : List Char) : LineBlind quote ('\n' :: rest)
  | pair (rest : List Char) : LineBlind quote ('\r' :: '\n' :: rest)
  | join {rest : List Char} (h : LineBlind quote rest) : LineBlind quote ('\\' :: '\n' :: rest)
  | escape {c : Char} {rest : List Char} (hline : c ≠ '\n')
      (hblind : Escape.LineBlind (c :: rest)) (h : LineBlind quote (Escape.read (c :: rest)).2) :
      LineBlind quote ('\\' :: c :: rest)
  | char {c : Char} {rest : List Char} (hquote : c ≠ quote) (hline : c ≠ '\n')
      (hslash : c ≠ '\\') (hreturn : isReturn c = false) (h : LineBlind quote rest) :
      LineBlind quote (c :: rest)

theorem Literal.LineBlind.of_pairs {quote : Char} {cs : List Char} (hslash : '\\' ∉ cs)
    (hpairs : ∀ c rest, c :: rest <:+ cs → isReturn c = true →
      c = '\r' ∧ rest.head? = some '\n') : Literal.LineBlind quote cs := by
  induction cs with
  | nil => exact .unclosed
  | cons c rest ih =>
      obtain ⟨hc, hrest⟩ := not_or.mp (mt List.mem_cons.mpr hslash)
      have hbehind := ih hrest fun d more hmore =>
        hpairs d more (hmore.trans (List.suffix_cons c rest))
      by_cases hquote : c = quote
      · subst hquote
        exact .quote rest
      by_cases hline : c = '\n'
      · subst hline
        exact .line rest
      cases hreturn : isReturn c with
      | true =>
          obtain ⟨rfl, hhead⟩ := hpairs c rest List.suffix_rfl hreturn
          obtain ⟨more, rfl⟩ := List.head?_eq_some_iff.mp hhead
          exact .pair more
      | false => exact .char hquote hline (Ne.symm hc) hreturn hbehind

theorem Literal.read_unifyLines {quote : Char} (hquote : quote = '"' ∨ quote = '\'')
    {cs : List Char} (h : Literal.LineBlind quote cs) :
    Literal.read quote (unifyLines cs) =
      ((Literal.read quote cs).1, unifyLines (Literal.read quote cs).2) := by
  have hslash : quote ≠ '\\' := ne_of_isQuote hquote (by decide)
  have hline : '\n' ≠ quote := (ne_of_isQuote hquote (by decide)).symm
  have hreturn : '\r' ≠ quote := (ne_of_isQuote hquote (by decide)).symm
  have hblank := isBlank_eq_false_of_isQuote hquote
  have hkeep : ∀ rest, unifyLines ('\\' :: rest) = '\\' :: unifyLines rest :=
    fun rest => fromBlank_unifyLines.cons rest (by decide)
  have hfeed : ∀ rest, unifyLines ('\n' :: rest) = '\n' :: unifyLines rest :=
    unifyLines_cons_of_eq_false (by decide)
  induction h with
  | unclosed => simp [unifyLines, Literal.read]
  | slash =>
      rw [hkeep]
      simp [unifyLines, Literal.read, hslash.symm]
  | quote rest =>
      rw [fromBlank_unifyLines.cons rest hblank, Literal.read_quote, Literal.read_quote]
  | line rest =>
      rw [hfeed, Literal.read_line hline, Literal.read_line hline, hfeed]
  | pair rest =>
      rw [unifyLines_pair rfl, hfeed, Literal.read_line hline,
        Literal.read_cons_of_ne hreturn (by decide) (by decide), Literal.read_line hline, hfeed]
      rfl
  | join _ ih =>
      rw [hkeep, hfeed, Literal.read_join hslash, Literal.read_join hslash, ih]
  | @escape c rest hc hblind _ ih =>
      have hread := Escape.read_unifyLines hblind
      rw [unifyLines_cons_of_eq_false hblind.char] at hread
      rw [hkeep, unifyLines_cons_of_eq_false hblind.char, Literal.read_escape hslash hc,
        Literal.read_escape hslash hc, hread, ih]
  | char hne hc hback hr _ ih =>
      rw [unifyLines_cons_of_eq_false hr, Literal.read_cons_of_ne hne hc hback,
        Literal.read_cons_of_ne hne hc hback, ih]

namespace Token

/-! ## Tokens -/

/--
Wherever the scan of the text comes to a name or a literal, its escapes take in
no return and part no pair, and none stands bare in it but that of a pair.
-/
structure LineBlind (text : List Char) : Prop where
  hashes : ∀ name, Border text ('#' :: name) → startsHash name = true → Name.LineBlind name
  units : ∀ left, Border text left → startsNumber left = true →
    startsName (Numeral.read left).2 = true → Name.LineBlind (Numeral.read left).2
  names : ∀ left, Border text left → startsNumber left = false → startsName left = true →
    Name.LineBlind left
  literals : ∀ quote body, quote = '"' ∨ quote = '\'' → Border text (quote :: body) →
    Literal.LineBlind quote body

theorem LineBlind.of_border {text next : List Char} (hblind : LineBlind text)
    (h : ∀ left, Border next left → Border text left) : LineBlind next where
  hashes name hborder := hblind.hashes name (h _ hborder)
  units left hborder := hblind.units left (h _ hborder)
  names left hborder := hblind.names left (h _ hborder)
  literals quote body hquote hborder := hblind.literals quote body hquote (h _ hborder)

theorem startsHash_unifyLines {cs : List Char} (h : startsHash cs = true → Name.LineBlind cs) :
    startsHash (unifyLines cs) = startsHash cs := by
  apply fromOuter_unifyLines.startsHash_eq
  apply startsEscape_unifyLines
  intro hescape
  exact (h (by rw [startsHash_eq_any, hescape, Bool.or_true])).escaped hescape

theorem startsName_unifyLines {cs : List Char} (h : startsName cs = true → Name.LineBlind cs) :
    startsName (unifyLines cs) = startsName cs := by
  apply fromOuter_unifyLines.startsName_eq
  · apply startsEscape_unifyLines
    intro hescape
    obtain ⟨c, rest, rfl⟩ := exists_of_startsEscape hescape
    exact (h hescape).escaped hescape
  · rintro rest rfl
    apply startsEscape_unifyLines
    intro hescape
    have hname : startsName ('-' :: rest) = true := by
      rw [startsName_hyphen, hescape, Bool.or_true]
    cases h hname with
    | stop hchar _ => exact absurd (show isNameChar '-' = false from hchar) (by decide)
    | char _ hrest => exact hrest.escaped hescape

theorem readString_unifyLines {quote : Char} (hquote : quote = '"' ∨ quote = '\'')
    {cs : List Char} (h : Literal.LineBlind quote cs) :
    readString quote (unifyLines cs) =
      ((readString quote cs).1, unifyLines (readString quote cs).2) := by
  rw [readString, readString, Literal.read_unifyLines hquote h]
  obtain ⟨text, left⟩ := Literal.read quote cs
  cases text <;> rfl

theorem readToken_unifyLines {c : Char} {rest : List Char} (hblank : isBlank c = false)
    (hblind : LineBlind (c :: rest)) :
    readToken c (unifyLines rest) =
      ((readToken c rest).1, unifyLines (readToken c rest).2) := by
  apply fromOuter_unifyLines.readToken_eq (fromBlank_unifyLines.cons rest hblank) hblank
  · intro hquote
    exact readString_unifyLines hquote (hblind.literals c rest hquote (.here _))
  · rintro rfl
    exact startsHash_unifyLines (hblind.hashes rest (.here _))
  · rintro rfl hname
    exact Name.read_unifyLines (hblind.hashes rest (.here _) hname)
  · intro hdigits
    have hunit := hblind.units _ (.here _) hdigits
    exact fromOuter_unifyLines.readNumber_eq (startsName_unifyLines hunit)
      fun hname => Name.read_unifyLines (hunit hname)
  · intro hdigits
    exact startsName_unifyLines (hblind.names _ (.here _) hdigits)
  · intro hdigits hletters
    have hname := hblind.names _ (.here _) hdigits hletters
    exact fromOuter_unifyLines.readNamed_eq (Name.read_unifyLines hname)

/-! ## Texts -/

theorem dropComment_unifyLines (cs : List Char) :
    dropComment (unifyLines cs) = unifyLines (dropComment cs) := by
  fun_induction dropComment cs with
  | case1 => rfl
  | case2 rest => rfl
  | case3 c rest hnone ih =>
      by_cases hpair : c = '\r' ∧ rest.head? = some '\n'
      · obtain ⟨rfl, hhead⟩ := hpair
        rw [unifyLines_pair hhead, ih]
      · rw [unifyLines_cons (fun hc hhead => hpair ⟨hc, hhead⟩), dropComment_cons, ih]
        intro hstar hslash
        obtain ⟨behind, rfl⟩ := List.head?_eq_some_iff.mp
          ((head?_unifyLines (by decide) rest).mp hslash)
        exact hnone behind ((unified_eq_iff (by decide)).mp hstar) rfl

theorem scan_unifyLines {text : List Char} (hblind : LineBlind text) :
    scan (unifyLines text) = scan text := by
  induction hlength : text.length using Nat.strongRecOn generalizing text with
  | ind length ih =>
      subst hlength
      by_cases hcomment : ∃ body, text = '/' :: '*' :: body
      · obtain ⟨body, rfl⟩ := hcomment
        have hle := dropComment_length_le body
        have hbehind := ih (dropComment body).length (by simp only [List.length_cons]; omega)
          (hblind.of_border fun _ => .comment) rfl
        rw [fromBlank_unifyLines.cons _ (by decide), fromBlank_unifyLines.cons _ (by decide),
          scan_comment, scan_comment, dropComment_unifyLines, hbehind]
      · cases text with
        | nil => rfl
        | cons c rest =>
            have hnone : ∀ body, c :: rest ≠ '/' :: '*' :: body :=
              fun body htext => hcomment ⟨body, htext⟩
            have hbehind := ih (readToken c rest).2.length (readToken_length_lt c rest)
              (hblind.of_border fun _ => .token hnone) rfl
            cases hblank : isBlank c with
            | true =>
                rw [readToken_blank hblank] at hbehind
                rw [scan_of_isBlank ((any_isBlank_unifyLines (c :: rest)).trans hblank),
                  dropWhile_isBlank_unifyLines, List.dropWhile_cons_of_pos hblank, hbehind,
                  scan_blank hblank]
            | false =>
                have hunified : ∀ body, c :: unifyLines rest ≠ '/' :: '*' :: body := by
                  intro body htext
                  obtain ⟨rfl, hrest⟩ := List.cons.inj htext
                  obtain ⟨behind, rfl⟩ := List.head?_eq_some_iff.mp
                    ((head?_unifyLines (d := '*') (by decide) rest).mp (by rw [hrest]; rfl))
                  exact hnone behind rfl
                rw [fromBlank_unifyLines.cons rest hblank, scan_token hunified, scan_token hnone,
                  readToken_unifyLines hblank hblind, hbehind]

/-! ## Texts without a backslash -/

theorem LineBlind.of_literals {text : List Char} (hslash : '\\' ∉ text)
    (hliteral : ∀ quote body, quote = '"' ∨ quote = '\'' → quote :: body <:+ text →
      Literal.LineBlind quote body) : LineBlind text := by
  have hname : ∀ {left : List Char}, left <:+ text → Name.LineBlind left :=
    fun hleft => Name.LineBlind.of_not_mem fun hmem => hslash (hleft.mem hmem)
  constructor
  · intro name hborder _
    exact hname ((List.suffix_cons _ _).trans hborder.suffix)
  · intro left hborder _ _
    have hbehind : (Numeral.read left).2 <:+ left := ⟨_, Numeral.read_append left⟩
    exact hname (hbehind.trans hborder.suffix)
  · intro left hborder _ _
    exact hname hborder.suffix
  · intro quote body hquote hborder
    exact hliteral quote body hquote hborder.suffix

/-- Between tokens and in comments any line end is as good as another. -/
theorem LineBlind.of_plain {text : List Char} (hslash : '\\' ∉ text) (hdouble : '"' ∉ text)
    (hsingle : '\'' ∉ text) : LineBlind text := by
  apply LineBlind.of_literals hslash
  rintro quote body (rfl | rfl) hbody
  · exact absurd (hbody.mem List.mem_cons_self) hdouble
  · exact absurd (hbody.mem List.mem_cons_self) hsingle

/-- A text of lines that all end with a pair breaks off the same literals as with line feeds. -/
theorem LineBlind.of_pairs {text : List Char} (hslash : '\\' ∉ text)
    (hpairs : ∀ c rest, c :: rest <:+ text → isReturn c = true →
      c = '\r' ∧ rest.head? = some '\n') : LineBlind text := by
  apply LineBlind.of_literals hslash
  intro quote body _ hbody
  have hsuffix := (List.suffix_cons quote body).trans hbody
  exact Literal.LineBlind.of_pairs (fun hmem => hslash (hsuffix.mem hmem))
    fun c rest hrest => hpairs c rest (hrest.trans hsuffix)

/--
The tokens of a text stay the same with a line feed in place of every other line
end, unless the scan comes to a name or a literal that has one of those as an
escaped character, bare without a line feed, or with its pair parted by an escape.
-/
theorem ofText_unifyLines {text : String} (hblind : LineBlind text.toList) :
    ofText (String.ofList (unifyLines text.toList)) = ofText text := by
  rw [ofText, String.toList_ofList, scan_unifyLines hblind, ofText]

theorem ofText_unifyLines_of_escapes :
    let text := "#\\41\x0cb\r'\\42\rc\r\n"
    LineBlind text.toList ∧ unifyLines text.toList = "#\\41\nb\n'\\42\nc\n".toList ∧
      ofText (String.ofList (unifyLines text.toList)) =
        [.hash "Ab", .whitespace, .badString, .whitespace, .eof] := by
  intro text
  have htext : text.toList = '#' :: "\\41\x0cb\r'\\42\rc\r\n".toList := by decide
  have hhash : readToken '#' "\\41\x0cb\r'\\42\rc\r\n".toList =
      (.hash "Ab", '\r' :: "'\\42\rc\r\n".toList) := by decide +kernel
  have hblank : readToken '\r' "'\\42\rc\r\n".toList =
      (.whitespace, '\'' :: "\\42\rc\r\n".toList) := by decide +kernel
  have hstring : readToken '\'' "\\42\rc\r\n".toList = (.badString, ['\n']) := by decide +kernel
  have hline : readToken '\n' [] = (.whitespace, []) := by decide +kernel
  have hborders : ∀ left, Border text.toList left →
      left ∈ ['#' :: "\\41\x0cb\r'\\42\rc\r\n".toList, "\r'\\42\rc\r\n".toList,
        "'\\42\rc\r\n".toList, ['\n'], []] := by
    intro left h
    rw [htext] at h
    rcases h.behind_token (by simp) with h | h
    · simp [h]
    rw [hhash] at h
    rcases h.behind_token (by simp) with h | h
    · simp [h]
    rw [hblank] at h
    rcases h.behind_token (by simp) with h | h
    · simp [h]
    rw [hstring] at h
    rcases h.behind_token (by simp) with h | h
    · simp [h]
    rw [hline] at h
    cases h
    simp
  have hname : Name.LineBlind "\\41\x0cb\r'\\42\rc\r\n".toList :=
    .escape rfl ⟨rfl, by decide⟩
      (.char (c := 'b') rfl (.stop rfl rfl : Name.LineBlind "\r'\\42\rc\r\n".toList))
  have hliteral : Literal.LineBlind '\'' "\\42\rc\r\n".toList :=
    .escape (by decide) ⟨rfl, by decide⟩
      (.char (c := 'c') (by decide) (by decide) (by decide) rfl (.pair []))
  have hblind : LineBlind text.toList := by
    constructor
    · intro name hborder _
      obtain rfl : name = "\\41\x0cb\r'\\42\rc\r\n".toList := by
        simpa using hborders _ hborder
      exact hname
    · intro left hborder hnumber
      have hleft := hborders left hborder
      simp only [List.mem_cons, List.not_mem_nil, or_false] at hleft
      rcases hleft with rfl | rfl | rfl | rfl | rfl <;> cases hnumber
    · intro left hborder _ hstarts
      have hleft := hborders left hborder
      simp only [List.mem_cons, List.not_mem_nil, or_false] at hleft
      rcases hleft with rfl | rfl | rfl | rfl | rfl <;> cases hstarts
    · intro quote body hquote hborder
      obtain ⟨rfl, rfl⟩ : quote = '\'' ∧ body = "\\42\rc\r\n".toList := by
        rcases hquote with rfl | rfl
        · exact absurd (hborders _ hborder) (by simp)
        · simpa using hborders _ hborder
      exact hliteral
  have hunified : unifyLines text.toList = "#\\41\nb\n'\\42\nc\n".toList := by decide +kernel
  have hscan : ofText text = [.hash "Ab", .whitespace, .badString, .whitespace, .eof] := by
    decide +kernel
  exact ⟨hblind, hunified, (ofText_unifyLines hblind).trans hscan⟩

/--
Other line ends do make a difference where they stand bare in a literal without
a line feed behind them, where a backslash stands before them, and where only
the carriage return of a pair ends an escape.
-/
theorem ofText_unifyLines_ne :
    ofText (String.ofList (unifyLines "\"a\rb\"".toList)) ≠ ofText "\"a\rb\"" ∧
      ofText (String.ofList (unifyLines "'a\x0cb'".toList)) ≠ ofText "'a\x0cb'" ∧
      ofText (String.ofList (unifyLines "'a\\\r\nb'".toList)) ≠ ofText "'a\\\r\nb'" ∧
      ofText (String.ofList (unifyLines "#a\\\rb".toList)) ≠ ofText "#a\\\rb" ∧
      ofText (String.ofList (unifyLines "\\41\r\nb".toList)) ≠ ofText "\\41\r\nb" := by
  decide +kernel

end Token

end Scenery.Selector
