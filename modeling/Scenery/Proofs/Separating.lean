import Scenery.Proofs.Changing

/-!
# Comments between texts

A comment ends the token before it just as the end of the text would, and the
text behind it is read afresh.  A text that leaves no literal and no comment
open, and no backslash that waits for its character, can therefore be cut off
its successor by any comment.
-/

namespace Scenery.Selector

/-! ## What is left is the end of the text -/

theorem Escape.dropBlank_suffix (cs : List Char) : Escape.dropBlank cs <:+ cs := by
  cases cs with
  | nil => exact List.suffix_rfl
  | cons c rest =>
      rw [Escape.dropBlank]
      split
      · exact List.suffix_cons c rest
      · exact List.suffix_rfl

theorem Escape.read_suffix (cs : List Char) : (Escape.read cs).2 <:+ cs := by
  cases cs with
  | nil => exact List.suffix_rfl
  | cons c rest =>
      simp only [Escape.read]
      split
      · exact (Escape.dropBlank_suffix _).trans (List.drop_suffix _ _)
      · exact List.suffix_cons c rest

theorem Name.read_suffix (cs : List Char) : (Name.read cs).2 <:+ cs := by
  fun_induction Name.read cs with
  | case1 => exact List.suffix_rfl
  | case2 c rest _ name left hread ih =>
      rw [hread] at ih
      exact ih.trans (List.suffix_cons c rest)
  | case3 c rest _ _ name left hread ih =>
      rw [hread] at ih
      exact (ih.trans (Escape.read_suffix rest)).trans (List.suffix_cons c rest)
  | case4 => exact List.suffix_rfl

theorem Literal.read_suffix (quote : Char) (cs : List Char) : (Literal.read quote cs).2 <:+ cs := by
  fun_induction Literal.read quote cs with
  | case1 => exact List.suffix_rfl
  | case2 rest => exact List.suffix_cons quote rest
  | case3 => exact List.suffix_rfl
  | case4 => exact List.nil_suffix
  | case5 rest _ _ ih => exact ih.trans ((List.suffix_cons _ _).trans (List.suffix_cons _ _))
  | case6 d behind _ text left hread _ _ ih =>
      rw [hread] at ih
      exact (ih.trans (Escape.read_suffix (d :: behind))).trans (List.suffix_cons _ _)
  | case7 c rest _ _ _ text left hread ih =>
      rw [hread] at ih
      exact ih.trans (List.suffix_cons c rest)

namespace Token

theorem readString_suffix (quote : Char) (cs : List Char) : (readString quote cs).2 <:+ cs := by
  have hread := Literal.read_suffix quote cs
  fun_cases readString quote cs with
  | case1 text left heq => simpa [readString, heq] using hread
  | case2 left heq => simpa [readString, heq] using hread

theorem readNamed_suffix (cs : List Char) : (readNamed cs).2 <:+ cs := by
  have hread := Name.read_suffix cs
  fun_cases readNamed cs with
  | case1 name left heq =>
      rw [heq] at hread
      exact (List.suffix_cons '(' left).trans hread
  | case2 name left _ heq =>
      rw [heq] at hread
      exact hread

theorem readNumber_suffix (cs : List Char) : (readNumber cs).2 <:+ cs := by
  have hnumeral : (Numeral.read cs).2 <:+ cs := ⟨_, Numeral.read_append cs⟩
  fun_cases readNumber cs with
  | case1 numeral behind hread hname =>
      rw [hread] at hnumeral
      exact (Name.read_suffix behind).trans hnumeral
  | case2 numeral left hread hname =>
      rw [hread] at hnumeral
      exact (List.suffix_cons '%' left).trans hnumeral
  | case3 numeral behind hread hname _ =>
      rw [hread] at hnumeral
      exact hnumeral

theorem readToken_suffix (c : Char) (rest : List Char) : (readToken c rest).2 <:+ c :: rest := by
  fun_cases readToken c rest with
  | case1 => exact (List.dropWhile_suffix isBlank).trans (List.suffix_cons c rest)
  | case2 => exact (readString_suffix c rest).trans (List.suffix_cons c rest)
  | case3 => exact (Name.read_suffix rest).trans (List.suffix_cons c rest)
  | case4 => exact readNumber_suffix (c :: rest)
  | case5 => exact readNamed_suffix (c :: rest)
  | case6 => exact List.suffix_cons c rest

theorem dropComment_suffix (cs : List Char) : dropComment cs <:+ cs := by
  fun_induction dropComment cs with
  | case1 => exact List.suffix_rfl
  | case2 rest => exact (List.suffix_cons _ _).trans (List.suffix_cons _ _)
  | case3 c rest _ ih => exact ih.trans (List.suffix_cons c rest)

end Token

/-! ## How a text begins, with a slash behind it

A slash continues nothing that can begin, so it changes the answer for a last backslash only,
which it makes an escape. -/

section

variable (more : List Char)

theorem startsEscape_slash {cs : List Char} (h : cs ≠ ['\\']) :
    startsEscape (cs ++ '/' :: more) = startsEscape cs := by
  match cs with
  | [] => rfl
  | [c] =>
      have hc : c ≠ '\\' := by simpa using h
      simp [startsEscape, hc]
  | c :: d :: rest =>
      by_cases hc : c = '\\'
      · subst hc
        rfl
      · simp [startsEscape, hc]

theorem fromOuter_slash : FromOuter (· ++ '/' :: more) := by
  apply FromOuter.append_right
  intro d hd
  obtain rfl : '/' = d := Option.some.inj hd
  decide

theorem startsName_slash {cs : List Char} (h : cs ≠ ['\\']) (hhyphen : cs ≠ ['-', '\\']) :
    startsName (cs ++ '/' :: more) = startsName cs := by
  apply (fromOuter_slash more).startsName_eq (startsEscape_slash more h)
  rintro rest rfl
  apply startsEscape_slash more
  rintro rfl
  exact hhyphen rfl

/-! ## What is read from a text, with a slash behind it -/

theorem Escape.dropBlank_slash (cs : List Char) :
    Escape.dropBlank (cs ++ '/' :: more) = Escape.dropBlank cs ++ '/' :: more := by
  cases cs with
  | nil => rfl
  | cons c rest =>
      rw [List.cons_append, Escape.dropBlank, Escape.dropBlank]
      split <;> rfl

theorem Escape.read_slash (c : Char) (cs : List Char) :
    Escape.read (c :: cs ++ '/' :: more) =
      ((Escape.read (c :: cs)).1, (Escape.read (c :: cs)).2 ++ '/' :: more) :=
  (fromOuter_slash more).readEscape_eq rfl fun left _ => Escape.dropBlank_slash more left

theorem exists_of_startsEscape {cs : List Char} (h : startsEscape cs = true) :
    ∃ c rest, cs = '\\' :: c :: rest := by
  unfold startsEscape at h
  split at h
  · exact ⟨_, _, rfl⟩
  · cases h

theorem Name.read_slash {cs : List Char} (h : (Name.read cs).2 ≠ ['\\']) :
    Name.read (cs ++ '/' :: more) = ((Name.read cs).1, (Name.read cs).2 ++ '/' :: more) := by
  fun_induction Name.read cs with
  | case1 => exact Name.read_append_of_endsName (List.forall_mem_nil _) rfl
  | case2 c rest hc name left hread ih =>
      rw [List.cons_append, Name.read_cons_of_isNameChar hc, ih (by rwa [hread]), hread]
  | case3 c rest _ hescape name left hread ih =>
      obtain ⟨d, behind, heq⟩ := exists_of_startsEscape hescape
      cases heq
      have hbehind := Escape.read_slash more d behind
      have hname : Name.read ('\\' :: (d :: behind ++ '/' :: more)) = _ :=
        Name.read_escape hescape
      rw [List.cons_append, hname, hbehind, ih (by rwa [hread]), hread]
  | case4 c rest hc hescape =>
      have hslash := startsEscape_slash more h
      rw [List.cons_append] at hslash ⊢
      rw [Name.read, if_neg hc, if_neg (by rwa [hslash])]

end

/-! ## Literals that end -/

/-- A literal, read behind its opening quote, that a quote or a bare line feed ends. -/
inductive Literal.Closed (quote : Char) : List Char → Prop where
  | quote (rest : List Char) : Closed quote (quote :: rest)
  | line (rest : List Char) : Closed quote ('\n' :: rest)
  | join {rest : List Char} (h : Closed quote rest) : Closed quote ('\\' :: '\n' :: rest)
  | escape {c : Char} {rest : List Char} (hline : c ≠ '\n')
      (h : Closed quote (Escape.read (c :: rest)).2) : Closed quote ('\\' :: c :: rest)
  | char {c : Char} {rest : List Char} (hquote : c ≠ quote) (hline : c ≠ '\n') (hslash : c ≠ '\\')
      (h : Closed quote rest) : Closed quote (c :: rest)

theorem Literal.read_slash {quote : Char} (hquote : quote ≠ '\\') {cs : List Char}
    (h : Closed quote cs) (more : List Char) :
    Literal.read quote (cs ++ '/' :: more) =
      ((Literal.read quote cs).1, (Literal.read quote cs).2 ++ '/' :: more) := by
  induction h with
  | quote rest => rw [List.cons_append, Literal.read_quote, Literal.read_quote]
  | line rest =>
      by_cases hline : '\n' = quote
      · subst hline
        rw [List.cons_append, Literal.read_quote, Literal.read_quote]
      · rw [List.cons_append, Literal.read_line hline, Literal.read_line hline]
        rfl
  | join _ ih =>
      rw [List.cons_append, List.cons_append, Literal.read_join hquote, Literal.read_join hquote,
        ih]
  | @escape c rest hline _ ih =>
      have hread := Escape.read_slash more c rest
      rw [List.cons_append] at hread
      rw [List.cons_append, List.cons_append, Literal.read_escape hquote hline,
        Literal.read_escape hquote hline, hread, ih]
  | char hne hline hslash _ ih =>
      rw [List.cons_append, Literal.read_cons_of_ne hne hline hslash,
        Literal.read_cons_of_ne hne hline hslash, ih]

namespace Token

/-! ## Tokens before a slash -/

theorem readString_slash {quote : Char} (hquote : quote ≠ '\\') {cs : List Char}
    (h : Literal.Closed quote cs) (more : List Char) :
    readString quote (cs ++ '/' :: more) =
      ((readString quote cs).1, (readString quote cs).2 ++ '/' :: more) := by
  rw [readString, readString, Literal.read_slash hquote h]
  obtain ⟨text, left⟩ := Literal.read quote cs
  cases text <;> rfl

theorem readNamed_slash {cs : List Char} (h : (readNamed cs).2 ≠ ['\\']) (more : List Char) :
    readNamed (cs ++ '/' :: more) = ((readNamed cs).1, (readNamed cs).2 ++ '/' :: more) := by
  apply (fromOuter_slash more).readNamed_eq
  apply Name.read_slash more
  rcases hread : Name.read cs with ⟨name, left⟩
  rintro rfl
  rw [readNamed_of_head?_ne hread (by decide)] at h
  exact h rfl

theorem readNumber_slash {cs : List Char} (h : (readNumber cs).2 ≠ ['\\'])
    (hhyphen : (readNumber cs).2 ≠ ['-', '\\']) (more : List Char) :
    readNumber (cs ++ '/' :: more) = ((readNumber cs).1, (readNumber cs).2 ++ '/' :: more) := by
  apply (fromOuter_slash more).readNumber_eq
  · rcases hread : Numeral.read cs with ⟨numeral, behind⟩
    -- A backslash that no unit takes in is left behind the number.
    apply startsName_slash more
    · rintro rfl
      rw [readNumber_of_head?_ne hread rfl (by decide)] at h
      exact h rfl
    · rintro rfl
      rw [readNumber_of_head?_ne hread rfl (by decide)] at hhyphen
      exact hhyphen rfl
  · intro hname
    simp only [readNumber, if_pos hname] at h
    exact Name.read_slash more h

theorem dropWhile_isBlank_slash (cs more : List Char) :
    (cs ++ '/' :: more).dropWhile isBlank = cs.dropWhile isBlank ++ '/' :: more := by
  have hslash : isBlank '/' = false := by decide
  rw [List.dropWhile_append]
  split
  · rename_i hempty
    simp [List.isEmpty_iff.mp hempty, hslash]
  · rfl

theorem readToken_slash {c : Char} {rest : List Char}
    (hliteral : c = '"' ∨ c = '\'' → Literal.Closed c rest) (hslash : c :: rest ≠ ['\\'])
    (hleft : (readToken c rest).2 ≠ ['\\']) (hhyphen : (readToken c rest).2 ≠ ['-', '\\'])
    (more : List Char) :
    readToken c (rest ++ '/' :: more) =
      ((readToken c rest).1, (readToken c rest).2 ++ '/' :: more) := by
  have hhash : (c = '#' ∧ startsHash (rest ++ '/' :: more) = true) ↔
      (c = '#' ∧ startsHash rest = true) := by
    apply and_congr_right
    intro hc
    subst hc
    have hrest : rest ≠ ['\\'] := by
      intro heq
      subst heq
      exact hleft rfl
    rw [(fromOuter_slash more).startsHash_eq (startsEscape_slash more hrest)]
  have hnumber : startsNumber (c :: (rest ++ '/' :: more)) = startsNumber (c :: rest) :=
    (fromOuter_slash more).startsNumber_eq (c :: rest)
  have hname : startsName (c :: (rest ++ '/' :: more)) = startsName (c :: rest) := by
    apply startsName_slash more hslash
    intro heq
    cases heq
    exact hleft rfl
  -- The slash leaves every test as it was, so that both texts begin with the same kind of token.
  rw [readToken]
  simp only [hhash, hnumber, hname]
  revert hleft hhyphen
  fun_cases readToken c rest with
  | case1 hblank =>
      intro _ _
      rw [if_pos hblank, dropWhile_isBlank_slash]
  | case2 hblank hquote =>
      intro _ _
      have hne : c ≠ '\\' := by
        intro hc
        subst hc
        exact absurd hquote (by decide)
      rw [if_neg hblank, if_pos hquote, readString_slash hne (hliteral hquote)]
  | case3 hblank hquote hstarts =>
      intro hleft _
      rw [if_neg hblank, if_neg hquote, if_pos hstarts, Name.read_slash more hleft]
  | case4 hblank hquote hstarts hdigits =>
      intro hleft hhyphen
      rw [if_neg hblank, if_neg hquote, if_neg hstarts, if_pos hdigits]
      exact readNumber_slash hleft hhyphen more
  | case5 hblank hquote hstarts hdigits hletters =>
      intro hleft _
      rw [if_neg hblank, if_neg hquote, if_neg hstarts, if_neg hdigits, if_pos hletters]
      exact readNamed_slash hleft more
  | case6 hblank hquote hstarts hdigits hletters =>
      intro _ _
      rw [if_neg hblank, if_neg hquote, if_neg hstarts, if_neg hdigits, if_neg hletters]

/-! ## Comments -/

theorem dropComment_cons {c : Char} {rest : List Char} (h : c = '*' → rest.head? ≠ some '/') :
    dropComment (c :: rest) = dropComment rest := by
  apply dropComment.eq_3
  intro behind hc hrest
  exact h hc (by rw [hrest]; rfl)

theorem dropComment_append {body : List Char} (h : ['*', '/'] <:+: body) (more : List Char) :
    dropComment (body ++ more) = dropComment body ++ more := by
  fun_induction dropComment body with
  | case1 => exact absurd h (by decide)
  | case2 rest => rfl
  | case3 c rest hnone ih =>
      rcases List.infix_cons_iff.mp h with hend | hrest
      · obtain ⟨hc, hslash⟩ := List.cons_prefix_cons.mp hend
        obtain ⟨behind, hbehind⟩ := hslash
        exact (hnone behind hc.symm hbehind.symm).elim
      · rw [List.cons_append, dropComment_cons, ih hrest]
        intro hc hslash
        cases rest with
        | nil => exact absurd hrest (by decide)
        | cons d rest => exact hnone rest hc (congrArg (· :: rest) (Option.some.inj hslash))

/-- A body that ends with a star, or is a slash, is closed by the first end behind it. -/
theorem dropComment_body {body : List Char} (h : ¬ ['*', '/'] <:+: body) (more : List Char) :
    dropComment (body ++ '*' :: '/' :: more) = more := by
  induction body with
  | nil => rfl
  | cons c rest ih =>
      have hrest : ¬ ['*', '/'] <:+: rest := fun hrest => h (List.infix_cons hrest)
      rw [List.cons_append, dropComment_cons, ih hrest]
      intro hc hslash
      cases rest with
      | nil => simp at hslash
      | cons d rest =>
          cases hc
          cases Option.some.inj hslash
          exact h ⟨[], rest, rfl⟩

theorem scan_comment (body : List Char) :
    scan ('/' :: '*' :: body) = scan (dropComment body) := by
  have hnext : next? ('/' :: '*' :: body) = next? (dropComment body) := by
    rw [next?, next?, dropComments]
  cases hleft : next? (dropComment body) with
  | none => rw [scan_of_next?_eq_none hleft, scan_of_next?_eq_none (hnext.trans hleft)]
  | some found =>
      obtain ⟨token, left⟩ := found
      rw [scan_of_next?_eq_some hleft, scan_of_next?_eq_some (hnext.trans hleft)]

/-- The places of a text where scanning it comes to the start of a comment or token, or its end. -/
inductive Border : List Char → List Char → Prop where
  | here (text : List Char) : Border text text
  | comment {body left : List Char} (h : Border (dropComment body) left) :
      Border ('/' :: '*' :: body) left
  | token {c : Char} {rest left : List Char} (hnone : ∀ body, c :: rest ≠ '/' :: '*' :: body)
      (h : Border (readToken c rest).2 left) : Border (c :: rest) left

theorem Border.behind_comment {body left : List Char} (h : Border ('/' :: '*' :: body) left) :
    left = '/' :: '*' :: body ∨ Border (dropComment body) left := by
  generalize htext : '/' :: '*' :: body = text at h
  cases h with
  | here => exact .inl rfl
  | comment h =>
      cases htext
      exact .inr h
  | token hnone _ => exact absurd htext.symm (hnone body)

theorem Border.behind_token {c : Char} {rest left : List Char} (h : Border (c :: rest) left)
    (hnone : ∀ body, c :: rest ≠ '/' :: '*' :: body) :
    left = c :: rest ∨ Border (readToken c rest).2 left := by
  generalize htext : c :: rest = text at h
  cases h with
  | here => exact .inl rfl
  | comment _ => exact absurd htext (hnone _)
  | token _ h =>
      cases htext
      exact .inr h

/-- Scanning the text ends in no literal and in no comment: every one it comes to is closed. -/
structure Settled (text : List Char) : Prop where
  comments_end : ∀ body, Border text ('/' :: '*' :: body) → ['*', '/'] <:+: body
  literals_end : ∀ quote body, quote = '"' ∨ quote = '\'' → Border text (quote :: body) →
    Literal.Closed quote body

theorem Border.suffix {text left : List Char} (h : Border text left) : left <:+ text := by
  induction h with
  | here text => exact List.suffix_rfl
  | @comment body left _ ih =>
      exact (ih.trans (dropComment_suffix body)).trans
        ((List.suffix_cons _ _).trans (List.suffix_cons _ _))
  | token _ _ ih => exact ih.trans (readToken_suffix _ _)

/-- The tokens behind a border are the last tokens of the text. -/
theorem Border.scan_suffix {text left : List Char} (h : Border text left) :
    scan left <:+ scan text := by
  induction h with
  | here text => exact List.suffix_rfl
  | comment _ ih => rwa [scan_comment]
  | token hnone _ ih =>
      rw [scan_token hnone]
      exact ih.trans (List.suffix_cons _ _)

theorem Settled.of_border {text next : List Char} (hsettled : Settled text)
    (h : ∀ left, Border next left → Border text left) : Settled next where
  comments_end body hborder := hsettled.comments_end body (h _ hborder)
  literals_end quote body hquote hborder :=
    hsettled.literals_end quote body hquote (h _ hborder)

theorem Settled.readToken_slash {c : Char} {rest : List Char} (hsettled : Settled (c :: rest))
    (hnone : ∀ body, c :: rest ≠ '/' :: '*' :: body) (hslash : ¬ Border (c :: rest) ['\\'])
    (more : List Char) :
    readToken c (rest ++ '/' :: more) =
      ((readToken c rest).1, (readToken c rest).2 ++ '/' :: more) := by
  have hleft : ∀ left, Border left ['\\'] → (readToken c rest).2 ≠ left := by
    intro left hborder heq
    exact hslash (.token hnone (heq ▸ hborder))
  have hhyphen : Border ['-', '\\'] ['\\'] := .token (by simp) (.here ['\\'])
  apply Token.readToken_slash
  · intro hquote
    exact hsettled.literals_end c rest hquote (.here _)
  · intro htext
    exact hslash (htext ▸ .here _)
  · exact hleft _ (.here _)
  · exact hleft _ hhyphen

theorem ne_comment_append {c : Char} {rest : List Char}
    (hnone : ∀ body, c :: rest ≠ '/' :: '*' :: body) (more : List Char) :
    ∀ body, c :: (rest ++ '/' :: more) ≠ '/' :: '*' :: body := by
  intro body htext
  cases rest with
  | nil => simp at htext
  | cons d rest =>
      simp only [List.cons_append, List.cons.injEq] at htext
      exact hnone rest (by rw [htext.1, htext.2.1])

/-- A comment ends the tokens of a settled text as its own end does. -/
theorem scan_append_comment {text : List Char} (hsettled : Settled text)
    (hslash : ¬ Border text ['\\']) (body : List Char) :
    ∃ tokens, scan text = tokens ++ [eof] ∧
      scan (text ++ '/' :: '*' :: body) = tokens ++ scan ('/' :: '*' :: body) := by
  induction hlength : text.length using Nat.strongRecOn generalizing text with
  | ind length ih =>
      subst hlength
      by_cases hcomment : ∃ inner, text = '/' :: '*' :: inner
      · obtain ⟨inner, htext⟩ := hcomment
        subst htext
        have hclosed := hsettled.comments_end inner (.here _)
        have hle := dropComment_length_le inner
        have hborder : ∀ left, Border (dropComment inner) left →
            Border ('/' :: '*' :: inner) left := fun _ => .comment
        obtain ⟨tokens, hscan, happend⟩ := ih (dropComment inner).length
          (by simp only [List.length_cons]; omega) (hsettled.of_border hborder)
          (fun h => hslash (hborder _ h)) rfl
        refine ⟨tokens, by rw [scan_comment, hscan], ?_⟩
        rw [List.cons_append, List.cons_append, scan_comment, dropComment_append hclosed, happend]
      · cases text with
        | nil => exact ⟨[], scan_nil, rfl⟩
        | cons c rest =>
            have hnone : ∀ inner, c :: rest ≠ '/' :: '*' :: inner :=
              fun inner htext => hcomment ⟨inner, htext⟩
            have hborder : ∀ left, Border (readToken c rest).2 left → Border (c :: rest) left :=
              fun _ => .token hnone
            obtain ⟨tokens, hscan, happend⟩ := ih (readToken c rest).2.length
              (readToken_length_lt c rest) (hsettled.of_border hborder)
              (fun h => hslash (hborder _ h)) rfl
            refine ⟨(readToken c rest).1 :: tokens, ?_, ?_⟩
            · rw [scan_token hnone, hscan, List.cons_append]
            · rw [List.cons_append, scan_token (ne_comment_append hnone _),
                hsettled.readToken_slash hnone hslash, happend, List.cons_append]

/--
Between a settled text, of which no last backslash is a token, and any other text a comment
makes no token, and keeps the tokens of the two as they are.
-/
theorem ofText_comment_between {text body : String} (hsettled : Settled text.toList)
    (hslash : ¬ (text.toList.getLast? = some '\\' ∧
      (ofText text).dropLast.getLast? = some (.delim '\\')))
    (hbody : ¬ "*/".toList <:+: body.toList) (more : String) :
    ∃ tokens, ofText text = tokens ++ [eof] ∧
      ofText (text ++ "/*" ++ body ++ "*/" ++ more) = tokens ++ ofText more := by
  have hdelim : scan ['\\'] = [.delim '\\', eof] := by
    rw [scan_cons (by decide) (show readToken '\\' [] = (.delim '\\', []) from rfl), scan_nil]
  have hborder : ¬ Border text.toList ['\\'] := by
    intro hborder
    obtain ⟨before, htext⟩ := hborder.suffix
    obtain ⟨tokens, hscan⟩ := hborder.scan_suffix
    apply hslash
    rw [ofText, ← hscan, ← htext, hdelim]
    simp
  obtain ⟨tokens, hscan, happend⟩ := scan_append_comment hsettled hborder
    (body.toList ++ '*' :: '/' :: more.toList)
  refine ⟨tokens, hscan, ?_⟩
  have hmarks : "/*".toList = ['/', '*'] ∧ "*/".toList = ['*', '/'] := by decide
  rw [hmarks.2] at hbody
  have htext : (text ++ "/*" ++ body ++ "*/" ++ more).toList =
      text.toList ++ '/' :: '*' :: (body.toList ++ '*' :: '/' :: more.toList) := by
    simp [String.toList_append, hmarks]
  rw [ofText, htext, happend, scan_comment, dropComment_body hbody, ofText]

theorem ofText_comment_between_escape :
    let text := "'\\''/***/-\\41"
    Settled text.toList ∧
      ¬ (text.toList.getLast? = some '\\' ∧
        (ofText text).dropLast.getLast? = some (.delim '\\')) ∧
      ¬ "*/".toList <:+: "/".toList ∧
      ofText (text ++ "/*" ++ "/" ++ "*/" ++ "(") =
        [.string "'", .ident "-A", .delim '(', .eof] := by
  intro text
  have htext : text.toList = '\'' :: "\\''/***/-\\41".toList := by decide
  have hstring : readToken '\'' "\\''/***/-\\41".toList = (.string "'", "/***/-\\41".toList) := by
    decide +kernel
  have hcomment : "/***/-\\41".toList = '/' :: '*' :: "**/-\\41".toList := by decide
  have hname : readToken '-' "\\41".toList = (.ident "-A", []) := by decide +kernel
  have hborders : ∀ left, Border text.toList left →
      left ∈ [text.toList, "/***/-\\41".toList, "-\\41".toList, []] := by
    intro left h
    rw [htext] at h
    rcases h.behind_token (by simp) with h | h
    · simp [h, htext]
    rw [hstring, hcomment] at h
    rcases h.behind_comment with h | h
    · simp [h, hcomment]
    rw [show dropComment "**/-\\41".toList = '-' :: "\\41".toList by decide] at h
    rcases h.behind_token (by simp) with h | h
    · simp [h]
    rw [hname] at h
    cases h
    simp
  have hsettled : Settled text.toList := by
    constructor
    · intro body hborder
      have hbody : body = "**/-\\41".toList := by simpa [htext] using hborders _ hborder
      rw [hbody]
      decide
    · intro quote body hquote hborder
      obtain ⟨rfl, hbody⟩ : quote = '\'' ∧ body = "\\''/***/-\\41".toList := by
        rcases hquote with rfl | rfl
        · exact absurd (hborders _ hborder) (by simp [htext])
        · simpa [htext] using hborders _ hborder
      rw [hbody]
      exact .escape (by decide) (.quote "/***/-\\41".toList)
  have hslash : ¬ (text.toList.getLast? = some '\\' ∧
      (ofText text).dropLast.getLast? = some (.delim '\\')) := by decide +kernel
  have hbody : ¬ "*/".toList <:+: "/".toList := by decide
  obtain ⟨tokens, htokens, happend⟩ := ofText_comment_between hsettled hslash hbody "("
  have hscan : ofText text = [.string "'", .ident "-A", .eof] := by decide +kernel
  have hmore : ofText "(" = [.delim '(', .eof] := by decide +kernel
  rw [hscan] at htokens
  have heq : [.string "'", .ident "-A"] = tokens := List.append_cancel_right htokens
  refine ⟨hsettled, hslash, hbody, ?_⟩
  rw [happend, ← heq, hmore]
  rfl

end Token

end Scenery.Selector
