import Scenery.Proofs.Scanning

/-!
# Changes behind a token

A numeral ends before the first blank, slash or quote at the latest, and so does
a name outside its escapes.  What is read from a text is therefore read as well
from any text that agrees with it up to there, and whose remainder begins with
one of these characters too.
-/

namespace Scenery.Selector

/-! ## How texts begin -/

theorem span_of_head? {test : Char → Bool} {cs : List Char} (h : cs.head?.any test = false) :
    cs.takeWhile test = [] ∧ cs.dropWhile test = cs := by
  cases cs with
  | nil => exact ⟨rfl, rfl⟩
  | cons c rest =>
      have hc : test c = false := h
      simp [hc]

theorem any_head?_dropWhile (test : Char → Bool) (cs : List Char) :
    (cs.dropWhile test).head?.any test = false := by
  have hhead := List.head?_dropWhile_not test cs
  cases hleft : (cs.dropWhile test).head? with
  | none => rfl
  | some c =>
      rw [hleft] at hhead
      exact hhead

theorem startsUnsigned_point (rest : List Char) :
    startsUnsigned ('.' :: rest) = rest.head?.any isDigit := by
  cases rest <;> rfl

theorem startsUnsigned_of_head?_ne {cs : List Char} (h : cs.head? ≠ some '.') :
    startsUnsigned cs = cs.head?.any isDigit := by
  cases cs with
  | nil => rfl
  | cons c rest =>
      apply startsUnsigned.eq_2
      intro d behind hc
      exact absurd (congrArg some hc) h

theorem startsNumber_of_head?_ne {cs : List Char} (hplus : cs.head? ≠ some '+')
    (hminus : cs.head? ≠ some '-') : startsNumber cs = startsUnsigned cs := by
  cases cs with
  | nil => rfl
  | cons c rest =>
      exact startsNumber_eq_startsUnsigned (fun hc => hplus (congrArg some hc))
        (fun hc => hminus (congrArg some hc)) rest

theorem startsHash_eq_any (cs : List Char) :
    startsHash cs = (cs.head?.any isNameChar || startsEscape cs) := by
  cases cs <;> rfl

theorem startsName_hyphen (rest : List Char) :
    startsName ('-' :: rest) =
      (rest.head?.any (fun d => isNameStart d || d == '-') || startsEscape rest) := by
  cases rest <;> rfl

theorem startsName_of_head?_ne {cs : List Char} (h : cs.head? ≠ some '-') :
    startsName cs = (cs.head?.any isNameStart || startsEscape cs) := by
  cases cs with
  | nil => rfl
  | cons c rest =>
      have hc : c ≠ '-' := fun hc => h (congrArg some hc)
      simp [startsName, hc]

theorem Numeral.readSign_of_head?_ne {cs : List Char} (hplus : cs.head? ≠ some '+')
    (hminus : cs.head? ≠ some '-') : Numeral.readSign cs = ([], cs) := by
  cases cs with
  | nil => rfl
  | cons c rest =>
      have hsign : ¬ (c = '+' ∨ c = '-') := by
        rintro (rfl | rfl)
        · exact hplus rfl
        · exact hminus rfl
      rw [Numeral.readSign, if_neg hsign]

theorem Numeral.readFraction_point (rest : List Char) :
    Numeral.readFraction ('.' :: rest) =
      if rest.head?.any isDigit then
        ('.' :: (Numeral.readDigits rest).1, (Numeral.readDigits rest).2)
      else ([], '.' :: rest) := by
  cases rest <;> rfl

theorem Numeral.readFraction_of_head?_ne {cs : List Char} (h : cs.head? ≠ some '.') :
    Numeral.readFraction cs = ([], cs) := by
  apply Numeral.readFraction.eq_2
  rintro d rest rfl
  exact h rfl

theorem Numeral.readExponent_of_head?_ne {cs : List Char} (hlower : cs.head? ≠ some 'e')
    (hupper : cs.head? ≠ some 'E') : Numeral.readExponent cs = ([], cs) := by
  cases cs with
  | nil => rfl
  | cons c rest =>
      have hletter : ¬ (c = 'e' ∨ c = 'E') := by
        rintro (rfl | rfl)
        · exact hlower rfl
        · exact hupper rfl
      rw [Numeral.readExponent, if_neg (fun hc => hletter hc.1)]

/-! ## Changes from a blank on -/

/--
A change to a text from its first blank on, or from its end if it has none: what
it puts there begins with a blank or a slash, if there is anything.
-/
structure FromBlank (change : List Char → List Char) : Prop where
  cons : ∀ {c : Char} (rest : List Char), isBlank c = false → change (c :: rest) = c :: change rest
  head : ∀ {cs : List Char}, (∀ c, cs.head? = some c → isBlank c = true) →
    ∀ d, (change cs).head? = some d → d = '/' ∨ isBlank d = true

/-! ## Changes outside names and numerals -/

/-- Blanks, slashes and quotes continue neither a name nor a numeral. -/
def isOuter (c : Char) : Bool :=
  isBlank c || c == '/' || c == '"' || c == '\''

/--
A change to a text from its first outer character on, or from its end if it has
none: what it puts there begins with an outer character, if there is anything.
-/
structure FromOuter (change : List Char → List Char) : Prop where
  cons : ∀ {c : Char} (rest : List Char), isOuter c = false → change (c :: rest) = c :: change rest
  head : ∀ {cs : List Char}, (∀ c, cs.head? = some c → isOuter c = true) →
    ∀ d, (change cs).head? = some d → isOuter d = true

theorem isBlank_of_isOuter_eq_false {c : Char} (h : isOuter c = false) : isBlank c = false := by
  simp only [isOuter, Bool.or_eq_false_iff] at h
  exact h.1.1.1

/-- A change from the first blank on leaves the outer characters in front of it alone. -/
theorem FromBlank.fromOuter {change : List Char → List Char} (h : FromBlank change) :
    FromOuter change where
  cons rest hc := h.cons rest (isBlank_of_isOuter_eq_false hc)
  head := by
    intro cs hcs d hd
    have hplace : d = '/' ∨ isBlank d = true → isOuter d = true := by
      intro hplace
      rcases hplace with hslash | hblank
      · rw [hslash]
        decide
      · simp [isOuter, hblank]
    cases cs with
    | nil => exact hplace (h.head (by simp) d hd)
    | cons c rest =>
        cases hblank : isBlank c with
        | true => exact hplace (h.head (by simpa using hblank) d hd)
        | false =>
            rw [h.cons rest hblank] at hd
            exact Option.some.inj hd ▸ hcs c rfl

namespace FromOuter

/-- A text put behind another, if it begins with an outer character. -/
theorem append_right {behind : List Char}
    (h : ∀ d, behind.head? = some d → isOuter d = true) : FromOuter (· ++ behind) where
  cons := fun rest _ => rfl
  head := by
    intro cs hcs d hd
    cases cs with
    | nil => exact h d hd
    | cons c rest => exact hcs d hd

/-- A test that no outer character passes. -/
def Inner (test : Char → Bool) : Prop :=
  ∀ {c : Char}, isOuter c = true → test c = false

theorem inner_of_blank {test : Char → Bool} (hblank : ∀ {c : Char}, isBlank c = true → test c = false)
    (hslash : test '/' = false) (hdouble : test '"' = false) (hsingle : test '\'' = false) :
    Inner test := by
  intro c hc
  simp only [isOuter, Bool.or_eq_true, beq_iff_eq] at hc
  rcases hc with ((hc | hc) | hc) | hc
  · exact hblank hc
  · rw [hc, hslash]
  · rw [hc, hdouble]
  · rw [hc, hsingle]

theorem inner_isNameChar : Inner isNameChar :=
  inner_of_blank isNameChar_eq_false_of_isBlank (by decide) (by decide) (by decide)

theorem inner_isHexDigit : Inner isHexDigit :=
  inner_of_blank isHexDigit_eq_false_of_isBlank (by decide) (by decide) (by decide)

theorem inner_isDigit : Inner isDigit := by
  intro c hc
  have hchar := inner_isNameChar hc
  simp only [isNameChar, Bool.or_eq_false_iff] at hchar
  exact hchar.1.2

theorem inner_isNameStart_or_hyphen : Inner (fun d => isNameStart d || d == '-') := by
  intro c hc
  have hchar := inner_isNameChar hc
  simp only [isNameChar, Bool.or_eq_false_iff] at hchar
  exact Bool.or_eq_false_iff.mpr ⟨hchar.1.1, hchar.2⟩

theorem inner_isNameStart : Inner isNameStart :=
  fun hc => (Bool.or_eq_false_iff.mp (inner_isNameStart_or_hyphen hc)).1

/-- Being one character is such a test, unless it is an outer one. -/
theorem inner_beq {d : Char} (houter : isOuter d = false) : Inner (· == d) := by
  intro c hc
  have hne : c ≠ d := by
    intro heq
    rw [heq, houter] at hc
    cases hc
  simpa using hne

variable {change : List Char → List Char} (h : FromOuter change)

include h

theorem any_head? {test : Char → Bool} (htest : Inner test) (cs : List Char) :
    (change cs).head?.any test = cs.head?.any test := by
  have hstop : (∀ c, cs.head? = some c → isOuter c = true) →
      (change cs).head?.any test = false := by
    intro hcs
    cases hhead : (change cs).head? with
    | none => rfl
    | some d => exact htest (h.head hcs d hhead)
  cases cs with
  | nil => exact hstop (by simp)
  | cons c rest =>
      cases hc : isOuter c with
      | true =>
          rw [hstop (by simpa using hc)]
          exact (htest hc).symm
      | false =>
          rw [h.cons rest hc]
          rfl

/-- A test that no outer character passes stops at the same place. -/
theorem span {test : Char → Bool} (htest : Inner test) (cs : List Char) :
    (change cs).takeWhile test = cs.takeWhile test ∧
      (change cs).dropWhile test = change (cs.dropWhile test) := by
  induction cs with
  | nil =>
      obtain ⟨htake, hdrop⟩ := span_of_head? ((h.any_head? htest []).trans rfl)
      exact ⟨htake, hdrop⟩
  | cons c rest ih =>
      cases hc : test c with
      | false =>
          obtain ⟨htake, hdrop⟩ := span_of_head? ((h.any_head? htest (c :: rest)).trans hc)
          simp [htake, hdrop, hc]
      | true =>
          have houter : isOuter c = false := by
            rw [Bool.eq_false_iff]
            intro houter
            simp [htest houter] at hc
          rw [h.cons rest houter]
          simpa [hc] using ih

theorem append {front : List Char} (hfront : ∀ c ∈ front, isOuter c = false) (rest : List Char) :
    change (front ++ rest) = front ++ change rest := by
  induction front with
  | nil => rfl
  | cons c front ih =>
      rw [List.cons_append, h.cons _ (hfront c List.mem_cons_self),
        ih fun d hd => hfront d (List.mem_cons_of_mem c hd), List.cons_append]

theorem head?_eq_some_iff {c : Char} (houter : isOuter c = false) (cs : List Char) :
    (change cs).head? = some c ↔ cs.head? = some c := by
  have hany := h.any_head? (inner_beq houter) cs
  rw [Bool.eq_iff_iff] at hany
  simpa only [Option.any_eq_true, beq_iff_eq, exists_eq_right] using hany

/-! ## Numbers -/

theorem startsUnsigned_eq (cs : List Char) :
    startsUnsigned (change cs) = startsUnsigned cs := by
  have hpoint := h.head?_eq_some_iff (show isOuter '.' = false by decide) cs
  by_cases hhead : cs.head? = some '.'
  · obtain ⟨rest, rfl⟩ := List.head?_eq_some_iff.mp hhead
    rw [h.cons rest (by decide), startsUnsigned_point, startsUnsigned_point,
      h.any_head? inner_isDigit]
  · rw [startsUnsigned_of_head?_ne hhead, startsUnsigned_of_head?_ne (mt hpoint.mp hhead),
      h.any_head? inner_isDigit]

theorem startsNumber_eq (cs : List Char) : startsNumber (change cs) = startsNumber cs := by
  have hplus := h.head?_eq_some_iff (show isOuter '+' = false by decide) cs
  have hminus := h.head?_eq_some_iff (show isOuter '-' = false by decide) cs
  by_cases hsign : cs.head? = some '+' ∨ cs.head? = some '-'
  · rcases hsign with hhead | hhead
    · obtain ⟨rest, rfl⟩ := List.head?_eq_some_iff.mp hhead
      rw [h.cons rest (by decide)]
      exact h.startsUnsigned_eq rest
    · obtain ⟨rest, rfl⟩ := List.head?_eq_some_iff.mp hhead
      rw [h.cons rest (by decide)]
      exact h.startsUnsigned_eq rest
  · obtain ⟨hne, hne'⟩ := not_or.mp hsign
    rw [startsNumber_of_head?_ne hne hne',
      startsNumber_of_head?_ne (mt hplus.mp hne) (mt hminus.mp hne'), h.startsUnsigned_eq]

theorem readSign_eq (cs : List Char) :
    Numeral.readSign (change cs) = ((Numeral.readSign cs).1, change (Numeral.readSign cs).2) := by
  have hplus := h.head?_eq_some_iff (show isOuter '+' = false by decide) cs
  have hminus := h.head?_eq_some_iff (show isOuter '-' = false by decide) cs
  by_cases hsign : cs.head? = some '+' ∨ cs.head? = some '-'
  · rcases hsign with hhead | hhead
    · obtain ⟨rest, rfl⟩ := List.head?_eq_some_iff.mp hhead
      rw [h.cons rest (by decide)]
      rfl
    · obtain ⟨rest, rfl⟩ := List.head?_eq_some_iff.mp hhead
      rw [h.cons rest (by decide)]
      rfl
  · obtain ⟨hne, hne'⟩ := not_or.mp hsign
    rw [Numeral.readSign_of_head?_ne hne hne',
      Numeral.readSign_of_head?_ne (mt hplus.mp hne) (mt hminus.mp hne')]

theorem readDigits_eq (cs : List Char) :
    Numeral.readDigits (change cs) =
      ((Numeral.readDigits cs).1, change (Numeral.readDigits cs).2) := by
  obtain ⟨htake, hdrop⟩ := h.span inner_isDigit cs
  rw [Numeral.readDigits, Numeral.readDigits, htake, hdrop]

theorem readFraction_eq (cs : List Char) :
    Numeral.readFraction (change cs) =
      ((Numeral.readFraction cs).1, change (Numeral.readFraction cs).2) := by
  have hpoint := h.head?_eq_some_iff (show isOuter '.' = false by decide) cs
  by_cases hhead : cs.head? = some '.'
  · obtain ⟨rest, rfl⟩ := List.head?_eq_some_iff.mp hhead
    rw [h.cons rest (by decide), Numeral.readFraction_point, Numeral.readFraction_point,
      h.any_head? inner_isDigit, h.readDigits_eq]
    split
    · rfl
    · rw [h.cons rest (by decide)]
  · rw [Numeral.readFraction_of_head?_ne hhead,
      Numeral.readFraction_of_head?_ne (mt hpoint.mp hhead)]

theorem readExponent_eq (cs : List Char) :
    Numeral.readExponent (change cs) =
      ((Numeral.readExponent cs).1, change (Numeral.readExponent cs).2) := by
  have hlower := h.head?_eq_some_iff (show isOuter 'e' = false by decide) cs
  have hupper := h.head?_eq_some_iff (show isOuter 'E' = false by decide) cs
  have hletter : ∀ {c : Char} (rest : List Char), isOuter c = false →
      Numeral.readExponent (change (c :: rest)) =
        ((Numeral.readExponent (c :: rest)).1, change (Numeral.readExponent (c :: rest)).2) := by
    intro c rest hc
    rw [h.cons rest hc, Numeral.readExponent, Numeral.readExponent, h.readSign_eq,
      h.any_head? inner_isDigit, h.readDigits_eq]
    split
    · rfl
    · rw [h.cons rest hc]
  by_cases hhead : cs.head? = some 'e' ∨ cs.head? = some 'E'
  · rcases hhead with hhead | hhead
    · obtain ⟨rest, rfl⟩ := List.head?_eq_some_iff.mp hhead
      exact hletter rest (by decide)
    · obtain ⟨rest, rfl⟩ := List.head?_eq_some_iff.mp hhead
      exact hletter rest (by decide)
  · obtain ⟨hne, hne'⟩ := not_or.mp hhead
    rw [Numeral.readExponent_of_head?_ne hne hne',
      Numeral.readExponent_of_head?_ne (mt hlower.mp hne) (mt hupper.mp hne')]

theorem readNumeral_eq (cs : List Char) :
    Numeral.read (change cs) = ((Numeral.read cs).1, change (Numeral.read cs).2) := by
  simp only [Numeral.read, h.readSign_eq, h.readDigits_eq, h.readFraction_eq, h.readExponent_eq]

/-! ## Names and escapes -/

theorem startsHash_eq {cs : List Char} (hescape : startsEscape (change cs) = startsEscape cs) :
    startsHash (change cs) = startsHash cs := by
  rw [startsHash_eq_any, startsHash_eq_any, h.any_head? inner_isNameChar, hescape]

theorem startsName_eq {cs : List Char} (hescape : startsEscape (change cs) = startsEscape cs)
    (hhyphen : ∀ rest, cs = '-' :: rest → startsEscape (change rest) = startsEscape rest) :
    startsName (change cs) = startsName cs := by
  have hhead := h.head?_eq_some_iff (show isOuter '-' = false by decide) cs
  by_cases hc : cs.head? = some '-'
  · obtain ⟨rest, rfl⟩ := List.head?_eq_some_iff.mp hc
    rw [h.cons rest (by decide), startsName_hyphen, startsName_hyphen,
      h.any_head? inner_isNameStart_or_hyphen, hhyphen rest rfl]
  · rw [startsName_of_head?_ne hc, startsName_of_head?_ne (mt hhead.mp hc),
      h.any_head? inner_isNameStart, hescape]

theorem hexDigits_eq (cs : List Char) : Escape.hexDigits (change cs) = Escape.hexDigits cs := by
  rw [Escape.hexDigits, Escape.hexDigits, ← List.take_takeWhile, ← List.take_takeWhile,
    (h.span inner_isHexDigit cs).1]

theorem drop_hexDigits (cs : List Char) :
    (change cs).drop (Escape.hexDigits cs).length =
      change (cs.drop (Escape.hexDigits cs).length) := by
  have hprefix : Escape.hexDigits cs <+: cs :=
    (List.takeWhile_prefix isHexDigit).trans (List.take_prefix 6 cs)
  have houter : ∀ c ∈ Escape.hexDigits cs, isOuter c = false := by
    intro c hc
    have hhex : isHexDigit c = true := List.all_eq_true.mp List.all_takeWhile c hc
    rw [Bool.eq_false_iff]
    intro houter
    simp [inner_isHexDigit houter] at hhex
  have happend := h.append houter (cs.drop (Escape.hexDigits cs).length)
  rw [List.prefix_iff_eq_append.mp hprefix] at happend
  rw [happend, List.drop_left]

/-- An escape is read alike if its first character stays, and the text behind its digits as well. -/
theorem readEscape_eq {c : Char} {rest : List Char} (hc : change (c :: rest) = c :: change rest)
    (hleft : ∀ left, (c :: rest).drop (Escape.hexDigits (c :: rest)).length = left →
      Escape.dropBlank (change left) = change (Escape.dropBlank left)) :
    Escape.read (change (c :: rest)) =
      ((Escape.read (c :: rest)).1, change (Escape.read (c :: rest)).2) := by
  have hdigits := h.hexDigits_eq (c :: rest)
  have hdrop := h.drop_hexDigits (c :: rest)
  rw [hc] at hdigits hdrop ⊢
  by_cases hhex : isHexDigit c = true
  · simp only [Escape.read, if_pos hhex, hdigits, hdrop, hleft _ rfl]
  · simp only [Escape.read, if_neg hhex]

theorem readNamed_eq {cs : List Char}
    (hname : Name.read (change cs) = ((Name.read cs).1, change (Name.read cs).2)) :
    Token.readNamed (change cs) = ((Token.readNamed cs).1, change (Token.readNamed cs).2) := by
  rcases hread : Name.read cs with ⟨name, left⟩
  rw [hread] at hname
  have hhead := h.head?_eq_some_iff (show isOuter '(' = false by decide) left
  by_cases hparen : left.head? = some '('
  · obtain ⟨behind, rfl⟩ := List.head?_eq_some_iff.mp hparen
    rw [h.cons behind (by decide)] at hname
    rw [Token.readNamed, Token.readNamed, hname, hread]
    rfl
  · rw [Token.readNamed_of_head?_ne hread hparen,
      Token.readNamed_of_head?_ne hname (mt hhead.mp hparen)]

theorem readNumber_eq {cs : List Char}
    (hstarts : startsName (change (Numeral.read cs).2) = startsName (Numeral.read cs).2)
    (hname : startsName (Numeral.read cs).2 = true →
      Name.read (change (Numeral.read cs).2) =
        ((Name.read (Numeral.read cs).2).1, change (Name.read (Numeral.read cs).2).2)) :
    Token.readNumber (change cs) = ((Token.readNumber cs).1, change (Token.readNumber cs).2) := by
  have hnumeral := h.readNumeral_eq cs
  rcases hread : Numeral.read cs with ⟨numeral, behind⟩
  rw [hread] at hstarts hname hnumeral
  cases hunit : startsName behind with
  | true =>
      simp only [Token.readNumber, hread, hnumeral, hstarts, hunit, if_true, hname hunit]
  | false =>
      have hhead := h.head?_eq_some_iff (show isOuter '%' = false by decide) behind
      by_cases hpercent : behind.head? = some '%'
      · obtain ⟨left, rfl⟩ := List.head?_eq_some_iff.mp hpercent
        rw [h.cons left (by decide)] at hstarts hnumeral
        rw [hunit] at hstarts
        rw [Token.readNumber, Token.readNumber, hnumeral, hread]
        simp only [hstarts, hunit]
        rfl
      · rw [Token.readNumber_of_head?_ne hread hunit hpercent,
          Token.readNumber_of_head?_ne hnumeral (hstarts.trans hunit) (mt hhead.mp hpercent)]

/-! ## Tokens -/

/-- A token is read alike if the literal or name that it can begin with is. -/
theorem readToken_eq {c : Char} {rest : List Char} (hcons : change (c :: rest) = c :: change rest)
    (hblank : isBlank c = false)
    (hliteral : c = '"' ∨ c = '\'' →
      Token.readString c (change rest) =
        ((Token.readString c rest).1, change (Token.readString c rest).2))
    (hhash : c = '#' → startsHash (change rest) = startsHash rest)
    (hhashed : c = '#' → startsHash rest = true →
      Name.read (change rest) = ((Name.read rest).1, change (Name.read rest).2))
    (hnumber : startsNumber (c :: rest) = true →
      Token.readNumber (change (c :: rest)) =
        ((Token.readNumber (c :: rest)).1, change (Token.readNumber (c :: rest)).2))
    (hname : startsNumber (c :: rest) = false →
      startsName (change (c :: rest)) = startsName (c :: rest))
    (hnamed : startsNumber (c :: rest) = false → startsName (c :: rest) = true →
      Token.readNamed (change (c :: rest)) =
        ((Token.readNamed (c :: rest)).1, change (Token.readNamed (c :: rest)).2)) :
    Token.readToken c (change rest) =
      ((Token.readToken c rest).1, change (Token.readToken c rest).2) := by
  have hdigits := h.startsNumber_eq (c :: rest)
  have hstarts : (c = '#' ∧ startsHash (change rest) = true) ↔
      (c = '#' ∧ startsHash rest = true) := by
    apply and_congr_right
    intro hc
    rw [hhash hc]
  rw [hcons] at hdigits hname hnumber hnamed
  rw [Token.readToken]
  simp only [hstarts, hdigits]
  fun_cases Token.readToken c rest with
  | case1 hc => simp [hblank] at hc
  | case2 _ hquote =>
      rw [if_neg (by simp [hblank]), if_pos hquote, hliteral hquote]
  | case3 _ hquote hstart =>
      rw [if_neg (by simp [hblank]), if_neg hquote, if_pos hstart, hhashed hstart.1 hstart.2]
  | case4 _ hquote hstart hdigit =>
      rw [if_neg (by simp [hblank]), if_neg hquote, if_neg hstart, if_pos hdigit, hnumber hdigit]
  | case5 _ hquote hstart hdigit hletter =>
      have hnone : startsNumber (c :: rest) = false := by simpa using hdigit
      rw [if_neg (by simp [hblank]), if_neg hquote, if_neg hstart, if_neg hdigit, hname hnone,
        if_pos hletter, hnamed hnone hletter]
  | case6 _ hquote hstart hdigit hletter =>
      rw [if_neg (by simp [hblank]), if_neg hquote, if_neg hstart, if_neg hdigit,
        hname (by simpa using hdigit), if_neg hletter]

end FromOuter

end Scenery.Selector
