import Scenery.Selector.Scan

/-!
# Where tokens end

A token is cut off the text without a look at what was read before it, and with
a look at a few characters behind it at most.  For each kind of token that the
text of a selector is made of, the lemmas below say what has to stand behind it
so that it ends where it was written to end.
-/

namespace Scenery.Selector

/-! ## Character classes -/

theorem isNameStart_eq_false_of_isDigit {c : Char} (h : isDigit c = true) :
    isNameStart c = false := by
  simp only [isDigit, Bool.and_eq_true, decide_eq_true_eq] at h
  simp only [isNameStart, Bool.or_eq_false_iff, Bool.and_eq_false_imp, decide_eq_true_eq,
    decide_eq_false_iff_not, beq_eq_false_iff_ne]
  refine ⟨⟨⟨?_, ?_⟩, ?_⟩, ?_⟩
  · intro ha
    exact absurd (Char.le_trans ha h.2) (by decide)
  · intro ha
    exact absurd (Char.le_trans ha h.2) (by decide)
  · rintro rfl
    exact absurd h.2 (by decide)
  · intro ha
    exact absurd (Char.le_trans ha h.2) (by decide)

theorem isNameChar_eq_false_of_isBlank {c : Char} (h : isBlank c = true) :
    isNameChar c = false := by
  simp only [isBlank, Bool.or_eq_true, beq_iff_eq] at h
  rcases h with (((rfl | rfl) | rfl) | rfl) | rfl <;> decide

theorem isHexDigit_eq_false_of_isBlank {c : Char} (h : isBlank c = true) :
    isHexDigit c = false := by
  simp only [isBlank, Bool.or_eq_true, beq_iff_eq] at h
  rcases h with (((rfl | rfl) | rfl) | rfl) | rfl <;> decide

/-- A name character that may start a name is no sign of any other token. -/
theorem ne_of_isNameStart {c : Char} (h : isNameStart c = true) {d : Char}
    (hd : isNameStart d = false) : c ≠ d := by
  rintro rfl
  simp [h] at hd

/-- A quote is no other mark, and no blank. -/
theorem ne_of_isQuote {quote : Char} (h : quote = '"' ∨ quote = '\'') {d : Char}
    (hd : d ≠ '"' ∧ d ≠ '\'') : quote ≠ d := by
  rcases h with rfl | rfl
  · exact hd.1.symm
  · exact hd.2.symm

theorem isBlank_eq_false_of_isQuote {quote : Char} (h : quote = '"' ∨ quote = '\'') :
    isBlank quote = false := by
  rcases h with rfl | rfl <;> rfl

/--
Whether the text is a plain identifier: name characters only, the first of
which can start a name, or is a hyphen with such a character or a hyphen behind.
-/
def isIdentifier : List Char → Bool
  | [] => false
  | [c] => isNameStart c
  | c :: d :: rest =>
    (isNameStart c || c == '-' && (isNameStart d || d == '-')) && (d :: rest).all isNameChar

/-- Whether a name, and a name without a parenthesis, ends before this text. -/
def endsName : List Char → Bool
  | [] => true
  | c :: _ => !isNameChar c && c != '\\' && c != '('

/-! ## Escapes -/

/-- The digits of an escape end before the first character that is none. -/
theorem Escape.hexDigits_append {c : Char} (hc : isHexDigit c = false) (cs rest : List Char) :
    Escape.hexDigits (cs ++ c :: rest) = Escape.hexDigits cs := by
  have hnone : ((c :: rest).take (6 - cs.length)).takeWhile isHexDigit = [] := by
    cases 6 - cs.length with
    | zero => rfl
    | succ room => simp [hc]
  unfold Escape.hexDigits
  rw [List.take_append, List.takeWhile_append, hnone, List.append_nil]
  split
  · rename_i hall
    exact ((List.takeWhile_prefix isHexDigit).eq_of_length hall).symm
  · rfl

theorem Escape.read_of_isHexDigit {c : Char} (hc : isHexDigit c = true) (rest : List Char) :
    Escape.read (c :: rest) =
      (Escape.scalar (Escape.hexValue (c :: (rest.take 5).takeWhile isHexDigit)),
        Escape.dropBlank (rest.drop ((rest.take 5).takeWhile isHexDigit).length)) := by
  have hdigits : Escape.hexDigits (c :: rest) = c :: (rest.take 5).takeWhile isHexDigit := by
    rw [Escape.hexDigits, List.take_succ_cons, List.takeWhile_cons_of_pos hc]
  simp only [Escape.read, if_pos hc, hdigits, List.length_cons, List.drop_succ_cons]

theorem Escape.digitValue_lt (c : Char) : Escape.digitValue c < 16 := by
  unfold Escape.digitValue
  split
  · rename_i hdigit
    simp only [isDigit, Bool.and_eq_true, decide_eq_true_eq] at hdigit
    have hle : c.toNat ≤ '9'.toNat := hdigit.2
    have hnine : '9'.toNat = 57 ∧ '0'.toNat = 48 := by decide
    omega
  · split
    · rename_i hlower
      have hle : c.toNat ≤ 'f'.toNat := hlower.2
      have hf : 'f'.toNat = 102 ∧ 'a'.toNat = 97 := by decide
      omega
    · split
      · rename_i hupper
        have hle : c.toNat ≤ 'F'.toNat := hupper.2
        have hf : 'F'.toNat = 70 ∧ 'A'.toNat = 65 := by decide
        omega
      · decide

/-- Six digits are a number of 32 bits. -/
theorem Escape.hexValue_lt {digits : List Char} (h : digits.length ≤ 6) :
    Escape.hexValue digits < UInt32.size := by
  have hgrows : ∀ value : Nat,
      digits.foldl (fun value c => 16 * value + Escape.digitValue c) value <
        (value + 1) * 16 ^ digits.length := by
    clear h
    induction digits with
    | nil => simp
    | cons c digits ih =>
        intro value
        have hc := Escape.digitValue_lt c
        calc
          (c :: digits).foldl (fun value c => 16 * value + Escape.digitValue c) value <
              (16 * value + Escape.digitValue c + 1) * 16 ^ digits.length := ih _
          _ ≤ (16 * (value + 1)) * 16 ^ digits.length :=
            Nat.mul_le_mul_right _ (by omega)
          _ = (value + 1) * 16 ^ (c :: digits).length := by
            rw [List.length_cons, Nat.pow_succ, Nat.mul_comm 16, Nat.mul_assoc, Nat.mul_comm 16]
  calc
    Escape.hexValue digits < (0 + 1) * 16 ^ digits.length := hgrows 0
    _ = 16 ^ digits.length := Nat.one_mul _
    _ ≤ 16 ^ 6 := Nat.pow_le_pow_right (by decide) h
    _ < UInt32.size := by decide

theorem startsEscape_backslash (rest : List Char) :
    startsEscape ('\\' :: rest) = rest.head?.any (· != '\n') := by
  cases rest <;> rfl

theorem startsEscape_of_head?_ne {cs : List Char} (h : cs.head? ≠ some '\\') :
    startsEscape cs = false := by
  apply startsEscape.eq_2
  rintro c rest rfl
  exact h rfl

/-! ## Names -/

theorem Name.read_cons_of_isNameChar {c : Char} (h : isNameChar c = true) (rest : List Char) :
    Name.read (c :: rest) = (c :: (Name.read rest).1, (Name.read rest).2) := by
  rw [Name.read, if_pos h]

theorem Name.read_escape {rest : List Char} (h : startsEscape ('\\' :: rest) = true) :
    Name.read ('\\' :: rest) =
      ((Escape.read rest).1 :: (Name.read (Escape.read rest).2).1,
        (Name.read (Escape.read rest).2).2) := by
  have hslash : isNameChar '\\' = false := by decide
  rw [Name.read, if_neg (by simp [hslash]), if_pos h]

theorem Name.read_of_head? {cs : List Char} (hchar : cs.head?.any isNameChar = false)
    (hescape : startsEscape cs = false) : Name.read cs = ([], cs) := by
  cases cs with
  | nil => exact Name.read_nil
  | cons c rest =>
      have hc : ¬ isNameChar c = true := by simpa using hchar
      rw [Name.read, if_neg hc, if_neg (by simp [hescape])]

theorem Name.read_append_of_endsName {name rest : List Char}
    (hname : ∀ c ∈ name, isNameChar c = true) (hrest : endsName rest = true) :
    Name.read (name ++ rest) = (name, rest) := by
  induction name with
  | nil =>
      cases rest with
      | nil => simp
      | cons c rest =>
          simp only [endsName, Bool.and_eq_true, Bool.not_eq_true', bne_iff_ne] at hrest
          obtain ⟨⟨hc, hslash⟩, -⟩ := hrest
          exact Name.read_of_head? hc (startsEscape_of_head?_ne (by simpa using hslash))
  | cons c name ih =>
      have hc := hname c List.mem_cons_self
      have hread := ih fun d hd => hname d (List.mem_cons_of_mem c hd)
      rw [List.cons_append, Name.read, if_pos hc, hread]

theorem isNameChar_of_isIdentifier {name : List Char} (h : isIdentifier name = true) :
    ∀ c ∈ name, isNameChar c = true := by
  have hstart : ∀ c, isNameStart c = true → isNameChar c = true := by
    intro c hc
    simp [isNameChar, hc]
  rcases name with - | ⟨c, - | ⟨d, rest⟩⟩
  · simp
  · simpa using hstart c h
  · simp only [isIdentifier, Bool.and_eq_true, Bool.or_eq_true, beq_iff_eq,
      List.all_eq_true] at h
    obtain ⟨hfirst, hrest⟩ := h
    intro e he
    rcases List.mem_cons.mp he with rfl | he
    · rcases hfirst with hfirst | ⟨rfl, -⟩
      · exact hstart e hfirst
      · decide
    · exact hrest e he

theorem startsName_append {name : List Char} (h : isIdentifier name = true) (rest : List Char) :
    startsName (name ++ rest) = true := by
  have hhyphen : isNameStart '-' = false := by decide
  match name with
  | [] => simp [isIdentifier] at h
  | [c] =>
      have hc : c ≠ '-' := ne_of_isNameStart h hhyphen
      simp only [isIdentifier] at h
      simp [startsName, hc, h]
  | c :: d :: name =>
      simp only [isIdentifier, Bool.and_eq_true, Bool.or_eq_true, beq_iff_eq] at h
      rcases h.1 with hc | ⟨rfl, hd⟩
      · have hne : c ≠ '-' := ne_of_isNameStart hc hhyphen
        simp [startsName, hne, hc]
      · rcases hd with hd | hd <;> simp [startsName, hd]

theorem startsUnsigned_eq_false {c : Char} (hdigit : isDigit c = false) (hpoint : c ≠ '.')
    (rest : List Char) : startsUnsigned (c :: rest) = false := by
  unfold startsUnsigned
  split
  · rename_i heq
    cases heq
    exact absurd rfl hpoint
  · rename_i heq
    cases heq
    exact hdigit
  · rfl

theorem startsUnsigned_eq_false_of_isNameStart {c : Char} (h : isNameStart c = true)
    (rest : List Char) : startsUnsigned (c :: rest) = false := by
  refine startsUnsigned_eq_false ?_ (ne_of_isNameStart h (by decide)) rest
  rw [Bool.eq_false_iff]
  intro hdigit
  simp [isNameStart_eq_false_of_isDigit hdigit] at h

theorem startsNumber_eq_startsUnsigned {c : Char} (hplus : c ≠ '+') (hminus : c ≠ '-')
    (rest : List Char) : startsNumber (c :: rest) = startsUnsigned (c :: rest) := by
  unfold startsNumber
  split
  · rename_i heq
    cases heq
    exact absurd rfl hplus
  · rename_i heq
    cases heq
    exact absurd rfl hminus
  · rfl

/-- Where neither a sign, a point nor a hyphen stands, one character decides about a number. -/
theorem startsNumber_eq_isDigit {c : Char} (h : ¬ (c = '+' ∨ c = '.' ∨ c = '-'))
    (more : List Char) : startsNumber (c :: more) = isDigit c := by
  obtain ⟨hplus, hpoint, hminus⟩ : c ≠ '+' ∧ c ≠ '.' ∧ c ≠ '-' := by
    simpa only [not_or] using h
  rw [startsNumber_eq_startsUnsigned hplus hminus]
  apply startsUnsigned.eq_2
  intro d behind hc
  exact absurd hc hpoint

theorem startsNumber_append {name : List Char} (h : isIdentifier name = true)
    (rest : List Char) : startsNumber (name ++ rest) = false := by
  have hfirst : ∀ {c : Char} (cs : List Char), isNameStart c = true →
      startsNumber (c :: cs) = false := by
    intro c cs hc
    rw [startsNumber_eq_startsUnsigned (ne_of_isNameStart hc (by decide))
      (ne_of_isNameStart hc (by decide))]
    exact startsUnsigned_eq_false_of_isNameStart hc cs
  match name with
  | [] => simp [isIdentifier] at h
  | [c] => exact hfirst rest h
  | c :: d :: name =>
      simp only [isIdentifier, Bool.and_eq_true, Bool.or_eq_true, beq_iff_eq] at h
      rcases h.1 with hc | ⟨rfl, hd | rfl⟩
      · exact hfirst _ hc
      · exact startsUnsigned_eq_false_of_isNameStart hd _
      · rfl

/-! ## Literals -/

theorem Literal.read_cons_of_ne {quote c : Char} (hquote : c ≠ quote) (hline : c ≠ '\n')
    (hslash : c ≠ '\\') (rest : List Char) :
    Literal.read quote (c :: rest) =
      ((Literal.read quote rest).1.map (c :: ·), (Literal.read quote rest).2) := by
  rw [Literal.read.eq_def]
  simp [hquote, hline, hslash]

theorem Literal.read_quote (quote : Char) (rest : List Char) :
    Literal.read quote (quote :: rest) = (some [], rest) := by
  rw [Literal.read.eq_def]
  simp

theorem Literal.read_line {quote : Char} (hquote : '\n' ≠ quote) (rest : List Char) :
    Literal.read quote ('\n' :: rest) = (none, '\n' :: rest) := by
  rw [Literal.read.eq_def]
  simp [hquote]

theorem Literal.read_join {quote : Char} (hquote : quote ≠ '\\') (rest : List Char) :
    Literal.read quote ('\\' :: '\n' :: rest) = Literal.read quote rest := by
  rw [Literal.read.eq_def]
  simp [Ne.symm hquote]

theorem Literal.read_escape {quote c : Char} (hquote : quote ≠ '\\') (hline : c ≠ '\n')
    (rest : List Char) :
    Literal.read quote ('\\' :: c :: rest) =
      ((Literal.read quote (Escape.read (c :: rest)).2).1.map ((Escape.read (c :: rest)).1 :: ·),
        (Literal.read quote (Escape.read (c :: rest)).2).2) := by
  rw [Literal.read.eq_def]
  simp [Ne.symm hquote, hline]

/-- A backslash before a character that is no digit and no line feed stands for the character. -/
theorem Literal.read_escape_char {quote c : Char} (hquote : quote ≠ '\\')
    (hhex : isHexDigit c = false) (hline : c ≠ '\n') (rest : List Char) :
    Literal.read quote ('\\' :: c :: rest) =
      ((Literal.read quote rest).1.map (c :: ·), (Literal.read quote rest).2) := by
  have hread : Escape.read (c :: rest) = (c, rest) := by
    simp [Escape.read, hhex]
  rw [Literal.read_escape hquote hline, hread]

/-- A character that is quoted with no other escape is read back. -/
theorem Literal.read_quoteChar {c : Char}
    (h : Text.quoteChar c = [c] ∨ c = '"' ∨ c = '\\') (rest : List Char) :
    Literal.read '"' (Text.quoteChar c ++ rest) =
      ((Literal.read '"' rest).1.map (c :: ·), (Literal.read '"' rest).2) := by
  rcases h with hc | hc | hc
  · have hne : ∀ {d : Char}, Text.quoteChar d ≠ [d] → c ≠ d := by
      intro d hd heq
      exact hd (heq ▸ hc)
    rw [hc]
    exact Literal.read_cons_of_ne (hne (by decide)) (hne (by decide)) (hne (by decide)) rest
  · rw [hc]
    exact Literal.read_escape_char (by decide) (by decide) (by decide) rest
  · rw [hc]
    exact Literal.read_escape_char (by decide) (by decide) (by decide) rest

/-- A text that is quoted with no escape but those of quote and backslash is read back. -/
theorem Literal.read_quoted {text : List Char} (rest : List Char)
    (h : ∀ c ∈ text, Text.quoteChar c = [c] ∨ c = '"' ∨ c = '\\') :
    Literal.read '"' (text.flatMap Text.quoteChar ++ '"' :: rest) = (some text, rest) := by
  induction text with
  | nil => exact Literal.read_quote '"' rest
  | cons c text ih =>
      have hrest := ih fun d hd => h d (List.mem_cons_of_mem c hd)
      rw [List.flatMap_cons, List.append_assoc, Literal.read_quoteChar (h c List.mem_cons_self),
        hrest]
      rfl

namespace Token

/-! ## Single tokens -/

/-- Where no comment starts, the text is cut into the token at its start and the rest. -/
theorem scan_token {c : Char} {rest : List Char}
    (h : ∀ body, c :: rest ≠ '/' :: '*' :: body) :
    scan (c :: rest) = (readToken c rest).1 :: scan (readToken c rest).2 := by
  apply scan_of_next?_eq_some
  have hcomments : dropComments (c :: rest) = c :: rest := by
    unfold dropComments
    split
    · rename_i heq
      exact absurd heq (h _)
    · rfl
  rw [next?, hcomments]

theorem scan_cons {c : Char} {rest left : List Char} {token : Token} (hc : c ≠ '/')
    (h : readToken c rest = (token, left)) : scan (c :: rest) = token :: scan left := by
  have hnone : ∀ body, c :: rest ≠ '/' :: '*' :: body := by
    intro body heq
    exact hc (List.cons.inj heq).1
  rw [scan_token hnone, h]

theorem readToken_blank {c : Char} (hblank : isBlank c = true) (rest : List Char) :
    readToken c rest = (whitespace, rest.dropWhile isBlank) := by
  rw [readToken, if_pos hblank]

theorem readToken_quote {c : Char} (hblank : isBlank c = false) (hquote : c = '"' ∨ c = '\'')
    (rest : List Char) : readToken c rest = readString c rest := by
  rw [readToken, if_neg (by simp [hblank]), if_pos hquote]

theorem scan_blank {c : Char} (hc : isBlank c = true) (rest : List Char) :
    scan (c :: rest) = whitespace :: scan (rest.dropWhile isBlank) := by
  apply scan_cons
  · rintro rfl
    exact absurd hc (by decide)
  · exact readToken_blank hc rest

theorem scan_of_isBlank {cs : List Char} (h : cs.head?.any isBlank = true) :
    scan cs = whitespace :: scan (cs.dropWhile isBlank) := by
  cases cs with
  | nil => cases h
  | cons c rest =>
      have hc : isBlank c = true := h
      rw [scan_blank hc, List.dropWhile_cons_of_pos hc]

/-- Punctuation that no other token starts with stands for itself. -/
theorem scan_delim {c : Char} (hc : c ∈ ['>', '[', ']', '*', '=', '~', '|', '^', '$'])
    (rest : List Char) : scan (c :: rest) = delim c :: scan rest := by
  simp only [List.mem_cons, List.not_mem_nil, or_false] at hc
  rcases hc with rfl | rfl | rfl | rfl | rfl | rfl | rfl | rfl | rfl <;>
    exact scan_cons (by decide) rfl

theorem scan_hash_of_read {cs name rest : List Char} (hstarts : startsHash cs = true)
    (hread : Name.read cs = (name, rest)) :
    scan ('#' :: cs) = hash (String.ofList name) :: scan rest := by
  apply scan_cons (by decide)
  have hblank : isBlank '#' = false := by decide
  simp [readToken, hblank, hstarts, hread]

theorem readNamed_of_head?_ne {cs name left : List Char} (hread : Name.read cs = (name, left))
    (hleft : left.head? ≠ some '(') : readNamed cs = (ident (String.ofList name), left) := by
  rw [readNamed, hread]
  split
  · rename_i heq
    cases heq
    exact absurd rfl hleft
  · rename_i heq
    cases heq
    rfl

/-- A numeral behind which there is no unit. -/
theorem readNumber_of_head?_ne {cs numeral left : List Char}
    (hread : Numeral.read cs = (numeral, left)) (hname : startsName left = false)
    (hleft : left.head? ≠ some '%') :
    readNumber cs = (number (String.ofList numeral), left) := by
  have hpercent : ∀ behind, left ≠ '%' :: behind := by
    rintro behind rfl
    exact hleft rfl
  simp only [readNumber, hread, hname, Bool.false_eq_true, if_false]

/-- A name that no parenthesis follows, where no number can start. -/
theorem scan_ident_of_read {cs name rest : List Char} (hstarts : startsName cs = true)
    (hnumber : startsNumber cs = false) (hread : Name.read cs = (name, rest))
    (hrest : rest.head? ≠ some '(') : scan cs = ident (String.ofList name) :: scan rest := by
  have hnamed := readNamed_of_head?_ne hread hrest
  cases cs with
  | nil => cases hstarts
  | cons c cs =>
      have hne : ∀ {d : Char}, startsName (d :: cs) = false → c ≠ d := by
        intro d hd hc
        rw [hc, hd] at hstarts
        cases hstarts
      have hblank : isBlank c = false := by
        rw [Bool.eq_false_iff]
        intro hblank
        simp only [isBlank, Bool.or_eq_true, beq_iff_eq] at hblank
        rcases hblank with (((hc | hc) | hc) | hc) | hc <;> exact hne rfl hc
      apply scan_cons (hne rfl)
      rw [readToken, if_neg (by simp [hblank]), if_neg (not_or.mpr ⟨hne rfl, hne rfl⟩),
        if_neg (fun hhash => hne rfl hhash.1), if_neg (by simp [hnumber]), if_pos hstarts, hnamed]

theorem scan_hash {name rest : List Char} (hne : name ≠ [])
    (hname : ∀ c ∈ name, isNameChar c = true) (hrest : endsName rest = true) :
    scan ('#' :: (name ++ rest)) = hash (String.ofList name) :: scan rest := by
  refine scan_hash_of_read ?_ (Name.read_append_of_endsName hname hrest)
  cases name with
  | nil => exact absurd rfl hne
  | cons c name => simp [startsHash, hname c List.mem_cons_self]

theorem scan_ident {name rest : List Char} (hname : isIdentifier name = true)
    (hrest : endsName rest = true) :
    scan (name ++ rest) = ident (String.ofList name) :: scan rest := by
  have hread := Name.read_append_of_endsName (isNameChar_of_isIdentifier hname) hrest
  refine scan_ident_of_read (startsName_append hname rest) (startsNumber_append hname rest) hread ?_
  cases rest with
  | nil => simp
  | cons c rest =>
      simp only [endsName, Bool.and_eq_true, bne_iff_ne] at hrest
      simpa using hrest.2

theorem scan_quote {quote : Char} (hquote : quote = '"' ∨ quote = '\'') (cs : List Char) :
    scan (quote :: cs) = (readString quote cs).1 :: scan (readString quote cs).2 := by
  have hslash : quote ≠ '/' := ne_of_isQuote hquote (by decide)
  exact scan_cons hslash (readToken_quote (isBlank_eq_false_of_isQuote hquote) hquote cs)

/-- A literal that is not broken off. -/
theorem scan_string_of_read {quote : Char} (hquote : quote = '"' ∨ quote = '\'')
    {cs text left : List Char} (hread : Literal.read quote cs = (some text, left)) :
    scan (quote :: cs) = string (String.ofList text) :: scan left := by
  rw [scan_quote hquote, readString, hread]

theorem scan_badString_of_read {quote : Char} (hquote : quote = '"' ∨ quote = '\'')
    {cs left : List Char} (hread : Literal.read quote cs = (none, left)) :
    scan (quote :: cs) = badString :: scan left := by
  rw [scan_quote hquote, readString, hread]

theorem scan_quoted {text : String} (rest : List Char)
    (h : ∀ c ∈ text.toList, Text.quoteChar c = [c] ∨ c = '"' ∨ c = '\\') :
    scan ((Text.quoted text).toList ++ rest) = string text :: scan rest := by
  have hscan := scan_string_of_read (.inl rfl) (Literal.read_quoted rest h)
  rw [String.ofList_toList] at hscan
  rwa [Text.toList_quoted, List.cons_append, List.cons_append, List.append_assoc,
    List.singleton_append]

end Token

end Scenery.Selector
