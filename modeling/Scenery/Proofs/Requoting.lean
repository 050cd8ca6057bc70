import Scenery.Proofs.Scanning

/-!
# Quoted texts read again

A text is quoted in one notation and read back in another.  The two share the
escapes of the quote and of the backslash; every other escape is read as
something else: short forms as their letter, numbers as the letter `u` with the
number behind it, and the zero of NUL as a hexadecimal digit, which takes in the
digits behind it and one space.  Each of them begins with a character that was
not written, so nothing behind it can make up for the difference.
-/

namespace Scenery.Selector

/-! ## How characters are quoted -/

/-- The quoted text behind its opening quote, with what follows it. -/
def quotedBody (text rest : List Char) : List Char :=
  text.flatMap Text.quoteChar ++ '"' :: rest

theorem quotedBody_cons (c : Char) (text rest : List Char) :
    quotedBody (c :: text) rest = Text.quoteChar c ++ quotedBody text rest := by
  rw [quotedBody, List.flatMap_cons, List.append_assoc, quotedBody]

/-- Characters that mean something inside a literal. -/
def isLiteralMark (c : Char) : Bool :=
  c == '"' || c == '\n' || c == '\\'

theorem exists_digitChar_of_mem_toDigits {n : Nat} {c : Char} (h : c ∈ Nat.toDigits 16 n) :
    ∃ digit, c = Nat.digitChar digit := by
  induction n using Nat.strongRecOn with
  | ind n ih =>
      rw [Nat.toDigits_eq_if (by decide)] at h
      split at h
      · exact ⟨n, List.mem_singleton.mp h⟩
      · rcases List.mem_append.mp h with hfront | hlast
        · exact ih (n / 16) (by omega) hfront
        · exact ⟨n % 16, List.mem_singleton.mp hlast⟩

theorem isLiteralMark_of_mem_toDigits {n : Nat} {c : Char} (h : c ∈ Nat.toDigits 16 n) :
    isLiteralMark c = false := by
  obtain ⟨digit, hc⟩ := exists_digitChar_of_mem_toDigits h
  have hquote : c ≠ '"' := hc ▸ Nat.digitChar_ne '"' (by decide)
  have hline : c ≠ '\n' := hc ▸ Nat.digitChar_ne '\n' (by decide)
  have hslash : c ≠ '\\' := hc ▸ Nat.digitChar_ne '\\' (by decide)
  simp [isLiteralMark, hquote, hline, hslash]

/-- What is not shown, and has no short form, is written by its number. -/
theorem quoteChar_eq_numericEscape {c : Char} (hquote : c ≠ '"') (hslash : c ≠ '\\')
    (hline : c ≠ '\n') (hreturn : c ≠ '\r') (htab : c ≠ '\t') (hnul : c ≠ '\x00')
    (hshown : ¬ Text.isShown c = true) : Text.quoteChar c = Text.numericEscape c := by
  simp [Text.quoteChar, hquote, hslash, hline, hreturn, htab, hnul, hshown]

/-- A quoted form that begins with an escape which is read as another character. -/
structure Mistaken (c letter : Char) (tail : List Char) : Prop where
  quoteChar : Text.quoteChar c = '\\' :: letter :: tail
  ne : letter ≠ c
  isHexDigit : isHexDigit letter = false
  plain : ∀ d ∈ letter :: tail, isLiteralMark d = false

theorem mistaken_numericEscape {c : Char} (hquote : c ≠ '"') (hslash : c ≠ '\\')
    (hline : c ≠ '\n') (hreturn : c ≠ '\r') (htab : c ≠ '\t') (hnul : c ≠ '\x00')
    (hshown : ¬ Text.isShown c = true) :
    Mistaken c 'u' ('\x7b' :: Nat.toDigits 16 c.toNat ++ ['\x7d']) where
  quoteChar := quoteChar_eq_numericEscape hquote hslash hline hreturn htab hnul hshown
  ne := by
    intro hu
    rw [← hu] at hshown
    exact hshown (by decide +kernel)
  isHexDigit := by decide
  plain := by
    have hdigits : ∀ d ∈ Nat.toDigits 16 c.toNat, isLiteralMark d = false :=
      fun _ => isLiteralMark_of_mem_toDigits
    simp only [List.forall_mem_cons, List.cons_append, List.forall_mem_append]
    exact ⟨by decide, by decide, hdigits, by decide, List.forall_mem_nil _⟩

/--
A character is quoted so that it is read back, or by an escape that is read as another
character; of these the escape of NUL takes in what stands behind it.
-/
theorem quoteChar_cases (c : Char) :
    (Text.quoteChar c = [c] ∨ c = '"' ∨ c = '\\') ∨ c = '\x00' ∨
      ∃ letter tail, Mistaken c letter tail := by
  by_cases hquote : c = '"'
  · exact .inl (.inr (.inl hquote))
  by_cases hslash : c = '\\'
  · exact .inl (.inr (.inr hslash))
  by_cases hnul : c = '\x00'
  · exact .inr (.inl hnul)
  by_cases hline : c = '\n'
  · rw [hline]
    exact .inr (.inr ⟨'n', [], rfl, by decide, by decide,
      List.forall_mem_singleton.mpr (by decide)⟩)
  by_cases hreturn : c = '\r'
  · rw [hreturn]
    exact .inr (.inr ⟨'r', [], rfl, by decide, by decide,
      List.forall_mem_singleton.mpr (by decide)⟩)
  by_cases htab : c = '\t'
  · rw [htab]
    exact .inr (.inr ⟨'t', [], rfl, by decide, by decide,
      List.forall_mem_singleton.mpr (by decide)⟩)
  by_cases hshown : Text.isShown c = true
  · exact .inl (.inl (Text.quoteChar_of_isShown hquote hslash hline hreturn htab hnul hshown))
  · exact .inr (.inr ⟨_, _, mistaken_numericEscape hquote hslash hline hreturn htab hnul hshown⟩)

theorem quoteChar_mem_iff (c : Char) :
    Text.quoteChar c ∈ [[c], ['\\', '"'], ['\\', '\\']] ↔
      Text.quoteChar c = [c] ∨ c = '"' ∨ c = '\\' := by
  constructor
  · intro hmem
    rcases quoteChar_cases c with hkept | hnul | ⟨letter, tail, hmistaken⟩
    · exact hkept
    · rw [hnul] at hmem
      exact absurd hmem (by decide)
    · have hletter := hmistaken.plain letter List.mem_cons_self
      simp only [isLiteralMark, Bool.or_eq_false_iff, beq_eq_false_iff_ne] at hletter
      simp [hmistaken.quoteChar, hletter.1.1, hletter.2] at hmem
  · intro hkept
    rcases hkept with hc | hc | hc
    · rw [hc]
      exact List.mem_cons_self
    · rw [hc]
      decide
    · rw [hc]
      decide

/-! ## How the escapes are read -/

theorem Literal.read_append_of_plain {tail : List Char}
    (h : ∀ c ∈ tail, isLiteralMark c = false) (rest : List Char) :
    Literal.read '"' (tail ++ rest) =
      ((Literal.read '"' rest).1.map (tail ++ ·), (Literal.read '"' rest).2) := by
  induction tail with
  | nil => simp
  | cons c tail ih =>
      have hc := h c List.mem_cons_self
      simp only [isLiteralMark, Bool.or_eq_false_iff, beq_eq_false_iff_ne] at hc
      rw [List.cons_append, Literal.read_cons_of_ne hc.1.1 hc.1.2 hc.2,
        ih fun d hd => h d (List.mem_cons_of_mem c hd), Option.map_map]
      rfl

/-- An escape that is read as another character leaves what stands behind it alone. -/
theorem Literal.read_mistaken {c letter : Char} {tail : List Char} (h : Mistaken c letter tail)
    (rest : List Char) :
    Literal.read '"' (Text.quoteChar c ++ rest) =
      ((Literal.read '"' rest).1.map (letter :: tail ++ ·), (Literal.read '"' rest).2) := by
  obtain ⟨hletter, htail⟩ := List.forall_mem_cons.mp h.plain
  have hline : letter ≠ '\n' := by
    intro hline
    rw [hline] at hletter
    exact absurd hletter (by decide)
  have hescape : Literal.read '"' ('\\' :: letter :: (tail ++ rest)) = _ :=
    Literal.read_escape_char (by decide) h.isHexDigit hline (tail ++ rest)
  rw [h.quoteChar, List.cons_append, List.cons_append, hescape, Literal.read_append_of_plain htail,
    Option.map_map]
  rfl

/-- Every escape begins with a backslash. -/
theorem quoteChar_eq_singleton_or (c : Char) :
    Text.quoteChar c = [c] ∨ ∃ escape, Text.quoteChar c = '\\' :: escape := by
  rcases quoteChar_cases c with (hc | hc | hc) | hc | ⟨letter, tail, hmistaken⟩
  · exact .inl hc
  · exact .inr ⟨['"'], by rw [hc]; rfl⟩
  · exact .inr ⟨['\\'], by rw [hc]; rfl⟩
  · exact .inr ⟨['0'], by rw [hc]; rfl⟩
  · exact .inr ⟨_, hmistaken.quoteChar⟩

/-- A first character that is no mark of the quoted form is one of the text, which goes on behind it. -/
theorem exists_of_quotedBody_eq_cons {text rest tail : List Char} {d : Char} {test : Char → Bool}
    (h : quotedBody text rest = d :: tail) (hd : test d = true) (hquote : test '"' = false)
    (hslash : test '\\' = false) :
    ∃ more, more.length < text.length ∧ tail = quotedBody more rest := by
  have hne : ∀ {e : Char}, test e = false → d ≠ e := by
    intro e he heq
    rw [heq, he] at hd
    cases hd
  cases text with
  | nil => exact absurd (List.cons.inj h).1.symm (hne hquote)
  | cons c more =>
      rw [quotedBody_cons] at h
      rcases quoteChar_eq_singleton_or c with hc | ⟨escape, hc⟩
      · rw [hc] at h
        exact ⟨more, Nat.lt_succ_self _, (List.cons.inj h).2.symm⟩
      · rw [hc] at h
        exact absurd (List.cons.inj h).1.symm (hne hslash)

theorem Escape.scalar_ne_nul (n : Nat) : Escape.scalar n ≠ '\x00' := by
  unfold Escape.scalar
  split
  · decide
  · rename_i hzero
    split
    · rename_i hvalid
      intro hnul
      have hn := congrArg Char.toNat hnul
      rw [Char.ofNat, dif_pos hvalid] at hn
      exact hzero hn
    · decide

/-- Digits at the start of a quoted text are characters of it, so that a quoted text is left. -/
theorem exists_drop_digits (count : Nat) (text rest : List Char) :
    ∃ more, more.length ≤ text.length ∧
      (quotedBody text rest).drop
        (((quotedBody text rest).take count).takeWhile isHexDigit).length =
          quotedBody more rest := by
  induction count generalizing text with
  | zero => exact ⟨text, Nat.le_refl _, rfl⟩
  | succ count ih =>
      cases hbody : quotedBody text rest with
      | nil => exact ⟨text, Nat.le_refl _, hbody.symm⟩
      | cons d tail =>
          rw [List.take_succ_cons]
          cases hhex : isHexDigit d with
          | false =>
              rw [List.takeWhile_cons_of_neg (by simp [hhex])]
              exact ⟨text, Nat.le_refl _, hbody.symm⟩
          | true =>
              obtain ⟨more, hlt, htail⟩ :=
                exists_of_quotedBody_eq_cons hbody hhex (by decide) (by decide)
              obtain ⟨last, hle, hdrop⟩ := ih more
              rw [List.takeWhile_cons_of_pos hhex, List.length_cons, List.drop_succ_cons, htail]
              exact ⟨last, by omega, hdrop⟩

theorem exists_dropBlank (text rest : List Char) :
    ∃ more, more.length ≤ text.length ∧
      Escape.dropBlank (quotedBody text rest) = quotedBody more rest := by
  cases hbody : quotedBody text rest with
  | nil => exact ⟨text, Nat.le_refl _, hbody.symm⟩
  | cons d tail =>
      cases hblank : isBlank d with
      | false =>
          rw [Escape.dropBlank, if_neg (by simp [hblank])]
          exact ⟨text, Nat.le_refl _, hbody.symm⟩
      | true =>
          obtain ⟨more, hlt, htail⟩ :=
            exists_of_quotedBody_eq_cons hbody hblank (by decide) (by decide)
          rw [Escape.dropBlank, if_pos hblank]
          exact ⟨more, by omega, htail⟩

/-- The escape of NUL is read as another character, and never takes in the closing quote. -/
theorem Literal.exists_read_nul (text rest : List Char) :
    ∃ c more, c ≠ '\x00' ∧ more.length ≤ text.length ∧
      Literal.read '"' (Text.quoteChar '\x00' ++ quotedBody text rest) =
        ((Literal.read '"' (quotedBody more rest)).1.map (c :: ·),
          (Literal.read '"' (quotedBody more rest)).2) := by
  obtain ⟨front, hfront, hdigits⟩ := exists_drop_digits 5 text rest
  obtain ⟨more, hmore, hblank⟩ := exists_dropBlank front rest
  have hescape := Escape.read_of_isHexDigit (show isHexDigit '0' = true by decide)
    (quotedBody text rest)
  rw [hdigits, hblank] at hescape
  have hread : Literal.read '"' ('\\' :: '0' :: quotedBody text rest) = _ :=
    Literal.read_escape (by decide) (by decide) (quotedBody text rest)
  rw [hescape] at hread
  exact ⟨_, more, Escape.scalar_ne_nul _, Nat.le_trans hmore hfront, hread⟩

/-! ## What is read -/

/--
A quoted text is always read up to its closing quote.  The first character that is not
written in the shared notation is read as another one.
-/
theorem Literal.exists_read_quotedBody (text rest : List Char) :
    ∃ reread, Literal.read '"' (quotedBody text rest) = (some reread, rest) ∧
      (reread = text → ∀ c ∈ text, Text.quoteChar c = [c] ∨ c = '"' ∨ c = '\\') := by
  induction hlength : text.length using Nat.strongRecOn generalizing text with
  | ind length ih =>
      cases text with
      | nil => exact ⟨[], Literal.read_quote '"' rest, fun _ => List.forall_mem_nil _⟩
      | cons c text =>
          rw [List.length_cons] at hlength
          rw [quotedBody_cons]
          rcases quoteChar_cases c with hkept | hnul | ⟨letter, tail, hmistaken⟩
          · obtain ⟨reread, hread, heq⟩ := ih text.length (by omega) text rfl
            refine ⟨c :: reread, by rw [Literal.read_quoteChar hkept, hread]; rfl, ?_⟩
            intro hsame
            exact List.forall_mem_cons.mpr ⟨hkept, heq (List.cons.inj hsame).2⟩
          · obtain ⟨d, more, hd, hle, hread⟩ := Literal.exists_read_nul text rest
            obtain ⟨reread, hmore, -⟩ := ih more.length (by omega) more rfl
            rw [hmore] at hread
            rw [hnul]
            refine ⟨d :: reread, hread, ?_⟩
            intro hsame
            exact absurd (List.cons.inj hsame).1 hd
          · obtain ⟨reread, hread, -⟩ := ih text.length (by omega) text rfl
            refine ⟨letter :: tail ++ reread, by rw [Literal.read_mistaken hmistaken, hread]; rfl, ?_⟩
            intro hsame
            exact absurd (List.cons.inj hsame).1 hmistaken.ne

/--
A quoted text is one literal token again.  It has the text it was written for if and only if
each of its characters is written as it is, or as an escaped quote or backslash.
-/
theorem Token.ofText_quoted (text : String) :
    ∃ reread, Token.ofText (Token.string text).text = [.string reread, .eof] ∧
      (reread = text ↔
        ∀ c ∈ text.toList, Text.quoteChar c ∈ [[c], ['\\', '"'], ['\\', '\\']]) := by
  obtain ⟨reread, hread, hsame⟩ := Literal.exists_read_quotedBody text.toList []
  have hscan : Token.scan ('"' :: quotedBody text.toList []) =
      [.string (String.ofList reread), .eof] := by
    rw [Token.scan_string_of_read (.inl rfl) hread, Token.scan_nil]
  refine ⟨String.ofList reread, ?_, ?_⟩
  · rw [Token.ofText, Token.text, Text.toList_quoted]
    exact hscan
  · simp only [quoteChar_mem_iff]
    constructor
    · intro heq
      apply hsame
      rw [← heq, String.toList_ofList]
    · intro hkept
      have hquoted : Literal.read '"' (quotedBody text.toList []) = (some text.toList, []) :=
        Literal.read_quoted [] hkept
      rw [hquoted, Prod.mk.injEq, Option.some_inj] at hread
      rw [← hread.1, String.ofList_toList]

/-- The zero of an escaped NUL takes in the digits behind it and one space. -/
example : Token.ofText (Token.string "\x0041 b").text = [.string "Ab", .eof] := by
  decide +kernel

end Scenery.Selector
