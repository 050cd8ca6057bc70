import Scenery.Proofs.Separating
import Scenery.Selector.Cursor

/-!
# The cursor reads what the scanner reads

At every position of a text the cursor goes on without a fault.  It reads what the
scanner reads from the rest of the text, stays in the text, and moves with every
token but the last, so that it comes to the end of the text.  The list of the
characters behind a position is what both are compared by.
-/

namespace Scenery.Selector.Cursor

variable {text : Array Char}

/-- The characters from a position on. -/
def rest (text : Array Char) (position : Nat) : List Char :=
  text.toList.drop position

@[simp] theorem length_rest (position : Nat) :
    (rest text position).length = text.size - position := by
  simp [rest]

theorem getElem?_add (position offset : Nat) :
    text[position + offset]? = (rest text position)[offset]? := by
  rw [rest, List.getElem?_drop, Array.getElem?_toList]

theorem getElem?_eq_head? (position : Nat) : text[position]? = (rest text position).head? := by
  rw [List.head?_eq_getElem?, ← getElem?_add, Nat.add_zero]

theorem rest_of_getElem? {position : Nat} {c : Char} (h : text[position]? = some c) :
    rest text position = c :: rest text (position + 1) := by
  obtain ⟨hlt, rfl⟩ := Array.getElem?_eq_some_iff.mp h
  rw [rest, List.drop_eq_getElem_cons (by simpa using hlt)]
  rfl

theorem getElem?_of_rest {position : Nat} {c : Char} {more : List Char}
    (h : rest text position = c :: more) : text[position]? = some c := by
  rw [getElem?_eq_head?, h]
  rfl

theorem rest_of_getElem?_eq_none {position : Nat} (h : text[position]? = none) :
    rest text position = [] := by
  rw [rest, List.drop_eq_nil_iff, Array.length_toList]
  exact Array.getElem?_eq_none_iff.mp h

theorem lt_of_getElem? {position : Nat} {c : Char} (h : text[position]? = some c) :
    position < text.size :=
  (Array.getElem?_eq_some_iff.mp h).choose

theorem lt_of_any {position : Nat} {inClass : Char → Bool}
    (h : text[position]?.any inClass = true) : position < text.size := by
  cases hc : text[position]? with
  | none => simp [hc] at h
  | some c => exact lt_of_getElem? hc

theorem rest_add (position offset : Nat) :
    rest text (position + offset) = (rest text position).drop offset := by
  rw [rest, rest, List.drop_drop]

/-- The cursor reads a result from the rest of a text, and what is left is behind it then. -/
def Reads (text : Array Char) (reading : Reading α) (result : α × List Char) : Prop :=
  ∃ next, next ≤ text.size ∧ rest text next = result.2 ∧ reading = .ok (result.1, next)

/-- What is done with the result of a reading and moves the cursor no more. -/
theorem Reads.map {reading : Reading α} {result : α × List Char} (h : Reads text reading result)
    (f : α → β) :
    Reads text (reading.map fun (value, behind) => (f value, behind)) (f result.1, result.2) := by
  obtain ⟨next, hle, hrest, rfl⟩ := h
  exact ⟨next, hle, hrest, rfl⟩

theorem Reads.ne_error {reading : Reading α} {result : α × List Char}
    (h : Reads text reading result) (fault : Fault) : reading ≠ .error fault := by
  obtain ⟨next, -, -, rfl⟩ := h
  simp

theorem Reads.of_eq_ok {reading : Reading α} {result : α × List Char}
    (h : Reads text reading result) {value : α} {next : Nat} (hread : reading = .ok (value, next)) :
    next ≤ text.size ∧ result = (value, rest text next) := by
  obtain ⟨next', hle, hrest, rfl⟩ := h
  cases hread
  exact ⟨hle, by rw [hrest]⟩

/-! ## Looking ahead -/

/-- Behind a backslash that opens an escape there is a character to read. -/
theorem exists_of_opensEscape {c : Char} {position : Nat}
    (h : opensEscape (some c) text[position]? = true) :
    c = '\\' ∧ ∃ d, text[position]? = some d := by
  simp only [opensEscape, Bool.and_eq_true, beq_iff_eq, Option.some.injEq] at h
  obtain ⟨hslash, hbehind⟩ := h
  cases hd : text[position]? with
  | none => simp [hd] at hbehind
  | some d => exact ⟨hslash, d, rfl⟩

theorem opensEscape_eq (text : Array Char) (c : Char) (position : Nat) :
    opensEscape (some c) text[position]? = startsEscape (c :: rest text position) := by
  rw [getElem?_eq_head?]
  by_cases hc : c = '\\'
  · subst hc
    cases rest text position with
    | nil => rfl
    | cons d behind => simp [opensEscape, startsEscape]
  · simp [opensEscape, startsEscape, hc]

theorem startsNameAt_eq (position : Nat) :
    startsNameAt text position = startsName (rest text position) := by
  unfold startsNameAt
  cases hc : text[position]? with
  | none => simp [rest_of_getElem?_eq_none hc, startsName]
  | some c =>
      rw [rest_of_getElem? hc]
      by_cases hhyphen : c = '-'
      · cases hd : text[position + 1]? with
        | none => simp [hhyphen, rest_of_getElem?_eq_none hd, startsName, opensEscape]
        | some d =>
            have hescape := opensEscape_eq text d (position + 2)
            simp [hhyphen, rest_of_getElem? hd, startsName, hescape]
      · have hescape := opensEscape_eq text c (position + 1)
        by_cases hslash : c = '\\'
        · subst hslash
          simp [startsName, hescape, show isNameStart '\\' = false by decide]
        · simp [hhyphen, hslash, startsName, startsEscape]

theorem startsUnsigned_rest (text : Array Char) (position : Nat) :
    startsUnsigned (rest text position) =
      if text[position]? = some '.' then text[position + 1]?.any isDigit
      else text[position]?.any isDigit := by
  cases hc : text[position]? with
  | none => simp [rest_of_getElem?_eq_none hc, startsUnsigned]
  | some c =>
      rw [rest_of_getElem? hc]
      by_cases hpoint : c = '.'
      · subst hpoint
        cases hd : text[position + 1]? with
        | none =>
            have hpoint : isDigit '.' = false := by decide
            simp [rest_of_getElem?_eq_none hd, startsUnsigned, hpoint]
        | some d => simp [rest_of_getElem? hd, startsUnsigned]
      · simp [startsUnsigned, hpoint]

theorem startsNumberAt_eq (position : Nat) :
    startsNumberAt text position = startsNumber (rest text position) := by
  have hhere := startsUnsigned_rest text position
  have hbehind := startsUnsigned_rest text (position + 1)
  have hpoint : isDigit '.' = false := by decide
  -- Behind a sign a point and a digit exclude each other.
  have hsigned : (text[position + 1]?.any isDigit ||
      (text[position + 1]? == some '.' && text[position + 2]?.any isDigit)) =
        startsUnsigned (rest text (position + 1)) := by
    rw [hbehind]
    by_cases hnext : text[position + 1]? = some '.'
    · simp [hnext, hpoint]
    · simp [hnext]
  unfold startsNumberAt
  cases hc : text[position]? with
  | none => simp [rest_of_getElem?_eq_none hc, startsNumber, startsUnsigned]
  | some c =>
      rw [hc, rest_of_getElem? hc] at hhere
      rw [rest_of_getElem? hc]
      simp only [hsigned]
      by_cases hplus : c = '+'
      · subst hplus
        rfl
      · by_cases hminus : c = '-'
        · subst hminus
          rfl
        · rw [startsNumber_eq_startsUnsigned hplus hminus, hhere]
          by_cases hdot : c = '.'
          · simp [hdot]
          · simp [hplus, hminus, hdot]

theorem startsHash_eq (position : Nat) :
    (text[position]?.any isNameChar = true ∨
        opensEscape text[position]? text[position + 1]? = true) ↔
      startsHash (rest text position) = true := by
  cases hc : text[position]? with
  | none => simp [rest_of_getElem?_eq_none hc, startsHash, opensEscape]
  | some c =>
      rw [rest_of_getElem? hc, opensEscape_eq]
      simp [startsHash]

/-! ## Going over characters -/

theorem rest_skipWhile (inClass : Char → Bool) (position : Nat) :
    rest text (skipWhile text inClass position) = (rest text position).dropWhile inClass := by
  fun_induction skipWhile text inClass position with
  | case1 position h hclass ih =>
      rw [ih, rest_of_getElem? (Array.getElem?_eq_getElem h), List.dropWhile_cons_of_pos hclass]
  | case2 position h hclass =>
      rw [rest_of_getElem? (Array.getElem?_eq_getElem h), List.dropWhile_cons_of_neg hclass]
  | case3 position h =>
      rw [rest_of_getElem?_eq_none (Array.getElem?_eq_none (Nat.not_lt.mp h))]
      rfl

theorem skipWhile_le (inClass : Char → Bool) {position : Nat} (h : position ≤ text.size) :
    skipWhile text inClass position ≤ text.size := by
  fun_induction skipWhile text inClass position with
  | case1 position hlt _ ih => exact ih hlt
  | case2 => exact h
  | case3 => exact h

theorem rest_commentEnd (position : Nat) :
    rest text (commentEnd text position) = Token.dropComment (rest text position) := by
  fun_induction commentEnd text position with
  | case1 position h hends =>
      rw [rest_of_getElem? (Array.getElem?_eq_getElem h), rest_of_getElem? hends.2, hends.1]
      rfl
  | case2 position h hends ih =>
      rw [ih, rest_of_getElem? (Array.getElem?_eq_getElem h), Token.dropComment_cons]
      intro hstar hslash
      rw [← getElem?_eq_head?] at hslash
      exact hends ⟨hstar, hslash⟩
  | case3 position h =>
      rw [rest_of_getElem?_eq_none (Array.getElem?_eq_none (Nat.not_lt.mp h))]
      rfl

theorem commentEnd_le {position : Nat} (h : position ≤ text.size) :
    commentEnd text position ≤ text.size := by
  fun_induction commentEnd text position with
  | case1 position _ hends => exact lt_of_getElem? hends.2
  | case2 position hlt _ ih => exact ih hlt
  | case3 => exact h

theorem rest_skipComments (position : Nat) :
    rest text (skipComments text position) = Token.dropComments (rest text position) := by
  fun_induction skipComments text position with
  | case1 position h ih =>
      rw [ih, rest_commentEnd, rest_of_getElem? h.1, rest_of_getElem? h.2, Token.dropComments]
  | case2 position h =>
      unfold Token.dropComments
      split
      · rename_i body hrest
        refine absurd ⟨?_, ?_⟩ h
        · exact getElem?_of_rest hrest
        · rw [getElem?_add, hrest]
          rfl
      · rfl

theorem le_skipComments (position : Nat) : position ≤ skipComments text position := by
  fun_induction skipComments text position with
  | case1 position _ ih =>
      have hcomment := le_commentEnd text (position + 2)
      omega
  | case2 => exact Nat.le_refl _

theorem skipComments_le {position : Nat} (h : position ≤ text.size) :
    skipComments text position ≤ text.size := by
  fun_induction skipComments text position with
  | case1 position hopens ih => exact ih (commentEnd_le (lt_of_getElem? hopens.2))
  | case2 => exact h

/-! ## Escapes and names -/

theorem hexDigits_eq (text : Array Char) (count position : Nat) :
    hexDigits text count position =
      (((rest text position).take count).takeWhile isHexDigit,
        position + (((rest text position).take count).takeWhile isHexDigit).length) := by
  fun_induction hexDigits text count position with
  | case1 position => simp
  | case2 count position hnone => simp [rest_of_getElem?_eq_none hnone]
  | case3 count position c hc hhex digits behind hread ih =>
      rw [hread, Prod.mk.injEq] at ih
      simp only [rest_of_getElem? hc, List.take_succ_cons, List.takeWhile_cons_of_pos hhex,
        List.length_cons, ← ih.1, ih.2, Prod.mk.injEq, true_and]
      omega
  | case4 count position c hc hhex =>
      simp [rest_of_getElem? hc, hhex]

/-- One to six hexadecimal digits are a number. -/
theorem hexNumber?_eq_some {c : Char} {digits : List Char} (hc : isHexDigit c = true)
    (hdigits : ∀ d ∈ digits, isHexDigit d = true) (hlength : digits.length ≤ 5) :
    hexNumber? (c :: digits) = some (Escape.hexValue (c :: digits)) := by
  have hplus : c ≠ '+' := by
    rintro rfl
    exact absurd hc (by decide)
  have hsix : (c :: digits).length ≤ 6 := Nat.succ_le_succ hlength
  have hall : (c :: digits).all isHexDigit = true := by
    rw [List.all_cons, hc, Bool.true_and, List.all_eq_true]
    exact hdigits
  unfold hexNumber?
  extract_lets unsigned
  have hunsigned : unsigned = c :: digits := by
    simp only [unsigned]
    split
    · rename_i more hcons
      exact absurd (List.cons.inj hcons).1 hplus
    · rfl
  simp only [hunsigned]
  exact if_pos ⟨List.cons_ne_nil c digits, hall, Escape.hexValue_lt hsix⟩

theorem rest_behind_blank (text : Array Char) (position : Nat) :
    rest text (if text[position]?.any isBlank then position + 1 else position) =
      Escape.dropBlank (rest text position) := by
  cases hc : text[position]? with
  | none => simp [rest_of_getElem?_eq_none hc, Escape.dropBlank]
  | some c =>
      by_cases hblank : isBlank c = true
      · simp [rest_of_getElem? hc, Escape.dropBlank, hblank]
      · simp [rest_of_getElem? hc, Escape.dropBlank, hblank]

/-- Where there is a character to escape, the escape is read. -/
theorem reads_escape {position : Nat} {c : Char} (h : text[position]? = some c) :
    Reads text (escape text position) (Escape.read (rest text position)) := by
  have hlt : position + 1 ≤ text.size := lt_of_getElem? h
  rw [rest_of_getElem? h, escape, h]
  by_cases hhex : isHexDigit c = true
  · have hmore := hexDigits_eq text 5 (position + 1)
    have hread := Escape.read_of_isHexDigit hhex (rest text (position + 1))
    generalize hdigits : ((rest text (position + 1)).take 5).takeWhile isHexDigit = digits at *
    have hprefix : digits <+: rest text (position + 1) := by
      rw [← hdigits]
      exact (List.takeWhile_prefix _).trans (List.take_prefix _ _)
    have hbehind : position + 1 + digits.length ≤ text.size := by
      have hlength := hprefix.length_le
      rw [length_rest] at hlength
      omega
    have hnumber : hexNumber? (c :: digits) = some (Escape.hexValue (c :: digits)) := by
      apply hexNumber?_eq_some hhex
      · rw [← hdigits]
        exact List.all_eq_true.mp List.all_takeWhile
      · rw [← hdigits]
        exact Nat.le_trans (List.takeWhile_prefix _).length_le (List.length_take_le _ _)
    rw [hread, ← rest_add, ← rest_behind_blank]
    simp only [if_pos hhex, hmore, hnumber]
    refine ⟨_, ?_, rfl, rfl⟩
    split
    · rename_i hblank
      exact lt_of_any hblank
    · exact hbehind
  · rw [Escape.read, if_neg hhex]
    simp only [if_neg hhex]
    exact ⟨_, hlt, rfl, rfl⟩

theorem reads_name {position : Nat} (h : position ≤ text.size) :
    Reads text (name text position) (Name.read (rest text position)) := by
  fun_induction name text position with
  | case1 position hc =>
      have hrest := rest_of_getElem?_eq_none hc
      exact ⟨position, h, by simp [hrest], by simp [hrest]⟩
  | case2 position c hc hname ih =>
      rw [rest_of_getElem? hc, Name.read_cons_of_isNameChar hname]
      exact (ih (lt_of_getElem? hc)).map (c :: ·)
  | case3 position c hc hname hescape fault he =>
      obtain ⟨-, d, hd⟩ := exists_of_opensEscape hescape
      exact absurd he ((reads_escape hd).ne_error fault)
  | case4 position c hc hname hescape d next he ih =>
      obtain ⟨rfl, e, hread⟩ := exists_of_opensEscape hescape
      obtain ⟨hle, hescaped⟩ := (reads_escape hread).of_eq_ok he
      rw [opensEscape_eq] at hescape
      rw [rest_of_getElem? hc, Name.read_escape hescape, hescaped]
      exact (ih hle).map (d :: ·)
  | case5 position c hc hname hescape =>
      rw [opensEscape_eq] at hescape
      refine ⟨position, h, ?_, ?_⟩
      · rw [rest_of_getElem? hc, Name.read, if_neg hname, if_neg hescape]
      · rw [rest_of_getElem? hc, Name.read, if_neg hname, if_neg hescape]

/-! ## Literals and numerals -/

theorem reads_literal (quote : Char) {position : Nat} (h : position ≤ text.size) :
    Reads text (literal text quote position) (Literal.read quote (rest text position)) := by
  fun_induction literal text quote position with
  | case1 position hc =>
      have hrest := rest_of_getElem?_eq_none hc
      exact ⟨position, h, by simp [hrest, Literal.read], by simp [hrest, Literal.read]⟩
  | case2 position hc =>
      rw [rest_of_getElem? hc, Literal.read_quote]
      exact ⟨_, lt_of_getElem? hc, rfl, rfl⟩
  | case3 position hc hquote =>
      rw [rest_of_getElem? hc, Literal.read_line hquote]
      exact ⟨position, h, rest_of_getElem? hc, rfl⟩
  | case4 position hnone hc hquote _ ih =>
      have hlast : Literal.read quote ['\\'] = (some [], []) := by
        rw [Literal.read.eq_def]
        simp [hquote]
      have hend : Literal.read quote [] = (some [], []) := by
        rw [Literal.read.eq_def]
      have hread := ih (lt_of_getElem? hc)
      rw [rest_of_getElem?_eq_none hnone, hend] at hread
      rw [rest_of_getElem? hc, rest_of_getElem?_eq_none hnone, hlast]
      exact hread
  | case5 position hc hquote _ hline ih =>
      rw [rest_of_getElem? hc, rest_of_getElem? hline, Literal.read_join (Ne.symm hquote)]
      exact ih (lt_of_getElem? hline)
  | case6 position d hd _ fault he =>
      exact absurd he ((reads_escape hd).ne_error fault)
  | case7 position d hd hline e next he hc hquote _ ih =>
      obtain ⟨hle, hescaped⟩ := (reads_escape hd).of_eq_ok he
      rw [rest_of_getElem? hd] at hescaped
      rw [rest_of_getElem? hc, rest_of_getElem? hd, Literal.read_escape (Ne.symm hquote) hline,
        hescaped]
      exact (ih hle).map (Option.map (e :: ·))
  | case8 position c hc hquote hline hslash ih =>
      rw [rest_of_getElem? hc, Literal.read_cons_of_ne hquote hline hslash]
      exact (ih (lt_of_getElem? hc)).map (Option.map (c :: ·))

theorem reads_string (quote : Char) {position : Nat} (h : position ≤ text.size) :
    Reads text (string text quote position) (Token.readString quote (rest text position)) := by
  obtain ⟨next, hle, hnext, hread⟩ := reads_literal quote h
  rw [string, hread, Token.readString]
  generalize Literal.read quote (rest text position) = result at *
  rcases result with ⟨- | content, left⟩
  · exact ⟨next, hle, hnext, rfl⟩
  · exact ⟨next, hle, hnext, rfl⟩

theorem reads_named {position : Nat} (h : position ≤ text.size) :
    Reads text (named text position) (Token.readNamed (rest text position)) := by
  obtain ⟨next, hle, hnext, hread⟩ := reads_name h
  rw [named, hread, Token.readNamed]
  generalize Name.read (rest text position) = result at *
  rcases result with ⟨name, - | ⟨c, left⟩⟩
  · have hnone : text[next]? ≠ some '(' := by
      rw [getElem?_eq_head?, hnext]
      simp
    exact ⟨next, hle, hnext, by simp [Except.map, hnone]⟩
  · have hc := getElem?_of_rest hnext
    by_cases hopen : c = '('
    · subst hopen
      have hbehind : rest text (next + 1) = left := by
        rw [rest_of_getElem? hc] at hnext
        exact (List.cons.inj hnext).2
      exact ⟨next + 1, lt_of_getElem? hc, hbehind, by simp [Except.map, hc]⟩
    · refine ⟨next, hle, ?_, ?_⟩
      · simp [hopen, hnext]
      · simp [Except.map, hc, hopen]

theorem rest_behind_sign (text : Array Char) (position : Nat) :
    rest text (position + if text[position]?.any (fun c => c = '+' ∨ c = '-') then 1 else 0) =
      (Numeral.readSign (rest text position)).2 := by
  cases hc : text[position]? with
  | none => simp [rest_of_getElem?_eq_none hc, Numeral.readSign]
  | some c =>
      by_cases hsign : c = '+' ∨ c = '-'
      · simp [rest_of_getElem? hc, Numeral.readSign, hsign]
      · simp [rest_of_getElem? hc, Numeral.readSign, hsign]

theorem rest_behind_fraction (position : Nat) :
    rest text
        (if text[position]? = some '.' ∧ text[position + 1]?.any isDigit then
          skipWhile text isDigit (position + 1)
        else
          position) =
      (Numeral.readFraction (rest text position)).2 := by
  cases hc : text[position]? with
  | none => simp [rest_of_getElem?_eq_none hc, Numeral.readFraction]
  | some c =>
      rw [rest_of_getElem? hc]
      by_cases hpoint : c = '.'
      · subst hpoint
        cases hd : text[position + 1]? with
        | none => simp [rest_of_getElem? hc, rest_of_getElem?_eq_none hd, Numeral.readFraction]
        | some d =>
            by_cases hdigit : isDigit d = true
            · simp [rest_of_getElem? hd, Numeral.readFraction, Numeral.readDigits, hdigit,
                rest_skipWhile]
            · simp [rest_of_getElem? hc, rest_of_getElem? hd, Numeral.readFraction, hdigit]
      · have hnone : Numeral.readFraction (c :: rest text (position + 1)) =
            ([], c :: rest text (position + 1)) := by
          apply Numeral.readFraction.eq_2
          intro d behind hcons
          exact hpoint (List.cons.inj hcons).1
        simp [rest_of_getElem? hc, hnone, hpoint]

theorem rest_behind_exponent (position : Nat) :
    rest text
        (if text[position]?.any (fun c => c = 'e' ∨ c = 'E') then
          let sign := if text[position + 1]?.any (fun c => c = '+' ∨ c = '-') then 1 else 0
          if text[position + (1 + sign)]?.any isDigit then
            skipWhile text isDigit (position + (1 + sign))
          else
            position
        else
          position) =
      (Numeral.readExponent (rest text position)).2 := by
  have hsign := rest_behind_sign text (position + 1)
  rw [Nat.add_assoc] at hsign
  simp only
  generalize (if text[position + 1]?.any (fun c => c = '+' ∨ c = '-') then 1 else 0) = sign at *
  cases hc : text[position]? with
  | none => simp [rest_of_getElem?_eq_none hc, Numeral.readExponent]
  | some c =>
      rw [rest_of_getElem? hc, Numeral.readExponent, ← hsign, ← getElem?_eq_head?]
      by_cases hletter : c = 'e' ∨ c = 'E'
      · by_cases hdigit : text[position + (1 + sign)]?.any isDigit = true
        · simp [hletter, hdigit, rest_skipWhile, Numeral.readDigits]
        · simp [hletter, hdigit, rest_of_getElem? hc]
      · simp [hletter, rest_of_getElem? hc]

theorem rest_numeralEnd (text : Array Char) (position : Nat) :
    rest text (numeralEnd text position) = (Numeral.read (rest text position)).2 := by
  have hwhole :
      (if text[position]?.any (fun c => c = '+' ∨ c = '-') then position + 1 else position) =
        position + if text[position]?.any (fun c => c = '+' ∨ c = '-') then 1 else 0 := by
    split <;> rfl
  have hdigits : ∀ cs, (Numeral.readDigits cs).2 = cs.dropWhile isDigit := fun _ => rfl
  rw [numeralEnd, rest_behind_exponent, rest_behind_fraction, rest_skipWhile, hwhole,
    rest_behind_sign, ← hdigits]
  rfl

theorem numeralEnd_le {position : Nat} (h : position ≤ text.size) :
    numeralEnd text position ≤ text.size := by
  unfold numeralEnd
  extract_lets whole point exponent sign
  have hwhole : whole ≤ text.size := by
    simp only [whole]
    split
    · rename_i hsign
      exact lt_of_any hsign
    · exact h
  have hpoint : point ≤ text.size := skipWhile_le isDigit hwhole
  have hexponent : exponent ≤ text.size := by
    simp only [exponent]
    split
    · rename_i hfraction
      exact skipWhile_le isDigit (lt_of_getElem? hfraction.1)
    · exact hpoint
  split
  · split
    · rename_i hdigit
      exact skipWhile_le isDigit (Nat.le_of_lt (lt_of_any hdigit))
    · exact hexponent
  · exact hexponent

theorem numeralEnd_eq {position : Nat} (h : position ≤ text.size) :
    numeralEnd text position = position + (Numeral.read (rest text position)).1.length := by
  have hbehind := numeralEnd_le h
  have hlength := congrArg List.length (Numeral.read_append (rest text position))
  rw [← rest_numeralEnd, List.length_append, length_rest, length_rest] at hlength
  omega

/-- A numeral is the part of the text that the cursor has gone over. -/
theorem slice_numeralEnd {position : Nat} (h : position ≤ text.size) :
    slice text position (numeralEnd text position) =
      .ok (Numeral.read (rest text position)).1 := by
  have hbehind := numeralEnd_le h
  rw [numeralEnd_eq h] at hbehind ⊢
  have happend := Numeral.read_append (rest text position)
  have hpart : (text.extract position
        (position + (Numeral.read (rest text position)).1.length)).toList =
      (Numeral.read (rest text position)).1 := by
    rw [Array.toList_extract, List.extract_eq_take_drop, ← rest, Nat.add_sub_cancel_left]
    exact (List.prefix_iff_eq_take.mp ⟨_, happend⟩).symm
  rw [slice, if_pos ⟨Nat.le_add_right _ _, hbehind⟩, hpart]

theorem reads_number {position : Nat} (h : position ≤ text.size) :
    Reads text (number text position) (Token.readNumber (rest text position)) := by
  have hle := numeralEnd_le h
  have hslice := slice_numeralEnd h
  have hbehind := rest_numeralEnd text position
  simp only [number, Token.readNumber, hslice]
  generalize numeralEnd text position = next at *
  generalize Numeral.read (rest text position) = result at *
  rcases result with ⟨numeral, left⟩
  subst hbehind
  rw [startsNameAt_eq]
  by_cases hname : startsName (rest text next) = true
  · simp only [if_pos hname]
    exact (reads_name hle).map fun unit => Token.number (String.ofList (numeral ++ unit))
  · simp only [if_neg hname]
    cases hc : text[next]? with
    | none =>
        have hnone := rest_of_getElem?_eq_none hc
        exact ⟨next, hle, by simp [hnone], by simp [hnone]⟩
    | some c =>
        rw [rest_of_getElem? hc]
        by_cases hpercent : c = '%'
        · subst hpercent
          exact ⟨next + 1, lt_of_getElem? hc, by simp, by simp⟩
        · refine ⟨next, hle, ?_, ?_⟩
          · simp [hpercent, rest_of_getElem? hc]
          · simp [hpercent]

/-! ## Tokens -/

theorem reads_tokenOf {position : Nat} {c : Char} (h : text[position]? = some c) :
    Reads text (tokenOf text c (position + 1)) (Token.readToken c (rest text (position + 1))) := by
  have hlt : position + 1 ≤ text.size := lt_of_getElem? h
  have hle : position ≤ text.size := Nat.le_of_succ_le hlt
  have hback : previous (position + 1) = .ok position := by
    simp [previous]
  have hreconsume : reconsume (position + 1) = position := rfl
  have hrest := rest_of_getElem? h
  have hnumber := hrest ▸ reads_number hle
  have hnamed := hrest ▸ reads_named hle
  have hdelim :
      Reads text (.ok (.delim c, position + 1)) (Token.delim c, rest text (position + 1)) :=
    ⟨position + 1, hlt, rfl, rfl⟩
  unfold tokenOf Token.readToken
  simp only [startsHash_eq, opensEscape_eq, hback, hreconsume, startsNumberAt_eq, startsNameAt_eq,
    hrest]
  by_cases hblank : isBlank c = true
  · simp only [if_pos hblank]
    exact ⟨_, skipWhile_le isBlank hlt, rest_skipWhile isBlank _, rfl⟩
  simp only [if_neg hblank]
  by_cases hquote : c = '"' ∨ c = '\''
  · simp only [if_pos hquote]
    exact reads_string c hlt
  simp only [if_neg hquote]
  by_cases hhash : c = '#' ∧ startsHash (rest text (position + 1)) = true
  · simp only [if_pos hhash]
    exact (reads_name hlt).map fun name => Token.hash (String.ofList name)
  simp only [if_neg hhash]
  by_cases hsign : c = '+' ∨ c = '.' ∨ c = '-'
  · simp only [if_pos hsign]
    by_cases hdigits : startsNumber (c :: rest text (position + 1)) = true
    · simp only [if_pos hdigits]
      exact hnumber
    simp only [if_neg hdigits]
    by_cases hhyphen : c = '-'
    · simp only [hhyphen, true_and] at hnamed hdelim ⊢
      by_cases hletters : startsName ('-' :: rest text (position + 1)) = true
      · simp only [if_pos hletters]
        exact hnamed
      · simp only [if_neg hletters]
        exact hdelim
    · have hletters : startsName (c :: rest text (position + 1)) = false := by
        rcases hsign with rfl | rfl | rfl
        · rfl
        · rfl
        · exact absurd rfl hhyphen
      simp only [hhyphen, false_and, if_false, hletters, Bool.false_eq_true]
      exact hdelim
  -- An escape, a digit and a letter exclude each other, so that it does not matter which is first.
  simp only [if_neg hsign, startsNumber_eq_isDigit hsign]
  have hhyphen : c ≠ '-' := fun hc => hsign (.inr (.inr hc))
  by_cases hescape : startsEscape (c :: rest text (position + 1)) = true
  · have hletters : startsName (c :: rest text (position + 1)) = true := by
      simp [startsName, hhyphen, hescape]
    have hdigit : isDigit c = false := by
      obtain ⟨d, more, hcons⟩ := exists_of_startsEscape hescape
      rw [(List.cons.inj hcons).1]
      decide
    simp only [if_pos hescape, hdigit, hletters, Bool.false_eq_true, if_false, if_true]
    exact hnamed
  · have hletters : startsName (c :: rest text (position + 1)) = isNameStart c := by
      simp [startsName, hhyphen, hescape]
    simp only [if_neg hescape, hletters]
    by_cases hdigit : isDigit c = true
    · simp only [if_pos hdigit]
      exact hnumber
    simp only [if_neg hdigit]
    by_cases hstart : isNameStart c = true
    · simp only [if_pos hstart]
      exact hnamed
    · simp only [if_neg hstart]
      exact hdelim

/-- Behind the last comments of a text the cursor is at its end. -/
theorem token_of_next?_eq_none {position : Nat} (h : position ≤ text.size)
    (hnext : Token.next? (rest text position) = none) :
    token text position = .ok (.eof, text.size) := by
  have hle := skipComments_le h
  have hempty : rest text (skipComments text position) = [] := by
    rw [rest_skipComments]
    unfold Token.next? at hnext
    split at hnext
    · assumption
    · cases hnext
  have hlength := congrArg List.length hempty
  rw [length_rest, List.length_nil] at hlength
  have hend : skipComments text position = text.size := by omega
  simp [token, hend]

/-- Any other token is read from the rest of the text, and the cursor moves. -/
theorem token_of_next?_eq_some {position : Nat} (h : position ≤ text.size)
    {token : Token} {left : List Char}
    (hnext : Token.next? (rest text position) = some (token, left)) :
    ∃ next, position < next ∧ next ≤ text.size ∧ rest text next = left ∧
      Cursor.token text position = .ok (token, next) := by
  have hlt := Token.next?_length_lt hnext
  obtain ⟨next, hle, hrest, hread⟩ : Reads text (Cursor.token text position) (token, left) := by
    rw [Token.next?, ← rest_skipComments] at hnext
    unfold Cursor.token
    cases hc : text[skipComments text position]? with
    | none =>
        rw [rest_of_getElem?_eq_none hc] at hnext
        cases hnext
    | some c =>
        rw [rest_of_getElem? hc] at hnext
        simp only [hc]
        exact Option.some.inj hnext ▸ reads_tokenOf hc
  subst hrest
  rw [length_rest, length_rest] at hlt
  exact ⟨next, by omega, hle, rfl, hread⟩

/-- The cursor comes to the end of the text with the tokens of the scanner. -/
theorem run_eq {position : Nat} (h : position ≤ text.size) :
    run text position = .ok (Token.scan (rest text position), text.size) := by
  induction hroom : text.size - position using Nat.strongRecOn generalizing position with
  | ind room ih =>
      rw [run]
      cases hnext : Token.next? (rest text position) with
      | none =>
          rw [token_of_next?_eq_none h hnext, Token.scan_of_next?_eq_none hnext]
          rfl
      | some found =>
          obtain ⟨token, left⟩ := found
          obtain ⟨next, hlt, hle, rfl, hread⟩ := token_of_next?_eq_some h hnext
          have hrest := ih (text.size - next) (by omega) hle rfl
          rw [hread, Token.scan_of_next?_eq_some hnext]
          simp only [if_neg (Token.next?_ne_eof hnext), dif_pos (And.intro hlt hle), hrest]
          rfl

/--
Scanning by position never fails and never stalls.  It comes to the end of every text, and yields
what the scanner yields: a token for every character at most, and `eof` once, at the end.  From
every position of the text some token is read, which ends in the text; only `eof` does not move
the cursor on, and only the end of the text is behind it.
-/
theorem run_eq_ok (selector : String) :
    run selector.toList.toArray 0 = .ok (Token.ofText selector, selector.toList.length) ∧
      (∀ position ≤ selector.toList.length, ∃ token next,
        Cursor.token selector.toList.toArray position = .ok (token, next) ∧
          next ≤ selector.toList.length ∧ (token ≠ .eof → position < next) ∧
          (token = .eof → next = selector.toList.length)) ∧
      (Token.ofText selector).length ≤ selector.toList.length + 1 ∧
      ∃ tokens, Token.ofText selector = tokens ++ [.eof] ∧ .eof ∉ tokens := by
  have hsize : selector.toList.toArray.size = selector.toList.length := List.size_toArray
  refine ⟨?_, ?_, Token.length_scan_le _, Token.scan_eq_append_eof _⟩
  · rw [run_eq (Nat.zero_le _), hsize]
    rfl
  · intro position hposition
    rw [← hsize] at hposition ⊢
    cases hnext : Token.next? (rest selector.toList.toArray position) with
    | none =>
        have hread := token_of_next?_eq_none hposition hnext
        exact ⟨.eof, _, hread, Nat.le_refl _, fun hne => absurd rfl hne, fun _ => rfl⟩
    | some found =>
        obtain ⟨token, left⟩ := found
        obtain ⟨next, hlt, hle, -, hread⟩ := token_of_next?_eq_some hposition hnext
        have hne := Token.next?_ne_eof hnext
        exact ⟨token, next, hread, hle, fun _ => hlt, fun heof => absurd heof hne⟩

theorem run_of_open_literal :
    run "+.5e-3\\41 /*x*/'\\".toList.toArray 0 =
        .ok ([.number "+.5e-3A", .string "", .eof], 17) ∧
      16 ≤ "+.5e-3\\41 /*x*/'\\".toList.length ∧
      ∃ next, Cursor.token "+.5e-3\\41 /*x*/'\\".toList.toArray 16 = .ok (.delim '\\', next) ∧
        16 < next ∧ next ≤ 17 := by
  have hscan : Token.ofText "+.5e-3\\41 /*x*/'\\" =
      [.number "+.5e-3A", .string "", .eof] := by decide +kernel
  have hlast : (Cursor.token "+.5e-3\\41 /*x*/'\\".toList.toArray 16).toOption =
      some (.delim '\\', 17) := by decide +kernel
  have hlength : "+.5e-3\\41 /*x*/'\\".toList.length = 17 := by decide
  have hat : 16 ≤ "+.5e-3\\41 /*x*/'\\".toList.length := by decide
  obtain ⟨hrun, hmoves, -⟩ := run_eq_ok "+.5e-3\\41 /*x*/'\\"
  obtain ⟨token, next, hread, hle, hlt, -⟩ := hmoves 16 hat
  obtain ⟨rfl, rfl⟩ : token = .delim '\\' ∧ next = 17 := by
    rw [hread] at hlast
    cases hlast
    exact ⟨rfl, rfl⟩
  rw [hscan, hlength] at hrun
  exact ⟨hrun, hat, 17, hread, hlt (by decide), hle⟩

end Scenery.Selector.Cursor
