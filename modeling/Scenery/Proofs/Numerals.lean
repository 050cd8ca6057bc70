import Mathlib.Computability.Language
import Scenery.Proofs.Advancing

/-!
# Numerals are as long as they can be

The numerals form a language: an optional sign, digits with an optional fraction
or a fraction alone, and an optional exponent.  A numeral is read part by part,
and each part is tried by one or two characters.  Main statements: a text starts a
number just when a numeral stands at its start, and what is read then is the
longest one.  A token has this numeral unchanged, and its unit behind it.
-/

namespace Scenery.Selector

open Computability

namespace Numeral

/-! ## The language -/

/-- The texts of a single character that is of a class. -/
def single (inClass : Char → Prop) : Language Char :=
  {cs | ∃ c, inClass c ∧ cs = [c]}

/-- The texts of a language, and the empty text. -/
def optional (language : Language Char) : Language Char :=
  1 + language

def signs : Language Char :=
  single fun c => c = '+' ∨ c = '-'

/-- One digit or more. -/
def digits : Language Char :=
  single (isDigit · = true) * (single (isDigit · = true))∗

def fractions : Language Char :=
  single (· = '.') * digits

def exponents : Language Char :=
  single (fun c => c = 'e' ∨ c = 'E') * optional signs * digits

/-- With a digit `D`, the texts of the form `[+-]?(D+(\.D+)?|\.D+)([eE][+-]?D+)?`. -/
def numerals : Language Char :=
  optional signs * (digits * optional fractions + fractions) * optional exponents

/-- The longest text of a language that a text begins with. -/
structure Longest (language : Language Char) (text part : List Char) : Prop where
  mem : part ∈ language
  isPrefix : part <+: text
  length_le : ∀ other ∈ language, other <+: text → other.length ≤ part.length

theorem Longest.unique {language : Language Char} {text part other : List Char}
    (h : Longest language text part) (hother : Longest language text other) : part = other := by
  have hle := hother.length_le part h.mem h.isPrefix
  have hge := h.length_le other hother.mem hother.isPrefix
  have hprefix := List.prefix_of_prefix_length_le h.isPrefix hother.isPrefix hle
  exact hprefix.eq_of_length (Nat.le_antisymm hle hge)

theorem mem_optional_iff {language : Language Char} {cs : List Char} :
    cs ∈ optional language ↔ cs = [] ∨ cs ∈ language := by
  rw [optional, Language.mem_add, Language.mem_one]

theorem mem_signs_iff {cs : List Char} : cs ∈ signs ↔ ∃ c, (c = '+' ∨ c = '-') ∧ cs = [c] :=
  Iff.rfl

theorem mem_digits_iff {cs : List Char} :
    cs ∈ digits ↔ cs ≠ [] ∧ ∀ c ∈ cs, isDigit c = true := by
  rw [digits, Language.mem_mul]
  constructor
  · rintro ⟨_, ⟨d, hd, rfl⟩, more, hmore, rfl⟩
    obtain ⟨parts, rfl, hparts⟩ := Language.mem_kstar.mp hmore
    refine ⟨List.cons_ne_nil _ _, ?_⟩
    intro c hc
    rcases List.mem_cons.mp hc with rfl | hc
    · exact hd
    · obtain ⟨part, hpart, hcpart⟩ := List.mem_flatten.mp hc
      obtain ⟨e, he, rfl⟩ := hparts part hpart
      rwa [List.mem_singleton.mp hcpart]
  · rintro ⟨hne, hdigits⟩
    cases cs with
    | nil => exact absurd rfl hne
    | cons d more =>
        rw [List.forall_mem_cons] at hdigits
        refine ⟨[d], ⟨d, hdigits.1, rfl⟩, more, Language.mem_kstar.mpr ?_, rfl⟩
        refine ⟨more.map ([·]), (List.flatMap_singleton' more).symm, ?_⟩
        intro part hpart
        obtain ⟨e, he, rfl⟩ := List.mem_map.mp hpart
        exact ⟨e, hdigits.2 e he, rfl⟩

theorem mem_fractions_iff {cs : List Char} :
    cs ∈ fractions ↔ ∃ ds ∈ digits, cs = '.' :: ds := by
  rw [fractions, Language.mem_mul]
  constructor
  · rintro ⟨_, ⟨_, rfl, rfl⟩, ds, hds, rfl⟩
    exact ⟨ds, hds, rfl⟩
  · rintro ⟨ds, hds, rfl⟩
    exact ⟨['.'], ⟨'.', rfl, rfl⟩, ds, hds, rfl⟩

theorem mem_exponents_iff {cs : List Char} :
    cs ∈ exponents ↔
      ∃ letter, (letter = 'e' ∨ letter = 'E') ∧ ∃ sign ∈ optional signs, ∃ ds ∈ digits,
        cs = letter :: (sign ++ ds) := by
  rw [exponents, mul_assoc, Language.mem_mul]
  constructor
  · rintro ⟨_, ⟨letter, hletter, rfl⟩, _, ⟨sign, hsign, ds, hds, rfl⟩, rfl⟩
    exact ⟨letter, hletter, sign, hsign, ds, hds, rfl⟩
  · rintro ⟨letter, hletter, sign, hsign, ds, hds, rfl⟩
    exact ⟨[letter], ⟨letter, hletter, rfl⟩, sign ++ ds, ⟨sign, hsign, ds, hds, rfl⟩, rfl⟩

/-- A whole part and a fraction, of which one may be missing. -/
theorem mem_numerals_iff {cs : List Char} :
    cs ∈ numerals ↔
      ∃ sign ∈ optional signs, ∃ whole, (∀ c ∈ whole, isDigit c = true) ∧
        ∃ fraction ∈ optional fractions, whole ++ fraction ≠ [] ∧
          ∃ exponent ∈ optional exponents, cs = sign ++ (whole ++ fraction ++ exponent) := by
  rw [numerals, mul_assoc, Language.mem_mul]
  constructor
  · rintro ⟨sign, hsign, _, ⟨_, hunsigned, exponent, hexponent, rfl⟩, rfl⟩
    rcases hunsigned with ⟨whole, hwhole, fraction, hfraction, rfl⟩ | hfraction
    · obtain ⟨hne, hdigits⟩ := mem_digits_iff.mp hwhole
      exact ⟨sign, hsign, whole, hdigits, fraction, hfraction,
        List.append_ne_nil_of_left_ne_nil hne _, exponent, hexponent, rfl⟩
    · obtain ⟨ds, -, hfractionEq⟩ := mem_fractions_iff.mp hfraction
      exact ⟨sign, hsign, [], List.forall_mem_nil _, _, mem_optional_iff.mpr (.inr hfraction),
        by simp [hfractionEq], exponent, hexponent, rfl⟩
  · rintro ⟨sign, hsign, whole, hdigits, fraction, hfraction, hne, exponent, hexponent, rfl⟩
    refine ⟨sign, hsign, _, ⟨_, ?_, exponent, hexponent, rfl⟩, rfl⟩
    cases whole with
    | nil => exact .inr ((mem_optional_iff.mp hfraction).resolve_left hne)
    | cons d more =>
        have hwhole : d :: more ∈ digits := mem_digits_iff.mpr ⟨List.cons_ne_nil _ _, hdigits⟩
        exact .inl ⟨_, hwhole, fraction, hfraction, rfl⟩

/-! ## What is read is a numeral -/

theorem readSign_mem (cs : List Char) : (readSign cs).1 ∈ optional signs := by
  rw [mem_optional_iff, mem_signs_iff]
  fun_cases readSign cs with
  | case1 => exact .inl rfl
  | case2 c rest hsign => exact .inr ⟨c, hsign, rfl⟩
  | case3 => exact .inl rfl

theorem isDigit_of_mem_readDigits {cs : List Char} {c : Char} (h : c ∈ (readDigits cs).1) :
    isDigit c = true :=
  List.all_eq_true.mp List.all_takeWhile c h

theorem readDigits_mem {cs : List Char} (h : cs.head?.any isDigit = true) :
    (readDigits cs).1 ∈ digits := by
  refine mem_digits_iff.mpr ⟨?_, fun c => isDigit_of_mem_readDigits⟩
  cases cs with
  | nil => cases h
  | cons c rest => exact readDigits_ne_nil rest h

theorem readFraction_mem (cs : List Char) : (readFraction cs).1 ∈ optional fractions := by
  rw [mem_optional_iff, mem_fractions_iff]
  fun_cases readFraction cs with
  | case1 d rest hdigit =>
      have hhead : (d :: rest).head?.any isDigit = true := hdigit
      exact .inr ⟨_, readDigits_mem hhead, rfl⟩
  | case2 => exact .inl rfl
  | case3 => exact .inl rfl

theorem readExponent_mem (cs : List Char) : (readExponent cs).1 ∈ optional exponents := by
  rw [mem_optional_iff, mem_exponents_iff]
  fun_cases readExponent cs with
  | case1 => exact .inl rfl
  | case2 c rest h =>
      exact .inr ⟨c, h.1, _, readSign_mem rest, _, readDigits_mem h.2, rfl⟩
  | case3 => exact .inl rfl

/-- The parts of a numeral in the order in which they are read. -/
theorem read_fst (cs : List Char) :
    (read cs).1 =
      let whole := readDigits (readSign cs).2
      let fraction := readFraction whole.2
      (readSign cs).1 ++ (whole.1 ++ fraction.1 ++ (readExponent fraction.2).1) := by
  simp only [read, List.append_assoc]

theorem read_mem {cs : List Char} (h : startsNumber cs = true) : (read cs).1 ∈ numerals := by
  have hunsigned := unsigned_ne_nil (startsUnsigned_readSign cs ▸ h)
  rw [read_fst, mem_numerals_iff]
  exact ⟨_, readSign_mem cs, _, fun c => isDigit_of_mem_readDigits, _, readFraction_mem _,
    hunsigned, _, readExponent_mem _, rfl⟩

/-! ## A numeral is read to its end at least -/

theorem readDigits_of_head? {cs : List Char} (h : cs.head?.any isDigit = false) :
    readDigits cs = ([], cs) := by
  obtain ⟨htake, hdrop⟩ := span_of_head? h
  rw [readDigits, htake, hdrop]

theorem readDigits_append_of_digits {ds : List Char} (h : ∀ d ∈ ds, isDigit d = true)
    (rest : List Char) :
    readDigits (ds ++ rest) = (ds ++ (readDigits rest).1, (readDigits rest).2) := by
  rw [readDigits, List.takeWhile_append_of_pos h, List.dropWhile_append_of_pos h]
  rfl

theorem any_head?_append_of_mem {ds : List Char} (h : ds ∈ digits) (rest : List Char) :
    (ds ++ rest).head?.any isDigit = true := by
  obtain ⟨hne, hdigits⟩ := mem_digits_iff.mp h
  cases ds with
  | nil => exact absurd rfl hne
  | cons d more => exact hdigits d List.mem_cons_self

theorem readFraction_append_of_mem {fraction : List Char} (h : fraction ∈ fractions)
    (rest : List Char) :
    readFraction (fraction ++ rest) = (fraction ++ (readDigits rest).1, (readDigits rest).2) := by
  obtain ⟨ds, hds, rfl⟩ := mem_fractions_iff.mp h
  rw [List.cons_append, readFraction_point, if_pos (any_head?_append_of_mem hds rest),
    readDigits_append_of_digits (mem_digits_iff.mp hds).2]
  rfl

theorem startsUnsigned_of_head? {cs : List Char} (h : cs.head?.any isDigit = true) :
    startsUnsigned cs = true := by
  have hpoint : cs.head? ≠ some '.' := by
    intro hpoint
    rw [hpoint] at h
    cases h
  rw [startsUnsigned_of_head?_ne hpoint, h]

/-- Without its sign a numeral has a digit in front, or a point with a digit behind it. -/
theorem startsUnsigned_append {whole fraction : List Char} (hwhole : ∀ c ∈ whole, isDigit c = true)
    (hfraction : fraction ∈ optional fractions) (hne : whole ++ fraction ≠ [])
    (exponent rest : List Char) :
    startsUnsigned (whole ++ fraction ++ exponent ++ rest) = true := by
  cases whole with
  | nil =>
      have hfraction := (mem_optional_iff.mp hfraction).resolve_left hne
      obtain ⟨ds, hds, rfl⟩ := mem_fractions_iff.mp hfraction
      have hdigit := any_head?_append_of_mem hds (exponent ++ rest)
      rwa [List.append_assoc, List.nil_append, List.cons_append, startsUnsigned_point]
  | cons d more => exact startsUnsigned_of_head? (hwhole d List.mem_cons_self)

theorem head?_ne_of_startsUnsigned {cs : List Char} (h : startsUnsigned cs = true) :
    cs.head? ≠ some '+' ∧ cs.head? ≠ some '-' := by
  cases cs with
  | nil => cases h
  | cons c rest =>
      constructor
      · intro hplus
        rw [Option.some.inj hplus, startsUnsigned_eq_false (by decide) (by decide)] at h
        cases h
      · intro hminus
        rw [Option.some.inj hminus, startsUnsigned_eq_false (by decide) (by decide)] at h
        cases h

/-- What begins an unsigned number is no sign, so one sign at most is read. -/
theorem readSign_append_of_mem {sign cs : List Char} (h : sign ∈ optional signs)
    (hcs : startsUnsigned cs = true) : readSign (sign ++ cs) = (sign, cs) := by
  obtain ⟨hplus, hminus⟩ := head?_ne_of_startsUnsigned hcs
  rcases mem_optional_iff.mp h with rfl | ⟨c, hsign, rfl⟩
  · exact readSign_of_head?_ne hplus hminus
  · exact if_pos hsign

theorem readExponent_append_of_mem {exponent : List Char} (h : exponent ∈ exponents)
    (rest : List Char) :
    readExponent (exponent ++ rest) = (exponent ++ (readDigits rest).1, (readDigits rest).2) := by
  obtain ⟨letter, hletter, sign, hsign, ds, hds, rfl⟩ := mem_exponents_iff.mp h
  have hdigit := any_head?_append_of_mem hds rest
  have hread := readSign_append_of_mem hsign (startsUnsigned_of_head? hdigit)
  rw [List.cons_append, List.append_assoc, readExponent, hread, if_pos ⟨hletter, hdigit⟩,
    readDigits_append_of_digits (mem_digits_iff.mp hds).2]
  simp only [List.cons_append, List.append_assoc]

theorem head?_of_mem_fractions {fraction : List Char} (h : fraction ∈ fractions)
    (rest : List Char) : (fraction ++ rest).head?.any isDigit = false := by
  obtain ⟨ds, -, rfl⟩ := mem_fractions_iff.mp h
  show isDigit '.' = false
  decide

/-- Neither the digits nor the fraction in front of an exponent go on with its letter. -/
theorem head?_of_mem_exponents {exponent : List Char} (h : exponent ∈ exponents)
    (rest : List Char) :
    (exponent ++ rest).head?.any isDigit = false ∧ (exponent ++ rest).head? ≠ some '.' := by
  obtain ⟨letter, hletter, sign, -, ds, -, rfl⟩ := mem_exponents_iff.mp h
  rcases hletter with rfl | rfl
  · exact ⟨show isDigit 'e' = false by decide, by simp⟩
  · exact ⟨show isDigit 'E' = false by decide, by simp⟩

/--
Of a text that begins with a numeral without its sign, all of the numeral is read.  A part that the
numeral lacks may be read as well, from what stands behind it.
-/
theorem isPrefix_unsigned {whole fraction exponent : List Char}
    (hwhole : ∀ c ∈ whole, isDigit c = true) (hfraction : fraction ∈ optional fractions)
    (hexponent : exponent ∈ optional exponents) (rest : List Char) :
    let digits := readDigits (whole ++ fraction ++ exponent ++ rest)
    let point := readFraction digits.2
    whole ++ fraction ++ exponent <+: digits.1 ++ point.1 ++ (readExponent point.2).1 := by
  simp only [List.append_assoc, readDigits_append_of_digits hwhole]
  rw [List.prefix_append_right_inj]
  -- A part that is there stops the one before it, and what may follow the last part is more of it.
  rcases mem_optional_iff.mp hfraction with rfl | hfraction <;>
    rcases mem_optional_iff.mp hexponent with rfl | hexponent
  · exact List.nil_prefix
  · obtain ⟨hdigit, hpoint⟩ := head?_of_mem_exponents hexponent rest
    rw [List.nil_append, List.nil_append, readDigits_of_head? hdigit,
      readFraction_of_head?_ne hpoint, readExponent_append_of_mem hexponent]
    exact List.prefix_append _ _
  · rw [List.nil_append, readDigits_of_head? (head?_of_mem_fractions hfraction rest),
      readFraction_append_of_mem hfraction]
    simp
  · obtain ⟨hdigit, -⟩ := head?_of_mem_exponents hexponent rest
    rw [readDigits_of_head? (head?_of_mem_fractions hfraction _),
      readFraction_append_of_mem hfraction, readDigits_of_head? hdigit,
      readExponent_append_of_mem hexponent]
    simp

theorem isPrefix_read {numeral : List Char} (h : numeral ∈ numerals) (rest : List Char) :
    numeral <+: (read (numeral ++ rest)).1 := by
  obtain ⟨sign, hsign, whole, hwhole, fraction, hfraction, hne, exponent, hexponent, rfl⟩ :=
    mem_numerals_iff.mp h
  have hstarts := startsUnsigned_append hwhole hfraction hne exponent rest
  rw [read_fst, List.append_assoc sign, readSign_append_of_mem hsign hstarts,
    List.prefix_append_right_inj]
  exact isPrefix_unsigned hwhole hfraction hexponent rest

/-! ## The longest numeral -/

theorem startsNumber_append_of_mem {numeral : List Char} (h : numeral ∈ numerals)
    (rest : List Char) : startsNumber (numeral ++ rest) = true := by
  obtain ⟨sign, hsign, whole, hwhole, fraction, hfraction, hne, exponent, -, rfl⟩ :=
    mem_numerals_iff.mp h
  have hstarts := startsUnsigned_append hwhole hfraction hne exponent rest
  rw [← startsUnsigned_readSign, List.append_assoc sign, readSign_append_of_mem hsign hstarts]
  exact hstarts

/-- The test for a number and the reader agree on every text. -/
theorem startsNumber_iff (cs : List Char) :
    startsNumber cs = true ↔ ∃ numeral ∈ numerals, numeral ≠ [] ∧ numeral <+: cs := by
  constructor
  · intro h
    exact ⟨_, read_mem h, read_ne_nil h, _, read_append cs⟩
  · rintro ⟨numeral, hmem, -, rest, rfl⟩
    exact startsNumber_append_of_mem hmem rest

theorem longest_read {cs : List Char} (h : startsNumber cs = true) :
    Longest numerals cs (read cs).1 where
  mem := read_mem h
  isPrefix := ⟨_, read_append cs⟩
  length_le := by
    rintro other hother ⟨rest, rfl⟩
    exact (isPrefix_read hother rest).length_le

theorem longest_iff {cs numeral : List Char} :
    Longest numerals cs numeral ↔ startsNumber cs = true ∧ numeral = (read cs).1 := by
  constructor
  · intro h
    have hstarts : startsNumber cs = true := by
      obtain ⟨rest, rfl⟩ := h.isPrefix
      exact startsNumber_append_of_mem h.mem rest
    exact ⟨hstarts, h.unique (longest_read hstarts)⟩
  · rintro ⟨hstarts, rfl⟩
    exact longest_read hstarts

end Numeral

/-! ## Numeric tokens -/

/-- Only a number is read to a number token. -/
theorem Token.startsNumber_of_readToken {c : Char} {rest left : List Char} {literal : String}
    (h : readToken c rest = (number literal, left)) : startsNumber (c :: rest) = true := by
  revert h
  fun_cases readToken c rest with
  | case4 _ _ _ hnumber => exact fun _ => hnumber
  | case1 => simp
  | case2 => fun_cases readString c rest <;> simp
  | case3 => simp
  | case5 => fun_cases readNamed (c :: rest) <;> simp
  | case6 => simp

namespace Cursor

variable {text : Array Char}

/-- A numeral ends here, and its unit there: it is a name, or else a percent sign, or else empty. -/
def IsUnit (text : Array Char) (position : Nat) (unit : List Char) (next : Nat) : Prop :=
  if startsNameAt text position then name text position = .ok (unit, next)
  else if text[position]? = some '%' then unit = ['%'] ∧ next = position + 1
  else unit = [] ∧ next = position

theorem exists_of_startsNumberAt {position : Nat} (h : startsNumberAt text position = true) :
    ∃ c, text[position]? = some c ∧ ((c = '+' ∨ c = '.' ∨ c = '-') ∨ isDigit c = true) := by
  unfold startsNumberAt at h
  split at h
  · cases h
  · rename_i c hc
    refine ⟨c, hc, ?_⟩
    split at h
    · rename_i hsign
      exact .inl (hsign.imp_right .inr)
    · split at h
      · rename_i hpoint
        exact .inl (.inr (.inl hpoint))
      · exact .inr h

theorem lt_of_startsNumberAt {position : Nat} (h : startsNumberAt text position = true) :
    position < text.size := by
  obtain ⟨c, hc, -⟩ := exists_of_startsNumberAt h
  exact lt_of_getElem? hc

/-- Whatever a number begins with, the cursor goes back over it and reads the number. -/
theorem tokenOf_of_startsNumberAt {position : Nat} {c : Char} (hc : text[position]? = some c)
    (h : startsNumberAt text position = true) :
    tokenOf text c (position + 1) = number text position := by
  obtain ⟨d, hd, hfirst⟩ := exists_of_startsNumberAt h
  obtain rfl : c = d := Option.some.inj (hc.symm.trans hd)
  obtain ⟨hblank, hquote, hhash, hslash⟩ :
      isBlank c = false ∧ ¬ (c = '"' ∨ c = '\'') ∧ c ≠ '#' ∧ c ≠ '\\' := by
    rcases hfirst with (rfl | rfl | rfl) | hdigit
    · decide
    · decide
    · decide
    · have hne : ∀ {e : Char}, isDigit e = false → c ≠ e := by
        rintro e he rfl
        rw [he] at hdigit
        cases hdigit
      refine ⟨?_, not_or.mpr ⟨hne rfl, hne rfl⟩, hne rfl, hne rfl⟩
      simp only [isBlank, Bool.or_eq_false_iff, beq_eq_false_iff_ne]
      exact ⟨⟨⟨⟨hne rfl, hne rfl⟩, hne rfl⟩, hne rfl⟩, hne rfl⟩
  have hback : previous (position + 1) = .ok position := by
    simp [previous]
  have hreconsume : reconsume (position + 1) = position := rfl
  have hescape : opensEscape (some c) text[position + 1]? = false := by
    simp [opensEscape, hslash]
  unfold tokenOf
  by_cases hsign : c = '+' ∨ c = '.' ∨ c = '-'
  · simp [hblank, hquote, hhash, hsign, hback, hreconsume, h]
  · have hdigit := hfirst.resolve_left hsign
    simp [hblank, hquote, hhash, hsign, hescape, hdigit, hreconsume]

theorem token_eq_number_iff (position next : Nat) (literal : String) :
    token text position = .ok (.number literal, next) ↔
      startsNumberAt text (skipComments text position) = true ∧
        number text (skipComments text position) = .ok (.number literal, next) := by
  constructor
  · intro h
    unfold token at h
    cases hc : text[skipComments text position]? with
    | none => simp [hc] at h
    | some c =>
        simp only [hc] at h
        obtain ⟨-, hread⟩ := (reads_tokenOf hc).of_eq_ok h
        have hstarts : startsNumberAt text (skipComments text position) = true := by
          rw [startsNumberAt_eq, rest_of_getElem? hc]
          exact Token.startsNumber_of_readToken hread
        exact ⟨hstarts, tokenOf_of_startsNumberAt hc hstarts ▸ h⟩
  · rintro ⟨hstarts, hread⟩
    obtain ⟨c, hc, -⟩ := exists_of_startsNumberAt hstarts
    simp only [token, hc, tokenOf_of_startsNumberAt hc hstarts, hread]

theorem number_eq_iff {position : Nat} (h : position ≤ text.size) (literal : String) (next : Nat) :
    number text position = .ok (.number literal, next) ↔
      ∃ unit, IsUnit text (position + (Numeral.read (rest text position)).1.length) unit next ∧
        literal = String.ofList ((Numeral.read (rest text position)).1 ++ unit) := by
  simp only [number, slice_numeralEnd h, ← numeralEnd_eq h, IsUnit]
  by_cases hname : startsNameAt text (numeralEnd text position) = true
  · simp only [hname, if_true]
    cases name text (numeralEnd text position) with
    | error fault => simp [Except.map]
    | ok result =>
        obtain ⟨unit, last⟩ := result
        constructor
        · intro hread
          cases hread
          exact ⟨unit, rfl, rfl⟩
        · rintro ⟨_, hunit, rfl⟩
          cases hunit
          rfl
  · rw [Bool.not_eq_true] at hname
    by_cases hpercent : text[numeralEnd text position]? = some '%'
    · simp only [hname, hpercent, Bool.false_eq_true, if_true, if_false]
      constructor
      · intro hread
        cases hread
        exact ⟨_, ⟨rfl, rfl⟩, rfl⟩
      · rintro ⟨_, ⟨rfl, rfl⟩, rfl⟩
        rfl
    · simp only [hname, hpercent, Bool.false_eq_true, if_false]
      constructor
      · intro hread
        cases hread
        exact ⟨[], ⟨rfl, rfl⟩, by rw [List.append_nil]⟩
      · rintro ⟨_, ⟨rfl, rfl⟩, rfl⟩
        rw [List.append_nil]

/-- A name never fails to be read, so every numeral has its unit. -/
theorem exists_isUnit {position : Nat} (h : position ≤ text.size) :
    ∃ unit next, IsUnit text position unit next := by
  unfold IsUnit
  split
  · obtain ⟨next, -, -, hread⟩ := reads_name h
    exact ⟨_, next, hread⟩
  · split
    · exact ⟨_, _, rfl, rfl⟩
    · exact ⟨_, _, rfl, rfl⟩

theorem exists_token_eq_number_iff (position : Nat) :
    (∃ literal next, token text position = .ok (.number literal, next)) ↔
      startsNumberAt text (skipComments text position) = true := by
  constructor
  · rintro ⟨literal, next, h⟩
    exact ((token_eq_number_iff position next literal).mp h).1
  · intro h
    have hle := Nat.le_of_lt (lt_of_startsNumberAt h)
    have hend := numeralEnd_le hle
    rw [numeralEnd_eq hle] at hend
    obtain ⟨unit, next, hunit⟩ := exists_isUnit hend
    have hnumber := (number_eq_iff hle _ next).mpr ⟨unit, hunit, rfl⟩
    exact ⟨_, next, (token_eq_number_iff position next _).mpr ⟨h, hnumber⟩⟩

/-- The scanner goes on where the number ends. -/
theorem scan_of_token_eq_number {position next : Nat} {literal : String}
    (h : token text position = .ok (.number literal, next)) :
    Token.scan (rest text position) = .number literal :: Token.scan (rest text next) := by
  have hstarts := (exists_token_eq_number_iff position).mp ⟨literal, next, h⟩
  have hle : position ≤ text.size :=
    (le_skipComments position).trans (Nat.le_of_lt (lt_of_startsNumberAt hstarts))
  cases hnext : Token.next? (rest text position) with
  | none =>
      rw [token_of_next?_eq_none hle hnext] at h
      cases h
  | some found =>
      obtain ⟨token, left⟩ := found
      obtain ⟨last, -, -, hrest, hread⟩ := token_of_next?_eq_some hle hnext
      rw [hread] at h
      cases h
      rw [Token.scan_of_next?_eq_some hnext, hrest]

/--
A text starts a number just when a numeral stands at its start, and where one does behind the
comments, a number token is read.  It has the longest numeral as it is written, then the decoded
name or the percent sign or nothing that stands behind it.  The next token is read from right
behind.
-/
theorem token_eq_longest_numeral (text : Array Char) (position : Nat) :
    (startsNumberAt text position = true ↔
        ∃ numeral ∈ Numeral.numerals, numeral ≠ [] ∧ numeral <+: rest text position) ∧
      (startsNumberAt text (skipComments text position) = true ↔
        ∃ literal next, token text position = .ok (.number literal, next)) ∧
      (∀ literal next, token text position = .ok (.number literal, next) ↔
        ∃ numeral unit,
          Numeral.Longest Numeral.numerals (rest text (skipComments text position)) numeral ∧
          IsUnit text (skipComments text position + numeral.length) unit next ∧
          literal = String.ofList (numeral ++ unit)) ∧
      ∀ literal next, token text position = .ok (.number literal, next) →
        Token.scan (rest text position) = .number literal :: Token.scan (rest text next) := by
  refine ⟨?_, (exists_token_eq_number_iff position).symm, ?_,
    fun literal next => scan_of_token_eq_number⟩
  · rw [startsNumberAt_eq, Numeral.startsNumber_iff]
  · intro literal next
    rw [token_eq_number_iff]
    constructor
    · rintro ⟨hstarts, hread⟩
      have hle := Nat.le_of_lt (lt_of_startsNumberAt hstarts)
      obtain ⟨unit, hunit, hliteral⟩ := (number_eq_iff hle literal next).mp hread
      rw [startsNumberAt_eq] at hstarts
      exact ⟨_, unit, Numeral.longest_read hstarts, hunit, hliteral⟩
    · rintro ⟨numeral, unit, hlongest, hunit, hliteral⟩
      obtain ⟨hstarts, rfl⟩ := Numeral.longest_iff.mp hlongest
      rw [← startsNumberAt_eq] at hstarts
      have hle := Nat.le_of_lt (lt_of_startsNumberAt hstarts)
      exact ⟨hstarts, (number_eq_iff hle literal next).mpr ⟨unit, hunit, hliteral⟩⟩

theorem token_eq_longest_numeral_of_escaped_unit :
    Numeral.Longest Numeral.numerals "+.5e-\\41 %".toList "+.5".toList ∧
      token "/**/+.5e-\\41 %".toList.toArray 0 = .ok (.number "+.5e-A", 13) ∧
      Token.scan "/**/+.5e-\\41 %".toList = .number "+.5e-A" :: Token.scan "%".toList := by
  have hlongest : Numeral.Longest Numeral.numerals "+.5e-\\41 %".toList "+.5".toList :=
    Numeral.longest_iff.mpr ⟨by decide, by decide +kernel⟩
  obtain ⟨-, -, hnumber, hscan⟩ := token_eq_longest_numeral "/**/+.5e-\\41 %".toList.toArray 0
  have hstart : skipComments "/**/+.5e-\\41 %".toList.toArray 0 = 4 := by decide +kernel
  have hunit : IsUnit "/**/+.5e-\\41 %".toList.toArray 7 "e-A".toList 13 := by
    rw [IsUnit, if_pos (by decide)]
    decide +kernel
  rw [hstart] at hnumber
  have htoken := (hnumber "+.5e-A" 13).mpr ⟨_, _, hlongest, hunit, by decide⟩
  exact ⟨hlongest, htoken, hscan _ _ htoken⟩

end Cursor

end Scenery.Selector
