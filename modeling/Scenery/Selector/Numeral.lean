import Scenery.Selector.Alphabet

/-!
# Numerals

A numeral is an optional sign, digits with an optional fraction, and an optional
exponent.  The selector language never computes with numbers, so a numeral is
kept as the characters it is written with.  Main statement: a numeral and what
is left of the text make up the text.
-/

namespace Scenery.Selector.Numeral

/-- A sign at the start of the text, if one is there. -/
def readSign : List Char → List Char × List Char
  | [] => ([], [])
  | c :: rest => if c = '+' ∨ c = '-' then ([c], rest) else ([], c :: rest)

/-- The digits at the start of the text. -/
def readDigits (cs : List Char) : List Char × List Char :=
  (cs.takeWhile isDigit, cs.dropWhile isDigit)

/-- A point with at least one digit behind it, and all the digits behind it. -/
def readFraction : List Char → List Char × List Char
  | '.' :: d :: rest =>
    if isDigit d then
      ('.' :: (readDigits (d :: rest)).1, (readDigits (d :: rest)).2)
    else
      ([], '.' :: d :: rest)
  | cs => ([], cs)

/-- An exponent: its letter, an optional sign and at least one digit. -/
def readExponent : List Char → List Char × List Char
  | [] => ([], [])
  | c :: rest =>
    if (c = 'e' ∨ c = 'E') ∧ (readSign rest).2.head?.any isDigit then
      (c :: (readSign rest).1 ++ (readDigits (readSign rest).2).1,
        (readDigits (readSign rest).2).2)
    else
      ([], c :: rest)

/-- Read sign, digits, fraction and exponent, each as far as it goes. -/
def read (cs : List Char) : List Char × List Char :=
  let (sign, afterSign) := readSign cs
  let (whole, afterWhole) := readDigits afterSign
  let (fraction, afterFraction) := readFraction afterWhole
  let (exponent, left) := readExponent afterFraction
  (sign ++ whole ++ fraction ++ exponent, left)

theorem readSign_append (cs : List Char) :
    (readSign cs).1 ++ (readSign cs).2 = cs := by
  cases cs with
  | nil => rfl
  | cons c rest =>
      simp only [readSign]
      split <;> rfl

theorem readDigits_append (cs : List Char) :
    (readDigits cs).1 ++ (readDigits cs).2 = cs :=
  List.takeWhile_append_dropWhile

theorem readFraction_append (cs : List Char) :
    (readFraction cs).1 ++ (readFraction cs).2 = cs := by
  fun_cases readFraction cs with
  | case1 d rest _ => simp [readDigits_append]
  | case2 => rfl
  | case3 => rfl

theorem readExponent_append (cs : List Char) :
    (readExponent cs).1 ++ (readExponent cs).2 = cs := by
  cases cs with
  | nil => rfl
  | cons c rest =>
      simp only [readExponent]
      split
      · simp [readDigits_append, readSign_append]
      · rfl

/-- Nothing is lost or changed: a numeral is a leading part of the text. -/
theorem read_append (cs : List Char) :
    (read cs).1 ++ (read cs).2 = cs := by
  simp only [read, List.append_assoc]
  rw [readExponent_append, readFraction_append, readDigits_append,
    readSign_append]

theorem readDigits_ne_nil
    {c : Char} (rest : List Char) (hc : isDigit c = true) :
    (readDigits (c :: rest)).1 ≠ [] := by
  simp [readDigits, hc]

/-- Behind its sign a text that starts a number has digits, perhaps behind a point only. -/
theorem unsigned_ne_nil
    {cs : List Char} (h : startsUnsigned cs = true) :
    (readDigits cs).1 ++ (readFraction (readDigits cs).2).1 ≠ [] := by
  fun_cases startsUnsigned cs with
  | case1 d rest =>
      have hd : isDigit d = true := by simpa [startsUnsigned] using h
      have hpoint : isDigit '.' = false := by decide
      simp [readDigits, readFraction, hpoint, hd]
  | case2 c rest _ =>
      have hc : isDigit c = true := by simpa [startsUnsigned] using h
      simp [readDigits, hc]
  | case3 => simp [startsUnsigned] at h

theorem startsUnsigned_readSign (cs : List Char) :
    startsUnsigned (readSign cs).2 = startsNumber cs := by
  fun_cases startsNumber cs with
  | case1 rest => simp [readSign]
  | case2 rest => simp [readSign]
  | case3 =>
      cases cs with
      | nil => rfl
      | cons c rest => simp_all [readSign]

/-- Text that starts a number yields a numeral that is not empty. -/
theorem read_ne_nil
    {cs : List Char} (h : startsNumber cs = true) :
    (read cs).1 ≠ [] := by
  have hunsigned := unsigned_ne_nil (startsUnsigned_readSign cs ▸ h)
  simp only [read, List.append_assoc]
  rw [← List.append_assoc (readDigits _).1]
  exact List.append_ne_nil_of_right_ne_nil _
    (List.append_ne_nil_of_left_ne_nil hunsigned _)

theorem read_length_lt
    {cs : List Char} (h : startsNumber cs = true) :
    (read cs).2.length < cs.length := by
  have happend := congrArg List.length (read_append cs)
  have hpos := List.length_pos_iff.mpr (read_ne_nil h)
  simp only [List.length_append] at happend
  omega

end Scenery.Selector.Numeral
