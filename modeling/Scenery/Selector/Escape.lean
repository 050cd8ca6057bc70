import Scenery.Selector.Alphabet

/-!
# Escapes

What follows a backslash is either one to six hexadecimal digits, with one blank
after them that belongs to the escape, or a single character that stands for
itself.  Main statement: reading an escape uses up at least one character.
-/

namespace Scenery.Selector.Escape

/-- The character that stands for a number which denotes none. -/
def replacement : Char := '\uFFFD'

def digitValue (c : Char) : Nat :=
  if isDigit c then c.toNat - '0'.toNat
  else if 'a' ≤ c ∧ c ≤ 'f' then c.toNat - 'a'.toNat + 10
  else if 'A' ≤ c ∧ c ≤ 'F' then c.toNat - 'A'.toNat + 10
  else 0

/-- The number written by hexadecimal digits, most significant first. -/
def hexValue (digits : List Char) : Nat :=
  digits.foldl (fun value c => 16 * value + digitValue c) 0

/-- The scalar value with this number; zero, surrogates and larger numbers have none. -/
def scalar (n : Nat) : Char :=
  if n = 0 then replacement
  else if n.isValidChar then Char.ofNat n
  else replacement

/-- The hexadecimal digits at the start of the text, six at most. -/
def hexDigits (cs : List Char) : List Char :=
  (cs.take 6).takeWhile isHexDigit

/-- One blank after a hexadecimal escape ends it and is dropped. -/
def dropBlank : List Char → List Char
  | [] => []
  | c :: rest => if isBlank c then rest else c :: rest

/--
Read what follows a backslash: the character it denotes and the text behind it.
At the end of the text the replacement character is read.
-/
def read : List Char → Char × List Char
  | [] => (replacement, [])
  | c :: rest =>
    if isHexDigit c then
      let digits := hexDigits (c :: rest)
      (scalar (hexValue digits), dropBlank ((c :: rest).drop digits.length))
    else
      (c, rest)

theorem dropBlank_length_le (cs : List Char) :
    (dropBlank cs).length ≤ cs.length := by
  cases cs with
  | nil => simp [dropBlank]
  | cons c rest =>
      simp only [dropBlank]
      split <;> simp

theorem hexDigits_cons_length_pos
    {c : Char} (rest : List Char) (hc : isHexDigit c = true) :
    0 < (hexDigits (c :: rest)).length := by
  simp [hexDigits, hc]

theorem read_cons_length_lt (c : Char) (rest : List Char) :
    (read (c :: rest)).2.length < (c :: rest).length := by
  simp only [read]
  split
  · rename_i hc
    have hpos := hexDigits_cons_length_pos rest hc
    have hle := dropBlank_length_le
      ((c :: rest).drop (hexDigits (c :: rest)).length)
    simp only [List.length_drop, List.length_cons] at hle ⊢
    omega
  · simp

theorem read_length_le (cs : List Char) :
    (read cs).2.length ≤ cs.length := by
  cases cs with
  | nil => simp [read]
  | cons c rest => exact Nat.le_of_lt (read_cons_length_lt c rest)

end Scenery.Selector.Escape
