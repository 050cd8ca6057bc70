import Scenery.Json.Numeral

/-!
# JSON lexemes

A JSON text falls into brackets, commas, colons, words, numbers and strings,
with blanks between them.  The first lexeme that is broken is the last one.
Main statement: each lexeme uses up at least one character.
-/

namespace Scenery.Json

open Decimal (isDigit)

/-- A lexeme of JSON text. -/
inductive Lexeme where
  | openObject
  | closeObject
  | openArray
  | closeArray
  | comma
  | colon
  | null
  | bool (flag : Bool)
  | number (n : Numeral)
  | string (content : String)
  /-- A string that is broken. -/
  | badString (fault : Fault)
  /-- A word or a number that is broken, or a character that starts no lexeme. -/
  | bad (fault : Fault)
  deriving Inhabited

namespace Lexeme

/-- Space, line feed, tabulation and carriage return stand between lexemes. -/
def isBlank (c : Char) : Bool :=
  c == ' ' || c == '\n' || c == '\t' || c == '\r'

def isHexDigit (c : Char) : Bool :=
  isDigit c || ('a' ≤ c && c ≤ 'f') || ('A' ≤ c && c ≤ 'F')

def hexDigitValue (c : Char) : Nat :=
  if isDigit c then c.toNat - '0'.toNat
  else if 'a' ≤ c then c.toNat - 'a'.toNat + 10
  else c.toNat - 'A'.toNat + 10

/--
The four hexadecimal digits of an escape.  A text with fewer than four bytes
left ends inside the string; otherwise four bytes that are no digits are wrong.
-/
def readHex : List Char → Except Fault (Nat × List Char)
  | a :: b :: c :: d :: rest =>
    if [a, b, c, d].all isHexDigit then
      .ok ([a, b, c, d].foldl (fun value digit => 16 * value + hexDigitValue digit) 0, rest)
    else
      .error .invalidEscape
  | cs =>
    if (String.ofList cs).utf8ByteSize < 4 then .error (.endOfText .string)
    else .error .invalidEscape

/-- The second half of a surrogate pair, which has to follow the first at once. -/
def readLowSurrogate : List Char → Except Fault (Nat × List Char)
  | [] => .error (.endOfText .string)
  | '\\' :: [] => .error (.endOfText .string)
  | '\\' :: 'u' :: rest => do
    let (low, left) ← readHex rest
    if 0xDC00 ≤ low ∧ low ≤ 0xDFFF then .ok (low, left) else .error .loneSurrogate
  | _ => .error .endOfHexEscape

/-- The character that an escape with hexadecimal digits denotes, alone or as a surrogate pair. -/
def readHexEscape (cs : List Char) : Except Fault (Char × List Char) := do
  let (high, left) ← readHex cs
  if 0xDC00 ≤ high ∧ high ≤ 0xDFFF then
    .error .loneSurrogate
  else if 0xD800 ≤ high ∧ high ≤ 0xDBFF then
    let (low, behind) ← readLowSurrogate left
    .ok (Char.ofNat (0x10000 + 0x400 * (high - 0xD800) + (low - 0xDC00)), behind)
  else
    .ok (Char.ofNat high, left)

/-- What stands behind a backslash. -/
def readEscape : List Char → Except Fault (Char × List Char)
  | [] => .error (.endOfText .string)
  | c :: rest =>
    match c with
    | '"' => .ok ('"', rest)
    | '\\' => .ok ('\\', rest)
    | '/' => .ok ('/', rest)
    | 'b' => .ok ('\x08', rest)
    | 'f' => .ok ('\x0c', rest)
    | 'n' => .ok ('\n', rest)
    | 'r' => .ok ('\r', rest)
    | 't' => .ok ('\t', rest)
    | 'u' => readHexEscape rest
    | _ => .error .invalidEscape

theorem readHex_length_lt
    {cs : List Char} {result : Nat × List Char} (h : readHex cs = .ok result) :
    result.2.length < cs.length := by
  fun_cases readHex cs with
  | case1 a b c d rest hdigits =>
      simp only [readHex, hdigits, if_true, Except.ok.injEq] at h
      simp only [← h, List.length_cons]
      omega
  | case2 a b c d rest hdigits => simp [readHex, hdigits] at h
  | case3 => simp_all [readHex]
  | case4 => simp_all [readHex]

theorem readLowSurrogate_length_lt
    {cs : List Char} {result : Nat × List Char} (h : readLowSurrogate cs = .ok result) :
    result.2.length < cs.length := by
  fun_cases readLowSurrogate cs with
  | case1 => simp [readLowSurrogate] at h
  | case2 => simp [readLowSurrogate] at h
  | case3 rest =>
      simp only [readLowSurrogate, bind, Except.bind] at h
      split at h
      · simp at h
      · rename_i hhex
        have hlt := readHex_length_lt hhex
        split at h
        · simp only [Except.ok.injEq] at h
          simp only [← h, List.length_cons]
          omega
        · simp at h
  | case4 => simp_all [readLowSurrogate]

theorem readHexEscape_length_lt
    {cs : List Char} {result : Char × List Char} (h : readHexEscape cs = .ok result) :
    result.2.length < cs.length := by
  simp only [readHexEscape, bind, Except.bind] at h
  split at h
  · simp at h
  · rename_i hhex
    have hlt := readHex_length_lt hhex
    split at h
    · simp at h
    · split at h
      · split at h
        · simp at h
        · rename_i hsecond
          have hsecondlt := readLowSurrogate_length_lt hsecond
          simp only [Except.ok.injEq] at h
          rw [← h]
          simp only
          omega
      · simp only [Except.ok.injEq] at h
        rw [← h]
        exact hlt

theorem readEscape_length_lt
    {cs : List Char} {result : Char × List Char} (h : readEscape cs = .ok result) :
    result.2.length < cs.length := by
  cases cs with
  | nil => simp [readEscape] at h
  | cons d rest =>
      simp only [readEscape] at h
      split at h
      all_goals first
        | (simp only [Except.ok.injEq] at h
           simp [← h])
        | (have hlt := readHexEscape_length_lt h
           simp only [List.length_cons]
           omega)
        | simp at h

/-- The content of a string behind its opening quote, and what stands behind its closing quote. -/
def readString (cs : List Char) : Except Fault (List Char × List Char) :=
  match cs with
  | [] => .error (.endOfText .string)
  | '"' :: rest => .ok ([], rest)
  | '\\' :: rest =>
    match _h : readEscape rest with
    | .error fault => .error fault
    | .ok (c, left) => (readString left).map fun (content, behind) => (c :: content, behind)
  | c :: rest =>
    if c < ' ' then .error .controlCharacter
    else (readString rest).map fun (content, behind) => (c :: content, behind)
  termination_by cs.length
  decreasing_by
    · have : left.length < rest.length := readEscape_length_lt _h
      simp only [List.length_cons]
      omega
    · simp

theorem readString_length_lt
    {cs : List Char} {result : List Char × List Char} (h : readString cs = .ok result) :
    result.2.length < cs.length := by
  fun_induction readString cs generalizing result with
  | case1 => simp at h
  | case2 rest =>
      simp only [Except.ok.injEq] at h
      simp [← h]
  | case3 => simp at h
  | case4 rest c behind hescape ih =>
      have hlt := readEscape_length_lt hescape
      cases hread : readString behind with
      | error fault => simp [hread, Except.map] at h
      | ok pair =>
          have hle := ih hread
          simp only [hread, Except.map, Except.ok.injEq] at h
          simp only [← h, List.length_cons] at hlt ⊢
          omega
  | case5 => simp at h
  | case6 c rest _ _ _ ih =>
      cases hread : readString rest with
      | error fault => simp [hread, Except.map] at h
      | ok pair =>
          have hle := ih hread
          simp only [hread, Except.map, Except.ok.injEq] at h
          simp only [← h, List.length_cons]
          omega

/-- Digits that have to be there: the end of the text and any other character are two faults. -/
def readDigits (cs : List Char) : Except Fault (List Char × List Char) :=
  if cs.takeWhile isDigit ≠ [] then .ok (cs.takeWhile isDigit, cs.dropWhile isDigit)
  else if cs.isEmpty then .error (.endOfText .value)
  else .error .invalidNumber

/-- The fraction of a number, if a point starts one. -/
def readFraction : List Char → Except Fault (Option (List Char) × List Char)
  | '.' :: rest => do
    let (digits, left) ← readDigits rest
    .ok (some digits, left)
  | cs => .ok (none, cs)

/-- The exponent of a number, if its letter starts one. -/
def readExponent : List Char → Except Fault (Option Int × List Char)
  | [] => .ok (none, [])
  | c :: rest =>
    if c = 'e' ∨ c = 'E' then do
      let (negative, unsigned) := Decimal.splitSign rest
      let (digits, left) ← readDigits unsigned
      let value : Int := Decimal.natOfDigits digits
      .ok (some (if negative then -value else value), left)
    else
      .ok (none, c :: rest)

/-- The whole part of a number: digits, of which a leading zero is the only one. -/
def readWhole (cs : List Char) : Except Fault (List Char × List Char) := do
  let (digits, left) ← readDigits cs
  match digits with
  | '0' :: _ :: _ => .error .invalidNumber
  | _ => .ok (digits, left)

/-- A number behind its sign. -/
def readUnsigned (negative : Bool) (cs : List Char) : Except Fault (Numeral × List Char) := do
  let (whole, afterWhole) ← readWhole cs
  let (fraction, afterFraction) ← readFraction afterWhole
  let (exponent, left) ← readExponent afterFraction
  let n ← Numeral.ofParts negative whole fraction exponent
  .ok (n, left)

/-- A word whose first letter was met: the letters that have to follow, and what is left. -/
def readWord : List Char → List Char → Except Fault (List Char)
  | [], cs => .ok cs
  | _ :: _, [] => .error (.endOfText .value)
  | letter :: letters, c :: rest =>
    if c = letter then readWord letters rest else .error .expectedIdent

theorem readDigits_length_lt
    {cs : List Char} {result : List Char × List Char} (h : readDigits cs = .ok result) :
    result.2.length < cs.length := by
  simp only [readDigits] at h
  split at h
  · rename_i hne
    simp only [Except.ok.injEq] at h
    have happend := congrArg List.length
      (List.takeWhile_append_dropWhile (p := isDigit) (l := cs))
    have hpos := List.length_pos_iff.mpr hne
    simp only [List.length_append] at happend
    rw [← h]
    simp only
    omega
  · split at h <;> simp at h

theorem readFraction_length_le
    {cs : List Char} {result : Option (List Char) × List Char}
    (h : readFraction cs = .ok result) :
    result.2.length ≤ cs.length := by
  fun_cases readFraction cs with
  | case1 rest =>
      simp only [readFraction, bind, Except.bind] at h
      split at h
      · simp at h
      · rename_i hdigits
        have := readDigits_length_lt hdigits
        simp only [Except.ok.injEq] at h
        simp only [← h, List.length_cons]
        omega
  | case2 =>
      simp only [readFraction, Except.ok.injEq] at h
      simp [← h]

theorem splitSign_length_le (cs : List Char) :
    (Decimal.splitSign cs).2.length ≤ cs.length := by
  fun_cases Decimal.splitSign cs <;> simp

theorem readExponent_length_le
    {cs : List Char} {result : Option Int × List Char}
    (h : readExponent cs = .ok result) :
    result.2.length ≤ cs.length := by
  cases cs with
  | nil =>
      simp only [readExponent, Except.ok.injEq] at h
      simp [← h]
  | cons c rest =>
      simp only [readExponent] at h
      split at h
      · simp only [bind, Except.bind] at h
        split at h
        · simp at h
        · rename_i hdigits
          have hlt := readDigits_length_lt hdigits
          have hle := splitSign_length_le rest
          simp only [Except.ok.injEq] at h
          simp only [← h, List.length_cons]
          omega
      · simp only [Except.ok.injEq] at h
        simp [← h]

theorem readWhole_length_lt
    {cs : List Char} {result : List Char × List Char} (h : readWhole cs = .ok result) :
    result.2.length < cs.length := by
  simp only [readWhole, bind, Except.bind] at h
  split at h
  · simp at h
  · rename_i hdigits
    have hlt := readDigits_length_lt hdigits
    split at h
    · simp at h
    · simp only [Except.ok.injEq] at h
      rw [← h]
      exact hlt

theorem readUnsigned_length_lt
    {negative : Bool} {cs : List Char} {result : Numeral × List Char}
    (h : readUnsigned negative cs = .ok result) :
    result.2.length < cs.length := by
  simp only [readUnsigned, bind, Except.bind] at h
  split at h
  · simp at h
  · rename_i hwhole
    have hlt := readWhole_length_lt hwhole
    split at h
    · simp at h
    · rename_i hfraction
      have hsecond := readFraction_length_le hfraction
      split at h
      · simp at h
      · rename_i hexponent
        have hthird := readExponent_length_le hexponent
        split at h
        · simp at h
        · simp only [Except.ok.injEq] at h
          rw [← h]
          simp only
          omega

theorem readWord_length_le
    {letters cs left : List Char} (h : readWord letters cs = .ok left) :
    left.length ≤ cs.length := by
  fun_induction readWord letters cs with
  | case1 => simp_all
  | case2 => simp at h
  | case3 letters rest letter ih =>
      have := ih h
      simp only [List.length_cons]
      omega
  | case4 => simp at h

/-- A lexeme with the text behind it, or a broken one with nothing behind it. -/
def orBad (broken : Fault → Lexeme) : Except Fault (Lexeme × List Char) → Lexeme × List Char
  | .ok result => result
  | .error fault => (broken fault, [])

/-- The lexeme that starts with the character `c`, and what is left behind it. -/
def read (c : Char) (rest : List Char) : Lexeme × List Char :=
  match c with
  | '\x7b' => (openObject, rest)
  | '\x7d' => (closeObject, rest)
  | '[' => (openArray, rest)
  | ']' => (closeArray, rest)
  | ',' => (comma, rest)
  | ':' => (colon, rest)
  | 'n' => orBad bad ((readWord ['u', 'l', 'l'] rest).map (null, ·))
  | 't' => orBad bad ((readWord ['r', 'u', 'e'] rest).map (bool true, ·))
  | 'f' => orBad bad ((readWord ['a', 'l', 's', 'e'] rest).map (bool false, ·))
  | '"' =>
    orBad badString
      ((readString rest).map fun (content, left) => (string (String.ofList content), left))
  | '-' => orBad bad ((readUnsigned true rest).map fun (n, left) => (number n, left))
  | _ =>
    if isDigit c then
      orBad bad ((readUnsigned false (c :: rest)).map fun (n, left) => (number n, left))
    else
      (bad .expectedValue, [])

theorem orBad_length_lt
    {broken : Fault → Lexeme} {result : Except Fault α} {f : α → Lexeme × List Char}
    {bound : Nat} (hpos : 0 < bound)
    (h : ∀ a, result = .ok a → (f a).2.length < bound) :
    (orBad broken (result.map f)).2.length < bound := by
  cases result with
  | error fault => simpa [orBad, Except.map] using hpos
  | ok a => exact h a rfl

theorem orBad_readWord_length_lt
    (lexeme : Lexeme) (letters rest : List Char) (c : Char) :
    (orBad bad ((readWord letters rest).map (lexeme, ·))).2.length <
      (c :: rest).length := by
  apply orBad_length_lt (by simp)
  intro left hword
  have := readWord_length_le hword
  simp only [List.length_cons]
  omega

theorem read_length_lt (c : Char) (rest : List Char) :
    (read c rest).2.length < (c :: rest).length := by
  have hpos : 0 < (c :: rest).length := by simp
  fun_cases read c rest with
  | case7 => exact orBad_readWord_length_lt ..
  | case8 => exact orBad_readWord_length_lt ..
  | case9 => exact orBad_readWord_length_lt ..
  | case10 =>
      apply orBad_length_lt hpos
      intro pair hstring
      have := readString_length_lt hstring
      simp only [List.length_cons]
      omega
  | case11 =>
      apply orBad_length_lt hpos
      intro pair hnumber
      have := readUnsigned_length_lt hnumber
      simp only [List.length_cons]
      omega
  | case12 =>
      rw [if_pos (by assumption)]
      apply orBad_length_lt hpos
      intro pair hnumber
      exact readUnsigned_length_lt hnumber
  | case13 =>
      rw [if_neg (by assumption)]
      exact hpos
  | _ => simp

def scan (cs : List Char) : List Lexeme :=
  match cs with
  | [] => []
  | c :: rest =>
    if isBlank c then scan rest
    else (read c rest).1 :: scan (read c rest).2
  termination_by cs.length
  decreasing_by
    · simp
    · exact read_length_lt c rest

end Lexeme

end Scenery.Json
