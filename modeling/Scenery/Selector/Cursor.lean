import Scenery.Selector.Scan

/-!
# Scanning by position

The scanner as a cursor that goes over an indexed text, looks a few characters
ahead and goes back over a character that begins a longer token.  What cannot be
done at every position is a fault here: a step back from the start, a part of the
text that is not there, digits that are no number, an escape at the end, and a
token that takes nothing from the text.  Main definition: `run`, which calls
`token` until the end of the text is reached.
-/

namespace Scenery.Selector.Cursor

/-- Why a reading does not go on. -/
inductive Fault where
  /-- A step back from the start of the text. -/
  | beforeStart
  /-- A part of the text that ends before it begins, or behind the text. -/
  | outOfRange
  /-- Digits that are no number of 32 bits. -/
  | noNumber
  /-- A backslash that was taken for an escape at the end of the text. -/
  | nothingEscaped
  /-- A token that leaves the cursor where it was, or puts it behind the text. -/
  | stalled
  deriving DecidableEq, Repr, Inhabited

/-- What was read, and the position of the cursor behind it. -/
abbrev Reading (α : Type) := Except Fault (α × Nat)

section

variable (text : Array Char)

/-! ## Looking ahead -/

/-- Whether two characters begin an escape. -/
def opensEscape (first second : Option Char) : Bool :=
  first == some '\\' && second.any (· != '\n')

def startsNameAt (position : Nat) : Bool :=
  match text[position]? with
  | none => false
  | some c =>
    if c = '-' then
      text[position + 1]?.any (fun d => isNameStart d || d == '-') ||
        opensEscape text[position + 1]? text[position + 2]?
    else if c = '\\' then
      opensEscape (some c) text[position + 1]?
    else
      isNameStart c

def startsNumberAt (position : Nat) : Bool :=
  match text[position]? with
  | none => false
  | some c =>
    if c = '+' ∨ c = '-' then
      text[position + 1]?.any isDigit ||
        (text[position + 1]? == some '.' && text[position + 2]?.any isDigit)
    else if c = '.' then
      text[position + 1]?.any isDigit
    else
      isDigit c

/-- The step back that a look at the character just taken needs. -/
def previous (position : Nat) : Except Fault Nat :=
  if position = 0 then .error .beforeStart else .ok (position - 1)

/-- The position before the character just taken; at the start the cursor stays. -/
def reconsume (position : Nat) : Nat :=
  position - 1

/-! ## Going over characters -/

/-- The first position from here on whose character is not of a class. -/
def skipWhile (inClass : Char → Bool) (position : Nat) : Nat :=
  if h : position < text.size then
    if inClass text[position] then skipWhile inClass (position + 1) else position
  else
    position
  termination_by text.size - position

/-- The position behind the end of a comment; an open comment takes all. -/
def commentEnd (position : Nat) : Nat :=
  if h : position < text.size then
    if text[position] = '*' ∧ text[position + 1]? = some '/' then position + 2
    else commentEnd (position + 1)
  else
    position
  termination_by text.size - position

theorem le_commentEnd (position : Nat) : position ≤ commentEnd text position := by
  fun_induction commentEnd text position with
  | case1 => omega
  | case2 _ _ _ ih => omega
  | case3 => exact Nat.le_refl _

def skipComments (position : Nat) : Nat :=
  if h : text[position]? = some '/' ∧ text[position + 1]? = some '*' then
    skipComments (commentEnd text (position + 2))
  else
    position
  termination_by text.size - position
  decreasing_by
    obtain ⟨hlt, -⟩ := Array.getElem?_eq_some_iff.mp h.1
    have := le_commentEnd text (position + 2)
    omega

/-! ## Escapes and names -/

/-- So many hexadecimal digits at most, and the position behind them. -/
def hexDigits : Nat → Nat → List Char × Nat
  | 0, position => ([], position)
  | count + 1, position =>
    match text[position]? with
    | none => ([], position)
    | some c =>
      if isHexDigit c then
        let (digits, behind) := hexDigits count (position + 1)
        (c :: digits, behind)
      else
        ([], position)

/-- The number of 32 bits that hexadecimal digits denote, perhaps behind a plus sign. -/
def hexNumber? (digits : List Char) : Option Nat :=
  let unsigned := match digits with
    | '+' :: rest => rest
    | _ => digits
  if unsigned ≠ [] ∧ unsigned.all isHexDigit ∧ Escape.hexValue unsigned < UInt32.size then
    some (Escape.hexValue unsigned)
  else
    none

/-- What an escape behind its backslash denotes. -/
def escape (position : Nat) : Reading Char :=
  match text[position]? with
  | none => .error .nothingEscaped
  | some c =>
    if isHexDigit c then
      let (digits, behind) := hexDigits text 5 (position + 1)
      let next := if text[behind]?.any isBlank then behind + 1 else behind
      match hexNumber? (c :: digits) with
      | none => .error .noNumber
      | some number => .ok (Escape.scalar number, next)
    else
      .ok (c, position + 1)

theorem le_hexDigits (count position : Nat) : position ≤ (hexDigits text count position).2 := by
  fun_induction hexDigits text count position with
  | case1 => exact Nat.le_refl _
  | case2 => exact Nat.le_refl _
  | case3 count position c _ _ digits behind hread ih =>
      rw [hread] at ih
      exact Nat.le_of_succ_le ih
  | case4 => exact Nat.le_refl _

/-- An escape takes at least one character. -/
theorem lt_of_escape_eq_ok {position next : Nat} {c : Char}
    (h : escape text position = .ok (c, next)) : position < next := by
  have hdigits := le_hexDigits text 5 (position + 1)
  unfold escape at h
  split at h
  · cases h
  · split at h
    · simp only at h
      split at h
      · cases h
      · cases h
        split <;> omega
    · cases h
      exact Nat.lt_succ_self _

/-- The name that begins here, as far as it goes. -/
def name (position : Nat) : Reading (List Char) :=
  match _hc : text[position]? with
  | none => .ok ([], position)
  | some c =>
    if isNameChar c then
      (name (position + 1)).map fun (rest, behind) => (c :: rest, behind)
    else if opensEscape (some c) text[position + 1]? then
      match _he : escape text (position + 1) with
      | .error fault => .error fault
      | .ok (d, next) => (name next).map fun (rest, behind) => (d :: rest, behind)
    else
      .ok ([], position)
  termination_by text.size - position
  decreasing_by
    all_goals obtain ⟨hlt, -⟩ := Array.getElem?_eq_some_iff.mp _hc
    · omega
    · have := lt_of_escape_eq_ok text _he
      omega

/-! ## Tokens -/

/-- A literal behind its opening quote, or nothing if a line feed breaks it off. -/
def literal (quote : Char) (position : Nat) : Reading (Option (List Char)) :=
  match _hc : text[position]? with
  | none => .ok (some [], position)
  | some c =>
    if c = quote then
      .ok (some [], position + 1)
    else if c = '\n' then
      .ok (none, reconsume (position + 1))
    else if c = '\\' then
      match text[position + 1]? with
      | none => literal quote (position + 1)
      | some d =>
        if d = '\n' then
          literal quote (position + 2)
        else
          match _he : escape text (position + 1) with
          | .error fault => .error fault
          | .ok (e, next) =>
            (literal quote next).map fun (content, behind) => (content.map (e :: ·), behind)
    else
      (literal quote (position + 1)).map fun (content, behind) => (content.map (c :: ·), behind)
  termination_by text.size - position
  decreasing_by
    all_goals obtain ⟨hlt, -⟩ := Array.getElem?_eq_some_iff.mp _hc
    · omega
    · omega
    · have := lt_of_escape_eq_ok text _he
      omega
    · omega

def string (quote : Char) (position : Nat) : Reading Token :=
  (literal text quote position).map fun
    | (some content, behind) => (.string (String.ofList content), behind)
    | (none, behind) => (.badString, behind)

def named (position : Nat) : Reading Token :=
  (name text position).map fun (name, behind) =>
    if text[behind]? = some '(' then (.function (String.ofList name), behind + 1)
    else (.ident (String.ofList name), behind)

/-- The position behind the sign, digits, fraction and exponent that begin here. -/
def numeralEnd (position : Nat) : Nat :=
  let whole := if text[position]?.any (fun c => c = '+' ∨ c = '-') then position + 1 else position
  let point := skipWhile text isDigit whole
  let exponent :=
    if text[point]? = some '.' ∧ text[point + 1]?.any isDigit then
      skipWhile text isDigit (point + 1)
    else
      point
  if text[exponent]?.any (fun c => c = 'e' ∨ c = 'E') then
    let sign := if text[exponent + 1]?.any (fun c => c = '+' ∨ c = '-') then 1 else 0
    if text[exponent + (1 + sign)]?.any isDigit then
      skipWhile text isDigit (exponent + (1 + sign))
    else
      exponent
  else
    exponent

/-- The part of the text between two positions. -/
def slice (start stop : Nat) : Except Fault (List Char) :=
  if start ≤ stop ∧ stop ≤ text.size then .ok (text.extract start stop).toList
  else .error .outOfRange

def number (start : Nat) : Reading Token :=
  let behind := numeralEnd text start
  match slice text start behind with
  | .error fault => .error fault
  | .ok numeral =>
    if startsNameAt text behind then
      (name text behind).map fun (unit, last) => (.number (String.ofList (numeral ++ unit)), last)
    else if text[behind]? = some '%' then
      .ok (.number (String.ofList (numeral ++ ['%'])), behind + 1)
    else
      .ok (.number (String.ofList numeral), behind)

/-- The token that begins with the character just taken, which is before the position. -/
def tokenOf (c : Char) (next : Nat) : Reading Token :=
  if isBlank c then
    .ok (.whitespace, skipWhile text isBlank next)
  else if c = '"' ∨ c = '\'' then
    string text c next
  else if c = '#' ∧ (text[next]?.any isNameChar ∨ opensEscape text[next]? text[next + 1]?) then
    (name text next).map fun (name, behind) => (.hash (String.ofList name), behind)
  else if c = '+' ∨ c = '.' ∨ c = '-' then
    match previous next with
    | .error fault => .error fault
    | .ok position =>
      if startsNumberAt text position then number text (reconsume next)
      else if c = '-' ∧ startsNameAt text position then named text (reconsume next)
      else .ok (.delim c, next)
  else if opensEscape (some c) text[next]? then
    named text (reconsume next)
  else if isDigit c then
    number text (reconsume next)
  else if isNameStart c then
    named text (reconsume next)
  else
    .ok (.delim c, next)

/-- The next token; `eof` at the end of the text. -/
def token (position : Nat) : Reading Token :=
  let start := skipComments text position
  match text[start]? with
  | none => .ok (.eof, start)
  | some c => tokenOf text c (start + 1)

/-- The tokens from a position on, up to the first `eof`. -/
def run (position : Nat) : Reading (List Token) :=
  match token text position with
  | .error fault => .error fault
  | .ok (token, next) =>
    if token = .eof then
      .ok ([token], next)
    else if _h : position < next ∧ next ≤ text.size then
      (run next).map fun (tokens, last) => (token :: tokens, last)
    else
      .error .stalled
  termination_by text.size - position

end

end Scenery.Selector.Cursor
