/-!
# Character classes of selector text

Selector text is read as a list of Unicode scalar values.  A name is made of
name characters, of which only some may stand first; a backslash escapes any
character but a line feed.  Every class here is decided by the character alone,
and every non-ASCII character is a name character.
-/

namespace Scenery.Selector

/-- Line feed, tabulation, space, carriage return and form feed separate tokens. -/
def isBlank (c : Char) : Bool :=
  c == '\n' || c == '\t' || c == ' ' || c == '\r' || c == '\x0c'

def isDigit (c : Char) : Bool :=
  '0' ≤ c && c ≤ '9'

def isHexDigit (c : Char) : Bool :=
  isDigit c || ('a' ≤ c && c ≤ 'f') || ('A' ≤ c && c ≤ 'F')

/-- Letters, the low line and all non-ASCII characters may start a name. -/
def isNameStart (c : Char) : Bool :=
  ('a' ≤ c && c ≤ 'z') || ('A' ≤ c && c ≤ 'Z') || c == '_' || '\x80' ≤ c

/-- Inside a name digits and the hyphen are allowed too. -/
def isNameChar (c : Char) : Bool :=
  isNameStart c || isDigit c || c == '-'

/-- Whether the text starts with a backslash that escapes the character after it. -/
def startsEscape : List Char → Bool
  | '\\' :: c :: _ => c != '\n'
  | _ => false

/--
Whether the text would start a name: a name-start character, an escape, or a
hyphen before another hyphen, a name-start character or an escape.
-/
def startsName : List Char → Bool
  | [] => false
  | c :: rest =>
    if c = '-' then
      match rest with
      | [] => false
      | d :: _ => isNameStart d || d == '-' || startsEscape rest
    else
      isNameStart c || startsEscape (c :: rest)

/-- Whether the text after a `#` makes it a hash: a name character or an escape. -/
def startsHash : List Char → Bool
  | [] => false
  | c :: rest => isNameChar c || startsEscape (c :: rest)

/-- A number has a digit first, or a digit after its point. -/
def startsUnsigned : List Char → Bool
  | '.' :: d :: _ => isDigit d
  | c :: _ => isDigit c
  | [] => false

/-- Whether the text would start a number, with or without a sign. -/
def startsNumber : List Char → Bool
  | '+' :: rest => startsUnsigned rest
  | '-' :: rest => startsUnsigned rest
  | cs => startsUnsigned cs

/-- The first character of a name is a name character, if it does not begin an escape. -/
theorem exists_of_startsName {cs : List Char} (h : startsName cs = true) :
    ∃ c rest, cs = c :: rest ∧ (isNameChar c = true ∨ startsEscape (c :: rest) = true) := by
  cases cs with
  | nil => cases h
  | cons c rest =>
      refine ⟨c, rest, rfl, ?_⟩
      by_cases hc : c = '-'
      · left
        rw [hc]
        decide
      · simp only [startsName, hc, if_false, Bool.or_eq_true] at h
        exact h.imp_left fun hstart => by simp [isNameChar, hstart]

end Scenery.Selector
