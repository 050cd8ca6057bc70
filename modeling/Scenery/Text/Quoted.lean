import Scenery.Text.Unprintable
import Scenery.Text.GraphemeExtend

/-!
# Quoted text

Text between double quotes, in which the quote and the backslash are escaped,
the common control characters have short forms, and every other character that
would not show on its own is written by its number in hexadecimal digits.
-/

namespace Scenery.Text

/-- The halfwidth voicing marks extend the character before them and still stand on their own. -/
def isHalfwidthMark (c : Char) : Bool :=
  c == '\uff9e' || c == '\uff9f'

/-- Whether a character can be shown as itself: it is printable and does not join the one before. -/
def isShown (c : Char) : Bool :=
  !isUnprintable c && (!isGraphemeExtend c || isHalfwidthMark c)

/-- A character by its number, in lower-case hexadecimal digits without padding. -/
def numericEscape (c : Char) : List Char :=
  '\\' :: 'u' :: '\x7b' :: Nat.toDigits 16 c.toNat ++ ['\x7d']

/-- How one character is written between double quotes. -/
def quoteChar (c : Char) : List Char :=
  if c = '"' then ['\\', '"']
  else if c = '\\' then ['\\', '\\']
  else if c = '\n' then ['\\', 'n']
  else if c = '\r' then ['\\', 'r']
  else if c = '\t' then ['\\', 't']
  else if c = '\x00' then ['\\', '0']
  else if isShown c then [c]
  else numericEscape c

/-- The text between double quotes, escaped where needed. -/
def quoted (text : String) : String :=
  String.ofList ('"' :: text.toList.flatMap quoteChar ++ ['"'])

@[simp] theorem toList_quoted (text : String) :
    (quoted text).toList = '"' :: text.toList.flatMap quoteChar ++ ['"'] := by
  simp [quoted]

/-- A character that is shown and is neither quote nor backslash stands for itself. -/
theorem quoteChar_of_isShown
    {c : Char} (hquote : c ≠ '"') (hslash : c ≠ '\\')
    (hline : c ≠ '\n') (hreturn : c ≠ '\r') (htab : c ≠ '\t')
    (hnul : c ≠ '\x00') (hshown : isShown c = true) :
    quoteChar c = [c] := by
  simp [quoteChar, hquote, hslash, hline, hreturn, htab, hnul, hshown]

end Scenery.Text
