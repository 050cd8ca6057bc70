import Scenery.Text.Quoted

/-!
# Tokens

Selector text falls into tokens.  Names, hashes, literals and functions carry
their decoded text, numbers the characters they are written with.  `Token.text`
writes a token back: a run of blanks becomes one space, and a literal is quoted
again with double quotes.
-/

namespace Scenery.Selector

/-- A token of selector text. -/
inductive Token where
  /-- One or more blanks. -/
  | whitespace
  /-- A single character that belongs to no other token. -/
  | delim (c : Char)
  | ident (name : String)
  /-- A name behind `#`. -/
  | hash (name : String)
  /-- A quoted literal, without its quotes. -/
  | string (text : String)
  /-- A literal that a line feed breaks off. -/
  | badString
  /-- A numeral with the name or percent sign behind it. -/
  | number (numeral : String)
  /-- A name directly before an opening parenthesis. -/
  | function (name : String)
  | eof
  deriving DecidableEq, Repr, Inhabited

namespace Token

def text : Token → String
  | whitespace => " "
  | delim c => String.singleton c
  | ident name => name
  | hash name => "#" ++ name
  | string text => Text.quoted text
  | badString => "\"\n"
  | number numeral => numeral
  | function name => name ++ "("
  | eof => ""

/-- The text of a token list, one token after the other. -/
def textOf (tokens : List Token) : String :=
  String.join (tokens.map text)

end Token

end Scenery.Selector
