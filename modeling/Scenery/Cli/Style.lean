/-!
# Terminal styles

A style is turned on by a control sequence in front of a text and turned off by
one behind it, so that painted texts can be put side by side and into each other.
-/

namespace Scenery.Cli

/-- How a text stands out on a terminal. -/
inductive Style where
  | bold
  | dimmed
  | blue
  | cyan
  | green
  | yellow
  deriving DecidableEq, Repr, Inhabited

namespace Style

/-- The parameter that turns a style on. -/
def on : Style → String
  | bold => "1"
  | dimmed => "2"
  | blue => "34"
  | cyan => "36"
  | green => "32"
  | yellow => "33"

/-- The parameter that turns it off: colours go back to the default colour, weights to plain. -/
def off : Style → String
  | bold => "0"
  | dimmed => "0"
  | blue => "39"
  | cyan => "39"
  | green => "39"
  | yellow => "39"

/-- The control sequence of a parameter. -/
def sequence (parameter : String) : String :=
  "\x1b[" ++ parameter ++ "m"

def paint (style : Style) (text : String) : String :=
  sequence style.on ++ text ++ sequence style.off

end Style

end Scenery.Cli
