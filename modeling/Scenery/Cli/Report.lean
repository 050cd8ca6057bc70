import Scenery.Cli.Arguments
import Scenery.Cli.Style
import Scenery.Json.Encode
import Scenery.Json.Writing
import Scenery.Notice

/-!
# What the command line prints

Found nodes, compiled selectors, log lines and failures as text.  Every printed
text ends with a line break.
-/

namespace Scenery.Cli

open Selector (Compound)

/-- A node on one line: tag, identifier, and the attributes in the order of their names. -/
def describe (node : Node) : String :=
  Style.bold.paint (Style.cyan.paint node.tag) ++ " #" ++ Style.green.paint node.id ++
    String.join (node.attributes.entries.map fun (name, value) =>
      " " ++ Style.dimmed.paint name ++ "=" ++ value.display)

/-- The found nodes in a format. -/
def listing (format : Format) (nodes : List Node) : String :=
  match format with
  | .text => String.join (nodes.map fun node => describe node ++ "\n")
  | .json => (Json.array (nodes.map Node.toJson)).pretty ++ "\n"

/-- Where the compound with this number looks; the first one looks below the start. -/
def combinator (index : Nat) (compound : Compound) : String :=
  if index = 0 then "start"
  else if compound.childOnly then "child"
  else "descendant"

/-- A compiled selector: its text, a line for every compound, and all of it as JSON. -/
def explanation (compounds : List Compound) : String :=
  Style.bold.paint "selector:" ++ " " ++ Selector.textOf compounds ++ "\n" ++
    String.join (compounds.zipIdx.map fun (compound, index) =>
      "  " ++ toString index ++ ": " ++ compound.text ++ " " ++
        Style.dimmed.paint ("(" ++ combinator index compound ++ ")") ++ "\n") ++
    (Json.array (compounds.map Compound.toJson)).pretty ++ "\n"

def levelLabel (level : Level) : String :=
  match level with
  | .warn => Style.bold.paint (Style.yellow.paint level.name)
  | .info => Style.green.paint level.name
  | .debug => Style.blue.paint level.name
  | .trace => Style.dimmed.paint level.name

/-- A record as a line of the log. -/
def logLine (entry : Record) : String :=
  "[" ++ levelLabel entry.level ++ "][" ++ Style.dimmed.paint entry.target ++ "] " ++
    entry.message ++ "\n"

/-- The log of notices from a start without known warnings, down to a level. -/
def logText (level : Level) (notices : List Notice) : String :=
  let records := (Registry.empty.replay notices).2
  String.join ((records.filter (·.level.rank ≤ level.rank)).map logLine)

/-- A failure: what could not be done, and its causes from the nearest to the first. -/
structure Failure where
  context : String
  causes : List String := []
  deriving DecidableEq, Repr, Inhabited

namespace Failure

/-- A text whose later lines are put below its first. -/
def hanging (width : Nat) (text : String) : String :=
  ("\n".pushn ' ' width).intercalate (text.splitOn "\n")

/-- A cause with its number, right-aligned. -/
def numbered (cause : String) (index : Nat) : String :=
  let digits := toString index
  "".pushn ' ' (5 - digits.length) ++ digits ++ ": " ++ hanging 7 cause ++ "\n"

/-- The causes below their context; a single cause has no number. -/
def causesText : List String → String
  | [] => ""
  | [cause] => "\n\nCaused by:\n    " ++ hanging 4 cause ++ "\n"
  | causes =>
    "\n\nCaused by:\n" ++ String.join (causes.zipIdx.map fun (cause, index) => numbered cause index)

def report (failure : Failure) : String :=
  "Error: " ++ failure.context ++
    if failure.causes.isEmpty then "\n" else causesText failure.causes

end Failure

def usage : String :=
  "Usage: scenery [OPTIONS] [SCENE] SELECTOR\n"

def help : String :=
  "Find the nodes of a scene that a selector asks for\n\n" ++ usage ++
    "\nArguments:\n" ++
    "  [SCENE]            path of a scene file in JSON\n" ++
    "  SELECTOR           selector of the nodes to be found\n" ++
    "\nOptions:\n" ++
    "  --inline JSON      the scene itself, instead of a file\n" ++
    "  --format FORMAT    how nodes are printed: text (if not given) or json\n" ++
    "  --explain          show the compiled selector first\n" ++
    "  -v, --verbose      log more; up to three times\n" ++
    "  -h, --help         show this description\n" ++
    "  -V, --version      show the version\n"

def version : String :=
  "scenery 0.1.0\n"

end Scenery.Cli
