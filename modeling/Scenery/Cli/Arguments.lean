/-!
# Command line arguments

A command line holds options, a selector, and the path of a scene file unless the
scene is given inline.  Options may stand anywhere; behind `--` there are none.
The path comes first, but a single argument is the selector: an argument that
ends the line, or stands before an option, is read as the selector and not as
the path.
-/

namespace Scenery.Cli

/-- How the found nodes are printed. -/
inductive Format where
  /-- One line for every node. -/
  | text
  /-- An array of nodes. -/
  | json
  deriving DecidableEq, Repr, Inhabited

def Format.parse? (name : String) : Option Format :=
  if name = "text" then some text
  else if name = "json" then some json
  else none

inductive Source where
  | file (path : String)
  | inline (text : String)
  /-- Neither a file nor an inline scene is named. -/
  | missing
  deriving DecidableEq, Repr, Inhabited

/-- What a command line asks for. -/
structure Query where
  source : Source
  selector : String
  format : Format := .text
  /-- Whether the compiled selector is shown first. -/
  explain : Bool := false
  /-- How often more notices were asked for. -/
  verbosity : Nat := 0
  deriving DecidableEq, Repr, Inhabited

/-- Why a command line cannot be followed. -/
inductive UsageError where
  | unknownOption (option : String)
  | missingValue (option : String)
  | unexpectedValue (option : String)
  | repeated (option : String)
  | unknownFormat (name : String)
  | emptyPath
  | unexpectedArgument (text : String)
  | missingSelector
  /-- Both a scene file and an inline scene are named. -/
  | twoScenes
  deriving DecidableEq, Repr, Inhabited

namespace UsageError

def message : UsageError → String
  | unknownOption option => "unknown option '" ++ option ++ "'"
  | missingValue option => "option '" ++ option ++ "' needs a value"
  | unexpectedValue option => "option '" ++ option ++ "' takes no value"
  | repeated option => "option '" ++ option ++ "' is given twice"
  | unknownFormat name => "unknown format '" ++ name ++ "'"
  | emptyPath => "the path of the scene file is empty"
  | unexpectedArgument text => "unexpected argument '" ++ text ++ "'"
  | missingSelector => "a selector is required"
  | twoScenes => "a scene file and an inline scene exclude each other"

end UsageError

/-- Why a command line leads to no query. -/
inductive Stop where
  | usage (error : UsageError)
  | help
  | version
  deriving DecidableEq, Repr, Inhabited

/-- What one argument is by its form. -/
inductive Argument where
  /-- Two hyphens alone. -/
  | escape
  /-- Two hyphens and a name, and what stands behind the first equals sign. -/
  | long (name : String) (value : Option String)
  /-- One hyphen and letters. -/
  | short (letters : List Char)
  /-- Everything else, a single hyphen too. -/
  | plain
  deriving DecidableEq, Repr, Inhabited

namespace Argument

def ofText (text : String) : Argument :=
  match text.toList with
  | ['-', '-'] => escape
  | '-' :: '-' :: rest =>
    let name := rest.takeWhile (· != '=')
    match rest.drop name.length with
    | [] => long (String.ofList name) none
    | _ :: value => long (String.ofList name) (some (String.ofList value))
  | '-' :: letter :: rest => short (letter :: rest)
  | _ => plain

def isOption : Argument → Bool
  | long _ _ => true
  | short _ => true
  | escape => false
  | plain => false

end Argument

/-- An option that takes no value. -/
inductive Switch where
  | explain
  | verbose
  | help
  | version
  deriving DecidableEq, Repr, Inhabited

/-- An option that takes a value. -/
inductive Setting where
  | inline
  | format
  deriving DecidableEq, Repr, Inhabited

def longOption? (name : String) : Option (Switch ⊕ Setting) :=
  if name = "explain" then some (.inl .explain)
  else if name = "verbose" then some (.inl .verbose)
  else if name = "help" then some (.inl .help)
  else if name = "version" then some (.inl .version)
  else if name = "inline" then some (.inr .inline)
  else if name = "format" then some (.inr .format)
  else none

def shortOption? (letter : Char) : Option Switch :=
  if letter = 'v' then some .verbose
  else if letter = 'h' then some .help
  else if letter = 'V' then some .version
  else none

/-- What was read so far. -/
structure Arguments where
  scene : Option String := none
  selector : Option String := none
  inline : Option String := none
  format : Option Format := none
  explain : Bool := false
  verbosity : Nat := 0
  deriving DecidableEq, Repr, Inhabited

namespace Arguments

/-- Follow a switch.  Only `verbose` may be given more than once. -/
def turnOn (arguments : Arguments) : Switch → Except Stop Arguments
  | .explain =>
    if arguments.explain then .error (.usage (.repeated "--explain"))
    else .ok { arguments with explain := true }
  | .verbose => .ok { arguments with verbosity := arguments.verbosity + 1 }
  | .help => .error .help
  | .version => .error .version

/-- Follow a setting; each may be given once. -/
def set (arguments : Arguments) (value : String) : Setting → Except Stop Arguments
  | .inline =>
    if arguments.inline.isSome then .error (.usage (.repeated "--inline"))
    else .ok { arguments with inline := some value }
  | .format =>
    if arguments.format.isSome then .error (.usage (.repeated "--format"))
    else
      match Format.parse? value with
      | none => .error (.usage (.unknownFormat value))
      | some format => .ok { arguments with format := some format }

def turnOnLetters (arguments : Arguments) : List Char → Except Stop Arguments
  | [] => .ok arguments
  | letter :: rest =>
    match shortOption? letter with
    | none => .error (.usage (.unknownOption ("-" ++ String.singleton letter)))
    | some switch =>
      match arguments.turnOn switch with
      | .error stop => .error stop
      | .ok next => next.turnOnLetters rest

def addSelector (arguments : Arguments) (text : String) : Except Stop Arguments :=
  if arguments.selector.isSome then .error (.usage (.unexpectedArgument text))
  else .ok { arguments with selector := some text }

def addScene (arguments : Arguments) (text : String) : Except Stop Arguments :=
  if text = "" then .error (.usage .emptyPath)
  else .ok { arguments with scene := some text }

/--
Take an argument that is no option.  It is the path of the scene if none was read
and something that is no option comes next.
-/
def addPlain (arguments : Arguments) (text : String) (next : Option String) :
    Except Stop Arguments :=
  let opensPair := next.any fun other => !(Argument.ofText other).isOption
  if arguments.selector.isNone && arguments.scene.isNone && opensPair then
    arguments.addScene text
  else
    arguments.addSelector text

/-- Read what stands behind `--`: a selector, whatever it looks like. -/
def readEscaped (arguments : Arguments) : List String → Except Stop Arguments
  | [] => .ok arguments
  | text :: rest =>
    match arguments.addSelector text with
    | .error stop => .error stop
    | .ok next => next.readEscaped rest

def read (arguments : Arguments) : List String → Except Stop Arguments
  | [] => .ok arguments
  | text :: rest =>
    match Argument.ofText text with
    | .escape => arguments.readEscaped rest
    | .plain =>
      match arguments.addPlain text rest.head? with
      | .error stop => .error stop
      | .ok next => next.read rest
    | .short letters =>
      match arguments.turnOnLetters letters with
      | .error stop => .error stop
      | .ok next => next.read rest
    | .long name value =>
      match longOption? name, value with
      | none, _ => .error (.usage (.unknownOption ("--" ++ name)))
      | some (.inl _), some _ => .error (.usage (.unexpectedValue ("--" ++ name)))
      | some (.inl switch), none =>
        match arguments.turnOn switch with
        | .error stop => .error stop
        | .ok next => next.read rest
      | some (.inr setting), some value =>
        match arguments.set value setting with
        | .error stop => .error stop
        | .ok next => next.read rest
      | some (.inr setting), none =>
        match rest with
        | [] => .error (.usage (.missingValue ("--" ++ name)))
        | value :: others =>
          if Argument.ofText value = .plain then
            match arguments.set value setting with
            | .error stop => .error stop
            | .ok next => next.read others
          else
            .error (.usage (.missingValue ("--" ++ name)))

/-- Where the scene comes from; a line that names two scenes is refused. -/
def source (arguments : Arguments) : Except UsageError Source :=
  match arguments.scene, arguments.inline with
  | none, none => .ok .missing
  | none, some text => .ok (.inline text)
  | some path, none => .ok (.file path)
  | some _, some _ => .error .twoScenes

def query (arguments : Arguments) : Except UsageError Query :=
  match arguments.selector, arguments.source with
  | none, _ => .error .missingSelector
  | some _, .error error => .error error
  | some selector, .ok source =>
    .ok
      { source, selector
        format := arguments.format.getD .text
        explain := arguments.explain
        verbosity := arguments.verbosity }

end Arguments

def Query.ofArguments (line : List String) : Except Stop Query :=
  match Arguments.read {} line with
  | .error stop => .error stop
  | .ok arguments =>
    match arguments.query with
    | .error error => .error (.usage error)
    | .ok query => .ok query

end Scenery.Cli
