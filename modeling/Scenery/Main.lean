import Scenery.Cli.Outcome

/-!
# The program

Reads the scene file, if the command line names one, and prints the outcome.
-/

namespace Scenery.Cli

/-- How the system words the errors of reading a file; other errors keep the given words. -/
def systemWording (number : UInt32) (details : String) : String :=
  match number with
  | 2 => "No such file or directory"
  | 5 => "Input/output error"
  | 13 => "Permission denied"
  | 20 => "Not a directory"
  | 21 => "Is a directory"
  | 36 => "File name too long"
  | 40 => "Too many levels of symbolic links"
  | _ => details

/-- The text of a system's error with its number, which may come negated. -/
def systemReason (code : UInt32) (details : String) : String :=
  let number := if code < 0x80000000 then code else 0 - code
  systemWording number details ++ " (os error " ++ toString number ++ ")"

def reason (error : IO.Error) : String :=
  match error with
  | .noFileOrDirectory _ code details
  | .inappropriateType _ code details
  | .permissionDenied _ code details
  | .noSuchThing _ code details
  | .invalidArgument _ code details
  | .resourceExhausted _ code details
  | .otherError code details => systemReason code details
  | other => toString other

def readContent (path : String) : IO Scene.Content := do
  try
    return .ok (← IO.FS.readBinFile path)
  catch error =>
    return .error (reason error)

/-- The outcome of a query whose scene file still has to be read. -/
def runQuery (query : Query) : IO Outcome := do
  match query.path? with
  | none => return query.outcome (.ok ByteArray.empty)
  | some path => return query.outcome (← readContent path)

/-- The outcome of a command line. -/
def runLine (line : List String) : IO Outcome :=
  match Query.ofArguments line with
  | .error stop => return stop.outcome
  | .ok query => runQuery query

end Scenery.Cli

/-- Print the outcome of the command line and end with its code. -/
def main (line : List String) : IO UInt32 := do
  let outcome ← Scenery.Cli.runLine line
  (← IO.getStdout).putStr outcome.output
  (← IO.getStderr).putStr outcome.errors
  return outcome.code.toUInt32
