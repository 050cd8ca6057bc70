import Scenery.Cli.Report
import Scenery.Matching
import Scenery.Scene.Load

/-!
# Outcomes of command lines

What a command line prints and how it ends, as a function of the line and of what
the scene file holds.  Warnings are shown once while the scene is loaded, and
once again while the selector is followed.
-/

namespace Scenery.Cli

/-- How a run ends. -/
structure Outcome where
  code : Nat
  output : String := ""
  errors : String := ""
  deriving DecidableEq, Repr, Inhabited

namespace Stop

/-- A line that cannot be followed ends with code 2; a description was asked for. -/
def outcome : Stop → Outcome
  | usage error => { code := 2, errors := "error: " ++ error.message ++ "\n\n" ++ Cli.usage }
  | help => { code := 0, output := Cli.help }
  | version => { code := 0, output := Cli.version }

end Stop

def Failure.ofLoadError (context : String) (error : LoadError) : Failure :=
  ⟨context, error.message :: error.cause?.toList⟩

/-- Load the scene; the content is that of the scene file, if one is named. -/
def Source.load (source : Source) (content : Scene.Content) :
    List Notice × Except Failure Scene :=
  match source with
  | .file path =>
    let (notices, loaded) := Scene.ofFile path content
    (notices, loaded.mapError (Failure.ofLoadError ("failed to load scene from " ++ path)))
  | .inline text =>
    match Scene.ofText text with
    | .error error => ([], .error (Failure.ofLoadError "failed to parse inline scene" error))
    | .ok loaded => (loaded.notices, .ok loaded.scene)
  | .missing => ([], .error ⟨"a scene file path or --inline JSON is required", []⟩)

namespace Query

/-- The level that the log goes down to. -/
def level (query : Query) : Level :=
  match query.verbosity with
  | 0 => .warn
  | 1 => .info
  | 2 => .debug
  | _ => .trace

/-- The scene file that has to be read. -/
def path? (query : Query) : Option String :=
  match query.source with
  | .file path => some path
  | .inline _ => none
  | .missing => none

def nodesOf (scene : Scene) (found : List NodeId) : List Node :=
  found.filterMap scene.node?

/-- The outcome in a scene that was loaded with these notices. -/
def outcomeIn (query : Query) (scene : Scene) (loading : List Notice) : Outcome :=
  let compiled := Selector.compile query.selector
  let matched := scene.graph.selection compiled.compounds .root
  let nodes := nodesOf scene matched.found
  let loaded := .info "scene" ("scene has " ++ toString scene.size ++ " node(s)")
  let counted := .info "matching" (toString nodes.length ++ " node(s) matched")
  { code := 0
    output :=
      (if query.explain then explanation compiled.compounds else "") ++
        listing query.format nodes
    errors :=
      logText query.level (loading ++ [loaded]) ++
        logText query.level (compiled.notices ++ matched.notices ++ [counted]) }

/-- The outcome of a query; the content is that of the scene file, if one is named. -/
def outcome (query : Query) (content : Scene.Content) : Outcome :=
  match query.source.load content with
  | (notices, .error failure) =>
    { code := 1, errors := logText query.level notices ++ failure.report }
  | (notices, .ok scene) => query.outcomeIn scene notices

end Query

end Scenery.Cli
