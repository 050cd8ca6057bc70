import Scenery.Document
import Scenery.Notice
import Scenery.Scene.Basic

/-!
# Loading scenes

A scene document is turned into a scene node by node.  All children of a node
are added one after the other; the containers among them wait with their own
children, and the one that waited least is next.  Attributes that are no scalars
are left out with a warning.
-/

namespace Scenery

/-- Why a text or a file is no scene. -/
inductive LoadError where
  | unreadable (path reason : String)
  | malformed (error : Document.Error)
  /-- A node cannot be put where the document has it. -/
  | refused (error : AppendError)
  deriving Inhabited

namespace LoadError

def message : LoadError → String
  | unreadable path reason => "failed to read scene file '" ++ path ++ "': " ++ reason
  | malformed error => "invalid scene JSON: " ++ error.message
  | refused error => error.message

/-- The cause behind an error, in words. -/
def cause? : LoadError → Option String
  | unreadable _ reason => some reason
  | malformed error => some error.message
  | refused _ => none

end LoadError

namespace Document

/-- A warning for every attribute of the topmost node that is left out. -/
def notices (document : Document) : List Notice :=
  document.skipped.map fun name =>
    .warning "scene" ("attribute '" ++ name ++ "' has a non-scalar value and was skipped")

end Document

namespace Scene

/-- A scene under construction, and what was reported so far. -/
structure Loading where
  scene : Scene
  notices : Array Notice := #[]
  deriving Inhabited

/-- Children that wait to be put under a node. -/
abbrev Waiting := NodeId × List Document

/-- The work that is left: one step for every node, and one for every list of children. -/
def waitingWork : List Waiting → Nat
  | [] => 0
  | (_, documents) :: rest => 1 + 2 * Document.countAll documents + waitingWork rest

/-- Add the topmost node of a document, detached. -/
def addDocument (scene : Scene) (document : Document) : Scene × NodeId :=
  if document.children.isSome then scene.addContainer document.node
  else scene.addLeaf document.node

/-- The children of a document, as they wait under its node. -/
def waitingUnder (id : NodeId) (document : Document) : List Waiting :=
  match document.children with
  | some children => [(id, children)]
  | none => []

theorem waitingWork_append (first second : List Waiting) :
    waitingWork (first ++ second) = waitingWork first + waitingWork second := by
  induction first with
  | nil => simp [waitingWork]
  | cons entry rest ih =>
      rw [List.cons_append, waitingWork, waitingWork, ih]
      omega

theorem waitingWork_waitingUnder_lt (id : NodeId) (document : Document) :
    waitingWork (waitingUnder id document) < 2 * document.count := by
  obtain ⟨_, _, _, children⟩ := document
  cases children with
  | none => simp [waitingUnder, Document.children, waitingWork, Document.count]
  | some children =>
      simp only [waitingUnder, Document.children, waitingWork, Document.count]
      omega

/--
Put the documents under a parent, one after the other, and then what waits.  The
containers among them go in front of what waits already.
-/
def addUnder (loading : Loading) (parent : NodeId) (documents : List Document)
    (waiting : List Waiting) : Except AppendError Loading :=
  match documents with
  | [] =>
    match waiting with
    | [] => .ok loading
    | (next, children) :: rest => addUnder loading next children rest
  | document :: others =>
    let (grown, id) := addDocument loading.scene document
    match grown.append parent id with
    | .error error => .error error
    | .ok scene =>
      addUnder ⟨scene, loading.notices ++ document.notices⟩ parent others
        (waitingUnder id document ++ waiting)
  termination_by 2 * Document.countAll documents + waitingWork waiting
  decreasing_by
    · simp only [waitingWork, Document.countAll]
      omega
    · have := waitingWork_waitingUnder_lt id document
      rw [waitingWork_append, Document.countAll]
      omega

/-- The scene of a document; its root is a container even if it has no list of children. -/
def ofDocument (document : Document) : Except AppendError Loading :=
  addUnder ⟨ofRoot document.node, document.notices.toArray⟩ .root
    (document.children.getD []) []

/-- A loaded scene with all notices. -/
structure Loaded where
  scene : Scene
  notices : List Notice
  deriving Inhabited

/-- Load a scene from JSON text. -/
def ofText (text : String) : Except LoadError Loaded :=
  match Document.parse text with
  | .error error => .error (.malformed error)
  | .ok document =>
    match ofDocument document with
    | .error error => .error (.refused error)
    | .ok loading =>
      let summary := "built scene with " ++ toString loading.scene.size ++ " nodes"
      .ok ⟨loading.scene, loading.notices.toList ++ [.debug "scene" summary]⟩

/-- What a file holds, or why it cannot be read. -/
abbrev Content := Except String ByteArray

/-- The text of a file, which has to be in UTF-8. -/
def textOf (path : String) (content : Content) : Except LoadError String :=
  match content with
  | .error reason => .error (.unreadable path reason)
  | .ok bytes =>
    match String.fromUTF8? bytes with
    | some text => .ok text
    | none => .error (.unreadable path "stream did not contain valid UTF-8")

/-- The notice that a file was read. -/
def readNotice (path text : String) : Notice :=
  .debug "scene" ("loaded " ++ toString text.utf8ByteSize ++ " bytes from " ++ path)

/--
Load a scene from a file.  What was reported before an error counts too, so the
notices stand beside the result.
-/
def ofFile (path : String) (content : Content) : List Notice × Except LoadError Scene :=
  match textOf path content with
  | .error error => ([], .error error)
  | .ok text =>
    match ofText text with
    | .error error => ([readNotice path text], .error error)
    | .ok loaded => (readNotice path text :: loaded.notices, .ok loaded.scene)

end Scene

end Scenery
