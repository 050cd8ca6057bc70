import Scenery.Selector.Basic
import Scenery.Selector.Scan

/-!
# Compiling

Tokens are fed one by one into a draft, which holds the compounds that are
complete and the one under construction.  Blanks complete a compound; inside
brackets names, literals and operator characters make up an attribute test.
Compiling never fails: what the language does not know is left out, and a notice
says so.
-/

namespace Scenery.Selector

/-- A selector under construction. -/
structure Draft where
  done : Array Compound := #[]
  /-- The conditions of the compound under construction. -/
  selectors : List Simple := []
  /-- The attribute test whose bracket is open; it stands behind those conditions. -/
  bracket : Option AttributeTest := none
  /-- Whether the compound under construction looks at children only. -/
  childOnly : Bool := false
  notices : Array Notice := #[]
  deriving DecidableEq, Repr, Inhabited

/-- A compiled selector and what was reported on the way. -/
structure Compilation where
  compounds : List Compound
  notices : List Notice
  deriving DecidableEq, Repr, Inhabited

namespace Draft

/-- The conditions under construction, with the open bracket as the last of them. -/
def conditions (draft : Draft) : List Simple :=
  draft.selectors ++ (draft.bracket.map Simple.byAttribute).toList

def current (draft : Draft) : Compound :=
  ⟨draft.conditions, draft.childOnly⟩

def report (draft : Draft) (notice : Notice) : Draft :=
  { draft with notices := draft.notices.push notice }

/-- Warn of something that the language does not have. -/
def unsupported (draft : Draft) (message : String) : Draft :=
  draft.report (.warning "selector" message)

/-- Add a condition; a bracket that is still open stays so for good. -/
def push (draft : Draft) (simple : Simple) : Draft :=
  { draft with selectors := draft.conditions ++ [simple], bracket := none }

def openBracket (draft : Draft) : Draft :=
  { draft with selectors := draft.conditions, bracket := some .empty }

/-- Close the bracket that holds this test. -/
def closeBracket (draft : Draft) (test : AttributeTest) : Draft :=
  { draft with
    selectors := draft.selectors ++ [.byAttribute test.close]
    bracket := none }

/-- Give a parameter to the test in the open bracket. -/
def addParameter (draft : Draft) (test : AttributeTest) (parameter : String) : Draft :=
  { draft with
    bracket := some (test.addParameter parameter)
    notices := draft.notices ++ test.parameterNotices parameter }

/--
Complete the compound under construction.  An empty one is not completed, so
that `>` still counts for the conditions that follow.
-/
def flush (draft : Draft) : Draft :=
  if draft.conditions.isEmpty then
    draft
  else
    { done := draft.done.push draft.current
      notices := draft.notices.push
        (.trace "selector" ("group complete: " ++ draft.current.text)) }

/-- What a single character means outside brackets, or inside where it has no other meaning. -/
def punctuation (draft : Draft) (c : Char) : Draft :=
  match c with
  | '>' => { draft with childOnly := true }
  | '[' => draft.openBracket
  | '*' => draft.push .all
  | '.' => draft.unsupported "class selectors ('.') are not supported"
  | ':' => draft.unsupported "pseudo-classes (':') are not supported"
  | ',' => draft.unsupported "selector lists (',') are not supported"
  | '+' => draft.unsupported "sibling combinator '+' is not supported"
  | '~' => draft.unsupported "sibling combinator '~' is not supported"
  | c => draft.report (.trace "selector" ("dropped punctuation '" ++ String.singleton c ++ "'"))

/-- A single character: it closes an open bracket or belongs to its operator, or else is punctuation. -/
def delim (draft : Draft) (c : Char) : Draft :=
  match draft.bracket with
  | some test =>
    if c = ']' then draft.closeBracket test
    else if isOperatorChar c then
      { draft with bracket := some (test.addOperator c) }
    else draft.punctuation c
  | none => draft.punctuation c

def feed (draft : Draft) : Token → Draft
  | .whitespace => draft.flush
  | .hash id => draft.push (.byId id)
  | .delim c => draft.delim c
  | .ident name =>
    match draft.bracket with
    | some test => draft.addParameter test name
    | none => draft.push (.byType name)
  | .string text =>
    match draft.bracket with
    | some test => draft.addParameter test text
    | none =>
      draft.report
        (.debug "selector" ("string \"" ++ text ++ "\" outside brackets ignored"))
  | .function name =>
    draft.unsupported
      ("functional notation '" ++ name ++ "(' is not supported and was ignored")
  | .number numeral =>
    draft.report
      (.debug "selector" ("ignored token Number(" ++ Text.quoted numeral ++ ")"))
  | .badString => draft.report (.debug "selector" "ignored token BadString")
  | .eof => draft

def feedAll (draft : Draft) (tokens : List Token) : Draft :=
  tokens.foldl feed draft

/-- Complete the last compound. -/
def finish (draft : Draft) : Compilation :=
  ⟨draft.flush.done.toList, draft.flush.notices.toList⟩

@[simp] theorem feedAll_nil (draft : Draft) : draft.feedAll [] = draft := rfl

@[simp] theorem feedAll_cons (draft : Draft) (token : Token) (tokens : List Token) :
    draft.feedAll (token :: tokens) = (draft.feed token).feedAll tokens := rfl

theorem feedAll_append (draft : Draft) (first second : List Token) :
    draft.feedAll (first ++ second) = (draft.feedAll first).feedAll second := by
  simp [feedAll, List.foldl_append]

end Draft

/-- Compile a list of tokens, in any order and from any source. -/
def compileTokens (tokens : List Token) : Compilation :=
  (Draft.feedAll {} tokens).finish

def compile (selector : String) : Compilation :=
  compileTokens (Token.ofText selector)

end Scenery.Selector
