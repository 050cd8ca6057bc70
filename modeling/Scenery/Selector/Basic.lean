import Scenery.Notice
import Scenery.Text.Quoted

/-!
# Selectors

A selector is a list of compounds.  A compound holds simple selectors that one
node has to meet all, and says whether it looks at children only or at all
descendants of the nodes found before.  `text` writes each of them as selector
text.
-/

namespace Scenery.Selector

/-- How an attribute is compared with the value of a test. -/
inductive Comparison where
  /-- The attribute is this text. -/
  | equals
  /-- One of the attribute's words, which single spaces part, is the value. -/
  | includes
  /-- The attribute is this text, or holds the value with a hyphen behind it. -/
  | dashMatch
  /-- The attribute begins with the value. -/
  | prefixMatch
  /-- The attribute ends with the value. -/
  | suffixMatch
  /-- The attribute holds the value. -/
  | substringMatch
  deriving DecidableEq, Repr, Inhabited

namespace Comparison

def text : Comparison → String
  | equals => "="
  | includes => "~="
  | dashMatch => "|="
  | prefixMatch => "^="
  | suffixMatch => "$="
  | substringMatch => "*="

def name : Comparison → String
  | equals => "Equals"
  | includes => "Includes"
  | dashMatch => "DashMatch"
  | prefixMatch => "PrefixMatch"
  | suffixMatch => "SuffixMatch"
  | substringMatch => "SubstringMatch"

/-- The comparison that an operator asks for; no operator at all asks for equality. -/
def parse? (operator : String) : Option Comparison :=
  if operator = "" ∨ operator = "=" then some equals
  else if operator = "~=" then some includes
  else if operator = "|=" then some dashMatch
  else if operator = "^=" then some prefixMatch
  else if operator = "$=" then some suffixMatch
  else if operator = "*=" then some substringMatch
  else none

/-- The comparison of any operator text; what is no operator compares for equality. -/
def ofOperator (operator : String) : Comparison :=
  (parse? operator).getD equals

@[simp] theorem parse?_text (comparison : Comparison) :
    parse? comparison.text = some comparison := by
  cases comparison <;> decide

@[simp] theorem ofOperator_text (comparison : Comparison) :
    ofOperator comparison.text = comparison := by
  simp [ofOperator]

end Comparison

/-- Characters that make up an operator inside brackets. -/
def isOperatorChar (c : Char) : Bool :=
  c == '~' || c == '|' || c == '^' || c == '=' || c == '$' || c == '-' || c == '*'

/-- A test of one attribute, as written between brackets. -/
structure AttributeTest where
  /-- The attribute, if the brackets name one. -/
  name : Option String := none
  /-- What the attribute is compared with. -/
  value : Option String := none
  /-- The operator characters in the order in which they were written. -/
  operator : String := ""
  /-- Whether the closing bracket was met. -/
  closed : Bool := false
  deriving DecidableEq, Repr, Inhabited

namespace AttributeTest

def empty : AttributeTest := {}

/-- The next parameter is the name, then the value; all others are left out. -/
def addParameter (test : AttributeTest) (parameter : String) : AttributeTest :=
  match test.name, test.value with
  | none, _ => { test with name := some parameter }
  | some _, none => { test with value := some parameter }
  | some _, some _ => test

/-- A parameter that is left out is noted. -/
def parameterNotices (test : AttributeTest) (parameter : String) : List Notice :=
  match test.name, test.value with
  | some _, some _ =>
    [.trace "selector" ("extra attribute parameter '" ++ parameter ++ "' ignored")]
  | _, _ => []

/-- Append a character to the operator. -/
def addOperator (test : AttributeTest) (c : Char) : AttributeTest :=
  { test with operator := test.operator.push c }

/-- The test with its closing bracket. -/
def close (test : AttributeTest) : AttributeTest :=
  { test with closed := true }

def comparison (test : AttributeTest) : Comparison :=
  Comparison.ofOperator test.operator

/-- The operator as written, which is `=` if none was. -/
def operatorText (test : AttributeTest) : String :=
  if test.operator = "" then "=" else test.operator

/-- The test as selector text. -/
def text (test : AttributeTest) : String :=
  "[" ++ test.name.getD "" ++
    (match test.value with
      | none => ""
      | some value => test.operatorText ++ Text.quoted value) ++
    (if test.closed then "]" else "")

end AttributeTest

/-- A condition on a single node. -/
inductive Simple where
  | all
  | byId (id : String)
  /-- Nodes whose tag is the name in upper case. -/
  | byType (name : String)
  /-- Nodes whose attribute passes the test. -/
  | byAttribute (test : AttributeTest)
  deriving DecidableEq, Repr, Inhabited

namespace Simple

def text : Simple → String
  | all => "*"
  | byId id => "#" ++ id
  | byType name => name
  | byAttribute test => test.text

end Simple

/-- Conditions on one node, and where it is looked for. -/
structure Compound where
  selectors : List Simple := []
  /-- Look at the children only, not at all descendants. -/
  childOnly : Bool := false
  deriving DecidableEq, Repr, Inhabited

namespace Compound

def text (compound : Compound) : String :=
  (if compound.childOnly then "> " else "") ++
    String.join (compound.selectors.map Simple.text)

end Compound

/-- The selector text of a list of compounds, parted by single spaces. -/
def textOf (compounds : List Compound) : String :=
  " ".intercalate (compounds.map Compound.text)

end Scenery.Selector
