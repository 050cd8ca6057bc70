import Scenery.Proofs.Chunks
import Scenery.Proofs.Compilable
import Scenery.Proofs.Reporting

/-!
# What a compilation warns of

The tokens that the language does not support are known one by one, but for `~`: in an
open bracket it is part of an operator.  A warning is shown as soon as its token is
fed, unless the registry knows it, so a run carries two states: the draft, which says
where a bracket is open, and the registry.  The draft never looks at the registry or at
what was reported before, and so the run can be taken apart into compiling and
replaying.
-/

namespace Scenery.Selector

/-! ## Constructs that are not supported -/

/-- What to say of a token that the language does not support, behind an open bracket or not. -/
def Token.complaint? (opened : Bool) : Token → Option String
  | .function name =>
    some ("functional notation '" ++ name ++ "(' is not supported and was ignored")
  | .delim '.' => some "class selectors ('.') are not supported"
  | .delim ':' => some "pseudo-classes (':') are not supported"
  | .delim ',' => some "selector lists (',') are not supported"
  | .delim '+' => some "sibling combinator '+' is not supported"
  | .delim '~' => if opened then none else some "sibling combinator '~' is not supported"
  | _ => none

namespace Draft

/-- Whether the last condition of the compound under construction is an open test. -/
def endsOpen (draft : Draft) : Bool :=
  draft.current.selectors.getLast?.any Simple.isOpen

/-- What to say of the tokens that are fed to a draft, in order. -/
def complaints (draft : Draft) : List Token → List String
  | [] => []
  | token :: rest =>
    (token.complaint? draft.endsOpen).toList ++ (draft.feed token).complaints rest

theorem Compilable.endsOpen_eq {draft : Draft} (h : draft.Compilable) :
    draft.endsOpen = draft.bracket.isSome := by
  unfold endsOpen current
  cases hlast : draft.conditions.getLast? with
  | none =>
      have hidle := (conditions_eq_nil_iff draft).mp (List.getLast?_eq_none_iff.mp hlast)
      simp [hidle.2]
  | some last => exact h.isOpen_last last (by rw [hlast, Option.mem_some_iff])

/-! ## The notices of one token -/

/-- The draft without its notices. -/
def quiet (draft : Draft) : Draft :=
  { draft with notices := #[] }

@[simp] theorem bracket_quiet (draft : Draft) : draft.quiet.bracket = draft.bracket := rfl

@[simp] theorem notices_quiet (draft : Draft) : draft.quiet.notices = #[] := rfl

@[simp] theorem conditions_quiet (draft : Draft) :
    draft.quiet.conditions = draft.conditions := rfl

theorem behind_quiet (draft : Draft) :
    behind { notices := draft.notices } draft.quiet = draft := by
  simp [behind, quiet]

theorem flush_eq_behind (draft : Draft) :
    draft.flush = behind { notices := draft.notices } draft.quiet.flush := by
  by_cases hempty : draft.conditions.isEmpty = true
  · rw [flush, flush, conditions_quiet, if_pos hempty, if_pos hempty, behind_quiet]
  · rw [flush, flush, conditions_quiet, if_neg hempty, if_neg hempty]
    simp [behind, quiet, current, conditions]

/-- What was reported before stays in front, and nothing else depends on it. -/
theorem feed_eq_behind (draft : Draft) (token : Token) :
    draft.feed token = behind { notices := draft.notices } (draft.quiet.feed token) := by
  by_cases hwhitespace : token = .whitespace
  · rw [hwhitespace]
    exact flush_eq_behind draft
  · rw [← feed_behind _ _ hwhitespace, behind_quiet]

/-- These notices of a compilation warn of the given things. -/
def Warns (notices : Array Notice) (messages : List String) : Prop :=
  (∀ notice ∈ notices.toList, Registry.IsFrom "selector" notice) ∧
    notices.toList.filterMap Registry.message? = messages

theorem warns_nil {draft : Draft} (h : draft.notices = #[]) : Warns draft.notices [] := by
  simp [Warns, h]

theorem warns_unsupported (draft : Draft) (message : String) :
    Warns (draft.quiet.unsupported message).notices [message] := by
  simp [Warns, unsupported, report, Registry.IsFrom, Registry.message?]

theorem warns_report (draft : Draft) {entry : Record} (h : entry.level ≠ .warn) :
    Warns (draft.quiet.report (.record entry)).notices [] := by
  simpa [Warns, report, Registry.IsFrom, Registry.message?] using h

theorem warns_addParameter (draft : Draft) (test : AttributeTest) (parameter : String) :
    Warns (draft.quiet.addParameter test parameter).notices [] := by
  unfold addParameter AttributeTest.parameterNotices
  cases test.name <;> cases test.value <;>
    simp [Warns, Notice.trace, Registry.IsFrom, Registry.message?]

theorem warns_flush (draft : Draft) : Warns draft.quiet.flush.notices [] := by
  unfold flush
  split
  · exact warns_nil rfl
  · simp [Warns, Notice.trace, Registry.IsFrom, Registry.message?]

/-- Outside brackets `~` is as little supported as the other combinators. -/
theorem warns_punctuation (draft : Draft) (c : Char) :
    Warns (draft.quiet.punctuation c).notices ((Token.delim c).complaint? false).toList := by
  unfold punctuation
  split
  · exact warns_nil rfl
  · exact warns_nil rfl
  · exact warns_nil rfl
  · exact warns_unsupported draft _
  · exact warns_unsupported draft _
  · exact warns_unsupported draft _
  · exact warns_unsupported draft _
  · exact warns_unsupported draft _
  · have hnone : (Token.delim c).complaint? false = none := by
      unfold Token.complaint?
      split <;> simp_all
    rw [hnone]
    exact warns_report draft (by simp)

theorem complaint?_delim {c : Char} (opened : Bool) (h : c ≠ '~') :
    (Token.delim c).complaint? opened = (Token.delim c).complaint? false := by
  unfold Token.complaint?
  split <;> simp_all

theorem complaint?_of_isOperatorChar {c : Char} (h : isOperatorChar c = true) :
    (Token.delim c).complaint? true = none := by
  unfold Token.complaint?
  split <;> simp_all [isOperatorChar]

theorem warns_delim (draft : Draft) (c : Char) :
    Warns (draft.quiet.delim c).notices
      ((Token.delim c).complaint? draft.bracket.isSome).toList := by
  unfold delim
  rw [bracket_quiet]
  cases draft.bracket with
  | none => exact warns_punctuation draft c
  | some test =>
      by_cases hclose : c = ']'
      · simp only [hclose, if_true]
        exact warns_nil rfl
      by_cases hoperator : isOperatorChar c = true
      · simp only [hclose, hoperator, if_true, if_false, Option.isSome_some,
          complaint?_of_isOperatorChar hoperator]
        exact warns_nil rfl
      · -- A `~` would be part of the operator.
        have htilde : c ≠ '~' := by
          rintro rfl
          exact hoperator (by decide)
        simp only [hclose, hoperator, if_false, complaint?_delim _ htilde]
        exact warns_punctuation draft c

/-- Feeding a token warns of it if it is not supported, and of nothing else. -/
theorem warns_feed (draft : Draft) (token : Token) :
    Warns (draft.quiet.feed token).notices (token.complaint? draft.bracket.isSome).toList := by
  cases token with
  | whitespace => exact warns_flush draft
  | hash id => exact warns_nil rfl
  | delim c => exact warns_delim draft c
  | ident name =>
      simp only [feed, bracket_quiet]
      cases draft.bracket with
      | none => exact warns_nil rfl
      | some test => exact warns_addParameter draft test name
  | string text =>
      simp only [feed, bracket_quiet]
      cases draft.bracket with
      | none => exact warns_report draft (by simp)
      | some test => exact warns_addParameter draft test text
  | function name => exact warns_unsupported draft _
  | number numeral => exact warns_report draft (by simp)
  | badString => exact warns_report draft (by simp)
  | eof => exact warns_nil rfl

/-! ## The notices of a compilation -/

theorem Warns.append {first second : Array Notice} {messages others : List String}
    (hfirst : Warns first messages) (hsecond : Warns second others) :
    Warns (first ++ second) (messages ++ others) := by
  obtain ⟨hfrom, hmessages⟩ := hfirst
  obtain ⟨hfrom', hmessages'⟩ := hsecond
  refine ⟨?_, by simp [hmessages, hmessages']⟩
  intro notice hnotice
  rw [Array.toList_append, List.mem_append] at hnotice
  exact hnotice.elim (hfrom notice) (hfrom' notice)

theorem warns_feedAll {draft : Draft} (h : draft.Compilable) {messages : List String}
    (hmessages : Warns draft.notices messages) (tokens : List Token) :
    Warns (draft.feedAll tokens).notices (messages ++ draft.complaints tokens) := by
  induction tokens generalizing draft messages with
  | nil => simpa [complaints] using hmessages
  | cons token rest ih =>
      have hfed : Warns (draft.feed token).notices
          (messages ++ (token.complaint? draft.endsOpen).toList) := by
        rw [feed_eq_behind, h.endsOpen_eq]
        exact hmessages.append (warns_feed draft token)
      have hrest := ih (compilable_feed h token) hfed
      rwa [List.append_assoc] at hrest

end Draft

theorem warns_compileTokens (tokens : List Token) :
    (∀ notice ∈ (compileTokens tokens).notices, Registry.IsFrom "selector" notice) ∧
      (compileTokens tokens).notices.filterMap Registry.message? =
        Draft.complaints {} tokens := by
  have hfed := Draft.warns_feedAll Draft.compilable_empty (Draft.warns_nil rfl) tokens
  have hflushed := hfed.append (Draft.warns_flush (Draft.feedAll {} tokens))
  rw [List.nil_append, List.append_nil] at hflushed
  rw [compileTokens, Draft.finish, Draft.flush_eq_behind]
  exact hflushed

example :
    Draft.complaints {} [.delim '[', .delim '~', .delim ']', .delim '~'] =
      ["sibling combinator '~' is not supported"] := by
  decide

/-! ## Showing warnings on the way -/

/-- A compilation on the way: what was reported so far has been passed on. -/
structure Session where
  draft : Draft := {}
  registry : Registry
  records : List Record := []

namespace Session

/-- Take over a draft and pass on its notices. -/
def pass (session : Session) (draft : Draft) : Session :=
  let (registry, records) := session.registry.replay draft.notices.toList
  ⟨draft.quiet, registry, session.records ++ records⟩

def feed (session : Session) (token : Token) : Session :=
  session.pass (session.draft.feed token)

def compounds (session : Session) : List Compound :=
  session.draft.done.toList

/-- Notices can be passed on one after the other. -/
theorem pass_pass (session : Session) (first second : Draft) :
    (session.pass first).pass second =
      session.pass (Draft.behind { notices := first.notices } second) := by
  simp [pass, Draft.behind, Draft.quiet, Registry.replay_append]

theorem feed_pass (session : Session) (draft : Draft) (token : Token) :
    (session.pass draft).feed token = session.pass (draft.feed token) := by
  rw [Draft.feed_eq_behind, ← pass_pass]
  rfl

theorem foldl_feed_pass (session : Session) (draft : Draft) (tokens : List Token) :
    tokens.foldl feed (session.pass draft) = session.pass (draft.feedAll tokens) := by
  induction tokens generalizing draft with
  | nil => rfl
  | cons token rest ih => rw [List.foldl_cons, feed_pass, ih, Draft.feedAll_cons]

end Session

/-- Compile tokens, and show every warning as soon as its token is fed. -/
def compileWith (registry : Registry) (tokens : List Token) : Session :=
  let session := tokens.foldl Session.feed { registry := registry }
  session.pass session.draft.flush

theorem compileWith_eq (registry : Registry) (tokens : List Token) :
    (compileWith registry tokens).compounds = (compileTokens tokens).compounds ∧
      ((compileWith registry tokens).registry, (compileWith registry tokens).records) =
        registry.replay (compileTokens tokens).notices := by
  have hempty : Session.pass { registry := registry } {} = { registry := registry } := rfl
  have hrun : compileWith registry tokens =
      Session.pass { registry := registry } (Draft.feedAll {} tokens).flush := by
    have hfed := Session.foldl_feed_pass { registry := registry } {} tokens
    rw [hempty] at hfed
    rw [compileWith, hfed, Draft.flush_eq_behind (Draft.feedAll {} tokens), ← Session.pass_pass]
    rfl
  rw [hrun]
  simp [Session.pass, Session.compounds, Draft.quiet, compileTokens, Draft.finish]

/-! ## What is shown -/

/--
Of what the language does not support a compilation shows each message once, where it comes up
first, but for those that the registry knows, and then the registry knows them all.  What is
compiled does not depend on it.
-/
theorem compileWith_shows (registry : Registry) (tokens : List Token) :
    let messages := Draft.complaints {} tokens
    let run := compileWith registry tokens
    run.records.filter (·.level = .warn) =
        (messages.eraseDups.filter fun message => !registry.wasWarned "selector" message).map
          (fun message => ⟨.warn, "selector", message⟩) ∧
      (∀ text, text ∈ run.registry.shown ↔
        text ∈ registry.shown ∨ ∃ message ∈ messages, Registry.key "selector" message = text) ∧
      (compileWith run.registry tokens).records.filter (·.level = .warn) = [] ∧
      run.compounds = (compileTokens tokens).compounds ∧
      (run.registry, run.records) = registry.replay (compileTokens tokens).notices ∧
      ∀ other, (compileWith other tokens).compounds = run.compounds := by
  intro messages run
  obtain ⟨hfrom, hmessages⟩ := warns_compileTokens tokens
  have hreplay : ∀ other : Registry,
      (compileWith other tokens).registry = (other.replay (compileTokens tokens).notices).1 ∧
        (compileWith other tokens).records =
          (other.replay (compileTokens tokens).notices).2 := by
    intro other
    simp [← (compileWith_eq other tokens).2]
  have hwarnings : ∀ other : Registry,
      (compileWith other tokens).records.filter (·.level = .warn) =
        (messages.eraseDups.filter fun message => !other.wasWarned "selector" message).map
          fun message => ⟨.warn, "selector", message⟩ := by
    intro other
    rw [(hreplay other).2, Registry.warnings_replay hfrom, hmessages]
  have hcompounds : ∀ other : Registry,
      (compileWith other tokens).compounds = (compileTokens tokens).compounds :=
    fun other => (compileWith_eq other tokens).1
  refine ⟨hwarnings registry, ?_, ?_, hcompounds registry, (compileWith_eq registry tokens).2, ?_⟩
  · intro text
    rw [(hreplay registry).1, Registry.shown_replay hfrom, hmessages]
  · -- After the run the registry knows every message.
    rw [hwarnings, List.map_eq_nil_iff, List.filter_eq_nil_iff]
    intro message hmessage
    rw [(hreplay registry).1, Registry.wasWarned_replay hfrom, hmessages]
    simp [messages, List.mem_eraseDups.mp hmessage]
  · intro other
    rw [hcompounds other, hcompounds registry]

end Scenery.Selector
