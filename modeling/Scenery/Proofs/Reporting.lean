import Mathlib.Data.List.Infix
import Mathlib.Data.List.Induction
import Scenery.Notice

/-!
# Warnings that are shown once

The registry remembers a warning by one text, in which the component stands
between brackets before the message.  A component that holds `] ` itself can be
taken for a shorter one with a longer message, and only so can two warnings have
the same text.  Where no component does, the registry answers as if it knew every
call since it was cleared last: each warning is shown the first time, and known
from then on.  Among the notices of one component that are replayed the warnings are
shown that are new, each at its first place.
-/

namespace Scenery

namespace Registry

/-! ## The text of a warning -/

/-- Where two texts that are cut at a mark agree, they agree in parts, or one mark is in a part. -/
theorem append_mark_eq_iff (first first' second second' : List Char) :
    first ++ ']' :: ' ' :: second = first' ++ ']' :: ' ' :: second' ↔
      (first = first' ∧ second = second') ∨
        (∃ middle, first' = first ++ ']' :: ' ' :: middle ∧
          second = middle ++ ']' :: ' ' :: second') ∨
        ∃ middle, first = first' ++ ']' :: ' ' :: middle ∧
          second' = middle ++ ']' :: ' ' :: second := by
  -- The longer first part goes on where the mark of the other text begins.
  have hlonger : ∀ {more second second' : List Char},
      ']' :: ' ' :: second = more ++ ']' :: ' ' :: second' →
      (more = [] ∧ second = second') ∨
        ∃ middle, more = ']' :: ' ' :: middle ∧ second = middle ++ ']' :: ' ' :: second' := by
    intro more second second' heq
    match more with
    | [] => exact .inl ⟨rfl, by simpa using heq⟩
    | [c] => simp at heq
    | c :: d :: middle =>
        simp only [List.cons_append, List.cons.injEq] at heq
        obtain ⟨rfl, rfl, hsecond⟩ := heq
        exact .inr ⟨middle, rfl, hsecond⟩
  constructor
  · intro heq
    rcases List.append_eq_append_iff.mp heq with ⟨more, hfirst, hrest⟩ | ⟨more, hfirst, hrest⟩
    · rcases hlonger hrest with ⟨rfl, hsecond⟩ | ⟨middle, rfl, hsecond⟩
      · exact .inl ⟨by rw [hfirst, List.append_nil], hsecond⟩
      · exact .inr (.inl ⟨middle, hfirst, hsecond⟩)
    · rcases hlonger hrest with ⟨rfl, hsecond⟩ | ⟨middle, rfl, hsecond⟩
      · exact .inl ⟨by rw [hfirst, List.append_nil], hsecond.symm⟩
      · exact .inr (.inr ⟨middle, hfirst, hsecond⟩)
  · rintro (⟨rfl, rfl⟩ | ⟨middle, rfl, rfl⟩ | ⟨middle, rfl, rfl⟩)
    · rfl
    · simp
    · simp

theorem toList_key (component message : String) :
    (key component message).toList =
      '[' :: (component.toList ++ ']' :: ' ' :: message.toList) := by
  have hmarks : "[".toList = ['['] ∧ "] ".toList = [']', ' '] := by decide
  simp [key, String.toList_append, hmarks]

/--
Two warnings have the same text if they are the same, or if the component of one is the other
component, a mark and more, which the other message has in front.
-/
theorem key_eq_key_iff (component component' message message' : String) :
    key component message = key component' message' ↔
      (component = component' ∧ message = message') ∨
        (∃ middle, component' = component ++ "] " ++ middle ∧
          message = middle ++ "] " ++ message') ∨
        ∃ middle, component = component' ++ "] " ++ middle ∧
          message' = middle ++ "] " ++ message := by
  have hmark : "] ".toList = [']', ' '] := by decide
  have hmiddle : ∀ {p : List Char → Prop},
      (∃ middle, p middle) ↔ ∃ middle : String, p middle.toList := by
    intro p
    constructor
    · rintro ⟨middle, h⟩
      exact ⟨String.ofList middle, by simpa using h⟩
    · rintro ⟨middle, h⟩
      exact ⟨_, h⟩
  simp only [← String.toList_inj, toList_key, List.cons.injEq, true_and, append_mark_eq_iff,
    String.toList_append, hmark, List.append_assoc, List.cons_append, List.nil_append, hmiddle]

/-! ## Calls -/

/-- A call of the registry. -/
inductive Call where
  /-- Show a warning, unless it was shown. -/
  | warn (component message : String)
  /-- Ask whether a warning was shown. -/
  | ask (component message : String)
  /-- Forget every warning. -/
  | clear
  deriving DecidableEq, Repr

/-- What a call is answered with. -/
inductive Reply where
  /-- The record of a warning, if it is shown. -/
  | shown (entry : Option Record)
  /-- Whether a warning was shown before. -/
  | known (flag : Bool)
  | cleared
  deriving DecidableEq, Repr

def serve (registry : Registry) : Call → Registry × Reply
  | .warn component message =>
    let (next, entry) := registry.warn component message
    (next, .shown entry)
  | .ask component message => (registry, .known (registry.wasWarned component message))
  | .clear => (empty, .cleared)

/-- The replies to a list of calls in order, and the registry after them. -/
def serveAll (registry : Registry) : List Call → Registry × List Reply
  | [] => (registry, [])
  | call :: rest =>
    let (next, reply) := registry.serve call
    let (last, replies) := next.serveAll rest
    (last, reply :: replies)

theorem serveAll_append (registry : Registry) (first second : List Call) :
    registry.serveAll (first ++ second) =
      (((registry.serveAll first).1.serveAll second).1,
        (registry.serveAll first).2 ++ ((registry.serveAll first).1.serveAll second).2) := by
  induction first generalizing registry with
  | nil => simp [serveAll]
  | cons call rest ih => simp [serveAll, ih]

/-- The calls since the last `clear`, the latest first. -/
def recent (calls : List Call) : List Call :=
  calls.reverse.takeWhile (· ≠ .clear)

@[simp] theorem recent_nil : recent [] = [] := rfl

theorem recent_concat (calls : List Call) (call : Call) :
    recent (calls ++ [call]) = if call = .clear then [] else call :: recent calls := by
  by_cases hclear : call = .clear <;> simp [recent, hclear]

theorem recent_append {stretch : List Call} (h : .clear ∉ stretch) (calls : List Call) :
    recent (calls ++ stretch) = stretch.reverse ++ recent calls := by
  have hall : ∀ call ∈ stretch.reverse, decide (call ≠ .clear) = true := by
    intro call hcall
    have hne : call ≠ .clear := ne_of_mem_of_not_mem (List.mem_reverse.mp hcall) h
    simpa using hne
  rw [recent, List.reverse_append, List.takeWhile_append_of_pos hall, recent]

/-- What a call is to be answered with, told by the calls before it. -/
def due (earlier : List Call) : Call → Reply
  | .warn component message =>
    .shown (if .warn component message ∈ recent earlier then none
      else some ⟨.warn, component, message⟩)
  | .ask component message => .known (.warn component message ∈ recent earlier)
  | .clear => .cleared

/-- A call whose component has no mark in it. -/
def Call.Plain : Call → Prop
  | .warn component _ => ¬ "] ".toList <:+: component.toList
  | .ask component _ => ¬ "] ".toList <:+: component.toList
  | .clear => True

/-! ## What the registry remembers -/

/-- The registry holds the texts of the warnings since the last `clear`, and no others. -/
def Remembers (registry : Registry) (earlier : List Call) : Prop :=
  ∀ text, text ∈ registry.shown ↔
    ∃ component message, .warn component message ∈ recent earlier ∧ key component message = text

theorem remembers_empty : empty.Remembers [] := by
  simp [Remembers, empty]

theorem shown_warn (registry : Registry) (component message text : String) :
    text ∈ (registry.warn component message).1.shown ↔
      text ∈ registry.shown ∨ key component message = text := by
  unfold warn
  split
  · rename_i hknown
    rw [wasWarned, List.contains_iff_mem] at hknown
    exact ⟨.inl, fun htext => htext.elim id fun hkey => hkey ▸ hknown⟩
  · rw [List.mem_cons, or_comm, eq_comm]

theorem Remembers.wasWarned_eq_true_iff {registry : Registry} {earlier : List Call}
    (h : registry.Remembers earlier) (component message : String) :
    registry.wasWarned component message = true ↔
      ∃ component' message', .warn component' message' ∈ recent earlier ∧
        key component' message' = key component message := by
  rw [wasWarned, List.contains_iff_mem, h]

theorem Remembers.serve {registry : Registry} {earlier : List Call}
    (h : registry.Remembers earlier) (call : Call) :
    (registry.serve call).1.Remembers (earlier ++ [call]) := by
  intro text
  rw [recent_concat]
  cases call with
  | clear => simp [Registry.serve, empty]
  | ask component message =>
      rw [if_neg (by simp), Registry.serve, h text]
      simp
  | warn component message =>
      rw [if_neg (by simp), Registry.serve, shown_warn, h text]
      simp only [List.mem_cons, Call.warn.injEq]
      constructor
      · rintro (⟨component', message', hmem, htext⟩ | htext)
        · exact ⟨component', message', .inr hmem, htext⟩
        · exact ⟨component, message, .inl ⟨rfl, rfl⟩, htext⟩
      · rintro ⟨component', message', ⟨rfl, rfl⟩ | hmem, htext⟩
        · exact .inr htext
        · exact .inl ⟨component', message', hmem, htext⟩

theorem remembers_serveAll (calls : List Call) : (empty.serveAll calls).1.Remembers calls := by
  induction calls using List.reverseRecOn with
  | nil => exact remembers_empty
  | append_singleton calls call ih =>
      rw [serveAll_append]
      exact ih.serve call

/-! ## Plain components -/

theorem eq_of_key_eq {component component' message message' : String}
    (hplain : ¬ "] ".toList <:+: component.toList) (hplain' : ¬ "] ".toList <:+: component'.toList)
    (h : key component message = key component' message') :
    component = component' ∧ message = message' := by
  have hmark : ∀ front back : String, "] ".toList <:+: (front ++ "] " ++ back).toList := by
    intro front back
    exact ⟨front.toList, back.toList, by simp [String.toList_append]⟩
  rcases (key_eq_key_iff ..).mp h with hsame | ⟨middle, rfl, -⟩ | ⟨middle, rfl, -⟩
  · exact hsame
  · exact absurd (hmark component middle) hplain'
  · exact absurd (hmark component' middle) hplain

theorem Remembers.wasWarned_eq {registry : Registry} {earlier : List Call}
    (h : registry.Remembers earlier) (hearlier : ∀ call ∈ earlier, call.Plain)
    {component : String} (hcomponent : ¬ "] ".toList <:+: component.toList) (message : String) :
    registry.wasWarned component message =
      decide (.warn component message ∈ recent earlier) := by
  rw [Bool.eq_iff_iff, h.wasWarned_eq_true_iff, decide_eq_true_iff]
  constructor
  · rintro ⟨component', message', hmem, hkey⟩
    have hplain := hearlier _ (List.mem_reverse.mp ((List.takeWhile_subset _) hmem))
    obtain ⟨rfl, rfl⟩ := eq_of_key_eq hplain hcomponent hkey
    exact hmem
  · intro hmem
    exact ⟨component, message, hmem, rfl⟩

theorem Remembers.reply_eq_due {registry : Registry} {earlier : List Call}
    (h : registry.Remembers earlier) (hearlier : ∀ call ∈ earlier, call.Plain) {call : Call}
    (hcall : call.Plain) : (registry.serve call).2 = due earlier call := by
  cases call with
  | clear => rfl
  | ask component message =>
      rw [Registry.serve, due, h.wasWarned_eq hearlier hcall]
  | warn component message =>
      rw [Registry.serve, due, warn, h.wasWarned_eq hearlier hcall]
      by_cases hmem : Call.warn component message ∈ recent earlier <;> simp [hmem]

theorem replies_eq_due {calls : List Call} (hplain : ∀ call ∈ calls, call.Plain) :
    (empty.serveAll calls).2 =
      calls.zipIdx.map fun (call, place) => due (calls.take place) call := by
  induction calls using List.reverseRecOn with
  | nil => rfl
  | append_singleton calls call ih =>
      have hearlier : ∀ earlier ∈ calls, earlier.Plain :=
        fun earlier hmem => hplain earlier (List.mem_append_left _ hmem)
      have hcall : call.Plain := hplain call (List.mem_append_right _ List.mem_cons_self)
      have hreply := (remembers_serveAll calls).reply_eq_due hearlier hcall
      -- What a call is to be answered with does not depend on the calls behind it.
      have hsame : calls.zipIdx.map (fun (earlier, place) =>
            due ((calls ++ [call]).take place) earlier) =
          calls.zipIdx.map fun (earlier, place) => due (calls.take place) earlier := by
        apply List.map_congr_left
        rintro ⟨earlier, place⟩ hmem
        have hplace : place ≤ calls.length := Nat.le_of_lt (List.snd_lt_of_mem_zipIdx hmem)
        simp only [List.take_append_of_le_length hplace]
      rw [serveAll_append, List.zipIdx_append, List.map_append, hsame, ← ih hearlier]
      simp [serveAll, hreply]

/-! ## A list of notices -/

/-- The message of a warning; a plain record is none. -/
def message? : Notice → Option String
  | .record _ => none
  | .warning _ message => some message

/-- A notice of one component: its warnings go to the registry, not into plain records. -/
def IsFrom (component : String) : Notice → Prop
  | .record entry => entry.level ≠ .warn
  | .warning component' _ => component' = component

section Notices

variable {component : String} {notices : List Notice}

theorem shown_replay (h : ∀ notice ∈ notices, IsFrom component notice) (registry : Registry)
    (text : String) :
    text ∈ (registry.replay notices).1.shown ↔
      text ∈ registry.shown ∨
        ∃ message ∈ notices.filterMap message?, key component message = text := by
  induction notices generalizing registry with
  | nil => simp
  | cons notice rest ih =>
      have hrest := ih fun other hother => h other (List.mem_cons_of_mem _ hother)
      cases notice with
      | record entry => simpa [replay, note, message?] using hrest registry
      | warning component' message =>
          obtain rfl : component' = component := h _ List.mem_cons_self
          simp [replay, note, message?, hrest, shown_warn, or_assoc]

theorem key_inj {message message' : String} :
    key component message = key component message' ↔ message = message' := by
  simp [← String.toList_inj, toList_key]

/-- What the registry knows after a list of notices. -/
theorem wasWarned_replay (h : ∀ notice ∈ notices, IsFrom component notice) (registry : Registry)
    (message : String) :
    (registry.replay notices).1.wasWarned component message =
      (registry.wasWarned component message ||
        (notices.filterMap message?).contains message) := by
  rw [Bool.eq_iff_iff, Bool.or_eq_true, wasWarned, wasWarned, List.contains_iff_mem,
    List.contains_iff_mem, List.contains_iff_mem, shown_replay h]
  simp [key_inj]

/-- Of the warnings in a list of notices each is shown once, at its first place, if it is new. -/
theorem warnings_replay (h : ∀ notice ∈ notices, IsFrom component notice)
    (registry : Registry) :
    (registry.replay notices).2.filter (·.level = .warn) =
      ((notices.filterMap message?).eraseDups.filter
        fun message => !registry.wasWarned component message).map
          fun message => ⟨.warn, component, message⟩ := by
  induction notices using List.reverseRecOn with
  | nil => simp
  | append_singleton front notice ih =>
      have hfront : ∀ other ∈ front, IsFrom component other :=
        fun other hother => h other (List.mem_append_left _ hother)
      have hnotice : IsFrom component notice := h notice (by simp)
      rw [replay_append, List.filter_append, ih hfront, List.filterMap_append,
        List.eraseDups_append, List.filter_append, List.map_append]
      congr 1
      cases notice with
      | record entry =>
          have hlevel : entry.level ≠ .warn := hnotice
          have hnone : [Notice.record entry].filterMap message? = [] := rfl
          simp [replay, note, hlevel, hnone, List.removeAll]
      | warning component' message =>
          obtain rfl : component' = component := hnotice
          have hone : [Notice.warning component' message].filterMap message? = [message] := rfl
          -- The last message is dropped if it stands in front or was known before.
          have hknown := wasWarned_replay hfront registry message
          rw [hone, List.removeAll]
          generalize front.filterMap message? = earlier at hknown
          by_cases hmem : message ∈ earlier <;>
            cases hold : registry.wasWarned component' message <;>
              simp [replay, note, warn, hknown, hmem, hold, List.eraseDups_cons]

end Notices

/-! ## Once between two clears -/

theorem recent_eq_nil {calls : List Call} (h : calls = [] ∨ calls.getLast? = some .clear) :
    recent calls = [] := by
  rcases h with rfl | hlast
  · rfl
  · obtain ⟨front, rfl⟩ := List.getLast?_eq_some_iff.mp hlast
    rw [recent_concat, if_pos rfl]

theorem due_eq_shown_iff (earlier : List Call) (call : Call) (component message : String) :
    due earlier call = .shown (some ⟨.warn, component, message⟩) ↔
      call = .warn component message ∧ .warn component message ∉ recent earlier := by
  cases call with
  | clear => simp [due]
  | ask => simp [due]
  | warn component' message' =>
      by_cases hsame : component' = component ∧ message' = message
      · obtain ⟨rfl, rfl⟩ := hsame
        by_cases hmem : Call.warn component' message' ∈ recent earlier <;> simp [due, hmem]
      · by_cases hmem : Call.warn component' message' ∈ recent earlier <;> simp [due, hmem, hsame]

/-- From a clear on each warning is shown once, however often it is called for. -/
theorem count_shown {front stretch : List Call} (hplain : ∀ call ∈ front ++ stretch, call.Plain)
    (hfront : front = [] ∨ front.getLast? = some .clear) (hstretch : .clear ∉ stretch)
    (component message : String) :
    ((empty.serveAll front).1.serveAll stretch).2.count
        (.shown (some ⟨.warn, component, message⟩)) =
      if .warn component message ∈ stretch then 1 else 0 := by
  induction stretch using List.reverseRecOn with
  | nil => rfl
  | append_singleton stretch call ih =>
      rw [← List.append_assoc] at hplain
      have hearlier : ∀ earlier ∈ front ++ stretch, earlier.Plain :=
        fun earlier hmem => hplain earlier (List.mem_append_left _ hmem)
      have hcall : call.Plain := hplain call (List.mem_append_right _ List.mem_cons_self)
      have hnone : .clear ∉ stretch := fun hmem => hstretch (List.mem_append_left _ hmem)
      have hrecent : recent (front ++ stretch) = stretch.reverse := by
        rw [recent_append hnone, recent_eq_nil hfront, List.append_nil]
      have hreply := (remembers_serveAll (front ++ stretch)).reply_eq_due hearlier hcall
      rw [serveAll_append] at hreply
      have hshown := due_eq_shown_iff (front ++ stretch) call component message
      rw [← hreply, hrecent, List.mem_reverse] at hshown
      rw [serveAll_append, List.count_append, ih hearlier hnone]
      simp only [serveAll, List.count_singleton, beq_iff_eq, hshown, List.mem_append,
        List.mem_singleton, eq_comm (b := call)]
      by_cases hmem : Call.warn component message ∈ stretch <;> simp [hmem]

/--
Where no component holds a mark, the registry answers every call as the calls before it ask for,
and between two clears each warning that is called for is shown once.
-/
theorem serveAll_exact {calls : List Call} (hplain : ∀ call ∈ calls, call.Plain) :
    (empty.serveAll calls).2 =
        calls.zipIdx.map (fun (call, place) => due (calls.take place) call) ∧
      ∀ front stretch back, calls = front ++ stretch ++ back →
        (front = [] ∨ front.getLast? = some .clear) → .clear ∉ stretch →
        ∀ component message,
          ((empty.serveAll front).1.serveAll stretch).2.count
              (.shown (some ⟨.warn, component, message⟩)) =
            if .warn component message ∈ stretch then 1 else 0 := by
  refine ⟨replies_eq_due hplain, ?_⟩
  rintro front stretch back rfl hfront hstretch component message
  have hearlier : ∀ call ∈ front ++ stretch, call.Plain :=
    fun call hmem => hplain call (List.mem_append_left _ hmem)
  exact count_shown hearlier hfront hstretch component message

/-- A component with brackets, an empty one, and a message with a mark. -/
theorem serveAll_exact_brackets :
    let calls : List Call := [.warn "[a]" "b", .clear, .warn "[a]" "] b", .ask "" "b",
      .warn "[a]" "] b", .ask "[a]" "] b", .ask "[a]" "b"]
    (∀ call ∈ calls, call.Plain) ∧
      (empty.serveAll calls).2 =
        [.shown (some ⟨.warn, "[a]", "b"⟩), .cleared, .shown (some ⟨.warn, "[a]", "] b"⟩),
          .known false, .shown none, .known true, .known false] := by
  intro calls
  have hplain : ∀ call ∈ calls, call.Plain := by
    intro call hcall
    simp only [calls, List.mem_cons, List.not_mem_nil, or_false] at hcall
    rcases hcall with rfl | rfl | rfl | rfl | rfl | rfl | rfl <;> simp only [Call.Plain] <;> decide
  refine ⟨hplain, ?_⟩
  rw [(serveAll_exact hplain).1]
  decide

/-- The mark in a component makes one warning pass for another, which is then never shown. -/
theorem serveAll_of_same_text :
    let calls : List Call := [.warn "a" "b] c", .ask "a] b" "c", .warn "a] b" "c"]
    (empty.serveAll calls).2 =
        [.shown (some ⟨.warn, "a", "b] c"⟩), .known true, .shown none] ∧
      calls.zipIdx.map (fun (call, place) => due (calls.take place) call) =
        [.shown (some ⟨.warn, "a", "b] c"⟩), .known false,
          .shown (some ⟨.warn, "a] b", "c"⟩)] := by
  decide

end Registry

end Scenery
