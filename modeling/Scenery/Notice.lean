/-!
# Notices and the warning registry

Operations report what they did as notices.  A notice is either a plain record,
or a warning that is to be shown once: the registry remembers the text of every
warning that was shown, and passes on only those it does not know yet.
-/

namespace Scenery

/-- How important a record is. -/
inductive Level where
  | warn
  | info
  | debug
  | trace
  deriving DecidableEq, Repr, Inhabited

namespace Level

def name : Level → String
  | warn => "WARN"
  | info => "INFO"
  | debug => "DEBUG"
  | trace => "TRACE"

/-- How much is shown down to this level: a larger rank shows more. -/
def rank : Level → Nat
  | warn => 2
  | info => 3
  | debug => 4
  | trace => 5

end Level

structure Record where
  level : Level
  target : String
  message : String
  deriving DecidableEq, Repr, Inhabited

/-- What an operation reports. -/
inductive Notice where
  /-- A record that is always passed on. -/
  | record (entry : Record)
  /-- A warning that is passed on once. -/
  | warning (component message : String)
  deriving DecidableEq, Repr, Inhabited

namespace Notice

/-- A notice for those who follow the details of an operation. -/
def debug (target message : String) : Notice :=
  record ⟨.debug, target, message⟩

/-- A notice for those who follow every step of an operation. -/
def trace (target message : String) : Notice :=
  record ⟨.trace, target, message⟩

/-- A notice about the course of a whole run. -/
def info (target message : String) : Notice :=
  record ⟨.info, target, message⟩

end Notice

/-- The texts of the warnings that were shown, the latest first. -/
structure Registry where
  shown : List String := []
  deriving DecidableEq, Repr, Inhabited

namespace Registry

/-- The text that a warning is remembered by. -/
def key (component message : String) : String :=
  "[" ++ component ++ "] " ++ message

def empty : Registry := {}

/-- Whether the warning was shown before. -/
def wasWarned (registry : Registry) (component message : String) : Bool :=
  registry.shown.contains (key component message)

/-- Remember a warning; it yields a record unless it was shown before. -/
def warn (registry : Registry) (component message : String) :
    Registry × Option Record :=
  if registry.wasWarned component message then
    (registry, none)
  else
    (⟨key component message :: registry.shown⟩, some ⟨.warn, component, message⟩)

/-- The record that a notice yields, and the registry after it. -/
def note (registry : Registry) : Notice → Registry × Option Record
  | .record entry => (registry, some entry)
  | .warning component message => registry.warn component message

/-- The records that a list of notices yields in order, and the registry after it. -/
def replay (registry : Registry) : List Notice → Registry × List Record
  | [] => (registry, [])
  | notice :: rest =>
    let (next, entry) := registry.note notice
    let (last, entries) := next.replay rest
    (last, entry.toList ++ entries)

@[simp] theorem replay_nil (registry : Registry) :
    registry.replay [] = (registry, []) := rfl

theorem replay_append (registry : Registry) (first second : List Notice) :
    registry.replay (first ++ second) =
      (((registry.replay first).1.replay second).1,
        (registry.replay first).2 ++ ((registry.replay first).1.replay second).2) := by
  induction first generalizing registry with
  | nil => simp
  | cons notice rest ih => simp [replay, ih]

theorem wasWarned_warn (registry : Registry) (component message : String) :
    (registry.warn component message).1.wasWarned component message = true := by
  simp only [warn]
  split
  · assumption
  · simp [wasWarned]

end Registry

end Scenery
