import LineConsole.InputStream.Basic

/-!
# Schedules

A schedule is a list of sections in the order in which they took the lock. Every order of the
operations of every thread, with every order of the readers' wakings between them, is one. A
section that cannot happen in a state, such as a second read of a thread that is reading or the
waking of a reader that nobody woke, leaves the state as it is.

## Main definitions

* `InputStream.Action` — the sections, named by who does what
* `InputStream.perform` — one section
* `InputStream.run` — a schedule
-/

namespace LineConsole.InputStream

/-- A section of some thread. -/
inductive Action where
  | start (thread : ThreadId) (demand : Demand) (handle : Option String)
  | resume (thread : ThreadId)
  | append (text : Text)
  | close
  | clear
  | interrupt (thread : ThreadId)
  | flag (handle : String)
  | alert (handle : String)
deriving DecidableEq, Repr

/-- What the outcome of a thread's section makes known. -/
def Outcome.events (thread : ThreadId) : Outcome → List Event
  | .ended result => [.ended thread result]
  | .waits => []

/-- One section. -/
def perform (s : InputStream) : Action → InputStream × List Event
  | .start thread demand handle =>
    if s.isReading thread then (s, [])
    else
      let (s, outcome) := s.start thread demand handle
      (s, outcome.events thread)
  | .resume thread =>
    let (s, outcome) := s.resume thread
    (s, outcome.events thread)
  | .append text => s.append text
  | .close => s.close
  | .clear => s.clear
  | .interrupt thread => s.interrupt thread
  | .flag handle => (s.flag handle, [])
  | .alert handle => (s.alert handle, [])

/-- The sections of a schedule, one after the other. -/
def run (s : InputStream) : List Action → InputStream × List Event
  | [] => (s, [])
  | action :: actions =>
    let (s, events) := s.perform action
    let (s, later) := s.run actions
    (s, events ++ later)

@[simp] theorem run_nil (s : InputStream) : s.run [] = (s, []) := rfl

theorem run_cons (s : InputStream) (action : Action) (actions : List Action) :
    s.run (action :: actions) =
      (((s.perform action).1.run actions).1,
        (s.perform action).2 ++ ((s.perform action).1.run actions).2) := rfl

/-- A schedule may be cut anywhere. -/
theorem run_append (s : InputStream) (before after : List Action) :
    s.run (before ++ after) =
      (((s.run before).1.run after).1, (s.run before).2 ++ ((s.run before).1.run after).2) := by
  induction before generalizing s with
  | nil => rfl
  | cons action actions ih => simp [run_cons, ih]

end LineConsole.InputStream
