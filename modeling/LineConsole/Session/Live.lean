import LineConsole.InputStream.Schedule
import LineConsole.Session.Basic

/-!
# Sessions over a stream

A session on a thread of its own, reading from a stream that others write to. After each burst of
steps the session runs until it waits for text or has ended. A session that has ended can be
started again over the same stream.

## Main definitions

* `Live` — a stream and the session that reads it
* `Live.reopen`, `Live.settle`, `Live.begin` — the session opens, runs, or does both
* `Live.Step`, `Live.step` — what others can do
* `Live.burst` — steps with no pause between them, then a pause
-/

namespace LineConsole

/-- A stream and the session that reads it. -/
structure Live where
  stream : InputStream := {}
  session : Session := {}
deriving DecidableEq, Repr

namespace Live

/-- The thread that runs the session. -/
def thread : ThreadId := "interpreter"

/-- A stream and its session, and what the session made known on the way there. -/
abbrev Progress := Live × List Session.Event

/-- The session opens, and has yet to run. -/
def reopen (interpreter : Interpreter) (live : Live) : Progress :=
  ({ live with session := .opened }, Session.opening interpreter)

/-- The session runs until it waits or has ended. -/
def settle (interpreter : Interpreter) (live : Live) : Progress :=
  let scene := (Session.program interpreter).settle thread live.stream live.session
  (⟨scene.stream, scene.state⟩, scene.done)

/-- The session opens and runs until it waits or has ended. -/
def begin (interpreter : Interpreter) (live : Live) : Progress :=
  let (live, opening) := live.reopen interpreter
  let (live, events) := live.settle interpreter
  (live, opening ++ events)

/-- What others do to the stream of a session, and to a session that has ended. -/
inductive Step where
  | append (text : Text)
  | close
  | clear
  /-- Cancels the session's read. -/
  | interrupt
  /-- Opens the session again, if it has ended. -/
  | restart
deriving DecidableEq, Repr

/-- How many reads of the session an interrupt would cancel. -/
def interruptible (live : Live) : Nat := (live.stream.interruptible thread).length

/-- A stream and its session after some steps, what the session made known, and what the steps
answered. An interrupt answers with the number of reads it cancelled; no other step answers. -/
structure Turn where
  live : Live
  events : List Session.Event := []
  answers : List (Option Nat) := []
deriving DecidableEq, Repr

/-- The turn of an operation that only changes the stream. -/
def onStream (live : Live) (stream : InputStream) (answer : Option Nat) : Turn where
  live := { live with stream }
  answers := [answer]

/-- One step, with no pause after it. -/
def step (interpreter : Interpreter) (live : Live) : Step → Turn
  | .append text => live.onStream (live.stream.append text).1 none
  | .close => live.onStream live.stream.close.1 none
  | .clear => live.onStream live.stream.clear.1 none
  | .interrupt => live.onStream (live.stream.interrupt thread).1 (some live.interruptible)
  | .restart =>
    if live.session.isAlive then { live, answers := [none] }
    else
      let (live, events) := live.reopen interpreter
      { live, events, answers := [none] }

/-- Steps with no pause between them. -/
def steps (interpreter : Interpreter) (live : Live) : List Step → Turn
  | [] => { live }
  | first :: others =>
    let turn := live.step interpreter first
    let later := steps interpreter turn.live others
    ⟨later.live, turn.events ++ later.events, turn.answers ++ later.answers⟩

/-- Steps with no pause between them, and then a pause in which the session runs. -/
def burst (interpreter : Interpreter) (live : Live) (list : List Step) : Turn :=
  let turn := live.steps interpreter list
  let (live, events) := turn.live.settle interpreter
  { turn with live, events := turn.events ++ events }

end Live

end LineConsole
