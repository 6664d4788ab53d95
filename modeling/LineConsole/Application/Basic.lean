import LineConsole.Panel.Step
import LineConsole.Session.Live

/-!
# The console application

The application runs a panel and an interpreter session on a thread of its own, which reads the
panel's stream and writes to its output pane. After each step the session runs until it waits for a
line. A session that ends because the panel was cleared is opened again over the reopened stream;
one that ends on a request to quit, or because the stream was closed, ends the application. When
the application ends, however it ends, the stream is closed and the session with it.

## Main definitions

* `Application` — the panel, the session, and whether the application runs
* `Application.launch` — the panel is put on the screen and the session opens
* `Application.attend` — the session runs, opens again or ends the application
* `Application.isAttended` — whether somebody waits for the next line
* `Application.exit` — the end
* `Key`, `Application.Step` — what the user can do
* `Application.perform` — one step
-/

namespace LineConsole

/-- The keys that the application knows, beside those that edit the input line. -/
inductive Key where
  | enter
  | tab
  | controlSpace
  | up
  | down
  | escape
  | controlC
  | controlQ
  | controlD
  | controlL
deriving DecidableEq, Repr

/-- Whether a key is the one that opens the popup. -/
def Trigger.isKey : Trigger → Key → Bool
  | tab, .tab => true
  | controlSpace, .controlSpace => true
  | _, _ => false

/-- A panel, its session, and whether the application runs. -/
structure Application where
  panel : Panel
  session : Session := {}
  running : Bool := true
deriving DecidableEq, Repr

namespace Application

/-- The application after some activity, the lines executed, the queries made and the warnings
given on the way. -/
structure Turn where
  application : Application
  executed : List Text := []
  queries : List Text := []
  warnings : List Completion.Warning := []
deriving DecidableEq, Repr

/-- The stream and the session that reads it. -/
def live (app : Application) : Live := ⟨app.panel.stdin, app.session⟩

/-- Takes over what the session did until it came to rest: its texts have been flushed to the output
pane by then, a line each and in the order in which they were written. -/
def follow (app : Application) (progress : Live.Progress) : Turn :=
  let (live, events) := progress
  let panel := (Session.writtenTexts events).foldl Panel.writeLine app.panel
  let panel := { panel with stdin := live.stream }
  { application := { app with panel, session := live.session }
    executed := Session.executedLines events }

/-- The session runs until it waits or has ended. -/
def settle (interpreter : Interpreter) (app : Application) : Turn :=
  app.follow (app.live.settle interpreter)

/-- Whether the session has come to its end. One that was broken off never does. -/
def sessionEnded (app : Application) : Bool :=
  !app.session.running && app.session.failure.isNone

/-- Whether an ended session is to end the application. -/
def isOver (app : Application) : Bool :=
  app.sessionEnded && (app.session.quitRequested || app.panel.stdin.isClosed)

/-- Whether somebody waits for the next line, if the application runs: its session lives, and has a
read in progress. An application that is neither over nor attended does not come to rest. -/
def isAttended (app : Application) : Bool :=
  !app.running || app.session.isAlive && app.panel.stdin.isReading Live.thread

/-- The application ends: the stream is closed, and the session finds it so. -/
def exit (interpreter : Interpreter) (app : Application) : Turn :=
  settle interpreter { app with panel := app.panel.close, running := false }

/-- Ends the application if it is over. -/
def exitIfOver (interpreter : Interpreter) (turn : Turn) : Turn :=
  if turn.application.isOver then
    let last := turn.application.exit interpreter
    { last with executed := turn.executed ++ last.executed }
  else turn

/-- The session runs; if it ended because the stream was reset it opens again; if it ended
otherwise so does the application. -/
def attend (interpreter : Interpreter) (app : Application) : Turn :=
  let turn := app.settle interpreter
  if turn.application.sessionEnded && !turn.application.isOver then
    let again := turn.application.follow (turn.application.live.begin interpreter)
    exitIfOver interpreter { again with executed := turn.executed ++ again.executed }
  else exitIfOver interpreter turn

/-- The panel is put on the screen and the session opens. -/
def launch (interpreter : Interpreter) (panel : Panel) : Turn :=
  let app : Application := { panel := panel.say (.ready panel.trigger) }
  exitIfOver interpreter (app.follow (app.live.begin interpreter))

/-- What the user can do while the application runs. -/
inductive Step where
  | onPanel (step : Panel.Step)
  | key (key : Key)
deriving DecidableEq, Repr

/-- What a key does. -/
inductive Effect where
  | onPanel (step : Panel.Step)
  | nothing
  | exit
deriving DecidableEq, Repr

/-- What a key does while a panel is on the screen. These are the bindings of the application alone.
Those that the input line brings along are edits of it, and not the business of a key here: with no
popup open, its own up and down move the cursor between the rows of an input that holds a break,
which is a `Panel.Step.moveTo`. -/
def ofKey (panel : Panel) : Key → Effect
  | .enter => .onPanel (if panel.field.pending.isSome then .accept else .commit)
  | .up => .onPanel (.move (-1))
  | .down => .onPanel (.move 1)
  | .escape => .onPanel .dismiss
  | .controlL => .onPanel .clear
  | .controlD => .onPanel .endInput
  | .controlC | .controlQ => .exit
  | key => if panel.trigger.isKey key then .onPanel .openPopup else .nothing

/-- A step on the panel, and a pause in which the session comes to rest. -/
def onPanel (interpreter : Interpreter) (app : Application) (step : Panel.Step) :
    Except Fault Turn := do
  let turn ← app.panel.perform interpreter.completions step
  return { attend interpreter { app with panel := turn.panel } with
    queries := turn.queries
    warnings := turn.warnings }

/-- One step, and a pause in which the session comes to rest. -/
def perform (interpreter : Interpreter) (app : Application) : Step → Except Fault Turn
  | .onPanel step => app.onPanel interpreter step
  | .key key =>
    match ofKey app.panel key with
    | .onPanel step => app.onPanel interpreter step
    | .nothing => .ok (app.attend interpreter)
    | .exit => .ok (app.exit interpreter)

end Application

end LineConsole
