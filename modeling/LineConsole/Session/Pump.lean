import LineConsole.Session.Live

/-!
# Pumped sessions

A session over a stream into which a pump writes the lines of a plain input, one at a time. The
pump waits until the session is blocked, prompts, and appends the line with an LF; when the input
runs out it has prompted once more and closes the stream. Once the session has ended the pump
prompts no more.

## Main definitions

* `Pump` — the session and what the pump has shown
* `Pump.start`, `Pump.feed`, `Pump.finish` — the opening, one line, and the end of the input
* `Pump.run` — a whole input
-/

namespace LineConsole

/-- A session fed by a pump, with the prompts and texts shown and the lines executed so far. -/
structure Pump where
  live : Live
  events : List Session.Event
deriving DecidableEq, Repr

namespace Pump

/-- The session opens on an empty stream. -/
def start (interpreter : Interpreter) : Pump :=
  let (live, events) := ({} : Live).begin interpreter
  ⟨live, events⟩

/-- Whether the session still reads. -/
def isAlive (pump : Pump) : Bool := pump.live.session.isAlive

/-- Prompts, does something to the stream, and lets the session run. -/
def prompting (interpreter : Interpreter) (prompt : Text) (pump : Pump) (step : Live.Step) :
    Pump :=
  let turn := pump.live.burst interpreter [step]
  ⟨turn.live, pump.events ++ .prompted prompt :: turn.events⟩

/-- Prompts and appends a line, if the session still reads. -/
def feed (interpreter : Interpreter) (prompt : Text) (pump : Pump) (line : Text) : Pump :=
  if pump.isAlive then pump.prompting interpreter prompt (.append (line ++ ['\n'])) else pump

/-- Prompts, finds no line and closes the stream, if the session still reads. -/
def finish (interpreter : Interpreter) (prompt : Text) (pump : Pump) : Pump :=
  if pump.isAlive then pump.prompting interpreter prompt .close else pump

/-- Feeds line after line, and finishes if the session still reads when they run out. Gives the
lines that were never fed. -/
def feedAll (interpreter : Interpreter) (prompt : Text) (pump : Pump) :
    List Text → Pump × List Text
  | [] => (pump.finish interpreter prompt, [])
  | line :: lines =>
    if pump.isAlive then (pump.feed interpreter prompt line).feedAll interpreter prompt lines
    else (pump, line :: lines)

/-- A whole input: the pump at the end, and the lines that were never fed. -/
def run (interpreter : Interpreter) (prompt : Text) (lines : List Text) : Pump × List Text :=
  (start interpreter).feedAll interpreter prompt lines

end Pump

end LineConsole
