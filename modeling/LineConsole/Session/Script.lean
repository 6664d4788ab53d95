import LineConsole.Session.Basic

/-!
# Sessions over a script

A script stands in for a user: it holds the lines to be read and keeps what is shown. A session
over a script asks for each line with its prompt; when the script is exhausted it has asked once
more than it was answered.

## Main definitions

* `Script` — unread lines and shown texts
* `Script.read`, `Script.write` — a line with a prompt, and a text
* `Session.follow` — a session going on over a list of lines
* `Session.runScript` — a whole session over a script
-/

namespace LineConsole

/-- Lines to be read, and the prompts and texts that were shown. -/
structure Script where
  unread : List Text := []
  shown : List Text := []
deriving DecidableEq, Repr

namespace Script

/-- Shows a prompt and reads a line. -/
def read (script : Script) (prompt : Text) : Except Fault Text × Script :=
  let script := { script with shown := script.shown ++ [prompt] }
  match script.unread with
  | [] => (.error .scriptExhausted, script)
  | line :: unread => (.ok line, { script with unread })

/-- Shows a text. -/
def write (script : Script) (text : Text) : Script :=
  { script with shown := script.shown ++ [text] }

end Script

namespace Session

/-- A session after a stretch of lines: the session, what it made known, and the lines left. -/
structure Transcript where
  session : Session
  events : List Event
  unread : List Text
deriving DecidableEq, Repr

/-- A living session goes on over a list of lines: it prompts for each, and for one more when they
run out. -/
def follow (interpreter : Interpreter) (prompt : Text) (session : Session) :
    List Text → Transcript
  | [] =>
    if session.isAlive then
      let (session, events) := session.receive interpreter none
      ⟨session, .prompted prompt :: events, []⟩
    else ⟨session, [], []⟩
  | line :: lines =>
    if session.isAlive then
      let (session, events) := session.receive interpreter (some line)
      let later := follow interpreter prompt session lines
      { later with events := .prompted prompt :: events ++ later.events }
    else ⟨session, [], line :: lines⟩

/-- A whole session over a list of lines. -/
def overLines (interpreter : Interpreter) (prompt : Text) (lines : List Text) : Transcript :=
  let later := follow interpreter prompt opened lines
  { later with events := opening interpreter ++ later.events }

/-- A whole session over a script, which keeps what is shown. -/
def runScript (interpreter : Interpreter) (prompt : Text) (script : Script) :
    Transcript × Script :=
  let transcript := overLines interpreter prompt script.unread
  (transcript, ⟨transcript.unread, script.shown ++ shownTexts transcript.events⟩)

end Session

end LineConsole
