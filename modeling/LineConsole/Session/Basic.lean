import LineConsole.Interpreter.Basic
import LineConsole.Reading.Program
import LineConsole.Text.Blank

/-!
# Interpreter sessions

A session reads lines and hands them to an interpreter. It opens with a banner, and closes with a
farewell when a line asks to quit or the lines run out. A line is stripped of blanks; a blank line
is passed over, a line that begins with a colon is a command to the session, and any other line is
executed. An interpreter that gives up on a line breaks the session off: it says no farewell and
never notices that it is no longer running.

A session is a reading program, so the same definition runs over a stream and over a script.

## Main definitions

* `Session.Line` — what a line is to a session, read off by `Line.of`
* `Session` — a session's two flags, and what broke it off
* `Session.Event` — what a session makes known
* `Session.opening`, `Session.receive` — how a session opens, and goes on with a line
* `Session.program` — a session as a reading program
-/

namespace LineConsole

namespace Session

/-- What a line is to a session. -/
inductive Line where
  | blank
  | quit
  | help
  /-- A command that the session does not know. -/
  | unknown (command : Text)
  /-- A line for the interpreter. -/
  | statement (text : Text)
deriving DecidableEq, Repr

/-- The commands that end a session. -/
def quitWords : List Text := ["q".toList, "quit".toList, "exit".toList]

/-- The commands that ask for help. -/
def helpWords : List Text := ["h".toList, "help".toList]

/-- What a command, the text behind the colon, is to a session. -/
def Line.ofCommand (command : Text) : Line :=
  if command.strip ∈ quitWords then .quit
  else if command.strip ∈ helpWords then .help
  else .unknown command

/-- What a line is to a session. -/
def Line.of (line : Text) : Line :=
  match line.strip with
  | [] => .blank
  | ':' :: command => .ofCommand command
  | text => .statement text

/-- What a session makes known. -/
inductive Event where
  /-- The user was asked for a line. -/
  | prompted (prompt : Text)
  /-- A line was given to the interpreter. -/
  | executed (line : Text)
  /-- A text was shown. -/
  | wrote (text : Text)
deriving DecidableEq, Repr

/-- The line given to the interpreter, if an event is that. -/
def Event.executedLine? : Event → Option Text
  | executed line => some line
  | _ => none

/-- The text written, if an event is that. -/
def Event.writtenText? : Event → Option Text
  | wrote text => some text
  | _ => none

/-- The prompt or text shown, if an event is that. -/
def Event.shown? : Event → Option Text
  | prompted prompt => some prompt
  | wrote text => some text
  | executed _ => none

/-- The lines that events gave to the interpreter. -/
def executedLines (events : List Event) : List Text := events.filterMap Event.executedLine?

/-- The texts that events wrote. -/
def writtenTexts (events : List Event) : List Text := events.filterMap Event.writtenText?

/-- The prompts and texts that events showed. -/
def shownTexts (events : List Event) : List Text := events.filterMap Event.shown?

/-- The prompt of a session that was given none. -/
def defaultPrompt : Text := ">>> ".toList

/-- What a session shows when it opens. -/
def banner (title : Text) : Text := title ++ " interpreter. Type :help for commands.".toList

/-- What a session shows when it closes. -/
def farewell : Text := "Session ended.".toList

/-- What a session shows when asked for help. -/
def helpText : Text :=
  ("Commands:\n" ++
    "  :help            Show this help\n" ++
    "  :quit            Leave the interpreter\n" ++
    "Anything else is passed to the interpreter.").toList

/-- What a session shows for a command that it does not know. -/
def unknownText (command : Text) : Text := "Unknown command: :".toList ++ command

end Session

/-- The flags of a session, and what the interpreter said when it broke the session off. -/
structure Session where
  running : Bool := false
  quitRequested : Bool := false
  failure : Option Text := none
deriving DecidableEq, Repr

namespace Session

/-- A session that has just opened. -/
def opened : Session := { running := true }

/-- Whether a session still reads. -/
def isAlive (session : Session) : Bool := session.running && session.failure.isNone

/-- The session closed. -/
def closed (session : Session) : Session := { session with running := false }

/-- What an opening session makes known. -/
def opening (interpreter : Interpreter) : List Event := [.wrote (banner interpreter.title)]

/-- How a session goes on after the interpreter's reply to a line. -/
def afterReply (session : Session) (line : Text) : Reply → Session × List Event
  | .silent | .text [] => (session, [.executed line])
  | .text text => (session, [.executed line, .wrote text])
  | .failure message => ({ session with failure := some message }, [.executed line])

/-- How a session goes on with a line, or with the end of its lines. -/
def receive (interpreter : Interpreter) (session : Session) :
    Option Text → Session × List Event
  | none => (session.closed, [.wrote farewell])
  | some line =>
    match Line.of line with
    | .blank => (session, [])
    | .quit => ({ session.closed with quitRequested := true }, [.wrote farewell])
    | .help => (session, [.wrote helpText])
    | .unknown command => (session, [.wrote (unknownText command)])
    | .statement line => session.afterReply line (interpreter.execute line)

/-- A session as a program that reads lines while it is alive. -/
def program (interpreter : Interpreter) : Program Session Event where
  asks session := if session.isAlive then some { demand := .line } else none
  receive := receive interpreter

end Session

end LineConsole
