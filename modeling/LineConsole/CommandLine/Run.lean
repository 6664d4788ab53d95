import LineConsole.Application.Play
import LineConsole.CommandLine.Settings
import LineConsole.CommandLine.Usage
import LineConsole.Interpreter.Echo
import LineConsole.Session.Pump

/-!
# Runs of the program

The program runs a console over the echo interpreter with a vocabulary for demonstrations: over
plain input, or on a panel. What it shows on the way is a value of the run.

## Main definitions

* `demo` — the interpreter that is run
* `plainOutput` — what a session shows when its prompts end no line and its texts do
* `Run` — what became of the program
* `run` — the program, from a command line, an environment, plain input and a user's moves
-/

namespace LineConsole.CommandLine

/-- The names that the demonstration completes. -/
def demoVocabulary : List Text :=
  ["print", "console.clear", "console.close", "console.prompt", "stream.append",
    "stream.available", "stream.read", "stream.readline"].map String.toList

/-- The interpreter for demonstrations. -/
def demo : Interpreter := Echo.interpreter demoVocabulary

/-- What an event puts on plain output: a prompt as it is, a text as a line. -/
def plainText : Session.Event → Text
  | .prompted prompt => prompt
  | .wrote text => text ++ ['\n']
  | .executed _ => []

/-- What a session shows on plain output. -/
def plainOutput (events : List Session.Event) : Text := events.flatMap plainText

/-- What became of the program. -/
inductive Run where
  /-- It showed how it is used, and ended. -/
  | helped
  | refused (refusal : Refusal)
  /-- A setting, or a step of the user, broke it off. -/
  | broken (fault : Fault)
  /-- A session over plain input. -/
  | legacy (level : Log.Level) (events : List Session.Event)
  /-- A play on a panel. -/
  | interactive (level : Log.Level) (panel : Panel) (play : Application.Play)
deriving DecidableEq, Repr

namespace Run

/-- The exit code of a run that ended on its command line. -/
def exitCode? : Run → Option Nat
  | helped => some 0
  | refused _ => some 2
  | _ => none

/-- What is shown when the user breaks the program off. -/
def interruption : Text := "\nInterrupted, shutting down...\n".toList

/-- What a run puts on plain output. -/
def output : Run → Text
  | helped => usage.toList
  | refused _ | broken _ => []
  | legacy _ events => plainOutput events
  | interactive _ _ play => if play.brokenOff then interruption else []

end Run

/-- A prompt from its setting. -/
def promptOf (setting : Option Text) : Prompt := setting.elim .missing .text

/-- A panel with a prompt and a trigger. -/
def panelOf (prompt : Option Text) (trigger : Trigger) : Panel :=
  { prompt := promptOf prompt, trigger }

/-- The program under its settings. -/
def runSettings (settings : Settings) (input : Text) (moves : List Application.Move) : Run :=
  match settings.logLevel with
  | none => .broken .levelWithoutText
  | some name =>
    let level := levelOfName name
    if settings.mode = some legacyMode then
      let (pump, _) := Pump.run demo (promptOf settings.prompt).shown input.feedLines
      .legacy level pump.events
    else match settings.trigger with
      | none => .broken .triggerWithoutText
      | some name =>
        let panel := panelOf settings.prompt (triggerOfName name)
        match Application.play demo panel moves with
        | .error fault => .broken fault
        | .ok play => .interactive level panel play

/-- The program. -/
def run (environment : Environment) (arguments : List Text) (input : Text)
    (moves : List Application.Move) : Run :=
  match Settings.ofArguments environment arguments with
  | .error .help => .helped
  | .error (.refused refusal) => .refused refusal
  | .ok settings => runSettings settings input moves

end LineConsole.CommandLine
