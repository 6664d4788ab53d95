import LineConsole.CommandLine.Run

/-!
# The program

The outermost layer: arguments, environment and standard streams. In legacy mode a session is
pumped from standard input, line by line as they come. On a panel, every line of standard input is
typed and entered, and what is new in the output pane is printed; nothing is drawn.

## Main definitions

* `main` — the program
-/

namespace LineConsole.Main

/-- Prints text as it is. -/
def put (text : Text) : IO Unit := do
  let output ← IO.getStdout
  output.putStr (String.ofList text)
  output.flush

/-- The next line of standard input without its LF; nothing at its end. -/
def nextLine : IO (Option Text) := do
  let line ← (← IO.getStdin).getLine
  return if line.isEmpty then none else some (Text.chopFeed line.toList)

/-- What a pump has shown since it had known `count` events. -/
def newEvents (count : Nat) (pump : Pump) : Text :=
  CommandLine.plainOutput (pump.events.drop count)

/-- Pumps a session from standard input until it ends. -/
partial def pumpOn (prompt : Text) (pump : Pump) : IO Unit := do
  unless pump.isAlive do return
  put prompt
  let later := match ← nextLine with
    | some line => pump.feed CommandLine.demo [] line
    | none => pump.finish CommandLine.demo []
  put (newEvents pump.events.length later)
  pumpOn prompt later

/-- The steps that type and enter a line. -/
def enterLine (line : Text) : List Application.Step := [.onPanel (.type line), .key .enter]

/-- Prints what a step has added to the output pane. -/
def putNew (before after : Application) : IO Unit :=
  put (after.panel.output.drop before.panel.output.length)

/-- Takes steps while the application runs. -/
def take (app : Application) : List Application.Step → IO Application
  | [] => pure app
  | step :: steps =>
    match app.perform CommandLine.demo step with
    | .error fault => throw (IO.userError fault.message)
    | .ok turn => do
      putNew app turn.application
      if turn.application.running then take turn.application steps else pure turn.application

/-- Takes the lines of standard input as the user's, until the application ends. -/
partial def playOn (app : Application) : IO Unit := do
  unless app.running do return
  let steps := match ← nextLine with
    | some line => enterLine line
    | none => [.key .controlD]
  playOn (← take app steps)

/-- Prints an error message in the form of the usage text, and gives the exit code. -/
def refuse (message : String) : IO UInt32 := do
  IO.eprintln (CommandLine.programName ++ ": error: " ++ message)
  return 2

/-- What the environment sets. -/
def environment : IO CommandLine.Environment := do
  let value (name : String) : IO (Option Text) := do
    return (← IO.getEnv (CommandLine.programName.toUpper ++ "_" ++ name)).map String.toList
  return ⟨← value "MODE", ← value "PROMPT", ← value "TRIGGER", ← value "LOG_LEVEL"⟩

/-- The program under its settings. -/
def runSettings (settings : CommandLine.Settings) : IO UInt32 := do
  if settings.logLevel.isNone then return ← refuse Fault.levelWithoutText.message
  if settings.mode = some CommandLine.legacyMode then
    let pump := Pump.start CommandLine.demo
    put (newEvents 0 pump)
    pumpOn (CommandLine.promptOf settings.prompt).shown pump
    return 0
  match settings.trigger with
  | none => refuse Fault.triggerWithoutText.message
  | some name =>
    let panel := CommandLine.panelOf settings.prompt (CommandLine.triggerOfName name)
    let launched := Application.launch CommandLine.demo panel
    put launched.application.panel.output
    playOn launched.application
    return 0

end LineConsole.Main

/-- The program. -/
def main (arguments : List String) : IO UInt32 := do
  let environment ← LineConsole.Main.environment
  match LineConsole.CommandLine.Settings.ofArguments environment (arguments.map String.toList) with
  | .error .help =>
    IO.print LineConsole.CommandLine.usage
    return 0
  | .error (.refused refusal) => LineConsole.Main.refuse refusal.message
  | .ok settings => LineConsole.Main.runSettings settings
