import LineConsole.CommandLine.Flag
import LineConsole.Log
import LineConsole.Panel.Basic
import LineConsole.Session.Basic

/-!
# Settings

What a command line and the environment set. The environment gives the defaults, which are taken as
they are; a value on the command line has to be one of the flag's choices, and the last of several
values of a flag counts. A flag that carries the separator mark as its value is set to nothing.

## Main definitions

* `Environment` — what the environment sets
* `Settings`, `Settings.ofEnvironment` — the values in force, and those without any flag
* `Settings.ofArguments` — the settings of a command line, or why there are none
* `triggerOfName`, `levelOfName` — what the names of triggers and levels stand for
-/

namespace LineConsole.CommandLine

/-- What the environment sets. -/
structure Environment where
  mode : Option Text := none
  prompt : Option Text := none
  trigger : Option Text := none
  logLevel : Option Text := none
deriving DecidableEq, Repr

/-- The values in force; `none` is a value set to nothing. -/
structure Settings where
  mode : Option Text
  prompt : Option Text
  trigger : Option Text
  logLevel : Option Text
deriving DecidableEq, Repr

/-- Why a command line gives no settings. -/
inductive Exit where
  | help
  | refused (refusal : Refusal)
deriving DecidableEq, Repr

/-- The mode that reads plain input. -/
def legacyMode : Text := "legacy".toList

namespace Settings

/-- The settings without any flag. -/
def ofEnvironment (environment : Environment) : Settings where
  mode := some (environment.mode.getD "interactive".toList)
  prompt := some (environment.prompt.getD Session.defaultPrompt)
  trigger := some (environment.trigger.getD "tab".toList)
  logLevel := some (environment.logLevel.getD "WARNING".toList)

/-- Sets what a flag sets. -/
def set (settings : Settings) (value : Option Text) : Flag → Settings
  | .help => settings
  | .mode => { settings with mode := value }
  | .prompt => { settings with prompt := value }
  | .trigger => { settings with trigger := value }
  | .logLevel => { settings with logLevel := value }

/-- Gives a flag a value, if it admits it. -/
def give (settings : Settings) (flag : Flag) (value : Text) : Except Exit Settings :=
  if value = separatorMark then .ok (settings.set none flag)
  else if flag.choices ≠ [] ∧ String.ofList value ∉ flag.choices then
    .error (.refused (.badChoice flag value))
  else .ok (settings.set (some value) flag)

/-- How the flag for help ends the command line: it wants no value, though the short flag may be
repeated directly behind itself. -/
def helpExit (spelling : Text) : Option Text → Exit
  | none => .help
  | some value =>
    let rest := if spelling.length = 2 then value.dropWhile (· = 'h') else value
    if rest = [] ∧ value ≠ [] then .help else .refused (.ignoredValue .help rest)

/-- The settings after the tokens of a command line; `extras` are the arguments so far that mean
nothing. -/
def read (settings : Settings) (extras : List Text) : List Token → Except Exit Settings
  | [] => if extras = [] then .ok settings else .error (.refused (.unrecognized extras))
  | .plain text :: others | .unknown text :: others => settings.read (extras ++ [text]) others
  | .separator :: others => settings.read (extras ++ [separatorMark]) others
  | .flag .help spelling value :: _ => .error (helpExit spelling value)
  | .flag flag _ (some value) :: others => do
    let settings ← settings.give flag value
    settings.read extras others
  | .flag flag _ none :: .plain value :: others => do
    let settings ← settings.give flag value
    settings.read extras others
  | .flag flag _ none :: _ => .error (.refused (.missingValue flag))

/-- The settings of a command line in an environment. -/
def ofArguments (environment : Environment) (arguments : List Text) : Except Exit Settings :=
  match tokens arguments with
  | .error refusal => .error (.refused refusal)
  | .ok tokens => (ofEnvironment environment).read [] tokens

end Settings

/-- The key that a trigger's name stands for: the tab key unless it names the other. -/
def triggerOfName (name : Text) : Trigger :=
  if name.strip.map Char.toLower = "ctrl-space".toList then .controlSpace else .tab

/-- The level that a level's name stands for: warnings if it names none. -/
def levelOfName (name : Text) : Log.Level := (Log.Level.ofName? name).getD .warning

end LineConsole.CommandLine
