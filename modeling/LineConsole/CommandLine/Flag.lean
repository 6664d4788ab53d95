import LineConsole.Text.Numeral
import LineConsole.Text.Quoted

/-!
# Flags

The flags of the command line and how an argument is told to be one. A long flag may be shortened
to any beginning that no other flag has, and may carry its value behind an equals sign; the short
flag may carry one directly behind it. Everything behind a lone `--` is no flag.

## Main definitions

* `Flag`, `Flag.spellings` — the flags and how they are spelled
* `Refusal` — why a command line is refused
* `Token`, `tokens` — what the arguments of a command line are
-/

namespace LineConsole.CommandLine

/-- The flags. All but the first want a value. -/
inductive Flag where
  | help
  | mode
  | prompt
  | trigger
  | logLevel
deriving DecidableEq, Repr

namespace Flag

/-- How a flag is spelled. -/
def spellings : Flag → List String
  | help => ["-h", "--help"]
  | mode => ["--mode"]
  | prompt => ["--prompt"]
  | trigger => ["--trigger"]
  | logLevel => ["--log-level"]

/-- The values a flag admits; any value, if there are none. -/
def choices : Flag → List String
  | mode => ["interactive", "legacy"]
  | trigger => ["tab", "ctrl-space"]
  | help | prompt | logLevel => []

/-- The flags in the order in which they are listed. -/
def all : List Flag := [help, mode, prompt, trigger, logLevel]

/-- All spellings with their flags. -/
def table : List (Text × Flag) :=
  all.flatMap fun flag => flag.spellings.map fun spelling => (spelling.toList, flag)

/-- The name of a flag in messages. -/
def name (flag : Flag) : String := "/".intercalate flag.spellings

end Flag

/-- Why a command line is refused. -/
inductive Refusal where
  /-- A shortened flag that several flags begin with. -/
  | ambiguous (written : Text) (candidates : List Text)
  /-- A flag whose value is missing. -/
  | missingValue (flag : Flag)
  /-- A flag with a value that it does not want. -/
  | ignoredValue (flag : Flag) (value : Text)
  /-- A flag with a value that it does not admit. -/
  | badChoice (flag : Flag) (value : Text)
  /-- Arguments that mean nothing. -/
  | unrecognized (arguments : List Text)
deriving DecidableEq, Repr

/-- What is said about a refusal. -/
def Refusal.message : Refusal → String
  | ambiguous written candidates =>
    let names := ", ".intercalate (candidates.map String.ofList)
    s!"ambiguous option: {String.ofList written} could match {names}"
  | missingValue flag => s!"argument {flag.name}: expected one argument"
  | ignoredValue flag value =>
    s!"argument {flag.name}: ignored explicit argument {String.ofList value.quoted}"
  | badChoice flag value =>
    let choices := flag.choices.map fun choice => String.ofList (Text.quoted choice.toList)
    let choices := ", ".intercalate choices
    s!"argument {flag.name}: invalid choice: {String.ofList value.quoted} (choose from {choices})"
  | unrecognized arguments =>
    "unrecognized arguments: " ++ " ".intercalate (arguments.map String.ofList)

/-- What an argument of a command line is. -/
inductive Token where
  /-- No flag: a value, or nothing known. -/
  | plain (text : Text)
  /-- The first `--`. -/
  | separator
  /-- A flag as it was spelled out, with the value it carries, if any. -/
  | flag (flag : Flag) (spelling : Text) (value : Option Text)
  /-- An argument that begins like a flag and is none. -/
  | unknown (text : Text)
deriving DecidableEq, Repr

/-- The text before and after the first equals sign, if there is one. -/
def splitEquals (written : Text) : Option (Text × Text) :=
  match written.dropWhile (· ≠ '=') with
  | '=' :: value => some (written.takeWhile (· ≠ '='), value)
  | _ => none

/-- The flags that an argument may stand for, though it spells none of them out: long flags by a
beginning, the short one by a value directly behind it. -/
def shortened (written : Text) : List Token :=
  match written with
  | '-' :: '-' :: _ =>
    let (start, value) := match splitEquals written with
      | some (start, value) => (start, some value)
      | none => (written, none)
    Flag.table.filterMap fun (spelling, flag) =>
      if start.isPrefixOf spelling then some (.flag flag spelling value) else none
  | _ =>
    Flag.table.filterMap fun (spelling, flag) =>
      if spelling = written.take 2 then some (.flag flag spelling (some (written.drop 2)))
      else if written.isPrefixOf spelling then some (.flag flag spelling none)
      else none

/-- The spelling that a token was recognised by. -/
def Token.spelling? : Token → Option Text
  | .flag _ spelling _ => some spelling
  | _ => none

/-- An argument that spells a flag out, alone or with a value behind an equals sign. -/
def spelledOut? (written : Text) : Option Token :=
  match Flag.table.lookup written with
  | some flag => some (.flag flag written none)
  | none =>
    match splitEquals written with
    | some (spelling, value) =>
      (Flag.table.lookup spelling).map fun flag => .flag flag spelling (some value)
    | none => none

/-- What an argument is, before any separator. -/
def token (written : Text) : Except Refusal Token :=
  match written with
  | [] | ['-'] => .ok (.plain written)
  | '-' :: _ =>
    match spelledOut? written with
    | some found => .ok found
    | none =>
      match shortened written with
      | [found] => .ok found
      | [] =>
        if written.isNegativeNumeral || written.contains ' ' then .ok (.plain written)
        else .ok (.unknown written)
      | several => .error (.ambiguous written (several.filterMap Token.spelling?))
  | _ => .ok (.plain written)

/-- The separator between flags and the rest. -/
def separatorMark : Text := "--".toList

/-- What the arguments of a command line are. -/
def tokens : List Text → Except Refusal (List Token)
  | [] => .ok []
  | written :: others =>
    if written = separatorMark then .ok (.separator :: others.map .plain)
    else do
      let first ← token written
      return first :: (← tokens others)

end LineConsole.CommandLine
