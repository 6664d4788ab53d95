import LineConsole.InputField.Basic

/-!
# Interpreters

What the console needs of an interpreter: a title, completions for what has been typed, and a reply
to a line.

## Main definitions

* `Reply` — what an interpreter makes of a line
* `Interpreter` — a title, a source of completions and a reply to each line
-/

namespace LineConsole

/-- What an interpreter makes of a line: nothing to say, a text to show, or giving up. -/
inductive Reply where
  | silent
  | text (text : Text)
  | failure (message : Text)
deriving DecidableEq, Repr

/-- An interpreter of lines. -/
structure Interpreter where
  title : Text
  completions : Source
  execute : Text → Reply

end LineConsole
