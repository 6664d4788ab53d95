import LineConsole.Text.Basic

/-!
# Faults

The causes for which an operation of the console is refused. Each is a value of its own; the
wording is in one place, `Fault.message`.

## Main definitions

* `Fault` — why an operation was refused
* `Fault.message` — what is said about it
-/

namespace LineConsole

/-- Why an operation was refused. -/
inductive Fault where
  /-- A selection that names no candidate. -/
  | noSuchCandidate
  /-- A selection beyond every list that could be held. -/
  | indexTooLarge
  /-- An attempt to move the anchor of a completion request. -/
  | anchorFixed
  /-- A cursor placed after the end of its text. -/
  | cursorBeyondText (cursor : Int) (length : Nat)
  /-- A read from a script without unread lines. -/
  | scriptExhausted
  /-- A line asked of a stream that reported its end. -/
  | inputClosed
  /-- An interpreter that gave up on a line. -/
  | executionFailed (message : Text)
  /-- A log level that was given as nothing at all. -/
  | levelWithoutText
  /-- A trigger name that was given as nothing at all. -/
  | triggerWithoutText
deriving DecidableEq, Repr

namespace Fault

/-- What is said about a fault. -/
def message : Fault → String
  | noSuchCandidate => "tuple index out of range"
  | indexTooLarge => "cannot fit 'int' into an index-sized integer"
  | anchorFixed => "anchor_position is fixed for the life of a request"
  | cursorBeyondText cursor length => s!"cursor_position={cursor}, len_text={length}"
  | scriptExhausted => "Script exhausted"
  | inputClosed => "Input stream closed"
  | executionFailed message => String.ofList message
  | levelWithoutText => "'list' object has no attribute 'upper'"
  | triggerWithoutText => "'list' object has no attribute 'strip'"

end Fault

end LineConsole
