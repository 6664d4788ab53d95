import LineConsole.Fault
import LineConsole.Reading.Program

/-!
# Reading errands

What a thread can be sent to read: one read of characters, one line, every line up to the end of
the stream, or one line that must be there. A thread without an errand reads nothing.

## Main definitions

* `Errand` — what a thread is sent to read
* `Finish` — how an errand ends
* `Report` — what a thread makes known while on an errand and at its end
* `Errand.program` — the errands as a reading program
-/

namespace LineConsole

/-- What a thread is sent to read. -/
inductive Errand where
  /-- One read of characters. -/
  | read (size : Int) (handle : Option String)
  /-- One line. -/
  | readLine (handle : Option String)
  /-- Line after line, up to the end of the stream. -/
  | eachLine
  /-- One line; the end of the stream is a fault. -/
  | requireLine
deriving DecidableEq, Repr

/-- How an errand ends. -/
inductive Finish where
  | text (text : Text)
  | noLine
  | everyLine
  | fault (fault : Fault)
deriving DecidableEq, Repr

/-- What a thread makes known: a line on the way, or how its errand has ended. -/
inductive Report where
  | line (text : Text)
  | finished (finish : Finish)
deriving DecidableEq, Repr

namespace Errand

/-- The read an errand wants next. -/
def ask : Errand → Ask
  | read size handle => ⟨.ofSize size, handle⟩
  | readLine handle => ⟨.line, handle⟩
  | eachLine | requireLine => { demand := .line }

/-- How an errand goes on with the result of its read. -/
def receive : Errand → Option Text → Option Errand × Report
  | read _ _, result => (none, .finished (.text (result.getD [])))
  | readLine _, some line => (none, .finished (.text line))
  | readLine _, none => (none, .finished .noLine)
  | eachLine, some line => (some eachLine, .line line)
  | eachLine, none => (none, .finished .everyLine)
  | requireLine, some line => (none, .finished (.text line))
  | requireLine, none => (none, .finished (.fault .inputClosed))

/-- A thread's errand, if it has one, as a reading program. -/
def program : Program (Option Errand) Report where
  asks errand := errand.map ask
  receive
    | some errand, result =>
      let (next, report) := errand.receive result
      (next, [report])
    | none, _ => (none, [])

end Errand

end LineConsole
