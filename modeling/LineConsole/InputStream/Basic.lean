import LineConsole.InputStream.Serving

/-!
# Blocking input streams

A stream of characters between the threads that append text and the threads that read it. A read
takes what is buffered and sleeps when it needs more. It ends without more when the stream is
closed and drained, when the stream is reset while the read is in progress, or when the read is
cancelled through its handle; each of these is the end of the stream for that read, and a line cut
short by it is returned as it stands.

The stream is guarded by one lock. A thread holds it for a *section*: a whole operation, or one
waking of a read, from taking the lock to sleeping or ending. This file describes a section at a
time, so a list of sections in any order is a schedule. Sleeping readers run again only after an
operation has woken them, and cancelling by hand has two halves, for the flag is raised outside
the lock.

## Main definitions

* `Handle` — what a read can be cancelled through
* `InputStream` — the stream with its reads in progress
* `InputStream.Call` — a read in progress
* `InputStream.advance` — one section of a read
* `InputStream.start`, `resume`, `append`, `close`, `clear`, `interrupt`, `flag`, `alert` — the
  sections
* `InputStream.Event` — what a section makes known

## Main results

* `start_of_nothing` — a read of no characters ends at once and leaves the stream alone
* `advance_of_released` — a released read takes nothing and ends with what it has
-/

namespace LineConsole

/-- The ident of a thread, written as a name. Threads that live at the same time have different
idents. The ident of a thread that has ended may be given out again, and stands for the thread that
has it now. -/
abbrev ThreadId := String

/-- What a read can be cancelled through: a named handle, given by the caller and possibly shared
or used again, or a handle of the read's own. A thread has one read at a time, so the handle of a
read's own is known by its thread. -/
inductive Handle where
  | named (name : String)
  | own (thread : ThreadId)
deriving DecidableEq, Repr

namespace InputStream

/-- Whether a stream accepts text. -/
inductive Gate where
  | opened
  | closed
deriving DecidableEq, Repr

/-- A read in progress: who reads, through which handle, since which reset, for what, what it has
taken so far, and whether it has been woken. -/
structure Call where
  thread : ThreadId
  handle : Handle
  epoch : Nat
  demand : Demand
  taken : Text
  awake : Bool
deriving DecidableEq, Repr

namespace Call

/-- What a read returns when it ends short: the text it has taken, if there is any. -/
def soFar (call : Call) : Option Text := if call.taken = [] then none else some call.taken

/-- The read, woken. -/
def wake (call : Call) : Call := { call with awake := true }

end Call

/-- How a section leaves the read it served. No result means the end of the stream. -/
inductive Outcome where
  | ended (result : Option Text)
  | waits
deriving DecidableEq, Repr

/-- What a section makes known beside the state it leaves. -/
inductive Event where
  /-- A thread's read has ended. -/
  | ended (thread : ThreadId) (result : Option Text)
  /-- Text was appended to a closed stream. -/
  | dropped (count : Nat)
  /-- The stream was closed over so many unread characters. -/
  | closed (unread : Nat)
  /-- The stream was reset while so many handles were in use. -/
  | reset (waiting : Nat)
  /-- So many handles of a thread were cancelled. -/
  | interrupted (count : Nat) (thread : ThreadId)
deriving DecidableEq, Repr

end InputStream

open InputStream in
/-- A stream and the reads in progress on it. -/
structure InputStream where
  /-- The text that was accepted and not yet taken. -/
  buffer : Text := []
  gate : Gate := .opened
  /-- How often the stream was reset. -/
  epoch : Nat := 0
  /-- Whether an LF is to be skipped because a CR has just ended a line. -/
  skipLF : Bool := false
  /-- The handles in use, each once. -/
  waiters : List Handle := []
  /-- The handles that are cancelled. -/
  cancelled : List Handle := []
  /-- The thread that last used each handle, the latest use first. -/
  owners : List (Handle × ThreadId) := []
  /-- The named handles whose cancelling has raised the flag and not yet woken anyone. -/
  cancelling : List String := []
  /-- The reads in progress. -/
  calls : List Call := []
deriving DecidableEq, Repr

namespace InputStream

/-- How many characters are buffered. -/
def available (s : InputStream) : Nat := s.buffer.length

/-- Whether the stream is closed. -/
def isClosed (s : InputStream) : Bool := s.gate = .closed

/-- The read a thread has in progress. -/
def callOf? (s : InputStream) (thread : ThreadId) : Option Call :=
  s.calls.find? fun call => call.thread = thread

/-- Whether a thread has a read in progress. -/
def isReading (s : InputStream) (thread : ThreadId) : Bool := (s.callOf? thread).isSome

/-- Whether a named handle is cancelled. -/
def isCancelled (s : InputStream) (name : String) : Bool := s.cancelled.contains (.named name)

/-- Whether a read takes no further part in the stream: its handle is cancelled, or the stream was
reset since the read started. -/
def released (s : InputStream) (call : Call) : Bool :=
  s.cancelled.contains call.handle || call.epoch != s.epoch

/-- Wakes every reader. -/
def wakeAll (s : InputStream) : InputStream := { s with calls := s.calls.map Call.wake }

/-- Takes a thread's read off the list of reads in progress, for the length of a section. -/
def withdraw (s : InputStream) (thread : ThreadId) : InputStream :=
  { s with calls := s.calls.filter fun call => call.thread ≠ thread }

/-- Puts a handle out of use. A handle shared with another read in progress goes out of use with
the first of them to end. -/
def retire (s : InputStream) (handle : Handle) : InputStream :=
  { s with waiters := s.waiters.filter fun h => h ≠ handle }

/-- One section of a read that is off the list: it ends if it was released; else it takes what its
demand finds in the buffer, and ends if that satisfies it or the stream is closed; else it goes on
the list, asleep. -/
def advance (s : InputStream) (call : Call) : InputStream × Outcome :=
  if s.released call then (s.retire call.handle, .ended call.soFar)
  else
    let served := call.demand.serve s.skipLF s.buffer
    let s := { s with buffer := served.rest, skipLF := served.skipLF }
    let call := { call with taken := call.taken ++ served.taken, awake := false }
    if served.complete then (s.retire call.handle, .ended (some call.taken))
    else if s.isClosed then (s.retire call.handle, .ended call.soFar)
    else ({ s with calls := s.calls ++ [call] }, .waits)

/-- Puts a handle into use by a thread, which becomes its owner. -/
def attach (s : InputStream) (handle : Handle) (thread : ThreadId) : InputStream :=
  { s with waiters := s.waiters.insert handle, owners := (handle, thread) :: s.owners }

/-- The handle that a thread's read is given if it is to have one of its own: a new one, which is
not cancelled. -/
def renew (s : InputStream) (thread : ThreadId) : InputStream :=
  { s with cancelled := s.cancelled.filter fun handle => handle ≠ .own thread }

/-- A thread starts a read, through a named handle or one of its own. -/
def start (s : InputStream) (thread : ThreadId) (demand : Demand) (name : Option String) :
    InputStream × Outcome :=
  if demand = .chars 0 then (s, .ended none)
  else
    let (handle, s) := match name with
      | some name => (Handle.named name, s)
      | none => (.own thread, s.renew thread)
    (s.attach handle thread).advance ⟨thread, handle, s.epoch, demand, [], true⟩

/-- A thread's read, if it has been woken, runs again. -/
def resume (s : InputStream) (thread : ThreadId) : InputStream × Outcome :=
  match s.callOf? thread with
  | some call => if call.awake then (s.withdraw thread).advance call else (s, .waits)
  | none => (s, .waits)

/-- Text arrives. A closed stream drops it. -/
def append (s : InputStream) (text : Text) : InputStream × List Event :=
  if text = [] then (s, [])
  else if s.isClosed then (s, [.dropped text.length])
  else (wakeAll { s with buffer := s.buffer ++ text }, [])

/-- No more text is accepted; what is buffered can still be read. -/
def close (s : InputStream) : InputStream × List Event :=
  if s.isClosed then (s, [])
  else (wakeAll { s with gate := .closed }, [.closed s.available])

/-- Discards what is buffered, opens the stream, and releases every read in progress. -/
def clear (s : InputStream) : InputStream × List Event :=
  (wakeAll { s with buffer := [], gate := .opened, epoch := s.epoch + 1, skipLF := false },
    [.reset s.waiters.length])

/-- The handles in use that a thread used last and that are not cancelled. -/
def interruptible (s : InputStream) (thread : ThreadId) : List Handle :=
  s.waiters.filter fun handle =>
    s.owners.lookup handle = some thread && !s.cancelled.contains handle

/-- Cancels the reads of a thread. -/
def interrupt (s : InputStream) (thread : ThreadId) : InputStream × List Event :=
  match s.interruptible thread with
  | [] => (s, [])
  | handles => (wakeAll { s with cancelled := handles ++ s.cancelled },
      [.interrupted handles.length thread])

/-- The first half of cancelling through a named handle: the flag goes up, outside the lock. -/
def flag (s : InputStream) (name : String) : InputStream :=
  { s with cancelled := s.cancelled.insert (.named name), cancelling := name :: s.cancelling }

/-- The second half: whoever sleeps is woken, if the handle has ever been used. -/
def alert (s : InputStream) (name : String) : InputStream :=
  if name ∈ s.cancelling then
    let s := { s with cancelling := s.cancelling.erase name }
    if (s.owners.lookup (.named name)).isSome then s.wakeAll else s
  else s

/-- Both halves of cancelling, with nothing in between. -/
def cancel (s : InputStream) (name : String) : InputStream := (s.flag name).alert name

@[simp] theorem start_of_nothing (s : InputStream) (thread : ThreadId) (name : Option String) :
    s.start thread (.chars 0) name = (s, .ended none) := rfl

/-- A released read takes nothing and ends with what it has. -/
theorem advance_of_released {s : InputStream} {call : Call} (h : s.released call = true) :
    s.advance call = (s.retire call.handle, .ended call.soFar) := by
  simp [advance, h]

end InputStream

end LineConsole
