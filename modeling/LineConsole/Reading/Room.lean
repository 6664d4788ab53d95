import LineConsole.InputStream.Journal
import LineConsole.Reading.Crew

/-!
# Reading rooms

A stream with the crew that reads from it. Steps are taken singly or in bursts; after each burst
the crew runs until every thread rests. What a burst shows is what its steps answered, what the
threads reported, what was written and what the stream noted in its journal.

## Main definitions

* `Room` — a stream and its crew
* `Room.Step`, `Room.Answer` — what can be done in a room and what it answers
* `Room.Visit` — what a burst shows
* `Room.burst` — steps with no pause between them, then a pause
-/

namespace LineConsole

/-- A stream and the threads that read from it. -/
structure Room where
  stream : InputStream := {}
  crew : Crew := []

namespace Room

/-- What can be done in a room. -/
inductive Step where
  | send (thread : ThreadId) (errand : Errand)
  | write (text : Text)
  | append (text : Text)
  | close
  | clear
  | askClosed
  | cancel (handle : String)
  | askCancelled (handle : String)
  | interrupt (thread : ThreadId)
deriving DecidableEq, Repr

/-- What a step answers. -/
inductive Answer where
  | nothing
  | truth (value : Bool)
  | count (value : Nat)
deriving DecidableEq, Repr

/-- What a burst of steps shows. -/
structure Visit where
  answers : List Answer := []
  written : List Text := []
  events : List InputStream.Event := []
  reports : List (ThreadId × Report) := []

/-- One step, with no pause after it. -/
def step (room : Room) : Step → Room × Visit
  | .send thread errand =>
    ({ room with crew := room.crew.send thread errand }, { answers := [.nothing] })
  | .write text => (room, { answers := [.nothing], written := [text] })
  | .append text => apply (room.stream.append text) .nothing
  | .close => apply room.stream.close .nothing
  | .clear => apply room.stream.clear .nothing
  | .askClosed => (room, { answers := [.truth room.stream.isClosed] })
  | .cancel handle => apply (room.stream.cancel handle, []) .nothing
  | .askCancelled handle => (room, { answers := [.truth (room.stream.isCancelled handle)] })
  | .interrupt thread =>
    apply (room.stream.interrupt thread) (.count (room.stream.interruptible thread).length)
where
  /-- The room after an operation on its stream. -/
  apply (result : InputStream × List InputStream.Event) (answer : Answer) : Room × Visit :=
    ({ room with stream := result.1 }, { answers := [answer], events := result.2 })

/-- Steps with no pause between them. -/
def steps (room : Room) : List Step → Room × Visit
  | [] => (room, {})
  | first :: others =>
    let (room, visit) := room.step first
    let (room, later) := room.steps others
    (room, ⟨visit.answers ++ later.answers, visit.written ++ later.written,
      visit.events ++ later.events, visit.reports ++ later.reports⟩)

/-- Steps with no pause between them, and then a pause in which the crew comes to rest. -/
def burst (room : Room) (list : List Step) : Room × Visit :=
  let (room, visit) := room.steps list
  let (stream, crew, reports) := room.crew.settle room.stream
  (⟨stream, crew⟩, { visit with reports := visit.reports ++ reports })

end Room

end LineConsole
