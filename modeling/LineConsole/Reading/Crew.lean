import LineConsole.Reading.Errand

/-!
# Crews

The threads that read from one stream, each on its errand. After an operation on the stream every
thread runs until it rests. A thread that is served wakes no other, so one round is enough.

## Main definitions

* `Crew` — the threads and their errands
* `Crew.send` — sends a thread on an errand
* `Crew.settle` — one round
* `Crew.blocked` — the threads still on their errands
-/

namespace LineConsole

/-- The threads of a stream, in the order in which they were first heard of. -/
abbrev Crew := List (ThreadId × Option Errand)

namespace Crew

/-- Sends a thread on an errand, unless it is on one. -/
def send (crew : Crew) (thread : ThreadId) (errand : Errand) : Crew :=
  match crew with
  | [] => [(thread, some errand)]
  | (name, current) :: others =>
    if name = thread then (name, current.or (some errand)) :: others
    else (name, current) :: send others thread errand

/-- Every thread in turn runs until it rests. -/
def settle (stream : InputStream) : Crew → InputStream × Crew × List (ThreadId × Report)
  | [] => (stream, [], [])
  | (thread, errand) :: others =>
    let scene := Errand.program.settle thread stream errand
    let (stream, crew, reports) := settle scene.stream others
    (stream, (thread, scene.state) :: crew, scene.done.map (Prod.mk thread) ++ reports)

/-- The threads still on their errands, in the order of their names. -/
def blocked (crew : Crew) : List ThreadId :=
  ((crew.filter fun member => member.2.isSome).map Prod.fst).mergeSort

end Crew

end LineConsole
