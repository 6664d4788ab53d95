import LineConsole.InputStream.Basic

/-!
# Reading programs

A program that reads is a state that says what it wants to read next and how it takes what it
gets. A thread runs such a program against a stream: it starts the read it wants, takes the result
when the read ends, and goes on with the next, until it has to wait or wants nothing more.

A read that is served takes characters out of the buffer, so a thread that keeps being served
comes to rest after as many turns as there are characters, one before them for the read that it was
woken from, and one after them for the read that finds nothing more.

## Main definitions

* `Ask` — what a program wants to read
* `Program` — what a program wants, and how it takes the result
* `Program.turn`, `Program.turns` — one section of a thread, and several
* `Program.settle` — a thread runs until it waits or wants nothing
-/

namespace LineConsole

/-- What a program wants to read, and through which handle if not one of the read's own. -/
structure Ask where
  demand : Demand
  handle : Option String := none
deriving DecidableEq, Repr

/-- A program over states `σ` that reads and leaves records `ε` of what it does. -/
structure Program (σ ε : Type) where
  /-- What the program wants to read, if anything. -/
  asks : σ → Option Ask
  /-- How the program takes the result of its read; no text is the end of the stream. -/
  receive : σ → Option Text → σ × List ε

/-- A stream, the state of a program that reads it, and what the program did on the way there. -/
structure Program.Scene (σ ε : Type) where
  stream : InputStream
  state : σ
  done : List ε

namespace Program

variable {σ ε : Type}

/-- One section of the thread that runs the program: its read in progress, or a new one. -/
def turn (p : Program σ ε) (thread : ThreadId) (stream : InputStream) (state : σ) : Scene σ ε :=
  let (stream, outcome) :=
    if stream.isReading thread then stream.resume thread
    else match p.asks state with
      | some ask => stream.start thread ask.demand ask.handle
      | none => (stream, .waits)
  match outcome with
  | .ended result =>
    let (state, done) := p.receive state result
    ⟨stream, state, done⟩
  | .waits => ⟨stream, state, []⟩

/-- A number of turns. A turn of a thread that rests changes nothing. -/
def turns (p : Program σ ε) (thread : ThreadId) :
    Nat → InputStream → σ → Scene σ ε
  | 0, stream, state => ⟨stream, state, []⟩
  | n + 1, stream, state =>
    let scene := p.turn thread stream state
    let later := p.turns thread n scene.stream scene.state
    { later with done := scene.done ++ later.done }

/-- Everything the thread does before it rests: the read it may have been woken from, all that the
buffer can serve, and the read it is left waiting in. -/
def settle (p : Program σ ε) (thread : ThreadId) (stream : InputStream) (state : σ) :
    Scene σ ε :=
  p.turns thread (stream.available + 2) stream state

end Program

end LineConsole
