import LineConsole.Proofs.Reading.Arrival
import LineConsole.Proofs.Session.Scripted

/-!
# Sessions that read, with interpreters that remember

A session over a script with an interpreter that may remember what it executed was described line
by line. Here the same session is a reading program, so that it can run over a stream: its state is
a stage, the session together with the lines its interpreter has executed. With an interpreter that
remembers nothing the stage shows a session, and the program is the session's own.

What a session does with a list of lines, and how it finishes when there are no more, is the same
over a stream and over a script, except that the script notes the prompts.

## Main definitions

* `Program.Shows` — a program that is another one when only a part of its state is looked at
* `Course.Stage`, `Course.program` — a session with an interpreter that may remember, as a reading
  program
* `Course.take`, `Course.finish` — a stage after a list of lines, and after the end of all lines
* `unprompted` — events without the prompts
* `Course.Stands` — how a session stands after the lines it has taken

## Main results

* `shows_constant` — an interpreter that remembers nothing makes the session's own program
* `follow_eq_runOut` — a session over a script takes its lines and finishes
* `take_opened` — what a session executes, and where it stops
-/

namespace LineConsole

namespace Program

variable {σ τ ε : Type} {p : Program σ ε} {f : σ → τ} {q : Program τ ε}

/-- The scene with a part of its state. -/
def Scene.map (f : σ → τ) (scene : Scene σ ε) : Scene τ ε :=
  ⟨scene.stream, f scene.state, scene.done⟩

/-- The first program is the second one when only a part of its state is looked at. -/
structure Shows (p : Program σ ε) (f : σ → τ) (q : Program τ ε) : Prop where
  asks (state : σ) : q.asks (f state) = p.asks state
  receive (state : σ) (result : Option Text) :
    q.receive (f state) result = (f (p.receive state result).1, (p.receive state result).2)

namespace Shows

theorem turn (shows : p.Shows f q) (thread : ThreadId) (stream : InputStream) (state : σ) :
    q.turn thread stream (f state) = (p.turn thread stream state).map f := by
  simp only [Program.turn, shows.asks, shows.receive, Scene.map]
  split <;> rfl

theorem turns (shows : p.Shows f q) (thread : ThreadId) (n : Nat) (stream : InputStream)
    (state : σ) :
    q.turns thread n stream (f state) = (p.turns thread n stream state).map f := by
  induction n generalizing stream state with
  | zero => rfl
  | succ n ih =>
    simp only [Program.turns, shows.turn thread stream state]
    simp only [Scene.map, ih]

theorem settle (shows : p.Shows f q) (thread : ThreadId) (stream : InputStream) (state : σ) :
    q.settle thread stream (f state) = (p.settle thread stream state).map f :=
  shows.turns thread _ stream state

theorem rest (shows : p.Shows f q) (thread : ThreadId) (scene : Scene σ ε) :
    q.rest thread (scene.map f) = (p.rest thread scene).map f := by
  have settled := shows.settle thread scene.stream scene.state
  simp only [Program.rest, Scene.map] at settled ⊢
  rw [settled]

theorem play (shows : p.Shows f q) (thread : ThreadId) (beats : List Beat) (scene : Scene σ ε) :
    q.play thread (scene.map f) beats = (p.play thread scene beats).map f := by
  induction beats generalizing scene with
  | nil => rfl
  | cons beat beats ih =>
    have same : q.beat thread (scene.map f) beat = (p.beat thread scene beat).map f := by
      cases beat with
      | turn =>
        have turned := shows.turn thread scene.stream scene.state
        simp only [Program.beat, proceed, Scene.map] at turned ⊢
        rw [turned]
      | append text => rfl
    rw [Program.play, same, ih]
    rfl

end Shows

end Program

namespace Session

/-! ## Events without the prompts -/

/-- Whether an event is a prompt. -/
def Event.isPrompt : Event → Bool
  | prompted _ => true
  | _ => false

/-- Events without the prompts among them. -/
def unprompted (events : List Event) : List Event := events.filter fun event => !event.isPrompt

@[simp] theorem unprompted_nil : unprompted [] = [] := rfl

@[simp] theorem unprompted_prompted (prompt : Text) (events : List Event) :
    unprompted (.prompted prompt :: events) = unprompted events := rfl

@[simp] theorem unprompted_executed (line : Text) (events : List Event) :
    unprompted (.executed line :: events) = .executed line :: unprompted events := rfl

@[simp] theorem unprompted_wrote (text : Text) (events : List Event) :
    unprompted (.wrote text :: events) = .wrote text :: unprompted events := rfl

theorem unprompted_append (events later : List Event) :
    unprompted (events ++ later) = unprompted events ++ unprompted later :=
  List.filter_append ..

/-- A session opens without a prompt. -/
theorem unprompted_opening (interpreter : Interpreter) :
    unprompted (opening interpreter) = opening interpreter := rfl

/-- Leaving out the prompts leaves out nothing that was executed. -/
theorem executedLines_unprompted (events : List Event) :
    executedLines (unprompted events) = executedLines events := by
  induction events with
  | nil => rfl
  | cons event events ih =>
    cases event <;> simp_all [executedLines, List.filterMap_cons, Event.executedLine?]

/-- Leaving out the prompts leaves out nothing that was written. -/
theorem writtenTexts_unprompted (events : List Event) :
    writtenTexts (unprompted events) = writtenTexts events := by
  induction events with
  | nil => rfl
  | cons event events ih =>
    cases event <;> simp_all [writtenTexts, List.filterMap_cons, Event.writtenText?]

/-- A session does not prompt by itself. -/
theorem unprompted_receive (interpreter : Interpreter) (session : Session) (result : Option Text) :
    unprompted (session.receive interpreter result).2 =
      (session.receive interpreter result).2 := by
  rcases result with _ | line
  · rfl
  · simp only [receive]
    cases Line.of line with
    | statement text =>
      rcases h : interpreter.execute text with _ | ⟨_ | ⟨c, text⟩⟩ | message <;>
        simp [afterReply, h]
    | blank | quit | help | unknown => rfl

namespace Course

/-! ## The program -/

/-- How far a course has come: the lines its interpreter has executed, and the session. -/
structure Stage where
  past : List Text := []
  session : Session := .opened

/-- How a stage goes on with the result of a read. -/
def receive (course : Course) (stage : Stage) (result : Option Text) : Stage × List Event :=
  let (session, events) := stage.session.receive (course stage.past) result
  (⟨stage.past ++ executedLines events, session⟩, events)

/-- A session with an interpreter that may remember, as a program that reads lines while the session
is alive. -/
def program (course : Course) : Program Stage Event where
  asks stage := if stage.session.isAlive then some { demand := .line } else none
  receive := course.receive

/-- With an interpreter that remembers nothing, this is the session's own program. -/
theorem shows_constant (interpreter : Interpreter) :
    (constant interpreter).program.Shows Stage.session (Session.program interpreter) where
  asks _ := rfl
  receive _ _ := rfl

variable {course : Course} {stage : Stage}

theorem asks_of_alive (alive : stage.session.isAlive = true) :
    course.program.asks stage = some { demand := .line } := by
  simp [program, alive]

theorem asks_of_not_alive (dead : stage.session.isAlive = false) :
    course.program.asks stage = none := by
  simp [program, dead]

theorem eq_line_of_asks {ask : Ask} (h : course.program.asks stage = some ask) :
    ask = { demand := .line } := by
  cases alive : stage.session.isAlive with
  | false => simp [asks_of_not_alive alive] at h
  | true => simpa [asks_of_alive alive] using h.symm

theorem program_timeless (course : Course) : course.program.Timeless fun _ => True where
  asks _ h := by
    obtain rfl := eq_line_of_asks h
    exact ⟨rfl, .line⟩
  receive _ _ := trivial

/-- At the end of the lines a session closes with a farewell. -/
theorem receive_none (course : Course) (stage : Stage) :
    course.receive stage none = (⟨stage.past, stage.session.closed⟩, [.wrote farewell]) := by
  simp [receive, Session.receive, executedLines, Event.executedLine?]

/-- The end of the lines ends a session. -/
theorem isAlive_receive_none (course : Course) (stage : Stage) :
    (course.receive stage none).1.session.isAlive = false := rfl

/-! ## Lists of lines -/

/-- A stage after a list of lines: how far the course has come, what was made known, and the lines
that are left. -/
structure Stretch where
  stage : Stage
  events : List Event
  unread : List Text

/-- A living session takes lines from a list. -/
def take (course : Course) (stage : Stage) : List Text → Stretch
  | [] => ⟨stage, [], []⟩
  | line :: lines =>
    if stage.session.isAlive then
      let (stage, events) := course.receive stage (some line)
      let later := course.take stage lines
      { later with events := events ++ later.events }
    else ⟨stage, [], line :: lines⟩

/-- A living session finds that there are no more lines. -/
def finish (course : Course) (stage : Stage) : Stage × List Event :=
  if stage.session.isAlive then course.receive stage none else (stage, [])

/-- A session takes lines from a list and finishes when there are no more. -/
def runOut (course : Course) (stage : Stage) (lines : List Text) : Stretch :=
  let taken := course.take stage lines
  let (stage, events) := course.finish taken.stage
  ⟨stage, taken.events ++ events, taken.unread⟩

theorem take_of_not_alive (dead : stage.session.isAlive = false) (lines : List Text) :
    course.take stage lines = ⟨stage, [], lines⟩ := by
  cases lines <;> simp [take, dead]

theorem take_cons (alive : stage.session.isAlive = true) (line : Text) (lines : List Text) :
    course.take stage (line :: lines) =
      let (stage, events) := course.receive stage (some line)
      let later := course.take stage lines
      { later with events := events ++ later.events } := by
  simp [take, alive]

theorem take_one (alive : stage.session.isAlive = true) (line : Text) :
    course.take stage [line] =
      ⟨(course.receive stage (some line)).1, (course.receive stage (some line)).2, []⟩ := by
  simp [take, alive]

theorem finish_of_not_alive (dead : stage.session.isAlive = false) :
    course.finish stage = (stage, []) := by
  simp [finish, dead]

theorem runOut_of_not_alive (dead : stage.session.isAlive = false) (lines : List Text) :
    course.runOut stage lines = ⟨stage, [], lines⟩ := by
  simp [runOut, take_of_not_alive dead, finish_of_not_alive dead]

theorem runOut_cons (alive : stage.session.isAlive = true) (line : Text) (lines : List Text) :
    course.runOut stage (line :: lines) =
      let (stage, events) := course.receive stage (some line)
      let later := course.runOut stage lines
      { later with events := events ++ later.events } := by
  simp [runOut, take_cons alive]

theorem runOut_nil (alive : stage.session.isAlive = true) :
    course.runOut stage [] =
      ⟨(course.receive stage none).1, (course.receive stage none).2, []⟩ := by
  simp [runOut, take, finish, alive]

/-- Lines taken one list after the other are taken as one list. -/
theorem take_append (stage : Stage) (lines more : List Text) :
    course.take stage (lines ++ more) =
      let taken := course.take stage lines
      let later := course.take taken.stage more
      ⟨later.stage, taken.events ++ later.events, taken.unread ++ later.unread⟩ := by
  induction lines generalizing stage with
  | nil => simp [take]
  | cons line lines ih =>
    cases alive : stage.session.isAlive with
    | false => simp [take_of_not_alive alive]
    | true => simp [take_cons alive, ih, List.cons_append]

/-- A session takes lines that come in two lists, and finishes behind the second. -/
theorem runOut_append (stage : Stage) (lines more : List Text) :
    course.runOut stage (lines ++ more) =
      let taken := course.take stage lines
      let later := course.runOut taken.stage more
      ⟨later.stage, taken.events ++ later.events, taken.unread ++ later.unread⟩ := by
  simp [runOut, take_append]

/-- What a session does with lines holds no prompts. -/
theorem unprompted_take (stage : Stage) (lines : List Text) :
    unprompted (course.take stage lines).events = (course.take stage lines).events := by
  induction lines generalizing stage with
  | nil => rfl
  | cons line lines ih =>
    cases alive : stage.session.isAlive with
    | false => simp [take_of_not_alive alive]
    | true =>
      rw [take_cons alive]
      have received := unprompted_receive (course stage.past) stage.session (some line)
      exact (unprompted_append ..).trans (congrArg₂ _ received (ih _))

/-- A session over a script takes the lines of the script and finishes; the prompts are those of the
script. -/
theorem follow_eq_runOut (prompt : Text) (stage : Stage) (lines : List Text) :
    let later := course.follow prompt stage.past stage.session lines
    let ran := course.runOut stage lines
    unprompted later.events = ran.events ∧ later.session = ran.stage.session ∧
      later.unread = ran.unread := by
  induction lines generalizing stage with
  | nil =>
    cases alive : stage.session.isAlive with
    | false => simp [follow, runOut_of_not_alive alive, alive]
    | true =>
      rw [runOut_nil alive]
      simp [follow, alive, receive, Session.receive]
  | cons line lines ih =>
    cases alive : stage.session.isAlive with
    | false => simp [follow, runOut_of_not_alive alive, alive]
    | true =>
      obtain ⟨events, session, unread⟩ := ih (course.receive stage (some line)).1
      rw [runOut_cons alive]
      simp only [follow, alive, if_true]
      refine ⟨?_, session, unread⟩
      rw [List.cons_append, unprompted_prompted, unprompted_append, unprompted_receive]
      exact congrArg _ events

theorem overLines_eq_runOut (prompt : Text) (past lines : List Text) :
    let script := course.overLines prompt past lines
    let ran := course.runOut ⟨past, opened⟩ lines
    unprompted script.events = opening (course past) ++ ran.events ∧
      script.session = ran.stage.session ∧ script.unread = ran.unread := by
  obtain ⟨events, session, unread⟩ := course.follow_eq_runOut prompt ⟨past, opened⟩ lines
  refine ⟨?_, session, unread⟩
  rw [overLines, unprompted_append, events, unprompted_opening]

/-! ## What is taken -/

/-- How a session stands that was open and has taken lines: it goes on, or the last of them asked to
quit, or the interpreter gave up on the last of them. -/
inductive Stands (course : Course) (past : List Text) : List Text → Session → Prop
  | goesOn {taken : List Text} : course.AllPass past taken → Stands course past taken opened
  | quit {front : List Text} {line : Text} : course.AllPass past front → Quits line →
      Stands course past (front ++ [line]) ⟨false, true, none⟩
  | broke {front : List Text} {line message : Text} : course.AllPass past front →
      Breaks (course (past ++ statements front)) line message →
        Stands course past (front ++ [line]) ⟨true, false, some message⟩

/-- A line that stops nothing goes before. -/
theorem Stands.cons {past taken : List Text} {line : Text} {session : Session}
    (passes : Passes (course past) line)
    (h : course.Stands (past ++ (statement? line).toList) taken session) :
    course.Stands past (line :: taken) session := by
  cases h with
  | goesOn all => exact .goesOn ⟨passes, all⟩
  | @quit front last all quits =>
    rw [← List.cons_append]
    exact .quit ⟨passes, all⟩ quits
  | @broke front last message all breaks =>
    rw [List.append_assoc, ← statements_cons] at breaks
    rw [← List.cons_append]
    exact .broke ⟨passes, all⟩ breaks

/-- So do lines that stop nothing. -/
theorem Stands.append {past front taken : List Text} {session : Session}
    (all : course.AllPass past front)
    (h : course.Stands (past ++ statements front) taken session) :
    course.Stands past (front ++ taken) session := by
  induction front generalizing past with
  | nil => simpa [statements] using h
  | cons line front ih =>
    refine .cons all.1 (ih all.2 ?_)
    rwa [List.append_assoc, ← statements_cons]

/-- A session that was open stands still only where a line has stopped it. -/
theorem Stands.eq_opened {past taken : List Text} {session : Session}
    (h : course.Stands past taken session) (alive : session.isAlive = true) :
    session = opened ∧ course.AllPass past taken := by
  cases h with
  | goesOn all => exact ⟨rfl, all⟩
  | quit | broke => simp [isAlive] at alive

/-- A session that a line has stopped without breaking it off was asked to quit. -/
theorem Stands.quits_of_not_alive {past taken : List Text} {session : Session}
    (h : course.Stands past taken session) (dead : session.isAlive = false)
    (whole : session.failure = none) :
    session = ⟨false, true, none⟩ ∧ ∃ line ∈ taken, Quits line := by
  cases h with
  | goesOn => simp [isAlive, opened] at dead
  | quit all quits => exact ⟨rfl, _, by simp, quits⟩
  | broke => simp at whole

/-- A session that was broken off was so by the last line that it took. -/
theorem Stands.breaks_of_failure {past taken : List Text} {session : Session} {message : Text}
    (h : course.Stands past taken session) (failed : session.failure = some message) :
    ∃ front line, taken = front ++ [line] ∧
      Breaks (course (past ++ statements front)) line message := by
  cases h with
  | goesOn | quit => simp [opened] at failed
  | broke all breaks =>
    obtain rfl := Option.some.inj failed
    exact ⟨_, _, rfl, breaks⟩

theorem statement?_of_quits {line : Text} (quits : Quits line) : statement? line = none := by
  obtain ⟨command, stripped, -⟩ := quits
  simp [statement?, stripped]

/-- **A session takes lines** from the front, up to the one that stops it or all of them, and
executes the statements among them. -/
theorem take_opened (past lines : List Text) :
    let later := course.take ⟨past, opened⟩ lines
    ∃ taken, lines = taken ++ later.unread ∧ later.stage.past = past ++ statements taken ∧
      executedLines later.events = statements taken ∧
        course.Stands past taken later.stage.session ∧
          (later.stage.session.isAlive = true → later.unread = []) := by
  -- The interpreter has executed more at each line, so the past is left open.
  induction lines generalizing past with
  | nil => exact ⟨[], rfl, by simp [take, statements], rfl, .goesOn trivial, fun _ => rfl⟩
  | cons line lines ih =>
    rw [take_cons rfl]
    by_cases passes : Passes (course past) line
    · simp only [receive, receive_of_passes passes, executedLines_lineEvents]
      obtain ⟨taken, split, past', executed, stands, rest⟩ := ih (past ++ (statement? line).toList)
      refine ⟨line :: taken, congrArg _ split, ?_, ?_, stands.cons passes, rest⟩
      · rw [past', statements_cons, List.append_assoc]
      · rw [executedLines_append, executedLines_lineEvents, executed, statements_cons]
    · rcases stops_of_not_passes passes with quits | ⟨message, breaks⟩
      · obtain ⟨received, -⟩ := receive_of_quits (course past) quits
        have silent : statements [line] = [] := by simp [statements, statement?_of_quits quits]
        simp only [receive, received]
        rw [take_of_not_alive rfl]
        refine ⟨[] ++ [line], rfl, ?_, ?_, .quit trivial quits, by simp [isAlive]⟩
        · rw [List.nil_append, silent]
          rfl
        · rw [List.nil_append, silent]
          rfl
      · have own : executedLines (lineEvents (course past) line) = statements [line] := by
          rw [executedLines_lineEvents, statements_cons]
          simp [statements]
        simp only [receive, receive_of_breaks breaks]
        rw [take_of_not_alive rfl]
        refine ⟨[] ++ [line], rfl, by simp [own], by simp [own], .broke trivial ?_,
          by simp [isAlive]⟩
        simpa [statements] using breaks

end Course

end Session

end LineConsole
