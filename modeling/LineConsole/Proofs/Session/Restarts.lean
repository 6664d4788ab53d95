import LineConsole.Interpreter.Echo
import LineConsole.Proofs.Session.Incidents

/-!
# Sessions that are opened again

A session runs over a stream to which whole lines are appended. It is interrupted at any time, also
between an append and the turn in which it would have taken what was appended; a line may ask it to
quit; the interpreter may give up on one. Whenever it has ended somebody may open it again over the
same stream. No line is lost and none is taken twice: the runs of the session take the lines of the
whole text one after the other, each run from the line on at which the last one stopped, and a
session that waits has left none.

What makes this so is that a read of whole lines holds nothing while it waits. So an interrupt gives
it nothing to return, and takes nothing away: the lines that are left are those of the unread text,
before the interrupt and after it.

## Main definitions

* `Incident.BringsLines` — what may happen around such a session
* `Course.Ran` — runs of a session that have ended, with what they made known
* `Course.Story` — such runs and the one after them, which has come to some stage
* `Course.Tells` — a story of what has become of a text, with what is left of it

## Main results

* `Story.takes`, `Story.closes`, `Story.reopens` — how a story goes on
* `Tells.undergo` — every incident carries the story on
* `restarts_lose_no_line` — every history has a story
-/

namespace LineConsole

open Text Program

namespace Session.Course

variable {course : Course} {past run : List Text} {runs : List (List Text)} {stage : Stage}
  {done : List Event}

/-! ## Runs -/

/-- How a session opens when some runs of it have ended, which took these lines. -/
def opensAfter (runs : List (List Text)) : Stage := ⟨statements runs.flatten, opened⟩

/-- What a run of a session makes known after others: the banner, and what belongs to the lines that
it takes. -/
def tells (course : Course) (runs : List (List Text)) (stretch : Stretch) : List Event :=
  opening (course (opensAfter runs).past) ++ stretch.events

/-- Runs of a session that took these lines, one after the other, and have ended: with the last of
their lines, or because a read was released. With all that they made known. -/
inductive Ran (course : Course) : List (List Text) → List Event → Prop
  | none : Ran course [] []
  | ends {runs : List (List Text)} {events : List Event} {run : List Text} :
      Ran course runs events → (course.runOut (opensAfter runs) run).unread = [] →
      Ran course (runs ++ [run]) (events ++ course.tells runs (course.runOut (opensAfter runs) run))

/-- When some runs of a session have ended there is one more, which has taken some lines and has
come to a stage: it is where the last of its lines has left it, or its read was released and it has
closed. With all that the runs made known. -/
inductive Story (course : Course) (runs : List (List Text)) (run : List Text) :
    Stage → List Event → Prop
  | goesOn {events : List Event} :
      Ran course runs events → (course.take (opensAfter runs) run).unread = [] →
      Story course runs run (course.take (opensAfter runs) run).stage
        (events ++ course.tells runs (course.take (opensAfter runs) run))
  | closed {events : List Event} :
      Ran course runs events → (course.runOut (opensAfter runs) run).unread = [] →
      Story course runs run (course.runOut (opensAfter runs) run).stage
        (events ++ course.tells runs (course.runOut (opensAfter runs) run))

/-! A run that has not been stopped by its lines closes behind them. -/

theorem runOut_of_isAlive_take (alive : (course.take stage run).stage.session.isAlive = true) :
    course.runOut stage run =
      ⟨(course.receive (course.take stage run).stage none).1,
        (course.take stage run).events ++ (course.receive (course.take stage run).stage none).2,
        (course.take stage run).unread⟩ := by
  simp [runOut, finish, alive]

theorem runOut_of_not_isAlive_take
    (dead : (course.take stage run).stage.session.isAlive = false) :
    course.runOut stage run = course.take stage run := by
  simp [runOut, finish, dead]

theorem isAlive_runOut (course : Course) (stage : Stage) (run : List Text) :
    (course.runOut stage run).stage.session.isAlive = false := by
  cases alive : (course.take stage run).stage.session.isAlive with
  | true => rw [runOut_of_isAlive_take alive, receive_none]; rfl
  | false => rw [runOut_of_not_isAlive_take alive, alive]

/-! ## Stories -/

/-- A session begins. -/
theorem story_begins (course : Course) :
    course.Story [] [] ⟨[], opened⟩ (opening (course [])) := by
  have begins : course.Story [] [] _ _ := .goesOn .none rfl
  simpa [take, tells, opensAfter, statements] using begins

/-- It takes one more line. -/
theorem Story.takes (h : course.Story runs run stage done) (alive : stage.session.isAlive = true)
    (line : Text) :
    course.Story runs (run ++ [line]) (course.receive stage (some line)).1
      (done ++ (course.receive stage (some line)).2) := by
  cases h with
  | closed => simp [isAlive_runOut] at alive
  | goesOn ran whole =>
    have longer : course.take (opensAfter runs) (run ++ [line]) = _ := take_append ..
    simp only [take_one alive, whole] at longer
    have taken : course.Story runs (run ++ [line]) _ _ := .goesOn ran (by rw [longer]; rfl)
    rw [longer] at taken
    simpa [tells] using taken

/-- Its read is released, and it closes. -/
theorem Story.closes (h : course.Story runs run stage done)
    (alive : stage.session.isAlive = true) :
    course.Story runs run (course.receive stage none).1
      (done ++ (course.receive stage none).2) := by
  cases h with
  | closed => simp [isAlive_runOut] at alive
  | goesOn ran whole =>
    have last := runOut_of_isAlive_take alive
    have closed : course.Story runs run _ _ := .closed ran (by rw [last]; exact whole)
    rw [last] at closed
    simpa [tells] using closed

/-- A run that has ended goes before. -/
theorem Story.ran (h : course.Story runs run stage done) (dead : stage.session.isAlive = false) :
    course.Ran (runs ++ [run]) done := by
  cases h with
  | closed ran whole => exact .ends ran whole
  | goesOn ran whole =>
    have same := runOut_of_not_isAlive_take dead
    rw [← same] at whole ⊢
    exact .ends ran whole

/-! ## What a story tells -/

/-- A run that took all of its lines executed the statements among them, and nothing stopped it but
the last of them. -/
theorem take_whole (whole : (course.take (opensAfter runs) run).unread = []) :
    let taken := course.take (opensAfter runs) run
    taken.stage.past = statements (runs.flatten ++ run) ∧
      executedLines taken.events = statements run ∧
      course.Stands (statements runs.flatten) run taken.stage.session := by
  intro last
  obtain ⟨taken, split, past, executed, stands, -⟩ :=
    course.take_opened (statements runs.flatten) run
  change run = taken ++ last.unread at split
  rw [whole, List.append_nil] at split
  subst split
  rw [statements_append]
  exact ⟨past, executed, stands⟩

/-- Closing behind its lines it executed nothing more. -/
theorem runOut_whole (whole : (course.runOut (opensAfter runs) run).unread = []) :
    let ran := course.runOut (opensAfter runs) run
    ran.stage.past = statements (runs.flatten ++ run) ∧
      executedLines ran.events = statements run ∧
      ∃ session, course.Stands (statements runs.flatten) run session := by
  obtain ⟨past, executed, stands⟩ := take_whole whole
  cases alive : (course.take (opensAfter runs) run).stage.session.isAlive with
  | false =>
    rw [runOut_of_not_isAlive_take alive]
    exact ⟨past, executed, _, stands⟩
  | true =>
    rw [runOut_of_isAlive_take alive, receive_none]
    refine ⟨past, ?_, _, stands⟩
    rw [executedLines_append, executed]
    exact List.append_nil _

/-- A run that is not stopped before its end has no line that asks to quit but the last. -/
theorem Stands.not_quits {past : List Text} {session : Session}
    (h : course.Stands past run session) : ∀ line ∈ run.dropLast, ¬ Quits line := by
  intro line mem
  cases h with
  | goesOn all => exact all.not_quits line ((List.dropLast_sublist _).subset mem)
  | quit all | broke all =>
    rw [List.dropLast_concat] at mem
    exact all.not_quits line mem

/-- Runs executed the statements among their lines, and in none of them did a line ask to quit but
the last. -/
structure Executes (runs : List (List Text)) (events : List Event) : Prop where
  statements : executedLines events = statements runs.flatten
  quits : ∀ run ∈ runs, ∀ line ∈ run.dropLast, ¬ Quits line

theorem Executes.concat (h : Executes runs done) {stretch : Stretch} {session : Session}
    (executed : executedLines stretch.events = Session.statements run)
    (stands : course.Stands (Session.statements runs.flatten) run session) :
    Executes (runs ++ [run]) (done ++ course.tells runs stretch) := by
  obtain ⟨before, quits⟩ := h
  have silent : executedLines (opening (course (opensAfter runs).past)) = [] := rfl
  refine ⟨?_, ?_⟩
  · rw [tells, executedLines_append, executedLines_append, before, silent, executed,
      List.flatten_append, statements_append]
    simp
  · intro taken mem
    rcases List.mem_append.mp mem with earlier | last
    · exact quits taken earlier
    · rw [List.mem_singleton.mp last]
      exact stands.not_quits

theorem Ran.executes (h : course.Ran runs done) : Executes runs done := by
  induction h with
  | none => exact ⟨rfl, by simp⟩
  | ends ran whole ih =>
    obtain ⟨-, executed, session, stands⟩ := runOut_whole whole
    exact ih.concat executed stands

/-- A story tells what was executed. -/
theorem Story.executes (h : course.Story runs run stage done) :
    stage.past = statements (runs.flatten ++ run) ∧ Executes (runs ++ [run]) done := by
  cases h with
  | goesOn ran whole =>
    obtain ⟨past, executed, stands⟩ := take_whole whole
    exact ⟨past, ran.executes.concat executed stands⟩
  | closed ran whole =>
    obtain ⟨past, executed, session, stands⟩ := runOut_whole whole
    exact ⟨past, ran.executes.concat executed stands⟩

/-- The session is opened again. -/
theorem Story.reopens (h : course.Story runs run stage done)
    (dead : stage.session.isAlive = false) :
    course.Story (runs ++ [run]) [] ⟨stage.past, opened⟩
      (done ++ opening (course stage.past)) := by
  have again : course.Story (runs ++ [run]) [] _ _ := .goesOn (h.ran dead) rfl
  have past : (opensAfter (runs ++ [run])).past = stage.past := by
    rw [h.executes.1, opensAfter, List.flatten_append, List.flatten_singleton]
  rw [tells, past] at again
  simpa [take, opensAfter, ← past] using again

/-! ## What happens to whole lines -/

/-- The text that an incident brings. -/
def Incident.text : Incident → Text
  | act (.append text) => text
  | turn | act _ | restart => []

/-- Turns bring nothing. -/
theorem Incident.flatMap_text_filter (incidents : List Incident) :
    (incidents.filter (· ≠ turn)).flatMap text = incidents.flatMap text := by
  induction incidents with
  | nil => rfl
  | cons incident incidents ih =>
    rw [List.flatMap_cons, ← ih]
    cases incident <;> simp [text]

/-- What may happen around a session when nobody closes the stream or resets it, nobody else reads,
and each text that is appended ends on a break. -/
inductive Incident.BringsLines : Incident → Prop
  | turn : BringsLines .turn
  | append {text : Text} : text.EndsLine → BringsLines (.act (.append text))
  | interrupt (reader : ThreadId) : BringsLines (.act (.interrupt reader))
  | restart : BringsLines .restart

theorem Incident.BringsLines.foreign {incident : Incident} (h : incident.BringsLines)
    (thread : ThreadId) : incident.Foreign thread := by
  cases h <;> simp [Foreign, InputStream.Action.reader?]

variable {course : Course} {thread : ThreadId} {scene : Scene Stage Event} {text : Text}

/-- There is a story of what has become of a text: the runs of the session took its lines from the
front, and those that are left are the lines of what is unread, whatever is still to come. -/
structure Tells (course : Course) (thread : ThreadId) (text : Text) (scene : Scene Stage Event) :
    Prop where
  conducted : Conducted thread scene
  tidy : scene.stream.Tidy
  opened : scene.stream.isClosed = false
  story : ∃ runs run, course.Story runs run scene.state scene.done ∧
    ∀ future, lines (text ++ future) = runs.flatten ++ (run ++
      lines (unread scene.stream.skipLF (scene.stream.buffer ++ future)))

theorem tells_new (course : Course) (thread : ThreadId) :
    course.Tells thread [] (course.history thread []) where
  conducted := conducted_history course (by simp)
  tidy := InputStream.tidy_new
  opened := rfl
  story := ⟨[], [], course.story_begins, fun future => rfl⟩

/-- **A turn** carries the story on: the session takes the next line, or it closes since its read
was released, or it has nothing to do. -/
theorem Tells.proceed (h : course.Tells thread text scene) :
    course.Tells thread text (course.program.proceed thread scene) := by
  obtain ⟨conducted, tidy, opened, runs, run, story, split⟩ := h
  have conducted' := conducted.proceed course
  have turns := conducted.turnsTo course
  generalize course.program.proceed thread scene = next at conducted' turns
  cases turns with
  | rests => exact ⟨conducted, tidy, opened, runs, run, story, split⟩
  | @serves action s call alive serves own demand =>
    obtain ⟨tidy', hands⟩ := InputStream.perform_lines tidy (serves.lineWise demand)
    have ne : action ≠ .clear := by rintro rfl; cases serves
    have front := hands ne
    rw [InputStream.perform_of_serves serves] at tidy' front
    rw [serves.accepts_eq] at front
    have opened' : (s.advance call).1.isClosed = false := by
      rw [InputStream.isClosed_advance, serves.isClosed_eq, opened]
    have behind (future : Text) : lines (text ++ future) =
        runs.flatten ++ (run ++ (InputStream.returned ((s.advance call).2.events call.thread) ++
          lines (unread (s.advance call).1.skipLF ((s.advance call).1.buffer ++ future)))) := by
      rw [split, ← front, List.nil_append]
    cases outcome : (s.advance call).2 with
    | waits =>
      rw [after_of_waits outcome] at conducted' ⊢
      rw [outcome] at behind
      exact ⟨conducted', tidy', opened', runs, run, story, behind⟩
    | ended result =>
      rw [after_of_ended outcome] at conducted' ⊢
      rw [outcome] at behind
      -- Whole lines are appended, so a read that was released held nothing.
      cases result with
      | none => exact ⟨conducted', tidy', opened', runs, run, story.closes alive, behind⟩
      | some line =>
        refine ⟨conducted', tidy', opened', runs, run ++ [line], story.takes alive line, ?_⟩
        intro future
        rw [behind, List.append_assoc]
        rfl

/-- A section that spares the reads carries the story on, of the text with what it brings in. -/
theorem Tells.act (h : course.Tells thread text scene) {action : InputStream.Action}
    (foreign : action.reader? ≠ some thread) (spares : scene.stream.Spares action)
    (linewise : action.LineWise) (ne : action ≠ .clear)
    (opened' : (scene.stream.perform action).1.isClosed = false) :
    course.Tells thread (text ++ scene.stream.accepts action)
      { scene with stream := (scene.stream.perform action).1 } := by
  obtain ⟨conducted, tidy, -, runs, run, story, split⟩ := h
  obtain ⟨tidy', hands⟩ := InputStream.perform_lines tidy linewise
  refine ⟨conducted.act foreign, tidy', opened', runs, run, story, fun future => ?_⟩
  rw [List.append_assoc, split, hands ne future, InputStream.returned, spares.silent]
  rfl

/-- **Every such incident** carries the story on, of the text with what the incident brings. -/
theorem Tells.undergo (h : course.Tells thread text scene) {incident : Incident}
    (brings : incident.BringsLines) :
    course.Tells thread (text ++ incident.text) (course.undergo thread scene incident) := by
  have foreign := brings.foreign thread
  cases brings with
  | turn =>
    rw [Incident.text, List.append_nil]
    exact h.proceed
  | @append more ends =>
    have accepted : scene.stream.accepts (.append more) = more := by
      simp [InputStream.accepts, h.opened]
    have joined := h.act foreign (InputStream.spares_append _ more) ends (by simp)
      ((InputStream.isClosed_append _ more).trans h.opened)
    rwa [accepted] at joined
  | interrupt reader =>
    exact h.act foreign (InputStream.spares_of_signals (.interrupt reader)) trivial (by simp)
      ((InputStream.isClosed_interrupt _ reader).trans h.opened)
  | restart =>
    have conducted' := h.conducted.undergo course foreign
    rw [Incident.text, List.append_nil]
    cases alive : scene.state.session.isAlive with
    | true => simpa [Course.undergo, alive] using h
    | false =>
      obtain ⟨-, tidy, opened, runs, run, story, split⟩ := h
      simp only [Course.undergo, alive, Bool.false_eq_true, if_false] at conducted' ⊢
      refine ⟨conducted', tidy, opened, runs ++ [run], [], story.reopens alive, ?_⟩
      intro future
      rw [split future]
      simp [reopen]

theorem tells_history (course : Course) (thread : ThreadId) {incidents : List Incident}
    (brings : ∀ incident ∈ incidents, incident.BringsLines) :
    course.Tells thread (incidents.flatMap Incident.text) (course.history thread incidents) := by
  induction incidents using List.reverseRecOn with
  | nil => exact course.tells_new thread
  | append_singleton incidents incident ih =>
    obtain ⟨earlier, last⟩ := List.forall_mem_append.mp brings
    rw [history_append, List.flatMap_append, List.flatMap_singleton]
    exact (ih earlier).undergo (last incident (List.mem_singleton_self _))

/-! ## Restarts -/

/-- **Restarts lose no line.** Let a session with any interpreter, which may give up on a line, read
from a new stream to which texts are appended that each end on a break. Let its thread be
interrupted and let it be opened again when it has ended, in any order and however its turns lie
between. Then the runs of the session have taken the lines of the whole text one after the other,
from the first line on, and have left the lines of what is unread. The statements among the lines
taken were executed, in order and each once, and nothing else was. A line that asks to quit ended
its run, and the next run began with the line behind it. When the session waits no line is left.

With an interpreter that remembers nothing, a session in bursts of such steps has such a history. -/
theorem restarts_lose_no_line (course : Course) {thread : ThreadId} {incidents : List Incident}
    (brings : ∀ incident ∈ incidents, incident.BringsLines) :
    let scene := course.history thread incidents
    (∃ runs run rest,
      lines (incidents.flatMap Incident.text) = runs.flatten ++ (run ++ rest) ∧
      course.Story runs run scene.state scene.done ∧
      executedLines scene.done = statements (runs.flatten ++ run) ∧
      (∀ taken ∈ runs ++ [run], ∀ line ∈ taken.dropLast, ¬ Quits line) ∧
      rest = lines (unread scene.stream.skipLF scene.stream.buffer) ∧
      ∀ call, scene.stream.callOf? thread = some call → call.awake = false → rest = []) ∧
    ∀ (interpreter : Interpreter) (bursts : List (List Live.Step)),
      (∀ step ∈ bursts.flatten, (Incident.ofStep step).BringsLines) →
      ∃ lived : List Incident, (∀ incident ∈ lived, incident.BringsLines) ∧
        lived.filter (· ≠ .turn) = bursts.flatten.map .ofStep ∧
        lived.flatMap Incident.text =
          bursts.flatten.flatMap (fun step => (Incident.ofStep step).text) ∧
        Live.after interpreter bursts =
          asProgress ((constant interpreter).history Live.thread lived) := by
  intro scene
  refine ⟨?_, fun interpreter bursts bringing => ?_⟩
  · obtain ⟨conducted, -, -, runs, run, story, split⟩ := tells_history course thread brings
    obtain ⟨-, executed, quits⟩ := story.executes
    have whole := split []
    rw [List.append_nil, List.append_nil] at whole
    refine ⟨runs, run, _, whole, story, by simpa using executed, quits, rfl, ?_⟩
    intro call found asleep
    have awaits := conducted.reachable.patient call (InputStream.mem_of_callOf? found) asleep
    rw [awaits.drained, unread_nil, lines_nil]
  · obtain ⟨lived, steps, reached⟩ := live_after interpreter bursts
    refine ⟨lived, fun incident mem => ?_, steps, ?_, reached⟩
    · rcases Incident.eq_turn_or_ofStep steps incident mem with rfl | ⟨step, among, rfl⟩
      · exact .turn
      · exact bringing step among
    · rw [← Incident.flatMap_text_filter, steps, List.flatMap_map]

/-- A line ends on a CR, and the session is interrupted before it has run. The LF comes when it has
been opened again. It takes that line and the next, which asks it to quit, and when it is opened
once more it goes on with the line behind that. -/
theorem restarts_lose_no_line_of_quit :
    let course := Course.constant (Echo.interpreter [])
    let incidents : List Incident := [.turn, .act (.append "1\r".toList),
      .act (.interrupt "session"), .turn, .restart, .act (.append "\n:q\n2\n".toList), .turn, .turn,
      .restart, .turn, .turn]
    let scene := course.history "session" incidents
    (∀ incident ∈ incidents, incident.BringsLines) ∧
      executedLines scene.done = ["1".toList, "2".toList] ∧
      ∃ runs run, course.Story runs run scene.state scene.done ∧
        lines (incidents.flatMap Incident.text) = runs.flatten ++ run := by
  intro course incidents scene
  have brings : ∀ incident ∈ incidents, incident.BringsLines := by
    simp only [incidents, List.forall_mem_cons, List.not_mem_nil, false_imp_iff, implies_true,
      and_true]
    refine ⟨.turn, .append ?_, .interrupt _, .turn, .restart, .append ?_, .turn, .turn, .restart,
      .turn, .turn⟩ <;> simp [EndsLine]
  obtain ⟨⟨runs, run, rest, whole, story, -, -, -, none⟩, -⟩ :=
    @restarts_lose_no_line course "session" _ brings
  have waits : scene.stream.callOf? "session" =
      some ⟨"session", .own "session", 0, .line, [], false⟩ := by decide
  rw [none _ waits rfl, List.append_nil] at whole
  exact ⟨brings, by decide, runs, run, story, whole⟩

end Session.Course

end LineConsole
