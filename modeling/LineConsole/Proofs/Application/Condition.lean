import Mathlib.Data.List.Induction
import LineConsole.Proofs.Application.Course

/-!
# The condition of the application

After each step the application is in one of three conditions. Its session waits for a line, having
taken all that was submitted. Or the stream was closed and the application has ended with it. Or a
line has stopped the session for good: the application has ended if the line asked to quit, and
otherwise the interpreter gave up on it, which the application never notices.

One step leads from a condition to a condition. It adds the lines that it submits to those that were
left, and what it executes are the statements among the lines that it adds to those taken.

## Main definitions

* `Course.Condition` — the condition of an application, with the lines that its session has taken
  and left

## Main results

* `going_feed`, `going_clear`, `going_close` — how a session that waits goes on with lines, a reset
  or the close
* `settle_feed`, `settle_clear`, `settle_close` — what the panel then shows of it
* `attend_feed`, `attend_clear`, `attend_close` — what the application then makes of the session
* `condition_perform` — a step leads from a condition to a condition
* `condition_console` — so a whole run leads to one
-/

namespace LineConsole

open Text Program

namespace Session.Course

variable {course : Course} {past : List Text} {app : Application} {s : InputStream}

/-- The condition of an application whose session has taken some of the lines that were submitted
and left the others. `ended` says that the stream may have been closed. -/
inductive Condition (course : Course) (ended : Prop) (taken unread : List Text)
    (app : Application) : Prop
  /-- The session waits for a line. It has taken all lines, and none of them stops it. -/
  | waits : app.running = true → app.session = opened → app.panel.stdin.Waits Live.thread →
      course.AllPass [] taken → unread = [] → Condition course ended taken unread app
  /-- The session found the stream closed. It has taken all lines, and none of them stops it. -/
  | closed : ended → app.running = false → app.session = opened.closed →
      app.panel.stdin.callOf? Live.thread = none → course.AllPass [] taken → unread = [] →
      Condition course ended taken unread app
  /-- The last line that was taken stopped the session. -/
  | stopped : app.session.isAlive = false → app.panel.stdin.callOf? Live.thread = none →
      course.Stands [] taken app.session → (app.session.failure = none → app.running = false) →
      (app.running = false → app.session.failure = none ∨ ended) →
      Condition course ended taken unread app

/-! ## How the session goes on -/

/-- A session that has ended and does not read stays as it is. -/
theorem going_of_not_alive (dead : app.session.isAlive = false)
    (idle : app.panel.stdin.callOf? Live.thread = none) :
    course.going past app = ⟨app.panel.stdin, ⟨past, app.session⟩, []⟩ := by
  have rests : Rests Live.thread (⟨app.panel.stdin, ⟨past, app.session⟩, []⟩ : Scene Stage Event) :=
    ⟨by simp [dead], fun _ => idle⟩
  rw [going, rest_eq, Function.iterate_fixed rests.proceed_eq]

section Going

variable {panel : Panel}

/-- Lines are fed to a session that waits, and it takes them. -/
theorem going_feed (course : Course) (waits : s.Waits Live.thread) (past list : List Text)
    (stdin : panel.stdin = s.feed list) :
    let scene := course.going past ⟨panel, opened, true⟩
    let taken := course.take ⟨past, opened⟩ (list.flatMap framed)
    scene.state = taken.stage ∧ scene.done = taken.events ∧ Rests Live.thread scene := by
  have offers : panel.stdin.Offers Live.thread (feeding list) := by
    simpa [stdin] using waits.offers.feed list
  obtain ⟨state, done, rests⟩ := @rest_offers Live.thread ⟨panel.stdin, ⟨past, opened⟩, []⟩ _
    course offers (by simp [isAlive, opened])
  rw [lines_feeding] at state done
  exact ⟨state, done, rests⟩

/-- A reset of the stream ends a session that waits with a farewell. -/
theorem going_clear (course : Course) (waits : s.Waits Live.thread) (past : List Text)
    (stdin : panel.stdin = s.clear.1) :
    let scene := course.going past ⟨panel, opened, true⟩
    scene.state = ⟨past, opened.closed⟩ ∧ scene.done = [.wrote farewell] ∧
      scene.stream.Fresh Live.thread := by
  have ended := @rest_clear course Live.thread ⟨s, ⟨past, opened⟩, []⟩ waits
  rw [receive_none, ← stdin] at ended
  exact ended

/-- So does its close. -/
theorem going_close (course : Course) (waits : s.Waits Live.thread) (past : List Text)
    (running : Bool) (stdin : panel.stdin = s.close.1) :
    let scene := course.going past ⟨panel, opened, running⟩
    scene.state = ⟨past, opened.closed⟩ ∧ scene.done = [.wrote farewell] ∧
      scene.stream.callOf? Live.thread = none ∧ scene.stream.isClosed = true := by
  have ended := @rest_close course Live.thread ⟨s, ⟨past, opened⟩, []⟩ waits rfl
  rw [receive_none, Scene.close, ← stdin] at ended
  exact ended

end Going

/-! ## A session that has ended -/

/-- A session that has ended and does not read changes nothing. -/
theorem settle_of_not_alive (dead : app.session.isAlive = false)
    (idle : app.panel.stdin.callOf? Live.thread = none) :
    course.settle past app = { application := app } :=
  congrArg (takeOver app) (going_of_not_alive dead idle)

theorem exit_of_not_alive (dead : app.session.isAlive = false)
    (idle : app.panel.stdin.callOf? Live.thread = none) :
    course.exit past app =
      { application := { app with panel := app.panel.close, running := false } } :=
  settle_of_not_alive dead (InputStream.callOf?_close_of_idle idle)

/-- An application whose session has just opened is not over. -/
theorem isOver_of_opened (session : app.session = opened) : app.isOver = false := by
  simp [Application.isOver, Application.sessionEnded, session, opened]

/-- A session that has closed has ended, and the application is not over if the stream is open. -/
theorem sessionEnded_of_closed (session : app.session = opened.closed)
    (unclosed : app.panel.stdin.isClosed = false) :
    app.sessionEnded = true ∧ app.isOver = false := by
  simp [Application.isOver, Application.sessionEnded, session, unclosed, closed, opened]

section Attend

variable {turn : Application.Turn}

/-- The application goes on with a session that has not come to its end. -/
theorem attend_of_not_ended (settled : course.settle past app = turn)
    (h : turn.application.sessionEnded = false) : course.attend past app = turn := by
  simp [attend, exitIfOver, Application.isOver, settled, h]

/-- The application does not notice that the interpreter gave up. -/
theorem attend_of_broken (dead : app.session.isAlive = false)
    (idle : app.panel.stdin.callOf? Live.thread = none) (failed : app.session.failure ≠ none) :
    course.attend past app = { application := app } := by
  refine attend_of_not_ended (settle_of_not_alive dead idle) ?_
  simp [Application.sessionEnded, Option.isSome_iff_ne_none.mpr failed]

/-- The application ends with a session that is over. -/
theorem attend_of_over (settled : course.settle past app = turn)
    (dead : turn.application.session.isAlive = false)
    (idle : turn.application.panel.stdin.callOf? Live.thread = none)
    (ends : turn.application.isOver = true) :
    (course.attend past app).application =
        { turn.application with panel := turn.application.panel.close, running := false } ∧
      (course.attend past app).executed = turn.executed := by
  simp [attend, exitIfOver, settled, ends, exit_of_not_alive dead idle]

/-- A session that opens on a fresh stream waits for a line. -/
theorem begin_of_fresh (course : Course) (past : List Text)
    (fresh : app.panel.stdin.Fresh Live.thread) :
    let again := course.begin past app
    again.application.session = opened ∧ again.application.panel.stdin.Waits Live.thread ∧
      again.application.running = app.running ∧ again.executed = [] := by
  obtain ⟨state, done, waits⟩ := course.rest_beginning fresh past
  exact ⟨congrArg Stage.session state, waits, rfl, congrArg executedLines done⟩

/-- The application opens a session again that has come to its end on a fresh stream. -/
theorem attend_of_reset (settled : course.settle past app = turn)
    (session : turn.application.session = opened.closed)
    (fresh : turn.application.panel.stdin.Fresh Live.thread) :
    (course.attend past app).application.session = opened ∧
      (course.attend past app).application.panel.stdin.Waits Live.thread ∧
      (course.attend past app).application.running = turn.application.running ∧
      (course.attend past app).executed = turn.executed := by
  have again := course.begin_of_fresh (past ++ turn.executed) fresh
  have ends := sessionEnded_of_closed session fresh.opened
  generalize hbegin : course.begin (past ++ turn.executed) turn.application = turn' at again
  obtain ⟨session', waits, running, silent⟩ := again
  have goesOn := isOver_of_opened session'
  have attended : course.attend past app =
      { turn' with executed := turn.executed ++ turn'.executed } := by
    simp [attend, exitIfOver, settled, ends, hbegin, goesOn]
  rw [attended]
  exact ⟨session', waits, running, by rw [silent, List.append_nil]⟩

end Attend

/-! ## A session that waits -/

section Waits

variable {panel : Panel} {taken : List Text}

/-- Lines are fed to a session that waits. It takes them up to one that stops it. -/
theorem settle_feed (waits : s.Waits Live.thread) (list : List Text)
    (stdin : panel.stdin = s.feed list) (all : course.AllPass [] taken) :
    let turn := course.settle (statements taken) ⟨panel, opened, true⟩
    let session := turn.application.session
    ∃ more unread, list.flatMap framed = more ++ unread ∧ turn.executed = statements more ∧
      course.Stands [] (taken ++ more) session ∧
      (session.isAlive = true →
        turn.application.panel.stdin.Waits Live.thread ∧ unread = []) ∧
      (session.isAlive = false → turn.application.panel.stdin.callOf? Live.thread = none) := by
  intro turn session
  obtain ⟨state, done, rests⟩ := course.going_feed waits (statements taken) list stdin
  obtain ⟨more, split, -, executed, stands, rest⟩ :=
    course.take_opened (statements taken) (list.flatMap framed)
  rw [← state] at stands rest
  refine ⟨more, _, split, ?_, stands.append all, fun alive => ⟨rests.waits alive, rest alive⟩,
    rests.idle⟩
  exact (congrArg executedLines done).trans executed

/-- Lines are fed to a session that waits. It takes them up to one that stops it, and then the
application ends if the line asked to quit. -/
theorem attend_feed (ended : Prop) (waits : s.Waits Live.thread) (list : List Text)
    (stdin : panel.stdin = s.feed list) (all : course.AllPass [] taken) :
    let turn := course.attend (statements taken) ⟨panel, opened, true⟩
    ∃ more unread, list.flatMap framed = more ++ unread ∧ turn.executed = statements more ∧
      course.Condition ended (taken ++ more) unread turn.application := by
  intro turn
  have running : (course.settle (statements taken) ⟨panel, opened, true⟩).application.running =
    true := rfl
  obtain ⟨more, unread, split, executed, stands, awaits, idle⟩ :=
    settle_feed waits list stdin all
  generalize settled : course.settle (statements taken) ⟨panel, opened, true⟩ = last
    at running executed stands awaits idle
  refine ⟨more, unread, split, ?_⟩
  cases alive : last.application.session.isAlive with
  | true =>
    obtain ⟨session, all'⟩ := stands.eq_opened alive
    have goesOn := attend_of_not_ended settled (by simp [Application.sessionEnded, session, opened])
    simp only [turn, goesOn]
    exact ⟨executed, .waits running session (awaits alive).1 all' (awaits alive).2⟩
  | false =>
    have idle := idle alive
    cases failure : last.application.session.failure with
    | none =>
      obtain ⟨quit, -⟩ := stands.quits_of_not_alive alive failure
      obtain ⟨after, same⟩ := attend_of_over settled alive idle
        (by simp [Application.isOver, Application.sessionEnded, quit])
      simp only [turn, after, same]
      exact ⟨executed, .stopped alive (InputStream.callOf?_close_of_idle idle) stands
        (fun _ => rfl) fun _ => .inl failure⟩
    | some message =>
      have goesOn := attend_of_not_ended settled (by simp [Application.sessionEnded, failure])
      simp only [turn, goesOn]
      exact ⟨executed, .stopped alive idle stands (fun whole => by simp [failure] at whole)
        fun ended => by simp [running] at ended⟩

/-- A reset of the stream on which a session waits ends the session. -/
theorem settle_clear (course : Course) (waits : s.Waits Live.thread) (past : List Text)
    (stdin : panel.stdin = s.clear.1) :
    let turn := course.settle past ⟨panel, opened, true⟩
    turn.application.session = opened.closed ∧ turn.executed = [] ∧
      turn.application.panel.stdin.Fresh Live.thread := by
  obtain ⟨state, done, fresh⟩ := course.going_clear waits past stdin
  exact ⟨congrArg Stage.session state, congrArg executedLines done, fresh⟩

/-- So does its close. -/
theorem settle_close (course : Course) (waits : s.Waits Live.thread) (past : List Text)
    (running : Bool) (stdin : panel.stdin = s.close.1) :
    let turn := course.settle past ⟨panel, opened, running⟩
    turn.application.session = opened.closed ∧ turn.executed = [] ∧
      turn.application.panel.stdin.callOf? Live.thread = none ∧
      turn.application.panel.stdin.isClosed = true := by
  obtain ⟨state, done, idle, isClosed⟩ := course.going_close waits past running stdin
  exact ⟨congrArg Stage.session state, congrArg executedLines done, idle, isClosed⟩

/-- A reset of the stream on which a session waits opens the session again. -/
theorem attend_clear (ended : Prop) (waits : s.Waits Live.thread)
    (stdin : panel.stdin = s.clear.1) (all : course.AllPass [] taken) :
    let turn := course.attend (statements taken) ⟨panel, opened, true⟩
    turn.executed = [] ∧ course.Condition ended taken [] turn.application := by
  intro turn
  obtain ⟨session, silent, fresh⟩ := course.settle_clear waits (statements taken) stdin
  obtain ⟨session', waits', running, executed⟩ := attend_of_reset rfl session fresh
  exact ⟨executed.trans silent, .waits running session' waits' all rfl⟩

/-- The close of the stream on which a session waits ends the session and the application. -/
theorem attend_close {ended : Prop} (may : ended) (waits : s.Waits Live.thread)
    (stdin : panel.stdin = s.close.1) (all : course.AllPass [] taken) :
    let turn := course.attend (statements taken) ⟨panel, opened, true⟩
    turn.executed = [] ∧ course.Condition ended taken [] turn.application := by
  intro turn
  obtain ⟨session, silent, idle, isClosed⟩ :=
    course.settle_close waits (statements taken) true stdin
  generalize settled : course.settle (statements taken) ⟨panel, opened, true⟩ = last
    at session silent idle isClosed
  obtain ⟨after, executed⟩ := attend_of_over settled (by simp [session, isAlive, closed]) idle
    (by simp [Application.isOver, Application.sessionEnded, session, isClosed, closed, opened])
  simp only [turn, after, executed]
  exact ⟨silent, .closed may rfl session (InputStream.callOf?_close_of_idle idle) all rfl⟩

/-- The end of an application ends a session that waits. -/
theorem exit_of_waits {ended : Prop} (may : ended) (waits : panel.stdin.Waits Live.thread)
    (all : course.AllPass [] taken) :
    let turn := course.exit (statements taken) ⟨panel, opened, true⟩
    turn.executed = [] ∧ course.Condition ended taken [] turn.application := by
  obtain ⟨session, silent, idle, -⟩ :=
    @settle_close _ panel.close course waits (statements taken) false rfl
  exact ⟨silent, .closed may rfl session idle all rfl⟩

end Waits

/-! ## Steps and runs -/

theorem Condition.mono {ended ended' : Prop} {taken unread : List Text}
    (h : course.Condition ended taken unread app) (weaker : ended → ended') :
    course.Condition ended' taken unread app := by
  cases h with
  | waits running session waits all rest => exact .waits running session waits all rest
  | closed may running session idle all rest =>
    exact .closed (weaker may) running session idle all rest
  | stopped dead idle stands ends since =>
    exact .stopped dead idle stands ends fun ended => (since ended).imp_right weaker

/-- **One step** of an application that runs leads from a condition to a condition. The lines that
it submits join those that were left, some of all these are taken, and their statements are
executed. -/
theorem condition_perform {ended : Prop} {taken unread : List Text} {step : Application.Step}
    {turn : Application.Turn} (h : course.Condition ended taken unread app)
    (running : app.running = true)
    (performed : course.perform (statements taken) app step = .ok turn) :
    ∃ more unread', unread ++ (app.submits step).flatMap framed = more ++ unread' ∧
      turn.executed = statements more ∧
      course.Condition (ended ∨ step.Closes) (taken ++ more) unread' turn.application := by
  cases h with
  | waits running session waits all rest =>
    obtain ⟨panel, _, _⟩ := app
    dsimp only at running session waits
    subst running session rest
    rcases perform_cases performed with ⟨panel', touches, after, executed⟩ | ⟨closes, nothing, rfl⟩
    · rw [after, executed]
      generalize Application.submits _ step = list at touches ⊢
      generalize hstdin : panel'.stdin = stdin at touches
      cases touches with
      | feeds list => exact attend_feed _ waits list hstdin all
      | clears =>
        obtain ⟨silent, condition⟩ := attend_clear (ended ∨ step.Closes) waits hstdin all
        exact ⟨[], [], rfl, silent, by simpa using condition⟩
      | closes may =>
        obtain ⟨silent, condition⟩ := attend_close (Or.inr may : ended ∨ step.Closes) waits
          hstdin all
        exact ⟨[], [], rfl, silent, by simpa using condition⟩
    · rw [nothing]
      obtain ⟨silent, condition⟩ := exit_of_waits (Or.inr closes : ended ∨ step.Closes) waits
        all
      exact ⟨[], [], rfl, silent, by simpa using condition⟩
  | closed may stopped => simp [running] at stopped
  | stopped dead idle stands ends since =>
    -- Only a session that was broken off leaves the application running.
    have failed : app.session.failure ≠ none := fun whole => by simp [ends whole] at running
    refine ⟨[], _, rfl, ?_⟩
    rw [List.append_nil]
    rcases perform_cases performed with ⟨panel', touches, after, executed⟩ | ⟨closes, nothing, rfl⟩
    · have idle' := touches.idle idle
      rw [after, executed,
        @attend_of_broken course _ { app with panel := panel' } dead idle' failed]
      exact ⟨rfl, .stopped dead idle' stands (fun whole => absurd whole failed)
        fun ended => by simp [running] at ended⟩
    · rw [exit_of_not_alive dead idle]
      exact ⟨rfl, .stopped dead (InputStream.callOf?_close_of_idle idle) stands (fun _ => rfl)
        fun _ => .inr (.inr closes)⟩

/-- When the panel has been put on the screen the session waits, and nothing was executed. -/
theorem condition_launch (course : Course) {panel : Panel} (fresh : panel.stdin.Fresh Live.thread) :
    (course.launch panel).executed = [] ∧
      course.Condition False [] [] (course.launch panel).application := by
  have begun := @begin_of_fresh { panel := panel.say (.ready panel.trigger) } course [] fresh
  rw [launch]
  generalize course.begin [] _ = turn at begun
  obtain ⟨session, waits, running, silent⟩ := begun
  have goesOn : course.exitIfOver [] turn = turn := by
    simp [exitIfOver, isOver_of_opened session]
  rw [goesOn]
  exact ⟨silent, .waits running session waits trivial rfl⟩

/-- **A whole run** leads to a condition. The session has taken some of the lines that were
submitted, and what was executed are their statements. -/
theorem condition_console (course : Course) {panel : Panel} (fresh : panel.stdin.Fresh Live.thread)
    (steps : List Application.Step) :
    let now := course.console panel steps
    ∃ taken unread, now.submitted.flatMap framed = taken ++ unread ∧
      now.executed = statements taken ∧
      course.Condition (∃ step ∈ steps, step.Closes) taken unread now.application := by
  induction steps using List.reverseRecOn with
  | nil =>
    obtain ⟨silent, condition⟩ := course.condition_launch fresh
    exact ⟨[], [], rfl, silent, condition.mono False.elim⟩
  | append_singleton steps step ih =>
    obtain ⟨taken, unread, split, executed, condition⟩ := ih
    rw [console_concat]
    generalize course.console panel steps = before at split executed condition
    have later : (∃ step ∈ steps, step.Closes) → ∃ other ∈ steps ++ [step], other.Closes :=
      fun ⟨other, mem, closes⟩ => ⟨other, List.mem_append_left _ mem, closes⟩
    unfold use
    split
    case isFalse => exact ⟨taken, unread, split, executed, condition.mono later⟩
    case isTrue running =>
      split
      case h_2 => exact ⟨taken, unread, split, executed, condition.mono later⟩
      case h_1 turn performed =>
        rw [executed] at performed
        obtain ⟨more, unread', split', executed', condition'⟩ :=
          condition_perform condition running performed
        refine ⟨taken ++ more, unread', ?_, ?_, condition'.mono ?_⟩
        · rw [List.flatMap_append, split, List.append_assoc, split', List.append_assoc]
        · rw [executed, executed']
          exact List.filterMap_append.symm
        · rintro (earlier | closes)
          · exact later earlier
          · exact ⟨step, by simp, closes⟩

end Session.Course

end LineConsole
