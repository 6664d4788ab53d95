import LineConsole.Interpreter.Echo
import LineConsole.Proofs.Application.Condition
import LineConsole.Proofs.Application.Record

/-!
# The life of an application and of its sessions

The interpreter of an application gives up on no line. Then a session runs as long as the
application does. A fresh start of the panel ends the session with a farewell and begins another
one, and nothing else does. The application ends at the first step that closes the stream or submits
a line that asks to quit, also when that line is pasted among others, and the session ends with it.
So when the application has ended, every session that was begun has said its farewell.

## Main definitions

* `Application.Ends` — the step is to end the application
* `Application.Awaits`, `Application.Over` — the two states that an application is in
* `Course.Begun`, `Course.Complete` — what a session wrote that has begun, or said its farewell
* `Course.Leads` — where a step leads an application that runs
* `Course.Phase` — how far an application and its sessions have come

## Main results

* `waits_or_quits_of_feed` — how a session goes on with the lines that it is fed
* `leads_use` — a step leads to one of three places
* `phase_console` — an application runs with a session that waits, or it has ended for good
* `running_console_iff` — the application runs up to the first step that is to end it
* `sessions_follow` — the life of an application and of its sessions
-/

namespace LineConsole

open Text Program

/-- The step is to end the application: it closes the stream, or submits a line that asks to quit.
-/
def Application.Ends (app : Application) (step : Application.Step) : Prop :=
  step.Closes ∨ ∃ line ∈ (app.submits step).flatMap framed, Session.Quits line

/-- A fresh start is not the end. -/
theorem Application.not_ends_of_clears {app : Application} {step : Application.Step}
    (clears : step.Clears) : ¬ app.Ends step := by
  rintro (closes | ⟨line, mem, -⟩)
  · cases clears with
    | onPanel =>
      cases closes with
      | onPanel closes => simp [Panel.Step.Closes] at closes
    | controlL => cases closes
  · cases clears <;> exact absurd mem List.not_mem_nil

/-- The application runs, and its session waits for a line with nothing left to read. -/
structure Application.Awaits (app : Application) : Prop where
  running : app.running = true
  session : app.session = Session.opened
  waits : app.panel.stdin.Waits Live.thread

/-- The application has ended: the session has stopped and the stream is closed. -/
structure Application.Over (app : Application) : Prop where
  ended : app.running = false
  stopped : app.session.running = false
  isClosed : app.panel.stdin.isClosed = true

namespace Session.Course

variable {course : Course} {past : List Text} {app : Application} {s : InputStream}
  {stage : Stage} {record : Record} {panel : Panel} {turn : Application.Turn}

/-! ## The farewell -/

/-- A session that stops running at a line says its farewell, and nothing else. -/
theorem receive_of_stopped {interpreter : Interpreter} {session : Session} {line : Text}
    (running : session.running = true)
    (stopped : (session.receive interpreter (some line)).1.running = false) :
    (session.receive interpreter (some line)).2 = [.wrote farewell] := by
  simp only [Session.receive] at stopped ⊢
  cases kind : Line.of line with
  | quit => rfl
  | blank | help | unknown => simp [kind, running] at stopped
  | statement text =>
    rw [kind] at stopped
    rcases reply : interpreter.execute text with _ | ⟨_ | ⟨c, text⟩⟩ | message <;>
      simp [afterReply, reply, running] at stopped

/-- **A session that stops running** says its farewell last. -/
theorem take_of_stopped {lines : List Text} (alive : stage.session.isAlive = true)
    (stopped : (course.take stage lines).stage.session.running = false) :
    ∃ events, (course.take stage lines).events = events ++ [.wrote farewell] := by
  have running : stage.session.running = true := by
    simp only [isAlive, Bool.and_eq_true] at alive
    exact alive.1
  induction lines generalizing stage with
  | nil => simp [take, running] at stopped
  | cons line lines ih =>
    rw [take_cons alive] at stopped ⊢
    dsimp only at stopped ⊢
    cases goesOn : (course.receive stage (some line)).1.session.isAlive with
    | true =>
      have running' : (course.receive stage (some line)).1.session.running = true := by
        simp only [isAlive, Bool.and_eq_true] at goesOn
        exact goesOn.1
      obtain ⟨events, last⟩ := ih goesOn stopped running'
      exact ⟨(course.receive stage (some line)).2 ++ events, by rw [last, List.append_assoc]⟩
    | false =>
      rw [take_of_not_alive goesOn] at stopped ⊢
      have last : (course.receive stage (some line)).2 = [.wrote farewell] :=
        receive_of_stopped running stopped
      exact ⟨[], by rw [last]; rfl⟩

/-- **Lines are fed to a session that waits**, and the interpreter gives up on none. Either no line
asks to quit, and the session waits again; or one does, and the session has said its farewell. -/
theorem waits_or_quits_of_feed
    (never : ∀ past line message, (course past).execute line ≠ .failure message)
    (waits : s.Waits Live.thread) (past list : List Text) (stdin : panel.stdin = s.feed list) :
    let scene := course.going past ⟨panel, opened, true⟩
    ((∀ line ∈ list.flatMap framed, ¬ Quits line) ∧ scene.state.session = opened ∧
        scene.stream.Waits Live.thread) ∨
      ((∃ line ∈ list.flatMap framed, Quits line) ∧ scene.state.session = ⟨false, true, none⟩ ∧
        scene.stream.callOf? Live.thread = none ∧
        ∃ events, scene.done = events ++ [.wrote farewell]) := by
  intro scene
  obtain ⟨state, done, rests⟩ := course.going_feed waits past list stdin
  obtain ⟨taken, split, -, -, stands, rest⟩ := course.take_opened past (list.flatMap framed)
  have stopped := @take_of_stopped course ⟨past, opened⟩ (list.flatMap framed) rfl
  rw [← state] at stands rest stopped
  cases alive : scene.state.session.isAlive with
  | true =>
    obtain ⟨session, all⟩ := stands.eq_opened alive
    rw [rest alive, List.append_nil] at split
    exact .inl ⟨split ▸ all.not_quits, session, rests.waits alive⟩
  | false =>
    have whole : scene.state.session.failure = none := by
      cases failed : scene.state.session.failure with
      | none => rfl
      | some message =>
        obtain ⟨front, line, -, text, -, fails⟩ := stands.breaks_of_failure failed
        exact absurd fails (never _ _ _)
    obtain ⟨session, line, mem, quits⟩ := stands.quits_of_not_alive alive whole
    obtain ⟨events, last⟩ := stopped (congrArg Session.running session)
    have asked : line ∈ list.flatMap framed := split ▸ List.mem_append_left _ mem
    exact .inr ⟨⟨line, asked, quits⟩, session, rests.idle alive, events, done.trans last⟩

/-! ## What the application makes of it -/

/-- Nothing but the session's texts and its stream changes on the panel. -/
theorem field_takeOver (app : Application) (scene : Scene Stage Event) :
    (takeOver app scene).application.panel.field = app.panel.field := by
  have written (texts : List Text) (panel : Panel) :
      (texts.foldl Panel.writeLine panel).field = panel.field := by
    induction texts generalizing panel with
    | nil => rfl
    | cons text texts ih => exact ih _
  exact written _ app.panel

theorem recordAttend_of_not_ended (settled : course.settle past app = turn)
    (h : turn.application.sessionEnded = false) :
    course.recordAttend past app record = record.goOn (course.going past app) := by
  simp [recordAttend, recordExitIfOver, Application.isOver, settled, h]

/-- The end of the application adds nothing to what a session wrote that is over. -/
theorem recordAttend_of_over (settled : course.settle past app = turn)
    (dead : turn.application.session.isAlive = false)
    (idle : turn.application.panel.stdin.callOf? Live.thread = none)
    (ends : turn.application.isOver = true) :
    course.recordAttend past app record = record.goOn (course.going past app) := by
  have nothing := @going_of_not_alive course (past ++ turn.executed)
    { turn.application with panel := turn.application.panel.close, running := false } dead
    (InputStream.callOf?_close_of_idle idle)
  simp [recordAttend, recordExitIfOver, recordExit, settled, ends, nothing, Record.goOn,
    writtenTexts]

/-- An application that opens its session again records another one. -/
theorem recordAttend_of_reset (settled : course.settle past app = turn)
    (session : turn.application.session = opened.closed)
    (fresh : turn.application.panel.stdin.Fresh Live.thread) :
    course.recordAttend past app record = (record.goOn (course.going past app)).begin
      (course.arising (past ++ turn.executed) turn.application) := by
  have ended := sessionEnded_of_closed session fresh.opened
  obtain ⟨session', -⟩ := course.begin_of_fresh (past ++ turn.executed) fresh
  have goesOn := isOver_of_opened session'
  simp [recordAttend, recordExitIfOver, settled, ended, goesOn]

theorem field_attend (course : Course) (past : List Text) (app : Application) :
    (course.attend past app).application.panel.field = app.panel.field := by
  have settled (past : List Text) (app : Application) :
      (course.settle past app).application.panel.field = app.panel.field := field_takeOver app _
  have begun (past : List Text) (app : Application) :
      (course.begin past app).application.panel.field = app.panel.field := field_takeOver app _
  have ended (past : List Text) (turn : Application.Turn) :
      (course.exitIfOver past turn).application.panel.field = turn.application.panel.field := by
    unfold exitIfOver
    split
    · exact settled _ _
    · rfl
  unfold attend
  dsimp only
  split
  · rw [ended, begun, settled]
  · rw [ended, settled]

/-! ## Where a step leads -/

/-- What a session wrote that has begun: its banner, and then anything. -/
def Begun (run : List Text) : Prop := ∃ title texts, run = banner title :: texts

/-- What a session wrote that has said its farewell. -/
def Complete (run : List Text) : Prop := ∃ title texts, run = banner title :: (texts ++ [farewell])

/-- Where a step leads an application that runs, with the record of its sessions. -/
inductive Leads (course : Course) (past : List Text) (app : Application) (step : Application.Step)
    (record : Record) (after : Application) (record' : Record) : Prop
  /-- The session says its farewell and another one begins, on a panel that starts afresh. -/
  | renews : step.Clears → after.Awaits → after.panel.field = {} →
      after.panel.output = feeding [farewell, banner (course past).title] →
      record' = ⟨record.ended ++ [record.latest ++ [farewell]], [banner (course past).title]⟩ →
      Leads course past app step record after record'
  /-- The session goes on. -/
  | goesOn (texts : List Text) : ¬ step.Clears → ¬ app.Ends step → after.Awaits →
      record' = ⟨record.ended, record.latest ++ texts⟩ →
      Leads course past app step record after record'
  /-- The session says its farewell and the application has ended. -/
  | ends (texts : List Text) : ¬ step.Clears → app.Ends step → after.Over →
      record' = ⟨record.ended, record.latest ++ (texts ++ [farewell])⟩ →
      Leads course past app step record after record'

section Leads

variable {step : Application.Step}

/-- A fresh start of the panel. -/
theorem leads_clear (course : Course) (awaits : app.Awaits) (past : List Text) (record : Record)
    (clears : step.Clears) :
    let fresh := { app with panel := app.panel.clear }
    course.Leads past app step record (course.attend past fresh).application
      (course.recordAttend past fresh record) := by
  obtain ⟨panel, _, _⟩ := app
  obtain ⟨rfl, rfl, waits⟩ := awaits
  intro fresh
  obtain ⟨state, done, anew⟩ := @going_clear _ panel.clear course waits past rfl
  have silent : (course.settle past fresh).executed = [] := congrArg executedLines done
  have session := congrArg Stage.session state
  obtain ⟨session', waits', running, -⟩ := @attend_of_reset course past fresh _ rfl session anew
  have begun : (course.arising past (course.settle past fresh).application).done =
      opening (course past) := (course.rest_beginning anew past).2.1
  have recorded : course.recordAttend past fresh record =
      ⟨record.ended ++ [record.latest ++ [farewell]], [banner (course past).title]⟩ := by
    rw [recordAttend_of_reset rfl session anew, silent, List.append_nil, Record.begin, begun,
      Record.goOn, done]
    rfl
  refine .renews clears ⟨running, session', waits'⟩ (field_attend ..) ?_ recorded
  obtain ⟨texts, added, written⟩ := course.writes_recordAttend past fresh record
  have both : record.texts ++ texts = record.texts ++ [farewell, banner (course past).title] := by
    rw [← added, recorded]
    simp [Record.texts]
  rw [written, List.append_cancel_left both]
  rfl

/-- A session that has said its farewell, and is not to begin again, ends the application. -/
theorem leads_over {later : Application} {events : List Event} (spares : ¬ step.Clears)
    (ends : app.Ends step) (stopped : (course.going past later).state.session.running = false)
    (idle : (course.going past later).stream.callOf? Live.thread = none)
    (isOver : (course.settle past later).application.isOver = true)
    (done : (course.going past later).done = events ++ [.wrote farewell]) (record : Record) :
    course.Leads past app step record (course.attend past later).application
      (course.recordAttend past later record) := by
  have dead : (course.settle past later).application.session.isAlive = false :=
    (congrArg (· && _) stopped).trans (Bool.false_and _)
  obtain ⟨after, -⟩ := attend_of_over rfl dead idle isOver
  rw [after, recordAttend_of_over rfl dead idle isOver, Record.goOn, done]
  refine .ends (writtenTexts events) spares ends ⟨rfl, stopped, InputStream.isClosed_close _⟩ ?_
  rw [writtenTexts, List.filterMap_append]
  rfl

/-- Lines that are fed to the session. -/
theorem leads_feed (never : ∀ past line message, (course past).execute line ≠ .failure message)
    (awaits : app.Awaits) (past : List Text) (record : Record) (stays : ¬ step.Closes)
    (spares : ¬ step.Clears) (stdin : panel.stdin = app.panel.stdin.feed (app.submits step)) :
    course.Leads past app step record (course.attend past { app with panel }).application
      (course.recordAttend past { app with panel } record) := by
  obtain ⟨before, _, _⟩ := app
  obtain ⟨rfl, rfl, waits⟩ := awaits
  dsimp only at waits stdin ⊢
  -- Whether the application ends is settled by the lines alone, since nothing was closed.
  rcases waits_or_quits_of_feed never waits past _ stdin with
    ⟨passes, session, waits'⟩ | ⟨quits, session, idle, events, done⟩
  · have alive : (course.settle past ⟨panel, opened, true⟩).application.sessionEnded = false :=
      congrArg (fun session : Session => !session.running && session.failure.isNone) session
    rw [attend_of_not_ended rfl alive, recordAttend_of_not_ended rfl alive]
    refine .goesOn _ spares ?_ ⟨rfl, session, waits'⟩ rfl
    rintro (closes | ⟨line, mem, asks⟩)
    · exact stays closes
    · exact passes line mem asks
  · have asked : (course.settle past ⟨panel, opened, true⟩).application.session =
      ⟨false, true, none⟩ := session
    have isOver : (course.settle past ⟨panel, opened, true⟩).application.isOver = true := by
      rw [Application.isOver, Application.sessionEnded, asked]
      rfl
    exact leads_over spares (.inr quits) (congrArg Session.running session) idle isOver done record

/-- The close of the stream. -/
theorem leads_close (course : Course) (awaits : app.Awaits) (past : List Text) (record : Record)
    (closes : step.Closes) (spares : ¬ step.Clears)
    (stdin : panel.stdin = app.panel.stdin.close.1) :
    course.Leads past app step record (course.attend past { app with panel }).application
      (course.recordAttend past { app with panel } record) := by
  obtain ⟨before, _, _⟩ := app
  obtain ⟨rfl, rfl, waits⟩ := awaits
  obtain ⟨state, done, idle, isClosed⟩ := course.going_close waits past true stdin
  have session : (course.settle past ⟨panel, opened, true⟩).application.session = opened.closed :=
    congrArg Stage.session state
  have shut : (course.settle past ⟨panel, opened, true⟩).application.panel.stdin.isClosed = true :=
    isClosed
  have isOver : (course.settle past ⟨panel, opened, true⟩).application.isOver = true := by
    rw [Application.isOver, Application.sessionEnded, session, shut]
    rfl
  have last : (course.going past ⟨panel, opened, true⟩).done = [] ++ [.wrote farewell] := done
  exact leads_over spares (.inl closes) (congrArg Session.running session) idle isOver last record

/-- The end of the application while its session waits. -/
theorem leads_exit (course : Course) (awaits : app.Awaits) (past : List Text) (record : Record)
    (closes : step.Closes) (spares : ¬ step.Clears) :
    course.Leads past app step record (course.exit past app).application
      (course.recordExit past app record) := by
  obtain ⟨panel, _, _⟩ := app
  obtain ⟨rfl, rfl, waits⟩ := awaits
  obtain ⟨state, done, -, isClosed⟩ := @going_close _ panel.close course waits past false rfl
  rw [recordExit, Record.goOn, done]
  exact .ends [] spares (.inl closes)
    ⟨rfl, congrArg (fun stage => stage.session.running) state, isClosed⟩ rfl

/-- **A step** of an application whose session waits leads to one of three places. -/
theorem leads_use {console : Console}
    (never : ∀ past line message, (course past).execute line ≠ .failure message)
    (awaits : console.application.Awaits) (record : Record) (step : Application.Step) :
    course.Leads console.executed console.application step record
      (course.use console step).application
      (course.recordPerform console.executed console.application step record) := by
  rw [use, if_pos awaits.running]
  cases performed : course.perform console.executed console.application step with
  | error fault =>
    obtain ⟨spares, stays, nothing, recorded⟩ := perform_refused performed
    rw [recorded]
    refine .goesOn [] spares ?_ awaits (by simp)
    simp [Application.Ends, stays, nothing]
  | ok turn =>
    rcases perform_becomes performed with
      ⟨panel, becomes, after, -, recorded⟩ | ⟨closes, spares, rfl, recorded⟩
    · rw [recorded]
      dsimp only
      rw [after]
      cases becomes with
      | clears clears fresh =>
        rw [fresh]
        exact course.leads_clear awaits _ record clears
      | closes closes spares stdin => exact course.leads_close awaits _ record closes spares stdin
      | feeds stays spares stdin => exact leads_feed never awaits _ record stays spares stdin
    · rw [recorded]
      exact course.leads_exit awaits _ record closes spares

end Leads

/-! ## A whole life -/

/-- How far an application and its sessions have come. -/
inductive Phase (app : Application) (record : Record) : Prop
  /-- The latest session waits for a line, and the others have said their farewell. -/
  | awaits : app.Awaits → Begun record.latest → (∀ run ∈ record.ended, Complete run) →
      Phase app record
  /-- All sessions have said their farewell. -/
  | ended : app.Over → (∀ run ∈ record.ended ++ [record.latest], Complete run) → Phase app record

/-- A session that has begun is complete when it says its farewell. -/
theorem Begun.complete {run : List Text} (begun : Begun run) (texts : List Text) :
    Complete (run ++ (texts ++ [farewell])) := by
  obtain ⟨title, front, rfl⟩ := begun
  exact ⟨title, front ++ texts, by simp⟩

section Phase

variable {step : Application.Step} {after : Application} {record' : Record}

/-- The application runs on unless the step was to end it. -/
theorem Leads.running_iff (leads : course.Leads past app step record after record') :
    after.running = true ↔ ¬ app.Ends step := by
  cases leads with
  | renews clears awaits => exact iff_of_true awaits.running (Application.not_ends_of_clears clears)
  | goesOn texts spares stays awaits => exact iff_of_true awaits.running stays
  | ends texts spares ends gone =>
    exact iff_of_false (ne_true_of_eq_false gone.ended) (not_not_intro ends)

theorem Leads.phase (leads : course.Leads past app step record after record')
    (begun : Begun record.latest) (complete : ∀ run ∈ record.ended, Complete run) :
    Phase after record' := by
  have both {last : List Text} (h : Complete last) :
      ∀ run ∈ record.ended ++ [last], Complete run := by
    simpa [or_imp, forall_and] using ⟨complete, h⟩
  cases leads with
  | renews clears awaits field output recorded =>
    rw [recorded]
    exact .awaits awaits ⟨_, [], rfl⟩ (both (begun.complete []))
  | goesOn texts spares stays awaits recorded =>
    obtain ⟨title, front, latest⟩ := begun
    rw [recorded, latest]
    exact .awaits awaits ⟨title, front ++ texts, rfl⟩ complete
  | ends texts spares ends gone recorded =>
    rw [recorded]
    exact .ended gone (both (begun.complete texts))

end Phase

section Console

variable {steps : List Application.Step}

/-- When the panel has been put on the screen a session has shown its banner and waits. -/
theorem awaits_start (course : Course) (fresh : panel.stdin.Fresh Live.thread) :
    (course.start panel).application.Awaits ∧
      course.record panel [] = ⟨[], [banner (course []).title]⟩ := by
  have begun := @begin_of_fresh { panel := panel.say (.ready panel.trigger) } course [] fresh
  have shown : (course.arising [] { panel := panel.say (.ready panel.trigger) }).done =
      opening (course []) := (course.rest_beginning fresh []).2.1
  rw [start, launch, record, List.foldl_nil, recordLaunch]
  dsimp only
  rw [shown]
  generalize course.begin [] _ = turn at begun
  obtain ⟨session, waits, running, -⟩ := begun
  simp only [exitIfOver, recordExitIfOver, isOver_of_opened session]
  exact ⟨⟨running, session, waits⟩, rfl⟩

/-- A step of an application that runs. -/
theorem leads_console (never : ∀ past line message, (course past).execute line ≠ .failure message)
    (awaits : (course.console panel steps).application.Awaits) (step : Application.Step) :
    let now := course.console panel steps
    course.Leads now.executed now.application step (course.record panel steps)
      (course.console panel (steps ++ [step])).application
      (course.record panel (steps ++ [step])) := by
  intro now
  rw [console_concat, record_concat, if_pos awaits.running]
  exact leads_use never awaits _ step

/-- No step is taken once the application has ended. -/
theorem console_concat_of_ended (course : Course)
    (ended : (course.console panel steps).application.running = false) (step : Application.Step) :
    course.console panel (steps ++ [step]) = course.console panel steps ∧
      course.record panel (steps ++ [step]) = course.record panel steps := by
  rw [console_concat, record_concat]
  simp [use, ended]

/-- **A whole life.** An application runs with a session that waits for a line, or it has ended and
all its sessions are complete. -/
theorem phase_console (fresh : panel.stdin.Fresh Live.thread)
    (never : ∀ past line message, (course past).execute line ≠ .failure message)
    (steps : List Application.Step) :
    Phase (course.console panel steps).application (course.record panel steps) := by
  induction steps using List.reverseRecOn with
  | nil =>
    obtain ⟨awaits, shown⟩ := course.awaits_start fresh
    rw [shown]
    exact .awaits awaits ⟨_, [], rfl⟩ (by simp)
  | append_singleton steps step phase =>
    cases phase with
    | awaits awaits begun complete => exact (leads_console never awaits step).phase begun complete
    | ended gone complete =>
      obtain ⟨now, record⟩ := course.console_concat_of_ended gone.ended step
      rw [now, record]
      exact .ended gone complete

/-- **The application runs** up to the first step that is to end it. -/
theorem running_console_iff (fresh : panel.stdin.Fresh Live.thread)
    (never : ∀ past line message, (course past).execute line ≠ .failure message)
    (steps : List Application.Step) :
    (course.console panel steps).application.running = true ↔ ∀ front step,
      front ++ [step] <+: steps → ¬ (course.console panel front).application.Ends step := by
  induction steps using List.reverseRecOn with
  | nil =>
    obtain ⟨awaits, -⟩ := course.awaits_start fresh
    refine iff_of_true awaits.running fun front step earlier => ?_
    simp at earlier
  | append_singleton steps step ih =>
    have split : (∀ front other, front ++ [other] <+: steps ++ [step] →
          ¬ (course.console panel front).application.Ends other) ↔
        (course.console panel steps).application.running = true ∧
          ¬ (course.console panel steps).application.Ends step := by
      rw [ih]
      constructor
      · intro all
        refine ⟨fun front other earlier => ?_, all steps step List.prefix_rfl⟩
        exact all front other (List.prefix_concat_iff.mpr (.inr earlier))
      · rintro ⟨earlier, last⟩ front other taken
        rcases List.prefix_concat_iff.mp taken with same | before
        · obtain ⟨rfl, rfl⟩ := List.append_singleton_inj.mp same
          exact last
        · exact earlier front other before
    rw [split]
    cases course.phase_console fresh never steps with
    | awaits awaits =>
      rw [(leads_console never awaits step).running_iff]
      exact (and_iff_right awaits.running).symm
    | ended gone =>
      rw [(course.console_concat_of_ended gone.ended step).1, gone.ended]
      simp

/-- What a step adds to the record it adds to the end of the output pane. -/
theorem writes_console (course : Course) (panel : Panel) (steps : List Application.Step)
    (step : Application.Step) :
    ∃ before, Writes before (course.console panel (steps ++ [step])).application.panel
      (course.record panel steps) (course.record panel (steps ++ [step])) := by
  rw [console_concat, record_concat]
  generalize course.console panel steps = now
  unfold use
  split
  case isFalse => exact ⟨_, .refl _ _⟩
  case isTrue =>
    cases performed : course.perform now.executed now.application step with
    | ok turn => exact written_recordPerform performed _
    | error fault =>
      obtain ⟨-, -, -, recorded⟩ := perform_refused performed
      rw [recorded]
      exact ⟨_, .refl _ _⟩

/-- **The life of an application and of its sessions.** Let the interpreter give up on no line, and
let the user take any steps. The application runs up to the first step that closes the stream or
submits a line that asks to quit. As long as it runs the latest session has shown its banner and
waits for a line, and the sessions before it have said their farewell. When it has ended the stream
is closed, the session has stopped, and every session that was begun has said its farewell.

One more step leads an application that runs to one of three places. A fresh start ends the session
and begins another one: the pane then shows the one's farewell and the other's banner, nothing is on
the input line, no popup is open, and nothing is left to read on the open stream. Any other step
ends no session, unless it ends the application; and it begins none. What is recorded of the
sessions is what was written to the output pane.

With an interpreter that remembers nothing, this is what the application's own play shows. -/
theorem sessions_follow (course : Course) {panel : Panel} (fresh : panel.stdin.Fresh Live.thread)
    (never : ∀ past line message, (course past).execute line ≠ .failure message)
    (steps : List Application.Step) :
    let now := course.console panel steps
    let record := course.record panel steps
    course.record panel [] = ⟨[], [banner (course []).title]⟩ ∧
      (now.application.running = true ↔ ∀ front step, front ++ [step] <+: steps →
        ¬ (course.console panel front).application.Ends step) ∧
      (now.application.running = true → now.application.Awaits ∧ Begun record.latest ∧
        ∀ run ∈ record.ended, Complete run) ∧
      (now.application.running = false → now.application.Over ∧
        ∀ run ∈ record.ended ++ [record.latest], Complete run) ∧
      (∀ step,
        let next := course.console panel (steps ++ [step])
        let record' := course.record panel (steps ++ [step])
        (now.application.running = true →
            course.Leads now.executed now.application step record next.application record') ∧
          (now.application.running = false → next = now ∧ record' = record) ∧
          ∃ before, Writes before next.application.panel record record') ∧
      ∀ interpreter played, course = .constant interpreter →
        Application.play interpreter panel (steps.map .step) = .ok played → now.ShownBy played := by
  intro now record
  have phase := course.phase_console fresh never steps
  refine ⟨(course.awaits_start fresh).2, course.running_console_iff fresh never steps,
    fun running => ?_, fun ended => ?_, fun step => ⟨fun running => ?_, fun ended => ?_, ?_⟩, ?_⟩
  · cases phase with
    | awaits awaits begun complete => exact ⟨awaits, begun, complete⟩
    | ended gone => exact nomatch running.symm.trans gone.ended
  · cases phase with
    | awaits awaits => exact nomatch ended.symm.trans awaits.running
    | ended gone complete => exact ⟨gone, complete⟩
  · cases phase with
    | awaits awaits => exact leads_console never awaits step
    | ended gone => exact nomatch running.symm.trans gone.ended
  · exact course.console_concat_of_ended ended step
  · exact course.writes_console panel steps step
  · rintro interpreter played rfl
    exact shownBy_play

/-- A line is executed, the panel is cleared, and a request to quit is pasted between two lines. -/
theorem sessions_follow_of_paste :
    let course := Course.constant (Echo.interpreter [])
    let panel : Panel := { prompt := .text defaultPrompt }
    let steps : List Application.Step := [.onPanel (.type "1".toList), .key .enter, .key .controlL]
    let last : Application.Step := .onPanel (.paste "2\n:q\n3\n".toList)
    let record := course.record panel (steps ++ [last])
    panel.stdin.Fresh Live.thread ∧
      (∀ past line message, (course past).execute line ≠ .failure message) ∧
      (course.console panel steps).application.Awaits ∧
      (course.console panel (steps ++ [last])).application.Over ∧
      record.ended = [[banner "Echo".toList, "1".toList, farewell]] ∧
      record.latest = [banner "Echo".toList, "2".toList, farewell] ∧
      ∀ run ∈ record.ended ++ [record.latest], Complete run := by
  have fresh : ({ prompt := .text defaultPrompt } : Panel).stdin.Fresh Live.thread :=
    InputStream.fresh_new _
  have never : ∀ past line message,
      (Course.constant (Echo.interpreter []) past).execute line ≠ .failure message := by
    simp [constant, Echo.interpreter]
  have follow (steps) := sessions_follow (.constant (Echo.interpreter [])) fresh never steps
  -- With the abbreviations opened, no run is evaluated only to compare two terms.
  dsimp only at follow ⊢
  refine ⟨fresh, never, ((follow _).2.2.1 (by decide)).1, ((follow _).2.2.2.1 (by decide)).1,
    by decide, by decide, ((follow _).2.2.2.1 (by decide)).2⟩

end Console

end Session.Course

end LineConsole
