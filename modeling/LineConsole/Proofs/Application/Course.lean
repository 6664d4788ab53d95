import LineConsole.Application.Play
import LineConsole.Proofs.Session.Resting

/-!
# The application with an interpreter that remembers

The application was described with an interpreter that remembers nothing. Here its interpreter may
remember what it executed, and a record is kept of what was submitted and what was executed while
the user takes step after step.

A line is submitted when Enter is pressed with no popup open, and for each line that a paste
completes. What a step on the panel does to the stream is one of three things: it feeds it the lines
that are submitted, it resets it, or it closes it.

## Main definitions

* `Course.going` — how the session goes on when it is let run
* `Course.launch`, `Course.attend`, `Course.perform` — the application, step by step
* `Panel.submits`, `Application.submits` — the lines that a step submits
* `Panel.Affects`, `InputStream.Touches` — what a step makes of a panel, and of its stream
* `Console`, `Course.console` — a whole run, with the lines that were executed and submitted
* `Console.ShownBy` — what a play shows of a run

## Main results

* `shownBy_play` — with an interpreter that remembers nothing, a run is the application's own
* `perform_affects` — a step on the panel makes of it one of three things
* `perform_cases` — what a step of the application comes down to
-/

namespace LineConsole

open Text Program

namespace Session.Course

variable {course : Course} {past : List Text} {app : Application}

/-! ## The application -/

/-- The application takes over what a session has come to. -/
def takeOver (app : Application) (scene : Scene Stage Event) : Application.Turn :=
  app.follow (⟨scene.stream, scene.state.session⟩, scene.done)

/-- How the session goes on when it is let run. -/
def going (course : Course) (past : List Text) (app : Application) : Scene Stage Event :=
  course.program.rest Live.thread ⟨app.panel.stdin, ⟨past, app.session⟩, []⟩

/-- The session runs until it waits or has ended. -/
def settle (course : Course) (past : List Text) (app : Application) : Application.Turn :=
  takeOver app (course.program.rest Live.thread ⟨app.panel.stdin, ⟨past, app.session⟩, []⟩)

/-- The session opens and runs until it waits or has ended. -/
def begin (course : Course) (past : List Text) (app : Application) : Application.Turn :=
  takeOver app (course.program.rest Live.thread (course.beginning past app.panel.stdin))

/-- The application ends: the stream is closed, and the session finds it so. -/
def exit (course : Course) (past : List Text) (app : Application) : Application.Turn :=
  course.settle past { app with panel := app.panel.close, running := false }

/-- Ends the application if it is over. -/
def exitIfOver (course : Course) (past : List Text) (turn : Application.Turn) : Application.Turn :=
  if turn.application.isOver then
    let last := course.exit (past ++ turn.executed) turn.application
    { last with executed := turn.executed ++ last.executed }
  else turn

/-- The session runs; if it ended because the stream was reset it opens again; if it ended otherwise
so does the application. -/
def attend (course : Course) (past : List Text) (app : Application) : Application.Turn :=
  let turn := course.settle past app
  if turn.application.sessionEnded && !turn.application.isOver then
    let again := course.begin (past ++ turn.executed) turn.application
    course.exitIfOver past { again with executed := turn.executed ++ again.executed }
  else course.exitIfOver past turn

/-- The panel is put on the screen and the session opens. -/
def launch (course : Course) (panel : Panel) : Application.Turn :=
  course.exitIfOver [] (course.begin [] { panel := panel.say (.ready panel.trigger) })

/-- A step on the panel, and a pause in which the session comes to rest. -/
def onPanel (course : Course) (past : List Text) (app : Application) (step : Panel.Step) :
    Except Fault Application.Turn := do
  let turn ← app.panel.perform (course past).completions step
  return { course.attend past { app with panel := turn.panel } with
    queries := turn.queries
    warnings := turn.warnings }

/-- One step, and a pause in which the session comes to rest. -/
def perform (course : Course) (past : List Text) (app : Application) :
    Application.Step → Except Fault Application.Turn
  | .onPanel step => course.onPanel past app step
  | .key key =>
    match Application.ofKey app.panel key with
    | .onPanel step => course.onPanel past app step
    | .nothing => .ok (course.attend past app)
    | .exit => .ok (course.exit past app)

/-! With an interpreter that remembers nothing, these are the application's own. -/

section Constant

variable (interpreter : Interpreter) (past : List Text) (app : Application)

theorem settle_constant :
    (constant interpreter).settle past app = app.settle interpreter := by
  have settled :=
    (shows_constant interpreter).settle Live.thread app.panel.stdin ⟨past, app.session⟩
  simp only [Application.settle, Live.settle, Application.live, settled]
  rfl

theorem begin_constant :
    (constant interpreter).begin past app = app.follow (app.live.begin interpreter) := by
  have settled := (shows_constant interpreter).settle Live.thread app.panel.stdin ⟨past, opened⟩
  simp only [Live.begin, Live.reopen, Live.settle, Application.live, settled]
  rfl

theorem exit_constant : (constant interpreter).exit past app = app.exit interpreter :=
  settle_constant ..

theorem exitIfOver_constant (turn : Application.Turn) :
    (constant interpreter).exitIfOver past turn = Application.exitIfOver interpreter turn := by
  simp only [exitIfOver, Application.exitIfOver, exit_constant]

theorem attend_constant : (constant interpreter).attend past app = app.attend interpreter := by
  simp only [attend, Application.attend, settle_constant, begin_constant, exitIfOver_constant]

theorem launch_constant (panel : Panel) :
    (constant interpreter).launch panel = Application.launch interpreter panel := by
  simp only [launch, Application.launch, begin_constant, exitIfOver_constant]

theorem perform_constant (step : Application.Step) :
    (constant interpreter).perform past app step = app.perform interpreter step := by
  have onPanel (step : Panel.Step) :
      (constant interpreter).onPanel past app step = app.onPanel interpreter step := by
    simp only [onPanel, Application.onPanel, attend_constant]
    rfl
  cases step with
  | onPanel step => exact onPanel step
  | key key =>
    simp only [perform, Application.perform, attend_constant, exit_constant]
    cases Application.ofKey app.panel key with
    | onPanel step => exact onPanel step
    | nothing | exit => rfl

end Constant

end Session.Course

/-! ## What is submitted -/

/-- What is done to a stream that lines are submitted to, and that may be closed. -/
inductive InputStream.Touches (s : InputStream) (mayClose : Prop) : List Text → InputStream → Prop
  | feeds (list : List Text) : Touches s mayClose list (s.feed list)
  | clears : Touches s mayClose [] s.clear.1
  | closes : mayClose → Touches s mayClose [] s.close.1

namespace InputStream

variable {s s' : InputStream} {mayClose mayClose' : Prop} {list : List Text} {thread : ThreadId}

theorem Touches.mono (h : s.Touches mayClose list s') (weaker : mayClose → mayClose') :
    s.Touches mayClose' list s' := by
  cases h with
  | feeds list => exact .feeds list
  | clears => exact .clears
  | closes may => exact .closes (weaker may)

theorem callOf?_append_of_idle (idle : s.callOf? thread = none) (text : Text) :
    (s.append text).1.callOf? thread = none := by
  unfold append
  split
  · exact idle
  · split
    · exact idle
    · rw [callOf?_wakeAll]
      exact congrArg (Option.map Call.wake) idle

theorem callOf?_close_of_idle (idle : s.callOf? thread = none) :
    s.close.1.callOf? thread = none := by
  unfold close
  split
  · exact idle
  · rw [callOf?_wakeAll]
    exact congrArg (Option.map Call.wake) idle

/-- Nothing that is done to a stream starts a read. -/
theorem Touches.idle (h : s.Touches mayClose list s') (idle : s.callOf? thread = none) :
    s'.callOf? thread = none := by
  cases h with
  | feeds list =>
    induction list generalizing s with
    | nil => exact idle
    | cons line list ih => exact ih (callOf?_append_of_idle idle _)
  | clears => exact (fresh_clear idle).idle
  | closes => exact callOf?_close_of_idle idle

end InputStream

theorem bind_eq_ok {α β : Type} {x : Except Fault α} {f : α → Except Fault β} {b : β}
    (h : x >>= f = .ok b) : ∃ a, x = .ok a ∧ f a = .ok b := by
  cases x with
  | error fault => cases h
  | ok a => exact ⟨a, rfl, h⟩

namespace Panel

/-- The lines that a step on a panel submits: the input line, or the pieces of a paste and what
stands around it that a break ends. -/
def submits (panel : Panel) : Panel.Step → List Text
  | .commit => [panel.field.editor.text]
  | .paste text =>
    let editor := panel.field.editor
    ((editor.before ++ text.normalizeBreaks ++ editor.after).splitOn '\n').dropLast
  | _ => []

/-- The step closes the stream. -/
def Step.Closes (step : Panel.Step) : Prop := step = .close ∨ step = .endInput

variable {panel : Panel}

theorem stdin_foldl_submit (list : List Text) :
    (list.foldl submit panel).stdin = panel.stdin.feed list := by
  induction list generalizing panel with
  | nil => rfl
  | cons line list ih => exact ih

theorem stdin_foldl_write (texts : List Text) : (texts.foldl write panel).stdin = panel.stdin := by
  induction texts generalizing panel with
  | nil => rfl
  | cons text texts ih => exact ih

theorem stdin_openPopup (source : Source) : (panel.openPopup source).stdin = panel.stdin := by
  simp only [openPopup]
  split <;> rfl

theorem stdin_move (offset : Int) : (panel.move offset).stdin = panel.stdin := by
  simp only [move]
  split <;> rfl

theorem stdin_accept {result : Panel × List Completion.Warning} (h : panel.accept = .ok result) :
    result.1.stdin = panel.stdin := by
  cases pending : panel.field.pending with
  | none =>
    simp only [accept, pending] at h
    cases h
    rfl
  | some request =>
    simp only [accept, pending] at h
    obtain ⟨acceptance, -, accepted⟩ := bind_eq_ok h
    cases accepted
    dsimp only
    split <;> rfl

/-- What a step makes of a panel: a fresh start; or a panel whose stream was closed; or one whose
stream was fed the lines that the step submits. -/
inductive Affects (panel : Panel) : Panel.Step → Panel → Prop
  | clears : Affects panel .clear panel.clear
  | closes {step : Panel.Step} {after : Panel} :
      step.Closes → after.stdin = panel.stdin.close.1 → Affects panel step after
  | feeds {step : Panel.Step} {after : Panel} : step ≠ .clear → ¬ step.Closes →
      after.stdin = panel.stdin.feed (panel.submits step) → Affects panel step after

/-- **A step on a panel** gives it a fresh start, closes its stream, or feeds it what is submitted.
-/
theorem perform_affects {source : Source} {step : Panel.Step} {turn : Panel.Turn}
    (h : panel.perform source step = .ok turn) : panel.Affects step turn.panel := by
  cases step with
  | clear =>
    cases h
    exact .clears
  | close =>
    cases h
    exact .closes (.inl rfl) rfl
  | endInput =>
    cases h
    exact .closes (.inr rfl) rfl
  | paste text =>
    cases h
    exact .feeds (by simp) (by simp [Step.Closes]) (stdin_foldl_submit _)
  | commit | type | moveTo | dismiss | writeLine | setPrompt | build =>
    cases h
    exact .feeds (by simp) (by simp [Step.Closes]) rfl
  | openPopup =>
    cases h
    exact .feeds (by simp) (by simp [Step.Closes]) (stdin_openPopup source)
  | move offset =>
    cases h
    exact .feeds (by simp) (by simp [Step.Closes]) (stdin_move offset)
  | write texts =>
    cases h
    exact .feeds (by simp) (by simp [Step.Closes]) (stdin_foldl_write texts)
  | place text cursor =>
    obtain ⟨editor, -, placed⟩ := bind_eq_ok h
    cases placed
    exact .feeds (by simp) (by simp [Step.Closes]) rfl
  | accept =>
    obtain ⟨result, accepted, given⟩ := bind_eq_ok h
    cases given
    exact .feeds (by simp) (by simp [Step.Closes]) (stdin_accept accepted)

/-- So it feeds the stream the lines that are submitted, or resets it or closes it. -/
theorem Affects.touches {step : Panel.Step} {after : Panel} (h : panel.Affects step after) :
    panel.stdin.Touches step.Closes (panel.submits step) after.stdin := by
  cases h with
  | clears => exact .clears
  | closes closes stdin =>
    rw [stdin]
    rcases closes with rfl | rfl <;> exact .closes (by simp [Step.Closes])
  | feeds _ _ stdin =>
    rw [stdin]
    exact .feeds _

end Panel

namespace Application

/-- The step closes the stream, alone or together with the application. -/
inductive Step.Closes : Step → Prop
  | onPanel {step : Panel.Step} : step.Closes → Closes (.onPanel step)
  | controlD : Closes (.key .controlD)
  | controlC : Closes (.key .controlC)
  | controlQ : Closes (.key .controlQ)

theorem closes_of_ofKey {panel : Panel} {key : Key} {step : Panel.Step}
    (h : ofKey panel key = .onPanel step) (closes : step.Closes) : Step.Closes (.key key) := by
  cases key with
  | controlD => exact .controlD
  | enter | tab | controlSpace | up | down | escape | controlC | controlQ | controlL =>
    rcases closes with rfl | rfl <;> grind [ofKey]

theorem closes_of_ofKey_exit {panel : Panel} {key : Key} (h : ofKey panel key = .exit) :
    Step.Closes (.key key) := by
  cases key with
  | controlC => exact .controlC
  | controlQ => exact .controlQ
  | enter | tab | controlSpace | up | down | escape | controlD | controlL => grind [ofKey]

/-- The lines that a step of the application submits. -/
def submits (app : Application) : Application.Step → List Text
  | .onPanel step => app.panel.submits step
  | .key key =>
    match ofKey app.panel key with
    | .onPanel step => app.panel.submits step
    | .nothing | .exit => []

end Application

namespace Session.Course

/-! ## A whole run -/

/-- The application after some steps, with the lines that were executed and those submitted. -/
structure Console where
  application : Application
  executed : List Text
  submitted : List Text := []

/-- The panel is put on the screen, with an interpreter that has executed nothing. -/
def start (course : Course) (panel : Panel) : Console where
  application := (course.launch panel).application
  executed := (course.launch panel).executed

/-- One step, if the application still runs. A step that is refused changes nothing. -/
def use (course : Course) (console : Console) (step : Application.Step) : Console :=
  if console.application.running then
    match course.perform console.executed console.application step with
    | .ok turn =>
      ⟨turn.application, console.executed ++ turn.executed,
        console.submitted ++ console.application.submits step⟩
    | .error _ => console
  else console

/-- The panel is put on the screen, and the user takes step after step. -/
def console (course : Course) (panel : Panel) (steps : List Application.Step) : Console :=
  steps.foldl course.use (course.start panel)

theorem console_concat (course : Course) (panel : Panel) (steps : List Application.Step)
    (step : Application.Step) :
    course.console panel (steps ++ [step]) = course.use (course.console panel steps) step := by
  rw [console, List.foldl_append]
  rfl

/-- The play shows the console: in its frames, up to the one for the end, the lines were executed,
and the last of them shows the application. -/
def Console.ShownBy (console : Console) (record : Application.Play) : Prop :=
  ∃ turns last, record.frames = turns ++ [last] ∧
    turns.flatMap (·.executed) = console.executed ∧
    turns.getLast?.map (·.application) = some console.application

section Play

variable {interpreter : Interpreter} {panel : Panel} {steps : List Application.Step}
  {record : Application.Play}

theorem foldl_use_of_not_running (course : Course) {console : Console}
    (stopped : console.application.running = false) (steps : List Application.Step) :
    steps.foldl course.use console = console := by
  induction steps with
  | nil => rfl
  | cons step steps ih =>
    have same : course.use console step = console := by simp [use, stopped]
    rw [List.foldl_cons, same, ih]

theorem map_getLast?_cons {α β : Type} (f : α → β) (a : α) (list : List α) :
    (a :: list).getLast?.map f = some ((list.getLast?.map f).getD (f a)) := by
  rw [List.getLast?_cons]
  cases list.getLast? <;> rfl

/-- A play that goes on takes the steps that the console takes, and ends with one more frame. -/
theorem foldl_use_of_playOn {console : Console}
    (played : console.application.playOn interpreter (steps.map .step) = .ok record) :
    let now := steps.foldl (constant interpreter).use console
    ∃ turns last, record.frames = turns ++ [last] ∧
      console.executed ++ turns.flatMap (·.executed) = now.executed ∧
      (turns.getLast?.map (·.application)).getD console.application = now.application := by
  induction steps generalizing console record with
  | nil =>
    cases played
    exact ⟨[], _, rfl, by simp, rfl⟩
  | cons step steps ih =>
    simp only [List.map_cons, Application.playOn] at played
    split at played
    case isFalse stopped =>
      cases played
      rw [foldl_use_of_not_running _ (by simpa using stopped)]
      exact ⟨[], _, rfl, by simp, rfl⟩
    case isTrue running =>
      obtain ⟨turn, performed, goesOn⟩ := bind_eq_ok played
      obtain ⟨later, played', recorded⟩ := bind_eq_ok goesOn
      cases recorded
      let next : Console :=
        ⟨turn.application, console.executed ++ turn.executed,
          console.submitted ++ console.application.submits step⟩
      have used : (constant interpreter).use console step = next := by
        simp [use, running, perform_constant, performed, next]
      obtain ⟨turns, last, frames, executed, application⟩ := @ih _ next played'
      rw [List.foldl_cons, used]
      refine ⟨turn :: turns, last, congrArg _ frames, ?_, ?_⟩
      · rw [← executed, List.flatMap_cons, ← List.append_assoc]
      · rw [← application, map_getLast?_cons, Option.getD_some]

/-- With an interpreter that remembers nothing, a run is shown by the application's own play. -/
theorem shownBy_play (played : Application.play interpreter panel (steps.map .step) = .ok record) :
    ((constant interpreter).console panel steps).ShownBy record := by
  obtain ⟨later, played', recorded⟩ := bind_eq_ok played
  cases recorded
  rw [← launch_constant] at played' ⊢
  obtain ⟨turns, last, frames, executed, application⟩ :=
    @foldl_use_of_playOn _ _ _ ((constant interpreter).start panel) played'
  refine ⟨_ :: turns, last, congrArg _ frames, executed, ?_⟩
  rw [map_getLast?_cons, console, ← application]
  rfl

end Play

/-- **A step of the application** feeds the stream the lines that it submits, or resets it or closes
it, and lets the session come to rest; or it submits nothing and ends the application. -/
theorem perform_cases {course : Course} {past : List Text} {app : Application}
    {step : Application.Step} {turn : Application.Turn}
    (h : course.perform past app step = .ok turn) :
    (∃ panel, app.panel.stdin.Touches step.Closes (app.submits step) panel.stdin ∧
      turn.application = (course.attend past { app with panel }).application ∧
      turn.executed = (course.attend past { app with panel }).executed) ∨
    (step.Closes ∧ app.submits step = [] ∧ turn = course.exit past app) := by
  have onPanel {mayClose : Prop} {step : Panel.Step} (closes : step.Closes → mayClose)
      (h : course.onPanel past app step = .ok turn) :
      ∃ panel, app.panel.stdin.Touches mayClose (app.panel.submits step) panel.stdin ∧
        turn.application = (course.attend past { app with panel }).application ∧
        turn.executed = (course.attend past { app with panel }).executed := by
    obtain ⟨done, performed, given⟩ := bind_eq_ok h
    cases given
    exact ⟨done.panel, (Panel.perform_affects performed).touches.mono closes, rfl, rfl⟩
  cases step with
  | onPanel step => exact .inl (onPanel .onPanel h)
  | key key =>
    simp only [perform, Application.submits] at h ⊢
    cases effect : Application.ofKey app.panel key with
    | onPanel step =>
      rw [effect] at h
      exact .inl (onPanel (Application.closes_of_ofKey effect) h)
    | nothing =>
      rw [effect] at h
      cases h
      exact .inl ⟨app.panel, .feeds [], rfl, rfl⟩
    | exit =>
      rw [effect] at h
      cases h
      exact .inr ⟨Application.closes_of_ofKey_exit effect, rfl, rfl⟩

end Session.Course

end LineConsole
