import LineConsole.Proofs.Application.Course

/-!
# What the sessions of an application write

While the application runs, one session follows another on the thread that reads its stream: a
session that ended because the panel was cleared is opened again. A record is kept of them. It holds
what each session wrote that has ended, and what the latest one has written so far. It is kept at
the two places where the application lets a session run: there a session goes on, or a new one
begins.

The record holds nothing but what was written to the output pane. Whatever a step does to the panel
first, what it then adds to the record it adds to the end of the pane, a line each.

## Main definitions

* `Application.Step.Clears` — the step gives the panel a fresh start
* `Application.Becomes` — the panel that a step leaves to the session
* `Record` — what each session wrote
* `Course.recordAttend`, `Course.recordPerform`, `Course.record` — the record of a step and of a run

## Main results

* `perform_becomes` — what a step of the application comes down to, with its record
* `written_recordPerform` — what is recorded stands at the end of the output pane
-/

namespace LineConsole

open Text Program

namespace Application

/-! ## What a step does to the panel -/

/-- The step gives the panel a fresh start. -/
inductive Step.Clears : Step → Prop
  | onPanel : Clears (.onPanel .clear)
  | controlL : Clears (.key .controlL)

/-- What a step is to the application: a step on the panel, nothing, or the end. -/
def effect (app : Application) : Step → Effect
  | .onPanel step => .onPanel step
  | .key key => ofKey app.panel key

/-- The panel that a step leaves to the session: a fresh one, one whose stream was closed, or one
whose stream was fed the lines that the step submits. -/
inductive Becomes (app : Application) (step : Step) (panel : Panel) : Prop
  | clears : step.Clears → panel = app.panel.clear → Becomes app step panel
  | closes : step.Closes → ¬ step.Clears → panel.stdin = app.panel.stdin.close.1 →
      Becomes app step panel
  | feeds : ¬ step.Closes → ¬ step.Clears →
      panel.stdin = app.panel.stdin.feed (app.submits step) → Becomes app step panel

variable {app : Application} {step : Step}

theorem effect_eq_clear_iff : app.effect step = .onPanel .clear ↔ step.Clears := by
  constructor
  · intro clears
    cases step with
    | onPanel step =>
      cases clears
      exact .onPanel
    | key key =>
      cases key with
      | controlL => exact .controlL
      | enter | tab | controlSpace | up | down | escape | controlC | controlQ | controlD =>
        grind [effect, ofKey]
  · rintro (_ | _) <;> rfl

/-- The step closes the stream if it does so on the panel, or is the end. -/
theorem closes_iff : step.Closes ↔
    app.effect step = .exit ∨ ∃ closing, app.effect step = .onPanel closing ∧ closing.Closes := by
  constructor
  · intro closes
    cases closes with
    | @onPanel closing closes => exact .inr ⟨closing, rfl, closes⟩
    | controlD => exact .inr ⟨.endInput, rfl, .inr rfl⟩
    | controlC | controlQ => exact .inl rfl
  · rintro (exits | ⟨closing, same, closes⟩)
    · cases step with
      | onPanel => cases exits
      | key key => exact closes_of_ofKey_exit exits
    · cases step with
      | onPanel step =>
        cases same
        exact .onPanel closes
      | key key => exact closes_of_ofKey same closes

/-- A step submits what it submits on the panel. -/
theorem submits_eq : app.submits step =
    match app.effect step with
    | .onPanel step => app.panel.submits step
    | .nothing | .exit => [] := by
  cases step <;> rfl

end Application

namespace Session.Course

/-! ## The record -/

/-- What the sessions of an application wrote: each of those that have ended, and the latest one. -/
structure Record where
  ended : List (List Text) := []
  latest : List Text
deriving DecidableEq, Repr

namespace Record

/-- The latest session has gone on. -/
def goOn (record : Record) (scene : Scene Stage Event) : Record :=
  { record with latest := record.latest ++ writtenTexts scene.done }

/-- Another session has begun. -/
def begin (record : Record) (scene : Scene Stage Event) : Record :=
  ⟨record.ended ++ [record.latest], writtenTexts scene.done⟩

/-- All that was written. -/
def texts (record : Record) : List Text := record.ended.flatten ++ record.latest

end Record

/-- How a session begins. -/
def arising (course : Course) (past : List Text) (app : Application) : Scene Stage Event :=
  course.program.rest Live.thread (course.beginning past app.panel.stdin)

/-- The record when the application is ended. -/
def recordExit (course : Course) (past : List Text) (app : Application) (record : Record) :
    Record :=
  record.goOn (course.going past { app with panel := app.panel.close, running := false })

/-- The record when the application ends if it is over. -/
def recordExitIfOver (course : Course) (past : List Text) (turn : Application.Turn)
    (record : Record) : Record :=
  if turn.application.isOver then course.recordExit (past ++ turn.executed) turn.application record
  else record

/-- The record when the session runs and opens again or ends the application. -/
def recordAttend (course : Course) (past : List Text) (app : Application) (record : Record) :
    Record :=
  let turn := course.settle past app
  let record := record.goOn (course.going past app)
  if turn.application.sessionEnded && !turn.application.isOver then
    let again := course.begin (past ++ turn.executed) turn.application
    course.recordExitIfOver past { again with executed := turn.executed ++ again.executed }
      (record.begin (course.arising (past ++ turn.executed) turn.application))
  else course.recordExitIfOver past turn record

/-- The record of one step. A step that is refused leaves it as it is. -/
def recordPerform (course : Course) (past : List Text) (app : Application)
    (step : Application.Step) (record : Record) : Record :=
  match app.effect step with
  | .onPanel step =>
    match app.panel.perform (course past).completions step with
    | .ok turn => course.recordAttend past { app with panel := turn.panel } record
    | .error _ => record
  | .nothing => course.recordAttend past app record
  | .exit => course.recordExit past app record

/-- The record when the panel has been put on the screen. -/
def recordLaunch (course : Course) (panel : Panel) : Record :=
  let app : Application := { panel := panel.say (.ready panel.trigger) }
  course.recordExitIfOver [] (course.begin [] app)
    { latest := writtenTexts (course.arising [] app).done }

/-- One step of a whole run, with the record. -/
def keep (course : Course) (kept : Console × Record) (step : Application.Step) :
    Console × Record :=
  (course.use kept.1 step,
    if kept.1.application.running then
      course.recordPerform kept.1.executed kept.1.application step kept.2
    else kept.2)

/-- The record of a whole run. -/
def record (course : Course) (panel : Panel) (steps : List Application.Step) : Record :=
  (steps.foldl course.keep (course.start panel, course.recordLaunch panel)).2

/-- The record is that of the run, step by step. -/
theorem record_concat (course : Course) (panel : Panel) (steps : List Application.Step)
    (step : Application.Step) :
    let now := course.console panel steps
    course.record panel (steps ++ [step]) =
      if now.application.running then
        course.recordPerform now.executed now.application step (course.record panel steps)
      else course.record panel steps := by
  have kept (list : List Application.Step) (kept : Console × Record) :
      (list.foldl course.keep kept).1 = list.foldl course.use kept.1 := by
    induction list generalizing kept with
    | nil => rfl
    | cons first list ih => exact ih _
  rw [record, List.foldl_append, List.foldl_cons, List.foldl_nil, keep, kept]
  rfl

/-! ## What is recorded is what was written -/

/-- What was added to a record was added to the end of an output pane, a line each. -/
def Writes (panel after : Panel) (record record' : Record) : Prop :=
  ∃ texts, record'.texts = record.texts ++ texts ∧ after.output = panel.output ++ feeding texts

section Writes

variable {course : Course} {past : List Text} {app : Application} {panel after later : Panel}
  {record record' record'' : Record}

theorem Writes.refl (panel : Panel) (record : Record) : Writes panel panel record record :=
  ⟨[], by simp, by simp [feeding]⟩

theorem Writes.trans (h : Writes panel after record record')
    (h' : Writes after later record' record'') : Writes panel later record record'' := by
  obtain ⟨texts, recorded, written⟩ := h
  obtain ⟨more, recorded', written'⟩ := h'
  refine ⟨texts ++ more, ?_, ?_⟩
  · rw [recorded', recorded, List.append_assoc]
  · rw [written', written, feeding, feeding, feeding, List.flatMap_append, List.append_assoc]

theorem output_foldl_writeLine (texts : List Text) (panel : Panel) :
    (texts.foldl Panel.writeLine panel).output = panel.output ++ feeding texts := by
  induction texts generalizing panel with
  | nil => exact (List.append_nil _).symm
  | cons text texts ih =>
    rw [List.foldl_cons, ih]
    simp [Panel.writeLine, Panel.write, feeding]

theorem output_takeOver (app : Application) (scene : Scene Stage Event) :
    (takeOver app scene).application.panel.output =
      app.panel.output ++ feeding (writtenTexts scene.done) :=
  output_foldl_writeLine (writtenTexts scene.done) app.panel

theorem writes_goOn (app : Application) (scene : Scene Stage Event) (record : Record) :
    Writes app.panel (takeOver app scene).application.panel record (record.goOn scene) :=
  ⟨writtenTexts scene.done, by simp [Record.texts, Record.goOn], output_takeOver app scene⟩

theorem writes_begin (app : Application) (scene : Scene Stage Event) (record : Record) :
    Writes app.panel (takeOver app scene).application.panel record (record.begin scene) :=
  ⟨writtenTexts scene.done, by simp [Record.texts, Record.begin], output_takeOver app scene⟩

theorem writes_recordExit (course : Course) (past : List Text) (app : Application)
    (record : Record) :
    Writes app.panel (course.exit past app).application.panel record
      (course.recordExit past app record) :=
  writes_goOn { app with panel := app.panel.close, running := false } _ record

theorem writes_recordExitIfOver (course : Course) (past : List Text) (turn : Application.Turn)
    (record : Record) :
    Writes turn.application.panel (course.exitIfOver past turn).application.panel record
      (course.recordExitIfOver past turn record) := by
  unfold exitIfOver recordExitIfOver
  split
  · exact writes_recordExit course _ turn.application record
  · exact .refl _ _

theorem writes_recordAttend (course : Course) (past : List Text) (app : Application)
    (record : Record) :
    Writes app.panel (course.attend past app).application.panel record
      (course.recordAttend past app record) := by
  have settled : Writes app.panel (course.settle past app).application.panel record
      (record.goOn (course.going past app)) := writes_goOn app _ record
  unfold attend recordAttend
  dsimp only
  split
  · refine (settled.trans ?_).trans (writes_recordExitIfOver course past _ _)
    exact writes_begin _ _ _
  · exact settled.trans (writes_recordExitIfOver course past _ _)

end Writes

/-! ## Steps -/

section Steps

variable {course : Course} {past : List Text} {app : Application} {step : Application.Step}
  {turn : Application.Turn}

theorem perform_eq : course.perform past app step =
    match app.effect step with
    | .onPanel step => course.onPanel past app step
    | .nothing => .ok (course.attend past app)
    | .exit => .ok (course.exit past app) := by
  cases step <;> rfl

/-- **A step of the application** leaves a panel to the session, which is let run; or it ends the
application. The record is kept accordingly. -/
theorem perform_becomes (h : course.perform past app step = .ok turn) :
    (∃ panel, app.Becomes step panel ∧
      turn.application = (course.attend past { app with panel }).application ∧
      turn.executed = (course.attend past { app with panel }).executed ∧
      ∀ record, course.recordPerform past app step record =
        course.recordAttend past { app with panel } record) ∨
    (step.Closes ∧ ¬ step.Clears ∧ turn = course.exit past app ∧
      ∀ record, course.recordPerform past app step record =
        course.recordExit past app record) := by
  have clears := @Application.effect_eq_clear_iff app step
  have closes := @Application.closes_iff app step
  have submits := @Application.submits_eq app step
  rw [perform_eq] at h
  simp only [recordPerform]
  cases effect : app.effect step with
  | nothing =>
    simp only [effect, reduceCtorEq, false_iff, false_and, exists_false, or_self, iff_false]
      at clears closes h
    rw [effect] at submits
    cases h
    refine .inl ⟨app.panel, .feeds closes clears ?_, rfl, rfl, fun _ => rfl⟩
    rw [submits]
    rfl
  | exit =>
    simp only [effect, reduceCtorEq, false_iff, true_or, iff_true] at clears closes h
    cases h
    exact .inr ⟨closes, clears, rfl, fun _ => rfl⟩
  | onPanel action =>
    rw [effect] at h clears closes submits
    obtain ⟨done, performed, given⟩ := bind_eq_ok h
    cases given
    refine .inl ⟨done.panel, ?_, rfl, rfl, fun _ => by simp only [performed]⟩
    have affects := Panel.perform_affects performed
    generalize done.panel = panel at affects
    cases affects with
    | clears => exact .clears (clears.mp rfl) rfl
    | closes closing stdin =>
      refine .closes (closes.mpr (.inr ⟨action, rfl, closing⟩)) (fun clearing => ?_) stdin
      cases clears.mpr clearing
      simp [Panel.Step.Closes] at closing
    | feeds spares stays stdin =>
      refine .feeds (fun closing => ?_) (fun clearing => ?_) (submits ▸ stdin)
      · rcases closes.mp closing with exits | ⟨action', same, closing'⟩
        · cases exits
        · cases same
          exact stays closing'
      · cases clears.mpr clearing
        exact spares rfl

/-- A step that is refused would neither clear the panel, nor close it, nor submit anything. -/
theorem perform_refused {fault : Fault} (h : course.perform past app step = .error fault) :
    ¬ step.Clears ∧ ¬ step.Closes ∧ app.submits step = [] ∧
      ∀ record, course.recordPerform past app step record = record := by
  have clears := @Application.effect_eq_clear_iff app step
  have closes := @Application.closes_iff app step
  have submits := @Application.submits_eq app step
  rw [perform_eq] at h
  simp only [recordPerform]
  cases effect : app.effect step with
  | nothing | exit => simp [effect] at h
  | onPanel action =>
    rw [effect] at h clears closes submits
    cases performed : app.panel.perform (course past).completions action with
    | ok done => simp [onPanel, performed, bind, Except.bind, pure, Except.pure] at h
    | error fault =>
      refine ⟨fun clearing => ?_, fun closing => ?_, ?_, fun _ => by simp only [performed]⟩
      · cases clears.mpr clearing
        cases performed
      · rcases closes.mp closing with exits | ⟨action', same, closing'⟩
        · cases exits
        · cases same
          rcases closing' with rfl | rfl <;> cases performed
      · rw [submits]
        cases action with
        | commit | paste => cases performed
        | type | moveTo | place | openPopup | move | accept | dismiss | clear | close | endInput
        | write | writeLine | setPrompt | build => rfl

/-- Whatever a step makes of the panel first, what it then adds to the record it adds to the end of
the output pane. -/
theorem written_recordPerform (h : course.perform past app step = .ok turn) (record : Record) :
    ∃ panel, Writes panel turn.application.panel record
      (course.recordPerform past app step record) := by
  rcases perform_becomes h with ⟨panel, -, after, -, recorded⟩ | ⟨-, -, rfl, recorded⟩
  · rw [after, recorded]
    exact ⟨panel, writes_recordAttend course past { app with panel } record⟩
  · rw [recorded]
    exact ⟨app.panel, writes_recordExit course past app record⟩

end Steps

end Session.Course

end LineConsole
