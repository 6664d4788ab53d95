import LineConsole.Interpreter.Echo
import LineConsole.Proofs.Application.Condition

/-!
# Runs of the application

What the user submits is executed. With an interpreter that gives up on no line, the lines executed
in a whole run are the statements among the lines that were submitted, up to the first that asks to
quit: none is lost or repeated, also when the panel is cleared in between, and the session never
waits with a part of a line in its hands.

As long as the interpreter has given up on no line, an application that runs has a session that
waits for a line, and it ends only because a line asked to quit or the user closed the stream. An
interpreter that gives up on a line ends the session and not the application, which then takes lines
that nobody reads.

## Main results

* `submitted_lines_executed` — what is executed is what was submitted
* `running_attended` — who waits for the next line
* `running_unattended` — an application that runs with nobody to read
-/

namespace LineConsole

open Text Program

/-- An application is attended when, if it runs, its session lives and reads. -/
theorem Application.isAttended_iff {app : Application} :
    app.isAttended = true ↔ (app.running = true →
      app.session.isAlive = true ∧ app.panel.stdin.isReading Live.thread = true) := by
  simp only [isAttended, Bool.or_eq_true, Bool.not_eq_true', Bool.and_eq_true, ← Bool.not_eq_true]
  exact imp_iff_not_or.symm

namespace Session.Course

variable {course : Course}

/-- **What was submitted is what is executed.** Let the interpreter give up on no line, whatever it
has executed, and let the user take any steps. Frame the lines that were submitted, each with an LF
behind it. Up to the first of the framed lines that asks to quit, or else to the last, the
statements among them were executed, in order and each once, and nothing else was. The session holds
no part of a line when it waits.

With an interpreter that remembers nothing, this is what the application's own play shows. -/
theorem submitted_lines_executed (course : Course) {panel : Panel}
    (fresh : panel.stdin.Fresh Live.thread)
    (never : ∀ past line message, (course past).execute line ≠ .failure message)
    (steps : List Application.Step) :
    let now := course.console panel steps
    (∃ front left, now.submitted.flatMap framed = front ++ left ∧ (∀ line ∈ front, ¬ Quits line) ∧
        (∀ line ∈ left.head?, Quits line) ∧ now.executed = statements front) ∧
      (∀ call, now.application.panel.stdin.callOf? Live.thread = some call → call.taken = []) ∧
      ∀ interpreter record, course = .constant interpreter →
        Application.play interpreter panel (steps.map .step) = .ok record → now.ShownBy record := by
  intro now
  obtain ⟨taken, unread, split, executed, condition⟩ := course.condition_console fresh steps
  have holdsNothing : now.application.panel.stdin.callOf? Live.thread = none →
      ∀ call, now.application.panel.stdin.callOf? Live.thread = some call → call.taken = [] :=
    fun idle call found => by simp [idle] at found
  refine and_assoc.mp ⟨?_, ?_⟩
  · cases condition with
    | waits running session waits all rest =>
      refine ⟨⟨taken, unread, split, all.not_quits, by simp [rest], executed⟩, fun call found => ?_⟩
      obtain ⟨call', found', -, empty, -⟩ := waits.blocked
      obtain rfl : call' = call := Option.some.inj (found'.symm.trans found)
      exact empty
    | closed closes running session idle all rest =>
      exact ⟨⟨taken, unread, split, all.not_quits, by simp [rest], executed⟩, holdsNothing idle⟩
    | stopped dead idle stands ends since =>
      refine ⟨?_, holdsNothing idle⟩
      generalize now.application.session = session at dead stands
      cases stands with
      | goesOn all => exact absurd dead (by simp [isAlive, opened])
      | @quit front line all quits =>
        refine ⟨front, line :: unread, by rw [split, List.append_assoc]; rfl, all.not_quits,
          by simpa using quits, ?_⟩
        rw [executed, statements, List.filterMap_append]
        simp [statement?_of_quits quits, statements]
      | broke all breaks =>
        obtain ⟨text, -, failed⟩ := breaks
        exact absurd failed (never _ _ _)
  · rintro interpreter record rfl
    exact shownBy_play

/-- The panel is cleared between two lines, and the second is pasted together with a request to quit
and a third. -/
theorem submitted_lines_executed_of_paste :
    let course := Course.constant (Echo.interpreter [])
    let panel : Panel := { prompt := .text defaultPrompt }
    let now := course.console panel [.onPanel (.type "1 ".toList), .key .enter, .key .controlL,
      .onPanel (.paste "2\r\n:q\r3\n".toList)]
    panel.stdin.Fresh Live.thread ∧
      (∀ past line message, (course past).execute line ≠ .failure message) ∧
      now.submitted = ["1 ".toList, "2".toList, ":q".toList, "3".toList] ∧
      ∃ front left, now.submitted.flatMap framed = front ++ left ∧
        (∀ line ∈ front, ¬ Quits line) ∧ (∀ line ∈ left.head?, Quits line) ∧
        now.executed = statements front := by
  intro course panel now
  have fresh := InputStream.fresh_new Live.thread
  have never : ∀ past line message, (course past).execute line ≠ .failure message := by
    simp [course, constant, Echo.interpreter]
  exact ⟨fresh, never, by decide, (submitted_lines_executed course fresh never _).1⟩

/-- **Who waits for the next line.** Let the user take any steps, with an interpreter that may give
up on a line. As long as it has not, the application runs exactly while the session lives. A session
that lives waits for a line, and one that has ended does not read. So the application is attended
as long as it runs, unless the interpreter has given up; in that case it is attended no more. It
ends only when the user has closed the stream, or submitted a line that asks to quit. If the
interpreter has given up, it did so on the line executed last.

With an interpreter that remembers nothing, this is what the application's own play shows. -/
theorem running_attended (course : Course) {panel : Panel} (fresh : panel.stdin.Fresh Live.thread)
    (steps : List Application.Step) :
    let now := course.console panel steps
    let app := now.application
    (app.session.failure = none → (app.running = true ↔ app.session.isAlive = true)) ∧
      (app.session.isAlive = true → app.panel.stdin.Waits Live.thread) ∧
      (app.session.isAlive = false → app.panel.stdin.callOf? Live.thread = none) ∧
      (app.isAttended = true ↔ app.session.failure = none ∨ app.running = false) ∧
      (app.running = false → (∃ step ∈ steps, step.Closes) ∨
        ∃ line ∈ now.submitted.flatMap framed, Quits line) ∧
      (∀ message, app.session.failure = some message → ∃ front line,
        now.executed = front ++ [line] ∧ (course front).execute line = .failure message) ∧
      ∀ interpreter record, course = .constant interpreter →
        Application.play interpreter panel (steps.map .step) = .ok record → now.ShownBy record := by
  intro now app
  obtain ⟨taken, unread, split, executed, condition⟩ := course.condition_console fresh steps
  have submitted : ∀ line ∈ taken, line ∈ now.submitted.flatMap framed :=
    fun line mem => split ▸ List.mem_append_left unread mem
  have shown (interpreter : Interpreter) (record : Application.Play)
      (same : course = .constant interpreter)
      (played : Application.play interpreter panel (steps.map .step) = .ok record) :
      now.ShownBy record := by
    subst same
    exact shownBy_play played
  cases condition with
  | waits running session waits all rest =>
    have alive : app.session.isAlive = true := congrArg isAlive session
    have whole : app.session.failure = none := congrArg failure session
    have reading : app.panel.stdin.isReading Live.thread = true := by
      obtain ⟨call, found, -⟩ := waits.blocked
      exact InputStream.isReading_iff.mpr ⟨call, found⟩
    have attended : app.isAttended = true :=
      Application.isAttended_iff.mpr fun _ => ⟨alive, reading⟩
    exact ⟨fun _ => iff_of_true running alive, fun _ => waits,
      fun dead => (nomatch alive.symm.trans dead), iff_of_true attended (.inl whole),
      fun ended => (nomatch running.symm.trans ended), fun message => by simp [whole], shown⟩
  | closed closes ended session idle all rest =>
    have dead : app.session.isAlive = false := congrArg isAlive session
    have whole : app.session.failure = none := congrArg failure session
    have attended : app.isAttended = true :=
      Application.isAttended_iff.mpr fun running => nomatch ended.symm.trans running
    exact ⟨fun _ => iff_of_false (ne_true_of_eq_false ended) (ne_true_of_eq_false dead),
      fun alive => (nomatch dead.symm.trans alive), fun _ => idle,
      iff_of_true attended (.inl whole), fun _ => .inl closes,
      fun message => by simp [whole], shown⟩
  | stopped dead idle stands ends since =>
    refine ⟨fun whole => ?_, fun alive => (nomatch dead.symm.trans alive), fun _ => idle,
      ⟨fun attended => .inr (eq_false_of_ne_true fun running => ?_), fun stays => ?_⟩,
      fun ended => ?_, fun message failed => ?_, shown⟩
    · exact iff_of_false (ne_true_of_eq_false (ends whole)) (ne_true_of_eq_false dead)
    · obtain ⟨alive, -⟩ := Application.isAttended_iff.mp attended running
      exact nomatch dead.symm.trans alive
    · have ended : app.running = false := stays.elim ends id
      exact Application.isAttended_iff.mpr fun running => nomatch ended.symm.trans running
    · refine (since ended).symm.imp_right fun whole => ?_
      obtain ⟨-, line, mem, quits⟩ := stands.quits_of_not_alive dead whole
      exact ⟨line, submitted line mem, quits⟩
    · obtain ⟨front, line, rfl, text, statement, fails⟩ := stands.breaks_of_failure failed
      refine ⟨statements front, text, ?_, fails⟩
      rw [executed, statements, List.filterMap_append]
      simp [statement, statements]

/-- An interpreter that gives up on one line and repeats the others. -/
def fragile : Interpreter where
  title := "App".toList
  completions _ := []
  execute line := if line = "boom".toList then .failure "no".toList else .text line

/-- A line is executed and the panel is cleared; the interpreter gives up on the line after that. -/
theorem running_attended_of_failure :
    let course := Course.constant fragile
    let panel : Panel := { prompt := .text defaultPrompt }
    let steps : List Application.Step := [.onPanel (.type "next".toList), .key .enter,
      .key .controlL, .onPanel (.type "boom".toList)]
    let before := (course.console panel steps).application
    let after := (course.console panel (steps ++ [.key .enter])).application
    panel.stdin.Fresh Live.thread ∧
      before.session.failure = none ∧ (before.running = true ↔ before.session.isAlive = true) ∧
      before.session.isAlive = true ∧ before.panel.stdin.Waits Live.thread ∧
      before.isAttended = true ∧
      after.session.isAlive = false ∧ after.panel.stdin.callOf? Live.thread = none ∧
      after.session.failure = some "no".toList ∧
      ∃ front line, (course.console panel (steps ++ [.key .enter])).executed = front ++ [line] ∧
        (course front).execute line = .failure "no".toList := by
  have fresh : ({ prompt := .text defaultPrompt } : Panel).stdin.Fresh Live.thread :=
    InputStream.fresh_new _
  have attended (steps) := running_attended (.constant fragile) fresh steps
  -- With the abbreviations opened, no run is evaluated only to compare two terms.
  dsimp only at attended ⊢
  exact ⟨fresh, by decide, (attended _).1 (by decide), by decide, (attended _).2.1 (by decide),
    (attended _).2.2.2.1.mpr (by decide), by decide, (attended _).2.2.1 (by decide), by decide,
    (attended _).2.2.2.2.2.1 _ (by decide)⟩

/-- The interpreter gives up on a line. The application goes on unattended, with no session to read
what comes next: the line that is submitted is neither executed nor does it end anything. So a play
of the application waits in vain for it to come to rest. -/
theorem running_unattended :
    let panel : Panel := { prompt := .text defaultPrompt }
    let steps : List Application.Step := [.onPanel (.type "boom".toList), .key .enter,
      .onPanel (.type "next".toList), .key .enter]
    let now := (Course.constant fragile).console panel steps
    now.application.running = true ∧ now.application.session.isAlive = false ∧
      now.application.isAttended = false ∧
      now.application.panel.stdin.callOf? Live.thread = none ∧
      now.application.panel.stdin.available = 5 ∧ now.executed = ["boom".toList] ∧
      (Application.play fragile panel (steps.map .step)).map (·.settles) = .ok false := by
  refine ⟨?_, ?_, ?_, ?_, ?_, ?_, rfl⟩ <;> decide

end Session.Course

end LineConsole
