import LineConsole.Interpreter.Echo
import LineConsole.Proofs.Session.Resting
import LineConsole.Session.Pump

/-!
# Pumped sessions and sessions over a script

A pump prompts in place of the session, ends each line of a script with an LF and appends it to the
stream that the session reads, which finds the line breaks again. So a line of the script that has
breaks in it is several lines to the session, or one when it only ends on a CR. The session does
what it would do over a script of these lines, and it ends: it is stopped by a line, or by the close
when the script runs out.

When no line of the script has a break in it, each line is fed and taken as one, and the pumped
session cannot be told from the one over the script: the prompts stand in the same places, and the
same lines are left.

## Main definitions

* `Course.pump` — a pumped session, with an interpreter that may remember what it executed
* `Course.overFeeds` — what such a session makes known

## Main results

* `pump_constant` — with an interpreter that remembers nothing, this is `Pump.run`
* `feedAll_eq` — a pumped session takes the lines in each line that it is fed
* `pumped_like_scripted` — the pumped session is the session over the script
-/

namespace LineConsole

open Text Program

namespace Session.Course

variable {course : Course} {prompt : Text}

/-! ## The pump -/

/-- Prompts, and lets the session run on a stream to which something was done. -/
def prompting (course : Course) (prompt : Text) (scene : Scene Stage Event) (s : InputStream) :
    Scene Stage Event :=
  course.program.rest Live.thread ⟨s, scene.state, scene.done ++ [.prompted prompt]⟩

/-- Feeds a living session line after line, and closes the stream if it still lives when they run
out. Gives the lines that were never fed. -/
def feedAll (course : Course) (prompt : Text) (scene : Scene Stage Event) :
    List Text → Scene Stage Event × List Text
  | [] =>
    if scene.state.session.isAlive then (course.prompting prompt scene scene.stream.close.1, [])
    else (scene, [])
  | line :: script =>
    if scene.state.session.isAlive then
      course.feedAll prompt
        (course.prompting prompt scene (scene.stream.append (line ++ ['\n'])).1) script
    else (scene, line :: script)

/-- A whole script: the session at the end, and the lines that were never fed. -/
def pump (course : Course) (prompt : Text) (past script : List Text) :
    Scene Stage Event × List Text :=
  course.feedAll prompt (course.program.rest Live.thread (course.beginning past {})) script

/-- What a scene is to the pump of an interpreter that remembers nothing. -/
def asPump (scene : Scene Stage Event) : Pump := ⟨⟨scene.stream, scene.state.session⟩, scene.done⟩

theorem prompting_constant (interpreter : Interpreter) (prompt : Text) (scene : Scene Stage Event)
    (step : Live.Step) {s : InputStream}
    (h : (asPump scene).live.step interpreter step = (asPump scene).live.onStream s none) :
    (asPump scene).prompting interpreter prompt step =
      asPump ((constant interpreter).prompting prompt scene s) := by
  have settled := (shows_constant interpreter).settle Live.thread s scene.state
  have done : (asPump scene).live.steps interpreter [step] =
      ⟨⟨s, scene.state.session⟩, [], [none]⟩ := by
    rw [Live.steps, h]
    rfl
  simp only [Pump.prompting, Live.burst, done, Live.settle, settled]
  simp [asPump, prompting, Program.rest, Scene.map]

theorem feedAll_constant (interpreter : Interpreter) (prompt : Text) (scene : Scene Stage Event)
    (script : List Text) :
    (asPump scene).feedAll interpreter prompt script =
      let (after, left) := (constant interpreter).feedAll prompt scene script
      (asPump after, left) := by
  induction script generalizing scene with
  | nil =>
    have closed := prompting_constant interpreter prompt scene .close rfl
    have same : (asPump scene).isAlive = scene.state.session.isAlive := rfl
    simp only [Pump.feedAll, Pump.finish, feedAll, closed, same]
    split <;> rfl
  | cons line script ih =>
    have fed := prompting_constant interpreter prompt scene (.append (line ++ ['\n'])) rfl
    have same : (asPump scene).isAlive = scene.state.session.isAlive := rfl
    simp only [Pump.feedAll, Pump.feed, feedAll, fed, same]
    split
    · exact ih _
    · rfl

/-- With an interpreter that remembers nothing, a pumped session is the one of `Pump.run`. -/
theorem pump_constant (interpreter : Interpreter) (prompt : Text) (past script : List Text) :
    Pump.run interpreter prompt script =
      let (after, left) := (constant interpreter).pump prompt past script
      (asPump after, left) := by
  have settled := (shows_constant interpreter).settle Live.thread {} ⟨past, opened⟩
  have started : Pump.start interpreter = asPump ((constant interpreter).program.rest Live.thread
      ((constant interpreter).beginning past {})) := by
    simp only [Pump.start, Live.begin, Live.reopen, Live.settle, settled]
    simp [asPump, beginning, Program.rest, Scene.map, constant]
  rw [Pump.run, started, feedAll_constant]
  rfl

/-! ## What is fed -/

/-- What a session does that is prompted for each line of a script, takes the lines that it is
framed into, and is prompted once more if it still lives when they run out. -/
def overFeeds (course : Course) (prompt : Text) (stage : Stage) : List Text → Stretch
  | [] =>
    if stage.session.isAlive then
      let (stage, events) := course.receive stage none
      ⟨stage, .prompted prompt :: events, []⟩
    else ⟨stage, [], []⟩
  | line :: script =>
    if stage.session.isAlive then
      let fed := course.take stage (framed line)
      let later := course.overFeeds prompt fed.stage script
      { later with events := .prompted prompt :: fed.events ++ later.events }
    else ⟨stage, [], line :: script⟩

/-- A session that waits is fed a line: it takes the lines in it and rests. -/
theorem prompting_append (course : Course) (prompt : Text) {scene : Scene Stage Event}
    (waits : scene.stream.Waits Live.thread) (alive : scene.state.session.isAlive = true)
    (line : Text) :
    let fed := course.take scene.state (framed line)
    let after := course.prompting prompt scene (scene.stream.append (line ++ ['\n'])).1
    after.state = fed.stage ∧ after.done = scene.done ++ .prompted prompt :: fed.events ∧
      Rests Live.thread after := by
  have offers := waits.offers.append (endsFeed_line line)
  obtain ⟨state, done, rests⟩ := @rest_offers Live.thread
    ⟨_, scene.state, scene.done ++ [.prompted prompt]⟩ _ course offers fun dead => by
      simp [alive] at dead
  exact ⟨state, done.trans (List.append_assoc ..), rests⟩

/-- A session that waits finds the stream closed, and ends. -/
theorem prompting_close (course : Course) (prompt : Text) {scene : Scene Stage Event}
    (waits : scene.stream.Waits Live.thread) (alive : scene.state.session.isAlive = true) :
    let after := course.prompting prompt scene scene.stream.close.1
    after.state = (course.receive scene.state none).1 ∧
      after.done = scene.done ++ .prompted prompt :: (course.receive scene.state none).2 ∧
      after.stream.callOf? Live.thread = none := by
  obtain ⟨state, done, idle, -⟩ := @rest_close course Live.thread
    { scene with done := scene.done ++ [.prompted prompt] } waits alive
  exact ⟨state, done.trans (List.append_assoc ..), idle⟩

/-- **A pumped session at rest** takes the lines in each line that it is fed, and ends. -/
theorem feedAll_eq (course : Course) (prompt : Text) {scene : Scene Stage Event}
    (rests : Rests Live.thread scene) (script : List Text) :
    let after := (course.feedAll prompt scene script).1
    let left := (course.feedAll prompt scene script).2
    let fed := course.overFeeds prompt scene.state script
    after.state = fed.stage ∧ after.done = scene.done ++ fed.events ∧ left = fed.unread ∧
      after.state.session.isAlive = false ∧ after.stream.callOf? Live.thread = none := by
  induction script generalizing scene with
  | nil =>
    cases alive : scene.state.session.isAlive with
    | false => simp [feedAll, overFeeds, alive, rests.idle alive]
    | true =>
      obtain ⟨state, done, idle⟩ :=
        course.prompting_close prompt (rests.waits alive) alive
      simp only [feedAll, overFeeds, alive, if_true]
      refine ⟨state, done, trivial, ?_, idle⟩
      rw [state]
      exact isAlive_receive_none ..
  | cons line script ih =>
    cases alive : scene.state.session.isAlive with
    | false => simp [feedAll, overFeeds, alive, rests.idle alive]
    | true =>
      obtain ⟨state, done, rests'⟩ := course.prompting_append prompt (rests.waits alive) alive line
      obtain ⟨state', done', left, ended, idle⟩ := ih rests'
      simp only [feedAll, overFeeds, alive, if_true]
      rw [state] at state' done' left
      refine ⟨state', ?_, left, ended, idle⟩
      rw [done', done, List.append_assoc]

theorem pump_eq (course : Course) (prompt : Text) (past script : List Text) :
    let after := (course.pump prompt past script).1
    let left := (course.pump prompt past script).2
    let fed := course.overFeeds prompt ⟨past, opened⟩ script
    after.state = fed.stage ∧ after.done = opening (course past) ++ fed.events ∧
      left = fed.unread ∧
      after.state.session.isAlive = false ∧ after.stream.callOf? Live.thread = none := by
  obtain ⟨state, done, waits⟩ := course.rest_beginning (InputStream.fresh_new Live.thread) past
  have rests : Rests Live.thread (course.program.rest Live.thread (course.beginning past {})) :=
    ⟨fun _ => waits, fun dead => by simp [state, isAlive, opened] at dead⟩
  have fed := course.feedAll_eq prompt rests script
  rw [state, done] at fed
  exact fed

/-! ## The session over the script -/

/-- But for the prompts, feeding a script is taking the lines that its lines are framed into. -/
theorem overFeeds_eq_runOut (course : Course) (prompt : Text) (stage : Stage) (script : List Text) :
    let fed := course.overFeeds prompt stage script
    let ran := course.runOut stage (script.flatMap framed)
    unprompted fed.events = ran.events ∧ fed.stage = ran.stage := by
  induction script generalizing stage with
  | nil =>
    cases alive : stage.session.isAlive with
    | false => simp [overFeeds, alive, runOut_of_not_alive alive]
    | true =>
      rw [List.flatMap_nil, runOut_nil alive]
      simp [overFeeds, alive, receive, Session.receive]
  | cons line script ih =>
    cases alive : stage.session.isAlive with
    | false => simp [overFeeds, alive, runOut_of_not_alive alive]
    | true =>
      obtain ⟨events, same⟩ := ih (course.take stage (framed line)).stage
      rw [List.flatMap_cons, runOut_append]
      simp only [overFeeds, alive, if_true]
      refine ⟨?_, same⟩
      rw [List.cons_append, unprompted_prompted, unprompted_append, unprompted_take, events]

/-- Feeding lines without breaks is reading them from a script. -/
theorem overFeeds_eq_follow (course : Course) (prompt : Text) (stage : Stage) {script : List Text}
    (plain : ∀ line ∈ script, line.Unbroken) :
    let fed := course.overFeeds prompt stage script
    let direct := course.follow prompt stage.past stage.session script
    fed.events = direct.events ∧ fed.stage.session = direct.session ∧
      fed.unread = direct.unread := by
  induction script generalizing stage with
  | nil =>
    simp only [overFeeds, follow]
    split <;> exact ⟨rfl, rfl, rfl⟩
  | cons line script ih =>
    obtain ⟨first, others⟩ := List.forall_mem_cons.mp plain
    simp only [overFeeds, follow, framed_of_unbroken first]
    cases alive : stage.session.isAlive with
    | false => exact ⟨rfl, rfl, rfl⟩
    | true =>
      obtain ⟨events, session, unread⟩ := ih (course.receive stage (some line)).1 others
      rw [take_one alive]
      exact ⟨congrArg (_ ++ ·) events, session, unread⟩

/-- **A pumped session does what the session over the script does.** Let a pump feed a script to a
session, whose interpreter may give up on a line. The session ends, and it has executed what it
executes over the script of the lines that the lines of the script are framed into, each between its
line breaks; but for the prompts it has made known the same, in the same order, and its flags are
the same. When no line of the script has a break in it, everything is as over the script itself: the
prompts and texts in order, the lines executed, and the lines that are left.

With an interpreter that remembers nothing, the two sessions are the library's own. -/
theorem pumped_like_scripted (course : Course) (prompt : Text) (past script : List Text) :
    let after := (course.pump prompt past script).1
    let left := (course.pump prompt past script).2
    let reframed := course.overLines prompt past (script.flatMap framed)
    let direct := course.overLines prompt past script
    (after.state.session.isAlive = false ∧ after.stream.callOf? Live.thread = none) ∧
      (executedLines after.done = executedLines reframed.events ∧
        unprompted after.done = unprompted reframed.events ∧
        after.state.session = reframed.session) ∧
      ((∀ line ∈ script, line.Unbroken) →
        after.done = direct.events ∧ shownTexts after.done = shownTexts direct.events ∧
          after.state.session = direct.session ∧ left = direct.unread) ∧
      ∀ interpreter, course = .constant interpreter →
        Pump.run interpreter prompt script = (asPump after, left) ∧
          direct = Session.overLines interpreter prompt script := by
  intro after left reframed direct
  obtain ⟨state, done, rest, ended, idle⟩ := course.pump_eq prompt past script
  obtain ⟨events, same⟩ := course.overFeeds_eq_runOut prompt ⟨past, opened⟩ script
  obtain ⟨events', session, -⟩ := course.overLines_eq_runOut prompt past (script.flatMap framed)
  have shown : unprompted after.done = unprompted reframed.events := by
    rw [events', ← events, ← unprompted_opening, ← unprompted_append]
    exact congrArg unprompted done
  refine ⟨⟨ended, idle⟩, ⟨?_, shown, ?_⟩, fun plain => ?_, ?_⟩
  · rw [← executedLines_unprompted, shown, executedLines_unprompted]
  · rw [session, ← same]
    exact congrArg Stage.session state
  · obtain ⟨events, session, unread⟩ := course.overFeeds_eq_follow prompt ⟨past, opened⟩ plain
    rw [events] at done
    have all : after.done = direct.events := done
    exact ⟨all, congrArg shownTexts all, (congrArg Stage.session state).trans session,
      rest.trans unread⟩
  · rintro interpreter rfl
    exact ⟨pump_constant .., overLines_constant ..⟩

/-- The second line quits, and the third is never fed. -/
theorem pumped_like_scripted_of_quit :
    let course := Course.constant (Echo.interpreter [])
    let script := ["1".toList, " :quit".toList, "2".toList]
    let direct := course.overLines ">".toList [] script
    (∀ line ∈ script, Unbroken line) ∧ direct.unread = ["2".toList] ∧
      (course.pump ">".toList [] script).1.done = direct.events ∧
      (course.pump ">".toList [] script).2 = direct.unread := by
  intro course script direct
  have plain : ∀ line ∈ script, Unbroken line := by simp [script, Unbroken]
  obtain ⟨-, -, same, -⟩ := pumped_like_scripted course ">".toList [] script
  obtain ⟨events, -, -, left⟩ := same plain
  exact ⟨plain, by decide, events, left⟩

end Session.Course

end LineConsole
