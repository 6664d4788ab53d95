import LineConsole.Interpreter.Echo
import LineConsole.Proofs.Session.Incidents

/-!
# Sessions whose read is released

A session is interrupted while it reads, or its stream is reset. When it takes its next turn its
read ends with what it held, whatever has happened in between, and takes no text. If it held nothing
this is the end of the lines: the session closes with a farewell and does nothing more until it is
opened again. If it held a part of a line, the session takes the part for a line. It may execute it,
and it goes on reading.

A read that waits holds a part of a line only if a text was appended that does not end on a break,
or if somebody else has read a part of a line. Otherwise a release always ends the session.

## Main definitions

* `Course.Frees` — what releases the read of a session
* `Course.ClosesFrom` — a session has closed and does nothing more

## Main results

* `Conducted.release` — a release finds the read of the session
* `foldl_undergo_of_ended` — a session that has ended does nothing more
* `released_session_receives` — what a session makes of a release, in every history
-/

namespace LineConsole.Session.Course

open Text Program InputStream

variable {course : Course} {thread : ThreadId} {scene : Scene Stage Event} {call : Call}

/-! ## The release -/

/-- What releases the read of a session: an interrupt of its thread, and a reset. -/
def Frees (thread : ThreadId) (release : Action) : Prop :=
  release = .interrupt thread ∨ release = .clear

/-- An interrupt finds the read of the session, unless one has found it before. -/
theorem Conducted.interruptible_eq (conducted : Conducted thread scene)
    (found : scene.stream.callOf? thread = some call) :
    scene.stream.interruptible thread =
      if call.handle ∈ scene.stream.cancelled then [] else [call.handle] := by
  have registered := conducted.reachable.registered_of_own found (conducted.reads call found).2.2.1
  exact interruptible_of_registered conducted.reachable.roster found registered

/-- A read of the session that is cancelled has been woken. -/
theorem Conducted.awake_of_cancelled (conducted : Conducted thread scene)
    (found : scene.stream.callOf? thread = some call)
    (cancelled : call.handle ∈ scene.stream.cancelled) : call.awake = true := by
  by_contra asleep
  have awaits := conducted.reachable.patient call (mem_of_callOf? found) (by simpa using asleep)
  obtain ⟨name, -, named⟩ := awaits.uncancelled cancelled
  obtain ⟨-, -, own, -⟩ := conducted.reads call found
  exact nomatch own.symm.trans named

/-- **A release** finds the read of the session, and leaves it released and awake. -/
theorem Conducted.release (conducted : Conducted thread scene)
    (found : scene.stream.callOf? thread = some call) {release : Action}
    (frees : Frees thread release) :
    (scene.stream.perform release).1.callOf? thread = some call.wake ∧
      (scene.stream.perform release).1.released call.wake = true := by
  have of_releases (releases : scene.stream.Releases call release) :
      (scene.stream.perform release).1.callOf? thread = some call.wake ∧
        (scene.stream.perform release).1.released call.wake = true := by
    obtain ⟨now, reads, same, released, awake⟩ :=
      release_perform (conducted.reachable.ongoing found) releases
    have roused : now.awake = true := by
      rcases awake with awake | ⟨name, flagged, -⟩
      · exact awake
      · rcases frees with rfl | rfl <;> simp at flagged
    have woken : now = call.wake := by
      rw [← same.wake_eq, Call.wake, ← roused]
    exact ⟨woken ▸ reads, woken ▸ released⟩
  -- A reset releases every read; an interrupt releases this one unless one has done so before.
  rcases frees with rfl | rfl
  · have reached := conducted.interruptible_eq found
    split at reached
    next cancelled =>
      have woken : call.wake = call := by
        rw [Call.wake, ← conducted.awake_of_cancelled found cancelled]
      rw [InputStream.perform, interrupt_of_nil reached, woken]
      exact ⟨found, released_iff.mpr (.inl cancelled)⟩
    next => exact of_releases (.interrupt (reached ▸ List.mem_singleton_self _))
  · exact of_releases .clear

/-- Whatever others do after the release, the read of the session is released when its turn comes.
-/
theorem Conducted.release_run (conducted : Conducted thread scene)
    (found : scene.stream.callOf? thread = some call) {release : Action} {during : List Action}
    (frees : Frees thread release) (elsewhere : ∀ action ∈ during, action.reader? ≠ some thread) :
    let late := ((scene.stream.perform release).1.run during).1
    late.callOf? thread = some call.wake ∧ late.released call.wake = true := by
  intro late
  obtain ⟨reads, released⟩ := conducted.release found frees
  obtain ⟨-, silent⟩ := callOf?_run_of_beside reads elsewhere
  rcases released_run (conducted.reachable.perform release) reads released during with
    ended | ⟨-, still, now, reads', same⟩
  · exact nomatch silent.symm.trans ended
  · obtain rfl := same.eq_of_awake rfl
    exact ⟨reads', still⟩

/-! ## What the session makes of it -/

/-- The session has closed: it has said its farewell and nothing else since the scene `before`, and
whatever happens, it makes nothing more known and stays as it is, until it is opened again. -/
structure ClosesFrom (course : Course) (thread : ThreadId) (before scene : Scene Stage Event) :
    Prop where
  state : scene.state = ⟨before.state.past, before.state.session.closed⟩
  done : scene.done = before.done ++ [.wrote farewell]
  still : ∀ later : List Incident,
    (∀ incident ∈ later, incident.Foreign thread ∧ incident ≠ .restart) →
    (later.foldl (course.undergo thread) scene).state = scene.state ∧
      (later.foldl (course.undergo thread) scene).done = scene.done

/-- A session that has ended stays as it is until it is opened again. -/
theorem foldl_undergo_of_ended (course : Course) {later : List Incident}
    (dead : scene.state.session.isAlive = false) (idle : scene.stream.callOf? thread = none)
    (aside : ∀ incident ∈ later, incident.Foreign thread ∧ incident ≠ .restart) :
    (later.foldl (course.undergo thread) scene).state = scene.state ∧
      (later.foldl (course.undergo thread) scene).done = scene.done := by
  induction later generalizing scene with
  | nil => exact ⟨rfl, rfl⟩
  | cons incident later ih =>
    obtain ⟨⟨foreign, closed⟩, rest⟩ := List.forall_mem_cons.mp aside
    rw [List.foldl_cons]
    cases incident with
    | turn =>
      have same : course.undergo thread scene .turn = scene :=
        proceed_of_resting idle (asks_of_not_alive dead)
      rw [same]
      exact ih dead idle rest
    | act action =>
      have idle' : (scene.stream.perform action).1.callOf? thread = none :=
        callOf?_perform_of_idle idle fun demand name same => foreign (same ▸ rfl)
      exact @ih { scene with stream := (scene.stream.perform action).1 } dead idle' rest
    | restart => exact absurd rfl closed

/-- A session whose read is released takes what the read held, and no text. -/
theorem proceed_of_released (course : Course) (found : scene.stream.callOf? thread = some call)
    (awake : call.awake = true) (released : scene.stream.released call = true) :
    course.program.proceed thread scene =
      ⟨(scene.stream.perform (.resume thread)).1, (course.receive scene.state call.soFar).1,
        scene.done ++ (course.receive scene.state call.soFar).2⟩ := by
  have released' : (scene.stream.withdraw thread).released call = true := released
  have resumed : scene.stream.resume thread =
      ((scene.stream.withdraw thread).retire call.handle, .ended call.soFar) := by
    rw [resume_eq found awake, advance_of_released released']
  rw [proceed_of_reading found, InputStream.perform, resumed]
  rfl

/-- **What a session makes of a release.** Let a session begin on a new stream, and let other
threads do what they like between its turns. If it reads when its thread is interrupted or the
stream is reset, then its read ends at its next turn, whatever others have done in between. It ends
with what it held and takes no text. If that is nothing, the session closes with a farewell and does
nothing more until it is opened again. Otherwise it is a part of a line, without a break in it, and
the session takes it as it takes a line.

A read holds nothing if every text that is appended ends on a break and the others read no more than
lines; then every release of a read ends the session.

With an interpreter that remembers nothing, a session in bursts of steps has such a history. -/
theorem released_session_receives (course : Course) {thread : ThreadId} {incidents : List Incident}
    (foreign : ∀ incident ∈ incidents, incident.Foreign thread) :
    let scene := course.history thread incidents
    (∀ call, scene.stream.callOf? thread = some call →
      (call.awake = false → scene.stream.interruptible thread = [call.handle]) ∧
      ∀ release during, Frees thread release →
        (∀ action ∈ during, action.reader? ≠ some thread) →
        let late := { scene with stream := ((scene.stream.perform release).1.run during).1 }
        let next := course.program.proceed thread late
        late.stream.Declines (.resume thread) thread call.soFar ∧
          next.stream = (late.stream.perform (.resume thread)).1 ∧
          next.state = (course.receive scene.state call.soFar).1 ∧
          next.done = scene.done ++ (course.receive scene.state call.soFar).2 ∧
          (call.taken = [] → course.ClosesFrom thread scene next) ∧
          (call.taken ≠ [] → call.soFar = some call.taken ∧ call.taken.Unbroken)) ∧
      ((∀ action, .act action ∈ incidents → action.LineWise) →
        ∀ call, scene.stream.callOf? thread = some call → call.taken = []) ∧
      ∀ interpreter bursts, ∃ lived : List Incident,
        lived.filter (· ≠ .turn) = bursts.flatten.map .ofStep ∧
        (∀ incident ∈ lived, incident.Foreign Live.thread) ∧
        Live.after interpreter bursts =
          asProgress ((constant interpreter).history Live.thread lived) := by
  intro scene
  have conducted : Conducted thread scene := conducted_history course foreign
  refine ⟨fun call found => ⟨fun asleep => ?_, ?_⟩, fun linewise call found => ?_, ?_⟩
  · rw [conducted.interruptible_eq found, if_neg]
    intro cancelled
    exact nomatch asleep.symm.trans (conducted.awake_of_cancelled found cancelled)
  · intro release during frees elsewhere late next
    obtain ⟨reads, released⟩ := conducted.release_run found frees elsewhere
    have declines := declines_of_released reads rfl released
    have received := @proceed_of_released _ late _ course reads rfl released
    change next = _ at received
    refine ⟨declines, congrArg Scene.stream received, congrArg Scene.state received,
      congrArg Scene.done received, fun nothing => ?_, fun part => ?_⟩
    · have ended : call.wake.soFar = none := if_pos nothing
      rw [ended] at received
      have idle : next.stream.callOf? thread = none := by
        rw [congrArg Scene.stream received]
        simpa [isReading] using declines.gone
      have dead : next.state.session.isAlive = false := by
        rw [congrArg Scene.state received]
        exact isAlive_receive_none course scene.state
      refine ⟨?_, congrArg Scene.done received, fun later aside => ?_⟩
      · rw [congrArg Scene.state received, receive_none]
      · exact foldl_undergo_of_ended course dead idle aside
    · obtain ⟨-, -, -, unbroken⟩ := conducted.reads call found
      exact ⟨if_neg part, unbroken⟩
  · exact ((tidy_history course foreign linewise).empty call (mem_of_callOf? found)).2
  · intro interpreter bursts
    obtain ⟨lived, steps, reached⟩ := live_after interpreter bursts
    exact ⟨lived, steps, Incident.foreign_of_steps steps Live.thread, reached⟩

/-- A line ends on a CR and the session waits. It is interrupted, and the LF comes with another line
before it runs. It closes, and leaves both. -/
theorem released_session_receives_of_cut_crlf :
    let course := Course.constant (Echo.interpreter [])
    let incidents : List Incident := [.turn, .act (.append ['1', '\r']), .turn, .turn]
    let during : List Action := [.append ['\n', '2', '\n']]
    let scene := course.history Live.thread incidents
    let call : Call := ⟨Live.thread, .own Live.thread, 0, .line, [], false⟩
    let late := { scene with
      stream := ((scene.stream.perform (.interrupt Live.thread)).1.run during).1 }
    let next := course.program.proceed Live.thread late
    (∀ incident ∈ incidents, incident.Foreign Live.thread) ∧
      (∀ action ∈ during, action.reader? ≠ some Live.thread) ∧
      scene.stream.callOf? Live.thread = some call ∧
      scene.stream.interruptible Live.thread = [.own Live.thread] ∧
      executedLines scene.done = [['1']] ∧ course.ClosesFrom Live.thread scene next ∧
      next.stream.buffer = ['\n', '2', '\n'] := by
  intro course incidents during scene call late next
  have foreign : ∀ incident ∈ incidents, incident.Foreign Live.thread := by
    simp [incidents, Incident.Foreign, Action.reader?]
  have elsewhere : ∀ action ∈ during, action.reader? ≠ some Live.thread := by
    simp [during, Action.reader?]
  have found : scene.stream.callOf? Live.thread = some call := by decide
  obtain ⟨reached, received⟩ := (released_session_receives course foreign).1 call found
  obtain ⟨-, -, -, -, closes, -⟩ := received (.interrupt Live.thread) during (.inl rfl) elsewhere
  exact ⟨foreign, elsewhere, found, reached rfl, by decide, closes rfl, by decide⟩

/-- **A session takes a part of a line for a line.** The part is appended and the session waits for
the rest; it is interrupted, or the stream is reset, and it executes the part and goes on. -/
theorem interrupted_session_executes_part :
    let interpreter := Echo.interpreter []
    let waiting := Live.after interpreter [[.append "part".toList]]
    let call : Call := ⟨Live.thread, .own Live.thread, 0, .line, "part".toList, false⟩
    waiting.1.stream.callOf? Live.thread = some call ∧ executedLines waiting.2 = [] ∧
      ∀ release ∈ [Live.Step.interrupt, .clear],
        let turn := waiting.1.burst interpreter [release]
        executedLines turn.events = ["part".toList] ∧ farewell ∉ writtenTexts turn.events ∧
          turn.live.session.isAlive = true := by
  decide

end LineConsole.Session.Course
