import LineConsole.Interpreter.Echo
import LineConsole.Proofs.Session.Resting

/-!
# Sessions over a stream that is closed in the end

A session reads from a stream while text arrives, in any pieces and at any time, and the stream is
closed. It does what the session does over a script that holds the lines of the text: the same lines
are executed, the same texts are written, in the same order, and it ends in the same way. Only the
prompts are missing, which are up to whoever feeds the stream.

A session that stops at a line leaves the text behind the break of that line on the stream, whole
and nothing more, also when the break is a CR LF whose LF came after the session had stopped.

## Main definitions

* `Program.stream` — a program over a stream as text arrives, up to the close and its own rest

## Main results

* `stream_runOut` — the session does what it does with the lines of the whole text
* `streamed_like_scripted` — the session over the stream is the session over the script
-/

namespace LineConsole

open Text Program

namespace Program

variable {σ τ ε : Type}

/-- A program over a stream: text arrives between its turns, the stream is closed, and the program's
thread comes to rest. -/
def stream (p : Program σ ε) (thread : ThreadId) (scene : Scene σ ε) (beats : List Beat) :
    Scene σ ε :=
  p.rest thread (p.play thread scene beats).close

theorem Shows.stream {p : Program σ ε} {f : σ → τ} {q : Program τ ε} (shows : p.Shows f q)
    (thread : ThreadId) (scene : Scene σ ε) (beats : List Beat) :
    q.stream thread (scene.map f) beats = (p.stream thread scene beats).map f := by
  have closed : (q.play thread (scene.map f) beats).close =
      (p.play thread scene beats).close.map f :=
    congrArg Scene.close (shows.play thread beats scene)
  rw [Program.stream, closed, shows.rest]
  rfl

end Program

namespace Session.Course

variable {course : Course}

/-- **A session over a stream that is closed in the end** comes to its end, and has done what it
does with the lines of the whole text. -/
theorem stream_runOut {s : InputStream} {thread : ThreadId} (fresh : s.Fresh thread)
    (course : Course) (past : List Text) (beats : List Beat) :
    let text := beats.flatMap Beat.text
    let run := course.program.stream thread (course.beginning past s) beats
    let left := unread run.stream.skipLF run.stream.buffer
    let ran := course.runOut ⟨past, opened⟩ (lines text)
    run.state.session.isAlive = false ∧ run.stream.callOf? thread = none ∧
      run.state = ran.stage ∧ run.done = opening (course past) ++ ran.events ∧
      lines left = ran.unread ∧ ∃ taken, Reads text taken left := by
  intro text run left ran
  obtain ⟨attends, -, isOpen, k, studied⟩ := play_study course.program_timeless trivial
    (attends_of_fresh fresh ⟨past, opened⟩ (opening (course past))) fresh.opened beats
  obtain ⟨attends', isClosed, kept⟩ := close_study attends isOpen
  obtain ⟨ended, idle, -, n, answered⟩ := rest_closed attends' isClosed
  rw [kept, studied, study_of_fresh fresh, List.append_nil, ← Function.iterate_add_apply]
    at answered
  obtain ⟨outcome, taken, reads⟩ := course.outcome_iterate_pursue (n + k)
    ⟨⟨past, opened⟩, opening (course past), text⟩
  rw [← answered] at outcome reads
  obtain ⟨state, events, rest⟩ := eq_of_outcome ended outcome
  have outlook : run.stream.outlook thread [] = left := InputStream.outlook_of_idle idle
  exact ⟨ended, idle, state, events, (congrArg lines outlook).symm.trans rest, taken,
    outlook ▸ reads⟩

/-- **The session over a stream does what the session over the script does.** Let text arrive at a
fresh stream in any pieces, while a session runs over it that takes its turns at any time, and let
the stream be closed. The session ends, and up to the prompts it has made known what it would have
made known over the script of the lines of the text: it has executed the same lines and written the
same texts, in the same order, and its flags are the same. The lines that it took are those that the
script has not left, the last of them stopped it unless there were no more, and what is left on the
stream is the text behind the break of that line.

With an interpreter that remembers nothing, the two sessions are the library's own. -/
theorem streamed_like_scripted {s : InputStream} {thread : ThreadId} (fresh : s.Fresh thread)
    (course : Course) (prompt : Text) (past : List Text) (beats : List Beat) :
    let text := beats.flatMap Beat.text
    let run := course.program.stream thread (course.beginning past s) beats
    let script := course.overLines prompt past (lines text)
    (run.done = unprompted script.events ∧
        executedLines run.done = executedLines script.events ∧
        writtenTexts run.done = writtenTexts script.events) ∧
      (run.state.session = script.session ∧ run.state.session.isAlive = false ∧
        run.stream.callOf? thread = none) ∧
      (∃ taken last, lines text = taken ++ script.unread ∧
        course.Ends prompt past taken script.unread script.session last ∧
        Reads text taken (unread run.stream.skipLF run.stream.buffer)) ∧
      ∀ interpreter, course = .constant interpreter →
        (Session.program interpreter).stream thread ⟨s, opened, opening interpreter⟩ beats =
            run.map Stage.session ∧
          script = Session.overLines interpreter prompt (lines text) := by
  intro text run script
  obtain ⟨ended, idle, state, done, left, taken, reads⟩ := course.stream_runOut fresh past beats
  obtain ⟨events, session, rest⟩ := course.overLines_eq_runOut prompt past (lines text)
  replace done : run.done = unprompted script.events := done.trans events.symm
  refine ⟨⟨done, ?_, ?_⟩, ⟨?_, ended, idle⟩, ?_, ?_⟩
  · rw [done, executedLines_unprompted]
  · rw [done, writtenTexts_unprompted]
  · exact (congrArg Stage.session state).trans session.symm
  · obtain ⟨consumed, last, split, -, -, ends⟩ := course.follow_opened past (lines text)
    have split' : lines text = taken ++ script.unread :=
      reads.lines_eq.trans (congrArg (taken ++ ·) (left.trans rest.symm))
    obtain rfl : consumed = taken := List.append_cancel_right (split.symm.trans split')
    exact ⟨consumed, _, split', ends, reads⟩
  · rintro interpreter rfl
    refine ⟨?_, overLines_constant ..⟩
    exact (shows_constant interpreter).stream thread (beginning (.constant interpreter) past s)
      beats

/-- The line that quits ends on a CR whose LF comes when the session has stopped. The LF belongs to
the break, and what is left begins behind it. -/
theorem streamed_like_scripted_of_late_lf :
    let beats := [.append ":q\r".toList, .turn, .append "\n2".toList]
    let course := Course.constant (Echo.interpreter [])
    let run := course.program.stream "reader" (course.beginning [] {}) beats
    let script := course.overLines [] [] (lines (beats.flatMap Beat.text))
    ({} : InputStream).Fresh "reader" ∧
      lines (beats.flatMap Beat.text) = [":q".toList, "2".toList] ∧
      run.done = unprompted script.events ∧ run.state.session = ⟨false, true, none⟩ ∧
      unread run.stream.skipLF run.stream.buffer = ['2'] := by
  intro beats course run script
  have fresh := InputStream.fresh_new "reader"
  obtain ⟨⟨events, -, -⟩, ⟨session, -, -⟩, -⟩ := streamed_like_scripted fresh course [] [] beats
  exact ⟨fresh, by decide, events, session, by decide⟩

end Session.Course

end LineConsole
