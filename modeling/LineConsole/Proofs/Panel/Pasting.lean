import LineConsole.Proofs.Application.Course

/-!
# A paste is framed like a stream

Pasted text is cut into lines twice. The panel respells its breaks, splits it at the LFs, submits
the pieces that an LF ends and keeps the last one; the reader of the stream then cuts what was
submitted at the breaks it finds in it. Text that goes to a stream as it is, is cut once, by the
reader alone, with CR LF, CR and LF all in it.

Both find the segments between the line breaks of the text. The panel keeps the last segment, and
the reader of the whole text reports it as a line, unless it is empty.

## Main results

* `Errand.settle_closed` — a thread that reads every line of a closed stream reports the lines of
  what is unread
* `Panel.exists_segmented_paste` — what a paste into an empty input submits and keeps
* `Panel.paste_framed_like_stream` — a paste and a stream frame a text alike
-/

namespace LineConsole

open Text Program

/-- No segment of a text has a break in it. -/
theorem Text.Segmented.unbroken {t : Text} {segments : List Text} (h : Segmented t segments) :
    ∀ segment ∈ segments, segment.Unbroken := by
  induction h with
  | last unbroken => simpa using unbroken
  | next unbroken _ _ ih => exact List.forall_mem_cons.mpr ⟨unbroken, ih⟩

/-- The lines of a text are its segments, the last one if it is not empty. -/
theorem Text.Segmented.lines_eq {t last : Text} {list : List Text}
    (h : Segmented t (list ++ [last])) :
    lines t = if last = [] then list else list ++ [last] := by
  rw [lines, feedLines, ← segmented_iff.mp h, dropEmptyLast, List.getLastD_concat,
    List.dropLast_concat]

/-- The lines of lines without a break, with an LF behind each. -/
theorem Text.lines_feeding_of_unbroken {list : List Text} (h : ∀ line ∈ list, line.Unbroken) :
    lines (feeding list) = list :=
  lines_flatMap (by simp) h

namespace Errand

/-- A thread that goes to read every line of a closed stream ends its errand when it has reported
the lines of what is unread. -/
theorem settle_closed {s : InputStream} {thread : ThreadId} (closed : s.isClosed = true)
    (idle : s.callOf? thread = none) :
    let rest := program.settle thread s (some .eachLine)
    rest.state = none ∧ rest.done = lineReports (lines (unread s.skipLF s.buffer)) := by
  intro rest
  have attends : program.Attends thread ⟨s, some .eachLine, []⟩ := by
    intro call found
    simp [idle] at found
  have final := proceed_closed_study program_timeless (.inl rfl) attends closed (s.available + 2)
  rw [iterate_proceed] at final
  have ended : rest.state = none := by
    have := congrArg Study.state final
    rw [state_settle attends (.inl rfl)] at this
    exact this
  refine ⟨ended, ?_⟩
  have settled := congrArg whole final
  rw [whole_iterate_pursue _ (.inl rfl), whole_of_ended ended] at settled
  simpa [rest, settle, whole, Scene.study, InputStream.outlook_of_idle idle] using settled

end Errand

namespace InputStream

variable {s : InputStream} {thread : ThreadId} {t : Text}

/-- The close leaves what is unread. -/
theorem unread_close (s : InputStream) :
    unread s.close.1.skipLF s.close.1.buffer = unread s.skipLF s.buffer := by
  have spares := spares_of_signals (s := s) .close
  have skip : s.close.1.skipLF = s.skipLF := spares.skipLF
  have buffer : s.close.1.buffer = s.buffer := spares.buffer.trans (List.append_nil _)
  rw [skip, buffer]

/-- What a thread that reads every line reports of an open stream, once it is closed. -/
theorem settle_close (idle : s.callOf? thread = none) (reads : unread s.skipLF s.buffer = t) :
    let rest := Errand.program.settle thread s.close.1 (some .eachLine)
    rest.state = none ∧ rest.done = Errand.lineReports (lines t) := by
  rw [← reads, ← unread_close]
  exact Errand.settle_closed (isClosed_close s) (callOf?_close_of_idle idle)

end InputStream

namespace Panel

variable {panel : Panel} {t : Text}

/-- Nothing stands on either side of the cursor in an empty input. -/
theorem around_of_empty (empty : panel.field.editor.text = []) :
    panel.field.editor.before = [] ∧ panel.field.editor.after = [] := by
  simp [Editor.before, Editor.after, Text.upTo, Text.since, empty]

/-- A paste into an empty input submits the segments of the text and keeps the last one. -/
theorem exists_segmented_paste (empty : panel.field.editor.text = []) (t : Text) :
    ∃ list, Segmented t (list ++ [(panel.paste t).field.editor.text]) ∧
      (panel.paste t).stdin = panel.stdin.feed list := by
  obtain ⟨before, after⟩ := around_of_empty empty
  have some : (normalizeBreaks t).splitOn '\n' ≠ [] := List.splitOn_ne_nil _ _
  refine ⟨((normalizeBreaks t).splitOn '\n').dropLast, ?_, ?_⟩
  · rw [segmented_iff]
    simp only [paste, before, after, List.nil_append, List.append_nil, Editor.withinStart]
    rw [List.getLastD_eq_getLast?, List.getLast?_eq_getLast_of_ne_nil some]
    exact List.dropLast_append_getLast some
  · simp only [paste, before, after, List.nil_append, List.append_nil]
    exact stdin_foldl_submit _

/-- **A paste and a stream frame a text alike.** Let a text be pasted into an empty input, and let
the stream be closed; and let the text be appended to another stream as it is, and that one be
closed. The thread that reads every line of the one, and the thread that reads every line of the
other, both end, and report the segments between the line breaks of the text; but the last segment
is left in the input, and if it is not empty the reader of the other stream reports it as one line
more. -/
theorem paste_framed_like_stream (empty : panel.field.editor.text = []) {stream : InputStream}
    {reader other : ThreadId} (fresh : panel.stdin.Fresh reader) (fresh' : stream.Fresh other)
    (t : Text) :
    let pasted := panel.paste t
    let rest := pasted.field.editor.text
    let input := Errand.program.settle reader pasted.stdin.close.1 (some .eachLine)
    let direct := Errand.program.settle other (stream.append t).1.close.1 (some .eachLine)
    input.state = none ∧ direct.state = none ∧
      ∃ list, Segmented t (list ++ [rest]) ∧ input.done = Errand.lineReports list ∧
        direct.done = Errand.lineReports (if rest = [] then list else list ++ [rest]) := by
  intro pasted rest input direct
  obtain ⟨list, segmented, stdin⟩ := exists_segmented_paste empty t
  have unbroken : ∀ line ∈ list, line.Unbroken := fun line mem =>
    segmented.unbroken line (List.mem_append_left _ mem)
  have offers := fresh.offers.feed list
  rw [List.nil_append, ← stdin] at offers
  have idle : pasted.stdin.callOf? reader = none := by
    have feeds : panel.stdin.Touches False list (panel.stdin.feed list) := .feeds list
    exact (congrArg (·.callOf? reader) stdin).trans (feeds.idle fresh.idle)
  obtain ⟨ended, reports⟩ := InputStream.settle_close idle (by simpa using offers.buffered [])
  have idle' : (stream.append t).1.callOf? other = none :=
    InputStream.callOf?_append_of_idle fresh'.idle t
  have reads : unread (stream.append t).1.skipLF (stream.append t).1.buffer = t := by
    have spares := InputStream.spares_append stream t
    have skip : (stream.append t).1.skipLF = stream.skipLF := spares.skipLF
    have buffer : (stream.append t).1.buffer = t := by
      simpa [InputStream.perform, InputStream.accepts, fresh'.drained, fresh'.opened]
        using spares.buffer
    rw [skip, buffer, fresh'.settled, unread_false]
  obtain ⟨ended', reports'⟩ := InputStream.settle_close idle' reads
  rw [lines_feeding_of_unbroken unbroken] at reports
  rw [segmented.lines_eq] at reports'
  exact ⟨ended, ended', list, segmented, reports, reports'⟩

/-- Two CRs with an LF behind the second, an LF with a CR behind it, and a last piece that no break
ends. -/
theorem paste_framed_like_stream_of_mixed_breaks :
    let panel : Panel := { prompt := .missing }
    let t : Text := "\r\r\n1\n\r2".toList
    panel.field.editor.text = [] ∧ panel.stdin.Fresh "reader" ∧
      (panel.paste t).field.editor.text = ['2'] ∧
      ∃ list, Segmented t (list ++ [['2']]) ∧
        (Errand.program.settle "reader" (panel.paste t).stdin.close.1 (some .eachLine)).done =
          Errand.lineReports list ∧
        (Errand.program.settle "reader" (panel.stdin.append t).1.close.1 (some .eachLine)).done =
          Errand.lineReports (list ++ [['2']]) := by
  intro panel t
  have empty : panel.field.editor.text = [] := rfl
  have fresh : panel.stdin.Fresh "reader" := InputStream.fresh_new "reader"
  have kept : (panel.paste t).field.editor.text = ['2'] := by decide
  obtain ⟨-, -, list, segmented, input, direct⟩ :=
    paste_framed_like_stream empty fresh fresh t
  rw [kept] at segmented direct
  exact ⟨empty, fresh, kept, list, segmented, input, direct⟩

end Panel

end LineConsole
