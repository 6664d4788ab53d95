import LineConsole.Proofs.Reading.Arrival
import LineConsole.Reading.Errand

/-!
# Reading line after line

A thread on the errand to read every line ends its errand once the stream is closed, and has then
reported the segments of the text between its line breaks: an empty segment like any other, except
behind the last break. The end of the stream is told from an empty line, and nothing but CR LF, CR
and LF breaks a line.

## Main definitions

* `Errand.whole` — what the errand has reported and will report from the text that is left

## Main results

* `eachLine_reports` — the errand ends and reports the segments
-/

namespace LineConsole

open Text Program

/-- A text has no more lines than characters. -/
theorem Text.length_lines_le (t : Text) : (lines t).length ≤ t.length := by
  induction hlen : t.length using Nat.strongRecOn generalizing t with
  | ind n ih =>
    cases hcut : cut t with
    | none =>
      rw [lines_of_unbroken (cut_eq_none_iff.mp hcut)]
      cases t with
      | nil => simp
      | cons c t => simp only [reduceCtorEq, if_false, List.length_cons] at hlen ⊢; simp; omega
    | some found =>
      have shorter := length_lt_of_cut hcut
      have rest := ih _ (hlen ▸ shorter) found.2 rfl
      rw [lines_of_cut hcut, List.length_cons]
      omega

theorem Text.lines_eq_nil_iff {t : Text} : lines t = [] ↔ t = [] := by
  cases hcut : cut t with
  | none => simp [lines_of_unbroken (cut_eq_none_iff.mp hcut)]
  | some found =>
    have : t ≠ [] := by rintro rfl; simp at hcut
    simp [lines_of_cut hcut, this]

/-- Unbroken text in front of a text adds one line at most. -/
theorem Text.length_lines_append_le {held : Text} (h : held.Unbroken) (t : Text) :
    (lines (held ++ t)).length ≤ t.length + 1 := by
  cases hcut : cut t with
  | none =>
    rw [lines_of_unbroken (unbroken_append.mpr ⟨h, cut_eq_none_iff.mp hcut⟩)]
    split <;> simp
  | some found =>
    have shorter := length_lt_of_cut hcut
    have rest := length_lines_le found.2
    have whole : cut (held ++ t) = some (held ++ found.1, found.2) := by
      rw [cut_append h, hcut, Option.map_some]
    rw [lines_of_cut whole, List.length_cons]
    omega

/-- A thread that reads lines takes more turns before it rests than there are lines in its outlook:
each character that is buffered ends at most one line, and the text that its read holds is unbroken,
so it adds one line at most. -/
theorem Program.length_lines_outlook_lt {σ ε : Type} {p : Program σ ε} {thread : ThreadId}
    {scene : Scene σ ε} (attends : p.Attends thread scene)
    (linewise : ∀ ask, p.asks scene.state = some ask → ask.demand = .line) :
    (lines (scene.stream.outlook thread [])).length < scene.stream.available + 2 := by
  have unbroken : Unbroken ((scene.stream.callOf? thread).elim [] InputStream.Call.taken) := by
    cases hcall : scene.stream.callOf? thread with
    | none => exact unbroken_nil
    | some call =>
      obtain ⟨⟨ask, asks, demand⟩, hold, -, -⟩ := attends call hcall
      rw [← demand, linewise ask asks] at hold
      exact hold
  have bound := length_lines_append_le unbroken
    (unread scene.stream.skipLF (scene.stream.buffer ++ []))
  have short := length_unread_le scene.stream.skipLF (scene.stream.buffer ++ [])
  rw [List.append_nil] at bound short
  simp only [InputStream.outlook, InputStream.available, List.append_nil]
  omega

namespace Errand

/-- The reports of an errand that reads every line of a text. -/
def lineReports (list : List Text) : List Report := list.map Report.line ++ [.finished .everyLine]

/-- A thread that reads every line, or has done so. -/
def Iterates (state : Option Errand) : Prop := state = some .eachLine ∨ state = none

theorem program_timeless : program.Timeless Iterates where
  asks {state ask} ok h := by
    rcases ok with rfl | rfl
    · obtain rfl : { demand := .line } = ask := by simpa [program, Errand.ask] using h
      exact ⟨rfl, .line⟩
    · simp [program] at h
  receive {state} result ok := by
    rcases ok with rfl | rfl
    · cases result with
      | none => exact .inr rfl
      | some line => exact .inl rfl
    · exact .inr rfl

/-- What has been reported, and what will be from the text that is left. -/
def whole (study : Study (Option Errand) Report) : List Report :=
  match study.state with
  | none => study.done
  | some _ => study.done ++ lineReports (lines study.unread)

theorem whole_of_ended {study : Study (Option Errand) Report} (h : study.state = none) :
    whole study = study.done := by
  simp [whole, h]

theorem pursue_none (done : List Report) (t : Text) :
    program.pursue ⟨none, done, t⟩ = ⟨none, done, t⟩ := rfl

/-- The errand reports the first line of a text. -/
theorem pursue_of_lines_cons {t line : Text} {rest : List Text} (h : lines t = line :: rest)
    (done : List Report) :
    ∃ t', lines t' = rest ∧
      program.pursue ⟨some .eachLine, done, t⟩ = ⟨some .eachLine, done ++ [.line line], t'⟩ := by
  obtain ⟨t', -, hrest, hread⟩ := Demand.read_line_of_lines_eq_cons h
  exact ⟨t', hrest, by simp [pursue, program, Errand.ask, Errand.receive, hread]⟩

theorem pursue_of_lines_nil {t : Text} (h : lines t = []) (done : List Report) :
    program.pursue ⟨some .eachLine, done, t⟩ =
      ⟨none, done ++ [.finished .everyLine], []⟩ := by
  obtain rfl := lines_eq_nil_iff.mp h
  rfl

/-- The whole of the reports is settled from the start. -/
theorem whole_pursue {study : Study (Option Errand) Report} (ok : Iterates study.state) :
    whole (program.pursue study) = whole study ∧ Iterates (program.pursue study).state := by
  obtain ⟨state, done, t⟩ := study
  rcases ok with rfl | rfl
  · cases h : lines t with
    | nil =>
      rw [pursue_of_lines_nil h]
      exact ⟨by simp [whole, h, lineReports], .inr rfl⟩
    | cons line rest =>
      obtain ⟨t', hrest, next⟩ := pursue_of_lines_cons h done
      rw [next]
      exact ⟨by simp [whole, h, hrest, lineReports], .inl rfl⟩
  · exact ⟨rfl, .inr rfl⟩

theorem whole_iterate_pursue (n : Nat) {study : Study (Option Errand) Report}
    (ok : Iterates study.state) : whole (program.pursue^[n] study) = whole study := by
  induction n generalizing study with
  | zero => rfl
  | succ n ih =>
    obtain ⟨settled, ok'⟩ := whole_pursue ok
    rw [Function.iterate_succ_apply, ih ok', settled]

/-- The errand ends when it has been answered once for each line and once more. -/
theorem state_iterate_pursue {n : Nat} {t : Text} (h : (lines t).length < n)
    (done : List Report) : (program.pursue^[n] ⟨some .eachLine, done, t⟩).state = none := by
  induction n generalizing t done with
  | zero => simp at h
  | succ n ih =>
    rw [Function.iterate_succ_apply]
    cases hlines : lines t with
    | nil =>
      rw [pursue_of_lines_nil hlines, Function.iterate_fixed (pursue_none _ _)]
    | cons line rest =>
      obtain ⟨t', hrest, next⟩ := pursue_of_lines_cons hlines done
      rw [next]
      refine ih ?_ _
      rw [hlines, List.length_cons] at h
      rw [hrest]
      omega

/-- The turns that a thread takes before it rests are answers enough to end the errand. -/
theorem state_settle {thread : ThreadId} {scene : Scene (Option Errand) Report}
    (attends : program.Attends thread scene) (ok : Iterates scene.state) :
    (program.pursue^[scene.stream.available + 2] (scene.study thread [])).state = none := by
  rcases ok with reads | ended
  · have few := length_lines_outlook_lt attends fun ask asks => by
      obtain rfl : { demand := .line } = ask := by simpa [program, Errand.ask, reads] using asks
      rfl
    simpa [Scene.study, reads] using state_iterate_pursue few scene.done
  · rw [Scene.study, ended, Function.iterate_fixed (pursue_none _ _)]

/-- **Every line is reported, once and whole.** The errand to read every line ends on a stream that
is closed, however its text arrived. It has then reported the segments of the text between its
breaks, the last one only when it is not empty. So lines that each end with the same spelling of the
break are reported as they were. -/
theorem eachLine_reports {s : InputStream} {thread : ThreadId} (fresh : s.Fresh thread)
    (beats : List Beat) :
    let text := beats.flatMap Beat.text
    let scene := (program.play thread ⟨s, some .eachLine, []⟩ beats).close
    let rest := program.settle thread scene.stream scene.state
    rest.state = none ∧
      (∃ segments, Segmented text segments ∧ (∀ other, Segmented text other → other = segments) ∧
        scene.done ++ rest.done = lineReports (dropEmptyLast segments)) ∧
      ∀ mark ∈ [['\n'], ['\r'], ['\r', '\n']], ∀ list : List Text,
        (∀ line ∈ list, line.Unbroken) → text = (list.flatMap fun line => line ++ mark) →
          scene.done ++ rest.done = lineReports list := by
  intro text scene rest
  obtain ⟨attends, ok, closed, k, studied⟩ :=
    play_close_study program_timeless (.inl rfl) fresh beats
  have final := proceed_closed_study program_timeless ok attends closed
    (scene.stream.available + 2)
  rw [iterate_proceed] at final
  have ended : rest.state = none := by
    have := congrArg Study.state final
    rw [state_settle attends ok] at this
    exact this
  have reports : scene.done ++ rest.done = lineReports (lines text) := by
    have settled := congrArg whole final
    rw [whole_iterate_pursue _ ok, studied, whole_iterate_pursue _ (.inl rfl)] at settled
    rwa [whole_of_ended ended] at settled
  refine ⟨ended, ⟨(normalizeBreaks text).splitOn '\n', segmented_iff.mpr rfl,
    fun other h => segmented_iff.mp h, reports⟩, fun mark hmark list hlist htext => ?_⟩
  rw [reports, htext, lines_flatMap hmark hlist]

/-- A CR LF that arrives in two pieces ends one line, and the next one ends an empty line. -/
theorem eachLine_reports_of_cut_crlf :
    let scene := (program.play "reader" ⟨{}, some .eachLine, []⟩
      [.append ['a', '\r'], .turn, .append ['\n', '\r', '\n']]).close
    let rest := program.settle "reader" scene.stream scene.state
    ({} : InputStream).Fresh "reader" ∧ (∀ line ∈ [['a'], []], Unbroken line) ∧
      rest.state = none ∧ scene.done ++ rest.done = lineReports [['a'], []] := by
  intro scene rest
  have fresh := InputStream.fresh_new "reader"
  have unbroken : ∀ line ∈ [['a'], []], Unbroken line := by simp
  obtain ⟨ended, -, reports⟩ :=
    eachLine_reports fresh [.append ['a', '\r'], .turn, .append ['\n', '\r', '\n']]
  exact ⟨fresh, unbroken, ended, reports ['\r', '\n'] (by simp) [['a'], []] unbroken rfl⟩

end Errand

end LineConsole
