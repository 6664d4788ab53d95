import LineConsole.CommandLine.Run
import LineConsole.Proofs.Session.Pumped
import LineConsole.Proofs.Session.Streamed

/-!
# Plain input comes through the pump

Plain input is cut into lines twice. It is read line by line, which cuts it at the LFs only; each
line is given an LF again and appended to the stream; and the session cuts the stream at CR LF, CR
and LF. What comes of it is what comes of the input itself: a CR in front of an LF was one break
with it and is again, and an LF behind a last line that had none, or that ends on a CR, breaks
nothing that was whole.

So the program over plain input shows, up to the prompts, what a session shows over a stream to
which the input was appended as it is. It does so at whatever time the pump and the session take
their turns, also if the pump notices late that the session has ended.

## Main definitions

* `CommandLine.answer?` — what the demonstration shows for a line

## Main results

* `Text.lines_feeding_feedLines` — the two cuts make one
* `Session.Course.runOut_of_ended` — a session that has ended takes no notice of what is to come
* `Session.Course.runOut_steady` — what a session does whose interpreter gives up on nothing
* `CommandLine.plain_input_framed` — what the program makes of plain input
-/

namespace LineConsole

open Text Program

/-! ## Two cuts -/

namespace Text

variable {t piece : Text}

theorem feedLines_of_not_mem (h : '\n' ∉ t) : feedLines t = if t = [] then [] else [t] := by
  rw [feedLines, List.splitOn_eq_singleton h, dropEmptyLast]
  rfl

/-- The pieces are those in front of the first LF and behind it. -/
theorem feedLines_append_lf (h : '\n' ∉ piece) (rest : Text) :
    feedLines (piece ++ '\n' :: rest) = piece :: feedLines rest := by
  rw [feedLines, List.splitOn_append_cons_self_of_not_mem h, dropEmptyLast_cons _ (by simp)]
  rfl

/-- An LF behind a text without LFs ends its last line, if that was not ended by a CR. -/
theorem framed_of_not_mem (h : '\n' ∉ t) (some : t ≠ []) : framed t = lines t := by
  induction hlen : t.length using Nat.strongRecOn generalizing t with
  | ind n ih =>
    cases hcut : cut t with
    | none =>
      have unbroken := cut_eq_none_iff.mp hcut
      rw [framed_of_unbroken unbroken, lines_of_unbroken unbroken, if_neg some]
    | some found =>
      obtain ⟨line, rest⟩ := found
      obtain ⟨mark, hline, hmark, rfl⟩ := cut_eq_some_iff.mp hcut
      have behind : '\n' ∉ rest := fun mem => h (by simp [mem])
      cases hmark with
      | crlf | lf => simp at h
      | cr first =>
        by_cases last : rest = []
        · subst last
          have whole : cut (line ++ ['\r'] ++ [] ++ ['\n']) = .some (line, []) :=
            cut_eq_some_iff.mpr ⟨['\r', '\n'], hline, .crlf, by simp⟩
          rw [framed, lines_of_cut whole, lines_of_cut hcut]
        · have longer : cut (line ++ ['\r'] ++ rest ++ ['\n']) = .some (line, rest ++ ['\n']) := by
            refine cut_eq_some_iff.mpr ⟨['\r'], hline, .cr ?_, by simp⟩
            rwa [List.head?_append_of_ne_nil _ last]
          have rest_eq := ih _ (hlen ▸ length_lt_of_cut hcut) behind last rfl
          rw [framed, lines_of_cut longer, lines_of_cut hcut]
          exact congrArg _ rest_eq

/-- **The two cuts make one**: a text that was cut at its LFs and put together again has the lines
of the text. -/
theorem lines_feeding_feedLines (t : Text) : lines (feeding (feedLines t)) = lines t := by
  rw [lines_feeding]
  induction hlen : t.length using Nat.strongRecOn generalizing t with
  | ind n ih =>
    by_cases lf : '\n' ∈ t
    · -- The piece in front of the first LF ends there for both cuts.
      obtain ⟨piece, rest, rfl, front⟩ := List.eq_append_cons_of_mem lf
      have shorter : rest.length < n := by
        rw [← hlen, List.length_append, List.length_cons]
        omega
      have split : piece ++ '\n' :: rest = (piece ++ ['\n']) ++ rest := by simp
      rw [feedLines_append_lf front, List.flatMap_cons, ih _ shorter rest rfl, split,
        (endsFeed_line piece).lines_append rest]
      rfl
    · rw [feedLines_of_not_mem lf]
      split
      next nothing => simp [nothing]
      next some => simpa using framed_of_not_mem lf some

end Text

/-! ## The session -/

namespace Session

variable {line : Text}

/-- A line that asks to quit, told from the line as it is taken. -/
theorem quits_iff : Quits line ↔ Line.of line = .quit := by
  constructor
  · rintro ⟨command, stripped, quits⟩
    simp [Line.of, stripped, Line.ofCommand, quits]
  · intro asks
    unfold Line.of at asks
    split at asks
    next => cases asks
    next command stripped =>
      refine ⟨command, stripped, ?_⟩
      by_contra other
      simp only [Line.ofCommand, other, if_false] at asks
      split at asks <;> cases asks
    next => cases asks

namespace Course

variable {course : Course} {s : InputStream} {thread : ThreadId} {past : List Text}

/-- **A session that has ended takes no notice of what is to come**: it has done what it does with
the lines of all the text, however much more there is. -/
theorem runOut_of_ended (fresh : s.Fresh thread) {beats : List Beat}
    (ended : (course.program.play thread (course.beginning past s) beats).state.session.isAlive =
      false) (future : Text) :
    (course.program.play thread (course.beginning past s) beats).done =
      opening (course past) ++
        (course.runOut ⟨past, opened⟩ (lines (beats.flatMap Beat.text ++ future))).events := by
  obtain ⟨-, -, -, k, studied⟩ := play_study course.program_timeless trivial
    (attends_of_fresh fresh ⟨past, opened⟩ (opening (course past))) fresh.opened beats
  have answered := studied future
  rw [study_of_fresh fresh] at answered
  obtain ⟨outcome, -⟩ := course.outcome_iterate_pursue k
    ⟨⟨past, opened⟩, opening (course past), beats.flatMap Beat.text ++ future⟩
  rw [← answered] at outcome
  exact (eq_of_outcome ended outcome).2.1

/-- What a session does with lines whose interpreter gives up on nothing: it answers them up to the
first that asks to quit, and closes. -/
theorem runOut_steady {interpreter : Interpreter}
    (steady : ∀ text message, interpreter.execute text ≠ .failure message) (past list : List Text) :
    ((constant interpreter).runOut ⟨past, opened⟩ list).events =
      (list.takeWhile fun line => Line.of line ≠ .quit).flatMap (lineEvents interpreter) ++
        [.wrote farewell] := by
  induction list generalizing past with
  | nil =>
    rw [runOut_nil rfl, receive_none]
    rfl
  | cons line list ih =>
    rw [runOut_cons rfl]
    by_cases quits : Quits line
    · have stops : ¬ Line.of line ≠ .quit := not_not_intro (quits_iff.mp quits)
      obtain ⟨received, -⟩ := receive_of_quits interpreter quits
      simp only [Course.receive, constant, received]
      rw [runOut_of_not_alive rfl, List.takeWhile_cons_of_neg (by simpa using stops)]
      rfl
    · have goesOn : Line.of line ≠ .quit := fun asks => quits (quits_iff.mpr asks)
      have passes : Passes interpreter line := by
        refine ⟨quits, ?_⟩
        rintro message ⟨text, -, fails⟩
        exact steady text message fails
      simp only [Course.receive, constant, receive_of_passes passes]
      rw [List.takeWhile_cons_of_pos (by simpa using goesOn), List.flatMap_cons, List.append_assoc]
      exact congrArg _ (ih _)

end Course

end Session

/-! ## The program -/

namespace CommandLine

open Session

/-- What the demonstration shows for a line: the line itself, stripped; the help; or that a command
is unknown. -/
def answer? (line : Text) : Option Text :=
  match Line.of line with
  | .blank | .quit => none
  | .help => some helpText
  | .unknown command => some (unknownText command)
  | .statement text => some text

theorem said?_demo (line : Text) : said? demo line = answer? line := by
  rcases line_cases line with ⟨blank, -⟩ | ⟨command, stripped, -⟩ | statement
  · simp [said?, answer?, Line.of, blank]
  · by_cases quits : command.strip ∈ quitWords
    · simp [said?, answer?, Line.of, stripped, Line.ofCommand, commandText?, quits]
    · by_cases helps : command.strip ∈ helpWords <;>
        simp [said?, answer?, Line.of, stripped, Line.ofCommand, commandText?, quits, helps]
  · obtain ⟨-, taken, said⟩ := statement?_eq_some demo statement
    have printed : line.strip ≠ [] := fun blank => by simp [statement?, blank] at statement
    obtain ⟨c, rest, text⟩ := List.exists_cons_of_ne_nil printed
    rw [said, answer?, taken, text]
    rfl

theorem plainOutput_append (events later : List Event) :
    plainOutput (events ++ later) = plainOutput events ++ plainOutput later :=
  List.flatMap_append

/-- What is shown for a line ends on an LF. -/
theorem plainOutput_lineEvents (line : Text) :
    plainOutput (lineEvents demo line) = feeding (answer? line).toList := by
  rw [lineEvents, plainOutput_append, said?_demo]
  cases statement? line <;> cases answer? line <;>
    simp [plainOutput, plainText, feeding]

theorem plainOutput_answers (front : List Text) :
    plainOutput (front.flatMap (lineEvents demo)) = feeding (front.filterMap answer?) := by
  induction front with
  | nil => rfl
  | cons line front ih =>
    rw [List.flatMap_cons, plainOutput_append, ih, plainOutput_lineEvents]
    cases answered : answer? line <;> simp [feeding, answered]

theorem executedLines_answers (front : List Text) :
    executedLines (front.flatMap (lineEvents demo)) = statements front := by
  induction front with
  | nil => rfl
  | cons line front ih =>
    rw [List.flatMap_cons, executedLines_append, ih, executedLines_lineEvents, statements_cons]

/-- What the demonstration makes known over a text. -/
def heard (t : Text) : List Event :=
  opening demo ++ ((Course.constant demo).runOut ⟨[], opened⟩ (lines t)).events

/-- A session of the demonstration over a stream, when it has just opened. -/
def onStream : Scene Session Event := ⟨{}, opened, opening demo⟩

theorem done_stream (beats : List Beat) :
    ((Session.program demo).stream Live.thread onStream beats).done =
      heard (beats.flatMap Beat.text) := by
  have shown := (Course.shows_constant demo).stream Live.thread
    ((Course.constant demo).beginning [] {}) beats
  obtain ⟨-, -, -, done, -⟩ := Course.stream_runOut (InputStream.fresh_new Live.thread)
    (.constant demo) [] beats
  exact (congrArg Scene.done shown).trans done

/-- Once the session has ended, nothing that is still to come is heard. -/
theorem heard_of_ended {beats : List Beat}
    (ended : ((Session.program demo).play Live.thread onStream beats).state.isAlive = false)
    (future : Text) :
    heard (beats.flatMap Beat.text ++ future) = heard (beats.flatMap Beat.text) := by
  have shown := (Course.shows_constant demo).play Live.thread beats
    ((Course.constant demo).beginning [] {})
  have dead : ((Course.constant demo).program.play Live.thread
      ((Course.constant demo).beginning [] {}) beats).state.session.isAlive = false :=
    (congrArg (fun scene => scene.state.isAlive) shown).symm.trans ended
  have all := Course.runOut_of_ended (InputStream.fresh_new Live.thread) dead
  have without := all []
  rw [List.append_nil] at without
  exact (all future).symm.trans without

/-- What the program over plain input makes known, up to the prompts. -/
theorem unprompted_pump (prompt input : Text) :
    unprompted (Pump.run demo prompt input.feedLines).1.events = heard input := by
  obtain ⟨-, done, -⟩ := (Course.constant demo).pump_eq prompt [] input.feedLines
  obtain ⟨events, -⟩ :=
    (Course.constant demo).overFeeds_eq_runOut prompt ⟨[], opened⟩ input.feedLines
  rw [← lines_feeding, lines_feeding_feedLines] at events
  rw [Course.pump_constant demo prompt [] input.feedLines]
  refine (congrArg unprompted done).trans ?_
  rw [unprompted_append, events]
  rfl

theorem run_legacy {environment : Environment} {arguments : List Text} {settings : Settings}
    {name : Text} (parsed : Settings.ofArguments environment arguments = .ok settings)
    (legacy : settings.mode = some legacyMode) (named : settings.logLevel = some name)
    (input : Text) (moves : List Application.Move) :
    run environment arguments input moves = .legacy (levelOfName name)
      (Pump.run demo (promptOf settings.prompt).shown input.feedLines).1.events := by
  simp only [run, parsed, runSettings, named, legacy, if_true]

/-- **Plain input is framed like a stream.** Let the program run over plain input, with any breaks in
it, with or without one at its end, and with any prompt. Up to the prompts it makes known what the
session makes known over a stream to which the input was appended as it is, and which was closed. It
takes the lines of the input up to the first that asks to quit. It executes the statements among
them, and shows the banner, for each line the line stripped, the help or that a command is unknown,
and then the farewell, each with an LF behind it.

The pump need not wait for the session, and may go on for a while when the session has ended. However
their turns mix, the same is made known: the pump has fed some of its lines, and all of them unless
the session ended before. -/
theorem plain_input_framed {environment : Environment} {arguments : List Text}
    {settings : Settings} {name : Text}
    (parsed : Settings.ofArguments environment arguments = .ok settings)
    (legacy : settings.mode = some legacyMode) (named : settings.logLevel = some name)
    (input : Text) (moves : List Application.Move) :
    let front := (lines input).takeWhile fun line => Line.of line ≠ .quit
    let session := Session.program demo
    ∃ events, run environment arguments input moves = .legacy (levelOfName name) events ∧
      unprompted events = (session.stream Live.thread onStream [.append input]).done ∧
      executedLines events = statements front ∧
      plainOutput (unprompted events) =
        feeding (banner demo.title :: front.filterMap answer? ++ [farewell]) ∧
      ∀ beats fed rest, input.feedLines = fed ++ rest → beats.flatMap Beat.text = feeding fed →
        (rest = [] ∨ (session.play Live.thread onStream beats).state.isAlive = false) →
          (session.stream Live.thread onStream beats).done = unprompted events := by
  intro front session
  have steady : ∀ text message, demo.execute text ≠ .failure message := fun _ _ failed => by
    cases failed
  have answers : heard input =
      opening demo ++ (front.flatMap (lineEvents demo) ++ [.wrote farewell]) :=
    congrArg _ (Course.runOut_steady steady [] (lines input))
  have same := unprompted_pump (promptOf settings.prompt).shown input
  refine ⟨_, run_legacy parsed legacy named input moves, ?_, ?_, ?_, fun beats fed rest split text
    stops => ?_⟩
  · rw [same, done_stream]
    simp [Beat.text]
  · rw [← executedLines_unprompted, same, answers, executedLines_append, executedLines_append,
      executedLines_answers]
    simp [opening, executedLines, List.filterMap_cons, Event.executedLine?]
  · rw [same, answers, plainOutput_append, plainOutput_append, plainOutput_answers]
    simp [opening, plainOutput, plainText, feeding]
  · rw [same, done_stream]
    have whole : heard (feeding fed ++ feeding rest) = heard input := by
      have joined : feeding fed ++ feeding rest = feeding input.feedLines := by
        rw [split]
        exact List.flatMap_append.symm
      rw [joined, heard, lines_feeding_feedLines]
      rfl
    rw [← whole, text]
    -- What has not been fed is nothing, or the session would not hear it.
    rcases stops with rfl | ended
    · simp [feeding]
    · rw [← text, heard_of_ended ended]

/-- A CR LF, a CR behind which a line is blank, an LF and two CRs; the input goes on behind the line
that quits, and its last line is not ended. -/
theorem plain_input_framed_of_mixed_breaks :
    let environment : Environment := { mode := some legacyMode }
    let arguments := ["--prompt".toList, "? ".toList]
    let input := "1\r\n\r:h\n 2\r:quit\r3".toList
    let settings : Settings :=
      ⟨some legacyMode, some "? ".toList, some "tab".toList, some "WARNING".toList⟩
    Settings.ofArguments environment arguments = .ok settings ∧
      ∃ events, run environment arguments input [] = .legacy .warning events ∧
        executedLines events = [['1'], ['2']] ∧
        plainOutput (unprompted events) =
          feeding [banner "Echo".toList, ['1'], helpText, ['2'], farewell] := by
  intro environment arguments input settings
  have parsed : Settings.ofArguments environment arguments = .ok settings := by decide
  obtain ⟨events, ran, -, executed, shown, -⟩ := plain_input_framed parsed rfl rfl input []
  refine ⟨parsed, events, ran.trans ?_, executed.trans ?_, shown.trans ?_⟩
  · rw [show levelOfName "WARNING".toList = .warning by decide]
  · decide
  · rfl

end CommandLine

end LineConsole
