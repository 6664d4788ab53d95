import LineConsole.Interpreter.Echo
import LineConsole.Session.Script

/-!
# Sessions that follow a script

A script decides what a session over it does. Read the unread lines one by one: a line may ask to
quit, it may be a statement that the interpreter gives up on, and any other line leaves the session
where it was. So a run consumes the lines up to the first of these, or all of them. What it executes
and what it shows are read off the consumed lines, and how it ended is read off the last of them.

An interpreter may remember what it executed, also from one run to the next, so here it is given by
what it is after each list of lines. One that remembers nothing is the same after all of them, and
for it the runs described here are those of `runScript`.

## Main definitions

* `Course` — an interpreter that may remember what it executed
* `Course.follow`, `Course.overLines` — a session with such an interpreter
* `Sitting`, `sittings` — a session that is run again and again over one script
* `Quits`, `Breaks`, `statement?`, `said?` — what a line of a script calls for
* `Course.pages` — what is shown for the lines of a script
* `Course.Ends` — the ways in which a run ends

## Main results

* `receive_of_quits`, `receive_of_breaks`, `receive_of_passes` — what a session does with a line
* `Course.follow_opened` — what it does with a script
* `run_follows_script` — what every run of a session does
-/

namespace LineConsole.Session

/-! ## Interpreters that remember -/

/-- An interpreter that may remember what it executed: what it is after each list of lines. -/
def Course := List Text → Interpreter

namespace Course

/-- The interpreter that remembers nothing. -/
def constant (interpreter : Interpreter) : Course := fun _ => interpreter

/-- A living session goes on over a list of lines, as in `Session.follow`; the interpreter has
executed the lines of `past`. -/
def follow (course : Course) (prompt : Text) (past : List Text) (session : Session) :
    List Text → Transcript
  | [] =>
    if session.isAlive then
      let (session, events) := session.receive (course past) none
      ⟨session, .prompted prompt :: events, []⟩
    else ⟨session, [], []⟩
  | line :: lines =>
    if session.isAlive then
      let (session, events) := session.receive (course past) (some line)
      let later := course.follow prompt (past ++ executedLines events) session lines
      { later with events := .prompted prompt :: events ++ later.events }
    else ⟨session, [], line :: lines⟩

/-- A whole session over a list of lines. -/
def overLines (course : Course) (prompt : Text) (past lines : List Text) : Transcript :=
  let later := course.follow prompt past opened lines
  { later with events := opening (course past) ++ later.events }

theorem follow_constant (interpreter : Interpreter) (prompt : Text) (past : List Text)
    (session : Session) (lines : List Text) :
    (constant interpreter).follow prompt past session lines =
      Session.follow interpreter prompt session lines := by
  induction lines generalizing past session with
  | nil => rfl
  | cons line lines ih =>
    simp only [follow, Session.follow, ih]
    rfl

theorem overLines_constant (interpreter : Interpreter) (prompt : Text) (past lines : List Text) :
    (constant interpreter).overLines prompt past lines =
      Session.overLines interpreter prompt lines := by
  simp only [overLines, Session.overLines, follow_constant]
  rfl

end Course

/-! ## A session run again and again -/

/-- A session between two runs, with its script and the lines it has executed. -/
structure Sitting where
  executed : List Text := []
  script : Script := {}
  session : Session := {}

/-- Lines are added to the unread ones, and the session is run over them. -/
def Sitting.run (course : Course) (prompt : Text) (sitting : Sitting) (added : List Text) :
    Sitting :=
  let transcript := course.overLines prompt sitting.executed (sitting.script.unread ++ added)
  { executed := sitting.executed ++ executedLines transcript.events
    script := ⟨transcript.unread, sitting.script.shown ++ shownTexts transcript.events⟩
    session := transcript.session }

/-- A new session is run again and again. -/
def sittings (course : Course) (prompt : Text) (runs : List (List Text)) : Sitting :=
  runs.foldl (Sitting.run course prompt) {}

theorem sittings_concat (course : Course) (prompt : Text) (runs : List (List Text))
    (added : List Text) :
    sittings course prompt (runs ++ [added]) =
      (sittings course prompt runs).run course prompt added := by
  rw [sittings, List.foldl_append]
  rfl

/-- With an interpreter that remembers nothing, a run is a session over the script. -/
theorem Sitting.run_constant (interpreter : Interpreter) (prompt : Text) (sitting : Sitting)
    (added : List Text) :
    let after := sitting.run (.constant interpreter) prompt added
    runScript interpreter prompt ⟨sitting.script.unread ++ added, sitting.script.shown⟩ =
        (Session.overLines interpreter prompt (sitting.script.unread ++ added), after.script) ∧
      after.session =
        (Session.overLines interpreter prompt (sitting.script.unread ++ added)).session := by
  simp only [run, runScript, Course.overLines_constant]
  exact ⟨trivial, trivial⟩

/-! ## What a line calls for -/

/-- The line asks to quit: stripped, it is a colon and a text that strips to a word for quitting. -/
def Quits (line : Text) : Prop :=
  ∃ command : Text, line.strip = ':' :: command ∧ command.strip ∈ quitWords

/-- What is executed for a line: the line stripped, unless it is blank or begins with a colon. -/
def statement? (line : Text) : Option Text :=
  if line.strip = [] ∨ line.strip.head? = some ':' then none else some line.strip

/-- What is executed for a list of lines. -/
def statements (lines : List Text) : List Text := lines.filterMap statement?

/-- The interpreter gives up on the line. -/
def Breaks (interpreter : Interpreter) (line message : Text) : Prop :=
  ∃ text, statement? line = some text ∧ interpreter.execute text = .failure message

/-- The text of a reply, unless it is empty. -/
def replyText? : Reply → Option Text
  | .text [] => none
  | .text text => some text
  | .silent | .failure _ => none

/-- What is shown for a command, the text behind the colon. -/
def commandText? (command : Text) : Option Text :=
  if quitWords.contains command.strip then none
  else if helpWords.contains command.strip then some helpText
  else some (unknownText command)

/-- The text that is shown for a line, if there is one: a reply that is not empty, the help, or that
a command is unknown. -/
def said? (interpreter : Interpreter) (line : Text) : Option Text :=
  match line.strip with
  | [] => none
  | ':' :: command => commandText? command
  | text => replyText? (interpreter.execute text)

/-- What a session makes known when it takes a line. -/
def lineEvents (interpreter : Interpreter) (line : Text) : List Event :=
  (statement? line).toList.map .executed ++ (said? interpreter line).toList.map .wrote

/-- The line leaves a session where it was. -/
structure Passes (interpreter : Interpreter) (line : Text) : Prop where
  stays : ¬ Quits line
  replied : ∀ message, ¬ Breaks interpreter line message

variable {interpreter : Interpreter} {line text message : Text}

/-- A line is blank, a command or a statement. -/
theorem line_cases (line : Text) :
    (line.strip = [] ∧ statement? line = none) ∨
      (∃ command : Text, line.strip = ':' :: command ∧ statement? line = none) ∨
      statement? line = some line.strip := by
  cases h : line.strip with
  | nil => exact .inl ⟨rfl, by simp [statement?, h]⟩
  | cons c rest =>
    by_cases colon : c = ':'
    · subst colon
      exact .inr (.inl ⟨rest, rfl, by simp [statement?, h]⟩)
    · exact .inr (.inr (by simp [statement?, h, colon]))

/-- A statement is told from the other lines by what is executed for it. -/
theorem statement?_eq_some (interpreter : Interpreter) (h : statement? line = some text) :
    line.strip = text ∧ Line.of line = .statement text ∧
      said? interpreter line = replyText? (interpreter.execute text) := by
  have plain : ¬ (line.strip = [] ∨ line.strip.head? = some ':') := fun found => by
    simp [statement?, found] at h
  obtain rfl : line.strip = text := by simpa [statement?, plain] using h
  rw [not_or] at plain
  obtain ⟨printed, first⟩ := plain
  refine ⟨rfl, ?_, ?_⟩
  · unfold Line.of
    split <;> simp_all
  · unfold said?
    split <;> simp_all

theorem receive_of_quits (interpreter : Interpreter) (h : Quits line) :
    opened.receive interpreter (some line) = (⟨false, true, none⟩, [.wrote farewell]) ∧
      lineEvents interpreter line = [] := by
  obtain ⟨command, stripped, quits⟩ := h
  have known : Line.of line = .quit := by simp [Line.of, stripped, Line.ofCommand, quits]
  refine ⟨by simp [receive, known, closed, opened], ?_⟩
  simp [lineEvents, statement?, said?, stripped, commandText?, quits]

theorem receive_of_breaks (h : Breaks interpreter line message) :
    opened.receive interpreter (some line) =
      (⟨true, false, some message⟩, lineEvents interpreter line) := by
  obtain ⟨text, statement, fails⟩ := h
  obtain ⟨-, known, said⟩ := statement?_eq_some interpreter statement
  simp [receive, known, afterReply, fails, lineEvents, statement, said, replyText?, opened]

theorem receive_of_passes (h : Passes interpreter line) :
    opened.receive interpreter (some line) = (opened, lineEvents interpreter line) := by
  obtain ⟨stays, replied⟩ := h
  rcases line_cases line with ⟨blank, none⟩ | ⟨command, stripped, none⟩ | statement
  · simp [receive, Line.of, blank, lineEvents, none, said?]
  · have quits : command.strip ∉ quitWords := fun mem => stays ⟨command, stripped, mem⟩
    by_cases helps : command.strip ∈ helpWords <;>
      simp [receive, Line.of, stripped, Line.ofCommand, quits, helps, lineEvents, none, said?,
        commandText?]
  · obtain ⟨-, known, said⟩ := statement?_eq_some interpreter statement
    simp only [receive, known, lineEvents, statement, said]
    cases reply : interpreter.execute line.strip with
    | silent => rfl
    | text text => cases text <;> rfl
    | failure message => exact absurd ⟨_, statement, reply⟩ (replied message)

/-! ## What a script calls for -/

theorem executedLines_append (events later : List Event) :
    executedLines (events ++ later) = executedLines events ++ executedLines later :=
  List.filterMap_append

theorem shownTexts_append (events later : List Event) :
    shownTexts (events ++ later) = shownTexts events ++ shownTexts later :=
  List.filterMap_append

theorem statements_cons (line : Text) (lines : List Text) :
    statements (line :: lines) = (statement? line).toList ++ statements lines := by
  simp only [statements, List.filterMap_cons]
  cases statement? line <;> rfl

theorem statements_append (lines more : List Text) :
    statements (lines ++ more) = statements lines ++ statements more :=
  List.filterMap_append

theorem executedLines_lineEvents (interpreter : Interpreter) (line : Text) :
    executedLines (lineEvents interpreter line) = (statement? line).toList := by
  cases statement : statement? line <;> cases said : said? interpreter line <;>
    simp [lineEvents, statement, said, executedLines, Event.executedLine?]

theorem shownTexts_lineEvents (interpreter : Interpreter) (line : Text) :
    shownTexts (lineEvents interpreter line) = (said? interpreter line).toList := by
  cases statement : statement? line <;> cases said : said? interpreter line <;>
    simp [lineEvents, statement, said, shownTexts, List.filterMap_cons, Event.shown?]

namespace Course

/-- What is shown for a list of lines: for each of them the prompt and at most one text. -/
def pages (course : Course) (prompt : Text) (past : List Text) : List Text → List Text
  | [] => []
  | line :: lines =>
    prompt :: (said? (course past) line).toList ++
      course.pages prompt (past ++ (statement? line).toList) lines

/-- What is made known for a list of lines. -/
def pageEvents (course : Course) (prompt : Text) (past : List Text) : List Text → List Event
  | [] => []
  | line :: lines =>
    .prompted prompt :: lineEvents (course past) line ++
      course.pageEvents prompt (past ++ (statement? line).toList) lines

section Pages

variable (course : Course) (prompt : Text) (past lines : List Text)

theorem executedLines_pageEvents :
    executedLines (course.pageEvents prompt past lines) = statements lines := by
  induction lines generalizing past with
  | nil => rfl
  | cons line lines ih =>
    rw [pageEvents, executedLines_append, ih, statements_cons, ← executedLines_lineEvents]
    rfl

theorem shownTexts_pageEvents :
    shownTexts (course.pageEvents prompt past lines) = course.pages prompt past lines := by
  induction lines generalizing past with
  | nil => rfl
  | cons line lines ih =>
    rw [pageEvents, pages, shownTexts_append, ih, ← shownTexts_lineEvents]
    rfl

end Pages

/-- None of the lines stops a session. -/
def AllPass (course : Course) (past : List Text) : List Text → Prop
  | [] => True
  | line :: lines =>
    Passes (course past) line ∧ course.AllPass (past ++ (statement? line).toList) lines

/-- How a run ends that consumed lines and left others, with the session as it is then and what is
shown last: at the first line that asks to quit, at the first that the interpreter gives up on, or
when there are no more lines. -/
inductive Ends (course : Course) (prompt : Text) (past : List Text) :
    List Text → List Text → Session → List Text → Prop
  | quit {front left : List Text} {line : Text} : course.AllPass past front → Quits line →
      Ends course prompt past (front ++ [line]) left ⟨false, true, none⟩ [farewell]
  | broke {front left : List Text} {line message : Text} : course.AllPass past front →
      Breaks (course (past ++ statements front)) line message →
        Ends course prompt past (front ++ [line]) left ⟨true, false, some message⟩ []
  | ranOut {consumed : List Text} : course.AllPass past consumed →
      Ends course prompt past consumed [] ⟨false, false, none⟩ [prompt, farewell]

variable {course : Course} {prompt : Text}

/-- A line that stops nothing goes before. -/
theorem Ends.cons {past consumed left tail : List Text} {session : Session}
    (passes : Passes (course past) line)
    (h : course.Ends prompt (past ++ (statement? line).toList) consumed left session tail) :
    course.Ends prompt past (line :: consumed) left session tail := by
  cases h with
  | @quit front left last all quits =>
    rw [← List.cons_append]
    exact .quit ⟨passes, all⟩ quits
  | @broke front left last message all breaks =>
    rw [List.append_assoc, ← statements_cons] at breaks
    rw [← List.cons_append]
    exact .broke ⟨passes, all⟩ breaks
  | ranOut all => exact .ranOut ⟨passes, all⟩

/-- A session that is closed or broken off reads nothing. -/
theorem follow_of_not_isAlive {session : Session} (h : session.isAlive = false)
    (past lines : List Text) : course.follow prompt past session lines = ⟨session, [], lines⟩ := by
  cases lines <;> simp [follow, h]

theorem follow_opened_cons (past : List Text) (line : Text) (lines : List Text) :
    course.follow prompt past opened (line :: lines) =
      let (session, events) := opened.receive (course past) (some line)
      let later := course.follow prompt (past ++ executedLines events) session lines
      { later with events := .prompted prompt :: events ++ later.events } := rfl

/-- A line that does not pass stops the session. -/
theorem stops_of_not_passes {interpreter : Interpreter} {line : Text}
    (h : ¬ Passes interpreter line) :
    Quits line ∨ ∃ message, Breaks interpreter line message := by
  by_cases quits : Quits line
  · exact .inl quits
  · exact .inr (Classical.not_forall_not.mp fun replied => h ⟨quits, replied⟩)

/-- **A session follows its script**: it consumes lines from the front, one by one, and ends. -/
theorem follow_opened (past lines : List Text) :
    let later := course.follow prompt past opened lines
    ∃ consumed last, lines = consumed ++ later.unread ∧
      later.events = course.pageEvents prompt past consumed ++ last ∧ executedLines last = [] ∧
        course.Ends prompt past consumed later.unread later.session (shownTexts last) := by
  -- The interpreter has executed more at each line, so the past is left open.
  induction lines generalizing past with
  | nil => exact ⟨[], [.prompted prompt, .wrote farewell], rfl, rfl, rfl, .ranOut trivial⟩
  | cons line lines ih =>
    rw [follow_opened_cons]
    by_cases passes : Passes (course past) line
    · rw [receive_of_passes passes]
      dsimp only
      rw [executedLines_lineEvents]
      obtain ⟨consumed, last, split, events, silent, ends⟩ := ih (past ++ (statement? line).toList)
      refine ⟨line :: consumed, last, congrArg _ split, ?_, silent, ends.cons passes⟩
      rw [events, pageEvents, List.append_assoc]
    · rcases stops_of_not_passes passes with quits | ⟨message, breaks⟩
      · obtain ⟨received, nothing⟩ := receive_of_quits (course past) quits
        rw [received]
        dsimp only
        rw [follow_of_not_isAlive rfl]
        refine ⟨[] ++ [line], [.wrote farewell], rfl, ?_, rfl, .quit trivial quits⟩
        simp [pageEvents, nothing]
      · rw [receive_of_breaks breaks]
        dsimp only
        rw [follow_of_not_isAlive rfl]
        refine ⟨[] ++ [line], [], rfl, ?_, rfl, .broke trivial ?_⟩
        · simp [pageEvents]
        · simpa [statements] using breaks

/-! ## How a run ended -/

/-- If all lines pass, the last one does, by the interpreter that remembers those before. -/
theorem AllPass.last {past front : List Text} {line : Text}
    (h : course.AllPass past (front ++ [line])) :
    Passes (course (past ++ statements front)) line := by
  induction front generalizing past with
  | nil => simpa [statements] using h.1
  | cons first front ih =>
    rw [statements_cons, ← List.append_assoc]
    exact ih h.2

/-- None of the lines that all pass asks to quit. -/
theorem AllPass.not_quits {past lines : List Text} (h : course.AllPass past lines) :
    ∀ line ∈ lines, ¬ Quits line := by
  induction lines generalizing past with
  | nil => simp
  | cons line lines ih => exact List.forall_mem_cons.mpr ⟨h.1.stays, ih h.2⟩

/-- A line that quits is not executed. -/
theorem not_breaks_of_quits {interpreter : Interpreter} {line message : Text} (quits : Quits line) :
    ¬ Breaks interpreter line message := by
  rintro ⟨text, statement, -⟩
  obtain ⟨command, stripped, -⟩ := quits
  simp [statement?, stripped] at statement

variable {past consumed left tail : List Text} {session : Session}

/-- The session was asked to quit just when the last line that was consumed asks to quit. -/
theorem Ends.quitRequested_iff (h : course.Ends prompt past consumed left session tail) :
    session.quitRequested = true ↔ ∃ front line, consumed = front ++ [line] ∧ Quits line := by
  cases h with
  | @quit front left line all quits => exact ⟨fun _ => ⟨front, line, rfl, quits⟩, fun _ => rfl⟩
  | broke all breaks =>
    refine ⟨fun requested => by simp at requested, ?_⟩
    rintro ⟨front, line, same, quits⟩
    obtain ⟨rfl, rfl⟩ := List.append_singleton_inj.mp same
    exact absurd breaks (not_breaks_of_quits quits)
  | ranOut all =>
    refine ⟨fun requested => by simp at requested, ?_⟩
    rintro ⟨front, line, rfl, quits⟩
    exact absurd quits all.last.stays

/-- The session is left running just when the interpreter gave up on the last line that was
consumed. -/
theorem Ends.running_iff (h : course.Ends prompt past consumed left session tail) :
    session.running = true ↔ ∃ front line message, consumed = front ++ [line] ∧
      Breaks (course (past ++ statements front)) line message := by
  cases h with
  | quit all quits =>
    refine ⟨fun running => by simp at running, ?_⟩
    rintro ⟨front, line, message, same, breaks⟩
    obtain ⟨rfl, rfl⟩ := List.append_singleton_inj.mp same
    exact absurd breaks (not_breaks_of_quits quits)
  | @broke front left line message all breaks =>
    exact ⟨fun _ => ⟨front, line, message, rfl, breaks⟩, fun _ => rfl⟩
  | ranOut all =>
    refine ⟨fun running => by simp at running, ?_⟩
    rintro ⟨front, line, message, rfl, breaks⟩
    exact absurd breaks (all.last.replied message)

end Course

/-- **The interpreter loop does what its script says.** Let a session be run again and again over
one script, to which lines are added before every run, with an interpreter that may remember what it
executed. A run consumes unread lines from the front: up to the first that asks to quit or that the
interpreter gives up on, or else all of them. It executes the statements among the lines it
consumes, each once and in order. It shows the banner, then the prompt and at most one text for each
of these lines, then the prompt again if the script ran out, and then the farewell unless the
interpreter gave up. Afterwards the flags tell whether it was asked to quit and whether the
interpreter gave up, and the next run goes on with the lines that are left.

With an interpreter that remembers nothing, these runs are sessions over the script. -/
theorem run_follows_script (course : Course) (prompt : Text) (earlier : List (List Text))
    (added : List Text) :
    (∃ consumed tail,
      let before := sittings course prompt earlier
      let after := sittings course prompt (earlier ++ [added])
      before.script.unread ++ added = consumed ++ after.script.unread ∧
      after.executed = before.executed ++ statements consumed ∧
      after.script.shown = before.script.shown ++ banner (course before.executed).title ::
        (course.pages prompt before.executed consumed ++ tail) ∧
      course.Ends prompt before.executed consumed after.script.unread after.session tail ∧
      (after.session.quitRequested = true ↔
        ∃ front line, consumed = front ++ [line] ∧ Quits line) ∧
      (after.session.running = true ↔ ∃ front line message, consumed = front ++ [line] ∧
        Breaks (course (before.executed ++ statements front)) line message)) ∧
    ∀ interpreter,
      let before := sittings (.constant interpreter) prompt earlier
      let after := sittings (.constant interpreter) prompt (earlier ++ [added])
      let transcript := Session.overLines interpreter prompt (before.script.unread ++ added)
      runScript interpreter prompt ⟨before.script.unread ++ added, before.script.shown⟩ =
          (transcript, after.script) ∧
        after.session = transcript.session := by
  refine ⟨?_, ?_⟩
  · rw [sittings_concat]
    generalize sittings course prompt earlier = before
    have followed := @Course.follow_opened course prompt before.executed
      (before.script.unread ++ added)
    obtain ⟨consumed, last, split, events, silent, ends⟩ := followed
    have ran : (course.overLines prompt before.executed (before.script.unread ++ added)).events =
        opening (course before.executed) ++
          (course.pageEvents prompt before.executed consumed ++ last) :=
      congrArg _ events
    refine ⟨consumed, shownTexts last, split, ?_, ?_, ends, ends.quitRequested_iff,
      ends.running_iff⟩
    · simp only [Sitting.run]
      rw [ran, executedLines_append, executedLines_append, silent,
        Course.executedLines_pageEvents, List.append_nil]
      rfl
    · simp only [Sitting.run]
      rw [ran, shownTexts_append, shownTexts_append, Course.shownTexts_pageEvents]
      rfl
  · intro interpreter
    rw [sittings_concat]
    exact Sitting.run_constant interpreter prompt _ added

/-- The session quits at the second line, and the next run begins behind it. -/
example :
    let runs := [["1 ".toList, " : quit".toList, "2".toList], [":q?".toList]]
    let sitting := sittings (.constant (Echo.interpreter [])) ">".toList runs
    sitting.executed = ["1".toList, "2".toList] ∧
      sitting.script.shown =
        [banner "Echo".toList, ">".toList, "1".toList, ">".toList, farewell,
          banner "Echo".toList, ">".toList, "2".toList, ">".toList, unknownText "q?".toList,
          ">".toList, farewell] := by
  decide

end LineConsole.Session
