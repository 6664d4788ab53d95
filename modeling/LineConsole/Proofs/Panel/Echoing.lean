import Mathlib.Data.List.TakeWhile
import LineConsole.Proofs.Panel.Run

/-!
# Echo and input agree

A line that is submitted goes two ways: to the output pane, behind the prompt of the moment, and to
the stream. Between the echoes stand the texts that are written. Here a chronicle is kept of all
that comes to the panel since it was last cleared: the lines and the texts, in order, and when the
stream was closed. The output pane shows the chronicle, and the text that the stream has accepted is
made of the lines that come before the first close. No entry goes one way only.

What the stream has accepted is counted by the stream itself, as it is for every schedule of
sections. Readers may take from it in between; what they have left is then the end of it.

## Main definitions

* `Panel.Entry`, `Entry.shown`, `Entry.fed` — what comes to a panel, as it is shown and as it is fed
* `Panel.entries` — what a step brings
* `Panel.History`, `History.take` — a bench with its chronicle and the text that was accepted
* `History.Agrees` — the output pane and the stream have got what the chronicle says

## Main results

* `InputStream.buffer_run`, `Desk.gatherAll_suffix` — what is buffered, and what was accepted
* `History.agrees_take` — every step keeps the agreement
* `Panel.echo_agrees_with_input` — so every run does
-/

namespace LineConsole

open Text

/-! ## What a stream has accepted -/

/-- Without readers a stream holds what it accepts. -/
theorem InputStream.buffer_run {s : InputStream} {actions : List Action}
    (nobody : ∀ action ∈ actions, action.reader? = none) :
    (s.run actions).1.buffer = Desk.gatherAll s actions s.buffer := by
  induction actions generalizing s with
  | nil => rfl
  | cons action actions ih =>
    obtain ⟨first, rest⟩ := List.forall_mem_cons.mp nobody
    have buffer : (s.perform action).1.buffer = Desk.gather s action s.buffer := by
      cases action with
      | append text => exact (spares_append s text).buffer
      | clear => rfl
      | close | interrupt | flag | alert => exact (spares_of_signals (by constructor)).buffer
      | start | resume => simp [Action.reader?] at first
    rw [run_cons, Desk.gatherAll, ← buffer]
    exact ih rest

/-- The end of what was accepted stays the end, as more is accepted. -/
theorem Desk.gatherAll_suffix (s : InputStream) (actions : List InputStream.Action)
    {held text : Text} (h : held <:+ text) :
    gatherAll s actions held <:+ gatherAll s actions text := by
  induction actions generalizing s held text with
  | nil => exact h
  | cons action actions ih =>
    refine ih _ ?_
    unfold gather
    split
    · exact List.suffix_refl _
    · obtain ⟨front, rfl⟩ := h
      exact ⟨front, (List.append_assoc ..).symm⟩

/-- An open stream accepts the lines that are fed to it, a closed one accepts nothing. -/
theorem Desk.gatherAll_appends (s : InputStream) (list : List Text) (text : Text) :
    gatherAll s (list.map fun line => .append (line ++ ['\n'])) text =
      text ++ if s.isClosed then [] else feeding list := by
  induction list generalizing s text with
  | nil => simp [gatherAll, feeding]
  | cons line list ih =>
    rw [List.map_cons, gatherAll, ih, InputStream.perform, InputStream.isClosed_append]
    cases closed : s.isClosed <;> simp [gather, InputStream.accepts, feeding, closed]

theorem InputStream.isClosed_feed (s : InputStream) (list : List Text) :
    (s.feed list).isClosed = s.isClosed := by
  induction list generalizing s with
  | nil => rfl
  | cons line list ih => exact (ih _).trans (s.isClosed_append _)

namespace Panel

/-! ## The chronicle -/

/-- What comes to a panel: a line that is submitted, with the prompt in force; a text that is
written; and the close of the stream. -/
inductive Entry where
  | submitted (prompt : Prompt) (line : Text)
  | written (text : Text)
  | closed
deriving DecidableEq, Repr

namespace Entry

/-- What the output pane shows of it. -/
def shown : Entry → Text
  | submitted prompt line => prompt.shown ++ line ++ ['\n']
  | written text => text
  | closed => []

/-- What is fed to an open stream. -/
def fed : Entry → Text
  | submitted _ line => line ++ ['\n']
  | written _ | closed => []

/-- The entries before the first close. -/
def beforeClose (entries : List Entry) : List Entry := entries.takeWhile (· ≠ closed)

variable {entries more : List Entry}

theorem beforeClose_of_not_mem (h : closed ∉ entries) : beforeClose entries = entries := by
  refine List.takeWhile_eq_self_iff.mpr fun entry mem => ?_
  simpa using ne_of_mem_of_not_mem mem h

theorem beforeClose_append_of_mem (h : closed ∈ entries) (more : List Entry) :
    beforeClose (entries ++ more) = beforeClose entries := by
  induction entries with
  | nil => simp at h
  | cons entry entries ih =>
    by_cases first : entry = closed
    · simp [beforeClose, first]
    · have rest : closed ∈ entries := by simpa [eq_comm, first] using h
      simpa [beforeClose, first] using ih rest

theorem beforeClose_append_closed (entries : List Entry) :
    beforeClose (entries ++ [closed]) = beforeClose entries := by
  by_cases h : closed ∈ entries
  · exact beforeClose_append_of_mem h _
  · rw [beforeClose_of_not_mem h]
    induction entries with
    | nil => rfl
    | cons entry entries ih =>
      obtain ⟨first, rest⟩ := List.ne_and_not_mem_of_not_mem_cons h
      simpa [beforeClose, first.symm] using ih rest

end Entry

/-- What a step brings to a panel. -/
def entries (panel : Panel) : Step → List Entry
  | .write texts => texts.map .written
  | .writeLine text => [.written (text ++ ['\n'])]
  | .close | .endInput => [.closed]
  | step => (panel.submits step).map (.submitted panel.prompt)

variable {panel : Panel} {step : Panel.Step}

theorem flatMap_shown_submitted (panel : Panel) (list : List Text) :
    (list.map (.submitted panel.prompt)).flatMap Entry.shown = (list.map panel.echo).flatten := by
  rw [List.flatMap_map]
  rfl

theorem flatMap_fed_submitted (prompt : Prompt) (list : List Text) :
    (list.map (.submitted prompt)).flatMap Entry.fed = feeding list := by
  rw [List.flatMap_map]
  rfl

/-- What a step brings is what it adds to the output pane. -/
theorem flatMap_shown_entries (panel : Panel) (step : Step) :
    (panel.entries step).flatMap Entry.shown = (panel.shows step).flatten := by
  cases step with
  | write texts => simp [entries, shows, Entry.shown, List.flatMap_def, Function.comp_def]
  | writeLine | close | endInput => simp [entries, shows, submits, Entry.shown]
  | type | moveTo | place | commit | paste | openPopup | move | accept | dismiss | clear
  | setPrompt | build => exact flatMap_shown_submitted panel _

/-- What a step brings is fed as the lines that it submits. -/
theorem flatMap_fed_entries (panel : Panel) (step : Step) :
    (panel.entries step).flatMap Entry.fed = feeding (panel.submits step) := by
  cases step with
  | write texts => simp [entries, submits, Entry.fed, feeding, List.flatMap_map]
  | writeLine | close | endInput => rfl
  | type | moveTo | place | commit | paste | openPopup | move | accept | dismiss | clear
  | setPrompt | build => exact flatMap_fed_submitted panel.prompt _

/-- A step that does not close the stream brings lines and texts. -/
theorem closed_not_mem_entries (panel : Panel) (stays : ¬ step.Closes) :
    .closed ∉ panel.entries step := by
  cases step <;> simp_all [entries, Step.Closes]

theorem reader?_of_mem_sections {action : InputStream.Action}
    (h : action ∈ panel.sections step) : action.reader? = none := by
  cases step with
  | clear | close | endInput =>
    obtain rfl := List.mem_singleton.mp h
    rfl
  | type | moveTo | place | commit | paste | openPopup | move | accept | dismiss | write
  | writeLine | setPrompt | build =>
    obtain ⟨line, -, rfl⟩ := List.mem_map.mp h
    rfl

/-- A bench, what has come to its panel since it was last cleared, and the text that the stream has
accepted since. -/
structure History where
  bench : Bench
  entries : List Entry := []
  accepted : Text := []

namespace History

/-- The history after a step that the panel takes, before the readers come to rest. -/
def perform (history : History) (step : Panel.Step) (after : Panel) : History where
  bench := { history.bench with panel := after }
  entries := if step = .clear then [] else history.entries ++ history.bench.panel.entries step
  accepted := Desk.gatherAll history.bench.panel.stdin (history.bench.panel.sections step)
    history.accepted

/-- The history after a step. -/
def take (history : History) (met : Source × Bench.Step) : History :=
  match met.2 with
  | .send _ _ => { history with bench := history.bench.take met }
  | .onPanel step =>
    match history.bench.panel.perform met.1 step with
    | .error _ => history
    | .ok turn => { history.perform step turn.panel with bench := history.bench.take met }

/-- The output pane and the stream have got what the chronicle says. -/
structure Agrees (history : History) : Prop where
  shown : history.bench.panel.output = history.entries.flatMap Entry.shown
  fed : history.accepted = (Entry.beforeClose history.entries).flatMap Entry.fed
  gate : history.bench.panel.stdin.isClosed = true ↔ .closed ∈ history.entries
  /-- What is buffered is the end of what was accepted, and all of it if nobody reads. -/
  unread : history.bench.panel.stdin.buffer <:+ history.accepted
  whole : history.bench.crew = [] → history.bench.panel.stdin.buffer = history.accepted

variable {history : History}

theorem take_bench (history : History) (met : Source × Bench.Step) :
    (history.take met).bench = history.bench.take met := by
  obtain ⟨source, step⟩ := met
  cases step with
  | send => rfl
  | onPanel step =>
    cases taken : history.bench.panel.perform source step with
    | error fault => simp only [take, taken, Bench.take_of_error taken]
    | ok turn => simp only [take, taken]

theorem bench_foldl_take (history : History) (steps : List (Source × Bench.Step)) :
    (steps.foldl take history).bench = history.bench.run steps := by
  induction steps generalizing history with
  | nil => rfl
  | cons met steps ih => rw [List.foldl_cons, ih, take_bench, Bench.run, Bench.run, List.foldl_cons]

/-- The readers leave the output pane alone, and take from what was accepted. -/
theorem Agrees.settle (h : history.Agrees) :
    Agrees { history with bench := history.bench.settle.1 } := by
  obtain ⟨-, read⟩ := Bench.settle_panel history.bench
  refine ⟨h.shown, h.fed, ?_, read.buffer.trans h.unread, fun alone => ?_⟩
  · rw [read.gate]
    exact h.gate
  · obtain ⟨nobody, same⟩ := Bench.settle_of_alone alone
    rw [same]
    exact h.whole nobody

/-- What comes behind the chronicle is fed, unless the stream was closed before. -/
theorem Agrees.fed_append (h : history.Agrees) {more : List Entry} (stays : .closed ∉ more) :
    (Entry.beforeClose (history.entries ++ more)).flatMap Entry.fed =
      history.accepted ++
        if history.bench.panel.stdin.isClosed then [] else more.flatMap Entry.fed := by
  cases closed : history.bench.panel.stdin.isClosed with
  | true =>
    rw [Entry.beforeClose_append_of_mem (h.gate.mp closed), ← h.fed, if_pos rfl, List.append_nil]
  | false =>
    have before : .closed ∉ history.entries := fun mem => by simp [h.gate.mpr mem] at closed
    have still : .closed ∉ history.entries ++ more := by simp [before, stays]
    rw [Entry.beforeClose_of_not_mem still, List.flatMap_append, h.fed,
      Entry.beforeClose_of_not_mem before]
    rfl

/-- What has been accepted, and whether the stream is closed, after a step. -/
theorem Agrees.stdin_perform (h : history.Agrees) {source : Source} {turn : Turn}
    (taken : history.bench.panel.perform source step = .ok turn) :
    let next := history.perform step turn.panel
    next.accepted = (Entry.beforeClose next.entries).flatMap Entry.fed ∧
      (turn.panel.stdin.isClosed = true ↔ .closed ∈ next.entries) := by
  rw [stdin_of_perform taken]
  by_cases cleared : step = .clear
  · subst cleared
    exact ⟨rfl, by simp [perform, sections, InputStream.run_cons, InputStream.perform,
      InputStream.clear, InputStream.isClosed, InputStream.wakeAll]⟩
  · simp only [perform, cleared, if_false]
    by_cases closes : step.Closes
    · have closing : history.bench.panel.sections step = [.close] ∧
          history.bench.panel.entries step = [.closed] := by
        rcases closes with rfl | rfl <;> exact ⟨rfl, rfl⟩
      rw [closing.1, closing.2, Entry.beforeClose_append_closed, ← h.fed]
      refine ⟨by simp [Desk.gatherAll, Desk.gather, InputStream.accepts], ?_⟩
      simp [InputStream.run_cons, InputStream.perform, InputStream.isClosed_close]
    · have stays := closed_not_mem_entries history.bench.panel closes
      rw [sections_of_submits cleared closes, h.fed_append stays, flatMap_fed_entries,
        Desk.gatherAll_appends, run_appends, InputStream.isClosed_feed, List.mem_append,
        or_iff_left stays]
      exact ⟨rfl, h.gate⟩

/-- The output pane and the stream get the same, before the readers come to rest. -/
theorem Agrees.perform (h : history.Agrees) {source : Source} {turn : Turn}
    (taken : history.bench.panel.perform source step = .ok turn) :
    (history.perform step turn.panel).Agrees := by
  obtain ⟨fed, gate⟩ := h.stdin_perform taken
  have nobody : ∀ action ∈ history.bench.panel.sections step, action.reader? = none :=
    fun action mem => reader?_of_mem_sections mem
  have buffer := InputStream.buffer_run (s := history.bench.panel.stdin) nobody
  rw [← stdin_of_perform taken] at buffer
  refine ⟨?_, fed, gate, ?_, fun alone => ?_⟩
  · refine (output_of_perform taken).trans ?_
    by_cases cleared : step = .clear
    · simp [History.perform, cleared]
    · simp [History.perform, cleared, h.shown, flatMap_shown_entries]
  · exact buffer ▸ Desk.gatherAll_suffix _ _ h.unread
  · refine buffer.trans ?_
    rw [h.whole alone]
    rfl

/-- **Every step keeps the agreement**, whether it is taken or refused. -/
theorem agrees_take (h : history.Agrees) (met : Source × Bench.Step) :
    (history.take met).Agrees := by
  obtain ⟨source, step⟩ := met
  cases step with
  | send thread errand =>
    -- A reader that is sent stays in the crew, so nothing is said of the buffer without readers.
    have sent : Agrees { history with bench :=
        { history.bench with crew := history.bench.crew.send thread errand } } :=
      ⟨h.shown, h.fed, h.gate, h.unread, fun alone => absurd alone (Crew.send_ne_nil _ _ _)⟩
    exact sent.settle
  | onPanel step =>
    cases taken : history.bench.panel.perform source step with
    | error fault => simpa only [take, taken] using h
    | ok turn =>
      simp only [take, taken, Bench.take_of_ok taken]
      exact (h.perform taken).settle

theorem agrees_foldl_take (h : history.Agrees) (steps : List (Source × Bench.Step)) :
    (steps.foldl take history).Agrees := by
  induction steps generalizing history with
  | nil => exact h
  | cons met steps ih => exact ih (agrees_take h met)

end History

/-- A step that does not submit, write or clear leaves the output pane as it is, and the stream too,
unless it closes it. -/
theorem eq_of_silent {source : Source} {turn : Turn} (h : panel.perform source step = .ok turn)
    (commit : step ≠ .commit) (paste : ∀ text, step ≠ .paste text)
    (write : ∀ texts, step ≠ .write texts) (writeLine : ∀ text, step ≠ .writeLine text)
    (clear : step ≠ .clear) :
    turn.panel.output = panel.output ∧
      (turn.panel.stdin = panel.stdin ∨ turn.panel.stdin = panel.stdin.close.1) := by
  have silent : panel.shows step = [] ∧ panel.submits step = [] := by
    cases step <;> simp_all [shows, submits]
  refine ⟨by simp [output_of_perform h, clear, silent.1], ?_⟩
  have affects := perform_affects h
  generalize turn.panel = after at affects ⊢
  cases affects with
  | clears => exact absurd rfl clear
  | closes _ stdin => exact .inr stdin
  | feeds _ _ stdin => exact .inl (by rw [stdin, silent.2]; rfl)

/-- **Echo and input agree.** In every run from a new panel, with readers or without, the output
pane shows the chronicle of what has come since the panel was last cleared, and the stream has
accepted the lines in it that come before the first close. What it holds is the end of that, and all
of it if nobody was sent to read.

What a step does to the stream is the schedule from which the accepted text is counted. A step that
does not submit, write or clear leaves the output pane as it is, and the stream too, unless it
closes it. -/
theorem echo_agrees_with_input (prompt : Prompt) (trigger : Trigger)
    (steps : List (Source × Bench.Step)) :
    let history := steps.foldl History.take { bench := { panel := { prompt, trigger } } }
    let panel := history.bench.panel
    history.bench = Bench.run { panel := { prompt, trigger } } steps ∧
      panel.output = history.entries.flatMap Entry.shown ∧
      history.accepted = (Entry.beforeClose history.entries).flatMap Entry.fed ∧
      panel.stdin.buffer <:+ history.accepted ∧
      ((∀ met ∈ steps, ∃ step, met.2 = .onPanel step) →
        panel.stdin.buffer = history.accepted) ∧
      ∀ source step turn, panel.perform source step = .ok turn →
        turn.panel.stdin = (panel.stdin.run (panel.sections step)).1 ∧
          (step ≠ .commit → (∀ text, step ≠ .paste text) → (∀ texts, step ≠ .write texts) →
            (∀ text, step ≠ .writeLine text) → step ≠ .clear →
              turn.panel.output = panel.output ∧
                (turn.panel.stdin = panel.stdin ∨ turn.panel.stdin = panel.stdin.close.1)) := by
  intro history panel
  have new : History.Agrees { bench := { panel := { prompt, trigger } } } :=
    ⟨rfl, rfl, by simp [InputStream.isClosed], List.suffix_refl _, fun _ => rfl⟩
  have agrees : history.Agrees := History.agrees_foldl_take new steps
  have same : history.bench = Bench.run { panel := { prompt, trigger } } steps :=
    History.bench_foldl_take _ steps
  refine ⟨same, agrees.shown, agrees.fed, agrees.unread, fun nobody => agrees.whole ?_,
    fun source step turn taken => ⟨stdin_of_perform taken, eq_of_silent taken⟩⟩
  rw [same]
  exact Bench.crew_run rfl nobody

/-- A line, a text that is written, a paste of one line and a half, and another prompt. What is
submitted behind the close is shown and not fed. -/
theorem echo_agrees_with_input_of_close :
    let step (step : Panel.Step) : Source × Bench.Step := (fun _ => [], .onPanel step)
    let steps := [step (.type ['a']), step .commit, step (.write [['w'], ['w']]),
      step (.paste ['b', '\r', 'c']), step (.setPrompt (.text ['#'])), step .close, step .commit]
    let panel := (Bench.run { panel := { prompt := .text ['>'] } } steps).panel
    panel.output = ">a\nww>b\n#c\n".toList ∧ panel.stdin.buffer = "a\nb\n".toList := by
  intro step steps panel
  obtain ⟨same, shown, fed, -, whole, -⟩ := echo_agrees_with_input (.text ['>']) .tab steps
  have nobody : ∀ met ∈ steps, ∃ step, met.2 = .onPanel step := by simp [steps, step]
  have entries :
      (steps.foldl History.take { bench := { panel := { prompt := .text ['>'] } } }).entries =
        [.submitted (.text ['>']) ['a'], .written ['w'], .written ['w'],
          .submitted (.text ['>']) ['b'], .closed, .submitted (.text ['#']) ['c']] := by decide
  rw [entries] at shown fed
  rw [same] at shown whole
  exact ⟨shown, (whole nobody).trans fed⟩

end Panel

end LineConsole
