import LineConsole.Proofs.Application.Course
import LineConsole.Proofs.InputStream.Draining

/-!
# Runs of a panel

A panel without an application is taken from step to step, and between the steps the threads that
read its stream come to rest. Each step meets a source of completions of its own, for an interpreter
may offer something else each time. A step that is refused leaves everything as it is.

The readers do nothing to a panel but take the front of what is buffered. What the steps do to the
stream behind the panel is a schedule, and what they do to the output pane is to add texts at its
end, or to empty it.

## Main definitions

* `Panel.Bench.take`, `Panel.Bench.run` — one step that may be refused, and a run
* `Panel.sections` — what a step does to the stream
* `Panel.shows` — what a step adds to the output pane
* `InputStream.KeptByReaders` — what every section of a reader keeps
* `Panel.Step.Edits` — the steps about the input line and the status line

## Main results

* `Panel.stdin_of_perform`, `Panel.output_of_perform` — what a step makes of the stream and of the
  output pane
* `Panel.Bench.settle_panel` — what the readers make of a panel
-/

namespace LineConsole

open Text Program

/-! ## Readers -/

/-- What readers make of a stream. -/
structure InputStream.ReadTo (s s' : InputStream) : Prop where
  gate : s'.isClosed = s.isClosed
  buffer : s'.buffer <:+ s.buffer

namespace InputStream.ReadTo

variable {s s' s'' : InputStream}

theorem refl (s : InputStream) : s.ReadTo s := ⟨rfl, List.suffix_refl _⟩

theorem trans (h : s.ReadTo s') (h' : s'.ReadTo s'') : s.ReadTo s'' :=
  ⟨h'.gate.trans h.gate, h'.buffer.trans h.buffer⟩

/-- A section of a reader. -/
theorem of_perform (s : InputStream) {action : Action} {thread : ThreadId}
    (reads : action.reader? = some thread) : s.ReadTo (s.perform action).1 :=
  ⟨(perform_of_reader reads).1, (perform_of_reader reads).2⟩

end InputStream.ReadTo

/-- Every section of a reader keeps the property. A thread that runs and a crew that comes to rest
take nothing but such sections. -/
def InputStream.KeptByReaders (kept : InputStream → Prop) : Prop :=
  ∀ s action reader, Action.reader? action = some reader → kept s → kept (s.perform action).1

section Readers

variable {σ ε : Type} (p : Program σ ε) (thread : ThreadId) {kept : InputStream → Prop}

theorem Program.turn_keeps (keeps : InputStream.KeptByReaders kept) {s : InputStream} (h : kept s)
    (state : σ) : kept (p.turn thread s state).stream := by
  -- A turn is a section of the read in progress, or of a new one, or nothing.
  change kept (p.proceed thread ⟨s, state, []⟩).stream
  cases hcall : s.callOf? thread with
  | some call =>
    rw [proceed_of_reading hcall, after_stream]
    exact keeps s (.resume thread) thread rfl h
  | none =>
    cases asks : p.asks state with
    | none => rwa [proceed_of_resting hcall asks]
    | some ask =>
      have idle : s.isReading thread = false := by simp [InputStream.isReading, hcall]
      rw [proceed_of_asking hcall asks, after_stream]
      have started := keeps s (.start thread ask.demand ask.handle) thread rfl h
      simpa [InputStream.perform, idle] using started

theorem Program.turns_keep (keeps : InputStream.KeptByReaders kept) (n : Nat) {s : InputStream}
    (h : kept s) (state : σ) : kept (p.turns thread n s state).stream := by
  induction n generalizing s state with
  | zero => exact h
  | succ n ih => exact ih (p.turn_keeps thread keeps h state) _

theorem Crew.settle_keeps (keeps : InputStream.KeptByReaders kept) (crew : Crew) {s : InputStream}
    (h : kept s) : kept (crew.settle s).1 := by
  induction crew generalizing s with
  | nil => exact h
  | cons member crew ih => exact ih (Errand.program.turns_keep member.1 keeps _ h member.2)

/-- A crew that comes to rest has read. -/
theorem Crew.readTo_settle (crew : Crew) (s : InputStream) : s.ReadTo (crew.settle s).1 :=
  crew.settle_keeps (fun s' _ _ reads h => h.trans (.of_perform s' reads)) (.refl s)

/-- Somebody is in a crew to which a reader was sent. -/
theorem Crew.send_ne_nil (crew : Crew) (thread : ThreadId) (errand : Errand) :
    crew.send thread errand ≠ [] := by
  unfold send
  split
  · simp
  · split <;> simp

end Readers

namespace Panel

variable {panel : Panel} {source : Source} {step : Panel.Step} {turn : Panel.Turn}

/-! ## The stream -/

/-- What a step does to the stream behind a panel. -/
def sections (panel : Panel) : Step → List InputStream.Action
  | .clear => [.clear]
  | .close | .endInput => [.close]
  | step => (panel.submits step).map fun line => .append (line ++ ['\n'])

theorem sections_of_submits (kept : step ≠ .clear) (stays : ¬ step.Closes) :
    panel.sections step = (panel.submits step).map fun line => .append (line ++ ['\n']) := by
  cases step <;> simp_all [sections, Step.Closes]

/-- To feed a stream is to append to it, line by line. -/
theorem run_appends (s : InputStream) (list : List Text) :
    (s.run (list.map fun line => .append (line ++ ['\n']))).1 = s.feed list := by
  induction list generalizing s with
  | nil => rfl
  | cons line list ih => exact ih _

/-- **What a step makes of the stream** is a schedule. -/
theorem stdin_of_perform (h : panel.perform source step = .ok turn) :
    turn.panel.stdin = (panel.stdin.run (panel.sections step)).1 := by
  have affects := perform_affects h
  generalize turn.panel = after at affects ⊢
  cases affects with
  | clears => rfl
  | closes closes stdin =>
    rw [stdin]
    rcases closes with rfl | rfl <;> rfl
  | feeds kept stays stdin => rw [stdin, sections_of_submits kept stays, run_appends]

/-! ## The output pane -/

/-- The texts that a step adds to the output pane. -/
def shows (panel : Panel) : Step → List Text
  | .write texts => texts
  | .writeLine text => [text ++ ['\n']]
  | step => (panel.submits step).map panel.echo

/-- Texts that are added one by one, or joined and then added. -/
theorem foldl_write (texts : List Text) : texts.foldl write panel = panel.write texts.flatten := by
  induction texts generalizing panel with
  | nil => simp [write]
  | cons text texts ih =>
    rw [List.foldl_cons, ih, List.flatten_cons]
    simp [write]

theorem output_foldl_submit (list : List Text) :
    (list.foldl submit panel).output = panel.output ++ (list.map panel.echo).flatten := by
  induction list generalizing panel with
  | nil => simp
  | cons line list ih =>
    rw [List.foldl_cons, ih, List.map_cons, List.flatten_cons, ← List.append_assoc]
    rfl

/-- The step is about the input line, or the status line. -/
def Step.Edits : Step → Prop
  | .type _ | .moveTo _ | .place _ _ | .openPopup | .move _ | .accept | .dismiss | .build => True
  | _ => False

/-- Such a step leaves the prompt, the output pane and the stream as they are. -/
theorem eq_of_edits (h : panel.perform source step = .ok turn) (edits : step.Edits) :
    ∃ field status, turn.panel = { panel with field, status } := by
  cases step with
  | type | moveTo | dismiss | build =>
    cases h
    exact ⟨_, _, rfl⟩
  | place text cursor =>
    obtain ⟨editor, -, placed⟩ := bind_eq_ok h
    cases placed
    exact ⟨_, _, rfl⟩
  | openPopup =>
    cases h
    simp only [openPopup]
    split <;> exact ⟨_, _, rfl⟩
  | move offset =>
    cases h
    simp only [move]
    split <;> exact ⟨_, _, rfl⟩
  | accept =>
    obtain ⟨result, accepted, given⟩ := bind_eq_ok h
    cases given
    cases pending : panel.field.pending with
    | none =>
      simp only [Panel.accept, pending] at accepted
      cases accepted
      exact ⟨_, _, rfl⟩
    | some request =>
      simp only [Panel.accept, pending] at accepted
      obtain ⟨acceptance, -, accepted⟩ := bind_eq_ok accepted
      cases accepted
      dsimp only
      split <;> exact ⟨_, _, rfl⟩
  | commit | paste | clear | close | endInput | write | writeLine | setPrompt => exact edits.elim

/-- **What a step makes of the output pane.** -/
theorem output_of_perform (h : panel.perform source step = .ok turn) :
    turn.panel.output =
      if step = .clear then [] else panel.output ++ (panel.shows step).flatten := by
  cases step with
  | clear =>
    cases h
    rfl
  | commit | writeLine | setPrompt | close | endInput =>
    cases h
    simp [commit, submit, writeLine, write, setPrompt, endInput, close, say, shows, submits]
  | paste text =>
    cases h
    exact output_foldl_submit _
  | write texts =>
    cases h
    simp [foldl_write, Panel.write, shows]
  | type | moveTo | place | openPopup | move | accept | dismiss | build =>
    obtain ⟨field, status, same⟩ := eq_of_edits h trivial
    simp [same, shows, submits]

namespace Bench

/-! ## Runs -/

/-- The bench after a step. A step that is refused leaves it as it is. -/
def take (bench : Bench) (met : Source × Step) : Bench :=
  match bench.perform met.1 met.2 with
  | .ok turn => turn.bench
  | .error _ => bench

/-- The bench after the steps of a run, each with the source of completions that it met. -/
def run (bench : Bench) (steps : List (Source × Step)) : Bench := steps.foldl take bench

variable {bench : Bench}

/-- The readers take from the stream and do nothing else to the panel. -/
theorem settle_panel (bench : Bench) :
    bench.settle.1.panel = { bench.panel with stdin := bench.settle.1.panel.stdin } ∧
      bench.panel.stdin.ReadTo bench.settle.1.panel.stdin :=
  ⟨rfl, bench.crew.readTo_settle bench.panel.stdin⟩

/-- Without readers there is nothing to wait for, and nobody joins them in a pause. -/
theorem settle_of_alone (alone : bench.settle.1.crew = []) :
    bench.crew = [] ∧ bench.settle.1 = bench := by
  obtain ⟨panel, crew⟩ := bench
  cases crew with
  | nil => exact ⟨rfl, rfl⟩
  | cons member crew => simp [settle, Crew.settle] at alone

theorem take_of_ok (h : bench.panel.perform source step = .ok turn) :
    bench.take (source, .onPanel step) = (settle { bench with panel := turn.panel }).1 := by
  simp only [take, perform, h]
  rfl

theorem take_of_error {fault : Fault} (h : bench.panel.perform source step = .error fault) :
    bench.take (source, .onPanel step) = bench := by
  simp only [take, perform, h]
  rfl

/-- Nobody reads where nobody was sent. -/
theorem crew_run (alone : bench.crew = []) {steps : List (Source × Step)}
    (nobody : ∀ met ∈ steps, ∃ step, met.2 = .onPanel step) : (bench.run steps).crew = [] := by
  induction steps generalizing bench with
  | nil => exact alone
  | cons met steps ih =>
    obtain ⟨⟨step, first⟩, rest⟩ := List.forall_mem_cons.mp nobody
    obtain ⟨source, _⟩ := met
    subst first
    refine ih ?_ rest
    cases taken : bench.panel.perform source step with
    | error fault => rwa [take_of_error taken]
    | ok turn =>
      rw [take_of_ok taken, settle]
      simp only [alone]
      rfl

end Bench

end Panel

end LineConsole
