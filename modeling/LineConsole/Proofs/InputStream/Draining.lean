import LineConsole.Proofs.InputStream.Ledger
import LineConsole.Proofs.InputStream.Waking
import LineConsole.Proofs.InputStream.WholeLines

/-!
# A closed stream only drains

What is buffered when a stream is closed can still be read, and nothing else can. Until the stream
is reset nobody goes to sleep, the readers together take the buffer from its front, and once it is
empty a read has no more than it has in hand.

Text that is brought to a closed stream is dropped, and nobody notices that it was brought: a
history without these appends has the same steps otherwise, also behind a reset. The stream that
drops a text stays as it is, so this is said of a system that passes over steps which leave its
state alone.

## Main definitions

* `Stride`, `strides` — one step of a history, and all of them
* `spare` — a history without some steps
* `Desk.drawn` — the characters that the readers took
* `Desk.Drains` — what moves make of a closed stream
* `Desk.drops`, `InputStream.drops` — text is brought to a closed stream

## Main results

* `strides_spare` — the steps that leave the state alone can be left out
* `Desk.drains_goes`, `Desk.drains_run` — what one move, and every run, makes of a closed stream
* `Desk.ends_or_shrinks_draw`, `Desk.ends_of_turns` — a read at the desk of a closed stream ends
  within as many turns as there are characters and one
* `InputStream.perform_of_reader` — what a reader makes of any stream
* `InputStream.advance_of_closed` — a section of a read at a closed stream ends it
* `Desk.closed_only_drains` — a closed stream drains, and forgets what is appended to it
-/

namespace LineConsole

/-! ## Histories with steps left out -/

/-- One step of a history: the state it met, what was done, what became known of it, and the state
it left. -/
structure Stride (State Act Known : Type) where
  met : State
  act : Act
  known : Known
  left : State

section Strides

variable {State Act Known : Type} (step : State → Act → State × Known) (out : State → Act → Bool)

/-- The steps of a history, from a state on. -/
def strides : State → List Act → List (Stride State Act Known)
  | _, [] => []
  | s, act :: acts => ⟨s, act, (step s act).2, (step s act).1⟩ :: strides (step s act).1 acts

/-- What is done without the acts that are out where they come up. -/
def spare : State → List Act → List Act
  | _, [] => []
  | s, act :: acts =>
    if out s act then spare (step s act).1 acts else act :: spare (step s act).1 acts

/-- The steps that leave the state alone can be left out: the others meet the same states, make the
same known and leave the same states. -/
theorem strides_spare (idle : ∀ s act, out s act = true → (step s act).1 = s) (s : State)
    (acts : List Act) :
    strides step s (spare step out s acts) =
      (strides step s acts).filter fun stride => !out stride.met stride.act := by
  induction acts generalizing s with
  | nil => rfl
  | cons act acts ih =>
    cases passed : out s act with
    | true => simp [spare, strides, passed, ← ih, idle s act passed]
    | false => simp [spare, strides, passed, ih]

end Strides

/-! ## A closed stream -/

namespace Demand

theorem rest_suffix (demand : Demand) (skip : Bool) (buffer : Text) :
    (demand.serve skip buffer).rest <:+ buffer := by
  cases demand with
  | line => exact scanLine_rest_suffix skip buffer
  | chars size =>
    rw [serve]
    fun_induction takeChars size skip buffer with
    | case1 => exact List.suffix_refl _
    | case2 rest ih => exact ih.trans (List.suffix_cons _ _)
    | case3 skip c rest plain => exact List.drop_suffix size _

end Demand

namespace InputStream

variable {s : InputStream} {call : Call} {action : Action}

/-- A signal opens no stream. -/
theorem isClosed_of_signals (signals : action.Signals) (closed : s.isClosed = true) :
    (s.perform action).1.isClosed = true := by
  cases signals with
  | close => exact isClosed_close s
  | interrupt thread => rwa [perform, isClosed_interrupt]
  | flag name => exact closed
  | alert name =>
    rw [perform, alert_eq]
    split <;> exact closed

/-- A closed stream drops what is appended to it. -/
theorem append_of_closed (closed : s.isClosed = true) (text : Text) : (s.append text).1 = s := by
  simp only [append, closed, if_true]
  split <;> rfl

/-- Whoever waits at a closed stream was woken. -/
theorem Patient.awake_of_closed (h : s.Patient) (closed : s.isClosed = true)
    (mem : call ∈ s.calls) : call.awake = true := by
  cases awake : call.awake with
  | true => rfl
  | false => simpa [closed] using (h call mem awake).opened

end InputStream

/-! ## At the desk -/

namespace Desk

open InputStream

/-- The characters that were taken, if any were. -/
def Mark.drawn : Mark → Text
  | .took _ taken => taken.map Prod.fst
  | _ => []

/-- The characters that the readers took, in order. -/
def drawn (marks : List Mark) : Text := marks.flatMap Mark.drawn

theorem drawn_append (marks later : List Mark) :
    drawn (marks ++ later) = drawn marks ++ drawn later :=
  List.flatMap_append

/-- What moves make of a closed stream. -/
structure Drains (desk desk' : Desk) (marks : List Mark) : Prop where
  closed : desk'.stream.isClosed = true
  /-- The readers took the front of the buffer. -/
  buffer : desk.stream.buffer = drawn marks ++ desk'.stream.buffer
  /-- Nobody has come to wait. -/
  waiting : (desk'.stream.calls.map Call.thread).Sublist (desk.stream.calls.map Call.thread)

variable {desk desk' desk'' : Desk} {marks more : List Mark}

theorem Drains.available_le (h : desk.Drains desk' marks) :
    desk'.stream.available ≤ desk.stream.available := by
  simp [available, h.buffer]

theorem Drains.trans (h : desk.Drains desk' marks) (h' : desk'.Drains desk'' more) :
    desk.Drains desk'' (marks ++ more) := by
  refine ⟨h'.closed, ?_, h'.waiting.trans h.waiting⟩
  rw [h.buffer, h'.buffer, drawn_append, List.append_assoc]

/-- A move that takes nothing from the buffer and leaves the stream closed. -/
theorem Drains.of_same (closed : desk'.stream.isClosed = true) (nothing : drawn marks = [])
    (buffer : desk'.stream.buffer = desk.stream.buffer)
    (waiting : (desk'.stream.calls.map Call.thread).Sublist (desk.stream.calls.map Call.thread)) :
    desk.Drains desk' marks :=
  ⟨closed, by rw [nothing, buffer, List.nil_append], waiting⟩

theorem threads_of_woken {calls calls' : List Call}
    (h : calls' = calls ∨ calls' = calls.map Call.wake) :
    calls'.map Call.thread = calls.map Call.thread := by
  rcases h with rfl | rfl <;> simp [Call.wake, Function.comp_def]

/-- **What a move makes of a closed stream**, if it does not reset it. -/
theorem drains_goes (goes : Goes desk desk' marks) (closed : desk.stream.isClosed = true)
    (kept : .emptied ∉ marks) : desk.Drains desk' marks := by
  cases goes with
  | stays | passes => exact .of_same closed rfl rfl (.refl _)
  | @begins s thread demand name =>
    refine .of_same ?_ rfl (enroll_buffer ..) (by rw [enroll_calls])
    cases name <;> exact closed
  | resumes => exact .of_same closed rfl rfl (List.filter_sublist.map _)
  | ends => exact .of_same closed rfl rfl (.refl _)
  | sleeps _ _ opened => exact absurd (opened.symm.trans closed) Bool.false_ne_true
  | takes hb turn | leaves hb turn =>
    refine ⟨closed, ?_, .refl _⟩
    simpa [drawn, Mark.drawn, hb] using turn.taken_append_rest.symm
  | @accepts s text =>
    have same : (s.append text).1 = s := append_of_closed closed text
    refine .of_same ?_ rfl ?_ ?_ <;> rw [same]
    exact closed
  | resets => simp at kept
  | @signals _ action signals =>
    have spares := spares_of_signals (s := desk.stream) signals
    refine .of_same (isClosed_of_signals signals closed) rfl ?_ ?_
    · simpa [accepts_of_signals signals] using spares.buffer
    · rw [threads_of_woken spares.calls]

/-- Moves at a closed stream drain it until it is reset. -/
theorem drains_run (moves : List Move) (closed : desk.stream.isClosed = true)
    (kept : .emptied ∉ (desk.run moves).2) :
    desk.Drains (desk.run moves).1 (desk.run moves).2 := by
  induction moves generalizing desk with
  | nil => exact .of_same closed rfl rfl (.refl _)
  | cons move moves ih =>
    rw [run_cons] at kept ⊢
    obtain ⟨first, rest⟩ := not_or.mp (mt List.mem_append.mpr kept)
    have drains := drains_goes (desk.goes_step move) closed first
    exact drains.trans (ih drains.closed rest)

/-- A turn at a closed stream ends the read, or takes something, and the read goes on. -/
theorem ends_or_shrinks_draw {s : InputStream} (call : Call) (closed : s.isClosed = true) :
    (∃ result, .ended call.thread call.demand result ∈ (draw s call).2) ∨
      ∃ s' call', (draw s call).1 = ⟨s', some call'⟩ ∧ s'.isClosed = true ∧
        s'.available < s.available ∧ call'.thread = call.thread ∧ call'.demand = call.demand := by
  cases hr : s.released call with
  | true => exact .inl ⟨call.soFar, by simp [draw_of_released hr]⟩
  | false =>
    cases hb : s.buffer with
    | nil => exact .inl ⟨call.soFar, by simp [draw_of_drained hr hb closed]⟩
    | cons c rest =>
      cases hc : (call.demand.help s.skipLF c rest).complete with
      | true =>
        rw [draw_of_complete hr hb hc]
        exact .inl ⟨_, List.mem_cons_of_mem _ List.mem_cons_self⟩
      | false =>
        have left := (call.demand.turn_help s.skipLF c rest).rest_of_more hc
        rw [draw_of_more hr hb hc]
        exact .inr ⟨_, _, rfl, closed, by simp [available, left, hb], rfl, rfl⟩

/-- So the read has ended when it has had one turn more than there are characters, whatever else
happens. -/
theorem ends_of_turns {call : Call} (served : desk.served = some call)
    (closed : desk.stream.isClosed = true) {moves : List Move}
    (turns : desk.stream.available < moves.count .draw) :
    ∃ result, .ended call.thread call.demand result ∈ (desk.run moves).2 := by
  induction moves generalizing desk call with
  | nil => simp at turns
  | cons move moves ih =>
    rw [run_cons]
    obtain ⟨s, reader⟩ := desk
    obtain rfl : reader = some call := served
    cases move with
    | act action =>
      -- Nobody takes the lock from the read. At most a flag goes up, and that is no turn.
      have turns' : s.available < moves.count .draw := by simpa using turns
      cases action with
      | flag name => exact @ih ⟨s.flag name, some call⟩ call rfl closed turns'
      | start | resume | append | close | clear | interrupt | alert => exact ih rfl closed turns'
    | draw =>
      have turns' : s.available < moves.count .draw + 1 := by simpa using turns
      rcases ends_or_shrinks_draw (s := s) call closed with ⟨result, mem⟩ |
        ⟨s', call', stays, closed', less, thread, demand⟩
      · exact ⟨result, List.mem_append_left _ mem⟩
      · have fewer : s'.available < moves.count .draw := by omega
        obtain ⟨result, mem⟩ := @ih ⟨s', some call'⟩ call' rfl closed' fewer
        refine ⟨result, List.mem_append_right _ ?_⟩
        simp only [step, stays]
        rwa [thread, demand] at mem

/-- A read at the desk of a drained stream ends at its next turn with what it has in hand. -/
theorem draw_of_exhausted {s : InputStream} {call : Call} (closed : s.isClosed = true)
    (drained : s.buffer = []) :
    draw s call = (⟨s.retire call.handle, none⟩, [.ended call.thread call.demand call.soFar]) := by
  cases hr : s.released call with
  | true => exact draw_of_released hr
  | false => exact draw_of_drained hr drained closed

theorem step_close_of_free (free : desk.served = none) :
    desk.step (.act .close) = (⟨desk.stream.close.1, none⟩, []) := by
  simp only [step, free]
  rfl

/-- Text is brought to a closed stream. -/
def drops (desk : Desk) : Move → Bool
  | .act (.append _) => desk.stream.isClosed
  | _ => false

theorem step_of_drops {desk : Desk} {move : Move} (h : desk.drops move = true) :
    (desk.step move).1 = desk := by
  cases move with
  | draw => simp [drops] at h
  | act action =>
    cases action with
    | append text =>
      obtain ⟨s, served⟩ := desk
      cases served with
      | some call => rfl
      | none => exact congrArg (Desk.mk · none) (append_of_closed h text)
    | start | resume | close | clear | interrupt | flag | alert => simp [drops] at h

end Desk

/-! ## A section at a time -/

namespace InputStream

variable {s s₀ : InputStream} {call : Call} {action : Action} {actions : List Action}

/-- Text is brought to a closed stream. -/
def drops (s : InputStream) : Action → Bool
  | .append _ => s.isClosed
  | _ => false

theorem perform_of_drops (h : s.drops action = true) : (s.perform action).1 = s := by
  cases action with
  | append text => exact append_of_closed h text
  | start | resume | close | clear | interrupt | flag | alert => simp [drops] at h

/-- A section of a read takes the front of the buffer. -/
theorem advance_suffix (s : InputStream) (call : Call) :
    (s.advance call).1.buffer <:+ s.buffer := by
  have ways := s.advances call
  generalize s.advance call = advanced at ways ⊢
  cases ways with
  | released => exact List.suffix_refl _
  | complete | drained | waiting => exact Demand.rest_suffix ..

/-- A section of a reader takes the front of the buffer at most, and leaves the gate as it is. -/
theorem perform_of_reader {thread : ThreadId} (reads : action.reader? = some thread) :
    (s.perform action).1.isClosed = s.isClosed ∧ (s.perform action).1.buffer <:+ s.buffer := by
  rcases s.serves_or_perform_eq reads with ⟨s₀, call, serves, same⟩ | same
  · rw [same, isClosed_advance, serves.isClosed_eq, ← serves.buffer_eq]
    exact ⟨rfl, s₀.advance_suffix call⟩
  · rw [same]
    exact ⟨rfl, List.suffix_refl _⟩

/-- A section of a read at a closed stream ends it, over an empty buffer with what it has in hand.
-/
theorem advance_of_closed (s : InputStream) (call : Call) (closed : s.isClosed = true) :
    ∃ result, (s.advance call).2 = .ended result ∧ (s.advance call).1.calls = s.calls ∧
      (s.buffer = [] → result = call.soFar) := by
  have ways := s.advances call
  generalize s.advance call = advanced at ways ⊢
  cases ways with
  | released => exact ⟨_, rfl, rfl, fun _ => rfl⟩
  | complete _ hc =>
    refine ⟨_, rfl, rfl, fun drained => ?_⟩
    simp [drained, Demand.serve_nil, Serving.nothing] at hc
  | drained =>
    refine ⟨_, rfl, rfl, fun drained => ?_⟩
    simp [drained, Demand.serve_nil, Serving.nothing, Call.given, Call.soFar]
  | waiting _ _ opened => exact absurd (opened.symm.trans closed) Bool.false_ne_true

/-- A section at a closed stream takes the front of the buffer at most, unless it resets the stream.
-/
theorem perform_of_closed (closed : s.isClosed = true) (kept : action ≠ .clear) :
    (s.perform action).1.isClosed = true ∧ (s.perform action).1.buffer <:+ s.buffer := by
  have signals (h : action.Signals) :
      (s.perform action).1.isClosed = true ∧ (s.perform action).1.buffer <:+ s.buffer := by
    have same : (s.perform action).1.buffer = s.buffer := by
      rw [(spares_of_signals h).buffer, accepts_of_signals h, List.append_nil]
    exact ⟨isClosed_of_signals h closed, same ▸ List.suffix_refl _⟩
  cases action with
  | start thread demand name =>
    have reads : Action.reader? (.start thread demand name) = some thread := rfl
    exact (perform_of_reader reads).imp_left (·.trans closed)
  | resume thread =>
    have reads : Action.reader? (.resume thread) = some thread := rfl
    exact (perform_of_reader reads).imp_left (·.trans closed)
  | append text =>
    have dropped : s.drops (.append text) = true := closed
    rw [perform_of_drops dropped]
    exact ⟨closed, List.suffix_refl _⟩
  | close | interrupt | flag | alert => exact signals (by constructor)
  | clear => exact absurd rfl kept

/-- Schedules at a closed stream take the front of the buffer until they reset it. -/
theorem run_of_closed (closed : s.isClosed = true) (kept : .clear ∉ actions) :
    (s.run actions).1.isClosed = true ∧ (s.run actions).1.buffer <:+ s.buffer := by
  induction actions generalizing s with
  | nil => exact ⟨closed, List.suffix_refl _⟩
  | cons action actions ih =>
    obtain ⟨first, rest⟩ := List.ne_and_not_mem_of_not_mem_cons kept
    obtain ⟨closed', front⟩ := perform_of_closed closed first.symm
    obtain ⟨closed'', front'⟩ := ih closed' rest
    exact ⟨closed'', front'.trans front⟩

/-- A read that begins at a closed stream ends in its first section. -/
theorem start_of_closed (closed : s.isClosed = true) {thread : ThreadId}
    (idle : s.isReading thread = false) (demand : Demand) (name : Option String) :
    ∃ result, (s.perform (.start thread demand name)).2 = [.ended thread result] ∧
      (s.perform (.start thread demand name)).1.isReading thread = false ∧
      (s.buffer = [] → result = none) := by
  by_cases asks : demand = .chars 0
  · subst asks
    exact ⟨none, by simp [perform, idle, Outcome.events], by simp [perform, idle], fun _ => rfl⟩
  · have serves : s.Serves (.start thread demand name) _ _ := .start idle asks
    obtain ⟨result, ends, calls, drained⟩ := (s.enroll thread demand name).1.advance_of_closed
      (s.enroll thread demand name).2 (serves.isClosed_eq.trans closed)
    rw [perform_of_serves serves, ends, enroll_thread]
    refine ⟨result, rfl, ?_, fun empty => ?_⟩
    · rw [isReading_eq_false_iff, calls, enroll_calls]
      exact isReading_eq_false_iff.mp idle
    · rw [drained ((enroll_buffer ..).trans empty), Call.soFar, enroll_taken, if_pos rfl]

/-- A read that waits at a closed stream ends when its thread runs. -/
theorem resume_of_closed (closed : s.isClosed = true) {thread : ThreadId}
    (hcall : s.callOf? thread = some call) (awake : call.awake = true) :
    ∃ result, (s.perform (.resume thread)).2 = [.ended thread result] ∧
      (s.perform (.resume thread)).1.isReading thread = false ∧
      (s.buffer = [] → result = call.soFar) := by
  obtain ⟨result, ends, calls, drained⟩ := (s.withdraw thread).advance_of_closed call closed
  rw [perform_of_serves (.resume hcall awake), ends, thread_of_callOf? hcall]
  refine ⟨result, rfl, ?_, drained⟩
  rw [isReading_eq_false_iff, calls]
  exact fun other mem => (mem_withdraw mem).2

end InputStream

namespace Desk

open InputStream

/-- **A closed stream only drains.** From a close on until a reset, at any time and whatever happens
from then on, what the readers have taken is the front of what was buffered at the close, in order,
and what is left never grows; nobody comes to wait, and who waits was woken; a read at the desk ends
within as many turns as there are characters and one, and at its next turn, with what it has in
hand, when there are none. So it is with whole sections: a read that begins ends at once, without a
result over an empty buffer, and a read that waits ends when its thread runs.

In every run, the appends that meet a closed stream can be left out, with the records of what was
dropped. All other moves meet and leave the same streams and make the same known, before a reset and
behind it. -/
theorem closed_only_drains :
    (∀ before middle later : List Move, (run {} before).1.served = none →
      let atClose := (run {} before).1
      let since := atClose.run (.act .close :: middle)
      let now := since.1
      let next := now.run later
      .emptied ∉ since.2 → .emptied ∉ next.2 →
        now.stream.isClosed = true ∧
        atClose.stream.buffer = drawn since.2 ++ now.stream.buffer ∧
        next.1.stream.available ≤ now.stream.available ∧
        (∀ call ∈ now.stream.calls, call.awake = true) ∧
        (next.1.stream.calls.map Call.thread).Sublist (now.stream.calls.map Call.thread) ∧
        ∀ call, now.served = some call →
          (now.stream.available < later.count .draw →
            ∃ result, .ended call.thread call.demand result ∈ next.2) ∧
          (now.stream.buffer = [] → now.step .draw =
            (⟨now.stream.retire call.handle, none⟩,
              [.ended call.thread call.demand call.soFar]))) ∧
    (∀ before later : List Action, .clear ∉ later →
      let atClose := (({} : InputStream).run before).1
      let now := (atClose.close.1.run later).1
      now.isClosed = true ∧ now.buffer <:+ atClose.buffer ∧
        (∀ action ≠ .clear, (now.perform action).1.available ≤ now.available) ∧
        (∀ thread demand name, now.isReading thread = false →
          ∃ result, (now.perform (.start thread demand name)).2 = [.ended thread result] ∧
            (now.perform (.start thread demand name)).1.isReading thread = false ∧
            (now.buffer = [] → result = none)) ∧
        ∀ thread call, now.callOf? thread = some call →
          ∃ result, (now.perform (.resume thread)).2 = [.ended thread result] ∧
            (now.perform (.resume thread)).1.isReading thread = false ∧
            (now.buffer = [] → result = call.soFar)) ∧
    (∀ moves : List Move, strides step {} (spare step drops {} moves) =
      (strides step {} moves).filter fun stride => !drops stride.met stride.act) ∧
    ∀ actions : List Action,
      strides perform {} (spare perform InputStream.drops {} actions) =
        (strides perform {} actions).filter fun stride =>
          !stride.met.drops stride.act := by
  refine ⟨fun before middle later free => ?_, fun before later kept => ?_,
    strides_spare step drops (fun _ _ => step_of_drops) {},
    strides_spare perform InputStream.drops (fun _ _ => perform_of_drops) {}⟩
  · intro atClose since now next kept kept'
    have closing : atClose.step (.act .close) = _ := step_close_of_free free
    have drains : Drains ⟨atClose.stream.close.1, none⟩ now since.2 := by
      simp only [now, since, run_cons, closing, List.nil_append] at kept ⊢
      exact drains_run middle (isClosed_close _) kept
    have drains' := drains_run later drains.closed kept'
    -- A read that sleeps waits at an open stream, so whoever waits here was woken.
    have patient : now.stream.Patient := by
      have patient := patient_run (before ++ .act .close :: middle)
      rwa [run_append] at patient
    refine ⟨drains.closed, ?_, drains'.available_le,
      fun call mem => patient.awake_of_closed drains.closed mem, drains'.waiting,
      fun call served => ⟨ends_of_turns served drains.closed, fun drained => ?_⟩⟩
    · rw [← drains.buffer]
      exact (List.append_nil _).symm.trans (spares_of_signals .close).buffer.symm
    · simp only [step, served]
      exact draw_of_exhausted drains.closed drained
  · intro atClose now
    obtain ⟨closed, front⟩ := run_of_closed (isClosed_close atClose) kept
    have patient : now.Patient :=
      Reachable.patient ⟨before ++ .close :: later, by rw [InputStream.run_append]; rfl⟩
    have same : atClose.close.1.buffer = atClose.buffer :=
      (spares_of_signals .close).buffer.trans (List.append_nil _)
    refine ⟨closed, same ▸ front,
      fun action reset => (perform_of_closed closed reset).2.length_le,
      fun thread demand name idle => start_of_closed closed idle demand name,
      fun thread call hcall => resume_of_closed closed hcall ?_⟩
    exact patient.awake_of_closed closed (mem_of_callOf? hcall)

/-- A reader has half a line in hand when the stream is closed over the rest of it. A text that is
appended then is dropped, the reader gets its line, and behind the reset another text comes. -/
theorem closed_only_drains_of_cut_line :
    let before : List Move :=
      [.act (.start "reader" .line none), .draw, .act (.append ['a']), .act (.resume "reader"),
        .draw, .draw, .act (.append ['b', '\n', 'c'])]
    let middle : List Move := [.act (.append ['x', '\n']), .act (.resume "reader")]
    let moves := before ++ .act .close :: middle ++
      [.draw, .draw, .act .clear, .act (.append ['y', '\n'])]
    let since := (run {} before).1.run (.act .close :: middle)
    (∃ result, .ended "reader" .line result ∈ (since.1.run [.draw, .draw, .draw, .draw]).2) ∧
      strides step {} (moves.erase (.act (.append ['x', '\n']))) =
        (strides step {} moves).filter fun stride => !drops stride.met stride.act := by
  intro before middle moves since
  have free : (run {} before).1.served = none := by decide
  have kept : .emptied ∉ since.2 := by decide
  have kept' : .emptied ∉ (since.1.run [.draw, .draw, .draw, .draw]).2 := by decide
  obtain ⟨-, -, -, -, -, ends⟩ := closed_only_drains.1 before middle _ free kept kept'
  have spared : spare step drops {} moves = moves.erase (.act (.append ['x', '\n'])) := by decide
  exact ⟨(ends _ rfl).1 (by decide), spared ▸ closed_only_drains.2.2.1 moves⟩

end Desk

end LineConsole
