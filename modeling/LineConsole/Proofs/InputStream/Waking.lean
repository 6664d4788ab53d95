import LineConsole.Proofs.InputStream.Roster

/-!
# No waking is lost

A read that sleeps runs again only when somebody wakes it, so whatever would let it go on has to
wake it: text, the close, a reset, an interrupt, and a cancelling, which raises its flag first and
wakes the readers in a second step. A reader may also wake for nothing, because another reader took
the text or because all there was is an LF to be skipped, and then it goes back to sleep.

Here it is shown that none of these is ever missed. A read that sleeps and that nobody has woken is
waiting for text and for nothing else: there is none, the stream is open, it has not been reset
since the read began, and the handle of the read is not cancelled, unless whoever is cancelling it
has yet to wake the readers.

## Main definitions

* `InputStream.Awaits` — a read has nothing to do but wait
* `InputStream.Patient` — those who sleep have nothing to do but wait
* `InputStream.Quiet` — nobody is to run

## Main results

* `Desk.patient_goes` — every move leaves the sleepers with nothing to do
* `Desk.no_lost_waking` — when everything has come to rest, those who still read are waiting for
  text
-/

namespace LineConsole

namespace InputStream

/-- A read has nothing to do but wait: there is no text, the stream is open and was not reset since
the read began, and the handle is not cancelled, unless by someone who has yet to wake the reads. -/
structure Awaits (s : InputStream) (call : Call) : Prop where
  drained : s.buffer = []
  opened : s.isClosed = false
  current : call.epoch = s.epoch
  uncancelled : call.handle ∈ s.cancelled → ∃ name ∈ s.cancelling, call.handle = .named name

/-- The reads that sleep, if nobody has woken them, have nothing to do. -/
def Patient (s : InputStream) : Prop := ∀ call ∈ s.calls, call.awake = false → s.Awaits call

/-- Nobody is to run: every read in progress sleeps and nobody has woken it, and no cancelling has
raised its flag and has yet to wake the reads. -/
structure Quiet (s : InputStream) : Prop where
  asleep : ∀ call ∈ s.calls, call.awake = false
  settled : s.cancelling = []

variable {s s' : InputStream} {call : Call}

/-- A read that has nothing to do still has nothing to do when no more is cancelled. -/
theorem Awaits.of_same (h : s.Awaits call) (buffer : s'.buffer = s.buffer)
    (gate : s'.gate = s.gate) (epoch : s'.epoch = s.epoch) (cancelled : s'.cancelled ⊆ s.cancelled)
    (cancelling : s.cancelling ⊆ s'.cancelling) : s'.Awaits call := by
  refine ⟨buffer.trans h.drained, ?_, h.current.trans epoch.symm, fun mem => ?_⟩
  · rw [isClosed, gate]
    exact h.opened
  · obtain ⟨name, pending, same⟩ := h.uncancelled (cancelled mem)
    exact ⟨name, cancelling pending, same⟩

/-- Nobody sleeps when everyone was woken. -/
theorem patient_wakeAll (s : InputStream) : s.wakeAll.Patient := by
  intro call mem asleep
  obtain ⟨sleeper, -, rfl⟩ := List.mem_map.mp mem
  simp [Call.wake] at asleep

/-- Nobody sleeps while there is text. -/
theorem Patient.awake (h : s.Patient) {c : Char} {rest : Text} (hb : s.buffer = c :: rest)
    (mem : call ∈ s.calls) : call.awake = true := by
  cases awake : call.awake with
  | true => rfl
  | false => simpa [hb] using (h call mem awake).drained

theorem awaits_of_sleep (hr : s.released call = false) (hb : s.buffer = [])
    (opened : s.isClosed = false) : s.Awaits call := by
  simp only [released, Bool.or_eq_false_iff, List.contains_eq_mem, decide_eq_false_iff_not,
    bne_eq_false_iff_eq] at hr
  exact ⟨hb, opened, hr.2, fun cancelled => absurd cancelled hr.1⟩

/-- When nobody is to run, a read waits because there is no text, and for no other reason. -/
theorem Patient.of_quiet (h : s.Patient) (quiet : s.Quiet) (mem : call ∈ s.calls) :
    call.handle ∉ s.cancelled ∧ call.epoch = s.epoch ∧ s.gate = .opened ∧ s.buffer = [] := by
  obtain ⟨drained, opened, current, uncancelled⟩ := h call mem (quiet.asleep call mem)
  refine ⟨fun cancelled => ?_, current, ?_, drained⟩
  · obtain ⟨name, pending, -⟩ := uncancelled cancelled
    simp [quiet.settled] at pending
  · cases gate : s.gate with
    | opened => rfl
    | closed => simp [isClosed, gate] at opened

/-- When nobody is to run and somebody reads, there is no text and the stream is open. -/
theorem Patient.available_of_quiet (h : s.Patient) (quiet : s.Quiet) (reads : s.calls ≠ []) :
    s.available = 0 ∧ s.gate = .opened := by
  obtain ⟨call, mem⟩ := List.exists_mem_of_ne_nil _ reads
  obtain ⟨-, -, opened, drained⟩ := h.of_quiet quiet mem
  exact ⟨by rw [available, drained]; rfl, opened⟩

theorem patient_append (h : s.Patient) (text : Text) : (s.append text).1.Patient := by
  by_cases ht : text = []
  · subst ht
    exact h
  · cases closed : s.isClosed with
    | true => simpa [append, ht, closed] using h
    | false =>
      rw [append_of_open ht closed]
      exact patient_wakeAll _

/-- A signal wakes everyone, or gives nobody anything to do. A cancelling gives its read something
to do, but then it is to be alerted. -/
theorem patient_of_signals {action : Action} (h : s.Patient)
    (known : ∀ call ∈ s.calls, (s.owners.lookup call.handle).isSome = true)
    (signals : action.Signals) : (s.perform action).1.Patient := by
  cases signals with
  | close =>
    cases closed : s.isClosed with
    | true => simpa [perform, close, closed] using h
    | false =>
      rw [perform, close_of_open closed]
      exact patient_wakeAll _
  | interrupt thread =>
    cases handles : s.interruptible thread with
    | nil => simpa [perform, interrupt, handles] using h
    | cons handle others =>
      simp only [perform, interrupt, handles]
      exact patient_wakeAll _
  | flag name =>
    intro call mem asleep
    obtain ⟨drained, opened, current, uncancelled⟩ := h call mem asleep
    refine ⟨drained, opened, current, fun cancelled => ?_⟩
    rcases List.mem_insert_iff.mp cancelled with new | cancelled
    · exact ⟨name, List.mem_cons_self, new⟩
    · obtain ⟨other, pending, same⟩ := uncancelled cancelled
      exact ⟨other, List.mem_cons_of_mem _ pending, same⟩
  | alert name =>
    rw [perform, alert_eq]
    split
    next => exact patient_wakeAll _
    next idle =>
      -- Nobody has used the handle, so no read is to be cancelled through it.
      intro call mem asleep
      obtain ⟨drained, opened, current, uncancelled⟩ := h call mem asleep
      refine ⟨drained, opened, current, fun cancelled => ?_⟩
      obtain ⟨other, pending, same⟩ := uncancelled cancelled
      have ne : other ≠ name := by
        rintro rfl
        exact idle ⟨pending, same ▸ known call mem⟩
      exact ⟨other, (List.mem_erase_of_ne ne).mpr pending, same⟩

end InputStream

namespace Desk

open InputStream

/-- Every move leaves those who sleep, and whom nobody has woken, with nothing to do. -/
theorem patient_goes {desk desk' : Desk} {marks : List Mark} (h : desk.stream.Patient)
    (roster : desk.stream.Roster desk.reading) (goes : Goes desk desk' marks) :
    desk'.stream.Patient := by
  cases goes with
  | stays | passes => exact h
  | @begins s thread demand name =>
    intro call mem asleep
    rw [enroll_calls] at mem
    refine (h call mem asleep).of_same (enroll_buffer ..) ?_ (enroll_epoch ..) ?_ ?_ <;>
      cases name <;> simp [enroll, attach, renew]
  | resumes =>
    intro call mem asleep
    exact (h call (mem_withdraw mem).1 asleep).of_same rfl rfl rfl (.refl _) (.refl _)
  | ends =>
    intro call mem asleep
    exact (h call mem asleep).of_same rfl rfl rfl (.refl _) (.refl _)
  | @sleeps s call hr hb opened =>
    intro sleeper mem asleep
    rcases List.mem_append.mp mem with mem | mem
    · exact (h sleeper mem asleep).of_same rfl rfl rfl (.refl _) (.refl _)
    · obtain rfl := List.mem_singleton.mp mem
      exact awaits_of_sleep hr hb opened
  | takes hb | leaves hb =>
    intro call mem asleep
    simp [h.awake hb mem] at asleep
  | accepts => exact patient_append h _
  | resets => exact patient_wakeAll _
  | signals signals =>
    refine patient_of_signals h (fun call mem => ?_) signals
    exact roster.known call (List.mem_append_right _ mem)

theorem patient_run (moves : List Move) : (run {} moves).1.stream.Patient :=
  (run_induction (motive := fun desk _ => desk.stream.Patient ∧ desk.stream.Roster desk.reading)
    ⟨by simp [Patient], roster_new⟩
    (fun h goes => ⟨patient_goes h.1 h.2 goes, roster_goes h.2 goes⟩) moves).1

end Desk

namespace InputStream

/-- After every schedule, those who sleep have nothing to do. -/
theorem Reachable.patient {s : InputStream} (h : s.Reachable) : s.Patient := by
  obtain ⟨actions, rfl⟩ := h
  obtain ⟨moves, leaves, -, -⟩ := Desk.exists_moves_of_run {} actions
  have patient := Desk.patient_run moves
  rwa [leaves] at patient

end InputStream

namespace Desk

open InputStream

/-- **No waking is lost.** In every run, when no section is under way, every read in progress sleeps
and nobody has woken it, and no cancelling has yet to wake the reads, then each of these reads has a
handle that is not cancelled, the stream was not reset since it began, the stream is open and there
is no text. So it is after every schedule: reads that are left waiting are waiting for text. -/
theorem no_lost_waking :
    (∀ moves : List Move,
      let s := (run {} moves).1.stream
      (run {} moves).1.served = none → s.Quiet →
        (∀ call ∈ s.calls, call.handle ∉ s.cancelled ∧
          resetsSince call.thread (run {} moves).2 = 0 ∧ s.gate = .opened ∧ s.buffer = []) ∧
        (s.calls ≠ [] → s.available = 0 ∧ s.gate = .opened)) ∧
      ∀ actions : List Action,
        let s := (({} : InputStream).run actions).1
        s.Quiet →
          (∀ call ∈ s.calls, call.handle ∉ s.cancelled ∧ call.epoch = s.epoch ∧
            s.gate = .opened ∧ s.buffer = []) ∧
          (s.calls ≠ [] → s.available = 0 ∧ s.gate = .opened) := by
  constructor
  · intro moves s free quiet
    have patient : s.Patient := patient_run moves
    refine ⟨fun call mem => ?_, patient.available_of_quiet quiet⟩
    obtain ⟨uncancelled, current, opened, drained⟩ := patient.of_quiet quiet mem
    have dated : call.epoch + resetsSince call.thread (run {} moves).2 = s.epoch :=
      dated_run moves call (List.mem_append_right _ mem)
    exact ⟨uncancelled, by omega, opened, drained⟩
  · intro actions s quiet
    have patient : s.Patient := Reachable.patient ⟨actions, rfl⟩
    exact ⟨fun call mem => patient.of_quiet quiet mem, patient.available_of_quiet quiet⟩

/-- Two threads read lines through one handle, and the line that comes wakes both. One of them gets
it, the other goes back to sleep, and a cancelling of another handle does not concern it. -/
theorem no_lost_waking_of_shared_handle :
    let moves : List Move :=
      [.act (.start "first" .line (some "shared")), .draw,
        .act (.start "second" .line (some "shared")), .draw, .act (.append ['x', '\n']),
        .act (.resume "second"), .draw, .act (.flag "other"), .draw, .act (.resume "first"), .draw,
        .act (.alert "other")]
    let s := (run {} moves).1.stream
    (run {} moves).1.served = none ∧ s.Quiet ∧ s.isReading "first" = true ∧
      s.available = 0 ∧ s.gate = .opened := by
  intro moves s
  have free : (run {} moves).1.served = none := by decide
  have quiet : s.Quiet := ⟨by decide, by decide⟩
  exact ⟨free, quiet, by decide, ((no_lost_waking.1 moves) free quiet).2 (by decide)⟩

end Desk

end LineConsole
