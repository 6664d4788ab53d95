import LineConsole.Proofs.InputStream.Resemblance
import LineConsole.Reading.Room

/-!
# Interrupts

An interrupt of a thread releases the read that the thread has in progress and nothing else. It
answers with one if there is such a read and its handle is not yet cancelled, and with none
otherwise. Text, gate and skipping stay as they are, and nobody else's read is released or ended,
though every reader is woken. Until the interrupted thread runs, the others go on as if it had not
been interrupted; and when its read has ended, all go on as if the read had left without being
interrupted, also a later read of the same thread.

What remains is the handle: it stays cancelled, so whoever reads through it from then on is told at
once that the stream has ended. And the interrupt finds a read by its handle, so nothing is said
here of a read that has shared its handle with another one.

## Main definitions

* `InputStream.Cuts` — what an interrupt does to a read and to all else

## Main results

* `cuts_interrupt` — an interrupt releases the read of its thread and nothing else
* `Stopped.run`, `Stopped.interruptible_eq` — a second interrupt finds nothing
* `isCancelled_run` — a cancelled handle stays cancelled
* `run_interrupt` — what comes after an interrupt
* `Desk.interrupt_releases_own_read` — all of this after any run
-/

namespace LineConsole.InputStream

variable {s : InputStream} {call : Call} {thread : ThreadId} {action : Action}

/-! ## The interrupt -/

/-- The stream `s'` is `s` after a read was released, and nothing else was: the read ends with what
it held when its thread runs, no other handle was cancelled, and the other reads are as they were,
except that somebody may have woken them. Text, gate and skipping are the same. -/
structure Cuts (s : InputStream) (call : Call) (s' : InputStream) : Prop where
  buffer : s'.buffer = s.buffer
  gate : s'.gate = s.gate
  skipLF : s'.skipLF = s.skipLF
  released : s'.Declines (.resume call.thread) call.thread call.soFar
  handles : ∀ handle, handle ≠ call.handle → (handle ∈ s'.cancelled ↔ handle ∈ s.cancelled)
  others : ∀ other, other ≠ call.thread →
    Option.Rel Call.Roused (s.callOf? other) (s'.callOf? other)
  unreleased : ∀ other ∈ s.calls, other.thread ≠ call.thread → s'.released other = s.released other

/-- The stream after an interrupt that finds one handle. -/
theorem interrupt_of_single {handle : Handle} (h : s.interruptible thread = [handle]) :
    s.interrupt thread =
      (wakeAll { s with cancelled := handle :: s.cancelled }, [.interrupted 1 thread]) := by
  rw [interrupt_of_ne_nil (by simp [h]), h]
  rfl

theorem callOf?_interrupt {handle : Handle} {other : ThreadId}
    (single : s.interruptible thread = [handle]) (found : s.callOf? other = some call) :
    (s.interrupt thread).1.callOf? other = some call.wake := by
  rw [interrupt_of_single single, callOf?_wakeAll]
  exact congrArg (Option.map Call.wake) found

theorem mem_cancelled_interrupt {handle : Handle} (single : s.interruptible thread = [handle]) :
    handle ∈ (s.interrupt thread).1.cancelled := by
  rw [interrupt_of_single single]
  exact List.mem_cons_self

/-- An interrupt releases the read that it finds, and nothing else. -/
theorem cuts_interrupt (alone : s.Alone call) (found : s.callOf? thread = some call)
    (single : s.interruptible thread = [call.handle]) : s.Cuts call (s.interrupt thread).1 := by
  obtain rfl := thread_of_callOf? found
  have released : (s.interrupt call.thread).1.released call.wake = true :=
    released_iff.mpr (.inl (mem_cancelled_interrupt single))
  have declines := declines_of_released (callOf?_interrupt single found) rfl released
  rw [interrupt_of_single single] at declines ⊢
  refine ⟨rfl, rfl, rfl, declines, fun handle ne => ?_, fun other ne => ?_, fun other mem ne => ?_⟩
  · simp [wakeAll, ne]
  · rw [callOf?_wakeAll]
    show Option.Rel _ _ ((s.callOf? other).map Call.wake)
    cases s.callOf? other with
    | none => exact .none
    | some read => exact .some (.inr rfl)
  · have different := alone.apart other mem ne
    simp [InputStream.released, wakeAll, different]

/-! ## A second interrupt -/

/-- A thread that does not read goes on without a read, unless it begins one. -/
theorem callOf?_perform_of_idle (idle : s.callOf? thread = none)
    (still : ∀ demand name, action ≠ .start thread demand name) :
    (s.perform action).1.callOf? thread = none := by
  have of_spares (calls : (s.perform action).1.calls = s.calls ∨
      (s.perform action).1.calls = s.calls.map Call.wake) :
      (s.perform action).1.callOf? thread = none := by
    have woken : s.wakeAll.callOf? thread = none := by rw [callOf?_wakeAll, idle]; rfl
    rcases calls with calls | calls
    · rwa [callOf?, calls]
    · rwa [callOf?, calls]
  cases action with
  | start reader demand name =>
    have other : reader ≠ thread := fun same => still demand name (same ▸ rfl)
    exact (perform_of_other_reader rfl other).1.trans idle
  | resume reader =>
    by_cases other : reader = thread
    · subst other
      rwa [perform_resume_of_asleep (by simp [idle])]
    · exact (perform_of_other_reader rfl other).1.trans idle
  | append text => exact of_spares (spares_append s text).calls
  | clear => exact of_spares (.inr rfl)
  | close | interrupt | flag | alert =>
    exact of_spares (spares_of_signals (by constructor)).calls

/-- A thread's read, if it has one, is cancelled. -/
def Stopped (s : InputStream) (thread : ThreadId) : Prop :=
  ∀ call, s.callOf? thread = some call → call.handle ∈ s.cancelled

theorem Stopped.perform (h : s.Stopped thread) (orderly : s.Orderly)
    (still : ∀ demand name, action ≠ .start thread demand name) :
    (s.perform action).1.Stopped thread := by
  cases found : s.callOf? thread with
  | none =>
    intro now reads
    simp [callOf?_perform_of_idle found still] at reads
  | some call =>
    have cancelled := h call found
    have own := thread_of_callOf? found
    by_cases turn : action = .resume thread ∧ call.awake = true
    · obtain ⟨rfl, awake⟩ := turn
      rw [resume_of_released found awake (released_iff.mpr (.inl cancelled))]
      intro now reads
      simp at reads
    · have asleep (own : action = .resume thread) : call.awake = false := by simpa [own] using turn
      obtain ⟨⟨now, reads, same⟩, -⟩ := callOf?_perform found asleep
      intro now' reads'
      obtain rfl := Option.some.inj (reads.symm.trans reads')
      rw [same.handle_eq]
      refine mem_cancelled_perform cancelled fun owner demand starts handle => ?_
      have mine := orderly.roster.own call (mem_of_callOf? found) owner handle
      exact still demand none (by rw [starts, ← mine, own])

theorem Stopped.run {actions : List Action} (h : s.Stopped thread) (orderly : s.Orderly)
    (still : ∀ demand name, .start thread demand name ∉ actions) :
    (s.run actions).1.Stopped thread := by
  induction actions generalizing s with
  | nil => exact h
  | cons action actions ih =>
    refine ih (h.perform orderly fun demand name same => ?_) (orderly.perform action)
      fun demand name mem => still demand name (List.mem_cons_of_mem _ mem)
    exact still demand name (same ▸ List.mem_cons_self)

/-- An interrupt of a thread whose read is cancelled finds nothing. -/
theorem Stopped.interruptible_eq (h : s.Stopped thread) (orderly : s.Orderly) :
    s.interruptible thread = [] := by
  refine List.eq_nil_iff_forall_not_mem.mpr fun handle mem => ?_
  obtain ⟨call, found, rfl⟩ := orderly.roster.reads_of_interruptible mem
  exact (mem_interruptible.mp mem).2.2 (h call found)

/-- After an interrupt the read of the thread is cancelled. -/
theorem stopped_interrupt (roster : s.Roster s.calls)
    (registered : ∀ call, s.callOf? thread = some call → s.Registered call) :
    (s.interrupt thread).1.Stopped thread := by
  intro now reads
  cases found : s.callOf? thread with
  | none =>
    have idle : (s.perform (.interrupt thread)).1.callOf? thread = none :=
      callOf?_perform_of_idle found (by simp)
    exact nomatch idle.symm.trans reads
  | some call =>
    have reached := interruptible_of_registered roster found (registered call found)
    split at reached
    next cancelled =>
      rw [interrupt_of_nil reached] at reads ⊢
      obtain rfl := Option.some.inj (found.symm.trans reads)
      exact cancelled
    next =>
      rw [callOf?_interrupt reached found] at reads
      cases reads
      exact mem_cancelled_interrupt reached

/-! ## What comes after -/

/-- A thread that does not run goes on with its read. -/
theorem callOf?_run_of_beside {actions : List Action} (found : s.callOf? thread = some call)
    (elsewhere : ∀ action ∈ actions, action.reader? ≠ some thread) :
    (∃ now, (s.run actions).1.callOf? thread = some now ∧ call.Roused now) ∧
      (endings (s.run actions).2).lookup thread = none := by
  induction actions generalizing s call with
  | nil => exact ⟨⟨call, found, .inl rfl⟩, rfl⟩
  | cons action actions ih =>
    obtain ⟨first, rest⟩ := List.forall_mem_cons.mp elsewhere
    have turn : action = .resume thread → call.awake = false := fun own => absurd (own ▸ rfl) first
    obtain ⟨⟨now, reads, same⟩, silent⟩ := callOf?_perform found turn
    obtain ⟨⟨last, reads', same'⟩, silent'⟩ := ih reads rest
    rw [run_cons, endings_append, List.lookup_append, silent, Option.none_or]
    refine ⟨⟨last, reads', ?_⟩, silent'⟩
    rcases same with rfl | rfl
    · exact same'
    · exact same'.of_wake

/-- A named handle that is cancelled stays so. -/
theorem isCancelled_run {name : String} (cancelled : s.isCancelled name = true)
    (actions : List Action) : (s.run actions).1.isCancelled name = true := by
  have listed {s : InputStream} : s.isCancelled name = true ↔ .named name ∈ s.cancelled := by
    simp [isCancelled]
  rw [listed] at cancelled ⊢
  induction actions generalizing s with
  | nil => exact cancelled
  | cons action actions ih =>
    have kept : .named name ∈ (s.perform action).1.cancelled :=
      mem_cancelled_perform cancelled fun owner demand starts => by simp
    exact ih kept

theorem mem_cancelled_run {actions : List Action} (cancelled : call.handle ∈ s.cancelled)
    (alone : s.Alone call) (beside : ∀ action ∈ actions, action.Beside call) :
    call.handle ∈ (s.run actions).1.cancelled := by
  induction actions generalizing s with
  | nil => exact cancelled
  | cons action actions ih =>
    obtain ⟨first, rest⟩ := List.forall_mem_cons.mp beside
    refine ih ?_ (alone.perform first) rest
    refine mem_cancelled_perform cancelled fun owner demand starts handle => ?_
    exact first.reader (by rw [starts, alone.own owner handle]; rfl)

/-- Once the interrupted read has left, the stream resembles the one that the read has left without
being interrupted. -/
theorem resembles_interrupt (alone : s.Alone call)
    (single : s.interruptible thread = [call.handle]) :
    Resembles call.handle ((s.interrupt thread).1.leave call) (s.leave call) := by
  have same (read : Option Call) : Option.Rel Call.Roused read read := by
    cases read with
    | none => exact .none
    | some read => exact .some (.inl rfl)
  rw [interrupt_of_single single, leave_wakeAll]
  refine Resembles.wakeLeft ⟨rfl, rfl, rfl, rfl, rfl, rfl, rfl, fun other => same _,
    fun handle ne => ?_, fun other read found => ?_⟩
  · simp [leave, retire, withdraw, ne]
  · obtain ⟨mem, ne⟩ := mem_withdraw (mem_of_callOf? found)
    have different := alone.apart read mem ne
    simp [leave, retire, withdraw, different]

/-- **What comes after an interrupt.** Until the thread runs, the others go on as they would have
without the interrupt. When the thread runs its read ends with what it held, and from then on all go
on as they would have if the read had left at this time and nobody had been interrupted. -/
theorem run_interrupt (orderly : s.Orderly) (alone : s.Alone call)
    (found : s.callOf? thread = some call) (owner : s.owners.lookup call.handle = some thread)
    (single : s.interruptible thread = [call.handle]) {front back : List Action}
    (beside : ∀ action ∈ front, action.Beside call) (elsewhere : .interrupt thread ∉ front)
    (unspent : ∀ action ∈ back, ∀ name, action.handle? = some name → call.handle ≠ .named name)
    (whole : (s.interrupt thread).1.WholeAll (front ++ .resume thread :: back)) :
    let after := (s.interrupt thread).1
    let late := (after.run front).1
    let plain := (s.run front).1
    ((after.run front).2.map Event.uncounted = (s.run front).2.map Event.uncounted ∧
        late.view 0 = plain.view 0) ∧
      late.Declines (.resume thread) thread call.soFar ∧
      ((late.perform (.resume thread)).1.run back).2 = ((plain.leave call).run back).2 ∧
      ((late.perform (.resume thread)).1.run back).1.view 0 =
        ((plain.leave call).run back).1.view 0 := by
  intro after late plain
  obtain rfl := thread_of_callOf? found
  obtain ⟨wholeFront, -, wholeBack⟩ := wholeAll_append.mp whole
  have aside : ∀ action ∈ front, action.reader? ≠ some call.thread := fun action mem =>
    (beside action mem).reader
  have cuts : (Action.interrupt call.thread).Beside call :=
    ⟨by simp [Action.reader?], by simp [Action.handle?]⟩
  have alone' : after.Alone call := alone.perform cuts
  have cancelled : call.handle ∈ after.cancelled := mem_cancelled_interrupt single
  -- On either stream the others do the same when the read has left; and then the streams resemble.
  obtain ⟨left, events⟩ := leave_run alone' beside (.inl cancelled)
  obtain ⟨left', events'⟩ := leave_run alone beside (.inr ⟨owner, elsewhere⟩)
  have orderly' : (s.leave call).Orderly := orderly.leave found
  obtain ⟨resembles, same⟩ := (resembles_interrupt alone single).run orderly'
    (fun action mem => (beside action mem).handle) (wholeFront.leave alone' beside (.inl cancelled))
  rw [left, left'] at resembles
  obtain ⟨⟨now, reads, roused⟩, -⟩ := callOf?_run_of_beside (callOf?_interrupt single found) aside
  obtain rfl := roused.eq_of_awake rfl
  obtain ⟨⟨now', reads', -⟩, -⟩ := callOf?_run_of_beside found aside
  have kept : call.handle ∈ late.cancelled := mem_cancelled_run cancelled alone' beside
  have released : late.released call.wake = true := released_iff.mpr (.inl kept)
  have declines : late.Declines (.resume call.thread) call.thread call.wake.soFar :=
    declines_of_released reads rfl released
  have performed := resume_of_released reads rfl released
  refine ⟨⟨?_, ?_⟩, declines, ?_⟩
  · rw [← events, ← events', same]
  · have reading (other : ThreadId) : late.isReading other = plain.isReading other := by
      by_cases own : other = call.thread
      · rw [own, isReading_iff.mpr ⟨_, reads⟩, isReading_iff.mpr ⟨_, reads'⟩]
      · have := resembles.isReading_eq other
        rwa [isReading, isReading, callOf?_leave_of_ne _ _ own, callOf?_leave_of_ne _ _ own] at this
    have buffer : late.buffer = plain.buffer := resembles.buffer
    have gate : late.gate = plain.gate := resembles.gate
    simp only [view, available, lingers_zero, reading, buffer, gate]
  · have gone : (late.perform (.resume call.thread)).1 = late.leave call := by rw [performed]; rfl
    rw [gone] at wholeBack ⊢
    have orderly'' : (plain.leave call).Orderly := left' ▸ orderly'.run front
    obtain ⟨later, same'⟩ := resembles.run orderly'' unspent wholeBack
    exact ⟨same', later.view_eq⟩

end LineConsole.InputStream

namespace LineConsole.Desk

open InputStream

/-- **An interrupt releases the read of its thread and no other.** After any run that leaves the
desk free, let no read in progress have shared its handle with another one.

If the thread has a read in progress whose handle is not cancelled, the interrupt answers with one.
The read ends with what it held when its thread runs, and text, gate, skipping, the other handles
and the other reads are as they were. Until the thread runs, the others go on as they would have
without the interrupt; when its read has ended, all of them, the thread with new handles among them,
go on as if the read had left at that time and nobody had been interrupted. This is said of
schedules that use the cancelled handle no more, and in which cancelling by hand is one operation.

The cancelled handle stays cancelled, whatever happens. Whoever begins to read through it, be it the
same thread or another, is at the end of the stream at once and takes nothing.

In every other case the interrupt answers with none and does nothing. So does a second one, as long
as the thread has not begun another read. -/
theorem interrupt_releases_own_read {moves : List Move} {s : InputStream}
    (free : (run {} moves).1 = ⟨s, none⟩)
    (unshared : ∀ call ∈ s.calls, ¬ HasShared moves call.thread call.handle) (thread : ThreadId) :
    let after := (s.interrupt thread).1
    (∀ call, s.callOf? thread = some call → call.handle ∉ s.cancelled →
        (∀ crew, (Room.step ⟨s, crew⟩ (.interrupt thread)).2.answers = [.count 1]) ∧
        s.Cuts call after ∧
        (∀ name, call.handle = .named name → ∀ later,
          let again := (after.run later).1
          again.isCancelled name = true ∧ ∀ reader demand, again.isReading reader = false →
            again.Declines (.start reader demand (some name)) reader none) ∧
        ∀ front back, (∀ action ∈ front, action.Beside call) → .interrupt thread ∉ front →
          (∀ action ∈ back, ∀ name, action.handle? = some name → call.handle ≠ .named name) →
          after.WholeAll (front ++ .resume thread :: back) →
            let late := (after.run front).1
            let plain := (s.run front).1
            ((after.run front).2.map Event.uncounted = (s.run front).2.map Event.uncounted ∧
                late.view 0 = plain.view 0) ∧
              late.Declines (.resume thread) thread call.soFar ∧
              ((late.perform (.resume thread)).1.run back).2 = ((plain.leave call).run back).2 ∧
              ((late.perform (.resume thread)).1.run back).1.view 0 =
                ((plain.leave call).run back).1.view 0) ∧
      ((∀ call, s.callOf? thread = some call → call.handle ∈ s.cancelled) →
        (∀ crew, (Room.step ⟨s, crew⟩ (.interrupt thread)).2.answers = [.count 0]) ∧
        s.interrupt thread = (s, [])) ∧
      ∀ later, (∀ demand name, .start thread demand name ∉ later) →
        let again := (after.run later).1
        (∀ crew, (Room.step ⟨again, crew⟩ (.interrupt thread)).2.answers = [.count 0]) ∧
          again.interrupt thread = (again, []) := by
  intro after
  have orderly := orderly_of_run free
  have found := registered_or_hasShared moves
  rw [free] at found
  have registered : ∀ call ∈ s.calls, s.Registered call := fun call mem =>
    (found call mem).resolve_right (unshared call mem)
  have nothing {s : InputStream} (reached : s.interruptible thread = []) :
      (∀ crew, (Room.step ⟨s, crew⟩ (.interrupt thread)).2.answers = [.count 0]) ∧
        s.interrupt thread = (s, []) :=
    ⟨fun crew => by simp [Room.step, Room.step.apply, reached], interrupt_of_nil reached⟩
  refine ⟨fun call reads uncancelled => ?_, fun stopped => ?_, fun later still => ?_⟩
  · have mem := mem_of_callOf? reads
    have own := thread_of_callOf? reads
    have alone : s.Alone call := by
      refine ⟨fun other mem' apart same => unshared call mem (Shares.hasShared ?_),
        fun owner handle => (orderly.roster.own call mem owner handle).symm⟩
      rw [free]
      exact ⟨call, mem, other, mem', rfl, rfl, apart, same⟩
    have single := interruptible_of_registered orderly.roster reads (registered call mem)
    rw [if_neg uncancelled] at single
    refine ⟨fun crew => by simp [Room.step, Room.step.apply, single],
      cuts_interrupt alone reads single, fun name named later => ?_,
      fun front back beside elsewhere unspent whole => ?_⟩
    · have cancelled : after.isCancelled name = true := by
        simpa [isCancelled, named] using mem_cancelled_interrupt single
      have kept := isCancelled_run cancelled later
      exact ⟨kept, fun reader demand idle => declines_of_cancelled idle kept demand⟩
    · have owner : s.owners.lookup call.handle = some thread := own ▸ (registered call mem).owner
      exact run_interrupt orderly alone reads owner single beside elsewhere unspent whole
  · exact nothing (Stopped.interruptible_eq stopped orderly)
  · have stopped : after.Stopped thread := stopped_interrupt orderly.roster fun call reads =>
      registered call (mem_of_callOf? reads)
    have orderly' : after.Orderly := orderly.perform (.interrupt thread)
    exact nothing ((stopped.run orderly' still).interruptible_eq (orderly'.run later))

/-- A handle is used by one thread and then by another, which has part of a line when it is
interrupted. A third thread reads the rest of the line, and then the interrupted thread reads again.
A fourth thread, which begins to read through the handle behind all that, is told that the stream
has ended. -/
theorem interrupt_releases_own_read_of_used_handle :
    let moves : List Move :=
      [.act (.start "first" .line (some "handle")), .draw, .act (.append ['a', '\n']),
        .act (.resume "first"), .draw, .draw, .act (.start "second" .line (some "handle")), .draw,
        .act (.append ['b']), .act (.resume "second"), .draw, .draw,
        .act (.start "third" .line none), .draw]
    let s := (run {} moves).1.stream
    let call : Call := ⟨"second", .named "handle", 0, .line, ['b'], false⟩
    let front : List Action := [.append ['c', '\n'], .resume "third"]
    let back : List Action := [.start "second" .line none, .append ['d', '\r'], .resume "second"]
    (run {} moves).1 = ⟨s, none⟩ ∧
      (∀ call ∈ s.calls, ¬ HasShared moves call.thread call.handle) ∧
      s.callOf? "second" = some call ∧ call.handle ∉ s.cancelled ∧
      s.Cuts call (s.interrupt "second").1 ∧
      let late := ((s.interrupt "second").1.run front).1
      late.Declines (.resume "second") "second" (some ['b']) ∧
        ((late.perform (.resume "second")).1.run back).2 = [.ended "second" (some ['d'])] ∧
        ((late.perform (.resume "second")).1.run back).2 =
          (((s.run front).1.leave call).run back).2 ∧
        let again := ((s.interrupt "second").1.run (front ++ .resume "second" :: back)).1
        again.isCancelled "handle" = true ∧
          again.Declines (.start "fourth" .line (some "handle")) "fourth" none := by
  intro moves s call front back
  have free : (run {} moves).1 = ⟨s, none⟩ := by decide
  have unshared : ∀ call ∈ s.calls, ¬ HasShared moves call.thread call.handle := by decide
  have reads : s.callOf? "second" = some call := by decide
  have uncancelled : call.handle ∉ s.cancelled := by decide
  obtain ⟨-, cuts, handle, goesOn⟩ :=
    (interrupt_releases_own_read free unshared "second").1 call reads uncancelled
  have whole : (s.interrupt "second").1.WholeAll (front ++ .resume "second" :: back) :=
    ⟨whole_of_settled (by decide) _, whole_of_settled (by decide) _,
      whole_of_settled (by decide) _, whole_of_settled (by decide) _,
      whole_of_settled (by decide) _, whole_of_settled (by decide) _, trivial⟩
  have beside : ∀ action ∈ front, action.Beside call := by
    simp only [front, List.forall_mem_cons, List.not_mem_nil, false_imp_iff, implies_true, and_true]
    constructor <;> constructor <;> simp [Action.reader?, Action.handle?, call]
  have unspent : ∀ action ∈ back, ∀ name, action.handle? = some name →
      call.handle ≠ .named name := by
    simp [back, Action.handle?]
  obtain ⟨-, declines, same, -⟩ := goesOn front back beside (by decide) unspent whole
  obtain ⟨cancelled, told⟩ := handle "handle" rfl (front ++ .resume "second" :: back)
  exact ⟨free, unshared, reads, uncancelled, cuts, declines, by decide, same, cancelled,
    told "fourth" .line (by decide)⟩

/-- An interrupt is felt by more than the read of its thread. A read of another thread that begins
through the same handle afterwards is at the end of the stream, and would have waited for text. And
of two reads through one handle the interrupt does not find the one that is left. -/
theorem interrupt_felt_through_handle :
    let s := (({} : InputStream).run [.start "first" .line (some "handle")]).1
    let call : Call := ⟨"first", .named "handle", 0, .line, [], false⟩
    let after := ((s.interrupt "first").1.perform (.resume "first")).1
    let next : Action := .start "second" .line (some "handle")
    s.callOf? "first" = some call ∧ (after.perform next).2 = [.ended "second" none] ∧
      ((s.leave call).perform next).2 = [] ∧
      ((s.leave call).perform next).1.isReading "second" = true ∧
      let left := (({} : InputStream).run [.start "first" .line (some "handle"), next,
        .append ['x', '\n'], .resume "first"]).1
      left.calls = [⟨"second", .named "handle", 0, .line, [], true⟩] ∧ left.cancelled = [] ∧
        (left.interrupt "second").2 = [] := by
  decide

end LineConsole.Desk
