import LineConsole.Proofs.InputStream.Roster

/-!
# Released reads

A read is released when the stream is reset or its handle is cancelled. Between that and the moment
when its thread runs again anything can happen: text may come, the stream may be closed, reset or
read by others, and text that had come before the release may still be there. None of it concerns
the released read any more. When its thread runs, the read ends with what it had taken before, and
takes nothing; a read of characters had taken nothing, so for it this is the end of the stream, as
it is for a read that is started through a handle that is already cancelled.

## Main definitions

* `InputStream.Releases` — the sections that release a read in progress
* `InputStream.Declines` — a section that ends a read and takes nothing
* `InputStream.Ongoing` — what every read in progress is known by

## Main results

* `callOf?_perform` — what a section does to the read of a thread
* `released_perform` — no section brings a released read back
* `released_run` — a released read stays as it is until it ends
* `released_takes_nothing` — a released read ends with what it holds
-/

namespace LineConsole.InputStream

/-- The section releases the read. -/
inductive Releases (s : InputStream) (call : Call) : Action → Prop
  | clear : Releases s call .clear
  | interrupt {thread : ThreadId} : call.handle ∈ s.interruptible thread →
      Releases s call (.interrupt thread)
  | flag {name : String} : call.handle = .named name → Releases s call (.flag name)

/-- The section ends a thread's read with a result, and leaves text, gate and skipping alone. -/
structure Declines (s : InputStream) (action : Action) (thread : ThreadId) (result : Option Text) :
    Prop where
  ended : (s.perform action).2 = [.ended thread result]
  gone : (s.perform action).1.isReading thread = false
  buffer : (s.perform action).1.buffer = s.buffer
  skipLF : (s.perform action).1.skipLF = s.skipLF
  gate : (s.perform action).1.gate = s.gate

variable {s : InputStream} {call : Call} {thread : ThreadId} {action : Action}

/-! ## What a section does to the read of a thread -/

theorem Serves.reader_eq {s₀ : InputStream} (h : s.Serves action s₀ call) :
    action.reader? = some call.thread := by
  cases h with
  | start => rw [enroll_thread]; rfl
  | resume hcall => rw [thread_of_callOf? hcall]; rfl

/-- A reader's section has no bearing on the read of another thread. -/
theorem perform_of_other_reader {reader : ThreadId} (reads : action.reader? = some reader)
    (other : reader ≠ thread) :
    (s.perform action).1.callOf? thread = s.callOf? thread ∧
      (endings (s.perform action).2).lookup thread = none := by
  have silent (result : Option Text) : List.lookup thread [(reader, result)] = none := by
    rw [List.lookup_cons, beq_false_of_ne other.symm]
    rfl
  by_cases hs : ∃ s₀ call, s.Serves action s₀ call
  · obtain ⟨s₀, call, h⟩ := hs
    obtain rfl : call.thread = reader := Option.some.inj (h.reader_eq.symm.trans reads)
    rw [perform_of_serves h, callOf?_advance_of_ne other]
    refine ⟨?_, ?_⟩
    · cases h with
      | start => simp [callOf?]
      | resume hcall => exact callOf?_withdraw_of_ne (thread_of_callOf? hcall ▸ other.symm)
    · cases (s₀.advance call).2 with
      | ended result => exact silent result
      | waits => rfl
  · push Not at hs
    obtain ⟨same, nothing⟩ := perform_of_not_serves reads hs
    refine ⟨by rw [same], ?_⟩
    rcases nothing with nothing | nothing <;> rw [nothing]
    · rfl
    · exact silent none

/-- A section that spares the reads leaves that of a thread in progress, and wakes it at most. -/
theorem callOf?_of_spares (h : s.callOf? thread = some call) (spares : s.Spares action) :
    (∃ now, (s.perform action).1.callOf? thread = some now ∧ call.Roused now) ∧
      (endings (s.perform action).2).lookup thread = none := by
  obtain ⟨-, -, calls, silent⟩ := spares
  refine ⟨?_, by rw [silent]; rfl⟩
  rcases calls with calls | calls
  · exact ⟨call, by rw [callOf?, calls]; exact h, .inl rfl⟩
  · have woken : s.wakeAll.callOf? thread = some call.wake := by rw [callOf?_wakeAll, h]; rfl
    exact ⟨call.wake, by rw [callOf?, calls]; exact woken, .inr rfl⟩

/-- Unless it is that thread's turn, a section leaves the read of a thread in progress, and wakes it
at most. -/
theorem callOf?_perform (h : s.callOf? thread = some call)
    (turn : action = .resume thread → call.awake = false) :
    (∃ now, (s.perform action).1.callOf? thread = some now ∧ call.Roused now) ∧
      (endings (s.perform action).2).lookup thread = none := by
  have others {reader : ThreadId} (reads : action.reader? = some reader) (ne : reader ≠ thread) :
      (∃ now, (s.perform action).1.callOf? thread = some now ∧ call.Roused now) ∧
        (endings (s.perform action).2).lookup thread = none := by
    obtain ⟨same, silent⟩ := perform_of_other_reader (s := s) reads ne
    exact ⟨⟨call, same.trans h, .inl rfl⟩, silent⟩
  cases action with
  | start reader demand name =>
    by_cases same : reader = thread
    · subst same
      have reading : s.isReading reader = true := isReading_iff.mpr ⟨call, h⟩
      have still : s.perform (.start reader demand name) = (s, []) := by simp [perform, reading]
      rw [still]
      exact ⟨⟨call, h, .inl rfl⟩, rfl⟩
    · exact others rfl same
  | resume reader =>
    by_cases same : reader = thread
    · subst same
      rw [perform_resume_of_asleep (by simp [h, turn])]
      exact ⟨⟨call, h, .inl rfl⟩, rfl⟩
    · exact others rfl same
  | append text => exact callOf?_of_spares h (spares_append s text)
  | clear =>
    refine ⟨⟨call.wake, ?_, .inr rfl⟩, rfl⟩
    have woken : s.wakeAll.callOf? thread = some call.wake := by rw [callOf?_wakeAll, h]; rfl
    exact woken
  | close | interrupt | flag | alert =>
    exact callOf?_of_spares h (spares_of_signals (by constructor))

/-! ## A released read -/

theorem released_iff :
    s.released call = true ↔ call.handle ∈ s.cancelled ∨ call.epoch ≠ s.epoch := by
  simp [released]

/-- What every read in progress is known by: its thread reads, its own handle is that of its thread,
and it did not begin after resets that have yet to come. -/
structure Ongoing (s : InputStream) (thread : ThreadId) (call : Call) : Prop where
  reading : s.callOf? thread = some call
  own : ∀ other, call.handle = .own other → other = thread
  past : call.epoch ≤ s.epoch

theorem Reachable.ongoing (hs : s.Reachable) (h : s.callOf? thread = some call) :
    s.Ongoing thread call where
  reading := h
  own other found :=
    (hs.roster.own call (mem_of_callOf? h) other found).symm.trans (thread_of_callOf? h)
  past := hs.epoch_le (mem_of_callOf? h)

/-- A reader's section resets nothing and leaves the flags that are up. It leaves every handle
cancelled but that of a thread's own which begins to read, for that one is new. -/
theorem signals_of_reader {reader : ThreadId} (reads : action.reader? = some reader) :
    (s.perform action).1.epoch = s.epoch ∧ (s.perform action).1.cancelling = s.cancelling ∧
      ∀ handle ∈ s.cancelled, handle ∈ (s.perform action).1.cancelled ∨
        handle = .own reader ∧ s.isReading reader = false := by
  by_cases hs : ∃ s₀ served, s.Serves action s₀ served
  · obtain ⟨s₀, served, serves⟩ := hs
    obtain ⟨-, epoch, cancelled, -, cancelling⟩ := sameSignals_advance s₀ served
    rw [perform_of_serves serves, epoch, cancelled, cancelling]
    cases serves with
    | @start other demand name idle =>
      obtain rfl : other = reader := Option.some.inj reads
      refine ⟨enroll_epoch .., by cases name <;> rfl, fun handle mem => ?_⟩
      cases name with
      | some name => exact .inl mem
      | none =>
        by_cases own : handle = .own other
        · exact .inr ⟨own, idle⟩
        · exact .inl (List.mem_filter.mpr ⟨mem, by simpa using own⟩)
    | resume => exact ⟨rfl, rfl, fun handle mem => .inl mem⟩
  · push Not at hs
    rw [(perform_of_not_serves reads hs).1]
    exact ⟨rfl, rfl, fun handle mem => .inl mem⟩

/-- No section brings a released read back. A handle is new again only when its thread begins a
read, and this thread does not. -/
theorem released_perform (h : s.Ongoing thread call) (released : s.released call = true)
    (action : Action) : (s.perform action).1.released call = true := by
  have of_same {s' : InputStream} (epoch : s'.epoch = s.epoch)
      (cancelled : call.handle ∈ s.cancelled → call.handle ∈ s'.cancelled) :
      s'.released call = true := by
    rw [released_iff, epoch]
    exact (released_iff.mp released).imp_left cancelled
  have of_reader {reader : ThreadId} (reads : action.reader? = some reader) :
      (s.perform action).1.released call = true := by
    obtain ⟨epoch, -, cancelled⟩ := signals_of_reader (s := s) reads
    refine of_same epoch fun mem => (cancelled _ mem).resolve_right ?_
    rintro ⟨own, idle⟩
    rw [h.own reader own] at idle
    simp [isReading, h.reading] at idle
  have of_spares (spares : s.SparesHandles action) : (s.perform action).1.released call = true :=
    of_same spares.epoch fun mem => spares.cancelled mem
  cases action with
  | start | resume => exact of_reader rfl
  | append text => exact of_spares (sparesHandles_append s text)
  | clear =>
    have past := h.past
    refine released_iff.mpr (.inr ?_)
    simp only [perform, clear, wakeAll]
    omega
  | close | interrupt | flag | alert =>
    exact of_spares (sparesHandles_of_signals (by constructor))

/-- When the thread of a released read runs, the read ends with what it holds. -/
theorem resume_of_released (h : s.callOf? thread = some call) (awake : call.awake = true)
    (released : s.released call = true) :
    s.perform (.resume thread) =
      ((s.withdraw thread).retire call.handle, [.ended thread call.soFar]) := by
  have released' : (s.withdraw thread).released call = true := released
  rw [perform_of_serves (.resume h awake), advance_of_released released', thread_of_callOf? h]
  rfl

/-- Whatever happens after the release, the read ends with what it held, or it has yet to end and
holds that. -/
theorem released_run (hs : s.Reachable) (h : s.callOf? thread = some call)
    (released : s.released call = true) (during : List Action) :
    let later := s.run during
    (endings later.2).lookup thread = some call.soFar ∨
      (endings later.2).lookup thread = none ∧ later.1.released call = true ∧
        ∃ now, later.1.callOf? thread = some now ∧ call.Roused now := by
  induction during generalizing s call with
  | nil => exact .inr ⟨rfl, released, call, h, .inl rfl⟩
  | cons action during ih =>
    simp only [run_cons, endings_append, List.lookup_append]
    by_cases turn : action = .resume thread ∧ call.awake = true
    · obtain ⟨rfl, awake⟩ := turn
      rw [resume_of_released h awake released]
      exact .inl (by simp [endings, Event.ending?])
    · have asleep (own : action = .resume thread) : call.awake = false := by simpa [own] using turn
      obtain ⟨⟨now, reading, same⟩, silent⟩ := callOf?_perform h asleep
      have released' := released_perform (hs.ongoing h) released action
      rw [silent, Option.none_or]
      rcases same with rfl | rfl
      · exact ih (hs.perform action) reading released'
      · rcases ih (hs.perform action) reading released' with
          ended | ⟨unended, still, now, found, same⟩
        · exact .inl ended
        · exact .inr ⟨unended, still, now, found, same.of_wake⟩

/-! ## Being woken -/

/-- A flag that is up stays up until the alert. -/
theorem mem_cancelling_perform {name : String} (h : name ∈ s.cancelling)
    (pending : action ≠ .alert name) : name ∈ (s.perform action).1.cancelling := by
  have of_reader {reader : ThreadId} (reads : action.reader? = some reader) :
      name ∈ (s.perform action).1.cancelling := by rwa [(signals_of_reader reads).2.1]
  cases action with
  | start | resume => exact of_reader rfl
  | append text =>
    by_cases ht : text = []
    · subst ht
      exact h
    · cases closed : s.isClosed <;> simpa [perform, append, ht, closed, wakeAll] using h
  | close => cases closed : s.isClosed <;> simpa [perform, close, closed, wakeAll] using h
  | clear => exact h
  | interrupt reader =>
    cases handles : s.interruptible reader <;> simpa [perform, interrupt, handles, wakeAll] using h
  | flag other => exact List.mem_cons_of_mem _ h
  | alert other =>
    have ne : name ≠ other := fun same => pending (same ▸ rfl)
    have kept : name ∈ s.cancelling.erase other := (List.mem_erase_of_ne ne).mpr h
    rw [perform, alert_eq]
    split <;> exact kept

theorem mem_cancelling_run {name : String} {actions : List Action} (h : name ∈ s.cancelling)
    (pending : .alert name ∉ actions) : name ∈ (s.run actions).1.cancelling := by
  induction actions generalizing s with
  | nil => exact h
  | cons action actions ih =>
    rw [List.mem_cons, not_or] at pending
    rw [run_cons]
    exact ih (mem_cancelling_perform h (Ne.symm pending.1)) pending.2

/-- A handle in use is known, so whoever alerts through it wakes its read. -/
theorem callOf?_alert {name : String} (h : s.callOf? thread = some call)
    (raised : name ∈ s.cancelling) (known : (s.owners.lookup (.named name)).isSome = true) :
    (s.perform (.alert name)).1.callOf? thread = some call.wake := by
  have woken : s.wakeAll.callOf? thread = some call.wake := by rw [callOf?_wakeAll, h]; rfl
  rw [perform, alert_eq, if_pos ⟨raised, known⟩]
  exact woken

/-- A read that was released when it was awake is awake until it ends. -/
theorem awake_run (hs : s.Reachable) (h : s.callOf? thread = some call)
    (released : s.released call = true) (awake : call.awake = true) {during : List Action}
    (unended : (endings (s.run during).2).lookup thread = none) :
    (s.run during).1.callOf? thread = some call := by
  rcases released_run hs h released during with ended | ⟨-, -, now, found, same⟩
  · simp [ended] at unended
  · rw [found, same.eq_of_awake awake]

/-- A released read whose handle was flagged is awake once the alert has followed. -/
theorem awake_run_of_alert {name : String} (hs : s.Reachable) (h : s.callOf? thread = some call)
    (released : s.released call = true) (named : call.handle = .named name)
    (raised : name ∈ s.cancelling) {during : List Action} (alerted : .alert name ∈ during)
    (unended : (endings (s.run during).2).lookup thread = none) :
    (s.run during).1.callOf? thread = some call.wake := by
  -- The first alert finds the flag still raised, and the read still there.
  obtain ⟨front, back, rfl, first⟩ := List.eq_append_cons_of_mem alerted
  simp only [run_append, run_cons, endings_append, List.lookup_append,
    Option.or_eq_none_iff] at unended ⊢
  obtain ⟨unendedFront, -, unendedBack⟩ := unended
  obtain ⟨-, still, now, found, same⟩ :=
    (released_run hs h released front).resolve_left (by simp [unendedFront])
  have raised' : name ∈ (s.run front).1.cancelling := mem_cancelling_run raised first
  have known := (hs.run front).roster.known now (mem_of_callOf? found)
  rw [same.handle_eq, named] at known
  have alert := callOf?_alert found raised' known
  have released' := released_perform ((hs.run front).ongoing found)
    (same.released_eq.trans still) (.alert name)
  rw [← same.wake_eq]
  exact awake_run ((hs.run front).perform (.alert name)) alert released' rfl unendedBack

/-! ## The release -/

/-- After its release a read is released, and it is awake unless its handle was just flagged. -/
theorem release_perform {release : Action} (h : s.Ongoing thread call)
    (releases : s.Releases call release) :
    ∃ now, (s.perform release).1.callOf? thread = some now ∧ call.Roused now ∧
      (s.perform release).1.released now = true ∧
      (now.awake = true ∨ ∃ name, release = .flag name ∧ now.handle = .named name ∧
        name ∈ (s.perform release).1.cancelling) := by
  have woken : s.wakeAll.callOf? thread = some call.wake := by rw [callOf?_wakeAll, h.reading]; rfl
  cases releases with
  | clear =>
    have past := h.past
    refine ⟨call.wake, woken, .inr rfl, released_iff.mpr (.inr ?_), .inl rfl⟩
    simp only [perform, clear, wakeAll, Call.wake]
    omega
  | @interrupt reader mem =>
    rw [perform, interrupt_of_ne_nil (List.ne_nil_of_mem mem)]
    have cancelled : call.handle ∈ s.interruptible reader ++ s.cancelled :=
      List.mem_append_left _ mem
    exact ⟨call.wake, woken, .inr rfl, released_iff.mpr (.inl cancelled), .inl rfl⟩
  | @flag name named =>
    refine ⟨call, h.reading, .inl rfl, released_iff.mpr (.inl ?_), .inr ⟨name, rfl, named, ?_⟩⟩
    · rw [named]
      exact List.mem_insert_self
    · exact List.mem_cons_self

/-- When the thread of a released read runs, the read declines what there is. -/
theorem declines_of_released (h : s.callOf? thread = some call) (awake : call.awake = true)
    (released : s.released call = true) : s.Declines (.resume thread) thread call.soFar := by
  have performed := resume_of_released h awake released
  constructor <;> rw [performed]
  · simp [isReading]
  all_goals rfl

/-- A read through a cancelled handle declines what there is from the start. -/
theorem declines_of_cancelled {name : String} (idle : s.isReading thread = false)
    (cancelled : s.isCancelled name = true) (demand : Demand) :
    s.Declines (.start thread demand (some name)) thread none := by
  have silent : s.callOf? thread = none := by simpa [isReading] using idle
  by_cases asks : demand = .chars 0
  · subst asks
    constructor <;> simp [perform, idle, Outcome.events]
  · have mem : Handle.named name ∈ s.cancelled := by simpa [isCancelled] using cancelled
    have released : (s.enroll thread demand (some name)).1.released
        (s.enroll thread demand (some name)).2 = true := released_iff.mpr (.inl mem)
    have serves : s.Serves (.start thread demand (some name)) _ _ := .start idle asks
    have performed := perform_of_serves serves
    rw [advance_of_released released] at performed
    constructor <;> rw [performed]
    · rfl
    · simp [isReading, enroll, attach, retire, callOf?] at silent ⊢
      exact silent
    all_goals rfl

/-- **A released read takes nothing more.** Let a stream be reset, or a read in progress be
cancelled, by an interrupt or by the flag of its handle going up, after any schedule. Whatever
happens then, if the read has ended, it ended with what it had taken before, and if it has not, it
ends with that when its thread runs, and leaves text, gate and skipping as they are; it can run at
once, unless it is the flag that released it and the alert has not followed. A read of characters
had taken nothing. A read that is started through a cancelled handle ends at once with nothing and
leaves text, gate and skipping as they are too. -/
theorem released_takes_nothing (before : List Action) :
    let s := (({} : InputStream).run before).1
    (∀ thread call release, s.callOf? thread = some call → s.Releases call release →
      (∀ during : List Action,
        let later := (s.perform release).1.run during
        (∀ result, (endings later.2).lookup thread = some result → result = call.soFar) ∧
          ((endings later.2).lookup thread = none →
            ∃ now, later.1.callOf? thread = some now ∧ now.soFar = call.soFar ∧
              (now.awake = true → later.1.Declines (.resume thread) thread call.soFar) ∧
              ((∀ name, release = .flag name → .alert name ∈ during) → now.awake = true))) ∧
        ∀ size, call.demand = .chars size → call.soFar = none) ∧
      ∀ thread demand name, s.isReading thread = false → s.isCancelled name = true →
        s.Declines (.start thread demand (some name)) thread none := by
  intro s
  have hs : s.Reachable := ⟨before, rfl⟩
  refine ⟨fun thread call release h releases => ⟨fun during => ?_, fun size chars => ?_⟩,
    fun thread demand name idle cancelled => declines_of_cancelled idle cancelled demand⟩
  · intro later
    obtain ⟨held, reading, held_eq, released, awake⟩ := release_perform (hs.ongoing h) releases
    have after := hs.perform release
    rw [← held_eq.soFar_eq]
    rcases released_run after reading released during with
      ended | ⟨unended, still, now, found, same⟩
    · refine ⟨fun result found => Option.some.inj (found.symm.trans ended), fun unended => ?_⟩
      simp [later, ended] at unended
    · refine ⟨fun result found => ?_, fun _ => ⟨now, found, same.soFar_eq, fun woken => ?_,
        fun alerted => ?_⟩⟩
      · simp [later, unended] at found
      · rw [← same.soFar_eq]
        exact declines_of_released found woken (same.released_eq.trans still)
      · rcases awake with awake | ⟨name, flagged, named, raised⟩
        · -- It was woken as it was released, or not long after.
          rw [same.eq_of_awake awake, awake]
        · have awoken := awake_run_of_alert after reading released named raised
            (alerted name flagged) unended
          rw [Option.some.inj (found.symm.trans awoken)]
          rfl
  · have empty := hs.roster.empty call (mem_of_callOf? h) size chars
    simp [Call.soFar, empty]

/-- A reader has part of a line when its handle is flagged; more text comes, the stream is reset and
text comes again before it runs. It ends with the part it had, and all of the text is still there.
-/
theorem released_takes_nothing_of_late_alert :
    let before : List Action := [.start "reader" .line (some "handle"), .append ['a'],
      .resume "reader"]
    let during : List Action := [.append ['b', '\r'], .alert "handle", .clear, .append ['c', '\n'],
      .close]
    let s := (({} : InputStream).run before).1
    let later := ((s.perform (.flag "handle")).1.run during).1
    later.Declines (.resume "reader") "reader" (some ['a']) ∧
      (later.perform (.resume "reader")).1.buffer = ['c', '\n'] ∧
      later.Declines (.start "other" .line (some "handle")) "other" none := by
  intro before during s later
  have reads : s.callOf? "reader" = some ⟨"reader", .named "handle", 0, .line, ['a'], false⟩ := by
    decide
  obtain ⟨takes, -⟩ := (released_takes_nothing before).1 "reader" _ _ reads (.flag rfl)
  obtain ⟨now, -, -, declines, awake⟩ := (takes during).2 (by decide)
  have afresh := (released_takes_nothing (before ++ .flag "handle" :: during)).2 "other" .line
    "handle" (by decide) (by decide)
  refine ⟨declines (awake fun name flagged => ?_), by decide, afresh⟩
  cases flagged
  decide

end LineConsole.InputStream
