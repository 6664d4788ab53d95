import LineConsole.Proofs.InputStream.Characters

/-!
# A batch of characters, read singly

A read of many characters looks for what releases it, and for an LF to be skipped, at its first
character only. Here it is compared with reads of one character: it waits, and it ends without a
result, exactly when a read of one character does, and what it returns is what as many of these
return one after the other, which leave the stream as it does.

A read that waits for many characters differs from one that waits for one in nothing but what it
asks for, and nobody looks at this until there is a character for it. So whatever happens while it
waits comes to the same, and when it is served the two compare as if they had begun then.

## Main definitions

* `InputStream.singles` — reads of one character, one after the other
* `InputStream.Compares` — how a read of many characters compares with reads of one
* `InputStream.recast` — the stream when the read of a thread asks for something else
* `InputStream.WaitsFor` — a thread waits for characters and has none

## Main results

* `run_singles` — reads of one character take the buffer one by one
* `compares_advance` — how the sections of the two compare
* `recast_perform`, `recast_run` — what happens while they wait comes to the same
* `batch_compares` — a batch is as many reads of one character, whenever it is served
-/

namespace LineConsole.InputStream

/-- Reads of one character by one thread, one after the other, each through its handle. -/
def singles (thread : ThreadId) (names : List (Option String)) : List Action :=
  names.map fun name => .start thread (.chars 1) name

/-- How a section of a read of `size` characters compares with a section of a read of one, when
`found` is ready. Either waits if the other does, and ends without a result if the other does, and
then they leave the same text. Otherwise the first returns as many characters as are ready, `size`
at most, and the other one the first of these. Reads of one character return the others, one each,
and then the text, the skipping and the gate are left as the first read left them. -/
structure Compares (thread : ThreadId) (size : Nat) (found : Text)
    (batch single : InputStream × Outcome) : Prop where
  waits : batch.2 = .waits ↔ single.2 = .waits
  ends : batch.2 = .ended none ↔ single.2 = .ended none
  idles : batch.2 = .waits ∨ batch.2 = .ended none → single.1.buffer = batch.1.buffer ∧
    single.1.skipLF = batch.1.skipLF ∧ single.1.gate = batch.1.gate
  serves : batch.2 ≠ .waits → batch.2 ≠ .ended none → ∃ c text,
    batch.2 = .ended (some (c :: text)) ∧ single.2 = .ended (some [c]) ∧ c :: text <+: found ∧
      (c :: text).length = min size found.length ∧
      ∀ names : List (Option String), names.length = text.length →
        (∀ name ∈ names, ∀ handle ∈ name, single.1.isCancelled handle = false) →
          let last := single.1.run (singles thread names)
          last.2 = text.map (fun c => .ended thread (some [c])) ∧
            last.1.buffer = batch.1.buffer ∧ last.1.skipLF = batch.1.skipLF ∧
            last.1.gate = batch.1.gate

variable {s s' : InputStream} {call call' other : Call} {thread : ThreadId} {size : Nat}
  {name : Option String} {action : Action}

/-! ## Reads of one character -/

theorem enroll_gate (s : InputStream) (thread : ThreadId) (demand : Demand)
    (name : Option String) : (s.enroll thread demand name).1.gate = s.gate := by
  cases name <;> rfl

/-- The handle of a thread's own is new when it begins a read; the others are as they were. -/
theorem isCancelled_enroll (s : InputStream) (thread : ThreadId) (demand : Demand)
    (name : Option String) (handle : String) :
    (s.enroll thread demand name).1.isCancelled handle = s.isCancelled handle := by
  cases name <;> simp [enroll, isCancelled, attach, renew]

theorem isReading_enroll (s : InputStream) (reader : ThreadId) (demand : Demand)
    (name : Option String) :
    (s.enroll reader demand name).1.isReading thread = s.isReading thread := by
  cases name <;> rfl

theorem perform_start (idle : s.isReading thread = false) (demand : Demand)
    (name : Option String) : s.perform (.start thread demand name) =
      ((s.start thread demand name).1, (s.start thread demand name).2.events thread) := by
  simp [perform, idle]

/-- A read of one character that begins over a buffer takes the first. -/
theorem perform_single {c : Char} {rest : Text} (idle : s.isReading thread = false)
    (settled : s.skipLF = false) (buffer : s.buffer = c :: rest)
    (uncancelled : ∀ handle ∈ name, s.isCancelled handle = false) :
    let after := s.perform (.start thread (.chars 1) name)
    after.2 = [.ended thread (some [c])] ∧ after.1.buffer = rest ∧ after.1.skipLF = false ∧
      after.1.gate = s.gate ∧ after.1.isReading thread = false ∧
      ∀ handle, after.1.isCancelled handle = s.isCancelled handle := by
  intro after
  have found : s.ready = c :: rest := by rw [ready, settled, buffer, Text.unread_false]
  have took := start_of_ready thread uncancelled (Nat.le_refl 1) (by simp [found])
  rw [found] at took
  have same : after = _ := perform_start idle (.chars 1) name
  rw [took] at same
  rw [same]
  exact ⟨rfl, rfl, rfl, enroll_gate .., (isReading_enroll ..).trans idle,
    isCancelled_enroll s thread (.chars 1) name⟩

/-- **Reads of one character** take the buffer one by one. -/
theorem run_singles {text rest : Text} (idle : s.isReading thread = false)
    (settled : s.skipLF = false) (buffer : s.buffer = text ++ rest) {names : List (Option String)}
    (length : names.length = text.length)
    (uncancelled : ∀ name ∈ names, ∀ handle ∈ name, s.isCancelled handle = false) :
    let last := s.run (singles thread names)
    last.2 = text.map (fun c => .ended thread (some [c])) ∧ last.1.buffer = rest ∧
      last.1.skipLF = false ∧ last.1.gate = s.gate := by
  induction text generalizing s names with
  | nil =>
    obtain rfl : names = [] := List.length_eq_zero_iff.mp length
    exact ⟨rfl, buffer, settled, rfl⟩
  | cons c text ih =>
    cases names with
    | nil => simp at length
    | cons name names =>
      obtain ⟨first, others⟩ := List.forall_mem_cons.mp uncancelled
      obtain ⟨ends, buffer', settled', gate, idle', kept⟩ :=
        perform_single idle settled buffer first
      obtain ⟨ends', last, skipLF, gate'⟩ := ih idle' settled' buffer' (Nat.succ.inj length)
        fun other mem handle named => (kept handle).trans (others other mem handle named)
      have step : singles thread (name :: names) =
          .start thread (.chars 1) name :: singles thread names := rfl
      simp only [step, run_cons]
      refine ⟨?_, last, skipLF, gate'.trans gate⟩
      rw [ends, ends', List.map_cons, List.singleton_append]

/-- **How the sections compare**, over the same text. -/
theorem compares_advance (buffer : s'.buffer = s.buffer) (skipLF : s'.skipLF = s.skipLF)
    (gate : s'.gate = s.gate) (idle : s'.isReading thread = false)
    (released : s'.released call' = s.released call) (asks : 1 ≤ size)
    (many : call.demand = .chars size) (one : call'.demand = .chars 1) (new : call.taken = [])
    (new' : call'.taken = []) :
    Compares thread size s.ready (s.advance call) (s'.advance call') := by
  have ready' : s'.ready = s.ready := by rw [ready, ready, buffer, skipLF]
  have isClosed' : s'.isClosed = s.isClosed := by rw [isClosed, isClosed, gate]
  cases hr : s.released call with
  | true =>
    rw [advance_of_released hr, advance_of_released (released.trans hr), Call.soFar, Call.soFar,
      new, new']
    exact ⟨by simp, by simp, fun _ => ⟨buffer, skipLF, gate⟩, fun _ ends => absurd rfl ends⟩
  | false =>
    have hr' := released.trans hr
    by_cases empty : s.ready = []
    · rw [advance_of_unready hr many new empty, advance_of_unready hr' one new' (ready' ▸ empty),
        isClosed', buffer, skipLF]
      cases closed : s.isClosed with
      | true => exact ⟨by simp, by simp, fun _ => ⟨rfl, rfl, gate⟩, fun _ ends => absurd rfl ends⟩
      | false => exact ⟨by simp, by simp, fun _ => ⟨rfl, rfl, gate⟩, fun waits => absurd rfl waits⟩
    -- One read takes the first character, the other one the batch that begins with it; what the
    -- batch has more than that is left for the reads of one character.
    · rw [advance_of_ready hr many new empty, advance_of_ready hr' one new' (ready' ▸ empty),
        ready']
      obtain ⟨size, rfl⟩ := Nat.exists_eq_add_of_le' asks
      obtain ⟨c, rest, found⟩ := List.exists_cons_of_ne_nil empty
      rw [found]
      refine ⟨by simp, by simp, by simp, fun _ _ => ⟨c, rest.take size, rfl, rfl, ?_, ?_, ?_⟩⟩
      · exact List.take_prefix (size + 1) (c :: rest)
      · simp
      · intro names length uncancelled
        have served : ({ s' with buffer := rest, skipLF := false }.retire call'.handle).isReading
            thread = false := idle
        obtain ⟨ends, last, settled, gate'⟩ := run_singles served rfl
          (List.take_append_drop size rest).symm length uncancelled
        exact ⟨ends, last, settled, gate'.trans gate⟩

/-! ## While a read waits -/

/-- The read, when it is that of the thread and asks for something else. -/
def Call.recast (thread : ThreadId) (demand : Demand) (call : Call) : Call :=
  if call.thread = thread then { call with demand } else call

/-- The stream when the read of a thread asks for something else. -/
def recast (s : InputStream) (thread : ThreadId) (demand : Demand) : InputStream :=
  { s with calls := s.calls.map (Call.recast thread demand) }

/-- The thread waits for characters and has none. -/
def WaitsFor (s : InputStream) (thread : ThreadId) (size : Nat) : Prop :=
  ∃ call, s.callOf? thread = some call ∧ call.demand = .chars size ∧ call.taken = []

section Recast

variable (s : InputStream) (thread : ThreadId) (demand : Demand)

theorem recast_of_ne (ne : call.thread ≠ thread) : call.recast thread demand = call := if_neg ne

@[simp] theorem recast_thread : (call.recast thread demand).thread = call.thread := by
  rw [Call.recast]
  split <;> rfl

theorem recast_wake : call.wake.recast thread demand = (call.recast thread demand).wake := by
  by_cases own : call.thread = thread <;> simp [Call.recast, Call.wake, own]

theorem recast_of_idle (idle : s.isReading thread = false) : s.recast thread demand = s := by
  have others : s.calls.map (Call.recast thread demand) = s.calls.map id :=
    List.map_congr_left fun call mem =>
      recast_of_ne thread demand (isReading_eq_false_iff.mp idle call mem)
  rw [recast, others, List.map_id]

theorem recast_wakeAll : s.wakeAll.recast thread demand = (s.recast thread demand).wakeAll := by
  simp only [recast, wakeAll, List.map_map]
  congr 2
  exact funext fun call => recast_wake thread demand

theorem recast_withdraw (other : ThreadId) :
    (s.withdraw other).recast thread demand = (s.recast thread demand).withdraw other := by
  simp only [recast, withdraw, List.filter_map, Function.comp_def, recast_thread]

/-- When the read has left, it does not matter what it asked for. -/
theorem withdraw_recast : (s.recast thread demand).withdraw thread = s.withdraw thread := by
  rw [← recast_withdraw, recast_of_idle]
  simp [isReading]

theorem recast_enlist (call : Call) : (s.enlist call).recast thread demand =
    (s.recast thread demand).enlist (call.recast thread demand) := by
  simp [recast, enlist]

theorem callOf?_recast (other : ThreadId) : (s.recast thread demand).callOf? other =
    (s.callOf? other).map (Call.recast thread demand) := by
  simp only [callOf?, recast, List.find?_map, Function.comp_def, recast_thread]

theorem callOf?_recast_own (found : s.callOf? thread = some call) :
    (s.recast thread demand).callOf? thread = some { call with demand } := by
  rw [callOf?_recast, found]
  exact congrArg some (if_pos (thread_of_callOf? found))

theorem callOf?_recast_of_ne {other : ThreadId} (ne : other ≠ thread) :
    (s.recast thread demand).callOf? other = s.callOf? other := by
  rw [callOf?_recast]
  cases found : s.callOf? other with
  | none => rfl
  | some call =>
    exact congrArg some (recast_of_ne thread demand (thread_of_callOf? found ▸ ne))

@[simp] theorem isReading_recast (other : ThreadId) :
    (s.recast thread demand).isReading other = s.isReading other := by
  rw [isReading, callOf?_recast, Option.isSome_map, isReading]

/-- A section of another read comes to the same. -/
theorem recast_advance (ne : other.thread ≠ thread) :
    (s.recast thread demand).advance other =
      ((s.advance other).1.recast thread demand, (s.advance other).2) := by
  refine advance_comm (recast · thread demand) rfl rfl rfl rfl rfl (fun s => rfl)
    fun s now same => ?_
  rw [recast_enlist, recast_of_ne thread demand (same ▸ ne)]

theorem recast_enroll (reader : ThreadId) (asked : Demand) (name : Option String) :
    (s.recast thread demand).enroll reader asked name =
      ((s.enroll reader asked name).1.recast thread demand, (s.enroll reader asked name).2) := by
  cases name <;> rfl

/-- A section of another thread comes to the same. -/
theorem recast_perform_of_reader {reader : ThreadId} (reads : action.reader? = some reader)
    (ne : reader ≠ thread) :
    (s.recast thread demand).perform action =
      ((s.perform action).1.recast thread demand, (s.perform action).2) := by
  refine perform_comm_of_reader (recast · thread demand) reads
    (callOf?_recast_of_ne s thread demand ne) fun s₀ other serves => ?_
  obtain rfl : other.thread = reader := Option.some.inj (serves.reader_eq.symm.trans reads)
  refine ⟨?_, recast_advance s₀ thread demand ne⟩
  cases serves with
  | @start reader asked name idle asks =>
    have begins : (s.recast thread demand).Serves (.start reader asked name) _ _ :=
      .start ((isReading_recast ..).trans idle) asks
    rwa [recast_enroll] at begins
  | @resume reader other found awake =>
    obtain rfl := thread_of_callOf? found
    rw [recast_withdraw]
    exact .resume ((callOf?_recast_of_ne _ _ _ ne).trans found) awake

/-- A section that serves no read comes to the same. -/
theorem recast_perform_of_operation (nobody : action.reader? = none) :
    (s.recast thread demand).perform action =
      ((s.perform action).1.recast thread demand, (s.perform action).2) := by
  have closed' : (s.recast thread demand).isClosed = s.isClosed := rfl
  cases action with
  | start | resume => simp [Action.reader?] at nobody
  | append text =>
    by_cases nothing : text = []
    · subst nothing
      rfl
    · rw [perform, perform, append, append, if_neg nothing, if_neg nothing, closed']
      cases s.isClosed with
      | true => rfl
      | false =>
        let longer := { s with buffer := s.buffer ++ text }
        exact Prod.ext (recast_wakeAll longer thread demand).symm rfl
  | close =>
    rw [perform, perform, close, close, closed']
    cases s.isClosed with
    | true => rfl
    | false => exact Prod.ext (recast_wakeAll { s with gate := .closed } thread demand).symm rfl
  | clear =>
    let reset := { s with buffer := [], gate := .opened, epoch := s.epoch + 1, skipLF := false }
    exact Prod.ext (recast_wakeAll reset thread demand).symm rfl
  | interrupt other =>
    have found : (s.recast thread demand).interruptible other = s.interruptible other := rfl
    by_cases none : s.interruptible other = []
    · rw [perform, perform, interrupt_of_nil none, interrupt_of_nil (found.trans none)]
    · rw [perform, perform, interrupt_of_ne_nil none, interrupt_of_ne_nil (found ▸ none), found,
        recast_wakeAll]
      rfl
  | flag name => rfl
  | alert name =>
    rw [perform, perform, alert_eq, alert_eq]
    have known : (s.recast thread demand).cancelling = s.cancelling ∧
        (s.recast thread demand).owners = s.owners := ⟨rfl, rfl⟩
    rw [known.1, known.2]
    split
    · rw [recast_wakeAll]
      rfl
    · rfl

end Recast

theorem waits_of_silent {outcome : Outcome}
    (silent : (endings (outcome.events thread)).lookup thread = none) : outcome = .waits := by
  cases outcome with
  | waits => rfl
  | ended result => simp [Outcome.events, endings, Event.ending?] at silent

/-- A section of a read of characters that goes to sleep was not released and found nothing, at an
open stream. -/
theorem waits_advance (many : call.demand = .chars size) (new : call.taken = [])
    (sleeps : (s.advance call).2 = .waits) :
    s.released call = false ∧ s.ready = [] ∧ s.isClosed = false := by
  cases hr : s.released call with
  | true => simp [advance_of_released hr] at sleeps
  | false =>
    by_cases empty : s.ready = []
    · rw [advance_of_unready hr many new empty] at sleeps
      cases closed : s.isClosed with
      | true => simp [closed] at sleeps
      | false => exact ⟨rfl, empty, rfl⟩
    · simp [advance_of_ready hr many new empty] at sleeps

/-- The sections of reads that wait for one and for more characters go by alike, if none is there
for them. -/
theorem recast_advance_own (idle : s.isReading call.thread = false)
    (many : call.demand = .chars size) (new : call.taken = [])
    (sleeps : (s.advance call).2 = .waits) :
    (s.advance call).1.WaitsFor call.thread size ∧
      s.advance { call with demand := .chars 1 } =
        ((s.advance call).1.recast call.thread (.chars 1), .waits) := by
  obtain ⟨hr, empty, opened⟩ := waits_advance many new sleeps
  have nobody : s.callOf? call.thread = none := by simpa [isReading] using idle
  have hr' : s.released { call with demand := .chars 1 } = false := hr
  rw [advance_of_unready hr many new empty, advance_of_unready hr' rfl new empty, opened]
  let drained := { s with buffer := [], skipLF := s.skipLF && s.buffer.isEmpty }
  let asleep := { call with awake := false }
  have nobody' : drained.callOf? asleep.thread = none := nobody
  have idle' : drained.isReading call.thread = false := idle
  refine ⟨⟨asleep, callOf?_enlist asleep nobody', many, new⟩, ?_⟩
  have recasts : (drained.enlist asleep).recast call.thread (.chars 1) =
      drained.enlist { asleep with demand := .chars 1 } := by
    rw [recast_enlist, recast_of_idle _ _ _ idle', Call.recast, if_pos rfl]
  exact Prod.ext recasts.symm rfl

/-- Reads of one and of more characters begin alike, if none is there for them. -/
theorem recast_start (idle : s.isReading thread = false) (asks : 1 ≤ size)
    (unended : (endings (s.perform (.start thread (.chars size) name)).2).lookup thread = none) :
    (s.perform (.start thread (.chars size) name)).1.WaitsFor thread size ∧
      s.perform (.start thread (.chars 1) name) =
        ((s.perform (.start thread (.chars size) name)).1.recast thread (.chars 1),
          (s.perform (.start thread (.chars size) name)).2) := by
  let began := (s.enroll thread (.chars size) name).1
  let call := (s.enroll thread (.chars size) name).2
  have own : call.thread = thread := enroll_thread ..
  have serves : s.Serves (.start thread (.chars size) name) began call :=
    .start idle (chars_ne asks)
  have serves' : s.Serves (.start thread (.chars 1) name) began
      { call with demand := .chars 1 } := by
    have begins : s.Serves (.start thread (.chars 1) name) _ _ :=
      .start idle (chars_ne (Nat.le_refl 1))
    cases name <;> exact begins
  have idle' : began.isReading call.thread = false := by rw [own, isReading_enroll, idle]
  rw [perform_of_serves serves] at unended ⊢
  have sleeps : (began.advance call).2 = .waits := by
    rw [own] at unended
    exact waits_of_silent unended
  obtain ⟨waits, same⟩ := recast_advance_own idle' (enroll_demand ..) (enroll_taken ..) sleeps
  rw [perform_of_serves serves', same, sleeps]
  exact ⟨own ▸ waits, by rw [own]⟩

/-- A section of the thread that waits goes by alike, unless the read ends. -/
theorem WaitsFor.resume (waits : s.WaitsFor thread size)
    (unended : (endings (s.perform (.resume thread)).2).lookup thread = none) :
    (s.perform (.resume thread)).1.WaitsFor thread size ∧
      (s.recast thread (.chars 1)).perform (.resume thread) =
        ((s.perform (.resume thread)).1.recast thread (.chars 1),
          (s.perform (.resume thread)).2) := by
  obtain ⟨call, found, many, new⟩ := waits
  obtain rfl := thread_of_callOf? found
  have found' := callOf?_recast_own s call.thread (.chars 1) found
  cases awake : call.awake with
  | false =>
    have asleep : ∀ read, s.callOf? call.thread = some read → read.awake = false := by
      simp [found, awake]
    have asleep' : ∀ read, (s.recast call.thread (.chars 1)).callOf? call.thread = some read →
        read.awake = false := by
      simp [found', awake]
    rw [perform_resume_of_asleep asleep, perform_resume_of_asleep asleep']
    exact ⟨⟨call, found, many, new⟩, rfl⟩
  | true =>
    have serves' : (s.recast call.thread (.chars 1)).Serves (.resume call.thread) _ _ :=
      .resume found' awake
    rw [withdraw_recast] at serves'
    rw [perform_of_serves (.resume found awake)] at unended ⊢
    have sleeps := waits_of_silent unended
    have idle : (s.withdraw call.thread).isReading call.thread = false := by simp [isReading]
    obtain ⟨waits, same⟩ := recast_advance_own idle many new sleeps
    rw [perform_of_serves serves', same, sleeps]
    exact ⟨waits, rfl⟩

/-- **A section while a read waits** comes to the same, whatever the read asks for, unless the read
ends. -/
theorem recast_perform (waits : s.WaitsFor thread size)
    (unended : (endings (s.perform action).2).lookup thread = none) :
    (s.perform action).1.WaitsFor thread size ∧
      (s.recast thread (.chars 1)).perform action =
        ((s.perform action).1.recast thread (.chars 1), (s.perform action).2) := by
  by_cases turn : action = .resume thread
  · subst turn
    exact waits.resume unended
  obtain ⟨call, found, many, new⟩ := waits
  refine ⟨?_, ?_⟩
  · obtain ⟨⟨now, found', same⟩, -⟩ := callOf?_perform found fun own => absurd own turn
    rcases same with rfl | rfl
    · exact ⟨now, found', many, new⟩
    · exact ⟨call.wake, found', many, new⟩
  · cases reads : action.reader? with
    | none => exact recast_perform_of_operation s thread (.chars 1) reads
    | some reader =>
      by_cases own : reader = thread
      · subst own
        cases action with
        | start other demand name =>
          obtain rfl : other = reader := Option.some.inj reads
          have reading : s.isReading other = true := isReading_iff.mpr ⟨call, found⟩
          simp [perform, reading]
        | resume other => exact absurd (congrArg Action.resume (Option.some.inj reads)) turn
        | append | close | clear | interrupt | flag | alert => simp [Action.reader?] at reads
      · exact recast_perform_of_reader s thread (.chars 1) reads own

/-- So does any schedule in which the read does not end. -/
theorem recast_run {actions : List Action} (waits : s.WaitsFor thread size)
    (unended : (endings (s.run actions).2).lookup thread = none) :
    (s.run actions).1.WaitsFor thread size ∧
      (s.recast thread (.chars 1)).run actions =
        ((s.run actions).1.recast thread (.chars 1), (s.run actions).2) := by
  induction actions generalizing s with
  | nil => exact ⟨waits, rfl⟩
  | cons action actions ih =>
    rw [run_cons, endings_append, List.lookup_append, Option.or_eq_none_iff] at unended
    obtain ⟨waits', first⟩ := recast_perform waits unended.1
    obtain ⟨waits'', rest⟩ := ih waits' unended.2
    refine ⟨waits'', ?_⟩
    rw [run_cons, run_cons, first, rest]

/-! ## The comparison -/

/-- A read that waits, and one that waits in its place for one character, compare when their thread
runs. -/
theorem WaitsFor.compares (waits : s.WaitsFor thread size) (asks : 1 ≤ size) :
    Compares thread size s.ready (s.resume thread)
      ((s.recast thread (.chars 1)).resume thread) := by
  obtain ⟨call, found, many, new⟩ := waits
  obtain rfl := thread_of_callOf? found
  have found' := callOf?_recast_own s call.thread (.chars 1) found
  cases awake : call.awake with
  | false =>
    rw [resume_of_asleep found awake, resume_of_asleep found' awake]
    exact ⟨by simp, by simp, fun _ => ⟨rfl, rfl, rfl⟩, fun waits => absurd rfl waits⟩
  | true =>
    rw [resume_eq found awake, resume_eq found' awake, withdraw_recast]
    have idle : (s.withdraw call.thread).isReading call.thread = false := by simp [isReading]
    exact compares_advance rfl rfl rfl idle rfl asks many rfl new new

/-- **A batch is as many reads of one character.** A thread that does not read begins a read of
`size` characters, one at least, or of one character, through handles that are not cancelled. The
first ends with what is ready of that, or without a result at a stream that is closed, or waits; and
the two compare. If the read waits, whatever happens while it waits comes to the same, whether it
waits for many characters or for one; and when its thread runs the two compare again, over the text
that is ready then. -/
theorem batch_compares (idle : s.isReading thread = false) (asks : 1 ≤ size) :
    (∀ name one : Option String, (∀ handle ∈ name, s.isCancelled handle = false) →
        (∀ handle ∈ one, s.isCancelled handle = false) →
          ((s.start thread (.chars size) name).2 =
            if s.ready ≠ [] then .ended (some (s.ready.take size))
            else if s.isClosed then .ended none else .waits) ∧
          Compares thread size s.ready (s.start thread (.chars size) name)
            (s.start thread (.chars 1) one)) ∧
      ∀ name during,
        let batch := s.run (.start thread (.chars size) name :: during)
        let single := s.run (.start thread (.chars 1) name :: during)
        (endings batch.2).lookup thread = none →
          single.2 = batch.2 ∧ single.1.buffer = batch.1.buffer ∧
            single.1.skipLF = batch.1.skipLF ∧ single.1.gate = batch.1.gate ∧
            Compares thread size batch.1.ready (batch.1.resume thread)
              (single.1.resume thread) := by
  refine ⟨fun name one uncancelled uncancelled' => ⟨outcome_start thread uncancelled asks, ?_⟩,
    fun name during => ?_⟩
  · rw [start_eq (chars_ne asks), start_eq (chars_ne (Nat.le_refl 1)),
      ← ready_enroll s thread (.chars size) name]
    refine compares_advance ?_ ?_ ?_ ((isReading_enroll ..).trans idle) ?_ asks
      (enroll_demand ..) (enroll_demand ..) (enroll_taken ..) (enroll_taken ..)
    · rw [enroll_buffer, enroll_buffer]
    · rw [enroll_skipLF, enroll_skipLF]
    · rw [enroll_gate, enroll_gate]
    · rw [released_enroll uncancelled, released_enroll uncancelled']
  · intro batch single unended
    simp only [batch, single, run_cons] at unended ⊢
    rw [endings_append, List.lookup_append, Option.or_eq_none_iff] at unended
    obtain ⟨begun, first⟩ := recast_start idle asks unended.1
    obtain ⟨waits, rest⟩ := recast_run begun unended.2
    rw [first, rest]
    exact ⟨rfl, rfl, rfl, rfl, waits.compares asks⟩

/-- A thread reads a line that ends on a CR, and waits for three characters. The LF that comes is
skipped, and the thread waits on; then four characters come, and it takes three of them, as it would
have taken them one by one. The comparison holds at once for a read of two that are left. -/
theorem batch_compares_behind_cr :
    let s := (({} : InputStream).run [.append ['a', '\r'], .start "first" .line none]).1
    let during : List Action := [.append ['\n'], .resume "first", .append ['b', 'c', 'd', 'e']]
    let batch := (s.run (.start "first" (.chars 3) none :: during)).1
    let single := (s.run (.start "first" (.chars 1) none :: during)).1
    let last := (single.resume "first").1.run (singles "first" [none, some "handle"])
    let left := (batch.resume "first").1
    s.skipLF = true ∧ (batch.resume "first").2 = .ended (some ['b', 'c', 'd']) ∧
      (single.resume "first").2 = .ended (some ['b']) ∧
      last.2 = [.ended "first" (some ['c']), .ended "first" (some ['d'])] ∧
      last.1.buffer = left.buffer ∧
      Compares "second" 2 ['e'] (left.start "second" (.chars 2) (some "handle"))
        (left.start "second" (.chars 1) none) := by
  intro s during batch single last left
  have idle : s.isReading "first" = false := by decide
  have asks : 1 ≤ 3 := by decide
  obtain ⟨-, served⟩ := batch_compares idle asks
  obtain ⟨-, -, -, -, compares⟩ := served none during (by decide)
  have ended : (batch.resume "first").2 = .ended (some ['b', 'c', 'd']) := by decide
  obtain ⟨c, text, many, one, -, -, reads⟩ := compares.serves (by decide) (by decide)
  obtain ⟨rfl, rfl⟩ : c = 'b' ∧ text = ['c', 'd'] := by simpa using many.symm.trans ended
  obtain ⟨others, -⟩ := reads [none, some "handle"] rfl (by decide)
  have idle' : left.isReading "second" = false := by decide
  have asks' : 1 ≤ 2 := by decide
  obtain ⟨-, compares'⟩ := (batch_compares idle' asks').1 (some "handle") none (by decide)
    (by decide)
  have ready' : left.ready = ['e'] := by decide
  rw [ready'] at compares'
  exact ⟨by decide, ended, one, others, by decide, compares'⟩

end LineConsole.InputStream
