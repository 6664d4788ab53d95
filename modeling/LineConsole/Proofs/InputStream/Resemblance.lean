import LineConsole.Proofs.InputStream.Leaving

/-!
# Reads that are woken for nothing

An interrupt wakes every reader, though it concerns one of them only, and it leaves a handle
cancelled through which nobody reads any more. Neither makes a difference to what comes after. A
reader that was woken for nothing finds nothing and goes back to sleep, and a handle that is not
used again is not looked at. So the stream resembles one on which nobody was woken and the handle is
as it was, section by section.

Cancelling by hand is one operation: a read that was woken for nothing is not to run when the flag
of its handle is up and the alert is still to come, for it would end before the alert wakes it.

## Main definitions

* `InputStream.Resembles` — a stream is another one, but for readers that were woken and a spent
  handle
* `InputStream.Whole`, `InputStream.WholeAll` — no read runs while its handle is half cancelled

## Main results

* `Resembles.advance` — a reader's section is the same on both
* `Resembles.perform`, `Resembles.run` — so is every section, and every schedule
-/

namespace LineConsole.InputStream

/-- The stream `s` is the stream `s'`, except that readers may have been woken for nothing, and that
a handle may have been cancelled through which nobody reads. -/
structure Resembles (spent : Handle) (s s' : InputStream) : Prop where
  buffer : s.buffer = s'.buffer
  gate : s.gate = s'.gate
  skipLF : s.skipLF = s'.skipLF
  epoch : s.epoch = s'.epoch
  waiters : s.waiters = s'.waiters
  owners : s.owners = s'.owners
  cancelling : s.cancelling = s'.cancelling
  reads : ∀ thread, Option.Rel Call.Roused (s'.callOf? thread) (s.callOf? thread)
  others : ∀ handle, handle ≠ spent → (handle ∈ s.cancelled ↔ handle ∈ s'.cancelled)
  handles : ∀ thread call, s'.callOf? thread = some call →
    (call.handle ∈ s.cancelled ↔ call.handle ∈ s'.cancelled)

/-- If a read runs in this section, no cancelling of its handle is half done. -/
def Whole (s : InputStream) (action : Action) : Prop :=
  ∀ thread call name, action = .resume thread → s.callOf? thread = some call →
    call.handle = .named name → name ∉ s.cancelling

/-- No read runs in the schedule while a cancelling of its handle is half done. -/
def WholeAll : InputStream → List Action → Prop
  | _, [] => True
  | s, action :: actions => s.Whole action ∧ WholeAll (s.perform action).1 actions

variable {spent : Handle} {s s' : InputStream} {call : Call} {thread : ThreadId}

/-- Nothing is half done when no flag is up. -/
theorem whole_of_settled (settled : s.cancelling = []) (action : Action) : s.Whole action := by
  intro thread call name _ _ _
  simp [settled]

theorem wholeAll_append {front back : List Action} :
    s.WholeAll (front ++ back) ↔ s.WholeAll front ∧ (s.run front).1.WholeAll back := by
  induction front generalizing s with
  | nil => simp [WholeAll]
  | cons action front ih => simp [WholeAll, ih, run_cons, and_assoc]

/-- What is asked of a schedule beside a read does not depend on whether the read is there. -/
theorem WholeAll.leave {actions : List Action} (h : s.WholeAll actions) (alone : s.Alone call)
    (beside : ∀ action ∈ actions, action.Beside call) (spared : s.Spared call actions) :
    (s.leave call).WholeAll actions := by
  induction actions generalizing s with
  | nil => trivial
  | cons action actions ih =>
    obtain ⟨first, rest⟩ := List.forall_mem_cons.mp beside
    obtain ⟨same, -⟩ := leave_perform alone first spared.head
    refine ⟨?_, same ▸ ih h.2 (alone.perform first) rest (spared.perform alone first)⟩
    rintro thread read name rfl found handle
    rw [callOf?_leave_of_ne s call fun same => first.reader (same ▸ rfl)] at found
    exact h.1 thread read name rfl found handle

namespace Resembles

theorem isClosed_eq (h : Resembles spent s s') : s.isClosed = s'.isClosed := by
  rw [isClosed, h.gate, ← isClosed]

theorem callOf?_eq_none (h : Resembles spent s s') (idle : s'.callOf? thread = none) :
    s.callOf? thread = none := by
  have reads := h.reads thread
  rw [idle] at reads
  generalize s.callOf? thread = read at reads
  cases reads
  rfl

theorem exists_roused (h : Resembles spent s s') (found : s'.callOf? thread = some call) :
    ∃ now, s.callOf? thread = some now ∧ call.Roused now := by
  have reads := h.reads thread
  rw [found] at reads
  generalize s.callOf? thread = read at reads
  cases reads with
  | some same => exact ⟨_, rfl, same⟩

theorem isReading_eq (h : Resembles spent s s') (thread : ThreadId) :
    s.isReading thread = s'.isReading thread := by
  have reads := h.reads thread
  rw [isReading, isReading]
  generalize s.callOf? thread = read at reads
  generalize s'.callOf? thread = read' at reads
  cases reads <;> rfl

/-- What is seen of the streams is the same. -/
theorem view_eq (h : Resembles spent s s') : s.view 0 = s'.view 0 := by
  simp only [view, available, lingers_zero, h.isReading_eq, h.buffer, h.gate]

/-! ### What a section is made of -/

theorem wake (h : Resembles spent s s') : Resembles spent s.wakeAll s'.wakeAll := by
  refine { h with reads := fun thread => ?_, handles := fun thread call found => ?_ }
  · have reads := h.reads thread
    rw [callOf?_wakeAll, callOf?_wakeAll]
    generalize s.callOf? thread = read at reads
    generalize s'.callOf? thread = read' at reads
    cases reads with
    | none => exact .none
    | some same => exact .some (.inl same.wake_eq)
  · rw [callOf?_wakeAll] at found
    obtain ⟨sleeper, slept, rfl⟩ := Option.map_eq_some_iff.mp found
    exact h.handles thread sleeper slept

/-- The readers of the one stream may be woken for nothing. -/
theorem wakeLeft (h : Resembles spent s s') : Resembles spent s.wakeAll s' := by
  refine { h with reads := fun thread => ?_ }
  have reads := h.reads thread
  rw [callOf?_wakeAll]
  generalize s.callOf? thread = read at reads
  generalize s'.callOf? thread = read' at reads
  cases reads with
  | none => exact .none
  | some same => exact .some (.inr same.wake_eq)

theorem serve (h : Resembles spent s s') (demand : Demand) :
    Resembles spent (s.serve demand) (s'.serve demand) := by
  have served : demand.serve s.skipLF s.buffer = demand.serve s'.skipLF s'.buffer := by
    rw [h.buffer, h.skipLF]
  exact { h with
    buffer := congrArg Serving.rest served
    skipLF := congrArg Serving.skipLF served }

theorem retire (h : Resembles spent s s') (handle : Handle) :
    Resembles spent (s.retire handle) (s'.retire handle) :=
  { h with waiters := congrArg (List.filter _) h.waiters }

theorem withdraw (h : Resembles spent s s') (thread : ThreadId) :
    Resembles spent (s.withdraw thread) (s'.withdraw thread) := by
  refine { h with reads := fun other => ?_, handles := fun other call found => ?_ }
  · by_cases same : other = thread
    · rw [same, callOf?_withdraw, callOf?_withdraw]
      exact .none
    · rw [callOf?_withdraw_of_ne same, callOf?_withdraw_of_ne same]
      exact h.reads other
  · have ne : other ≠ thread := by
      rintro rfl
      simp at found
    rw [callOf?_withdraw_of_ne ne] at found
    exact h.handles other call found

theorem enlist (h : Resembles spent s s') (idle : s'.callOf? call.thread = none)
    (same : call.handle ∈ s.cancelled ↔ call.handle ∈ s'.cancelled) :
    Resembles spent (s.enlist call) (s'.enlist call) := by
  have idle' := h.callOf?_eq_none idle
  refine { h with reads := fun thread => ?_, handles := fun thread other found => ?_ }
  · by_cases own : call.thread = thread
    · subst own
      rw [callOf?_enlist call idle, callOf?_enlist call idle']
      exact .some (.inl rfl)
    · rw [callOf?_enlist_of_ne call own, callOf?_enlist_of_ne call own]
      exact h.reads thread
  · by_cases own : call.thread = thread
    · subst own
      rw [callOf?_enlist call idle] at found
      cases found
      exact same
    · rw [callOf?_enlist_of_ne call own] at found
      exact h.handles thread other found

theorem attach (h : Resembles spent s s') (handle : Handle) (thread : ThreadId) :
    Resembles spent (s.attach handle thread) (s'.attach handle thread) :=
  { h with
    waiters := congrArg (List.insert handle) h.waiters
    owners := congrArg (List.cons (handle, thread)) h.owners }

theorem renew (h : Resembles spent s s') (thread : ThreadId) :
    Resembles spent (s.renew thread) (s'.renew thread) := by
  refine { h with
    others := fun handle ne => ?_
    handles := fun other call found => ?_ }
  · simp only [InputStream.renew, List.mem_filter, h.others handle ne]
  · simp only [InputStream.renew, List.mem_filter, h.handles other call found]

/-- A thread's new read is the same on both streams, and its handle is cancelled on both or on
neither. -/
theorem enroll (h : Resembles spent s s') (thread : ThreadId) (demand : Demand)
    {name : Option String} (unspent : ∀ x, name = some x → spent ≠ .named x) :
    Resembles spent (s.enroll thread demand name).1 (s'.enroll thread demand name).1 ∧
      (s.enroll thread demand name).2 = (s'.enroll thread demand name).2 ∧
      ((s'.enroll thread demand name).2.handle ∈ (s.enroll thread demand name).1.cancelled ↔
        (s'.enroll thread demand name).2.handle ∈ (s'.enroll thread demand name).1.cancelled) := by
  cases name with
  | some name =>
    refine ⟨h.attach (.named name) thread, ?_, h.others _ (unspent name rfl).symm⟩
    simp [InputStream.enroll, h.epoch]
  | none =>
    refine ⟨(h.renew thread).attach (.own thread) thread, ?_, ?_⟩
    · simp [InputStream.enroll, h.epoch]
    · simp [InputStream.enroll, InputStream.attach, InputStream.renew]

/-- A read is released on both streams or on neither. -/
theorem released_eq (h : Resembles spent s s')
    (same : call.handle ∈ s.cancelled ↔ call.handle ∈ s'.cancelled) :
    s.released call = s'.released call := by
  simp [InputStream.released, same, h.epoch]

/-- **A reader's section is the same on both streams.** -/
theorem advance (h : Resembles spent s s') (idle : s'.callOf? call.thread = none)
    (same : call.handle ∈ s.cancelled ↔ call.handle ∈ s'.cancelled) :
    Resembles spent (s.advance call).1 (s'.advance call).1 ∧
      (s.advance call).2 = (s'.advance call).2 := by
  have released := h.released_eq same
  have served : call.demand.serve s.skipLF s.buffer = call.demand.serve s'.skipLF s'.buffer := by
    rw [h.buffer, h.skipLF]
  have closed := h.isClosed_eq
  cases hr : s'.released call with
  | true =>
    rw [advance_of_released hr, advance_of_released (released.trans hr)]
    exact ⟨h.retire call.handle, rfl⟩
  | false =>
    have hr' := released.trans hr
    cases hc : (call.demand.serve s'.skipLF s'.buffer).complete with
    | true =>
      rw [advance_of_complete hr hc, advance_of_complete hr' (served ▸ hc), served]
      exact ⟨(h.serve call.demand).retire call.handle, rfl⟩
    | false =>
      cases hg : s'.isClosed with
      | true =>
        rw [advance_of_drained hr hc hg,
          advance_of_drained hr' (served ▸ hc) (closed.trans hg), served]
        exact ⟨(h.serve call.demand).retire call.handle, rfl⟩
      | false =>
        rw [advance_of_waiting hr hc hg,
          advance_of_waiting hr' (served ▸ hc) (closed.trans hg), served]
        exact ⟨(h.serve call.demand).enlist idle same, rfl⟩

/-! ### Sections that do not read -/

theorem append (h : Resembles spent s s') (text : Text) :
    Resembles spent (s.append text).1 (s'.append text).1 ∧
      (s.append text).2 = (s'.append text).2 := by
  by_cases ht : text = []
  · subst ht
    exact ⟨h, rfl⟩
  · have closed := h.isClosed_eq
    cases hg : s'.isClosed with
    | true =>
      simp only [InputStream.append, ht, closed, hg, if_true, if_false]
      exact ⟨h, trivial⟩
    | false =>
      simp only [InputStream.append, ht, closed, hg, Bool.false_eq_true, if_false]
      refine ⟨wake { h with buffer := ?_ }, trivial⟩
      rw [h.buffer]

theorem close (h : Resembles spent s s') :
    Resembles spent s.close.1 s'.close.1 ∧ s.close.2 = s'.close.2 := by
  have closed := h.isClosed_eq
  cases hg : s'.isClosed with
  | true =>
    simp only [InputStream.close, closed, hg, if_true]
    exact ⟨h, trivial⟩
  | false =>
    simp only [InputStream.close, closed, hg, Bool.false_eq_true, if_false, available, h.buffer]
    exact ⟨wake { h with buffer := rfl, gate := rfl }, trivial⟩

theorem clear (h : Resembles spent s s') :
    Resembles spent s.clear.1 s'.clear.1 ∧ s.clear.2 = s'.clear.2 := by
  refine ⟨wake { h with
    buffer := rfl
    gate := rfl
    skipLF := rfl
    epoch := congrArg (· + 1) h.epoch }, ?_⟩
  simp only [InputStream.clear, h.waiters]

theorem flag (h : Resembles spent s s') (name : String) :
    Resembles spent (s.flag name) (s'.flag name) := by
  refine { h with
    cancelling := congrArg (List.cons name) h.cancelling
    others := fun handle ne => ?_
    handles := fun thread call found => ?_ }
  · simp only [InputStream.flag, List.mem_insert_iff, h.others handle ne]
  · simp only [InputStream.flag, List.mem_insert_iff, h.handles thread call found]

theorem alert (h : Resembles spent s s') (name : String) :
    Resembles spent (s.alert name) (s'.alert name) := by
  have struck : Resembles spent { s with cancelling := s.cancelling.erase name }
      { s' with cancelling := s'.cancelling.erase name } :=
    { h with cancelling := congrArg (List.erase · name) h.cancelling }
  have same : (name ∈ s.cancelling ∧ (s.owners.lookup (.named name)).isSome = true) =
      (name ∈ s'.cancelling ∧ (s'.owners.lookup (.named name)).isSome = true) := by
    rw [h.cancelling, h.owners]
  rw [alert_eq, alert_eq]
  simp only [same]
  split
  · exact struck.wake
  · exact struck

/-- An interrupt reaches the same handles on both streams. -/
theorem interruptible_eq (h : Resembles spent s s') (orderly : s'.Orderly) (thread : ThreadId) :
    s.interruptible thread = s'.interruptible thread := by
  rw [interruptible, interruptible, h.waiters, h.owners]
  refine List.filter_congr fun handle mem => ?_
  obtain ⟨call, among, rfl, -⟩ := orderly.roster.owned handle mem
  have same := h.handles _ call (orderly.roster.callOf?_of_mem among)
  simp [same]

theorem interrupt (h : Resembles spent s s') (orderly : s'.Orderly) (thread : ThreadId) :
    Resembles spent (s.interrupt thread).1 (s'.interrupt thread).1 ∧
      (s.interrupt thread).2 = (s'.interrupt thread).2 := by
  have handles := h.interruptible_eq orderly thread
  by_cases nobody : s'.interruptible thread = []
  · rw [interrupt_of_nil nobody, interrupt_of_nil (handles.trans nobody)]
    exact ⟨h, rfl⟩
  · rw [interrupt_of_ne_nil nobody, interrupt_of_ne_nil (handles ▸ nobody), handles]
    refine ⟨wake { h with
      others := fun handle ne => ?_
      handles := fun other call found => ?_ }, rfl⟩
    · simp only [List.mem_append, h.others handle ne]
    · simp only [List.mem_append, h.handles other call found]

/-! ### Sections that read -/

theorem start (h : Resembles spent s s') (thread : ThreadId) (demand : Demand)
    {name : Option String} (unspent : ∀ x, name = some x → spent ≠ .named x) :
    Resembles spent (s.perform (.start thread demand name)).1
        (s'.perform (.start thread demand name)).1 ∧
      (s.perform (.start thread demand name)).2 = (s'.perform (.start thread demand name)).2 := by
  have reading := h.isReading_eq thread
  cases idle : s'.isReading thread with
  | true =>
    simp only [InputStream.perform, reading, idle, if_true]
    exact ⟨h, trivial⟩
  | false =>
    by_cases asks : demand = .chars 0
    · subst asks
      simp only [InputStream.perform, reading, idle, Bool.false_eq_true, if_false, start_of_nothing]
      exact ⟨h, trivial⟩
    · obtain ⟨enrolled, same, cancelled⟩ := h.enroll thread demand unspent
      have silent : (s'.enroll thread demand name).1.callOf?
          (s'.enroll thread demand name).2.thread = none := by
        rw [enroll_thread]
        simpa [isReading, callOf?] using idle
      rw [perform_of_serves (.start idle asks),
        perform_of_serves (.start (reading.trans idle) asks), same]
      obtain ⟨later, ends⟩ := enrolled.advance silent cancelled
      rw [ends]
      exact ⟨later, rfl⟩

/-- A read that was woken for nothing goes back to sleep. -/
theorem oversleep (h : Resembles spent s s') (patient : s'.Patient)
    (found : s'.callOf? thread = some call) (asleep : call.awake = false)
    (woken : s.callOf? thread = some call.wake)
    (settled : ∀ name, call.handle = .named name → name ∉ s.cancelling) :
    Resembles spent (s.perform (.resume thread)).1 s' ∧ (s.perform (.resume thread)).2 = [] := by
  obtain rfl := thread_of_callOf? found
  obtain ⟨drained, opened, current, uncancelled⟩ := patient call (mem_of_callOf? found) asleep
  have kept : call.handle ∉ s.cancelled := fun mem => by
    obtain ⟨name, pending, handle⟩ := uncancelled ((h.handles _ call found).mp mem)
    exact settled name handle (h.cancelling ▸ pending)
  have unreleased : (s.withdraw call.thread).released call = false := by
    have current' : call.epoch = (s.withdraw call.thread).epoch := current.trans h.epoch.symm
    have kept' : call.handle ∉ (s.withdraw call.thread).cancelled := kept
    simp [InputStream.released, kept', current']
  have empty : (s.withdraw call.thread).buffer = [] := h.buffer.trans drained
  have open' : (s.withdraw call.thread).isClosed = false := h.isClosed_eq.trans opened
  have sleeps : { call with awake := false } = call := by rw [← asleep]
  rw [perform_of_serves (.resume woken rfl), advance_wake, Desk.advance_of_nil unreleased empty,
    open', if_neg Bool.false_ne_true, sleeps]
  refine ⟨{ h with reads := fun other => ?_ }, rfl⟩
  by_cases own : call.thread = other
  · subst own
    rw [found, callOf?_enlist call callOf?_withdraw]
    exact .some (.inl rfl)
  · rw [callOf?_enlist_of_ne call own, callOf?_withdraw_of_ne (Ne.symm own)]
    exact h.reads other

theorem resume (h : Resembles spent s s') (orderly : s'.Orderly)
    (whole : s.Whole (.resume thread)) :
    Resembles spent (s.perform (.resume thread)).1 (s'.perform (.resume thread)).1 ∧
      (s.perform (.resume thread)).2 = (s'.perform (.resume thread)).2 := by
  cases found : s'.callOf? thread with
  | none =>
    rw [perform_resume_of_asleep (s := s') (by simp [found]),
      perform_resume_of_asleep (s := s) (by simp [h.callOf?_eq_none found])]
    exact ⟨h, rfl⟩
  | some call =>
    obtain ⟨now, found', same⟩ := h.exists_roused found
    cases awake : call.awake with
    | true =>
      obtain rfl := same.eq_of_awake awake
      have gone : (s'.withdraw thread).callOf? now.thread = none := by
        rw [thread_of_callOf? found, callOf?_withdraw]
      obtain ⟨later, ends⟩ := (h.withdraw thread).advance gone (h.handles thread now found)
      rw [perform_of_serves (.resume found awake), perform_of_serves (.resume found' awake), ends]
      exact ⟨later, rfl⟩
    | false =>
      rw [perform_resume_of_asleep (s := s') (by simp [found, awake])]
      rcases same with rfl | rfl
      · rw [perform_resume_of_asleep (by simp [found', awake])]
        exact ⟨h, rfl⟩
      · exact h.oversleep orderly.patient found awake found' fun name handle =>
          whole thread _ name rfl found' handle

/-- **After every section** that begins no read through the spent handle, the streams resemble each
other, and the section has made the same known. -/
theorem perform (h : Resembles spent s s') (orderly : s'.Orderly) {action : Action}
    (unspent : ∀ name, action.handle? = some name → spent ≠ .named name)
    (whole : s.Whole action) :
    Resembles spent (s.perform action).1 (s'.perform action).1 ∧
      (s.perform action).2 = (s'.perform action).2 := by
  cases action with
  | start thread demand name => exact h.start thread demand unspent
  | resume thread => exact h.resume orderly whole
  | append text => exact h.append text
  | close => exact h.close
  | clear => exact h.clear
  | interrupt thread => exact h.interrupt orderly thread
  | flag name => exact ⟨h.flag name, rfl⟩
  | alert name => exact ⟨h.alert name, rfl⟩

/-- **After every schedule** that begins no read through the spent handle, the streams resemble each
other, and the schedule has made the same known. -/
theorem run (h : Resembles spent s s') (orderly : s'.Orderly) {actions : List Action}
    (unspent : ∀ action ∈ actions, ∀ name, action.handle? = some name → spent ≠ .named name)
    (whole : s.WholeAll actions) :
    Resembles spent (s.run actions).1 (s'.run actions).1 ∧
      (s.run actions).2 = (s'.run actions).2 := by
  induction actions generalizing s s' with
  | nil => exact ⟨h, rfl⟩
  | cons action actions ih =>
    obtain ⟨first, rest⟩ := List.forall_mem_cons.mp unspent
    obtain ⟨next, events⟩ := h.perform orderly first whole.1
    obtain ⟨later, events'⟩ := ih next (orderly.perform action) rest whole.2
    rw [run_cons, run_cons]
    exact ⟨later, congrArg₂ _ events events'⟩

end Resembles

end LineConsole.InputStream
