import LineConsole.InputStream.Schedule

/-!
# The sections of a stream

What one section does, as equations that later proofs cite. A read's section ends in one of four
ways: the read was released, its demand is satisfied, the closed stream is drained, or it goes to
sleep. A starting read is enrolled first, which touches the handles and nothing else, and a waking
read is taken off the list first.

## Main definitions

* `InputStream.enroll` — a starting read, with the stream that has its handle in use
* `InputStream.serve` — the stream after a pass over its buffer
* `InputStream.Call.given` — a read with what it was served
* `InputStream.Call.Roused` — a read as it was, unless somebody has woken it
* `InputStream.enlist` — the stream with one more read in progress
* `InputStream.Advances` — the ways in which a section of a read can go
* `InputStream.Serves`, `InputStream.Spares` — the sections that serve a read, and those that wake
  the reads at most
* `InputStream.accepts`, `InputStream.endings` — the text that a section brings in, and the reads it
  ends

## Main results

* `advance_of_complete`, `advance_of_drained`, `advance_of_waiting` — with `advance_of_released`,
  the four ways a section ends
* `advances` — a section goes in one of these ways
* `start_eq`, `resume_eq` — a start and a waking are an advance
* `advance_comm`, `perform_comm_of_reader` — a change that a reader's section does not look at
* `spares_of_signals`, `spares_append`, `perform_of_serves`, `perform_of_not_serves`,
  `serves_or_perform_eq` — what a section of a schedule does
* `callOf?_wakeAll`, `callOf?_withdraw`, `callOf?_enlist` — the read of a thread after a section
* `sameSignals_advance` — what no read changes
-/

namespace LineConsole.InputStream

/-- A thread's new read, and the stream with its handle in use. -/
def enroll (s : InputStream) (thread : ThreadId) (demand : Demand) :
    Option String → InputStream × Call
  | some name =>
    (s.attach (.named name) thread, ⟨thread, .named name, s.epoch, demand, [], true⟩)
  | none =>
    ((s.renew thread).attach (.own thread) thread, ⟨thread, .own thread, s.epoch, demand, [], true⟩)

/-- The stream after a pass over its buffer. -/
def serve (s : InputStream) (demand : Demand) : InputStream :=
  { s with buffer := (demand.serve s.skipLF s.buffer).rest
           skipLF := (demand.serve s.skipLF s.buffer).skipLF }

/-- A read with what it was served; it may sleep now. -/
def Call.given (call : Call) (text : Text) : Call :=
  { call with taken := call.taken ++ text, awake := false }

/-- The read as it was, unless somebody has woken it. -/
def Call.Roused (call now : Call) : Prop := now = call ∨ now = call.wake

/-- Puts a read on the list of reads in progress. -/
def enlist (s : InputStream) (call : Call) : InputStream := { s with calls := s.calls ++ [call] }

section Fields

variable (s : InputStream) (demand : Demand) (call : Call) (text : Text) (handle : Handle)

@[simp] theorem serve_buffer :
    (s.serve demand).buffer = (demand.serve s.skipLF s.buffer).rest := rfl

@[simp] theorem serve_skipLF :
    (s.serve demand).skipLF = (demand.serve s.skipLF s.buffer).skipLF := rfl

@[simp] theorem serve_calls : (s.serve demand).calls = s.calls := rfl

@[simp] theorem enlist_buffer : (s.enlist call).buffer = s.buffer := rfl

@[simp] theorem enlist_skipLF : (s.enlist call).skipLF = s.skipLF := rfl

@[simp] theorem enlist_calls : (s.enlist call).calls = s.calls ++ [call] := rfl

@[simp] theorem retire_buffer : (s.retire handle).buffer = s.buffer := rfl

@[simp] theorem retire_skipLF : (s.retire handle).skipLF = s.skipLF := rfl

@[simp] theorem retire_calls : (s.retire handle).calls = s.calls := rfl

@[simp] theorem given_thread : (call.given text).thread = call.thread := rfl

@[simp] theorem given_demand : (call.given text).demand = call.demand := rfl

@[simp] theorem given_taken : (call.given text).taken = call.taken ++ text := rfl

section Enroll

variable (thread : ThreadId) (name : Option String)

@[simp] theorem enroll_buffer : (s.enroll thread demand name).1.buffer = s.buffer := by
  cases name <;> rfl

@[simp] theorem enroll_skipLF : (s.enroll thread demand name).1.skipLF = s.skipLF := by
  cases name <;> rfl

@[simp] theorem enroll_calls : (s.enroll thread demand name).1.calls = s.calls := by
  cases name <;> rfl

@[simp] theorem enroll_thread : (s.enroll thread demand name).2.thread = thread := by
  cases name <;> rfl

@[simp] theorem enroll_demand : (s.enroll thread demand name).2.demand = demand := by
  cases name <;> rfl

@[simp] theorem enroll_taken : (s.enroll thread demand name).2.taken = [] := by
  cases name <;> rfl

end Enroll

end Fields

section Equations

variable {s : InputStream} {call : Call} {thread : ThreadId} {demand : Demand}

theorem advance_of_complete (hr : s.released call = false)
    (hc : (call.demand.serve s.skipLF s.buffer).complete = true) :
    s.advance call = ((s.serve call.demand).retire call.handle,
      .ended (some (call.taken ++ (call.demand.serve s.skipLF s.buffer).taken))) := by
  simp [advance, hr, hc, serve]

theorem advance_of_drained (hr : s.released call = false)
    (hc : (call.demand.serve s.skipLF s.buffer).complete = false) (closed : s.isClosed = true) :
    s.advance call = ((s.serve call.demand).retire call.handle,
      .ended (call.given (call.demand.serve s.skipLF s.buffer).taken).soFar) := by
  have closed' : (s.serve call.demand).isClosed = true := closed
  simp only [serve] at closed'
  simp [advance, hr, hc, serve, closed', Call.given]

theorem advance_of_waiting (hr : s.released call = false)
    (hc : (call.demand.serve s.skipLF s.buffer).complete = false) (opened : s.isClosed = false) :
    s.advance call =
      ((s.serve call.demand).enlist (call.given (call.demand.serve s.skipLF s.buffer).taken),
        .waits) := by
  have opened' : (s.serve call.demand).isClosed = false := opened
  simp only [serve] at opened'
  simp [advance, hr, hc, serve, opened', Call.given, enlist]

/-- The four ways in which a section of a read can go. -/
inductive Advances (s : InputStream) (call : Call) : InputStream × Outcome → Prop
  /-- The read was released. -/
  | released : s.released call = true → Advances s call (s.retire call.handle, .ended call.soFar)
  /-- The demand is satisfied. -/
  | complete : s.released call = false →
      (call.demand.serve s.skipLF s.buffer).complete = true →
      Advances s call ((s.serve call.demand).retire call.handle,
        .ended (some (call.taken ++ (call.demand.serve s.skipLF s.buffer).taken)))
  /-- The closed stream is drained. -/
  | drained : s.released call = false →
      (call.demand.serve s.skipLF s.buffer).complete = false → s.isClosed = true →
      Advances s call ((s.serve call.demand).retire call.handle,
        .ended (call.given (call.demand.serve s.skipLF s.buffer).taken).soFar)
  /-- The read goes to sleep. -/
  | waiting : s.released call = false →
      (call.demand.serve s.skipLF s.buffer).complete = false → s.isClosed = false →
      Advances s call ((s.serve call.demand).enlist
        (call.given (call.demand.serve s.skipLF s.buffer).taken), .waits)

/-- **A section of a read** goes in one of these ways. -/
theorem advances (s : InputStream) (call : Call) : s.Advances call (s.advance call) := by
  cases hr : s.released call with
  | true =>
    rw [advance_of_released hr]
    exact .released hr
  | false =>
    cases hc : (call.demand.serve s.skipLF s.buffer).complete with
    | true =>
      rw [advance_of_complete hr hc]
      exact .complete hr hc
    | false =>
      cases closed : s.isClosed with
      | true =>
        rw [advance_of_drained hr hc closed]
        exact .drained hr hc closed
      | false =>
        rw [advance_of_waiting hr hc closed]
        exact .waiting hr hc closed

/-- A change to the stream that a section of a read does not look at, and that goes along with
whatever the section may do, comes to the same before the section and after it. -/
theorem advance_comm (change : InputStream → InputStream)
    (released : (change s).released call = s.released call)
    (isClosed : (change s).isClosed = s.isClosed) (buffer : (change s).buffer = s.buffer)
    (skipLF : (change s).skipLF = s.skipLF)
    (serve : change (s.serve call.demand) = (change s).serve call.demand)
    (retire : ∀ s, change (s.retire call.handle) = (change s).retire call.handle)
    (enlist : ∀ s now, now.thread = call.thread → change (s.enlist now) = (change s).enlist now) :
    (change s).advance call = (change (s.advance call).1, (s.advance call).2) := by
  have served : call.demand.serve (change s).skipLF (change s).buffer =
      call.demand.serve s.skipLF s.buffer := by rw [skipLF, buffer]
  have ways := s.advances call
  generalize s.advance call = advanced at ways
  cases ways with
  | released hr => rw [advance_of_released (released.trans hr), retire]
  | complete hr hc =>
    rw [advance_of_complete (released.trans hr) (served ▸ hc), served, retire, serve]
  | drained hr hc closed =>
    rw [advance_of_drained (released.trans hr) (served ▸ hc) (isClosed.trans closed), served,
      retire, serve]
  | waiting hr hc opened =>
    rw [advance_of_waiting (released.trans hr) (served ▸ hc) (isClosed.trans opened), served,
      enlist _ _ (given_thread ..), serve]

/-- A start that asks for something enrolls the read and runs its first section. -/
theorem start_eq (hd : demand ≠ .chars 0) (name : Option String) :
    s.start thread demand name =
      (s.enroll thread demand name).1.advance (s.enroll thread demand name).2 := by
  unfold start
  cases name <;> simp [hd, enroll, renew]

theorem resume_eq (hcall : s.callOf? thread = some call) (awake : call.awake = true) :
    s.resume thread = (s.withdraw thread).advance call := by
  simp [resume, hcall, awake]

theorem append_of_open {text : Text} (ht : text ≠ []) (opened : s.isClosed = false) :
    (s.append text).1 = wakeAll { s with buffer := s.buffer ++ text } := by
  simp [append, ht, opened]

theorem close_of_open (opened : s.isClosed = false) :
    s.close.1 = wakeAll { s with gate := .closed } := by
  simp [close, opened]

theorem isClosed_close (s : InputStream) : s.close.1.isClosed = true := by
  unfold close
  split
  · assumption
  · rfl

theorem interrupt_of_ne_nil (h : s.interruptible thread ≠ []) :
    s.interrupt thread =
      (wakeAll { s with cancelled := s.interruptible thread ++ s.cancelled },
        [.interrupted (s.interruptible thread).length thread]) := by
  obtain ⟨handle, others, handles⟩ := List.exists_cons_of_ne_nil h
  simp only [interrupt, handles]

theorem interrupt_of_nil (h : s.interruptible thread = []) : s.interrupt thread = (s, []) := by
  simp [interrupt, h]

theorem resume_of_none (h : s.callOf? thread = none) : s.resume thread = (s, .waits) := by
  simp [resume, h]

theorem resume_of_asleep (hcall : s.callOf? thread = some call) (asleep : call.awake = false) :
    s.resume thread = (s, .waits) := by
  simp [resume, hcall, asleep]

/-- An alert takes down its flag. It wakes the reads if there was one and the handle is known. -/
theorem alert_eq (name : String) : s.alert name =
    if name ∈ s.cancelling ∧ (s.owners.lookup (.named name)).isSome = true then
      wakeAll { s with cancelling := s.cancelling.erase name }
    else { s with cancelling := s.cancelling.erase name } := by
  by_cases raised : name ∈ s.cancelling
  · cases known : (s.owners.lookup (.named name)).isSome <;>
      simp [alert, raised, known]
  · simp [alert, raised, List.erase_of_not_mem raised]

end Equations

/-! ## The reads in progress -/

section Calls

variable {s : InputStream} {call : Call} {thread : ThreadId}

theorem thread_of_callOf? (h : s.callOf? thread = some call) : call.thread = thread := by
  simpa using List.find?_some h

theorem mem_of_callOf? (h : s.callOf? thread = some call) : call ∈ s.calls :=
  List.mem_of_find?_eq_some h

theorem isReading_iff : s.isReading thread = true ↔ ∃ call, s.callOf? thread = some call :=
  Option.isSome_iff_exists

@[simp] theorem callOf?_retire (handle : Handle) :
    (s.retire handle).callOf? thread = s.callOf? thread := rfl

@[simp] theorem callOf?_serve (demand : Demand) :
    (s.serve demand).callOf? thread = s.callOf? thread := rfl

@[simp] theorem callOf?_wakeAll : s.wakeAll.callOf? thread = (s.callOf? thread).map Call.wake := by
  simp only [callOf?, wakeAll, List.find?_map]
  rfl

@[simp] theorem callOf?_withdraw : (s.withdraw thread).callOf? thread = none := by
  simp [callOf?, withdraw]

/-- The other threads go on with the reads they have. -/
theorem callOf?_withdraw_of_ne {other : ThreadId} (h : thread ≠ other) :
    (s.withdraw other).callOf? thread = s.callOf? thread := by
  rw [callOf?, callOf?, withdraw, List.find?_filter]
  refine congrArg (s.calls.find? ·) (funext fun call => ?_)
  by_cases same : call.thread = thread <;> simp [same, h]

/-- A thread's read stands beside those of the other threads, if no thread has two. -/
theorem calls_perm_withdraw (apart : (s.calls.map Call.thread).Nodup)
    (h : s.callOf? thread = some call) : s.calls.Perm (call :: (s.withdraw thread).calls) := by
  obtain ⟨own, front, back, split, others⟩ := List.find?_eq_some_iff_append.mp h
  simp only [decide_eq_true_eq] at own
  have ahead : ∀ c ∈ front, c.thread ≠ thread := by simpa using others
  have behind : ∀ c ∈ back, c.thread ≠ thread := fun c mem same => by
    rw [split, List.map_append, List.map_cons] at apart
    have once := (List.nodup_cons.mp (List.nodup_append.mp apart).2.1).1
    exact once (List.mem_map.mpr ⟨c, mem, same.trans own.symm⟩)
  have rest : (s.withdraw thread).calls = front ++ back := by
    simp only [withdraw, split, List.filter_append, List.filter_cons, own]
    rw [List.filter_eq_self.mpr (by simpa using ahead),
      List.filter_eq_self.mpr (by simpa using behind)]
    simp
  rw [rest, split]
  exact List.perm_middle

theorem mem_withdraw {c : Call} (h : c ∈ (s.withdraw thread).calls) :
    c ∈ s.calls ∧ c.thread ≠ thread := by
  simpa [withdraw] using h

/-- A thread whose read goes on the list is found there. -/
theorem callOf?_enlist (c : Call) (h : s.callOf? c.thread = none) :
    (s.enlist c).callOf? c.thread = some c := by
  simp only [callOf?, enlist] at h ⊢
  simp [List.find?_append, h]

theorem callOf?_enlist_of_ne (c : Call) (h : c.thread ≠ thread) :
    (s.enlist c).callOf? thread = s.callOf? thread := by
  simp [callOf?, enlist, List.find?_append, h]

/-! Being woken changes nothing about a read but that it is awake. -/

namespace Call.Roused

variable {now : Call}

theorem of_wake (h : call.wake.Roused now) : call.Roused now := .inr (h.elim id id)

theorem wake_eq (h : call.Roused now) : now.wake = call.wake := by
  rcases h with rfl | rfl <;> rfl

theorem handle_eq (h : call.Roused now) : now.handle = call.handle := by
  rcases h with rfl | rfl <;> rfl

theorem epoch_eq (h : call.Roused now) : now.epoch = call.epoch := by
  rcases h with rfl | rfl <;> rfl

theorem soFar_eq (h : call.Roused now) : now.soFar = call.soFar := by
  rcases h with rfl | rfl <;> rfl

theorem released_eq (h : call.Roused now) : s.released now = s.released call := by
  rcases h with rfl | rfl <;> rfl

/-- A read that was awake is as it was. -/
theorem eq_of_awake (h : call.Roused now) (awake : call.awake = true) : now = call := by
  have same : call.wake = call := by simp [wake, ← awake]
  exact h.elim id (·.trans same)

end Call.Roused

/-- A section of one thread leaves the reads of the others alone. -/
theorem callOf?_advance_of_ne (h : call.thread ≠ thread) :
    (s.advance call).1.callOf? thread = s.callOf? thread := by
  have ways := s.advances call
  generalize s.advance call = advanced at ways
  cases ways with
  | released => rw [callOf?_retire]
  | complete | drained => rw [callOf?_retire, callOf?_serve]
  | waiting => exact callOf?_enlist_of_ne _ h

end Calls

/-! ## What no read changes -/

/-- Two streams agree on everything but text and reads: the gate, the number of resets, and what is
known of the handles, except which are in use. -/
structure SameSignals (s s' : InputStream) : Prop where
  gate : s'.gate = s.gate
  epoch : s'.epoch = s.epoch
  cancelled : s'.cancelled = s.cancelled
  owners : s'.owners = s.owners
  cancelling : s'.cancelling = s.cancelling

theorem sameSignals_advance (s : InputStream) (call : Call) :
    s.SameSignals (s.advance call).1 := by
  have ways := s.advances call
  generalize s.advance call = advanced at ways
  cases ways <;> exact ⟨rfl, rfl, rfl, rfl, rfl⟩

theorem isClosed_advance (s : InputStream) (call : Call) :
    (s.advance call).1.isClosed = s.isClosed := by
  rw [isClosed, isClosed, (sameSignals_advance s call).gate]

/-- An append and an interrupt leave the gate as it is. -/
theorem isClosed_append (s : InputStream) (text : Text) :
    (s.append text).1.isClosed = s.isClosed := by
  unfold append
  split
  · rfl
  · split <;> rfl

theorem isClosed_interrupt (s : InputStream) (thread : ThreadId) :
    (s.interrupt thread).1.isClosed = s.isClosed := by
  unfold interrupt
  split <;> rfl

/-! ## The sections of a schedule -/

/-- The end of a read, if that is what became known. -/
def Event.ending? : Event → Option (ThreadId × Option Text)
  | .ended thread result => some (thread, result)
  | _ => none

/-- The reads that ended, with their results, in order. -/
def endings (events : List Event) : List (ThreadId × Option Text) :=
  events.filterMap Event.ending?

theorem endings_append (events later : List Event) :
    endings (events ++ later) = endings events ++ endings later :=
  List.filterMap_append

/-- The text that a section brings in. -/
def accepts (s : InputStream) : Action → Text
  | .append text => if s.isClosed then [] else text
  | _ => []

/-- A section that neither serves a read nor moves text. -/
inductive Action.Signals : Action → Prop
  | close : Signals .close
  | interrupt (thread : ThreadId) : Signals (.interrupt thread)
  | flag (name : String) : Signals (.flag name)
  | alert (name : String) : Signals (.alert name)

theorem accepts_of_signals {s : InputStream} {action : Action} (h : action.Signals) :
    s.accepts action = [] := by
  cases h <;> rfl

/-- The section spares the reads: it wakes them at most, and what it brings in goes behind what is
buffered. -/
structure Spares (s : InputStream) (action : Action) : Prop where
  buffer : (s.perform action).1.buffer = s.buffer ++ s.accepts action
  skipLF : (s.perform action).1.skipLF = s.skipLF
  calls : (s.perform action).1.calls = s.calls ∨
    (s.perform action).1.calls = s.calls.map Call.wake
  silent : endings (s.perform action).2 = []

theorem spares_of_signals {s : InputStream} {action : Action} (h : action.Signals) :
    s.Spares action := by
  cases h with
  | close =>
    cases closed : s.isClosed <;> constructor <;>
      simp [perform, close, closed, accepts, wakeAll, endings, Event.ending?]
  | interrupt thread =>
    cases handles : s.interruptible thread <;> constructor <;>
      simp [perform, interrupt, handles, accepts, wakeAll, endings, Event.ending?]
  | flag name => constructor <;> simp [perform, flag, accepts, endings]
  | alert name =>
    by_cases raised : name ∈ s.cancelling
    · cases used : (s.owners.lookup (.named name)).isSome <;> constructor <;>
        simp [perform, alert, raised, used, accepts, wakeAll, endings]
    · constructor <;> simp [perform, alert, raised, accepts, endings]

theorem spares_append (s : InputStream) (text : Text) : s.Spares (.append text) := by
  by_cases ht : text = []
  · subst ht
    constructor <;> simp [perform, append, accepts, endings]
  · cases closed : s.isClosed with
    | true => constructor <;> simp [perform, append, accepts, ht, closed, endings, Event.ending?]
    | false => constructor <;> simp [perform, append, accepts, ht, closed, endings, wakeAll]

/-- The thread whose read a section may serve. -/
def Action.reader? : Action → Option ThreadId
  | .start thread _ _ => some thread
  | .resume thread => some thread
  | _ => none

/-- The section serves a read: it goes on from the stream `s₀`, which does not list the read. -/
inductive Serves (s : InputStream) : Action → InputStream → Call → Prop
  | start {thread : ThreadId} {demand : Demand} {name : Option String} :
      s.isReading thread = false → demand ≠ .chars 0 →
        Serves s (.start thread demand name)
          (s.enroll thread demand name).1 (s.enroll thread demand name).2
  | resume {thread : ThreadId} {call : Call} :
      s.callOf? thread = some call → call.awake = true →
        Serves s (.resume thread) (s.withdraw thread) call

section Serves

variable {s s₀ : InputStream} {call : Call} {action : Action}

theorem perform_of_serves (h : s.Serves action s₀ call) :
    s.perform action = ((s₀.advance call).1, (s₀.advance call).2.events call.thread) := by
  cases h with
  | start idle asks => simp [perform, idle, start_eq asks]
  | resume hcall awake => simp [perform, resume_eq hcall awake, thread_of_callOf? hcall]

theorem perform_resume_of_asleep {thread : ThreadId}
    (asleep : ∀ call, s.callOf? thread = some call → call.awake = false) :
    s.perform (.resume thread) = (s, []) := by
  cases reads : s.callOf? thread with
  | none => simp [perform, resume_of_none reads, Outcome.events]
  | some call => simp [perform, resume_of_asleep reads (asleep call reads), Outcome.events]

/-- A thread's section that serves no read leaves the stream alone, and ends at most a read of
nothing. -/
theorem perform_of_not_serves {thread : ThreadId} (reads : action.reader? = some thread)
    (h : ∀ s₀ call, ¬ s.Serves action s₀ call) :
    (s.perform action).1 = s ∧
      ((s.perform action).2 = [] ∨ (s.perform action).2 = [.ended thread none]) := by
  cases action with
  | start reader demand name =>
    obtain rfl : reader = thread := Option.some.inj reads
    cases reading : s.isReading reader with
    | true => simp [perform, reading]
    | false =>
      by_cases asks : demand = .chars 0
      · subst asks
        simp [perform, reading, Outcome.events]
      · exact absurd (.start reading asks) (h _ _)
  | resume reader =>
    cases hcall : s.callOf? reader with
    | none => simp [perform, resume_of_none hcall, Outcome.events]
    | some call =>
      cases awake : call.awake with
      | true => exact absurd (.resume hcall awake) (h _ _)
      | false => simp [perform, resume_of_asleep hcall awake, Outcome.events]
  | append | close | clear | interrupt | flag | alert => simp [Action.reader?] at reads

/-- **A thread's section** serves a read, or it leaves the stream alone. -/
theorem serves_or_perform_eq (s : InputStream) {thread : ThreadId}
    (reads : action.reader? = some thread) :
    (∃ s₀ call, s.Serves action s₀ call ∧ (s.perform action).1 = (s₀.advance call).1) ∨
      (s.perform action).1 = s := by
  by_cases hs : ∃ s₀ call, s.Serves action s₀ call
  · obtain ⟨s₀, call, serves⟩ := hs
    exact .inl ⟨s₀, call, serves, congrArg Prod.fst (perform_of_serves serves)⟩
  · exact .inr (perform_of_not_serves reads fun s₀ call serves => hs ⟨s₀, call, serves⟩).1

/-- A change to the stream comes to the same before and after a thread's section, if it leaves the
thread the read it has and goes along with a section that serves a read. -/
theorem perform_comm_of_reader (change : InputStream → InputStream) {thread : ThreadId}
    (reads : action.reader? = some thread)
    (found : (change s).callOf? thread = s.callOf? thread)
    (serves : ∀ s₀ call, s.Serves action s₀ call →
      (change s).Serves action (change s₀) call ∧
        (change s₀).advance call = (change (s₀.advance call).1, (s₀.advance call).2)) :
    (change s).perform action = (change (s.perform action).1, (s.perform action).2) := by
  by_cases hs : ∃ s₀ call, s.Serves action s₀ call
  · obtain ⟨s₀, call, h⟩ := hs
    obtain ⟨h', same⟩ := serves s₀ call h
    rw [perform_of_serves h, perform_of_serves h', same]
  · cases action with
    | start reader demand name =>
      obtain rfl : reader = thread := Option.some.inj reads
      have reading : (change s).isReading reader = s.isReading reader := by
        rw [isReading, found, isReading]
      cases idle : s.isReading reader with
      | true => simp [perform, reading, idle]
      | false =>
        by_cases asks : demand = .chars 0
        · subst asks
          simp [perform, reading, idle]
        · exact absurd ⟨_, _, .start idle asks⟩ hs
    | resume reader =>
      obtain rfl : reader = thread := Option.some.inj reads
      have asleep : ∀ call, s.callOf? reader = some call → call.awake = false := fun call reads =>
        Bool.eq_false_iff.mpr fun awake => hs ⟨_, _, .resume reads awake⟩
      rw [perform_resume_of_asleep asleep, perform_resume_of_asleep (found ▸ asleep)]
    | append | close | clear | interrupt | flag | alert => simp [Action.reader?] at reads

namespace Serves

theorem buffer_eq (h : s.Serves action s₀ call) : s₀.buffer = s.buffer := by
  cases h with
  | start => exact enroll_buffer ..
  | resume => rfl

theorem skipLF_eq (h : s.Serves action s₀ call) : s₀.skipLF = s.skipLF := by
  cases h with
  | start => exact enroll_skipLF ..
  | resume => rfl

/-- A section that serves a read brings nothing in. -/
theorem accepts_eq (h : s.Serves action s₀ call) : s.accepts action = [] := by
  cases h <;> rfl

theorem isClosed_eq (h : s.Serves action s₀ call) : s₀.isClosed = s.isClosed := by
  cases h with
  | @start _ _ name => cases name <;> rfl
  | resume => rfl

theorem mem_of_mem (h : s.Serves action s₀ call) {c : Call} (hc : c ∈ s₀.calls) : c ∈ s.calls := by
  cases h with
  | start => rwa [enroll_calls] at hc
  | resume => exact (mem_withdraw hc).1

end Serves

end Serves

end LineConsole.InputStream
