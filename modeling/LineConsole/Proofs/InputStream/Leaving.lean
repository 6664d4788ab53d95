import LineConsole.Proofs.InputStream.Handles
import LineConsole.Proofs.InputStream.Reset

/-!
# A read leaves

A read takes part in nothing until its thread runs. So whatever the other threads do comes to the
same whether a read is there or has left. There are two ways to notice a read that is there: another
read could begin through its handle, which goes out of use when the first of the two ends, and an
interrupt of its thread reaches the read, unless it is cancelled already.

## Main definitions

* `InputStream.leave` — the stream without a read and its handle
* `InputStream.Action.Beside` — a section that has nothing to do with a read
* `InputStream.Alone` — a read whose handle is that of no other read
* `InputStream.Spared` — a read that is not to be interrupted

## Main results

* `leave_perform`, `leave_run` — the others do the same when the read is there and when it has left
-/

namespace LineConsole.InputStream

/-- The stream when a read has left, and its handle has gone out of use. -/
def leave (s : InputStream) (call : Call) : InputStream :=
  (s.withdraw call.thread).retire call.handle

/-- The named handle through which a section begins a read. -/
def Action.handle? : Action → Option String
  | .start _ _ name => name
  | _ => none

/-- The section is not one of the read's thread, and begins no read through the same handle. -/
structure Action.Beside (action : Action) (call : Call) : Prop where
  reader : action.reader? ≠ some call.thread
  handle : ∀ name, action.handle? = some name → call.handle ≠ .named name

/-- The handle of the read is that of no other read. -/
structure Alone (s : InputStream) (call : Call) : Prop where
  apart : ∀ other ∈ s.calls, other.thread ≠ call.thread → other.handle ≠ call.handle
  own : ∀ owner, call.handle = .own owner → owner = call.thread

/-- No section of the schedule interrupts the read: it is cancelled already, or its thread was the
last to use its handle, and that thread is not interrupted. -/
def Spared (s : InputStream) (call : Call) (actions : List Action) : Prop :=
  call.handle ∈ s.cancelled ∨
    s.owners.lookup call.handle = some call.thread ∧ .interrupt call.thread ∉ actions

variable {s : InputStream} {call other : Call} {thread : ThreadId} {action : Action}
  {actions : List Action}

section Leave

variable (s : InputStream) (call other : Call)

theorem leave_wakeAll : s.wakeAll.leave call = (s.leave call).wakeAll := by
  simp only [leave, withdraw, retire, wakeAll, List.filter_map]
  rfl

theorem leave_serve (demand : Demand) :
    (s.serve demand).leave call = (s.leave call).serve demand := rfl

theorem leave_retire (handle : Handle) :
    (s.retire handle).leave call = (s.leave call).retire handle := by
  simp only [leave, withdraw, retire, List.filter_filter, Bool.and_comm]

theorem leave_withdraw (thread : ThreadId) :
    (s.withdraw thread).leave call = (s.leave call).withdraw thread := by
  simp only [leave, withdraw, retire, List.filter_filter, Bool.and_comm]

theorem leave_enlist (apart : other.thread ≠ call.thread) :
    (s.enlist other).leave call = (s.leave call).enlist other := by
  simp [leave, withdraw, retire, enlist, apart]

theorem leave_attach {handle : Handle} (different : handle ≠ call.handle) (thread : ThreadId) :
    (s.attach handle thread).leave call = (s.leave call).attach handle thread := by
  have insert : (s.waiters.insert handle).filter (fun h => h ≠ call.handle) =
      (s.waiters.filter fun h => h ≠ call.handle).insert handle := by
    by_cases mem : handle ∈ s.waiters <;> simp [List.insert, mem, different]
  simp only [leave, withdraw, retire, attach, insert]

@[simp] theorem callOf?_leave : (s.leave call).callOf? call.thread = none := by
  rw [leave, callOf?_retire, callOf?_withdraw]

theorem callOf?_leave_of_ne (h : thread ≠ call.thread) :
    (s.leave call).callOf? thread = s.callOf? thread := by
  rw [leave, callOf?_retire, callOf?_withdraw_of_ne h]

/-- A section of another read comes to the same. -/
theorem leave_advance (apart : other.thread ≠ call.thread) :
    (s.leave call).advance other = ((s.advance other).1.leave call, (s.advance other).2) := by
  refine advance_comm (leave · call) rfl rfl rfl rfl (leave_serve s call _)
    (fun s => leave_retire s call _) fun s now same => leave_enlist s call now (same ▸ apart)

end Leave

/-- The handle of a read that begins beside another one is not that of the other. -/
theorem Alone.handle_ne (alone : s.Alone call) (apart : thread ≠ call.thread) (demand : Demand)
    {name : Option String} (handle : ∀ x, name = some x → call.handle ≠ .named x) :
    (s.enroll thread demand name).2.handle ≠ call.handle := by
  cases name with
  | some name => exact (handle name rfl).symm
  | none => exact fun same => apart (alone.own thread same.symm)

theorem leave_enroll (alone : s.Alone call) (apart : thread ≠ call.thread) (demand : Demand)
    {name : Option String} (handle : ∀ x, name = some x → call.handle ≠ .named x) :
    (s.leave call).enroll thread demand name =
      ((s.enroll thread demand name).1.leave call, (s.enroll thread demand name).2) := by
  have different := alone.handle_ne apart demand handle
  cases name with
  | some name => exact Prod.ext (leave_attach s call different thread).symm rfl
  | none => exact Prod.ext (leave_attach (s.renew thread) call different thread).symm rfl

/-! ## The sections of the others -/

/-- A thread's section, if it serves a read, serves the same when another read has left. -/
theorem Serves.leave {s₀ : InputStream} (h : s.Serves action s₀ other) (alone : s.Alone call)
    (beside : action.Beside call) :
    other.thread ≠ call.thread ∧ (s.leave call).Serves action (s₀.leave call) other := by
  have apart : other.thread ≠ call.thread := fun same => beside.reader (same ▸ h.reader_eq)
  refine ⟨apart, ?_⟩
  cases h with
  | @start thread demand name idle asks =>
    rw [enroll_thread] at apart
    have idle' : (s.leave call).isReading thread = false := by
      rwa [isReading, callOf?_leave_of_ne s call apart]
    have serves : (s.leave call).Serves (.start thread demand name) _ _ := .start idle' asks
    have handle : ∀ x, name = some x → call.handle ≠ .named x := beside.handle
    rwa [leave_enroll alone apart demand handle] at serves
  | @resume thread other found awake =>
    obtain rfl := thread_of_callOf? found
    rw [leave_withdraw]
    exact .resume ((callOf?_leave_of_ne s call apart).trans found) awake

/-- **A section of another thread** comes to the same when the read has left. -/
theorem leave_perform_of_reader {reader : ThreadId} (reads : action.reader? = some reader)
    (alone : s.Alone call) (beside : action.Beside call) :
    (s.leave call).perform action = ((s.perform action).1.leave call, (s.perform action).2) := by
  have apart : reader ≠ call.thread := fun same => beside.reader (same ▸ reads)
  refine perform_comm_of_reader (leave · call) reads (callOf?_leave_of_ne s call apart)
    fun s₀ other serves => ?_
  obtain ⟨apart, serves'⟩ := serves.leave alone beside
  exact ⟨serves', leave_advance s₀ call other apart⟩

/-- An interrupt that does not reach a read reaches the same handles when the read has left. -/
theorem interruptible_leave (spared : call.handle ∉ s.interruptible thread) :
    (s.leave call).interruptible thread = s.interruptible thread := by
  rw [mem_interruptible, not_and, not_and_not_right] at spared
  simp only [interruptible, leave, retire, withdraw, List.filter_filter]
  refine List.filter_congr fun handle mem => ?_
  by_cases same : handle = call.handle
  · subst same
    simpa using spared mem
  · simp [same]
    rfl

/-- **A section beside a read** comes to the same when the read has left. Only the journal tells the
difference, which counts the handles in use at a reset. -/
theorem leave_perform (alone : s.Alone call) (beside : action.Beside call)
    (spared : s.Spared call [action]) :
    ((s.leave call).perform action).1 = (s.perform action).1.leave call ∧
      ((s.leave call).perform action).2.map Event.uncounted =
        (s.perform action).2.map Event.uncounted := by
  cases action with
  | start | resume =>
    rw [leave_perform_of_reader rfl alone beside]
    exact ⟨rfl, rfl⟩
  | append text =>
    by_cases ht : text = []
    · subst ht
      exact ⟨rfl, rfl⟩
    · have same : (s.leave call).isClosed = s.isClosed := rfl
      cases closed : s.isClosed with
      | true => simp [perform, append, ht, closed, same]
      | false =>
        let longer := { s with buffer := s.buffer ++ text }
        have unclosed : ¬ s.isClosed = true := by simp [closed]
        rw [perform, perform, append, append, if_neg ht, if_neg ht, same, if_neg unclosed,
          if_neg unclosed]
        exact ⟨(leave_wakeAll longer call).symm, rfl⟩
  | close =>
    have same : (s.leave call).isClosed = s.isClosed := rfl
    cases closed : s.isClosed with
    | true => simp [perform, close, closed, same]
    | false =>
      have unclosed : ¬ s.isClosed = true := by simp [closed]
      rw [perform, perform, close, close, same, if_neg unclosed, if_neg unclosed]
      exact ⟨(leave_wakeAll { s with gate := .closed } call).symm, rfl⟩
  | clear =>
    let reset := { s with buffer := [], gate := .opened, epoch := s.epoch + 1, skipLF := false }
    exact ⟨(leave_wakeAll reset call).symm, rfl⟩
  | interrupt thread =>
    have same : (s.leave call).interruptible thread = s.interruptible thread := by
      refine interruptible_leave fun mem => ?_
      obtain ⟨-, owner, uncancelled⟩ := mem_interruptible.mp mem
      rcases spared with cancelled | ⟨owner', elsewhere⟩
      · exact uncancelled cancelled
      · obtain rfl := Option.some.inj (owner'.symm.trans owner)
        exact elsewhere (by simp)
    by_cases nobody : s.interruptible thread = []
    · rw [perform, perform, interrupt_of_nil nobody, interrupt_of_nil (same.trans nobody)]
      exact ⟨rfl, rfl⟩
    · rw [perform, perform, interrupt_of_ne_nil nobody,
        interrupt_of_ne_nil (same ▸ nobody), same, leave_wakeAll]
      exact ⟨rfl, rfl⟩
  | flag name => exact ⟨rfl, rfl⟩
  | alert name =>
    refine ⟨?_, rfl⟩
    rw [perform, perform, alert_eq, alert_eq]
    have known : (s.leave call).cancelling = s.cancelling ∧ (s.leave call).owners = s.owners :=
      ⟨rfl, rfl⟩
    rw [known.1, known.2]
    split
    · rw [leave_wakeAll]
      rfl
    · rfl

/-! ## What stays -/

/-- A section of a read adds no other read than that. -/
theorem mem_calls_advance {c : Call} (mem : c ∈ (s.advance call).1.calls) :
    c ∈ s.calls ∨ c.thread = call.thread ∧ c.handle = call.handle := by
  have ways := s.advances call
  generalize s.advance call = advanced at ways mem
  cases ways with
  | released | complete | drained => exact .inl mem
  | waiting =>
    rw [enlist_calls, List.mem_append, List.mem_singleton] at mem
    rcases mem with mem | rfl
    · exact .inl mem
    · exact .inr ⟨rfl, rfl⟩

/-- The read that a section beside another one serves does not use the handle of the other. -/
theorem Serves.handle_ne {s₀ : InputStream} (h : s.Serves action s₀ other) (alone : s.Alone call)
    (beside : action.Beside call) : other.handle ≠ call.handle := by
  have apart := (h.leave alone beside).1
  cases h with
  | start => exact alone.handle_ne (by simpa using apart) _ beside.handle
  | resume found => exact alone.apart other (mem_of_callOf? found) apart

/-- The handle of a read is that of no other after a section beside it. -/
theorem Alone.perform (alone : s.Alone call) (beside : action.Beside call) :
    (s.perform action).1.Alone call := by
  refine ⟨?_, alone.own⟩
  have of_reader {reader : ThreadId} (reads : action.reader? = some reader) :
      ∀ c ∈ (s.perform action).1.calls, c.thread ≠ call.thread → c.handle ≠ call.handle := by
    rcases s.serves_or_perform_eq reads with ⟨s₀, other, serves, performed⟩ | same
    · rw [performed]
      intro c mem apart
      rcases mem_calls_advance mem with mem | ⟨-, handle⟩
      · exact alone.apart c (serves.mem_of_mem mem) apart
      · exact handle ▸ serves.handle_ne alone beside
    · rw [same]
      exact alone.apart
  cases action with
  | start | resume => exact of_reader rfl
  | append text => exact forall_mem_of_woken (fun _ => id) (spares_append s text).calls alone.apart
  | clear => exact forall_mem_of_woken (fun _ => id) (.inr rfl) alone.apart
  | close | interrupt | flag | alert =>
    exact forall_mem_of_woken (fun _ => id) (spares_of_signals (by constructor)).calls alone.apart

/-- A cancelled handle stays cancelled, unless it is new again because its own thread begins to
read. -/
theorem mem_cancelled_perform {handle : Handle} (cancelled : handle ∈ s.cancelled)
    (old : ∀ owner demand, action = .start owner demand none → handle ≠ .own owner) :
    handle ∈ (s.perform action).1.cancelled := by
  have of_reader {reader : ThreadId} (reads : action.reader? = some reader) :
      handle ∈ (s.perform action).1.cancelled := by
    rcases s.serves_or_perform_eq reads with ⟨s₀, other, serves, performed⟩ | same
    · rw [performed, (sameSignals_advance s₀ other).cancelled]
      cases serves with
      | @start thread demand name =>
        cases name with
        | some name => exact cancelled
        | none => exact List.mem_filter.mpr ⟨cancelled, by simpa using old thread demand rfl⟩
      | resume => exact cancelled
    · rwa [same]
  cases action with
  | start | resume => exact of_reader rfl
  | append text => exact (sparesHandles_append s text).cancelled cancelled
  | clear => exact cancelled
  | close | interrupt | flag | alert =>
    exact (sparesHandles_of_signals (by constructor)).cancelled cancelled

/-- The owner of a handle is the same after a section that begins no read through it. -/
theorem lookup_owners_perform {handle : Handle}
    (unused : ∀ thread demand name, action = .start thread demand name →
      (s.enroll thread demand name).2.handle ≠ handle) :
    (s.perform action).1.owners.lookup handle = s.owners.lookup handle := by
  have of_reader {reader : ThreadId} (reads : action.reader? = some reader) :
      (s.perform action).1.owners.lookup handle = s.owners.lookup handle := by
    rcases s.serves_or_perform_eq reads with ⟨s₀, other, serves, performed⟩ | same
    · rw [performed, (sameSignals_advance s₀ other).owners]
      cases serves with
      | @start thread demand name =>
        rw [enroll_owners, lookup_attach, if_neg (unused thread demand name rfl).symm]
      | resume => rfl
    · rw [same]
  cases action with
  | start | resume => exact of_reader rfl
  | append text => rw [(sparesHandles_append s text).owners]
  | clear => rfl
  | close | interrupt | flag | alert =>
    rw [(sparesHandles_of_signals (by constructor)).owners]

theorem Spared.head (spared : s.Spared call (action :: actions)) : s.Spared call [action] :=
  spared.imp_right fun h => ⟨h.1, fun mem => h.2 (by simp_all)⟩

theorem Spared.perform (spared : s.Spared call (action :: actions)) (alone : s.Alone call)
    (beside : action.Beside call) : (s.perform action).1.Spared call actions := by
  -- A thread that begins to read beside the read does so through another handle.
  have unused : ∀ thread demand name, action = .start thread demand name →
      (s.enroll thread demand name).2.handle ≠ call.handle := by
    rintro thread demand name rfl
    exact alone.handle_ne (fun same => beside.reader (same ▸ rfl)) demand beside.handle
  rcases spared with cancelled | ⟨owner, elsewhere⟩
  · refine .inl (mem_cancelled_perform cancelled fun owner demand starts => ?_)
    exact (unused owner demand none starts).symm
  · exact .inr ⟨(lookup_owners_perform unused).trans owner,
      fun mem => elsewhere (List.mem_cons_of_mem _ mem)⟩

/-- **A schedule beside a read** comes to the same when the read has left. -/
theorem leave_run (alone : s.Alone call) (beside : ∀ action ∈ actions, action.Beside call)
    (spared : s.Spared call actions) :
    ((s.leave call).run actions).1 = (s.run actions).1.leave call ∧
      ((s.leave call).run actions).2.map Event.uncounted =
        (s.run actions).2.map Event.uncounted := by
  induction actions generalizing s with
  | nil => exact ⟨rfl, rfl⟩
  | cons action actions ih =>
    obtain ⟨first, rest⟩ := List.forall_mem_cons.mp beside
    obtain ⟨same, events⟩ := leave_perform alone first spared.head
    obtain ⟨same', events'⟩ := ih (alone.perform first) rest (spared.perform alone first)
    simp only [run_cons, List.map_append]
    rw [same, events, same', events']
    exact ⟨rfl, rfl⟩

end LineConsole.InputStream
