import LineConsole.Proofs.InputStream.Mirror

/-!
# A stream that is reset at rest

When nobody reads at the moment of a reset, the reset leaves no read behind. Then all that the
stream has kept of the past is how often it was reset and who used which handle, and neither is seen
by those who read later: text comes and goes, and reads begin, sleep, wake and end as on a new
stream. A handle that is cancelled stays so, but handles belong to those who read through them, and
it is cancelled for a new stream as well.

The comparison with a new stream that `Mirrors` makes is a finer one, for it follows the reads from
before the reset, and interrupts and alerts as well, and has to keep apart the handles that were
used before. Here nobody cancels anything any more, and any handle may be used again.

## Main definitions

* `InputStream.Renews` — a section that can come after such a reset
* `InputStream.Renewed` — a stream used since such a reset, and a new one used in the same way

## Main results

* `Renewed.advance` — a reader's section is the same on both
* `Renewed.perform`, `Renewed.run` — so is every section, and every schedule
-/

namespace LineConsole.InputStream

/-- The section can come after a reset at which nobody read: nobody is interrupted and no handle is
cancelled. -/
def Renews : Action → Prop
  | .interrupt _ | .flag _ | .alert _ => False
  | _ => True

/-- A stream that has been used since a reset at which nobody read, and a new stream that has been
used in the same way. -/
structure Renewed (resets : Nat) (used new : InputStream) : Prop where
  buffer : used.buffer = new.buffer
  gate : used.gate = new.gate
  skipLF : used.skipLF = new.skipLF
  epoch : used.epoch = new.epoch + resets
  calls : used.calls = new.calls.map (Call.since resets)
  cancelled : used.cancelled = new.cancelled

variable {resets : Nat} {used new : InputStream} {thread : ThreadId} {action : Action}

/-- Right after the reset it is so. -/
theorem renewed_clear {s : InputStream} (nobody : s.calls = []) :
    Renewed (s.epoch + 1) s.clear.1 { cancelled := s.cancelled } where
  buffer := rfl
  gate := rfl
  skipLF := rfl
  epoch := (Nat.zero_add _).symm
  calls := by simp [clear, wakeAll, nobody]
  cancelled := rfl

namespace Renewed

/-! ### Who reads -/

theorem callOf?_eq (h : Renewed resets used new) (thread : ThreadId) :
    used.callOf? thread = (new.callOf? thread).map (Call.since resets) := by
  rw [callOf?, h.calls, List.find?_map]
  rfl

theorem isReading_eq (h : Renewed resets used new) (thread : ThreadId) :
    used.isReading thread = new.isReading thread := by
  rw [isReading, h.callOf?_eq, Option.isSome_map, ← isReading]

theorem isClosed_eq (h : Renewed resets used new) : used.isClosed = new.isClosed := by
  rw [isClosed, h.gate, ← isClosed]

/-! ### What a section is made of -/

theorem wake (h : Renewed resets used new) :
    Renewed resets used.wakeAll new.wakeAll := by
  refine { h with calls := ?_ }
  simp only [wakeAll, h.calls, List.map_map]
  rfl

theorem serve (h : Renewed resets used new) (demand : Demand) :
    Renewed resets (used.serve demand) (new.serve demand) := by
  have served : demand.serve used.skipLF used.buffer = demand.serve new.skipLF new.buffer := by
    rw [h.buffer, h.skipLF]
  exact { h with
    buffer := congrArg Serving.rest served
    skipLF := congrArg Serving.skipLF served }

theorem retire (h : Renewed resets used new) (handle : Handle) :
    Renewed resets (used.retire handle) (new.retire handle) := { h with }

theorem attach (h : Renewed resets used new) (handle : Handle) (thread : ThreadId) :
    Renewed resets (used.attach handle thread) (new.attach handle thread) := { h with }

theorem withdraw (h : Renewed resets used new) (thread : ThreadId) :
    Renewed resets (used.withdraw thread) (new.withdraw thread) := by
  refine { h with calls := ?_ }
  simp only [InputStream.withdraw, h.calls, List.filter_map]
  rfl

theorem enlist (h : Renewed resets used new) (call : Call) :
    Renewed resets (used.enlist (call.since resets)) (new.enlist call) := by
  refine { h with calls := ?_ }
  simp only [enlist_calls, h.calls, List.map_append, List.map_cons, List.map_nil]

theorem renew (h : Renewed resets used new) (thread : ThreadId) :
    Renewed resets (used.renew thread) (new.renew thread) :=
  { h with cancelled := congrArg (List.filter _) h.cancelled }

/-- A thread's new read is the same on both streams. -/
theorem enroll (h : Renewed resets used new) (thread : ThreadId) (demand : Demand)
    (name : Option String) :
    Renewed resets (used.enroll thread demand name).1 (new.enroll thread demand name).1 ∧
      (used.enroll thread demand name).2 = (new.enroll thread demand name).2.since resets := by
  cases name with
  | some name =>
    refine ⟨h.attach _ thread, ?_⟩
    simp [InputStream.enroll, Call.since, h.epoch]
  | none =>
    refine ⟨(h.renew thread).attach _ thread, ?_⟩
    simp [InputStream.enroll, Call.since, h.epoch]

/-- A read is released on both streams or on neither. -/
theorem released_eq (h : Renewed resets used new) (call : Call) :
    used.released (call.since resets) = new.released call := by
  have epoch : (call.epoch + resets != new.epoch + resets) = (call.epoch != new.epoch) := by
    simp [bne]
  simp only [InputStream.released, h.cancelled, h.epoch, Call.since, epoch]

/-- **A reader's section is the same on both streams.** -/
theorem advance (h : Renewed resets used new) (call : Call) :
    Renewed resets (used.advance (call.since resets)).1 (new.advance call).1 ∧
      (used.advance (call.since resets)).2 = (new.advance call).2 := by
  have released := h.released_eq call
  have served : call.demand.serve used.skipLF used.buffer =
      call.demand.serve new.skipLF new.buffer := by rw [h.buffer, h.skipLF]
  have closed := h.isClosed_eq
  have ways := new.advances call
  generalize new.advance call = advanced at ways ⊢
  cases ways with
  | released hr =>
    rw [advance_of_released (released.trans hr)]
    exact ⟨h.retire call.handle, rfl⟩
  | complete hr hc =>
    rw [advance_of_complete (released.trans hr) (served ▸ hc)]
    simp only [since_demand, since_handle, since_taken, served]
    exact ⟨(h.serve call.demand).retire call.handle, trivial⟩
  | drained hr hc hg =>
    rw [advance_of_drained (released.trans hr) (served ▸ hc) (closed.trans hg)]
    simp only [since_demand, since_handle, since_given, since_soFar, served]
    exact ⟨(h.serve call.demand).retire call.handle, trivial⟩
  | waiting hr hc hg =>
    rw [advance_of_waiting (released.trans hr) (served ▸ hc) (closed.trans hg)]
    simp only [since_demand, since_given, served]
    exact ⟨(h.serve call.demand).enlist _, trivial⟩

/-! ### Sections -/

theorem append (h : Renewed resets used new) (text : Text) :
    Renewed resets (used.append text).1 (new.append text).1 := by
  simp only [InputStream.append, h.isClosed_eq]
  split_ifs
  · exact h
  · exact h
  · exact wake { h with buffer := congrArg (· ++ text) h.buffer }

theorem close (h : Renewed resets used new) :
    Renewed resets used.close.1 new.close.1 := by
  simp only [InputStream.close, h.isClosed_eq]
  split_ifs
  · exact h
  · exact wake { h with gate := rfl }

theorem clear (h : Renewed resets used new) :
    Renewed resets used.clear.1 new.clear.1 := by
  have epoch : used.epoch + 1 = new.epoch + 1 + resets := by
    rw [h.epoch]
    omega
  exact wake { h with buffer := rfl, gate := rfl, skipLF := rfl, epoch := epoch }

theorem start (h : Renewed resets used new) (thread : ThreadId) (demand : Demand)
    (name : Option String) :
    Renewed resets (used.perform (.start thread demand name)).1
        (new.perform (.start thread demand name)).1 ∧
      (used.perform (.start thread demand name)).2 =
        (new.perform (.start thread demand name)).2 := by
  have reading := h.isReading_eq thread
  cases idle : new.isReading thread with
  | true =>
    simp only [InputStream.perform, reading, idle, if_true]
    exact ⟨h, trivial⟩
  | false =>
    by_cases asks : demand = .chars 0
    · subst asks
      simp only [InputStream.perform, reading, idle, Bool.false_eq_true, if_false, start_of_nothing]
      exact ⟨h, trivial⟩
    · obtain ⟨enrolled, same⟩ := h.enroll thread demand name
      obtain ⟨after, ends⟩ := enrolled.advance (new.enroll thread demand name).2
      rw [perform_of_serves (.start idle asks),
        perform_of_serves (.start (reading.trans idle) asks), same, ends]
      exact ⟨after, rfl⟩

theorem resume (h : Renewed resets used new) (thread : ThreadId) :
    Renewed resets (used.perform (.resume thread)).1 (new.perform (.resume thread)).1 ∧
      (used.perform (.resume thread)).2 = (new.perform (.resume thread)).2 := by
  -- The thread's read is the same on both but for its epoch, so it runs on both or on neither.
  have same := h.callOf?_eq thread
  by_cases runs : ∃ call, new.callOf? thread = some call ∧ call.awake = true
  · obtain ⟨call, found, awake⟩ := runs
    have found' : used.callOf? thread = some (call.since resets) := by rw [same, found]; rfl
    obtain ⟨after, ends⟩ := (h.withdraw thread).advance call
    rw [perform_of_serves (.resume found awake), perform_of_serves (.resume found' awake), ends]
    exact ⟨after, rfl⟩
  · have asleep : ∀ call, new.callOf? thread = some call → call.awake = false := fun call found =>
      Bool.eq_false_iff.mpr fun awake => runs ⟨call, found, awake⟩
    have asleep' : ∀ call, used.callOf? thread = some call → call.awake = false := by
      intro call found
      obtain ⟨other, found', rfl⟩ := Option.map_eq_some_iff.mp (same ▸ found)
      exact asleep other found'
    rw [perform_resume_of_asleep asleep, perform_resume_of_asleep asleep']
    exact ⟨h, rfl⟩

/-- **Every section comes to the same on both streams**, and the same reads end in it. -/
theorem perform (h : Renewed resets used new) (renews : Renews action) :
    Renewed resets (used.perform action).1 (new.perform action).1 ∧
      endings (used.perform action).2 = endings (new.perform action).2 := by
  cases action with
  | start thread demand name =>
    obtain ⟨after, same⟩ := h.start thread demand name
    exact ⟨after, congrArg endings same⟩
  | resume thread =>
    obtain ⟨after, same⟩ := h.resume thread
    exact ⟨after, congrArg endings same⟩
  | append text =>
    exact ⟨h.append text,
      (spares_append used text).silent.trans (spares_append new text).silent.symm⟩
  | close =>
    exact ⟨h.close, (spares_of_signals .close).silent.trans (spares_of_signals .close).silent.symm⟩
  | clear => exact ⟨h.clear, rfl⟩
  | interrupt | flag | alert => exact renews.elim

/-- So does every schedule. -/
theorem run (h : Renewed resets used new) {actions : List Action}
    (renews : ∀ action ∈ actions, Renews action) :
    Renewed resets (used.run actions).1 (new.run actions).1 := by
  induction actions generalizing used new with
  | nil => exact h
  | cons action actions ih =>
    obtain ⟨first, rest⟩ := List.forall_mem_cons.mp renews
    exact ih (h.perform first).1 rest

end Renewed

end LineConsole.InputStream
