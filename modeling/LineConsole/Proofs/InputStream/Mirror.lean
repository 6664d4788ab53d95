import LineConsole.Proofs.InputStream.Release
import LineConsole.Proofs.InputStream.Waking

/-!
# A used stream and a new one

A stream that was reset is compared with a new one. The used stream has been reset more often, reads
from before the reset have yet to run and to end, handles have been used and cancelled, and whoever
cancels an old handle wakes readers whom nobody would have woken on the new stream.

What can be told from outside is the same: text, gate, skipping, the reads that began since, and
what is known of their handles. Here it is shown section by section that it stays the same. A read
from before the reset ends without a trace, and a read that was woken for nothing goes back to
sleep.

## Main definitions

* `InputStream.lingers` — a thread has yet to end a read from before a reset
* `InputStream.Unheard` — a handle that nobody has used or cancelled
* `InputStream.standing` — what a stream knows of a handle
* `InputStream.Mirrors` — a used stream and a new one cannot be told apart

## Main results

* `Mirrors.advance` — a reader's section is the same on both
* `Mirrors.append`, `close`, `clear`, `flag`, `alert`, `interrupt`, `start` — so are the others
* `Mirrors.resume_of_lingers`, `Mirrors.resume_of_ended` — and so is a waking, of a reader from
  before the reset and of another
-/

namespace LineConsole.InputStream

/-- A thread has a read in progress that began before the stream had been reset so often. -/
def lingers (s : InputStream) (resets : Nat) (thread : ThreadId) : Bool :=
  (s.callOf? thread).any fun call => call.epoch < resets

theorem lingers_zero (s : InputStream) (thread : ThreadId) : s.lingers 0 thread = false := by
  simp [lingers]

/-- Nobody has read through a named handle, and nobody has cancelled it. -/
structure Unheard (s : InputStream) (name : String) : Prop where
  unused : s.owners.lookup (.named name) = none
  uncancelled : .named name ∉ s.cancelled
  unflagged : name ∉ s.cancelling

/-- The read, as it is on a stream that was reset so many times more. -/
def Call.since (resets : Nat) (call : Call) : Call := { call with epoch := call.epoch + resets }

/-- What a stream knows of a handle: whether it is in use, whether it is cancelled, and who used it
last. -/
structure Standing where
  waits : Bool
  cancelled : Bool
  owner : Option ThreadId

/-- What the stream knows of the handle. The order in which handles are listed is not part of it. -/
def standing (s : InputStream) (handle : Handle) : Standing :=
  ⟨s.waiters.contains handle, s.cancelled.contains handle, s.owners.lookup handle⟩

/-- What a thread reads on the used stream and on the new one: nothing, or a read that lingers and
nothing, or the same on both, except that somebody may have woken the one on the used stream. -/
inductive Pairs (s : InputStream) : Option Call → Option Call → Prop
  | neither : Pairs s none none
  | lingers {call : Call} : call.epoch < s.epoch + 1 →
      (∀ name, call.handle = .named name → ¬ s.Unheard name) → Pairs s (some call) none
  | both {call call' : Call} : (call.since (s.epoch + 1)).Roused call' →
      (∀ name, call.handle = .named name → s.Unheard name) → Pairs s (some call') (some call)

/-- A stream that has been used since a reset of `s`, and a new one that has been used in the same
way, cannot be told apart. -/
structure Mirrors (s used new : InputStream) : Prop where
  buffer : used.buffer = new.buffer
  gate : used.gate = new.gate
  skipLF : used.skipLF = new.skipLF
  epoch : used.epoch = new.epoch + (s.epoch + 1)
  reads : ∀ thread, s.Pairs (used.callOf? thread) (new.callOf? thread)
  /-- Both know the same of the handles in use. A thread's own handle may have been used on the used
  stream before, so nothing is said of it while the thread does not read. -/
  handles : ∀ thread call, new.callOf? thread = some call →
    used.standing call.handle = new.standing call.handle
  names : ∀ name, s.Unheard name → used.standing (.named name) = new.standing (.named name)
  flags : ∀ name, s.Unheard name → used.cancelling.count name = new.cancelling.count name
  /-- Nobody reads on the new stream through a handle from before the reset. -/
  foreign : ∀ name, ¬ s.Unheard name → new.owners.lookup (.named name) = none

variable {s used new : InputStream} {call call' : Call} {thread : ThreadId} {handle : Handle}

section Standing

variable (s : InputStream) (handle other : Handle) (thread : ThreadId)

theorem standing_attach : (s.attach other thread).standing handle =
    if handle = other then ⟨true, (s.standing handle).cancelled, some thread⟩
    else s.standing handle := by
  by_cases same : handle = other <;> simp [standing, attach, lookup_attach, same]

theorem standing_retire : (s.retire other).standing handle =
    if handle = other then { s.standing handle with waits := false } else s.standing handle := by
  by_cases same : handle = other <;> simp [standing, retire, same]

theorem standing_renew : (s.renew thread).standing handle =
    if handle = .own thread then { s.standing handle with cancelled := false }
    else s.standing handle := by
  by_cases same : handle = .own thread <;> simp [standing, renew, same]

end Standing

/-- Whether a read has been woken makes no difference to its section. -/
theorem advance_wake (s : InputStream) (call : Call) : s.advance call.wake = s.advance call := rfl

section Since

variable (resets : Nat) (call : Call) (text : Text)

@[simp] theorem since_thread : (call.since resets).thread = call.thread := rfl

@[simp] theorem since_handle : (call.since resets).handle = call.handle := rfl

@[simp] theorem since_demand : (call.since resets).demand = call.demand := rfl

@[simp] theorem since_taken : (call.since resets).taken = call.taken := rfl

@[simp] theorem since_soFar : (call.since resets).soFar = call.soFar := rfl

@[simp] theorem since_given : (call.since resets).given text = (call.given text).since resets := rfl

end Since

namespace Pairs

variable {read read' : Option Call}

theorem wake (h : s.Pairs read read') : s.Pairs (read.map Call.wake) (read'.map Call.wake) := by
  cases h with
  | neither => exact .neither
  | lingers before old => exact .lingers before old
  | both same fresh =>
    exact .both (.inl same.wake_eq) fresh

/-- On the used stream somebody may wake the reads who would wake nobody on the new one. -/
theorem wakeUsed (h : s.Pairs read read') : s.Pairs (read.map Call.wake) read' := by
  cases h with
  | neither => exact .neither
  | lingers before old => exact .lingers before old
  | both same fresh =>
    exact .both (.inr same.wake_eq) fresh

end Pairs

namespace Mirrors

theorem wake (h : s.Mirrors used new) : s.Mirrors used.wakeAll new.wakeAll := by
  refine { h with reads := fun thread => ?_, handles := fun thread call reads => ?_ }
  · rw [callOf?_wakeAll, callOf?_wakeAll]
    exact (h.reads thread).wake
  · rw [callOf?_wakeAll] at reads
    obtain ⟨sleeper, found, rfl⟩ := Option.map_eq_some_iff.mp reads
    exact h.handles thread sleeper found

theorem wakeUsed (h : s.Mirrors used new) : s.Mirrors used.wakeAll new := by
  refine { h with reads := fun thread => ?_ }
  rw [callOf?_wakeAll]
  exact (h.reads thread).wakeUsed

/-! ### What a section is made of -/

/-- A pass over the buffer is the same on both streams. -/
theorem serve (h : s.Mirrors used new) (demand : Demand) :
    s.Mirrors (used.serve demand) (new.serve demand) := by
  have served : demand.serve used.skipLF used.buffer = demand.serve new.skipLF new.buffer := by
    rw [h.buffer, h.skipLF]
  exact { h with
    buffer := congrArg Serving.rest served
    skipLF := congrArg Serving.skipLF served }

theorem retire (h : s.Mirrors used new) (handle : Handle) :
    s.Mirrors (used.retire handle) (new.retire handle) := by
  refine { h with
    handles := fun thread call reads => ?_
    names := fun name fresh => ?_ }
  · rw [standing_retire, standing_retire, h.handles thread call reads]
  · rw [standing_retire, standing_retire, h.names name fresh]

theorem withdraw (h : s.Mirrors used new) (thread : ThreadId) :
    s.Mirrors (used.withdraw thread) (new.withdraw thread) := by
  refine { h with
    reads := fun other => ?_
    handles := fun other call reads => ?_ }
  · by_cases same : other = thread
    · rw [same, callOf?_withdraw, callOf?_withdraw]
      exact .neither
    · rw [callOf?_withdraw_of_ne same, callOf?_withdraw_of_ne same]
      exact h.reads other
  · have ne : other ≠ thread := by
      rintro rfl
      simp at reads
    rw [callOf?_withdraw_of_ne ne] at reads
    exact h.handles other call reads

theorem enlist (h : s.Mirrors used new) (idle : used.callOf? call.thread = none)
    (idle' : new.callOf? call.thread = none)
    (same : used.standing call.handle = new.standing call.handle)
    (fresh : ∀ name, call.handle = .named name → s.Unheard name) :
    s.Mirrors (used.enlist (call.since (s.epoch + 1))) (new.enlist call) := by
  refine { h with
    reads := fun thread => ?_
    handles := fun thread other reads => ?_ }
  · by_cases own : call.thread = thread
    · subst own
      have found := callOf?_enlist (call.since (s.epoch + 1)) idle
      rw [since_thread] at found
      rw [found, callOf?_enlist call idle']
      exact .both (.inl rfl) fresh
    · rw [callOf?_enlist_of_ne call own, callOf?_enlist_of_ne (call.since (s.epoch + 1)) own]
      exact h.reads thread
  · by_cases own : call.thread = thread
    · subst own
      rw [callOf?_enlist call idle'] at reads
      cases reads
      exact same
    · rw [callOf?_enlist_of_ne call own] at reads
      exact h.handles thread other reads

theorem attach (h : s.Mirrors used new) {handle : Handle}
    (fresh : ∀ name, handle = .named name → s.Unheard name) (thread : ThreadId) :
    s.Mirrors (used.attach handle thread) (new.attach handle thread) := by
  refine { h with
    handles := fun other call reads => ?_
    names := fun name unheard => ?_
    foreign := fun name old => ?_ }
  · rw [standing_attach, standing_attach, h.handles other call reads]
  · rw [standing_attach, standing_attach, h.names name unheard]
  · have ne : .named name ≠ handle := fun same => old (fresh name same.symm)
    simp only [InputStream.attach, lookup_attach, if_neg ne]
    exact h.foreign name old

theorem renew (h : s.Mirrors used new) (thread : ThreadId) :
    s.Mirrors (used.renew thread) (new.renew thread) := by
  refine { h with
    handles := fun other call reads => ?_
    names := fun name unheard => ?_ }
  · rw [standing_renew, standing_renew, h.handles other call reads]
  · rw [standing_renew, standing_renew, h.names name unheard]

/-- A thread's new read is the same on both streams, and both know the same of its handle. -/
theorem enroll (h : s.Mirrors used new) (thread : ThreadId) (demand : Demand) {name : Option String}
    (fresh : ∀ x, name = some x → s.Unheard x) :
    s.Mirrors (used.enroll thread demand name).1 (new.enroll thread demand name).1 ∧
      (used.enroll thread demand name).2 =
        (new.enroll thread demand name).2.since (s.epoch + 1) ∧
      (used.enroll thread demand name).1.standing (new.enroll thread demand name).2.handle =
        (new.enroll thread demand name).1.standing (new.enroll thread demand name).2.handle ∧
      ∀ x, (new.enroll thread demand name).2.handle = .named x → s.Unheard x := by
  cases name with
  | some name =>
    have unheard := fresh name rfl
    have named : ∀ x, Handle.named name = .named x → s.Unheard x := by
      rintro x ⟨⟩
      exact unheard
    refine ⟨h.attach named thread, ?_, ?_, named⟩
    · simp [InputStream.enroll, Call.since, h.epoch]
    · simp only [InputStream.enroll, standing_attach, h.names name unheard]
  | none =>
    refine ⟨(h.renew thread).attach (by simp) thread, ?_, ?_, by simp [InputStream.enroll]⟩
    · simp [InputStream.enroll, Call.since, h.epoch]
    · simp only [InputStream.enroll, standing_attach, standing_renew, if_true]

theorem isClosed_eq (h : s.Mirrors used new) : used.isClosed = new.isClosed := by
  rw [isClosed, h.gate, ← isClosed]

/-- A read is released on both streams or on neither. -/
theorem released_eq (h : s.Mirrors used new)
    (same : used.standing call.handle = new.standing call.handle) :
    used.released (call.since (s.epoch + 1)) = new.released call := by
  have cancelled : used.cancelled.contains call.handle = new.cancelled.contains call.handle :=
    congrArg Standing.cancelled same
  have epoch : (call.epoch + (s.epoch + 1) != new.epoch + (s.epoch + 1)) =
      (call.epoch != new.epoch) := by simp [bne]
  simp only [InputStream.released, since_handle, cancelled, h.epoch]
  exact congrArg _ epoch

/-- **A reader's section is the same on both streams.** -/
theorem advance (h : s.Mirrors used new) (idle : used.callOf? call.thread = none)
    (idle' : new.callOf? call.thread = none)
    (same : used.standing call.handle = new.standing call.handle)
    (fresh : ∀ name, call.handle = .named name → s.Unheard name) :
    s.Mirrors (used.advance (call.since (s.epoch + 1))).1 (new.advance call).1 ∧
      (used.advance (call.since (s.epoch + 1))).2 = (new.advance call).2 := by
  have released := h.released_eq same
  have served : call.demand.serve used.skipLF used.buffer =
      call.demand.serve new.skipLF new.buffer := by rw [h.buffer, h.skipLF]
  have closed := h.isClosed_eq
  cases hr : new.released call with
  | true =>
    rw [advance_of_released hr, advance_of_released (released.trans hr)]
    exact ⟨h.retire call.handle, rfl⟩
  | false =>
    rw [← released] at hr
    cases hc : (call.demand.serve new.skipLF new.buffer).complete with
    | true =>
      rw [advance_of_complete (released ▸ hr) hc, advance_of_complete hr (served ▸ hc)]
      simp only [since_demand, since_handle, since_taken, served]
      exact ⟨(h.serve call.demand).retire call.handle, trivial⟩
    | false =>
      cases hg : new.isClosed with
      | true =>
        rw [advance_of_drained (released ▸ hr) hc hg,
          advance_of_drained hr (served ▸ hc) (closed.trans hg)]
        simp only [since_demand, since_handle, since_given, since_soFar, served]
        exact ⟨(h.serve call.demand).retire call.handle, trivial⟩
      | false =>
        rw [advance_of_waiting (released ▸ hr) hc hg,
          advance_of_waiting hr (served ▸ hc) (closed.trans hg)]
        simp only [since_demand, since_given, served]
        exact ⟨(h.serve call.demand).enlist idle idle' same fresh, trivial⟩

/-! ### Who reads -/

/-- A read on the new stream is there on the used one. -/
theorem pair (h : s.Mirrors used new) (reads : new.callOf? thread = some call) :
    (∃ call', used.callOf? thread = some call' ∧ (call.since (s.epoch + 1)).Roused call') ∧
      ∀ name, call.handle = .named name → s.Unheard name := by
  have pairs := h.reads thread
  rw [reads] at pairs
  generalize used.callOf? thread = read at pairs
  cases pairs with
  | both same fresh => exact ⟨⟨_, rfl, same⟩, fresh⟩

/-- A thread with a read on the new stream does not linger. -/
theorem lingers_eq (h : s.Mirrors used new) (thread : ThreadId) :
    used.lingers (s.epoch + 1) thread = (used.isReading thread && !new.isReading thread) := by
  have pairs := h.reads thread
  simp only [lingers, isReading]
  generalize used.callOf? thread = read at pairs
  generalize new.callOf? thread = read' at pairs
  cases pairs with
  | neither => rfl
  | lingers before => exact decide_eq_true before
  | @both call call' same =>
    have after : call'.epoch = call.epoch + (s.epoch + 1) := same.epoch_eq
    exact decide_eq_false (by omega)

/-- A thread that does not linger reads on both streams or on neither. -/
theorem isReading_eq (h : s.Mirrors used new)
    (ended : used.lingers (s.epoch + 1) thread = false) :
    used.isReading thread = new.isReading thread := by
  have pairs := h.reads thread
  simp only [lingers, isReading] at ended ⊢
  generalize used.callOf? thread = read at pairs ended ⊢
  generalize new.callOf? thread = read' at pairs ended ⊢
  cases pairs with
  | neither => rfl
  | lingers before => exact absurd before (of_decide_eq_false ended)
  | both => rfl

/-! ### Sections that do not read -/

theorem append (h : s.Mirrors used new) (text : Text) :
    s.Mirrors (used.append text).1 (new.append text).1 ∧
      (used.append text).2 = (new.append text).2 := by
  by_cases ht : text = []
  · subst ht
    exact ⟨h, rfl⟩
  · have closed := h.isClosed_eq
    cases hg : new.isClosed with
    | true =>
      simp only [InputStream.append, ht, closed, hg, if_true, if_false]
      exact ⟨h, trivial⟩
    | false =>
      simp only [InputStream.append, ht, closed, hg, Bool.false_eq_true, if_false]
      refine ⟨wake { h with buffer := ?_ }, trivial⟩
      rw [h.buffer]

theorem close (h : s.Mirrors used new) :
    s.Mirrors used.close.1 new.close.1 ∧ used.close.2 = new.close.2 := by
  have closed := h.isClosed_eq
  cases hg : new.isClosed with
  | true =>
    simp only [InputStream.close, closed, hg, if_true]
    exact ⟨h, trivial⟩
  | false =>
    simp only [InputStream.close, closed, hg, Bool.false_eq_true, if_false, available, h.buffer]
    exact ⟨wake { h with buffer := rfl, gate := rfl }, trivial⟩

theorem clear (h : s.Mirrors used new) : s.Mirrors used.clear.1 new.clear.1 := by
  refine wake { h with
    buffer := rfl
    gate := rfl
    skipLF := rfl
    epoch := ?_ }
  have epoch := h.epoch
  simp only
  omega

theorem flag (h : s.Mirrors used new) (name : String) :
    s.Mirrors (used.flag name) (new.flag name) := by
  have standing_flag (s : InputStream) (handle : Handle) : (s.flag name).standing handle =
      if handle = .named name then { s.standing handle with cancelled := true }
      else s.standing handle := by
    by_cases same : handle = .named name <;> simp [standing, InputStream.flag, same]
  refine { h with
    handles := fun thread call reads => ?_
    names := fun other fresh => ?_
    flags := fun other fresh => ?_ }
  · rw [standing_flag, standing_flag, h.handles thread call reads]
  · rw [standing_flag, standing_flag, h.names other fresh]
  · simp only [InputStream.flag, List.count_cons, h.flags other fresh]

/-- Whoever cancels an old handle wakes the reads of the used stream only. -/
theorem alert (h : s.Mirrors used new) (name : String) :
    s.Mirrors (used.alert name) (new.alert name) := by
  have struck : s.Mirrors { used with cancelling := used.cancelling.erase name }
      { new with cancelling := new.cancelling.erase name } := by
    refine { h with flags := fun other fresh => ?_ }
    simp only [List.count_erase, h.flags other fresh]
  have wakes : name ∈ new.cancelling ∧ (new.owners.lookup (.named name)).isSome = true →
      name ∈ used.cancelling ∧ (used.owners.lookup (.named name)).isSome = true := by
    rintro ⟨raised, known⟩
    have fresh : s.Unheard name := by
      by_contra old
      simp [h.foreign name old] at known
    have owner := congrArg Standing.owner (h.names name fresh)
    simp only [standing] at owner
    refine ⟨?_, owner ▸ known⟩
    rw [← List.count_pos_iff] at raised ⊢
    rwa [h.flags name fresh]
  rw [alert_eq, alert_eq]
  split_ifs with hu hn hn
  · exact struck.wake
  · exact struck.wakeUsed
  · exact absurd (wakes hn) hu
  · exact struck

/-- An interrupt reaches the same handles on both streams. -/
theorem interruptible_perm (h : s.Mirrors used new) (hu : used.Reachable) (hn : new.Reachable)
    (ended : used.lingers (s.epoch + 1) thread = false) :
    (used.interruptible thread).Perm (new.interruptible thread) := by
  have mem_iff (s : InputStream) (handle : Handle) :
      handle ∈ s.interruptible thread ↔ s.standing handle = ⟨true, false, some thread⟩ := by
    simp [interruptible, standing, and_comm]
  have same {handle : Handle} (mem : handle ∈ used.interruptible thread ∨
      handle ∈ new.interruptible thread) : used.standing handle = new.standing handle := by
    rcases mem with mem | mem
    · obtain ⟨call', reads', rfl⟩ := hu.reads_of_interruptible mem
      have reading : new.isReading thread = true := by
        simpa [h.lingers_eq, isReading, reads'] using ended
      obtain ⟨call, reads⟩ := isReading_iff.mp reading
      obtain ⟨⟨other, found, same⟩, -⟩ := h.pair reads
      obtain rfl := Option.some.inj (reads'.symm.trans found)
      rw [same.handle_eq]
      exact h.handles thread call reads
    · obtain ⟨call, reads, rfl⟩ := hn.reads_of_interruptible mem
      exact h.handles thread call reads
  have once {s : InputStream} (hs : s.Reachable) : (s.interruptible thread).Nodup :=
    hs.roster.once.filter _
  apply (List.perm_ext_iff_of_nodup (once hu) (once hn)).mpr
  intro handle
  constructor
  · intro mem
    rw [mem_iff, ← same (.inl mem)]
    exact (mem_iff used handle).mp mem
  · intro mem
    rw [mem_iff, same (.inr mem)]
    exact (mem_iff new handle).mp mem

theorem interrupt (h : s.Mirrors used new) (hu : used.Reachable) (hn : new.Reachable)
    (ended : used.lingers (s.epoch + 1) thread = false) :
    s.Mirrors (used.interrupt thread).1 (new.interrupt thread).1 ∧
      (used.interrupt thread).2 = (new.interrupt thread).2 := by
  -- The same handles are cancelled, though they may be listed in another order.
  have perm := h.interruptible_perm hu hn ended
  by_cases nobody : new.interruptible thread = []
  · rw [interrupt_of_nil nobody, interrupt_of_nil (List.perm_nil.mp (nobody ▸ perm))]
    exact ⟨h, rfl⟩
  · have somebody : used.interruptible thread ≠ [] := fun nil =>
      nobody (List.nil_perm.mp (nil ▸ perm))
    rw [interrupt_of_ne_nil nobody, interrupt_of_ne_nil somebody, perm.length_eq]
    have standing_cancel (s : InputStream) (handles : List Handle) (handle : Handle) :
        ({ s with cancelled := handles ++ s.cancelled } : InputStream).standing handle =
          { s.standing handle with
            cancelled := handles.contains handle || (s.standing handle).cancelled } := by
      simp [standing]
    refine ⟨wake { h with
      handles := fun other call reads => ?_
      names := fun name fresh => ?_ }, rfl⟩
    · rw [standing_cancel, standing_cancel, h.handles other call reads, perm.contains_eq]
    · rw [standing_cancel, standing_cancel, h.names name fresh, perm.contains_eq]

/-! ### Sections that read -/

/-- A read that lingers leaves when its thread runs, and nothing else happens. -/
theorem leave (h : s.Mirrors used new) (hu : used.Reachable) (hn : new.Reachable)
    (lingers : used.callOf? thread = some call) (gone : new.callOf? thread = none)
    (old : ∀ name, call.handle = .named name → ¬ s.Unheard name) :
    s.Mirrors ((used.withdraw thread).retire call.handle) new := by
  refine { h with
    reads := fun other => ?_
    handles := fun other call' reads => ?_
    names := fun name fresh => ?_ }
  · rw [callOf?_retire]
    by_cases same : other = thread
    · rw [same, callOf?_withdraw, gone]
      exact .neither
    · rw [callOf?_withdraw_of_ne same]
      exact h.reads other
  · have ne : call'.handle ≠ call.handle := by
      intro same
      cases handle : call.handle with
      | named name => exact old name handle ((h.pair reads).2 name (same.trans handle))
      | own owner =>
        -- A handle of a thread's own would be that of two threads.
        have mine := (hu.ongoing lingers).own owner handle
        have yours := (hn.ongoing reads).own owner (same.trans handle)
        rw [← yours, mine, gone] at reads
        simp at reads
    rw [standing_retire, if_neg ne]
    exact h.handles other call' reads
  · have ne : .named name ≠ call.handle := fun same => old name same.symm fresh
    rw [standing_retire, if_neg ne]
    exact h.names name fresh

theorem start (h : s.Mirrors used new) (demand : Demand) {name : Option String}
    (ended : used.lingers (s.epoch + 1) thread = false)
    (fresh : ∀ x, name = some x → s.Unheard x) :
    s.Mirrors (used.perform (.start thread demand name)).1
        (new.perform (.start thread demand name)).1 ∧
      (used.perform (.start thread demand name)).2 =
        (new.perform (.start thread demand name)).2 := by
  have reading := h.isReading_eq ended
  cases idle : new.isReading thread with
  | true =>
    simp only [perform, reading, idle, if_true]
    exact ⟨h, trivial⟩
  | false =>
    by_cases asks : demand = .chars 0
    · subst asks
      simp only [perform, reading, idle, Bool.false_eq_true, if_false, start_of_nothing]
      exact ⟨h, trivial⟩
    · obtain ⟨enrolled, same, standing, named⟩ := h.enroll thread demand fresh
      have silent {s : InputStream} (idle : s.isReading thread = false) :
          (s.enroll thread demand name).1.callOf? thread = none := by
        simpa [isReading, callOf?] using idle
      rw [perform_of_serves (.start idle asks),
        perform_of_serves (.start (reading.trans idle) asks), same]
      obtain ⟨mirrors, ends⟩ := enrolled.advance
        (by rw [enroll_thread]; exact silent (reading.trans idle))
        (by rw [enroll_thread]; exact silent idle) standing named
      rw [ends]
      exact ⟨mirrors, rfl⟩

/-- A read that nobody has woken on the new stream, and somebody has on the used one, was woken for
nothing and goes back to sleep. -/
theorem oversleep (h : s.Mirrors used new) (patient : new.Patient)
    (reads : new.callOf? thread = some call) (asleep : call.awake = false)
    (woken : used.callOf? thread = some (call.since (s.epoch + 1)).wake)
    (settled : ∀ name, call.handle = .named name → name ∉ used.cancelling) :
    s.Mirrors (used.perform (.resume thread)).1 new ∧ (used.perform (.resume thread)).2 = [] := by
  have fresh := (h.pair reads).2
  obtain ⟨drained, opened, current, uncancelled⟩ := patient call (mem_of_callOf? reads) asleep
  have kept : call.handle ∉ new.cancelled := by
    intro mem
    obtain ⟨name, pending, handle⟩ := uncancelled mem
    apply settled name handle
    rw [← List.count_pos_iff] at pending ⊢
    rwa [h.flags name (fresh name handle)]
  have released : (used.withdraw thread).released (call.since (s.epoch + 1)) = false := by
    refine (h.released_eq (h.handles thread call reads)).trans ?_
    simp [InputStream.released, kept, current]
  have empty : (used.withdraw thread).buffer = [] := h.buffer.trans drained
  have open' : (used.withdraw thread).isClosed = false := h.isClosed_eq.trans opened
  have sleeps : { call.since (s.epoch + 1) with awake := false } = call.since (s.epoch + 1) := by
    simp [Call.since, ← asleep]
  rw [perform_of_serves (.resume woken rfl), advance_wake, Desk.advance_of_nil released empty,
    open', if_neg Bool.false_ne_true, sleeps]
  refine ⟨{ h with reads := fun other => ?_ }, rfl⟩
  obtain rfl := thread_of_callOf? reads
  by_cases own : call.thread = other
  · subst own
    have found := callOf?_enlist (call.since (s.epoch + 1)) (callOf?_withdraw (s := used))
    rw [since_thread] at found
    rw [found, reads]
    exact .both (.inl rfl) fresh
  · rw [callOf?_enlist_of_ne (call.since (s.epoch + 1)) own, callOf?_withdraw_of_ne (Ne.symm own)]
    exact h.reads other

/-- When the thread of a read that lingers runs, nothing happens on the new stream. -/
theorem resume_of_lingers (h : s.Mirrors used new) (hu : used.Reachable) (hn : new.Reachable)
    (lingers : used.lingers (s.epoch + 1) thread = true) :
    s.Mirrors (used.perform (.resume thread)).1 new ∧
      new.perform (.resume thread) = (new, []) := by
  rw [h.lingers_eq, Bool.and_eq_true, Bool.not_eq_true'] at lingers
  obtain ⟨call, reads⟩ := isReading_iff.mp lingers.1
  have gone : new.callOf? thread = none := by simpa [isReading] using lingers.2
  refine ⟨?_, perform_resume_of_asleep (by simp [gone])⟩
  have pairs := h.reads thread
  rw [reads, gone] at pairs
  cases pairs with
  | lingers before old =>
    cases awake : call.awake with
    | false =>
      rw [perform_resume_of_asleep (by simp [reads, awake])]
      exact h
    | true =>
      have epoch := h.epoch
      have released : used.released call = true := released_iff.mpr (.inr (by omega))
      rw [resume_of_released reads awake released]
      exact h.leave hu hn reads gone old

/-- When another thread runs, the same happens on both streams, unless the handle of its read is
flagged and the alert is still to come. -/
theorem resume_of_ended (h : s.Mirrors used new) (hn : new.Reachable)
    (ended : used.lingers (s.epoch + 1) thread = false)
    (settled : ∀ call name, used.callOf? thread = some call → call.handle = .named name →
      name ∉ used.cancelling) :
    s.Mirrors (used.perform (.resume thread)).1 (new.perform (.resume thread)).1 ∧
      (used.perform (.resume thread)).2 = (new.perform (.resume thread)).2 := by
  cases reads : new.callOf? thread with
  | none =>
    have gone : used.callOf? thread = none := by
      simpa [isReading, reads] using h.isReading_eq ended
    rw [perform_resume_of_asleep (s := new) (by simp [reads]),
      perform_resume_of_asleep (s := used) (by simp [gone])]
    exact ⟨h, rfl⟩
  | some call =>
    obtain ⟨⟨call', reads', same⟩, fresh⟩ := h.pair reads
    cases awake : call.awake with
    | true =>
      obtain rfl : call' = call.since (s.epoch + 1) := same.eq_of_awake awake
      have gone {s : InputStream} : (s.withdraw thread).callOf? call.thread = none := by
        rw [thread_of_callOf? reads, callOf?_withdraw]
      have standing := h.handles thread call reads
      obtain ⟨mirrors, ends⟩ := (h.withdraw thread).advance gone gone standing fresh
      rw [perform_of_serves (.resume reads awake), perform_of_serves (.resume reads' awake), ends]
      exact ⟨mirrors, rfl⟩
    | false =>
      rw [perform_resume_of_asleep (s := new) (by simp [reads, awake])]
      -- Somebody may have woken it on the used stream only.
      rcases same with rfl | rfl
      · rw [perform_resume_of_asleep (by simp [reads', Call.since, awake])]
        exact ⟨h, rfl⟩
      · exact h.oversleep hn.patient reads awake reads' fun name handle =>
          settled _ name reads' handle

end Mirrors

/-- Right after the reset the streams cannot be told apart. -/
theorem Reachable.mirrors_clear (h : s.Reachable) : s.Mirrors s.clear.1 {} where
  buffer := rfl
  gate := rfl
  skipLF := rfl
  epoch := (Nat.zero_add _).symm
  reads thread := by
    have woken : s.clear.1.callOf? thread = (s.callOf? thread).map Call.wake :=
      callOf?_wakeAll (s := s)
    rw [woken]
    cases reads : s.callOf? thread with
    | none => exact .neither
    | some call =>
      have mem := mem_of_callOf? reads
      have before : call.epoch < s.epoch + 1 := Nat.lt_succ_of_le (h.epoch_le mem)
      refine .lingers before fun name handle unheard => ?_
      have known := h.roster.known call mem
      have named : call.handle = .named name := handle
      rw [named, unheard.unused] at known
      simp at known
  handles thread call reads := by simp [callOf?] at reads
  names name unheard := by
    have waits : .named name ∉ s.waiters := fun mem => by
      obtain ⟨call, -, -, owner⟩ := h.roster.owned _ mem
      simp [unheard.unused] at owner
    simp [standing, clear, wakeAll, waits, unheard.unused, unheard.uncancelled]
  flags name unheard := by
    simp [clear, wakeAll, List.count_eq_zero_of_not_mem unheard.unflagged]
  foreign name old := rfl

end LineConsole.InputStream
