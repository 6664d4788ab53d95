import LineConsole.Proofs.InputStream.Waking

/-!
# Handles and the reads that use them

An interrupt looks for reads by their handles: it goes through the handles in use, each of which
remembers the thread that used it last. Here it is shown when this finds the read of a thread. It
does, unless the handle of the read was that of another read in progress as well, some time since
the read began: then the other thread may have been the last to use it, or the first to end may have
put it out of use. A handle of the read's own is never shared.

A handle may be used by one read after the other, also of different threads, and this does no harm.

## Main definitions

* `InputStream.Registered` — an interrupt finds the read
* `Desk.Shares`, `Desk.HasShared` — a thread shares the handle of its read, or has done so
* `InputStream.Orderly` — what every section preserves: the roster is right, and nobody sleeps who
  has something to do

## Main results

* `Desk.registered_goes` — what a move can do to a read that an interrupt finds
* `Desk.registered_or_hasShared` — a read is found, unless it has shared its handle
* `InputStream.interruptible_of_registered` — whom an interrupt reaches
-/

namespace LineConsole

namespace InputStream

/-- The handle of the read is in use, and its thread was the last to use it. -/
structure Registered (s : InputStream) (call : Call) : Prop where
  waits : call.handle ∈ s.waiters
  owner : s.owners.lookup call.handle = some call.thread

variable {s s' : InputStream} {call call' : Call} {thread : ThreadId}

theorem Registered.of_same (h : s.Registered call) (waiters : s'.waiters = s.waiters)
    (owners : s'.owners = s.owners) (handle : call'.handle = call.handle)
    (thread : call'.thread = call.thread) : s'.Registered call' :=
  ⟨by rw [waiters, handle]; exact h.waits, by rw [owners, handle, thread]; exact h.owner⟩

theorem registered_enroll (s : InputStream) (thread : ThreadId) (demand : Demand)
    (name : Option String) :
    (s.enroll thread demand name).1.Registered (s.enroll thread demand name).2 := by
  constructor <;> simp

/-- The start of another read leaves a read registered, unless it goes through the same handle. -/
theorem Registered.enroll (h : s.Registered call) {demand : Demand} {name : Option String}
    (other : call.handle ≠ (s.enroll thread demand name).2.handle) :
    (s.enroll thread demand name).1.Registered call := by
  refine ⟨?_, ?_⟩
  · rw [enroll_waiters]
    exact List.mem_insert_of_mem h.waits
  · rw [enroll_owners, lookup_attach, if_neg other]
    exact h.owner

/-- So does the end of another read. -/
theorem Registered.retire (h : s.Registered call) {handle : Handle} (other : call.handle ≠ handle) :
    (s.retire handle).Registered call :=
  ⟨List.mem_filter.mpr ⟨h.waits, by simpa using other⟩, h.owner⟩

/-! ## Whom an interrupt reaches -/

theorem mem_interruptible {handle : Handle} : handle ∈ s.interruptible thread ↔
    handle ∈ s.waiters ∧ s.owners.lookup handle = some thread ∧ handle ∉ s.cancelled := by
  simp [interruptible]

/-- **An interrupt reaches a read that is registered**, unless its handle is already cancelled. -/
theorem interruptible_of_registered (roster : s.Roster s.calls)
    (found : s.callOf? thread = some call) (registered : s.Registered call) :
    s.interruptible thread = if call.handle ∈ s.cancelled then [] else [call.handle] := by
  have own := thread_of_callOf? found
  have only : ∀ handle ∈ s.interruptible thread, handle = call.handle := fun handle mem => by
    obtain ⟨other, found', same⟩ := roster.reads_of_interruptible mem
    rw [← same, Option.some.inj (found'.symm.trans found)]
  have once : (s.interruptible thread).Nodup := roster.once.filter _
  split
  next cancelled =>
    refine List.eq_nil_iff_forall_not_mem.mpr fun handle mem => ?_
    obtain rfl := only handle mem
    exact (mem_interruptible.mp mem).2.2 cancelled
  next uncancelled =>
    have mem : call.handle ∈ s.interruptible thread :=
      mem_interruptible.mpr ⟨registered.waits, own ▸ registered.owner, uncancelled⟩
    exact List.perm_singleton.mp ((List.perm_ext_iff_of_nodup once (by simp)).mpr fun handle =>
      ⟨fun h => by simp [only handle h], fun h => by rwa [List.mem_singleton.mp h]⟩)

end InputStream

namespace Desk

open InputStream

/-- A thread reads through a handle, and so does another thread. -/
def Shares (desk : Desk) (thread : ThreadId) (handle : Handle) : Prop :=
  ∃ call ∈ desk.reading, ∃ other ∈ desk.reading,
    call.thread = thread ∧ call.handle = handle ∧ other.thread ≠ thread ∧ other.handle = handle

/-- A thread has shared the handle of its read at some time since the read began: at that time the
read was in progress, and it has not ended since. -/
def HasShared (moves : List Move) (thread : ThreadId) (handle : Handle) : Prop :=
  ∃ front back, moves = front ++ back ∧ (run {} front).1.Shares thread handle ∧
    (endings (run (run {} front).1 back).2).lookup thread = none

section HasShared

variable {moves : List Move} {move : Move} {thread : ThreadId} {handle : Handle}

instance (desk : Desk) (thread : ThreadId) (handle : Handle) :
    Decidable (desk.Shares thread handle) :=
  inferInstanceAs (Decidable (∃ call ∈ desk.reading, ∃ other ∈ desk.reading,
    call.thread = thread ∧ call.handle = handle ∧ other.thread ≠ thread ∧ other.handle = handle))

theorem hasShared_iff : HasShared moves thread handle ↔ ∃ n ∈ List.range (moves.length + 1),
    (run {} (moves.take n)).1.Shares thread handle ∧
      (endings (run (run {} (moves.take n)).1 (moves.drop n)).2).lookup thread = none := by
  constructor
  · rintro ⟨front, back, rfl, shares, silent⟩
    refine ⟨front.length, List.mem_range.mpr ?_, ?_⟩
    · rw [List.length_append]
      omega
    rw [List.take_left, List.drop_left]
    exact ⟨shares, silent⟩
  · rintro ⟨n, -, shares, silent⟩
    exact ⟨moves.take n, moves.drop n, (List.take_append_drop n moves).symm, shares, silent⟩

instance : Decidable (HasShared moves thread handle) := decidable_of_iff' _ hasShared_iff

theorem Shares.hasShared (h : (run {} moves).1.Shares thread handle) :
    HasShared moves thread handle :=
  ⟨moves, [], by simp, h, rfl⟩

/-- A thread that has shared its handle has shared it until its read ends. -/
theorem HasShared.concat (h : HasShared moves thread handle)
    (unended : (endings ((run {} moves).1.step move).2).lookup thread = none) :
    HasShared (moves ++ [move]) thread handle := by
  obtain ⟨front, back, rfl, shares, silent⟩ := h
  refine ⟨front, back ++ [move], by simp, shares, ?_⟩
  rw [run_append] at unended
  rw [run_append, endings_append, List.lookup_append, silent]
  simpa [run] using unended

/-- The handle of a read's own is never shared. -/
theorem not_hasShared_own (moves : List Move) (thread owner : ThreadId) :
    ¬ HasShared moves thread (.own owner) := by
  rintro ⟨front, back, -, ⟨call, mem, other, mem', rfl, handle, apart, handle'⟩, -⟩
  have own := (roster_run front).own
  exact apart ((own other mem' owner handle').trans (own call mem owner handle).symm)

end HasShared

/-- The end of one thread's read is not that of another. -/
theorem lookup_ending {thread other : ThreadId} (h : thread ≠ other) (result : Option Text) :
    [(other, result)].lookup thread = none := by
  rw [List.lookup_cons, beq_false_of_ne h]
  rfl

/-- What was to be said of a read in progress before a move, if an interrupt does not find it after
the move: it shared its handle, or it was not found before either. -/
def Lost (desk : Desk) (now : Call) : Prop :=
  desk.Shares now.thread now.handle ∨ ∃ call ∈ desk.reading,
    call.thread = now.thread ∧ call.handle = now.handle ∧ ¬ desk.stream.Registered call

/-- Reads that were woken had their threads and handles before. -/
theorem before_of_woken {calls calls' : List Call}
    (h : calls' = calls ∨ calls' = calls.map Call.wake) :
    ∀ now ∈ calls', ∃ call ∈ calls, call.thread = now.thread ∧ call.handle = now.handle := by
  intro now mem
  rcases h with rfl | rfl
  · exact ⟨now, mem, rfl, rfl⟩
  · obtain ⟨call, among, rfl⟩ := List.mem_map.mp mem
    exact ⟨call, among, rfl, rfl⟩

/-- **A move and a read in progress after it**: an interrupt finds the read; or the read shares its
handle; or it was in progress before, and shared its handle then or was not found. -/
theorem registered_goes {desk desk' : Desk} {marks : List Mark}
    (roster : desk.stream.Roster desk.reading) (goes : Goes desk desk' marks) :
    ∀ now ∈ desk'.reading, desk'.stream.Registered now ∨ desk'.Shares now.thread now.handle ∨
      (endings marks).lookup now.thread = none ∧ desk.Lost now := by
  have of_same {desk' : Desk} {marks : List Mark} {now : Call}
      (waiters : desk'.stream.waiters = desk.stream.waiters)
      (owners : desk'.stream.owners = desk.stream.owners)
      (silent : (endings marks).lookup now.thread = none)
      (before : ∃ call ∈ desk.reading, call.thread = now.thread ∧ call.handle = now.handle) :
      desk'.stream.Registered now ∨ desk'.Shares now.thread now.handle ∨
        (endings marks).lookup now.thread = none ∧ desk.Lost now := by
    obtain ⟨call, mem, thread, handle⟩ := before
    by_cases registered : desk.stream.Registered call
    · exact .inl (registered.of_same waiters owners handle.symm thread.symm)
    · exact .inr (.inr ⟨silent, .inr ⟨call, mem, thread, handle, registered⟩⟩)
  cases goes with
  | stays => exact fun now mem => of_same rfl rfl rfl ⟨now, mem, rfl, rfl⟩
  | @begins s thread demand name idle =>
    rw [reading_some, enroll_calls]
    refine List.forall_mem_cons.mpr ⟨.inl (registered_enroll ..), fun now mem => ?_⟩
    have apart : thread ≠ now.thread := (isReading_eq_false_iff.mp idle now mem).symm
    by_cases same : now.handle = (s.enroll thread demand name).2.handle
    · refine .inr (.inl ⟨now, ?_, _, List.mem_cons_self, rfl, rfl, by simpa using apart, same.symm⟩)
      rw [reading_some, enroll_calls]
      exact List.mem_cons_of_mem _ mem
    · by_cases registered : s.Registered now
      · exact .inl (registered.enroll same)
      · exact .inr (.inr ⟨rfl, .inr ⟨now, mem, rfl, rfl, registered⟩⟩)
  | passes idle =>
    intro now mem
    have apart := isReading_eq_false_iff.mp idle now mem
    exact of_same rfl rfl (lookup_ending apart none) ⟨now, mem, rfl, rfl⟩
  | @resumes s thread call hcall =>
    intro now mem
    refine of_same rfl rfl rfl ⟨now, ?_, rfl, rfl⟩
    rcases List.mem_cons.mp mem with rfl | mem
    · exact mem_of_callOf? hcall
    · exact (mem_withdraw mem).1
  | sleeps =>
    intro now mem
    rw [reading_none, enlist_calls, List.mem_append, List.mem_singleton] at mem
    rcases mem with mem | rfl
    · exact of_same rfl rfl rfl ⟨now, List.mem_cons_of_mem _ mem, rfl, rfl⟩
    · exact of_same rfl rfl rfl ⟨_, List.mem_cons_self, rfl, rfl⟩
  | takes =>
    refine List.forall_mem_cons.mpr ⟨?_, fun now mem => ?_⟩
    · exact of_same rfl rfl rfl ⟨_, List.mem_cons_self, rfl, rfl⟩
    · exact of_same rfl rfl rfl ⟨now, List.mem_cons_of_mem _ mem, rfl, rfl⟩
  | @ends s call | @leaves s call =>
    intro now mem
    have apart : now.thread ≠ call.thread := fun same =>
      (List.nodup_cons.mp roster.apart).1 (same ▸ List.mem_map_of_mem mem)
    have among : now ∈ call :: s.calls := List.mem_cons_of_mem _ mem
    have silent := lookup_ending apart
    by_cases same : now.handle = call.handle
    · refine .inr (.inr ⟨silent _, .inl ?_⟩)
      exact ⟨now, among, call, List.mem_cons_self, rfl, rfl, apart.symm, same.symm⟩
    · by_cases registered : s.Registered now
      · exact .inl (.of_same (registered.retire same) rfl rfl rfl rfl)
      · exact .inr (.inr ⟨silent _, .inr ⟨now, among, rfl, rfl, registered⟩⟩)
  | @accepts s text =>
    obtain ⟨-, -, calls, -⟩ := spares_append s text
    obtain ⟨owners, waiters, -, -⟩ := sparesHandles_append s text
    exact fun now mem => of_same waiters owners rfl (before_of_woken calls now mem)
  | resets =>
    exact fun now mem => of_same rfl rfl rfl (before_of_woken (.inr rfl) now mem)
  | @signals desk action signals =>
    obtain ⟨-, -, calls, -⟩ := spares_of_signals (s := desk.stream) signals
    obtain ⟨owners, waiters, -, -⟩ := sparesHandles_of_signals (s := desk.stream) signals
    refine fun now mem => of_same waiters owners rfl ?_
    rcases List.mem_append.mp mem with served | mem
    · exact ⟨now, List.mem_append_left _ served, rfl, rfl⟩
    · obtain ⟨call, mem, same⟩ := before_of_woken calls now mem
      exact ⟨call, List.mem_append_right _ mem, same⟩

/-- **An interrupt finds a read in progress**, unless its thread has shared its handle. -/
theorem registered_or_hasShared (moves : List Move) :
    ∀ call ∈ (run {} moves).1.reading,
      (run {} moves).1.stream.Registered call ∨ HasShared moves call.thread call.handle := by
  induction moves using List.reverseRecOn with
  | nil => simp [run, reading]
  | append_singleton moves move ih =>
    intro now mem
    have last : (run {} (moves ++ [move])).1 = ((run {} moves).1.step move).1 := by
      simp [run_append, run]
    have goes := goes_step (run {} moves).1 move
    rw [← last] at goes
    rcases registered_goes (roster_run moves) goes now mem with found | shares | ⟨silent, lost⟩
    · exact .inl found
    · exact .inr shares.hasShared
    · refine .inr (HasShared.concat ?_ silent)
      rcases lost with shares | ⟨call, mem, thread, handle, unfound⟩
      · exact shares.hasShared
      · exact thread ▸ handle ▸ (ih call mem).resolve_left unfound

/-! ## What every section preserves -/

/-- What the moves at the desk preserve. -/
theorem orderly_run (desk : Desk) (roster : desk.stream.Roster desk.reading)
    (patient : desk.stream.Patient) (moves : List Move) :
    (desk.run moves).1.stream.Roster (desk.run moves).1.reading ∧
      (desk.run moves).1.stream.Patient := by
  induction moves generalizing desk with
  | nil => exact ⟨roster, patient⟩
  | cons move moves ih =>
    have goes := goes_step desk move
    exact ih _ (roster_goes roster goes) (patient_goes patient roster goes)

end Desk

namespace InputStream

open Desk

/-- The roster is right, and nobody sleeps who has something to do. -/
structure Orderly (s : InputStream) : Prop where
  roster : s.Roster s.calls
  patient : s.Patient

variable {s : InputStream} {call : Call} {thread : ThreadId}

theorem Orderly.perform (h : s.Orderly) (action : Action) : (s.perform action).1.Orderly := by
  obtain ⟨moves, leaves, -, -⟩ := exists_moves_of_perform s action
  obtain ⟨roster, patient⟩ := orderly_run ⟨s, none⟩ h.roster h.patient moves
  rw [leaves] at roster patient
  exact ⟨roster, patient⟩

theorem Orderly.run (h : s.Orderly) (actions : List Action) : (s.run actions).1.Orderly := by
  induction actions generalizing s with
  | nil => exact h
  | cons action actions ih => exact ih (h.perform action)

/-- A stream at a free desk is orderly. -/
theorem orderly_of_run {moves : List Move} (free : (Desk.run {} moves).1 = ⟨s, none⟩) :
    s.Orderly := by
  have roster := roster_run moves
  have patient := patient_run moves
  rw [free] at roster patient
  exact ⟨roster, patient⟩

/-- What is listed beside a thread's read is right when the read has left. -/
theorem Orderly.leave (h : s.Orderly) (found : s.callOf? thread = some call) :
    ((s.withdraw thread).retire call.handle).Orderly := by
  have listed : (s.withdraw thread).Roster (call :: (s.withdraw thread).calls) :=
    h.roster.of_wake rfl rfl ((calls_perm_withdraw h.roster.apart found).map Call.wake)
  refine ⟨listed.finish, fun sleeper mem asleep => ?_⟩
  exact (h.patient sleeper (mem_withdraw mem).1 asleep).of_same rfl rfl rfl (.refl _) (.refl _)

/-- After every schedule, an interrupt finds a read through a handle of its own. -/
theorem Reachable.registered_of_own (h : s.Reachable) {owner : ThreadId}
    (found : s.callOf? thread = some call) (own : call.handle = .own owner) :
    s.Registered call := by
  obtain ⟨actions, rfl⟩ := h
  obtain ⟨moves, leaves, -, -⟩ := exists_moves_of_run {} actions
  have registered := registered_or_hasShared moves call
  rw [leaves] at registered
  exact (registered (mem_of_callOf? found)).resolve_right (own ▸ not_hasShared_own moves _ owner)

end InputStream

end LineConsole
