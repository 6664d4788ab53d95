import Mathlib.Data.List.Induction
import Mathlib.Data.List.Nodup
import LineConsole.Proofs.InputStream.Desk

/-!
# The roster of reads

What is true of the reads in progress whatever else happens. A thread's own handle is used by that
thread only; the handle of a read has an owner, and a handle in use is the handle of a read that its
owner has in progress; a read of characters holds nothing while it waits. A read remembers how often
the stream had been reset when it began, so it can be told whether a reset has come since.

A move at the desk can go in eleven ways. They are listed once, in `Goes`, and whatever is to be
kept by every move is shown to be kept by each of these.

## Main definitions

* `InputStream.Roster` — what is true of the reads in progress
* `Desk.Goes` — the ways in which a move can go
* `Desk.resetsSince` — how often the stream was reset since a thread's last read began
* `InputStream.Reachable` — some schedule leads to the stream

## Main results

* `Desk.goes_step` — a move goes in one of these ways
* `Desk.roster_run`, `Desk.dated_run` — the roster is right in every run, and so are the dates
* `InputStream.Reachable.roster`, `InputStream.Reachable.epoch_le` — and after every schedule
* `InputStream.Reachable.reads_of_interruptible` — whom an interrupt reaches
-/

namespace LineConsole

namespace InputStream

/-- What is true of the reads in progress. -/
structure Roster (s : InputStream) (reading : List Call) : Prop where
  /-- No thread has two of them. -/
  apart : (reading.map Call.thread).Nodup
  /-- A thread's own handle serves that thread. -/
  own : ∀ call ∈ reading, ∀ thread, call.handle = .own thread → call.thread = thread
  /-- The handle of a read was used before. -/
  known : ∀ call ∈ reading, (s.owners.lookup call.handle).isSome = true
  /-- A handle is in use once. -/
  once : s.waiters.Nodup
  /-- A handle in use is that of a read which its owner has in progress. -/
  owned : ∀ handle ∈ s.waiters, ∃ call ∈ reading,
    call.handle = handle ∧ s.owners.lookup handle = some call.thread
  /-- A read of characters holds nothing. -/
  empty : ∀ call ∈ reading, ∀ size, call.demand = .chars size → call.taken = []

theorem roster_new : Roster {} [] := by constructor <;> simp

theorem lookup_attach (owners : List (Handle × ThreadId)) (handle other : Handle)
    (thread : ThreadId) :
    ((handle, thread) :: owners).lookup other =
      if other = handle then some thread else owners.lookup other := by
  rw [List.lookup_cons]
  by_cases same : other = handle
  · simp [same]
  · rw [if_neg same, beq_false_of_ne same]

variable {s s' : InputStream} {reading reading' : List Call} {call : Call}

/-- The roster does not depend on who is awake, nor on the order of the reads. -/
theorem Roster.of_wake (h : s.Roster reading) (owners : s'.owners = s.owners)
    (waiters : s'.waiters = s.waiters)
    (same : (reading.map Call.wake).Perm (reading'.map Call.wake)) : s'.Roster reading' := by
  have there : ∀ call' ∈ reading', ∃ call ∈ reading, call.wake = call'.wake := fun call' mem =>
    List.mem_map.mp (same.mem_iff.mpr (List.mem_map_of_mem mem))
  have back : ∀ call ∈ reading, ∃ call' ∈ reading', call'.wake = call.wake := fun call mem =>
    List.mem_map.mp (same.mem_iff.mp (List.mem_map_of_mem mem))
  have threads : (reading.map Call.thread).Perm (reading'.map Call.thread) := by
    simpa [Function.comp_def, Call.wake] using same.map Call.thread
  obtain ⟨apart, own, known, once, owned, empty⟩ := h
  refine ⟨threads.nodup_iff.mp apart, fun call' mem => ?_, fun call' mem => ?_, waiters ▸ once,
    fun handle mem => ?_, fun call' mem => ?_⟩
  · obtain ⟨call, mem, same⟩ := there call' mem
    have handle := congrArg Call.handle same
    have thread := congrArg Call.thread same
    simp only [Call.wake] at handle thread
    exact handle ▸ thread ▸ own call mem
  · obtain ⟨call, mem, same⟩ := there call' mem
    have handle := congrArg Call.handle same
    simp only [Call.wake] at handle
    exact owners ▸ handle ▸ known call mem
  · obtain ⟨call, mem, found, owner⟩ := owned handle (waiters ▸ mem)
    obtain ⟨call', mem', same⟩ := back call mem
    have handle := congrArg Call.handle same
    have thread := congrArg Call.thread same
    simp only [Call.wake] at handle thread
    exact ⟨call', mem', handle.trans found, by rw [owners, thread, owner]⟩
  · obtain ⟨call, mem, same⟩ := there call' mem
    have demand := congrArg Call.demand same
    have taken := congrArg Call.taken same
    simp only [Call.wake] at demand taken
    exact demand ▸ taken ▸ empty call mem

/-! ## Reads that begin and end -/

section Enroll

variable (s : InputStream) (thread : ThreadId) (demand : Demand) (name : Option String)

@[simp] theorem enroll_owners : (s.enroll thread demand name).1.owners =
    ((s.enroll thread demand name).2.handle, thread) :: s.owners := by
  cases name <;> rfl

@[simp] theorem enroll_waiters : (s.enroll thread demand name).1.waiters =
    s.waiters.insert (s.enroll thread demand name).2.handle := by
  cases name <;> rfl

@[simp] theorem enroll_epoch : (s.enroll thread demand name).1.epoch = s.epoch := by
  cases name <;> rfl

@[simp] theorem enroll_call_epoch : (s.enroll thread demand name).2.epoch = s.epoch := by
  cases name <;> rfl

theorem enroll_handle_own {other : ThreadId}
    (h : (s.enroll thread demand name).2.handle = .own other) : thread = other := by
  cases name <;> simp_all [enroll]

end Enroll

theorem isReading_eq_false_iff {thread : ThreadId} :
    s.isReading thread = false ↔ ∀ call ∈ s.calls, call.thread ≠ thread := by
  simp [isReading, callOf?]

/-- A thread that does not read begins a read. -/
theorem Roster.enroll {thread : ThreadId} (h : s.Roster s.calls)
    (idle : s.isReading thread = false) (demand : Demand) (name : Option String) :
    (s.enroll thread demand name).1.Roster ((s.enroll thread demand name).2 :: s.calls) := by
  have others := isReading_eq_false_iff.mp idle
  obtain ⟨apart, own, known, once, owned, empty⟩ := h
  constructor
  · simpa [apart] using others
  · refine List.forall_mem_cons.mpr ⟨fun other found => ?_, own⟩
    rw [enroll_thread]
    exact enroll_handle_own s thread demand name found
  · refine List.forall_mem_cons.mpr ⟨by simp, fun call mem => ?_⟩
    rw [enroll_owners, lookup_attach]
    split
    · rfl
    · exact known call mem
  · rw [enroll_waiters]
    exact once.insert
  · intro handle mem
    rw [enroll_waiters, List.mem_insert_iff] at mem
    rw [enroll_owners, lookup_attach]
    by_cases new : handle = (s.enroll thread demand name).2.handle
    · exact ⟨_, List.mem_cons_self, new.symm, by simp [new]⟩
    · obtain ⟨call, mem, found, owner⟩ := owned handle (mem.resolve_left new)
      exact ⟨call, List.mem_cons_of_mem _ mem, found, by rw [if_neg new, owner]⟩
  · exact List.forall_mem_cons.mpr ⟨by simp, empty⟩

/-- A read comes to hold another text. -/
theorem Roster.hold {rest : List Call} {text : Text} (h : s.Roster (call :: rest))
    (empty : ∀ size, call.demand = .chars size → text = []) :
    s.Roster ({ call with taken := text } :: rest) := by
  refine ⟨h.apart, ?_, ?_, h.once, fun handle mem => ?_, ?_⟩
  · exact List.forall_mem_cons.mpr ⟨h.own call List.mem_cons_self,
      (List.forall_mem_cons.mp h.own).2⟩
  · exact List.forall_mem_cons.mpr ⟨h.known call List.mem_cons_self,
      (List.forall_mem_cons.mp h.known).2⟩
  · obtain ⟨user, among, found, owner⟩ := h.owned handle mem
    rcases List.mem_cons.mp among with rfl | among
    · exact ⟨_, List.mem_cons_self, found, owner⟩
    · exact ⟨user, List.mem_cons_of_mem _ among, found, owner⟩
  · exact List.forall_mem_cons.mpr ⟨empty, (List.forall_mem_cons.mp h.empty).2⟩

/-- A read ends, and its handle goes out of use. -/
theorem Roster.finish {rest : List Call} (h : s.Roster (call :: rest)) :
    (s.retire call.handle).Roster rest := by
  obtain ⟨apart, own, known, once, owned, empty⟩ := h
  refine ⟨(List.nodup_cons.mp apart).2, (List.forall_mem_cons.mp own).2,
    (List.forall_mem_cons.mp known).2, once.filter _, fun handle mem => ?_,
    (List.forall_mem_cons.mp empty).2⟩
  obtain ⟨mem, other⟩ := List.mem_filter.mp mem
  obtain ⟨user, among, found, owner⟩ := owned handle mem
  rcases List.mem_cons.mp among with rfl | among
  · simp [found] at other
  · exact ⟨user, among, found, owner⟩

/-! ## Sections that leave the handles alone -/

/-- The section changes nothing about who uses which handle, nor how often the stream was reset, and
cancels more handles at most. -/
structure SparesHandles (s : InputStream) (action : Action) : Prop where
  owners : (s.perform action).1.owners = s.owners
  waiters : (s.perform action).1.waiters = s.waiters
  epoch : (s.perform action).1.epoch = s.epoch
  cancelled : s.cancelled ⊆ (s.perform action).1.cancelled

theorem sparesHandles_append (s : InputStream) (text : Text) : s.SparesHandles (.append text) := by
  by_cases ht : text = []
  · subst ht
    exact ⟨rfl, rfl, rfl, List.Subset.refl _⟩
  · cases closed : s.isClosed <;> constructor <;> simp [perform, append, ht, closed, wakeAll]

theorem sparesHandles_of_signals {action : Action} (h : action.Signals) :
    s.SparesHandles action := by
  cases h with
  | close =>
    cases closed : s.isClosed <;> constructor <;> simp [perform, close, closed, wakeAll]
  | interrupt thread =>
    cases handles : s.interruptible thread with
    | nil => constructor <;> simp [perform, interrupt, handles]
    | cons handle others =>
      constructor <;> simp only [perform, interrupt, handles, wakeAll]
      exact List.subset_append_right _ _
  | flag name => exact ⟨rfl, rfl, rfl, fun handle mem => List.mem_insert_iff.mpr (.inr mem)⟩
  | alert name =>
    by_cases raised : name ∈ s.cancelling
    · cases used : (s.owners.lookup (.named name)).isSome <;> constructor <;>
        simp [perform, alert, raised, used, wakeAll]
    · constructor <;> simp [perform, alert, raised]

/-- What does not depend on being awake holds of the reads that were woken. -/
theorem forall_mem_of_woken {kept : Call → Prop} (wakes : ∀ call, kept call → kept call.wake)
    {calls calls' : List Call} (h : calls' = calls ∨ calls' = calls.map Call.wake)
    (all : ∀ call ∈ calls, kept call) : ∀ call ∈ calls', kept call := by
  rcases h with rfl | rfl
  · exact all
  · exact List.forall_mem_map.mpr fun call mem => wakes call (all call mem)

theorem wake_of_woken {calls calls' : List Call}
    (h : calls' = calls ∨ calls' = calls.map Call.wake) :
    (calls.map Call.wake).Perm (calls'.map Call.wake) := by
  rcases h with rfl | rfl
  · exact .refl _
  · rw [List.map_map]
    exact .refl _

end InputStream

namespace Desk

open InputStream

/-! ## What a move can do -/

/-- The ways in which a move can go, with what is noted: nothing happens; a read begins, or a read
of nothing passes; a read that was woken comes to the desk; the read at the desk ends short, goes to
sleep, takes something and stays, or is served and leaves; text is accepted, the stream is reset, or
a signal is given. -/
inductive Goes : Desk → Desk → List Mark → Prop
  | stays {desk : Desk} : Goes desk desk []
  | begins {s : InputStream} {thread : ThreadId} {demand : Demand} {name : Option String} :
      s.isReading thread = false → demand ≠ .chars 0 →
        Goes ⟨s, none⟩ ⟨(s.enroll thread demand name).1, some (s.enroll thread demand name).2⟩
          [.began thread]
  | passes {s : InputStream} {thread : ThreadId} : s.isReading thread = false →
      Goes ⟨s, none⟩ ⟨s, none⟩ [.began thread, .ended thread (.chars 0) none]
  | resumes {s : InputStream} {thread : ThreadId} {call : Call} :
      s.callOf? thread = some call → call.awake = true →
        Goes ⟨s, none⟩ ⟨s.withdraw thread, some call⟩ []
  | ends {s : InputStream} {call : Call} :
      Goes ⟨s, some call⟩ ⟨s.retire call.handle, none⟩ [.ended call.thread call.demand call.soFar]
  | sleeps {s : InputStream} {call : Call} :
      s.released call = false → s.buffer = [] → s.isClosed = false →
        Goes ⟨s, some call⟩ ⟨s.enlist { call with awake := false }, none⟩ []
  | takes {s : InputStream} {call : Call} {c : Char} {rest : Text} {help : Helping} :
      s.buffer = c :: rest → call.demand.Turn s.skipLF c rest help → help.complete = false →
        Goes ⟨s, some call⟩ ⟨left s help, some (holds call help)⟩ [.took call.thread help.taken]
  | leaves {s : InputStream} {call : Call} {c : Char} {rest : Text} {help : Helping} :
      s.buffer = c :: rest → call.demand.Turn s.skipLF c rest help → help.complete = true →
        Goes ⟨s, some call⟩ ⟨(left s help).retire call.handle, none⟩
          [.took call.thread help.taken,
            .ended call.thread call.demand (some (holds call help).taken)]
  | accepts {s : InputStream} {text : Text} :
      Goes ⟨s, none⟩ ⟨(s.append text).1, none⟩ [.accepted (s.accepts (.append text))]
  | resets {s : InputStream} : Goes ⟨s, none⟩ ⟨s.clear.1, none⟩ [.emptied]
  | signals {desk : Desk} {action : Action} : action.Signals →
      Goes desk ⟨(desk.stream.perform action).1, desk.served⟩ []

theorem goes_draw (s : InputStream) (call : Call) :
    Goes ⟨s, some call⟩ (draw s call).1 (draw s call).2 := by
  cases hr : s.released call with
  | true =>
    rw [draw_of_released hr]
    exact .ends
  | false =>
    cases hb : s.buffer with
    | nil =>
      cases closed : s.isClosed with
      | true =>
        rw [draw_of_drained hr hb closed]
        exact .ends
      | false =>
        rw [draw_of_waiting hr hb closed]
        exact .sleeps hr hb closed
    | cons c rest =>
      have turn := call.demand.turn_help s.skipLF c rest
      cases hc : (call.demand.help s.skipLF c rest).complete with
      | true =>
        rw [draw_of_complete hr hb hc]
        exact .leaves hb turn hc
      | false =>
        rw [draw_of_more hr hb hc]
        exact .takes hb turn hc

theorem goes_enter (s : InputStream) (action : Action) :
    Goes ⟨s, none⟩ (enter s action).1 (enter s action).2 := by
  cases action with
  | start thread demand name =>
    cases idle : s.isReading thread with
    | true => simpa [enter, idle] using Goes.stays
    | false =>
      by_cases asks : demand = .chars 0
      · subst asks
        simpa [enter, idle] using Goes.passes idle
      · simpa [enter, idle, asks] using Goes.begins idle asks
  | resume thread =>
    cases hcall : s.callOf? thread with
    | none => simpa [enter, hcall] using Goes.stays
    | some call =>
      cases awake : call.awake with
      | true => simpa [enter, hcall, awake] using Goes.resumes hcall awake
      | false => simpa [enter, hcall, awake] using Goes.stays
  | append text => exact .accepts
  | clear => exact .resets
  | close => exact .signals .close
  | interrupt thread => exact .signals (.interrupt thread)
  | flag name => exact .signals (.flag name)
  | alert name => exact .signals (.alert name)

@[simp] theorem reading_none (s : InputStream) : reading ⟨s, none⟩ = s.calls := rfl

@[simp] theorem reading_some (s : InputStream) (call : Call) :
    reading ⟨s, some call⟩ = call :: s.calls := rfl

/-- Every move goes in one of these ways. -/
theorem goes_step (desk : Desk) (move : Move) :
    Goes desk (desk.step move).1 (desk.step move).2 := by
  obtain ⟨s, served⟩ := desk
  cases served with
  | none =>
    cases move with
    | draw => exact .stays
    | act action =>
      have same : step ⟨s, none⟩ (.act action) = enter s action := by cases action <;> rfl
      rw [same]
      exact goes_enter s action
  | some call =>
    cases move with
    | draw => exact goes_draw s call
    | act action =>
      cases action with
      | flag name => exact .signals (.flag name)
      | start | resume | append | close | clear | interrupt | alert => exact .stays

/-- What holds of a new stream, and is kept in each of these ways, holds in every run. -/
theorem run_induction {motive : Desk → List Mark → Prop} (new : motive {} [])
    (step : ∀ {desk desk' marks more}, motive desk marks → Goes desk desk' more →
      motive desk' (marks ++ more)) (moves : List Move) :
    motive (run {} moves).1 (run {} moves).2 := by
  induction moves using List.reverseRecOn with
  | nil => exact new
  | append_singleton moves move ih =>
    rw [run_append]
    simpa [run] using step ih (goes_step (run {} moves).1 move)

/-! ## The roster -/

/-- The read at the desk of characters has taken nothing unless it is served. -/
theorem holds_of_chars {call : Call} {skip : Bool} {c : Char} {rest : Text} {help : Helping}
    {size : Nat} (turn : call.demand.Turn skip c rest help) (more : help.complete = false)
    (chars : call.demand = .chars size) : (holds call help).taken = call.taken := by
  rw [chars] at turn
  cases turn with
  | skip => simp
  | batch => simp at more

theorem roster_goes {desk desk' : Desk} {marks : List Mark}
    (h : desk.stream.Roster desk.reading) (goes : Goes desk desk' marks) :
    desk'.stream.Roster desk'.reading := by
  cases goes with
  | stays => exact h
  | passes => exact h
  | @begins s thread demand name idle =>
    simpa using Roster.enroll h idle demand name
  | resumes hcall =>
    exact h.of_wake rfl rfl ((calls_perm_withdraw h.apart hcall).map Call.wake)
  | ends => exact h.finish
  | @sleeps s call =>
    refine h.of_wake rfl rfl ?_
    have perm := (List.perm_append_singleton call.wake (s.calls.map Call.wake)).symm
    simpa [reading, Call.wake] using perm
  | @takes s call c rest help _ turn more =>
    have same : (left s help).Roster (call :: s.calls) := h.of_wake rfl rfl (.refl _)
    exact same.hold fun size chars =>
      (holds_of_chars turn more chars).trans (h.empty call List.mem_cons_self size chars)
  | @leaves s call c rest help =>
    have same : (left s help).Roster (call :: s.calls) := h.of_wake rfl rfl (.refl _)
    exact same.finish
  | @accepts s text =>
    obtain ⟨-, -, calls, -⟩ := spares_append s text
    obtain ⟨owners, waiters, -, -⟩ := sparesHandles_append s text
    exact h.of_wake owners waiters (wake_of_woken calls)
  | resets => exact h.of_wake rfl rfl (wake_of_woken (.inr rfl))
  | @signals desk action signals =>
    obtain ⟨-, -, calls, -⟩ := spares_of_signals (s := desk.stream) signals
    obtain ⟨owners, waiters, -, -⟩ := sparesHandles_of_signals (s := desk.stream) signals
    refine h.of_wake owners waiters ?_
    simpa [reading] using (wake_of_woken calls).append_left (desk.served.toList.map Call.wake)

theorem roster_run (moves : List Move) :
    (run {} moves).1.stream.Roster (run {} moves).1.reading :=
  run_induction (motive := fun desk _ => desk.stream.Roster desk.reading) roster_new
    (fun h goes => roster_goes h goes) moves

/-! ## Resets since a read began -/

/-- How often the stream was reset since a thread's last read began, after one more mark. -/
def Mark.countReset (thread : ThreadId) (count : Nat) : Mark → Nat
  | .began reader => if reader = thread then 0 else count
  | .emptied => count + 1
  | _ => count

/-- How often the stream was reset since a thread's last read began. -/
def resetsSince (thread : ThreadId) (marks : List Mark) : Nat :=
  marks.foldl (Mark.countReset thread) 0

theorem resetsSince_append (thread : ThreadId) (marks more : List Mark) :
    resetsSince thread (marks ++ more) =
      more.foldl (Mark.countReset thread) (resetsSince thread marks) :=
  List.foldl_append

/-- The read of `call` began when the stream had been reset as often as it remembers. -/
def Dated (s : InputStream) (marks : List Mark) (call : Call) : Prop :=
  call.epoch + resetsSince call.thread marks = s.epoch

theorem dated_goes {desk desk' : Desk} {marks more : List Mark}
    (h : ∀ call ∈ desk.reading, Dated desk.stream marks call) (goes : Goes desk desk' more) :
    ∀ call ∈ desk'.reading, Dated desk'.stream (marks ++ more) call := by
  simp only [Dated, resetsSince_append] at h ⊢
  cases goes with
  | stays => exact h
  | @begins s thread demand name idle =>
    have others := isReading_eq_false_iff.mp idle
    rw [reading_some, enroll_calls]
    refine List.forall_mem_cons.mpr ⟨by simp [Mark.countReset], fun call mem => ?_⟩
    simpa [Mark.countReset, (others call mem).symm] using h call mem
  | @passes s thread idle =>
    have others := isReading_eq_false_iff.mp idle
    intro call mem
    simpa [Mark.countReset, (others call mem).symm] using h call mem
  | @resumes s thread call hcall =>
    refine List.forall_mem_cons.mpr ⟨h call (mem_of_callOf? hcall), fun other mem => ?_⟩
    exact h other (mem_withdraw mem).1
  | ends | leaves => exact (List.forall_mem_cons.mp h).2
  | @sleeps s call =>
    obtain ⟨own, others⟩ := List.forall_mem_cons.mp h
    rw [reading_none, enlist_calls]
    exact List.forall_mem_append.mpr ⟨others, List.forall_mem_singleton.mpr own⟩
  | takes =>
    obtain ⟨own, others⟩ := List.forall_mem_cons.mp h
    exact List.forall_mem_cons.mpr ⟨own, others⟩
  | @accepts s text =>
    obtain ⟨-, -, calls, -⟩ := spares_append s text
    refine forall_mem_of_woken (fun _ => id) calls fun call mem => ?_
    exact (h call mem).trans (sparesHandles_append s text).epoch.symm
  | @resets s =>
    refine forall_mem_of_woken (fun _ => id) (.inr rfl) fun call mem => ?_
    exact congrArg Nat.succ (h call mem)
  | @signals desk action signals =>
    obtain ⟨-, -, calls, -⟩ := spares_of_signals (s := desk.stream) signals
    have epoch := (sparesHandles_of_signals (s := desk.stream) signals).epoch
    obtain ⟨served, others⟩ := List.forall_mem_append.mp h
    refine List.forall_mem_append.mpr ⟨fun call mem => (served call mem).trans epoch.symm, ?_⟩
    exact forall_mem_of_woken (fun _ => id) calls fun call mem => (others call mem).trans epoch.symm

/-- A read in progress remembers how often the stream had been reset when it began. -/
theorem dated_run (moves : List Move) :
    ∀ call ∈ (run {} moves).1.reading, Dated (run {} moves).1.stream (run {} moves).2 call :=
  run_induction (motive := fun desk marks => ∀ call ∈ desk.reading, Dated desk.stream marks call)
    (by simp [reading]) (fun h goes => dated_goes h goes) moves

end Desk

namespace InputStream

/-- Some schedule leads from a new stream to this one. -/
def Reachable (s : InputStream) : Prop := ∃ actions, (({} : InputStream).run actions).1 = s

variable {s : InputStream} {call : Call}

theorem Reachable.run (h : s.Reachable) (actions : List Action) : (s.run actions).1.Reachable := by
  obtain ⟨before, rfl⟩ := h
  exact ⟨before ++ actions, by rw [run_append]⟩

theorem Reachable.perform (h : s.Reachable) (action : Action) : (s.perform action).1.Reachable :=
  h.run [action]

/-- The roster is right after every schedule. -/
theorem Reachable.roster (h : s.Reachable) : s.Roster s.calls := by
  obtain ⟨actions, rfl⟩ := h
  obtain ⟨moves, leaves, -, -⟩ := Desk.exists_moves_of_run {} actions
  have roster := Desk.roster_run moves
  rw [leaves] at roster
  exact roster

/-- A thread's read is the one that is listed. -/
theorem Roster.callOf?_of_mem (h : s.Roster s.calls) (mem : call ∈ s.calls) :
    s.callOf? call.thread = some call := by
  cases found : s.callOf? call.thread with
  | none => exact absurd rfl (isReading_eq_false_iff.mp (by simp [isReading, found]) call mem)
  | some other =>
    have same := thread_of_callOf? found
    rw [List.inj_on_of_nodup_map h.apart (mem_of_callOf? found) mem same]

/-- An interrupt reaches nothing but the read of its thread. -/
theorem Roster.reads_of_interruptible (h : s.Roster s.calls) {thread : ThreadId} {handle : Handle}
    (mem : handle ∈ s.interruptible thread) :
    ∃ call, s.callOf? thread = some call ∧ call.handle = handle := by
  simp only [interruptible, List.mem_filter, Bool.and_eq_true, decide_eq_true_eq] at mem
  obtain ⟨waits, owner, -⟩ := mem
  obtain ⟨call, among, same, owns⟩ := h.owned handle waits
  obtain rfl : call.thread = thread := Option.some.inj (owns.symm.trans owner)
  exact ⟨call, h.callOf?_of_mem among, same⟩

theorem Reachable.reads_of_interruptible (h : s.Reachable) {thread : ThreadId} {handle : Handle}
    (mem : handle ∈ s.interruptible thread) :
    ∃ call, s.callOf? thread = some call ∧ call.handle = handle :=
  h.roster.reads_of_interruptible mem

/-- No read in progress began after resets that have yet to come. -/
theorem Reachable.epoch_le (h : s.Reachable) (mem : call ∈ s.calls) : call.epoch ≤ s.epoch := by
  obtain ⟨actions, rfl⟩ := h
  obtain ⟨moves, leaves, -, -⟩ := Desk.exists_moves_of_run {} actions
  have dated := Desk.dated_run moves
  rw [leaves] at dated
  exact Nat.le.intro (dated call mem)

end InputStream

end LineConsole
