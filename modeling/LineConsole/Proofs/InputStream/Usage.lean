import LineConsole.Proofs.InputStream.Interrupt

/-!
# Handles in use

The handles in use are kept in a set. A read puts its handle in when it begins and takes it out when
it ends, and the set does not count: of two reads through one handle, the first to end takes the
handle out for both. So a handle is in use exactly as long as the last thing that happened to the
reads through it is that one began. A handle in use is that of a read in progress, but a read in
progress whose handle was given up by another read is not found by an interrupt, though its thread
was the last to use the handle.

## Main definitions

* `InputStream.Call.user`, `Desk.users` — who reads through what
* `Desk.Turning`, `Desk.turnings`, `Desk.usage` — what happened to the reads through a handle

## Main results

* `Desk.turnings_goes` — what one move does to the reads through a handle, and to the handle
* `Desk.mem_waiters_iff` — a handle is in use since a read began, and until one has ended
* `Desk.in_use_until_given_up` — which reads an interrupt finds
-/

namespace LineConsole

namespace InputStream

/-- Who reads, and through what. -/
def Call.user (call : Call) : ThreadId × Handle := (call.thread, call.handle)

variable {s : InputStream} {call : Call} {thread : ThreadId} {handle : Handle}

/-- An interrupt finds one handle at most, that of the read which the thread has in progress. -/
theorem Roster.interruptible_eq_singleton (roster : s.Roster s.calls)
    (mem : handle ∈ s.interruptible thread) : s.interruptible thread = [handle] := by
  obtain ⟨waits, owner, uncancelled⟩ := mem_interruptible.mp mem
  obtain ⟨call, found, rfl⟩ := roster.reads_of_interruptible mem
  have registered : s.Registered call := ⟨waits, by rw [owner, thread_of_callOf? found]⟩
  rw [interruptible_of_registered roster found registered, if_neg uncancelled]

/-- The interrupt ends every read through the handle that it finds, when the thread of the read
runs. -/
theorem declines_interrupt (roster : s.Roster s.calls) (single : s.interruptible thread = [handle])
    (mem : call ∈ s.calls) (same : call.handle = handle) :
    (s.interrupt thread).1.Declines (.resume call.thread) call.thread call.soFar := by
  have released : (s.interrupt thread).1.released call.wake = true :=
    released_iff.mpr (.inl (same ▸ mem_cancelled_interrupt single))
  have woken := callOf?_interrupt single (roster.callOf?_of_mem mem)
  have declines := declines_of_released woken rfl released
  exact declines

/-- A read through a handle that the interrupt does not find is not released by it. -/
theorem released_interrupt (unfound : call.handle ∉ s.interruptible thread) :
    (s.interrupt thread).1.released call = s.released call := by
  by_cases nobody : s.interruptible thread = []
  · rw [interrupt_of_nil nobody]
  · rw [interrupt_of_ne_nil nobody]
    simp [released, wakeAll, unfound]

/-- A thread that does not read is no user. -/
theorem not_mem_users {calls : List Call} (idle : ∀ call ∈ calls, call.thread ≠ thread) :
    (thread, handle) ∉ calls.map Call.user := by
  intro mem
  obtain ⟨call, among, same⟩ := List.mem_map.mp mem
  exact idle call among (congrArg Prod.fst same)

theorem users_of_woken {calls calls' : List Call}
    (h : calls' = calls ∨ calls' = calls.map Call.wake) :
    calls.map Call.user = calls'.map Call.user := by
  rcases h with rfl | rfl
  · rfl
  · rw [List.map_map]
    rfl

end InputStream

namespace Desk

open InputStream

/-- Who reads through what. -/
def users (desk : Desk) : List (ThreadId × Handle) := desk.reading.map Call.user

/-- What can happen to the reads through a handle. -/
inductive Turning where
  | began
  | ended
deriving DecidableEq, Repr

/-- What a move did to the reads through a handle, seen from who read through it before and who does
so afterwards. -/
def turnings (handle : Handle) (desk desk' : Desk) : List Turning :=
  (if ∃ user ∈ desk.users, user.2 = handle ∧ user ∉ desk'.users then [.ended] else []) ++
    (if ∃ user ∈ desk'.users, user.2 = handle ∧ user ∉ desk.users then [.began] else [])

/-- What happened to the reads through a handle, in order. -/
def usage (handle : Handle) (desk : Desk) : List Move → List Turning
  | [] => []
  | move :: moves =>
    turnings handle desk (desk.step move).1 ++ usage handle (desk.step move).1 moves

variable {desk desk' : Desk} {marks : List Mark} {handle : Handle} {user : ThreadId × Handle}

theorem usage_append (handle : Handle) (desk : Desk) (before after : List Move) :
    usage handle desk (before ++ after) =
      usage handle desk before ++ usage handle (desk.run before).1 after := by
  induction before generalizing desk with
  | nil => rfl
  | cons move moves ih => simp only [List.cons_append, usage, ih, run_cons, List.append_assoc]

/-! ## One move -/

theorem not_exists_new {users users' : List (ThreadId × Handle)} (known : users ⊆ users') :
    ¬ ∃ user ∈ users, user.2 = handle ∧ user ∉ users' := by
  rintro ⟨user, mem, -, new⟩
  exact new (known mem)

theorem exists_new_iff {users : List (ThreadId × Handle)} (new : user ∉ users) :
    (∃ other ∈ user :: users, other.2 = handle ∧ other ∉ users) ↔ user.2 = handle := by
  constructor
  · rintro ⟨other, mem, same, absent⟩
    obtain rfl := (List.mem_cons.mp mem).resolve_right absent
    exact same
  · exact fun same => ⟨user, List.mem_cons_self, same, new⟩

theorem turnings_of_perm (same : desk.users.Perm desk'.users) :
    turnings handle desk desk' = [] := by
  rw [turnings, if_neg (not_exists_new same.subset), if_neg (not_exists_new same.symm.subset),
    List.append_nil]

theorem turnings_of_began (more : desk'.users = user :: desk.users) (new : user ∉ desk.users) :
    turnings handle desk desk' = if user.2 = handle then [.began] else [] := by
  rw [turnings, more, if_neg (not_exists_new (List.subset_cons_self _ _)), List.nil_append]
  simp only [exists_new_iff new]

theorem turnings_of_ended (fewer : desk.users = user :: desk'.users) (gone : user ∉ desk'.users) :
    turnings handle desk desk' = if user.2 = handle then [.ended] else [] := by
  rw [turnings, fewer]
  simp only [exists_new_iff gone, if_neg (not_exists_new (List.subset_cons_self _ _)),
    List.append_nil]

/-- The ways in which a move can change the use of a handle: no read through it begins or ends, and
it is in use if it was; or one begins, and it is in use; or one ends, and it is not. -/
inductive Turns (desk desk' : Desk) (handle : Handle) : Prop
  | stays : turnings handle desk desk' = [] →
      (handle ∈ desk'.stream.waiters ↔ handle ∈ desk.stream.waiters) → Turns desk desk' handle
  | begins : turnings handle desk desk' = [.began] →
      handle ∈ desk'.stream.waiters → Turns desk desk' handle
  | ends : turnings handle desk desk' = [.ended] →
      handle ∉ desk'.stream.waiters → Turns desk desk' handle

theorem Turns.of_same (same : desk.users.Perm desk'.users)
    (waiters : desk'.stream.waiters = desk.stream.waiters) : Turns desk desk' handle :=
  .stays (turnings_of_perm same) (by rw [waiters])

/-- A read ends, and its handle goes out of use. -/
theorem Turns.of_ended (fewer : desk.users = user :: desk'.users) (gone : user ∉ desk'.users)
    (waiters : desk'.stream.waiters = desk.stream.waiters.filter fun h => h ≠ user.2) :
    Turns desk desk' handle := by
  have turned : turnings handle desk desk' = _ := turnings_of_ended fewer gone
  by_cases same : user.2 = handle
  · exact .ends (turned.trans (if_pos same)) (by simp [waiters, same])
  · refine .stays (turned.trans (if_neg same)) ?_
    rw [waiters, List.mem_filter, and_iff_left (by simpa using Ne.symm same)]

/-- A read begins, and its handle comes into use. -/
theorem Turns.of_began (more : desk'.users = user :: desk.users) (new : user ∉ desk.users)
    (waiters : desk'.stream.waiters = desk.stream.waiters.insert user.2) :
    Turns desk desk' handle := by
  have turned : turnings handle desk desk' = _ := turnings_of_began more new
  by_cases same : user.2 = handle
  · exact .begins (turned.trans (if_pos same)) (by simp [waiters, same])
  · refine .stays (turned.trans (if_neg same)) ?_
    rw [waiters, List.mem_insert_iff, or_iff_right (Ne.symm same)]

/-- **What a move does to the reads through a handle** is what becomes of the handle. -/
theorem turnings_goes (roster : desk.stream.Roster desk.reading) (goes : Goes desk desk' marks)
    (handle : Handle) : Turns desk desk' handle := by
  cases goes with
  | stays | passes | takes => exact .of_same (.refl _) rfl
  | @begins s thread demand name idle =>
    have new : (s.enroll thread demand name).2.user ∉ s.calls.map Call.user := by
      rw [Call.user, enroll_thread]
      exact not_mem_users (isReading_eq_false_iff.mp idle)
    refine .of_began ?_ new (enroll_waiters ..)
    simp only [users, reading_some, reading_none, enroll_calls, List.map_cons]
  | resumes hcall => exact .of_same ((calls_perm_withdraw roster.apart hcall).map _) rfl
  | @sleeps s call =>
    refine .of_same ?_ rfl
    have perm := (List.perm_append_singleton call.user (s.calls.map Call.user)).symm
    simpa [users, reading, Call.user] using perm
  | @ends s call | @leaves s call =>
    have others : ∀ other ∈ s.calls, other.thread ≠ call.thread := fun other mem same =>
      (List.nodup_cons.mp roster.apart).1 (same ▸ List.mem_map_of_mem mem)
    have gone : call.user ∉ s.calls.map Call.user := not_mem_users others
    exact .of_ended rfl gone rfl
  | @accepts s text =>
    obtain ⟨-, -, calls, -⟩ := spares_append s text
    exact .of_same (.of_eq (users_of_woken calls)) (sparesHandles_append s text).waiters
  | resets => exact .of_same (.of_eq (users_of_woken (.inr rfl))) rfl
  | @signals desk action signals =>
    obtain ⟨-, -, calls, -⟩ := spares_of_signals (s := desk.stream) signals
    refine .of_same (.of_eq ?_) (sparesHandles_of_signals signals).waiters
    simp only [users, reading, List.map_append, users_of_woken calls]

/-! ## Any run -/

theorem usage_concat (handle : Handle) (moves : List Move) (move : Move) :
    usage handle {} (moves ++ [move]) = usage handle {} moves ++
      turnings handle (run {} moves).1 (run {} (moves ++ [move])).1 := by
  rw [usage_append, run_append, usage, usage, List.append_nil]
  rfl

/-- **A handle is in use** exactly as long as the last thing that happened to the reads through it
is that one began. -/
theorem mem_waiters_iff (moves : List Move) (handle : Handle) :
    handle ∈ (run {} moves).1.stream.waiters ↔ (usage handle {} moves).getLast? = some .began := by
  induction moves using List.reverseRecOn with
  | nil => simp [run, usage]
  | append_singleton moves move ih =>
    have last : (run {} (moves ++ [move])).1 = ((run {} moves).1.step move).1 := by
      simp [run_append, run]
    have turns := turnings_goes (roster_run moves) (goes_step (run {} moves).1 move) handle
    rw [← last] at turns
    rw [usage_concat]
    cases turns with
    | stays turned same => rw [turned, List.append_nil, same, ih]
    | begins turned used => simp [turned, used]
    | ends turned unused => simp [turned, unused]

/-- Something has happened to the reads through a handle that is that of a read in progress. -/
theorem usage_ne_nil {moves : List Move} (mem : user ∈ (run {} moves).1.users) :
    usage user.2 {} moves ≠ [] := by
  induction moves using List.reverseRecOn with
  | nil => simp [run, users, reading] at mem
  | append_singleton moves move ih =>
    rw [usage_concat]
    by_cases before : user ∈ (run {} moves).1.users
    · exact List.append_ne_nil_of_left_ne_nil (ih before) _
    · have began : ∃ other ∈ (run {} (moves ++ [move])).1.users,
          other.2 = user.2 ∧ other ∉ (run {} moves).1.users := ⟨user, mem, rfl, before⟩
      rw [turnings, if_pos began]
      simp

/-- A handle is given up when a read through it has ended and none has begun since. The handle of a
read in progress is, if it is not in use. -/
theorem last_ended_of_unused {moves : List Move} {call : Call}
    (mem : call ∈ (run {} moves).1.reading)
    (unused : call.handle ∉ (run {} moves).1.stream.waiters) :
    (usage call.handle {} moves).getLast? = some .ended := by
  have happened : usage call.user.2 {} moves ≠ [] := usage_ne_nil (List.mem_map_of_mem mem)
  cases last : (usage call.handle {} moves).getLast? with
  | none => exact absurd (List.getLast?_eq_none_iff.mp last) happened
  | some turning =>
    cases turning with
    | began => exact absurd ((mem_waiters_iff moves call.handle).mpr last) unused
    | ended => rfl

/-- **A handle is in use until the first of its reads ends.** In every run, a handle is in use
exactly as long as the last thing that happened to the reads through it is that one began, and then
it is that of a read in progress. A read in progress whose handle is not in use has shared it with
another read, and one of those through it has ended last.

So it is with an interrupt of the thread that was the last to use the handle of a read in progress,
if the handle is not cancelled. As long as the handle is in use, the interrupt counts one read, and
every read through the handle ends with what it has when its thread runs. When the handle has been
given up, the interrupt does not find it, and does not release the read. -/
theorem in_use_until_given_up (moves : List Move) :
    let desk := (run {} moves).1
    (∀ handle, handle ∈ desk.stream.waiters ↔ (usage handle {} moves).getLast? = some .began) ∧
      (∀ handle ∈ desk.stream.waiters, ∃ call ∈ desk.reading, call.handle = handle) ∧
      (∀ call ∈ desk.reading, call.handle ∉ desk.stream.waiters →
        (usage call.handle {} moves).getLast? = some .ended ∧
          HasShared moves call.thread call.handle) ∧
      ∀ s, desk = ⟨s, none⟩ → ∀ call ∈ s.calls, ∀ thread,
        s.owners.lookup call.handle = some thread → call.handle ∉ s.cancelled →
          let after := (s.interrupt thread).1
          ((usage call.handle {} moves).getLast? = some .began →
            (∀ crew, (Room.step ⟨s, crew⟩ (.interrupt thread)).2.answers = [.count 1]) ∧
              ∀ other ∈ s.calls, other.handle = call.handle →
                after.Declines (.resume other.thread) other.thread other.soFar) ∧
          ((usage call.handle {} moves).getLast? = some .ended →
            call.handle ∉ s.interruptible thread ∧ after.released call = s.released call) := by
  intro desk
  refine ⟨mem_waiters_iff moves, fun handle used => ?_, fun call mem unused => ⟨?_, ?_⟩, ?_⟩
  · obtain ⟨call, mem, same, -⟩ := (roster_run moves).owned handle used
    exact ⟨call, mem, same⟩
  · exact last_ended_of_unused mem unused
  · refine (registered_or_hasShared moves call mem).resolve_left fun registered => ?_
    exact unused registered.waits
  · intro s free call mem thread owner uncancelled after
    have roster := (orderly_of_run free).roster
    have used : call.handle ∈ s.waiters ↔ (usage call.handle {} moves).getLast? = some .began := by
      have used := mem_waiters_iff moves call.handle
      rwa [show (run {} moves).1 = _ from free] at used
    refine ⟨fun began => ?_, fun ended => ?_⟩
    · have found : call.handle ∈ s.interruptible thread :=
        mem_interruptible.mpr ⟨used.mpr began, owner, uncancelled⟩
      have single := roster.interruptible_eq_singleton found
      refine ⟨fun crew => by simp [Room.step, Room.step.apply, single], fun other among same => ?_⟩
      exact declines_interrupt roster single among same
    · have unfound : call.handle ∉ s.interruptible thread := fun found => by
        have began := used.mp (mem_interruptible.mp found).1
        simp [ended] at began
      exact ⟨unfound, released_interrupt unfound⟩

/-- Two reads wait through one handle, which comes into use again when the stream is reset and a
third one begins. When the two have ended, the third is not found by an interrupt; when a fourth one
has begun through the same handle, an interrupt of its thread releases both. -/
theorem in_use_until_given_up_of_reset :
    let start (thread : ThreadId) : List Move :=
      [.act (.start thread .line (some "handle")), .draw]
    let given : List Move := start "first" ++ start "second" ++ [.act .clear] ++ start "third" ++
      [.act (.resume "first"), .draw, .act (.resume "second"), .draw]
    let taken := given ++ start "fourth"
    let s := (run {} given).1.stream
    let later := (run {} taken).1.stream
    let call : Call := ⟨"third", .named "handle", 1, .line, [], false⟩
    s.calls = [call] ∧ call.handle ∉ s.interruptible "third" ∧
      (s.interrupt "third").1.released call = false ∧
      (Room.step ⟨later, []⟩ (.interrupt "fourth")).2.answers = [.count 1] ∧
      (later.interrupt "fourth").1.Declines (.resume "third") "third" none := by
  intro start given taken s later call
  have free : (run {} given).1 = ⟨s, none⟩ := by decide
  have free' : (run {} taken).1 = ⟨later, none⟩ := by decide
  have calls : s.calls = [call] := by decide
  obtain ⟨-, -, -, passes⟩ := in_use_until_given_up given
  obtain ⟨-, -, -, finds⟩ := in_use_until_given_up taken
  obtain ⟨unfound, kept⟩ := (passes s free call (by decide) "third" (by decide) (by decide)).2
    (by decide)
  obtain ⟨counts, declines⟩ := (finds later free' call (by decide) "fourth" (by decide)
    (by decide)).1 (by decide)
  exact ⟨calls, unfound, kept.trans (by decide), counts [], declines call (by decide) rfl⟩

/-- A read waits, its thread was the last to use its handle, and the handle is not cancelled. But
the reads with which it shared the handle have ended. So the handle is not in use, and an interrupt
of the thread finds nothing. -/
theorem waiting_read_unfound :
    let read (thread : ThreadId) : Action := .start thread .line (some "handle")
    let s := (({} : InputStream).run
      [read "first", read "second", .clear, read "third", .resume "first", .resume "second"]).1
    let call : Call := ⟨"third", .named "handle", 1, .line, [], false⟩
    s.calls = [call] ∧ s.released call = false ∧ s.waiters = [] ∧
      s.owners.lookup call.handle = some "third" ∧ call.handle ∉ s.cancelled ∧
      (Room.step ⟨s, []⟩ (.interrupt "third")).2.answers = [.count 0] ∧
      s.interrupt "third" = (s, []) := by
  decide

end Desk

end LineConsole
