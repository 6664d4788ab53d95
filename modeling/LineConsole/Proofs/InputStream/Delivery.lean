import LineConsole.Proofs.InputStream.Ledger

/-!
# Every character is delivered once

Any number of threads append, read, cancel, interrupt, close and reset, in any order, and flags go
up between any two turns of a read. At every moment the ledger of the stream is in order: what was
accepted since the last reset is what was taken, in that order, and what is still buffered; each
character that was taken is entered for one read, which returned it or holds it, or whose line it
ended, or which skipped it as the LF of a break already made. So nothing is lost, repeated or
reordered, whatever releases the reads.

## Main definitions

* `Desk.gist`, `Desk.held` — what the ledger has to know of the reads in progress
* `Desk.InOrder` — the invariant: the ledger agrees with the stream and with the reads
* `Desk.Accounted` — every character is accounted for

## Main results

* `inOrder_step`, `inOrder_run` — every move keeps the ledger in order
* `delivered_once` — every character is accounted for, in every run and every schedule
-/

namespace LineConsole.Desk

open InputStream

/-- What the ledger has to know of a read in progress. -/
def gist (call : Call) : ThreadId × Demand × Text := (call.thread, call.demand, call.taken)

/-- The threads that read, with what they hold. -/
def held (calls : List Call) : List (ThreadId × Text) :=
  (calls.map gist).map fun known => (known.1, known.2.2)

/-- The ledger is in order, with the stream and with the reads, and no read in progress has asked
for nothing. -/
structure InOrder (desk : Desk) (ledger : Ledger) : Prop where
  stocked : ledger.Stocked desk.stream.buffer desk.stream.skipLF
  booked : ledger.Booked none (held desk.reading)
  asks : ∀ known ∈ desk.reading.map gist, known.2.1 ≠ .chars 0

variable {s : InputStream} {desk : Desk} {ledger : Ledger} {call : Call}

theorem inOrder_new : InOrder {} {} := ⟨Ledger.stocked_new, Ledger.booked_new, by simp [reading]⟩

theorem gist_wake (calls : List Call) : (calls.map Call.wake).map gist = calls.map gist := by
  simp [gist, Call.wake, Function.comp_def]

/-- Moves that neither begin nor end a read, and take nothing, keep the books. -/
theorem InOrder.of_gist {desk' : Desk} {ledger' : Ledger} (h : desk.InOrder ledger)
    (stocked : ledger'.Stocked desk'.stream.buffer desk'.stream.skipLF)
    (begun : ledger'.begun = ledger.begun) (receipts : ledger'.receipts = ledger.receipts)
    (entries : ledger'.entries = ledger.entries)
    (perm : (desk.reading.map gist).Perm (desk'.reading.map gist)) : desk'.InOrder ledger' :=
  ⟨stocked, (h.booked.of_same begun receipts entries).perm (perm.map _),
    fun known mem => h.asks known (perm.mem_iff.mpr mem)⟩

/-- No thread has two reads in progress. -/
theorem InOrder.apart (h : desk.InOrder ledger) : (desk.reading.map Call.thread).Nodup := by
  -- Two reads of one thread would be entered as one.
  have once := (List.nodup_append.mp h.booked.once).2.1
  refine List.Nodup.of_map ledger.current ?_
  simpa [held, gist, Function.comp_def] using once

/-! ## A read comes to the desk -/

/-- A thread that does not read begins one, and the read comes to the desk. -/
theorem InOrder.begin {thread : ThreadId} {demand : Demand} (h : InOrder ⟨s, none⟩ ledger)
    (idle : s.isReading thread = false) (asks : demand ≠ .chars 0) (name : Option String) :
    InOrder ⟨(s.enroll thread demand name).1, some (s.enroll thread demand name).2⟩
      (ledger.post (.began thread)) := by
  have other : ∀ hold ∈ held s.calls, hold.1 ≠ thread := by
    simpa [held, gist, isReading, callOf?] using idle
  refine ⟨?_, ?_, ?_⟩
  · simpa using (⟨h.stocked.conserved, h.stocked.orderly, h.stocked.skipping⟩ :
      (ledger.post (.began thread)).Stocked s.buffer s.skipLF)
  · simpa [reading, held, gist] using h.booked.begin other
  · have rest : ∀ known ∈ s.calls.map gist, known.2.1 ≠ .chars 0 := h.asks
    simpa [reading, gist, asks] using rest

/-- A read of nothing begins and ends. -/
theorem InOrder.pass {thread : ThreadId} (h : InOrder ⟨s, none⟩ ledger)
    (idle : s.isReading thread = false) :
    InOrder ⟨s, none⟩ (ledger.tally [.began thread, .ended thread (.chars 0) none]) := by
  have other : ∀ hold ∈ held s.calls, hold.1 ≠ thread := by
    simpa [held, gist, isReading, callOf?] using idle
  exact ⟨⟨h.stocked.conserved, h.stocked.orderly, h.stocked.skipping⟩,
    (h.booked.begin other).finish rfl (.inl rfl), h.asks⟩

/-- A read that was woken comes to the desk. -/
theorem InOrder.resume {thread : ThreadId} (h : InOrder ⟨s, none⟩ ledger)
    (hcall : s.callOf? thread = some call) :
    InOrder ⟨s.withdraw thread, some call⟩ ledger :=
  h.of_gist h.stocked rfl rfl rfl ((calls_perm_withdraw h.apart hcall).map gist)

/-! ## The read at the desk -/

/-- The read at the desk goes to sleep. -/
theorem InOrder.sleep (h : InOrder ⟨s, some call⟩ ledger) :
    InOrder ⟨s.enlist { call with awake := false }, none⟩ ledger := by
  refine h.of_gist h.stocked rfl rfl rfl ?_
  have perm := (List.perm_append_singleton (gist call) (s.calls.map gist)).symm
  simpa [reading, gist] using perm

/-- The read at the desk ends with what it has, which may be nothing. -/
theorem InOrder.finish (h : InOrder ⟨s, some call⟩ ledger) :
    InOrder ⟨s.retire call.handle, none⟩
      (ledger.tally [.ended call.thread call.demand call.soFar]) := by
  have pays : call.soFar.getD [] = call.taken := by
    by_cases nothing : call.taken = [] <;> simp [Call.soFar, nothing]
  exact ⟨⟨h.stocked.conserved, h.stocked.orderly, h.stocked.skipping⟩,
    h.booked.finish pays (.inl rfl), fun known mem => h.asks known (List.mem_cons_of_mem _ mem)⟩

/-- A turn of the read at the desk. -/
theorem InOrder.turn {c : Char} {rest : Text} {help : Helping} (h : InOrder ⟨s, some call⟩ ledger)
    (hb : s.buffer = c :: rest) (turn : call.demand.Turn s.skipLF c rest help) :
    (help.complete = false →
      InOrder ⟨left s help, some (holds call help)⟩
        (ledger.tally [.took call.thread help.taken])) ∧
    (help.complete = true →
      InOrder ⟨(left s help).retire call.handle, none⟩
        (ledger.tally [.took call.thread help.taken,
          .ended call.thread call.demand (some (holds call help).taken)])) := by
  have asks : call.demand ≠ .chars 0 := h.asks (gist call) List.mem_cons_self
  have rest : ∀ known ∈ s.calls.map gist, known.2.1 ≠ .chars 0 :=
    fun known mem => h.asks known (List.mem_cons_of_mem _ mem)
  have stocked : (ledger.post (.took call.thread help.taken)).Stocked help.rest help.skipLF :=
    Ledger.Stocked.take (hb ▸ h.stocked) turn asks
  have booked : ledger.Booked none ((call.thread, call.taken) :: held s.calls) := h.booked
  refine ⟨fun more => ⟨stocked, ?_, ?_⟩, fun complete => ⟨?_, ?_, rest⟩⟩
  · refine booked.take ?_
    rcases turn.breaks with none | ⟨c, -, -, -, complete⟩
    · exact .inl ⟨none, rfl⟩
    · simp [more] at complete
  · simpa [reading, gist, asks] using rest
  · exact ⟨stocked.conserved, stocked.orderly, stocked.skipping⟩
  · rcases turn.breaks with none | ⟨c, one, isBreak, line, -⟩
    · exact (booked.take (.inl ⟨none, rfl⟩)).finish rfl (.inl rfl)
    · exact (booked.take (.inr ⟨c, one, isBreak, rfl⟩)).finish rfl (.inr ⟨rfl, line, rfl⟩)

/-- Each turn of a read keeps the ledger in order. -/
theorem inOrder_draw (h : InOrder ⟨s, some call⟩ ledger) :
    (draw s call).1.InOrder (ledger.tally (draw s call).2) := by
  cases hr : s.released call with
  | true =>
    rw [draw_of_released hr]
    exact h.finish
  | false =>
    cases hb : s.buffer with
    | nil =>
      cases closed : s.isClosed with
      | true =>
        rw [draw_of_drained hr hb closed]
        exact h.finish
      | false =>
        rw [draw_of_waiting hr hb closed]
        exact h.sleep
    | cons c rest =>
      have turn := h.turn hb (call.demand.turn_help s.skipLF c rest)
      cases hc : (call.demand.help s.skipLF c rest).complete with
      | true =>
        rw [draw_of_complete hr hb hc]
        exact turn.2 hc
      | false =>
        rw [draw_of_more hr hb hc]
        exact turn.1 hc

/-! ## Other sections -/

theorem gist_of_woken {calls calls' : List Call}
    (h : calls' = calls ∨ calls' = calls.map Call.wake) : calls'.map gist = calls.map gist := by
  rcases h with rfl | rfl
  · rfl
  · exact gist_wake calls

/-- Signals reach the reads, the one at the desk and the others, and no more than wake them. -/
theorem InOrder.signal {action : Action} (h : desk.InOrder ledger) (signals : action.Signals) :
    InOrder ⟨(desk.stream.perform action).1, desk.served⟩ ledger := by
  obtain ⟨buffer, skip, calls, -⟩ := spares_of_signals (s := desk.stream) signals
  rw [accepts_of_signals signals, List.append_nil] at buffer
  refine h.of_gist ?_ rfl rfl rfl ?_
  · exact buffer ▸ skip ▸ h.stocked
  · simp [reading, gist_of_woken calls]

theorem InOrder.append (h : InOrder ⟨s, none⟩ ledger) (text : Text) :
    InOrder ⟨(s.append text).1, none⟩ (ledger.tally [.accepted (s.accepts (.append text))]) := by
  obtain ⟨buffer, skip, calls, -⟩ := spares_append s text
  simp only [perform] at buffer skip calls
  refine h.of_gist ?_ rfl rfl rfl ?_
  · rw [buffer, skip]
    exact h.stocked.append _
  · simp [reading, gist_of_woken calls]

theorem InOrder.clear (h : InOrder ⟨s, none⟩ ledger) :
    InOrder ⟨s.clear.1, none⟩ (ledger.tally [.emptied]) := by
  refine h.of_gist (Ledger.stocked_emptied ledger) rfl rfl ?_ ?_
  · simp [Ledger.tally, Ledger.post, Ledger.entries]
  · simpa [reading, InputStream.clear, wakeAll] using List.Perm.of_eq (gist_wake s.calls).symm

/-- Each section that takes the lock keeps the ledger in order. -/
theorem inOrder_enter (h : InOrder ⟨s, none⟩ ledger) (action : Action) :
    (enter s action).1.InOrder (ledger.tally (enter s action).2) := by
  cases action with
  | start thread demand name =>
    cases idle : s.isReading thread with
    | true => simpa [enter, idle] using h
    | false =>
      by_cases asks : demand = .chars 0
      · subst asks
        simpa [enter, idle] using h.pass idle
      · simpa [enter, idle, asks] using h.begin idle asks name
  | resume thread =>
    cases hcall : s.callOf? thread with
    | none => simpa [enter, hcall] using h
    | some call =>
      cases awake : call.awake with
      | true => simpa [enter, hcall, awake] using h.resume hcall
      | false => simpa [enter, hcall, awake] using h
  | append text => exact h.append text
  | clear => exact h.clear
  | close => exact h.signal .close
  | interrupt thread => exact h.signal (.interrupt thread)
  | flag name => exact h.signal (.flag name)
  | alert name => exact h.signal (.alert name)

/-- **Every move** keeps the ledger in order. -/
theorem inOrder_step (h : desk.InOrder ledger) (move : Move) :
    (desk.step move).1.InOrder (ledger.tally (desk.step move).2) := by
  obtain ⟨s, served⟩ := desk
  cases served with
  | none =>
    cases move with
    | draw => exact h
    | act action =>
      have same : step ⟨s, none⟩ (.act action) = enter s action := by cases action <;> rfl
      rw [same]
      exact inOrder_enter h action
  | some call =>
    cases move with
    | draw => exact inOrder_draw h
    | act action =>
      cases action with
      -- With a read at the desk, flags go up and everything else has to wait.
      | flag name => exact h.signal (.flag name)
      | start | resume | append | close | clear | interrupt | alert => exact h

theorem inOrder_run (h : desk.InOrder ledger) (moves : List Move) :
    (desk.run moves).1.InOrder (ledger.tally (desk.run moves).2) := by
  induction moves generalizing desk ledger with
  | nil => exact h
  | cons move moves ih =>
    rw [run_cons, Ledger.tally_append]
    exact ih (inOrder_step h move)

/-! ## Accounting for every character -/

/-- **Every character is accounted for**, at one moment. -/
structure Accounted (desk : Desk) (ledger : Ledger) : Prop where
  /-- What was accepted since the last reset was taken, in that order, or is buffered. -/
  conserved : ledger.accepted = ledger.popped.map Entry.char ++ desk.stream.buffer
  /-- No two reads are entered as one. -/
  once : (ledger.finished ++ desk.reading.map fun call => ledger.current call.thread).Nodup
  /-- Each character was taken by one of these reads. -/
  taken : ∀ entry ∈ ledger.entries,
    entry.read ∈ ledger.finished ++ desk.reading.map fun call => ledger.current call.thread
  /-- A read that has ended returned the characters kept for it. -/
  returned : ∀ receipt ∈ ledger.receipts, receipt.result.getD [] = ledger.text receipt.read
  /-- A read in progress holds the characters kept for it. -/
  holding : ∀ call ∈ desk.reading, call.taken = ledger.text (ledger.current call.thread)
  /-- A character that ended a line is a CR or an LF, and the read of that line has returned it. -/
  broke : ∀ entry ∈ ledger.entries, entry.use = .broke →
    (entry.char = '\r' ∨ entry.char = '\n') ∧ ∃ receipt ∈ ledger.receipts,
      receipt.read = entry.read ∧ receipt.demand = .line ∧ receipt.result.isSome = true
  /-- No line was ended twice. -/
  breakers : ledger.breakers.Nodup
  /-- An LF is skipped exactly when the character accepted just before it is a CR that ended a line,
  and nothing else is. -/
  skipped : ∀ before entry after, ledger.popped = before ++ entry :: after →
    (entry.use = .skipped ↔
      entry.char = '\n' ∧ ∃ cr, before.getLast? = some cr ∧ cr.char = '\r' ∧ cr.use = .broke)

theorem InOrder.accounted (h : desk.InOrder ledger) : desk.Accounted ledger := by
  have reads : ledger.reads (held desk.reading) =
      ledger.finished ++ desk.reading.map fun call => ledger.current call.thread := by
    simp [Ledger.reads, held, gist, Function.comp_def]
  obtain ⟨stocked, booked, -⟩ := h
  refine ⟨stocked.conserved, reads ▸ booked.once, reads ▸ booked.known, booked.paid, ?_, ?_,
    booked.breakers, ?_⟩
  · intro call mem
    exact booked.holds (call.thread, call.taken)
      (List.mem_map.mpr ⟨gist call, List.mem_map_of_mem mem, rfl⟩)
  · simpa using booked.breaks
  · intro before entry after split
    have pairs : ledger.popped.map Entry.pair =
        before.map Entry.pair ++ entry.pair :: after.map Entry.pair := by simp [split]
    have skips := orderly_iff stocked.orderly pairs
    rw [List.getLast?_map] at skips
    simpa [Entry.pair] using skips

/-- The receipts are the reads that were seen to end, in order. -/
theorem receipts_tally (ledger : Ledger) (marks : List Mark) :
    (ledger.tally marks).receipts.map (fun receipt => (receipt.read.thread, receipt.result)) =
      ledger.receipts.map (fun receipt => (receipt.read.thread, receipt.result)) ++
        endings marks := by
  induction marks generalizing ledger with
  | nil => simp [endings]
  | cons mark marks ih =>
    rw [Ledger.tally_cons, ih]
    cases mark with
    | ended thread demand result =>
      simp only [Ledger.post, List.map_append, List.append_assoc]
      rfl
    | began | took | accepted | emptied => rfl

/-- The ledger's accepted text is the text that was seen to be accepted. -/
theorem accepted_tally (ledger : Ledger) (marks : List Mark) :
    (ledger.tally marks).accepted = gathered ledger.accepted marks := by
  induction marks generalizing ledger with
  | nil => rfl
  | cons mark marks ih =>
    rw [Ledger.tally_cons, ih]
    cases mark <;> rfl

/-- **Every character is delivered once.** In every run, with flags that go up at any time, every
character is accounted for at every moment. So it is at the end of every schedule of sections, with
the text that the schedule had accepted since its last reset and the results that its reads ended
with. -/
theorem delivered_once :
    (∀ moves, (run {} moves).1.Accounted (({} : Ledger).tally (run {} moves).2)) ∧
      ∀ actions, ∃ ledger : Ledger,
        Accounted ⟨(({} : InputStream).run actions).1, none⟩ ledger ∧
          ledger.accepted = gatherAll {} actions [] ∧
          ledger.receipts.map (fun receipt => (receipt.read.thread, receipt.result)) =
            InputStream.endings (({} : InputStream).run actions).2 := by
  have always (moves : List Move) :
      (run {} moves).1.Accounted (({} : Ledger).tally (run {} moves).2) :=
    (inOrder_run inOrder_new moves).accounted
  refine ⟨always, fun actions => ?_⟩
  obtain ⟨moves, leaves, ends, gains⟩ := exists_moves_of_run {} actions
  refine ⟨({} : Ledger).tally (run {} moves).2, ?_, ?_, ?_⟩
  · exact leaves ▸ always moves
  · rw [accepted_tally]
    exact gains []
  · rw [receipts_tally]
    exact ends

end LineConsole.Desk
