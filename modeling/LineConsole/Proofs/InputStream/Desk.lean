import LineConsole.Proofs.InputStream.Section
import LineConsole.Proofs.InputStream.Serving

/-!
# A section, turn by turn

The text that a section takes was described in one pass. A read takes it in turns: before each it
looks whether it was released, and a turn takes one character, or a batch for a read of characters,
or a CR with the LF behind it. Flags are raised outside the lock, so a read can be cancelled between
two turns of one section, with the first part of a line in its hands.

Here the lock is a desk with at most one read at it. A read comes to the desk when its section takes
the lock, draws from the buffer turn by turn, and leaves when it ends or goes to sleep. What happens
at the desk is noted: who began to read, what became of each character, and who ended with what.

A schedule of whole sections is a run at the desk in which no flag goes up between two turns.

## Main definitions

* `Use`, `Demand.help`, `Demand.Turn` — what a turn takes, and what becomes of each character
* `Desk`, `Desk.enter`, `Desk.draw`, `Desk.step`, `Desk.run` — the desk, and what happens there
* `Desk.Mark` — what is noted
* `Desk.Makes` — what moves make of a stream, seen from outside

## Main results

* `Demand.turn_help` — the six ways a turn goes
* `Demand.Turn.serve_of_complete`, `Demand.Turn.serve_of_more` — a pass is made of turns
* `Desk.exists_draws` — a section is made of turns
* `Desk.exists_moves_of_run` — every schedule is a run at the desk
-/

namespace LineConsole

open InputStream

/-- What becomes of a character that is taken from the buffer. -/
inductive Use where
  /-- It goes to the read. -/
  | kept
  /-- It ended the line that was read. -/
  | broke
  /-- It is an LF that belongs to a break already made. -/
  | skipped
deriving DecidableEq, Repr

/-- The text that goes to the read. -/
def keptText (taken : List (Char × Use)) : Text :=
  (taken.filter fun pair => pair.2 = .kept).map Prod.fst

/-- The outcome of one turn: the characters that were taken, what is left, whether an LF is to be
skipped next, and whether the demand is satisfied. -/
structure Helping where
  taken : List (Char × Use)
  rest : Text
  skipLF : Bool
  complete : Bool
deriving DecidableEq, Repr

/-- One turn of a read, over a buffer with a first character. -/
def Demand.help (demand : Demand) (skip : Bool) (c : Char) (rest : Text) : Helping :=
  if skip && c = '\n' then ⟨[(c, .skipped)], rest, false, false⟩
  else
    match demand with
    | .chars size => ⟨((c :: rest).take size).map (·, .kept), (c :: rest).drop size, false, true⟩
    | .line =>
      if c = '\r' then
        -- The LF of a CR LF goes along with its CR if it is there, else it is left to be skipped.
        match rest with
        | '\n' :: rest => ⟨[(c, .broke), ('\n', .skipped)], rest, false, true⟩
        | rest => ⟨[(c, .broke)], rest, true, true⟩
      else if c = '\n' then ⟨[(c, .broke)], rest, false, true⟩
      else ⟨[(c, .kept)], rest, false, false⟩

@[simp] theorem keptText_nil : keptText [] = [] := rfl

@[simp] theorem keptText_cons (c : Char) (use : Use) (taken : List (Char × Use)) :
    keptText ((c, use) :: taken) =
      if use = .kept then c :: keptText taken else keptText taken := by
  by_cases h : use = .kept <;> simp [keptText, h]

@[simp] theorem keptText_batch (t : Text) : keptText (t.map (·, .kept)) = t := by
  induction t with
  | nil => rfl
  | cons c t ih => simp [ih]

namespace Demand

/-- The six ways a turn goes. -/
inductive Turn : Demand → Bool → Char → Text → Helping → Prop
  | skip {demand : Demand} {rest : Text} :
      Turn demand true '\n' rest ⟨[('\n', .skipped)], rest, false, false⟩
  | batch {size : Nat} {skip : Bool} {c : Char} {rest : Text} : (skip = true → c ≠ '\n') →
      Turn (.chars size) skip c rest
        ⟨((c :: rest).take size).map (·, .kept), (c :: rest).drop size, false, true⟩
  | crlf {skip : Bool} {rest : Text} :
      Turn .line skip '\r' ('\n' :: rest) ⟨[('\r', .broke), ('\n', .skipped)], rest, false, true⟩
  | cr {skip : Bool} {rest : Text} : rest.head? ≠ some '\n' →
      Turn .line skip '\r' rest ⟨[('\r', .broke)], rest, true, true⟩
  | lf {rest : Text} : Turn .line false '\n' rest ⟨[('\n', .broke)], rest, false, true⟩
  | plain {skip : Bool} {c : Char} {rest : Text} : c ≠ '\r' → c ≠ '\n' →
      Turn .line skip c rest ⟨[(c, .kept)], rest, false, false⟩

theorem turn_help (demand : Demand) (skip : Bool) (c : Char) (rest : Text) :
    demand.Turn skip c rest (demand.help skip c rest) := by
  unfold help
  split
  next h =>
    obtain ⟨rfl, rfl⟩ : skip = true ∧ c = '\n' := by simpa using h
    exact .skip
  next h =>
    cases demand with
    | chars size => exact .batch (by simpa using h)
    | line =>
      dsimp only
      split_ifs with hr hn
      · subst hr
        split
        next rest => exact .crlf
        next hfirst =>
          refine .cr fun first => ?_
          obtain ⟨rest', rfl⟩ := List.head?_eq_some_iff.mp first
          exact hfirst rest' rfl
      · subst hn
        obtain rfl : skip = false := by simpa using h
        exact .lf
      · exact .plain hr hn

variable {demand : Demand} {skip : Bool} {c : Char} {rest : Text} {help : Helping}

theorem Turn.serve_of_complete (turn : demand.Turn skip c rest help) (h : help.complete = true) :
    demand.serve skip (c :: rest) = ⟨keptText help.taken, help.rest, help.skipLF, true⟩ := by
  cases turn with
  | skip => simp at h
  | batch hfirst =>
    rw [serve, takeChars, keptText_batch]
    simpa using hfirst
  | crlf => cases skip <;> rfl
  | cr hfirst =>
    rw [serve, scanLine]
    · rfl
    · rintro _ rfl
      exact hfirst rfl
  | lf => rfl
  | plain => simp at h

theorem Turn.serve_of_more (turn : demand.Turn skip c rest help) (h : help.complete = false) :
    demand.serve skip (c :: rest) =
      { demand.serve help.skipLF help.rest with
          taken := keptText help.taken ++ (demand.serve help.skipLF help.rest).taken } := by
  cases turn with
  | skip => cases demand <;> rfl
  | batch | crlf | cr | lf => simp at h
  | plain hr hn => exact scanLine_cons hr hn skip rest

theorem Turn.rest_of_more (turn : demand.Turn skip c rest help) (h : help.complete = false) :
    help.rest = rest := by
  cases turn with
  | skip | plain => rfl
  | batch | crlf | cr | lf => simp at h

theorem serve_nil (demand : Demand) (skip : Bool) : demand.serve skip [] = .nothing skip := by
  cases demand <;> cases skip <;> rfl

end Demand

/-- A stream with the read at its desk, if there is one. -/
structure Desk where
  stream : InputStream := {}
  served : Option Call := none
deriving DecidableEq, Repr

namespace Desk

/-- What is noted. -/
inductive Mark where
  | began (thread : ThreadId)
  | took (thread : ThreadId) (taken : List (Char × Use))
  | ended (thread : ThreadId) (demand : Demand) (result : Option Text)
  | accepted (text : Text)
  | emptied
deriving DecidableEq, Repr

/-- A section takes the lock. A read comes to the desk, or leaves at once if it asks for nothing;
any other section is done at once. -/
def enter (s : InputStream) : Action → Desk × List Mark
  | .start thread demand name =>
    if s.isReading thread then (⟨s, none⟩, [])
    else if demand = .chars 0 then (⟨s, none⟩, [.began thread, .ended thread demand none])
    else (⟨(s.enroll thread demand name).1, some (s.enroll thread demand name).2⟩, [.began thread])
  | .resume thread =>
    match s.callOf? thread with
    | some call => if call.awake then (⟨s.withdraw thread, some call⟩, []) else (⟨s, none⟩, [])
    | none => (⟨s, none⟩, [])
  | .append text => (⟨(s.append text).1, none⟩, [.accepted (s.accepts (.append text))])
  | .clear => (⟨s.clear.1, none⟩, [.emptied])
  | action => (⟨(s.perform action).1, none⟩, [])

/-- The stream after a turn. -/
def left (s : InputStream) (help : Helping) : InputStream :=
  { s with buffer := help.rest, skipLF := help.skipLF }

/-- The read after a turn. -/
def holds (call : Call) (help : Helping) : Call :=
  { call with taken := call.taken ++ keptText help.taken }

/-- One turn of the read at the desk. -/
def draw (s : InputStream) (call : Call) : Desk × List Mark :=
  if s.released call then
    (⟨s.retire call.handle, none⟩, [.ended call.thread call.demand call.soFar])
  else
    match s.buffer with
    | c :: rest =>
      let help := call.demand.help s.skipLF c rest
      if help.complete then
        (⟨(left s help).retire call.handle, none⟩,
          [.took call.thread help.taken,
            .ended call.thread call.demand (some (holds call help).taken)])
      else (⟨left s help, some (holds call help)⟩, [.took call.thread help.taken])
    | [] =>
      if s.isClosed then
        (⟨s.retire call.handle, none⟩, [.ended call.thread call.demand call.soFar])
      else (⟨s.enlist { call with awake := false }, none⟩, [])

/-- What can happen next: a section wants to take the lock, or the read at the desk has a turn. -/
inductive Move where
  | act (action : Action)
  | draw
deriving DecidableEq, Repr

/-- One move. Nobody takes the lock while a read is at the desk, but flags go up at any time. -/
def step (desk : Desk) : Move → Desk × List Mark
  | .act (.flag name) => ({ desk with stream := desk.stream.flag name }, [])
  | .act action =>
    match desk.served with
    | none => enter desk.stream action
    | some _ => (desk, [])
  | .draw =>
    match desk.served with
    | none => (desk, [])
    | some call => draw desk.stream call

/-- The moves of a list, one after the other. -/
def run (desk : Desk) : List Move → Desk × List Mark
  | [] => (desk, [])
  | move :: moves =>
    let (desk, marks) := desk.step move
    let (desk, later) := desk.run moves
    (desk, marks ++ later)

/-- The reads that have begun and not ended: the one at the desk and those that sleep. -/
def reading (desk : Desk) : List Call := desk.served.toList ++ desk.stream.calls

theorem run_cons (desk : Desk) (move : Move) (moves : List Move) :
    desk.run (move :: moves) =
      (((desk.step move).1.run moves).1,
        (desk.step move).2 ++ ((desk.step move).1.run moves).2) := rfl

theorem run_append (desk : Desk) (before after : List Move) :
    desk.run (before ++ after) =
      (((desk.run before).1.run after).1,
        (desk.run before).2 ++ ((desk.run before).1.run after).2) := by
  induction before generalizing desk with
  | nil => rfl
  | cons move moves ih => simp [run_cons, ih]

section Draw

variable {s : InputStream} {call : Call} {c : Char} {rest : Text} {help : Helping}

@[simp] theorem left_buffer : (left s help).buffer = help.rest := rfl

@[simp] theorem left_skipLF : (left s help).skipLF = help.skipLF := rfl

@[simp] theorem left_calls : (left s help).calls = s.calls := rfl

@[simp] theorem holds_demand : (holds call help).demand = call.demand := rfl

@[simp] theorem holds_taken : (holds call help).taken = call.taken ++ keptText help.taken := rfl

theorem draw_of_released (hr : s.released call = true) :
    draw s call = (⟨s.retire call.handle, none⟩, [.ended call.thread call.demand call.soFar]) := by
  simp [draw, hr]

theorem draw_of_complete (hr : s.released call = false) (hb : s.buffer = c :: rest)
    (hc : (call.demand.help s.skipLF c rest).complete = true) :
    draw s call =
      (⟨(left s (call.demand.help s.skipLF c rest)).retire call.handle, none⟩,
        [.took call.thread (call.demand.help s.skipLF c rest).taken,
          .ended call.thread call.demand
            (some (holds call (call.demand.help s.skipLF c rest)).taken)]) := by
  simp [draw, hr, hb, hc]

theorem draw_of_more (hr : s.released call = false) (hb : s.buffer = c :: rest)
    (hc : (call.demand.help s.skipLF c rest).complete = false) :
    draw s call =
      (⟨left s (call.demand.help s.skipLF c rest),
          some (holds call (call.demand.help s.skipLF c rest))⟩,
        [.took call.thread (call.demand.help s.skipLF c rest).taken]) := by
  simp [draw, hr, hb, hc]

theorem draw_of_drained (hr : s.released call = false) (hb : s.buffer = [])
    (closed : s.isClosed = true) :
    draw s call = (⟨s.retire call.handle, none⟩, [.ended call.thread call.demand call.soFar]) := by
  simp [draw, hr, hb, closed]

theorem draw_of_waiting (hr : s.released call = false) (hb : s.buffer = [])
    (opened : s.isClosed = false) :
    draw s call = (⟨s.enlist { call with awake := false }, none⟩, []) := by
  simp [draw, hr, hb, opened]

end Draw

/-! ## A schedule at the desk -/

/-- The end of a read, if that is what was noted. -/
def Mark.ending? : Mark → Option (ThreadId × Option Text)
  | .ended thread _ result => some (thread, result)
  | _ => none

/-- The reads that ended, with their results, in order. -/
def endings (marks : List Mark) : List (ThreadId × Option Text) := marks.filterMap Mark.ending?

/-- The text accepted since the last reset, after one more mark. -/
def Mark.gather (text : Text) : Mark → Text
  | .accepted more => text ++ more
  | .emptied => []
  | _ => text

/-- The text accepted since the last reset, after more marks. -/
def gathered (text : Text) (marks : List Mark) : Text := marks.foldl Mark.gather text

theorem gathered_append (text : Text) (marks later : List Mark) :
    gathered text (marks ++ later) = gathered (gathered text marks) later :=
  List.foldl_append

theorem endings_append (marks later : List Mark) :
    endings (marks ++ later) = endings marks ++ endings later :=
  List.filterMap_append

/-- A section over an empty buffer takes nothing. -/
theorem advance_of_nil {s : InputStream} {call : Call} (hr : s.released call = false)
    (hb : s.buffer = []) :
    s.advance call =
      if s.isClosed then (s.retire call.handle, .ended call.soFar)
      else (s.enlist { call with awake := false }, .waits) := by
  have nothing : call.demand.serve s.skipLF s.buffer = .nothing s.skipLF := by
    rw [hb, Demand.serve_nil]
  have same : s.serve call.demand = s := by
    simp [serve, nothing, Serving.nothing, ← hb]
  have hc : (call.demand.serve s.skipLF s.buffer).complete = false := by rw [nothing]; rfl
  cases closed : s.isClosed with
  | true =>
    rw [advance_of_drained hr hc closed, same, nothing]
    simp [Call.given, Call.soFar, Serving.nothing]
  | false =>
    rw [advance_of_waiting hr hc closed, same, nothing]
    simp [Call.given, Serving.nothing]

/-- A turn that satisfies the demand is the section. -/
theorem advance_of_turn {s : InputStream} {call : Call} {c : Char} {rest : Text} {help : Helping}
    (hr : s.released call = false) (hb : s.buffer = c :: rest)
    (turn : call.demand.Turn s.skipLF c rest help) (hc : help.complete = true) :
    s.advance call = ((left s help).retire call.handle, .ended (some (holds call help).taken)) := by
  simp only [advance, hr, hb, turn.serve_of_complete hc]
  rfl

/-- A turn that does not satisfy the demand leaves the section where it was. -/
theorem advance_of_more {s : InputStream} {call : Call} {c : Char} {rest : Text} {help : Helping}
    (hr : s.released call = false) (hb : s.buffer = c :: rest)
    (turn : call.demand.Turn s.skipLF c rest help) (hc : help.complete = false) :
    (left s help).advance (holds call help) = s.advance call := by
  have hr' : (left s help).released (holds call help) = false := hr
  simp only [advance, hr, hr', hb, turn.serve_of_more hc, holds_demand, holds_taken, left_buffer,
    left_skipLF, List.append_assoc]
  rfl

/-- A turn that ends the read, or puts it to sleep, is its section. -/
theorem draw_eq_advance {s : InputStream} {call : Call}
    (last : s.released call = true ∨ s.buffer = [] ∨ ∃ c rest, s.buffer = c :: rest ∧
      (call.demand.help s.skipLF c rest).complete = true) :
    (draw s call).1 = ⟨(s.advance call).1, none⟩ ∧
      endings (draw s call).2 = InputStream.endings ((s.advance call).2.events call.thread) := by
  cases hr : s.released call with
  | true =>
    rw [draw_of_released hr, advance_of_released hr]
    exact ⟨rfl, rfl⟩
  | false =>
    rcases last with released | hb | ⟨c, rest, hb, hc⟩
    · simp [hr] at released
    · rw [advance_of_nil hr hb]
      cases closed : s.isClosed with
      | true =>
        rw [draw_of_drained hr hb closed]
        exact ⟨rfl, rfl⟩
      | false =>
        rw [draw_of_waiting hr hb closed]
        exact ⟨rfl, rfl⟩
    · rw [draw_of_complete hr hb hc,
        advance_of_turn hr hb (call.demand.turn_help s.skipLF c rest) hc]
      exact ⟨rfl, rfl⟩

/-- No turn accepts anything. -/
theorem gathered_draw (s : InputStream) (call : Call) (text : Text) :
    gathered text (draw s call).2 = text := by
  unfold draw
  split
  · rfl
  · split
    · dsimp only
      split <;> rfl
    · split <;> rfl

/-- The moves leave the desk free, the stream as `later`, and these reads ended; the text accepted
since the last reset comes to be what `gain` makes of it. -/
structure Makes (desk : Desk) (moves : List Move) (later : InputStream)
    (ended : List (ThreadId × Option Text)) (gain : Text → Text) : Prop where
  leaves : (desk.run moves).1 = ⟨later, none⟩
  ends : endings (desk.run moves).2 = ended
  gains (text : Text) : gathered text (desk.run moves).2 = gain text

theorem makes_of_step {desk : Desk} {move : Move} {later : InputStream}
    {ended : List (ThreadId × Option Text)} {gain : Text → Text} (marks : List Mark)
    (h : desk.step move = (⟨later, none⟩, marks)) (ends : endings marks = ended)
    (gains : ∀ text, gathered text marks = gain text) : Makes desk [move] later ended gain := by
  refine ⟨by simp [run, h], ?_, ?_⟩
  · simpa [run, h] using ends
  · simpa [run, h] using gains

theorem makes_draw {s : InputStream} {call : Call}
    (last : s.released call = true ∨ s.buffer = [] ∨ ∃ c rest, s.buffer = c :: rest ∧
      (call.demand.help s.skipLF c rest).complete = true) :
    Makes ⟨s, some call⟩ [.draw] (s.advance call).1
      (InputStream.endings ((s.advance call).2.events call.thread)) id := by
  obtain ⟨leaves, ends⟩ := draw_eq_advance last
  exact makes_of_step _ (Prod.ext leaves rfl) ends (gathered_draw s call)

/-- The turns of a read are its section. -/
theorem exists_draws (s : InputStream) (call : Call) :
    ∃ moves, Makes ⟨s, some call⟩ moves (s.advance call).1
      (InputStream.endings ((s.advance call).2.events call.thread)) id := by
  induction hb : s.buffer generalizing s call with
  | nil => exact ⟨_, makes_draw (.inr (.inl hb))⟩
  | cons c rest ih =>
    cases hr : s.released call with
    | true => exact ⟨_, makes_draw (.inl hr)⟩
    | false =>
      cases hc : (call.demand.help s.skipLF c rest).complete with
      | true => exact ⟨_, makes_draw (.inr (.inr ⟨c, rest, hb, hc⟩))⟩
      | false =>
        -- No flag goes up in between, so the read is not released at the next turn either.
        have turn := call.demand.turn_help s.skipLF c rest
        obtain ⟨moves, leaves, ends, same⟩ := ih (left s (call.demand.help s.skipLF c rest))
          (holds call (call.demand.help s.skipLF c rest)) (turn.rest_of_more hc)
        rw [advance_of_more hr hb turn hc] at leaves ends
        refine ⟨.draw :: moves, ?_, ?_, fun text => ?_⟩
        · simp only [run_cons, step, draw_of_more hr hb hc]
          exact leaves
        · simp only [run_cons, step, draw_of_more hr hb hc]
          rw [endings_append, ends]
          rfl
        · simp only [run_cons, step, draw_of_more hr hb hc]
          rw [gathered_append]
          exact same text

/-- The text accepted since the last reset, after one more section of a schedule. -/
def gather (s : InputStream) (action : Action) (text : Text) : Text :=
  if action = .clear then [] else text ++ s.accepts action

/-- The text accepted since the last reset, after a schedule. -/
def gatherAll (s : InputStream) : List Action → Text → Text
  | [], text => text
  | action :: actions, text => gatherAll (s.perform action).1 actions (gather s action text)

/-- A section that serves a read brings it to the desk. -/
theorem step_of_serves {s s₀ : InputStream} {action : Action} {call : Call}
    (h : s.Serves action s₀ call) :
    ∃ marks, step ⟨s, none⟩ (.act action) = (⟨s₀, some call⟩, marks) ∧ endings marks = [] ∧
      ∀ text, gathered text marks = gather s action text := by
  cases h with
  | @start thread demand name idle asks =>
    refine ⟨[.began thread], ?_, rfl, fun text => ?_⟩
    · simp [step, enter, idle, asks]
    · simp [gathered, Mark.gather, gather, accepts]
  | resume hcall awake =>
    refine ⟨[], ?_, rfl, fun text => ?_⟩
    · simp [step, enter, hcall, awake]
    · simp [gathered, gather, accepts]

theorem makes_of_signals {s : InputStream} {action : Action} (h : action.Signals) :
    Makes ⟨s, none⟩ [.act action] (s.perform action).1
      (InputStream.endings (s.perform action).2) (gather s action) := by
  have nothing (text : Text) : gather s action text = text := by
    cases h <;> simp [gather, accepts]
  refine makes_of_step [] ?_ (spares_of_signals h).silent.symm fun text => (nothing text).symm
  cases h <;> rfl

/-- A thread's section that serves no read is done in one move. -/
theorem makes_of_idle {s : InputStream} {action : Action} {thread : ThreadId}
    (reads : action.reader? = some thread) (h : ∀ s₀ call, ¬ s.Serves action s₀ call) :
    Makes ⟨s, none⟩ [.act action] (s.perform action).1
      (InputStream.endings (s.perform action).2) (gather s action) := by
  have nothing (text : Text) : gather s action text = text := by
    cases action <;> simp_all [gather, accepts, Action.reader?]
  cases action with
  | start reader demand name =>
    cases reading : s.isReading reader with
    | true =>
      have same : s.perform (.start reader demand name) = (s, []) := by simp [perform, reading]
      rw [same]
      refine makes_of_step [] ?_ rfl fun text => (nothing text).symm
      simp [step, enter, reading]
    | false =>
      by_cases asks : demand = .chars 0
      · subst asks
        have same : s.perform (.start reader (.chars 0) name) = (s, [.ended reader none]) := by
          simp [perform, reading, Outcome.events]
        rw [same]
        refine makes_of_step [.began reader, .ended reader (.chars 0) none] ?_ rfl
          fun text => (nothing text).symm
        simp [step, enter, reading]
      · exact absurd (.start reading asks) (h _ _)
  | resume reader =>
    have same : s.perform (.resume reader) = (s, []) ∧
        enter s (.resume reader) = (⟨s, none⟩, []) := by
      cases hcall : s.callOf? reader with
      | none => simp [perform, enter, hcall, resume_of_none hcall, Outcome.events]
      | some call =>
        cases awake : call.awake with
        | true => exact absurd (.resume hcall awake) (h _ _)
        | false => simp [perform, enter, hcall, awake, resume_of_asleep hcall awake, Outcome.events]
    rw [same.1]
    exact makes_of_step _ same.2 rfl fun text => (nothing text).symm
  | append | close | clear | interrupt | flag | alert => simp [Action.reader?] at reads

/-- A section that serves no read is done in one move. -/
theorem makes_of_not_serves {s : InputStream} {action : Action}
    (h : ∀ s₀ call, ¬ s.Serves action s₀ call) :
    Makes ⟨s, none⟩ [.act action] (s.perform action).1
      (InputStream.endings (s.perform action).2) (gather s action) := by
  cases action with
  | start | resume => exact makes_of_idle rfl h
  | append text =>
    refine makes_of_step _ rfl ?_ fun _ => rfl
    rw [(spares_append s text).silent]
    rfl
  | clear => exact makes_of_step _ rfl rfl fun _ => rfl
  | close | interrupt | flag | alert => exact makes_of_signals (by constructor)

/-- Each section of a schedule is a run at the desk. -/
theorem exists_moves_of_perform (s : InputStream) (action : Action) :
    ∃ moves, Makes ⟨s, none⟩ moves (s.perform action).1
      (InputStream.endings (s.perform action).2) (gather s action) := by
  by_cases hs : ∃ s₀ call, s.Serves action s₀ call
  · obtain ⟨s₀, call, h⟩ := hs
    obtain ⟨marks, comes, silent, gains⟩ := step_of_serves h
    obtain ⟨moves, leaves, ends, same⟩ := exists_draws s₀ call
    rw [perform_of_serves h]
    refine ⟨.act action :: moves, ?_, ?_, fun text => ?_⟩
    · rw [run_cons, comes]
      exact leaves
    · rw [run_cons, comes, endings_append, silent, ends]
      rfl
    · rw [run_cons, comes, gathered_append, same, gains]
      rfl
  · push Not at hs
    exact ⟨_, makes_of_not_serves hs⟩

/-- **Every schedule is a run at the desk**, with the same reads ended by the same results and the
same text accepted. -/
theorem exists_moves_of_run (s : InputStream) (actions : List Action) :
    ∃ moves, Makes ⟨s, none⟩ moves (s.run actions).1 (InputStream.endings (s.run actions).2)
      (gatherAll s actions) := by
  induction actions generalizing s with
  | nil => exact ⟨[], rfl, rfl, fun _ => rfl⟩
  | cons action actions ih =>
    obtain ⟨first, leaves, ends, gains⟩ := exists_moves_of_perform s action
    obtain ⟨rest, leaves', ends', gains'⟩ := ih (s.perform action).1
    rw [InputStream.run_cons]
    refine ⟨first ++ rest, ?_, ?_, fun text => ?_⟩
    · rw [run_append, leaves]
      exact leaves'
    · rw [run_append, leaves, endings_append, ends, ends', InputStream.endings_append]
    · rw [run_append, leaves, gathered_append, gains, gains']
      rfl

end Desk

end LineConsole
