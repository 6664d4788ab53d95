import Mathlib.Logic.Function.Iterate
import LineConsole.Proofs.InputStream.Section
import LineConsole.Proofs.InputStream.Serving
import LineConsole.Reading.Program

/-!
# Reading while text arrives

A program reads from a stream to which text is still being appended. Its reads block and resume in
the middle of a line, and the two characters of a CR LF may reach it by different ways. It is
compared with the same program reading from a text that is all there, where every read is answered
at once and nothing is remembered but what is left to read.

The two are never far apart. Whatever is still to come, the program over the stream is where the
program over the whole text is after as many answers, and the text left there is what the blocked
read holds, then what is buffered, then what is to come. That is `outlook`, and it holds through
every beat because a section moves text within it or takes an answer off its front.

## Main definitions

* `InputStream.outlook` — the text from which a thread's answers are still to come
* `Program.Timeless` — a program whose reads do not depend on when text arrives
* `Program.Study`, `Program.pursue` — a program over a text that is all there
* `Program.Beat`, `Program.play` — a program over a stream to which text is appended

## Main results

* `proceed_study` — a turn keeps the study or pursues it, and pursues it once the stream is closed
* `play_study` — while text arrives, the program is where some number of answers leave it
* `proceed_closed_study` — after the close, each turn is an answer
-/

namespace LineConsole

open Text

namespace InputStream

variable {s : InputStream} {call : Call} {thread : ThreadId}

/-- The text from which a thread's answers are still to come: what its read holds, what is buffered,
and what has yet to arrive. -/
def outlook (s : InputStream) (thread : ThreadId) (future : Text) : Text :=
  (s.callOf? thread).elim [] Call.taken ++ unread s.skipLF (s.buffer ++ future)

/-- When nothing more is to come, a thread that does not read has its answers from what is buffered.
-/
theorem outlook_of_idle (idle : s.callOf? thread = none) :
    s.outlook thread [] = unread s.skipLF s.buffer := by
  simp [outlook, idle]

/-- The stream is open, nothing is unread in it and no LF is to be skipped, and the thread does not
read. -/
structure Fresh (s : InputStream) (thread : ThreadId) : Prop where
  opened : s.isClosed = false
  drained : s.buffer = []
  settled : s.skipLF = false
  idle : s.callOf? thread = none

/-- A new stream is fresh. -/
theorem fresh_new (thread : ThreadId) : ({} : InputStream).Fresh thread := ⟨rfl, rfl, rfl, rfl⟩

/-- A stream that was reset is fresh to a thread that does not read. -/
theorem fresh_clear (h : s.callOf? thread = none) : s.clear.1.Fresh thread :=
  ⟨rfl, rfl, rfl, by rw [clear, callOf?_wakeAll]; simpa [callOf?] using h⟩

/-- What can still arrive. Nothing arrives at a closed stream. -/
def MayReceive (s : InputStream) (future : Text) : Prop := s.isClosed = true → future = []

/-- Waking changes nothing about what is to be read. -/
@[simp] theorem outlook_wakeAll (future : Text) :
    s.wakeAll.outlook thread future = s.outlook thread future := by
  simp only [outlook, callOf?_wakeAll]
  cases s.callOf? thread <;> rfl

/-- A section that ends a read answers it from the front of the outlook. -/
theorem advance_answer {s' : InputStream} {result : Option Text}
    (h : s.advance call = (s', .ended result)) (timeless : call.demand.Timeless)
    (hold : call.demand.MayHold call.taken) (hr : s.released call = false)
    (alone : s.callOf? call.thread = none) {future : Text} (may : s.MayReceive future) :
    s'.callOf? call.thread = none ∧
      call.demand.read (call.taken ++ unread s.skipLF (s.buffer ++ future)) =
        (result, s'.outlook call.thread future) := by
  cases hc : (call.demand.serve s.skipLF s.buffer).complete with
  | true =>
    rw [advance_of_complete hr hc] at h
    cases h
    refine ⟨alone, ?_⟩
    rw [Demand.read_of_complete timeless hold hc]
    simp [outlook, alone]
  | false =>
    cases closed : s.isClosed with
    | false => simp [advance_of_waiting hr hc closed] at h
    | true =>
      obtain rfl := may closed
      obtain ⟨hold', split⟩ := Demand.split_of_incomplete hold hc
      rw [advance_of_drained hr hc closed] at h
      cases h
      have hrest := Demand.rest_eq_nil_of_incomplete hc
      refine ⟨alone, ?_⟩
      rw [split, unread_nil, List.append_nil, Demand.read_of_mayHold hold']
      simp [outlook, alone, hrest, Call.soFar]

/-- A section that puts a read to sleep leaves the outlook as it was. -/
theorem advance_wait {s' : InputStream} (h : s.advance call = (s', .waits))
    (hold : call.demand.MayHold call.taken) (hr : s.released call = false)
    (alone : s.callOf? call.thread = none) :
    s.isClosed = false ∧
      (∃ call', s'.callOf? call.thread = some call' ∧ call'.demand = call.demand ∧
        call'.demand.MayHold call'.taken ∧ s'.released call' = false) ∧
      ∀ future, s'.outlook call.thread future =
        call.taken ++ unread s.skipLF (s.buffer ++ future) := by
  cases hc : (call.demand.serve s.skipLF s.buffer).complete with
  | true => simp [advance_of_complete hr hc] at h
  | false =>
    cases closed : s.isClosed with
    | true => simp [advance_of_drained hr hc closed] at h
    | false =>
      obtain ⟨hold', split⟩ := Demand.split_of_incomplete hold hc
      rw [advance_of_waiting hr hc closed] at h
      cases h
      have hrest := Demand.rest_eq_nil_of_incomplete hc
      have found := callOf?_enlist (s := s.serve call.demand)
        (call.given (call.demand.serve s.skipLF s.buffer).taken) alone
      rw [given_thread] at found
      refine ⟨rfl, ⟨_, found, rfl, hold', hr⟩, fun future => ?_⟩
      rw [split future]
      simp [outlook, found, hrest]

end InputStream

namespace Program

open InputStream

variable {σ ε : Type}

/-- Every read that the program asks for, from the allowed states on, is of a line or of one
character and through a handle of its own. -/
structure Timeless (p : Program σ ε) (allowed : σ → Prop) : Prop where
  asks {state : σ} {ask : Ask} : allowed state → p.asks state = some ask →
    ask.handle = none ∧ ask.demand.Timeless
  receive {state : σ} (result : Option Text) : allowed state → allowed (p.receive state result).1

/-- A program over a text that is all there: its state, what it did, and the text left to read. -/
structure Study (σ ε : Type) where
  state : σ
  done : List ε
  unread : Text

/-- One answer to a program over a text that is all there. -/
def pursue (p : Program σ ε) (study : Study σ ε) : Study σ ε :=
  match p.asks study.state with
  | none => study
  | some ask =>
    let answer := ask.demand.read study.unread
    let (state, done) := p.receive study.state answer.1
    ⟨state, study.done ++ done, answer.2⟩

/-- The study that a program over a stream stands for, if this is yet to come. -/
def Scene.study (scene : Scene σ ε) (thread : ThreadId) (future : Text) : Study σ ε :=
  ⟨scene.state, scene.done, scene.stream.outlook thread future⟩

/-- One turn of the program's thread. -/
def proceed (p : Program σ ε) (thread : ThreadId) (scene : Scene σ ε) : Scene σ ε :=
  let next := p.turn thread scene.stream scene.state
  { next with done := scene.done ++ next.done }

/-- The program's thread runs until it rests. -/
def rest (p : Program σ ε) (thread : ThreadId) (scene : Scene σ ε) : Scene σ ε :=
  let next := p.settle thread scene.stream scene.state
  { next with done := scene.done ++ next.done }

/-- What happens next: the program's thread takes a turn, or text arrives. -/
inductive Beat where
  | turn
  | append (text : Text)

/-- One beat. -/
def beat (p : Program σ ε) (thread : ThreadId) (scene : Scene σ ε) : Beat → Scene σ ε
  | .turn => p.proceed thread scene
  | .append text => { scene with stream := (scene.stream.append text).1 }

/-- The beats of a list, one after the other. -/
def play (p : Program σ ε) (thread : ThreadId) : Scene σ ε → List Beat → Scene σ ε
  | scene, [] => scene
  | scene, beat :: beats => p.play thread (p.beat thread scene beat) beats

/-- The text that a beat brings. -/
def Beat.text : Beat → Text
  | .turn => []
  | .append text => text

/-- The scene with the stream closed. -/
def Scene.close (scene : Scene σ ε) : Scene σ ε :=
  { scene with stream := scene.stream.close.1 }

/-- The scene after a section of the program's thread. -/
def Scene.after (p : Program σ ε) (scene : Scene σ ε) : InputStream × Outcome → Scene σ ε
  | (stream, .ended result) =>
    ⟨stream, (p.receive scene.state result).1, scene.done ++ (p.receive scene.state result).2⟩
  | (stream, .waits) => ⟨stream, scene.state, scene.done⟩

/-- The thread's read in progress is the one its program asked for, it may still be served, and on a
closed stream it has been woken. -/
structure Attended (p : Program σ ε) (scene : Scene σ ε) (call : Call) : Prop where
  asked : ∃ ask, p.asks scene.state = some ask ∧ ask.demand = call.demand
  hold : call.demand.MayHold call.taken
  unreleased : scene.stream.released call = false
  roused : scene.stream.isClosed = true → call.awake = true

/-- A scene in which any read of the thread is attended. -/
def Attends (p : Program σ ε) (thread : ThreadId) (scene : Scene σ ε) : Prop :=
  ∀ call, scene.stream.callOf? thread = some call → p.Attended scene call

variable {p : Program σ ε} {allowed : σ → Prop} {thread : ThreadId} {scene : Scene σ ε}

/-! ## One turn -/

theorem after_stream (advanced : InputStream × Outcome) :
    (scene.after p advanced).stream = advanced.1 := by
  obtain ⟨s, _ | _⟩ := advanced <;> rfl

theorem proceed_of_reading {call : Call}
    (h : scene.stream.callOf? thread = some call) :
    p.proceed thread scene = scene.after p (scene.stream.resume thread) := by
  have reading : scene.stream.isReading thread = true := isReading_iff.mpr ⟨call, h⟩
  rcases hres : scene.stream.resume thread with ⟨s', _ | _⟩ <;>
    simp [proceed, turn, reading, hres, Scene.after]

theorem proceed_of_resting (h : scene.stream.callOf? thread = none)
    (rests : p.asks scene.state = none) : p.proceed thread scene = scene := by
  simp [proceed, turn, InputStream.isReading, h, rests]

theorem proceed_of_asking {ask : Ask} (h : scene.stream.callOf? thread = none)
    (asks : p.asks scene.state = some ask) :
    p.proceed thread scene = scene.after p (scene.stream.start thread ask.demand ask.handle) := by
  rcases hres : scene.stream.start thread ask.demand ask.handle with ⟨s', _ | _⟩ <;>
    simp [proceed, turn, InputStream.isReading, h, asks, hres, Scene.after]

/-- A section of the thread's read keeps the study, or pursues it by the answer. -/
theorem after_advance_study {s : InputStream} {call : Call} {ask : Ask}
    (timeless : p.Timeless allowed) (ok : allowed scene.state)
    (asks : p.asks scene.state = some ask) (demand : ask.demand = call.demand)
    (hold : call.demand.MayHold call.taken) (hr : s.released call = false)
    (alone : s.callOf? thread = none) (own : call.thread = thread)
    (closed : s.isClosed = scene.stream.isClosed)
    (same : ∀ future, call.taken ++ unread s.skipLF (s.buffer ++ future) =
      scene.stream.outlook thread future) :
    let next := scene.after p (s.advance call)
    p.Attends thread next ∧ allowed next.state ∧ next.stream.isClosed = scene.stream.isClosed ∧
      ((∀ future, scene.stream.MayReceive future →
          next.study thread future = p.pursue (scene.study thread future)) ∨
        (scene.stream.isClosed = false ∧
          ∀ future, next.study thread future = scene.study thread future)) := by
  subst own
  simp only [MayReceive, ← closed]
  have htimeless : call.demand.Timeless := demand ▸ (timeless.asks ok asks).2
  have hclosed := isClosed_advance s call
  rcases h : s.advance call with ⟨s', _ | _⟩
  case ended result =>
    rw [h] at hclosed
    have answer := fun future (may : s.MayReceive future) =>
      advance_answer h htimeless hold hr alone may
    -- That the read is gone does not depend on what is to come.
    obtain ⟨gone, -⟩ := answer [] fun _ => rfl
    refine ⟨fun c found => ?_, timeless.receive _ ok, hclosed, .inl fun future may => ?_⟩
    · simp [Scene.after, gone] at found
    · have hread := (answer future may).2
      rw [same future] at hread
      simp [Scene.study, Scene.after, pursue, asks, demand, hread]
  case waits =>
    obtain ⟨opened, ⟨call', found', hdemand, hold', hr'⟩, outlook⟩ :=
      advance_wait h hold hr alone
    rw [h] at hclosed
    refine ⟨fun c found => ?_, ok, hclosed, .inr ⟨opened, fun future => ?_⟩⟩
    · obtain rfl : call' = c := Option.some.inj (found'.symm.trans found)
      refine ⟨⟨ask, asks, demand.trans hdemand.symm⟩, hold', hr', fun isClosed => ?_⟩
      simp [Scene.after, hclosed, opened] at isClosed
    · simp [Scene.study, Scene.after, outlook, same]

/-- **One turn.** The study is pursued by one answer, or stays; on a closed stream it is pursued. -/
theorem proceed_study (timeless : p.Timeless allowed) (ok : allowed scene.state)
    (attends : p.Attends thread scene) :
    let next := p.proceed thread scene
    p.Attends thread next ∧ allowed next.state ∧ next.stream.isClosed = scene.stream.isClosed ∧
      ((∀ future, scene.stream.MayReceive future →
          next.study thread future = p.pursue (scene.study thread future)) ∨
        (scene.stream.isClosed = false ∧
          ∀ future, next.study thread future = scene.study thread future)) := by
  cases hcall : scene.stream.callOf? thread with
  | some call =>
    obtain ⟨⟨ask, asks, demand⟩, hold, hr, roused⟩ := attends call hcall
    rw [proceed_of_reading hcall]
    cases awake : call.awake with
    | true =>
      rw [resume_eq hcall awake]
      exact after_advance_study timeless ok asks demand hold hr callOf?_withdraw
        (thread_of_callOf? hcall) rfl fun future => by simp [outlook, hcall, withdraw]
    | false =>
      have opened : scene.stream.isClosed = false := by
        cases h : scene.stream.isClosed with
        | false => rfl
        | true => simp [roused h] at awake
      rw [resume_of_asleep hcall awake]
      exact ⟨attends, ok, rfl, .inr ⟨opened, fun _ => rfl⟩⟩
  | none =>
    cases asks : p.asks scene.state with
    | none =>
      rw [proceed_of_resting hcall asks]
      exact ⟨attends, ok, rfl, .inl fun future _ => by simp [pursue, Scene.study, asks]⟩
    | some ask =>
      obtain ⟨own, htimeless⟩ := timeless.asks ok asks
      rw [proceed_of_asking hcall asks, start_eq htimeless.ne_chars_zero, own]
      refine after_advance_study timeless ok asks rfl (Demand.mayHold_nil _) ?_ hcall rfl rfl
        fun future => ?_
      · simp [enroll, released, attach, renew]
      · simp [outlook, hcall, enroll, attach, renew]

/-! ## Arrivals and the close -/

/-- Waking the reads keeps a scene attended when they stay as unreleased as they were. -/
theorem Attends.wakeAll (attends : p.Attends thread scene) {s : InputStream}
    (calls : s.callOf? thread = scene.stream.callOf? thread)
    (unreleased : ∀ call, s.released call = scene.stream.released call) :
    p.Attends thread { scene with stream := s.wakeAll } := by
  intro call found
  simp only [callOf?_wakeAll, calls] at found
  obtain ⟨asleep, hcall, rfl⟩ := Option.map_eq_some_iff.mp found
  obtain ⟨asked, hold, hr, -⟩ := attends asleep hcall
  exact ⟨asked, hold, (unreleased asleep).trans hr, fun _ => rfl⟩

/-- What arrives has been part of the outlook before. -/
theorem append_study (attends : p.Attends thread scene)
    (opened : scene.stream.isClosed = false) (text : Text) :
    let next := p.beat thread scene (.append text)
    p.Attends thread next ∧ next.stream.isClosed = false ∧
      ∀ future, next.study thread future = scene.study thread (text ++ future) := by
  by_cases ht : text = []
  · subst ht
    exact ⟨attends, opened, fun _ => rfl⟩
  · simp only [beat, append_of_open ht opened]
    refine ⟨attends.wakeAll rfl fun _ => rfl, opened, fun future => ?_⟩
    simp only [Scene.study, outlook_wakeAll]
    simp [outlook, callOf?]

/-- The close takes nothing from the outlook. -/
theorem close_study (attends : p.Attends thread scene)
    (opened : scene.stream.isClosed = false) :
    p.Attends thread scene.close ∧ scene.close.stream.isClosed = true ∧
      ∀ future, scene.close.study thread future = scene.study thread future := by
  simp only [Scene.close, close_of_open opened]
  refine ⟨attends.wakeAll rfl fun _ => rfl, rfl, fun future => ?_⟩
  simp only [Scene.study, outlook_wakeAll]
  simp [outlook, callOf?]

/-! ## Runs -/

/-- **While text arrives**, the program is where some number of answers from the whole text leave
it, whatever is still to come. -/
theorem play_study (timeless : p.Timeless allowed) (ok : allowed scene.state)
    (attends : p.Attends thread scene) (opened : scene.stream.isClosed = false)
    (beats : List Beat) :
    let next := p.play thread scene beats
    p.Attends thread next ∧ allowed next.state ∧ next.stream.isClosed = false ∧
      ∃ k, ∀ future, next.study thread future =
        p.pursue^[k] (scene.study thread (beats.flatMap Beat.text ++ future)) := by
  -- Text that arrives passes from what is to come into the stream, and the study is the same.
  induction beats generalizing scene with
  | nil => exact ⟨attends, ok, opened, 0, fun _ => rfl⟩
  | cons beat beats ih =>
    cases beat with
    | append text =>
      obtain ⟨attends', opened', step⟩ := append_study attends opened text
      obtain ⟨attended, allowed', stays, k, rest⟩ := @ih (p.beat thread scene (.append text)) ok
        attends' opened'
      refine ⟨attended, allowed', stays, k, fun future => ?_⟩
      rw [List.flatMap_cons, List.append_assoc, Beat.text, ← step]
      exact rest future
    | turn =>
      obtain ⟨attends', ok', closed', step⟩ := proceed_study timeless ok attends
      obtain ⟨attended, allowed', stays, k, rest⟩ := @ih (p.proceed thread scene) ok' attends'
        (closed'.trans opened)
      refine ⟨attended, allowed', stays, ?_⟩
      rcases step with pursued | ⟨-, kept⟩
      · refine ⟨k + 1, fun future => ?_⟩
        have may : scene.stream.MayReceive (beats.flatMap Beat.text ++ future) := by
          simp [MayReceive, opened]
        rw [Function.iterate_succ_apply, List.flatMap_cons, Beat.text, List.nil_append,
          ← pursued _ may]
        exact rest future
      · refine ⟨k, fun future => ?_⟩
        rw [List.flatMap_cons, Beat.text, List.nil_append, ← kept]
        exact rest future

/-- Before anything has arrived the study has all of the text before it. -/
theorem study_of_fresh {s : InputStream} (fresh : s.Fresh thread) (state : σ) (done : List ε)
    (future : Text) : Scene.study ⟨s, state, done⟩ thread future = ⟨state, done, future⟩ := by
  simp [Scene.study, outlook, fresh.idle, fresh.drained, fresh.settled]

theorem attends_of_fresh {s : InputStream} (fresh : s.Fresh thread) (state : σ) (done : List ε) :
    p.Attends thread ⟨s, state, done⟩ := by
  intro call found
  simp [fresh.idle] at found

/-- A read of the thread stays attended, however many turns it takes, and no turn closes the stream
or opens it. -/
theorem attends_iterate_proceed (timeless : p.Timeless allowed) (ok : allowed scene.state)
    (attends : p.Attends thread scene) (n : Nat) :
    p.Attends thread ((p.proceed thread)^[n] scene) ∧
      ((p.proceed thread)^[n] scene).stream.isClosed = scene.stream.isClosed := by
  induction n generalizing scene with
  | zero => exact ⟨attends, rfl⟩
  | succ n ih =>
    obtain ⟨attends', ok', closed', -⟩ := proceed_study timeless ok attends
    obtain ⟨attended, closed⟩ := ih ok' attends'
    rw [Function.iterate_succ_apply]
    exact ⟨attended, closed.trans closed'⟩

/-- **After the close**, each turn is one answer from what is left. -/
theorem proceed_closed_study (timeless : p.Timeless allowed) (ok : allowed scene.state)
    (attends : p.Attends thread scene) (closed : scene.stream.isClosed = true) (n : Nat) :
    ((p.proceed thread)^[n] scene).study thread [] = p.pursue^[n] (scene.study thread []) := by
  induction n generalizing scene with
  | zero => rfl
  | succ n ih =>
    obtain ⟨attends', ok', closed', step⟩ := proceed_study timeless ok attends
    rcases step with pursued | ⟨opened, -⟩
    · rw [Function.iterate_succ_apply, Function.iterate_succ_apply,
        ih ok' attends' (closed'.trans closed), pursued [] fun _ => rfl]
    · simp [opened] at closed

/-- A program over a fresh stream, as text arrives and the stream is closed: it is where some number
of answers from the whole text leave it. -/
theorem play_close_study {s : InputStream} (timeless : p.Timeless allowed) {state : σ}
    (ok : allowed state) (fresh : s.Fresh thread) (beats : List Beat) :
    let scene := (p.play thread ⟨s, state, []⟩ beats).close
    p.Attends thread scene ∧ allowed scene.state ∧ scene.stream.isClosed = true ∧
      ∃ k, scene.study thread [] = p.pursue^[k] ⟨state, [], beats.flatMap Beat.text⟩ := by
  obtain ⟨attends, ok', opened, k, studied⟩ := play_study timeless ok
    (attends_of_fresh fresh state []) fresh.opened beats
  obtain ⟨attends', closed, kept⟩ := close_study attends opened
  refine ⟨attends', ok', closed, k, ?_⟩
  rw [kept, studied, study_of_fresh fresh, List.append_nil]

/-- The turns of a thread are its sections, one by one. -/
theorem iterate_proceed (n : Nat) (scene : Scene σ ε) :
    (p.proceed thread)^[n] scene =
      { p.turns thread n scene.stream scene.state with
          done := scene.done ++ (p.turns thread n scene.stream scene.state).done } := by
  induction n generalizing scene with
  | zero => simp [turns]
  | succ n ih => simp [Function.iterate_succ_apply, ih, proceed, turns]

/-- A thread rests after a turn for each character, one before them and one after them. -/
theorem rest_eq (scene : Scene σ ε) :
    p.rest thread scene = (p.proceed thread)^[scene.stream.available + 2] scene :=
  (iterate_proceed ..).symm

end Program

end LineConsole
