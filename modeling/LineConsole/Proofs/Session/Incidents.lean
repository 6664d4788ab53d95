import LineConsole.Proofs.InputStream.Interrupt
import LineConsole.Proofs.Session.Resting
import LineConsole.Session.Live

/-!
# Sessions and what happens around them

A session runs on a thread of its own and takes a turn now and then. Between two of its turns other
threads append text, read, interrupt the session or reset the stream, and when the session has
ended somebody may open it again over the same stream. A history is a list of such incidents, in the
order in which they happen. Nothing is said about when the session takes its turns, so a text that
is appended may be followed by an interrupt before the session has run.

Whatever happens, the session reads lines through handles of its own, and reads only while it lives.
So a turn goes in one of two ways: the session has nothing to do, or a section of its read is served
and the session takes the result if the read ends.

## Main definitions

* `Course.Incident`, `Course.undergo`, `Course.history` — what can happen, and what becomes of the
  session
* `Course.Conducted` — what every incident around a session keeps up
* `Course.TurnsTo` — the ways in which a turn can go
* `Live.after` — a session in bursts

## Main results

* `Conducted.turnsTo` — a turn goes in one of these ways
* `conducted_history` — every history keeps the session in order
* `live_after` — with an interpreter that remembers nothing, a session in bursts has a history
-/

namespace LineConsole

open Text Program

namespace InputStream

variable {s : InputStream} {call : Call}

/-- A section ends a read, or the read goes to sleep with what it was given. -/
theorem callOf?_advance (alone : s.callOf? call.thread = none) :
    (∃ result, (s.advance call).2 = .ended result ∧
      (s.advance call).1.callOf? call.thread = none) ∨
    (s.advance call).2 = .waits ∧
      (call.demand.serve s.skipLF s.buffer).complete = false ∧
      (s.advance call).1.callOf? call.thread =
        some (call.given (call.demand.serve s.skipLF s.buffer).taken) := by
  have ways := s.advances call
  generalize s.advance call = advanced at ways
  cases ways with
  | released | complete | drained => exact .inl ⟨_, rfl, alone⟩
  | waiting _ incomplete =>
    exact .inr ⟨rfl, incomplete, callOf?_enlist (s := s.serve call.demand) _ alone⟩

/-- A section that serves a read of a line is that of a reader of lines. -/
theorem Serves.lineWise {s₀ : InputStream} {action : Action} (h : s.Serves action s₀ call)
    (demand : call.demand = .line) : action.LineWise := by
  cases h with
  | start => rwa [enroll_demand] at demand
  | resume => trivial

end InputStream

namespace Program

variable {σ ε : Type} {p : Program σ ε} {scene : Scene σ ε}
  {advanced : InputStream × InputStream.Outcome}

theorem after_of_ended {result : Option Text} (h : advanced.2 = .ended result) :
    scene.after p advanced = ⟨advanced.1, (p.receive scene.state result).1,
      scene.done ++ (p.receive scene.state result).2⟩ := by
  obtain ⟨s, outcome⟩ := advanced
  obtain rfl : outcome = .ended result := h
  rfl

theorem after_of_waits (h : advanced.2 = .waits) :
    scene.after p advanced = ⟨advanced.1, scene.state, scene.done⟩ := by
  obtain ⟨s, outcome⟩ := advanced
  obtain rfl : outcome = .waits := h
  rfl

end Program

/-! ## Bursts -/

/-- A session begins on a new stream and there are bursts of steps, one after the other. Gives the
session at the end, with all that it made known. -/
def Live.after (interpreter : Interpreter) (bursts : List (List Live.Step)) : Live.Progress :=
  bursts.foldl
    (fun progress steps =>
      let turn := progress.1.burst interpreter steps
      (turn.live, progress.2 ++ turn.events))
    (({} : Live).begin interpreter)

namespace Session.Course

/-! ## Histories -/

/-- What can happen around a session: its thread takes a turn, there is a section of some other
thread, or the session is opened again if it has ended. -/
inductive Incident where
  | turn
  | act (action : InputStream.Action)
  | restart
deriving DecidableEq

/-- What can happen around the session of a thread: a section in its name is a turn. -/
def Incident.Foreign (thread : ThreadId) : Incident → Prop
  | act action => action.reader? ≠ some thread
  | turn | restart => True

/-- The session opens once more, with an interpreter that remembers what it executed. -/
def reopen (course : Course) (scene : Scene Stage Event) : Scene Stage Event :=
  ⟨scene.stream, ⟨scene.state.past, opened⟩, scene.done ++ opening (course scene.state.past)⟩

/-- One incident. -/
def undergo (course : Course) (thread : ThreadId) (scene : Scene Stage Event) :
    Incident → Scene Stage Event
  | .turn => course.program.proceed thread scene
  | .act action => { scene with stream := (scene.stream.perform action).1 }
  | .restart => if scene.state.session.isAlive then scene else course.reopen scene

/-- A session begins on a new stream, and incidents happen one after the other. -/
def history (course : Course) (thread : ThreadId) (incidents : List Incident) :
    Scene Stage Event :=
  incidents.foldl (course.undergo thread) (course.beginning [] {})

theorem history_append (course : Course) (thread : ThreadId) (front back : List Incident) :
    course.history thread (front ++ back) =
      back.foldl (course.undergo thread) (course.history thread front) :=
  List.foldl_append

/-- What every incident around a session keeps up: some schedule leads to the stream, and the
session, if it reads, lives and reads a line through a handle of its own, holding no more than a
part of a line. -/
structure Conducted (thread : ThreadId) (scene : Scene Stage Event) : Prop where
  reachable : scene.stream.Reachable
  reads : ∀ call, scene.stream.callOf? thread = some call →
    scene.state.session.isAlive = true ∧ call.demand = .line ∧ call.handle = .own thread ∧
      call.taken.Unbroken

/-- The ways in which a turn can go: the session has nothing to do, for it has ended, or its read is
asleep; or it is alive and a section of its read is served. -/
inductive TurnsTo (course : Course) (thread : ThreadId) (scene : Scene Stage Event) :
    Scene Stage Event → Prop
  | rests : (scene.state.session.isAlive = true →
      ∃ call, scene.stream.callOf? thread = some call ∧ call.awake = false) →
      TurnsTo course thread scene scene
  | serves {action : InputStream.Action} {s : InputStream} {call : InputStream.Call} :
      scene.state.session.isAlive = true → scene.stream.Serves action s call →
      call.thread = thread → call.demand = .line → call.handle = .own thread →
      call.taken.Unbroken → s.callOf? thread = none →
      TurnsTo course thread scene (scene.after course.program (s.advance call))

variable {course : Course} {thread : ThreadId} {scene : Scene Stage Event}

/-- **A turn** goes in one of these ways. -/
theorem Conducted.turnsTo (conducted : Conducted thread scene) (course : Course) :
    course.TurnsTo thread scene (course.program.proceed thread scene) := by
  cases found : scene.stream.callOf? thread with
  | some call =>
    obtain ⟨alive, demand, own, unbroken⟩ := conducted.reads call found
    rw [proceed_of_reading found]
    cases awake : call.awake with
    | true =>
      rw [InputStream.resume_eq found awake]
      exact .serves alive (.resume found awake) (InputStream.thread_of_callOf? found) demand own
        unbroken InputStream.callOf?_withdraw
    | false =>
      rw [InputStream.resume_of_asleep found awake]
      exact .rests fun _ => ⟨call, found, awake⟩
  | none =>
    cases alive : scene.state.session.isAlive with
    | true =>
      rw [proceed_of_asking found (asks_of_alive alive), InputStream.start_eq (by simp)]
      have idle : scene.stream.isReading thread = false := by
        simp [InputStream.isReading, found]
      exact .serves alive (.start idle (by simp)) rfl rfl rfl unbroken_nil found
    | false =>
      rw [proceed_of_resting found (asks_of_not_alive alive)]
      exact .rests (by simp [alive])

/-! ## What incidents keep up -/

/-- A turn keeps the session in order. -/
theorem Conducted.proceed (conducted : Conducted thread scene) (course : Course) :
    Conducted thread (course.program.proceed thread scene) := by
  have turns := conducted.turnsTo course
  generalize course.program.proceed thread scene = next at turns
  cases turns with
  | rests => exact conducted
  | @serves action s call alive serves own demand handle unbroken alone =>
    subst own
    have reachable := conducted.reachable.perform action
    rw [InputStream.perform_of_serves serves] at reachable
    rcases InputStream.callOf?_advance alone with ⟨result, ended, gone⟩ | ⟨waits, hc, sleeps⟩
    · rw [after_of_ended ended]
      exact ⟨reachable, fun now reads => nomatch gone.symm.trans reads⟩
    · -- What the read was served holds no break, or its demand would be satisfied.
      rw [after_of_waits waits]
      refine ⟨reachable, fun now reads => ?_⟩
      obtain rfl := Option.some.inj (sleeps.symm.trans reads)
      have hold : call.demand.MayHold call.taken := demand ▸ unbroken
      have more := (Demand.split_of_incomplete hold hc).1
      rw [demand] at more
      exact ⟨alive, demand, handle, demand ▸ more⟩

/-- A section of another thread finds and leaves the session's read as it is, but for waking it. -/
theorem Conducted.act (conducted : Conducted thread scene) {action : InputStream.Action}
    (foreign : action.reader? ≠ some thread) :
    Conducted thread { scene with stream := (scene.stream.perform action).1 } := by
  refine ⟨conducted.reachable.perform action, fun now reads => ?_⟩
  cases found : scene.stream.callOf? thread with
  | none =>
    have idle : (scene.stream.perform action).1.callOf? thread = none :=
      InputStream.callOf?_perform_of_idle found fun demand name same => foreign (same ▸ rfl)
    exact nomatch idle.symm.trans reads
  | some call =>
    -- The only section that could go on with a read which is awake is that of its own thread.
    have turn : action = .resume thread → call.awake = false := fun own =>
      absurd (own ▸ rfl) foreign
    obtain ⟨⟨now', reads', same⟩, -⟩ := InputStream.callOf?_perform found turn
    obtain rfl := Option.some.inj (reads'.symm.trans reads)
    have before := conducted.reads call found
    rcases same with rfl | rfl <;> exact before

/-- **What every incident keeps up.** -/
theorem Conducted.undergo (conducted : Conducted thread scene) (course : Course)
    {incident : Incident} (foreign : incident.Foreign thread) :
    Conducted thread (course.undergo thread scene incident) := by
  cases incident with
  | turn => exact conducted.proceed course
  | act action => exact conducted.act foreign
  | restart =>
    simp only [Course.undergo]
    split
    next => exact conducted
    next dead =>
      exact ⟨conducted.reachable, fun call reads => absurd (conducted.reads call reads).1 dead⟩

theorem Conducted.foldl (conducted : Conducted thread scene) (course : Course)
    {incidents : List Incident} (foreign : ∀ incident ∈ incidents, incident.Foreign thread) :
    Conducted thread (incidents.foldl (course.undergo thread) scene) := by
  induction incidents generalizing scene with
  | nil => exact conducted
  | cons incident incidents ih =>
    obtain ⟨first, rest⟩ := List.forall_mem_cons.mp foreign
    exact ih (conducted.undergo course first) rest

theorem conducted_history (course : Course) {incidents : List Incident}
    (foreign : ∀ incident ∈ incidents, incident.Foreign thread) :
    Conducted thread (course.history thread incidents) :=
  Conducted.foldl ⟨⟨[], rfl⟩, by simp [beginning, InputStream.callOf?]⟩ course foreign

/-! ## Producers of whole lines -/

/-- Producers of whole lines, and others that read lines, leave everything tidy. -/
theorem tidy_undergo (conducted : Conducted thread scene) (tidy : scene.stream.Tidy)
    (course : Course) {incident : Incident}
    (linewise : ∀ action, incident = .act action → action.LineWise) :
    (course.undergo thread scene incident).stream.Tidy := by
  cases incident with
  | turn =>
    have turns := conducted.turnsTo course
    simp only [undergo]
    generalize course.program.proceed thread scene = next at turns
    cases turns with
    | rests => exact tidy
    | serves alive serves own demand =>
      have tidy' := (InputStream.perform_lines tidy (serves.lineWise demand)).1
      rw [InputStream.perform_of_serves serves] at tidy'
      rwa [after_stream]
  | act action => exact (InputStream.perform_lines tidy (linewise action rfl)).1
  | restart =>
    simp only [undergo]
    split <;> exact tidy

theorem tidy_history (course : Course) {incidents : List Incident}
    (foreign : ∀ incident ∈ incidents, incident.Foreign thread)
    (linewise : ∀ action, .act action ∈ incidents → action.LineWise) :
    (course.history thread incidents).stream.Tidy := by
  induction incidents using List.reverseRecOn with
  | nil => exact InputStream.tidy_new
  | append_singleton incidents incident ih =>
    obtain ⟨earlier, -⟩ := List.forall_mem_append.mp foreign
    have tidy := ih earlier fun action mem => linewise action (List.mem_append_left _ mem)
    rw [history_append]
    refine tidy_undergo (conducted_history course earlier) tidy course fun action same => ?_
    exact linewise action (List.mem_append_right _ (List.mem_singleton.mpr same.symm))

/-! ## Bursts are histories -/

/-- What a step of a burst is to the session. -/
def Incident.ofStep : Live.Step → Incident
  | .append text => .act (.append text)
  | .close => .act .close
  | .clear => .act .clear
  | .interrupt => .act (.interrupt Live.thread)
  | .restart => .restart

theorem Incident.ofStep_ne_turn (step : Live.Step) : ofStep step ≠ turn := by
  cases step <;> simp [ofStep]

/-- A history that consists of turns and of the steps of bursts. -/
theorem Incident.eq_turn_or_ofStep {incidents : List Incident} {steps : List Live.Step}
    (h : incidents.filter (· ≠ turn) = steps.map ofStep) :
    ∀ incident ∈ incidents, incident = turn ∨ ∃ step ∈ steps, incident = ofStep step := by
  intro incident mem
  by_cases turns : incident = turn
  · exact .inl turns
  · have kept : incident ∈ incidents.filter (· ≠ turn) :=
      List.mem_filter.mpr ⟨mem, by simpa using turns⟩
    rw [h] at kept
    obtain ⟨step, among, same⟩ := List.mem_map.mp kept
    exact .inr ⟨step, among, same.symm⟩

/-- The steps of a burst are not taken in the name of any thread. -/
theorem Incident.foreign_of_steps {incidents : List Incident} {steps : List Live.Step}
    (h : incidents.filter (· ≠ turn) = steps.map ofStep) (thread : ThreadId) :
    ∀ incident ∈ incidents, incident.Foreign thread := by
  intro incident mem
  rcases eq_turn_or_ofStep h incident mem with rfl | ⟨step, -, rfl⟩
  · trivial
  · cases step <;> simp [ofStep, Foreign, InputStream.Action.reader?]

/-- What a scene is to a session with an interpreter that remembers nothing. -/
def asProgress (scene : Scene Stage Event) : Live.Progress :=
  (⟨scene.stream, scene.state.session⟩, scene.done)

section Bursts

variable {interpreter : Interpreter}

theorem step_constant (scene : Scene Stage Event) (step : Live.Step) :
    let turn := (asProgress scene).1.step interpreter step
    let next := (constant interpreter).undergo Live.thread scene (.ofStep step)
    turn.live = (asProgress next).1 ∧ scene.done ++ turn.events = next.done := by
  cases step with
  | append | close | clear | interrupt => exact ⟨rfl, List.append_nil _⟩
  | restart =>
    cases alive : scene.state.session.isAlive <;>
      simp [Live.step, asProgress, Incident.ofStep, undergo, alive, reopen, Live.reopen, constant]

theorem steps_constant (scene : Scene Stage Event) (list : List Live.Step) :
    let turn := (asProgress scene).1.steps interpreter list
    let next := (list.map Incident.ofStep).foldl ((constant interpreter).undergo Live.thread) scene
    turn.live = (asProgress next).1 ∧ scene.done ++ turn.events = next.done := by
  induction list generalizing scene with
  | nil => exact ⟨rfl, List.append_nil _⟩
  | cons step list ih =>
    obtain ⟨live, done⟩ := @step_constant interpreter scene step
    obtain ⟨live', done'⟩ := ih ((constant interpreter).undergo Live.thread scene (.ofStep step))
    simp only [Live.steps, List.map_cons, List.foldl_cons]
    rw [← live] at live' done'
    refine ⟨live', ?_⟩
    rw [← done', ← done, List.append_assoc]

theorem foldl_turns (course : Course) (thread : ThreadId) (n : Nat) (scene : Scene Stage Event) :
    (List.replicate n Incident.turn).foldl (course.undergo thread) scene =
      (course.program.proceed thread)^[n] scene := by
  induction n generalizing scene with
  | zero => rfl
  | succ n ih => exact ih _

/-- When a session is left to run until it rests, it takes so many turns. -/
theorem rest_constant (scene : Scene Stage Event) :
    let settled := (asProgress scene).1.settle interpreter
    let next := (List.replicate (scene.stream.available + 2) Incident.turn).foldl
      ((constant interpreter).undergo Live.thread) scene
    settled.1 = (asProgress next).1 ∧ scene.done ++ settled.2 = next.done := by
  have settled := (shows_constant interpreter).settle Live.thread scene.stream scene.state
  simp only [foldl_turns, ← rest_eq, Live.settle, asProgress, settled]
  exact ⟨rfl, rfl⟩

theorem burst_constant (scene : Scene Stage Event) (list : List Live.Step) :
    let turn := (asProgress scene).1.burst interpreter list
    ∃ turns, (turn.live, scene.done ++ turn.events) = asProgress
      ((list.map Incident.ofStep ++ List.replicate turns Incident.turn).foldl
        ((constant interpreter).undergo Live.thread) scene) := by
  obtain ⟨live, done⟩ := @steps_constant interpreter scene list
  simp only [List.foldl_append]
  generalize (list.map Incident.ofStep).foldl ((constant interpreter).undergo Live.thread) scene =
    next at live done ⊢
  obtain ⟨live', done'⟩ := @rest_constant interpreter next
  rw [← live] at live' done'
  refine ⟨next.stream.available + 2, Prod.ext live' ?_⟩
  rw [← done, List.append_assoc] at done'
  exact done'

/-- **With an interpreter that remembers nothing**, a session in bursts has a history: the steps are
its incidents, and between them the session takes turns. -/
theorem live_after (interpreter : Interpreter) (bursts : List (List Live.Step)) :
    ∃ incidents,
      incidents.filter (· ≠ Incident.turn) = bursts.flatten.map Incident.ofStep ∧
      Live.after interpreter bursts =
        asProgress ((constant interpreter).history Live.thread incidents) := by
  induction bursts using List.reverseRecOn with
  | nil =>
    obtain ⟨live, done⟩ := @rest_constant interpreter ((constant interpreter).beginning [] {})
    exact ⟨_, by simp, Prod.ext live done⟩
  | append_singleton bursts list ih =>
    obtain ⟨incidents, steps, reached⟩ := ih
    obtain ⟨turns, bursted⟩ := @burst_constant interpreter
      ((constant interpreter).history Live.thread incidents) list
    refine ⟨incidents ++ (list.map Incident.ofStep ++ List.replicate turns Incident.turn), ?_, ?_⟩
    · rw [List.filter_append, List.filter_append, steps, List.flatten_append, List.map_append]
      have kept : (list.map Incident.ofStep).filter (· ≠ Incident.turn) =
          list.map Incident.ofStep :=
        List.filter_eq_self.mpr (by simp [Incident.ofStep_ne_turn])
      rw [kept]
      simp
    · have last : Live.after interpreter (bursts ++ [list]) =
          let progress := Live.after interpreter bursts
          let turn := progress.1.burst interpreter list
          (turn.live, progress.2 ++ turn.events) := by
        rw [Live.after, List.foldl_append]
        rfl
      rw [last, reached, history_append]
      exact bursted

end Bursts

end Session.Course

end LineConsole
