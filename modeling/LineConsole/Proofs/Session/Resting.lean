import LineConsole.Proofs.InputStream.WholeLines
import LineConsole.Proofs.Reading.Iteration
import LineConsole.Proofs.Session.Remembering

/-!
# Sessions that come to rest

A session over a stream runs until it rests: it waits for a line, or it has ended. Where it rests is
settled by the lines it is offered, if each text that was appended ends on an LF: it takes them as
from a list, and if none of them stops it, it waits with nothing in its hands on a stream on which
nothing is left. A reset or the close finds it there and ends it.

On a closed stream a session does not wait, so it comes to its end, whatever was appended before.

## Main definitions

* `Text.EndsFeed` — a text that ends on an LF, if it has an end
* `InputStream.Offers` — the text that an open stream has for a reader of lines
* `InputStream.Waits` — a reader of lines that is blocked and holds nothing
* `Course.Rests` — a session that waits for a line, or has ended and does not read
* `Course.beginning` — the scene in which a session comes into being
* `Course.outcome` — what a session has done and will do with the text that is left

## Main results

* `rest_offers` — a session takes the lines it is offered and rests
* `rest_clear`, `rest_close` — a reset and the close end a session that waits
* `rest_closed` — on a closed stream a session ends
-/

namespace LineConsole

open Text Program

namespace Text

variable {t u line rest : Text}

/-! ## Texts that end on an LF -/

/-- The text ends on an LF, unless it is empty. -/
def EndsFeed (t : Text) : Prop := t = [] ∨ ['\n'] <:+ t

theorem endsFeed_nil : EndsFeed [] := .inl rfl

theorem endsFeed_line (line : Text) : EndsFeed (line ++ ['\n']) := .inr (List.suffix_append _ _)

theorem EndsFeed.append (ht : t.EndsFeed) (hu : u.EndsFeed) : (t ++ u).EndsFeed := by
  rcases hu with rfl | hu
  · simpa using ht
  · exact .inr (hu.trans (List.suffix_append t u))

theorem EndsFeed.of_suffix (hu : u.EndsFeed) (h : t <:+ u) : t.EndsFeed := by
  rcases hu with rfl | hu
  · exact .inl (List.suffix_nil.mp h)
  · rcases List.suffix_or_suffix_of_suffix h hu with short | long
    · rcases List.suffix_cons_iff.mp short with rfl | none
      · exact .inr (List.suffix_refl _)
      · exact .inl (List.suffix_nil.mp none)
    · exact .inr long

theorem EndsFeed.endsLine (h : t.EndsFeed) : t.EndsLine := by
  rcases h with rfl | ⟨front, rfl⟩
  · exact endsLine_nil
  · simp [EndsLine]

/-- What follows such a text does not touch its first line: a CR at its end would be open to an LF.
-/
theorem EndsFeed.cut_append (ends : t.EndsFeed) (h : cut t = some (line, rest)) :
    rest.EndsFeed ∧ ∀ u, cut (t ++ u) = some (line, rest ++ u) := by
  obtain ⟨mark, hline, hmark, rfl⟩ := cut_eq_some_iff.mp h
  have behind : rest.EndsFeed := ends.of_suffix (List.suffix_append _ _)
  refine ⟨behind, fun u => cut_eq_some_iff.mpr ⟨mark, hline, ?_, by simp⟩⟩
  cases hmark with
  | crlf => exact .crlf
  | lf => exact .lf
  | cr hfirst =>
    refine .cr ?_
    cases rest with
    | nil =>
      rcases ends with none | ⟨front, last⟩
      · simp at none
      · simpa using congrArg List.getLast? last
    | cons c rest => simpa using hfirst

/-- Such a text keeps its lines to itself. -/
theorem EndsFeed.lines_append (ends : t.EndsFeed) (u : Text) :
    lines (t ++ u) = lines t ++ lines u := by
  induction hlen : t.length using Nat.strongRecOn generalizing t with
  | ind n ih =>
    cases hcut : cut t with
    | none =>
      obtain rfl := ends.endsLine.eq_nil_of_unbroken (cut_eq_none_iff.mp hcut)
      simp
    | some found =>
      obtain ⟨behind, longer⟩ := ends.cut_append hcut
      rw [lines_of_cut hcut, lines_of_cut (longer u), List.cons_append]
      exact congrArg _ (ih _ (hlen ▸ length_lt_of_cut hcut) behind rfl)

/-- The lines that a line with an LF behind it is framed into. -/
def framed (line : Text) : List Text := lines (line ++ ['\n'])

/-- A CR at the end of a line and the LF behind it are one break. -/
example : framed "1\r\n2\r".toList = ["1".toList, "2".toList] := by decide

/-- A line without a break in it is framed into itself. -/
theorem framed_of_unbroken {line : Text} (h : line.Unbroken) : framed line = [line] := by
  have single := @lines_flatMap ['\n'] (by simp) [line] (by simpa using h)
  simpa [framed] using single

/-- A text that is made of lines with an LF behind each. -/
def feeding (list : List Text) : Text := list.flatMap fun line => line ++ ['\n']

/-- Each line keeps to itself what it is framed into. -/
theorem lines_feeding (list : List Text) : lines (feeding list) = list.flatMap framed := by
  induction list with
  | nil => exact lines_nil
  | cons line list ih =>
    rw [List.flatMap_cons, ← ih]
    exact (endsFeed_line line).lines_append (feeding list)

end Text

namespace InputStream

/-- The text `t` is what an open stream has for a thread that reads lines. Its read, if it has begun
one, holds nothing and can be served, and is asleep only when there is nothing for it. -/
structure Offers (s : InputStream) (thread : ThreadId) (t : Text) : Prop where
  opened : s.isClosed = false
  whole : t.EndsFeed
  buffered : ∀ future, unread s.skipLF (s.buffer ++ future) = t ++ future
  reads : ∀ call, s.callOf? thread = some call → call.demand = .line ∧ call.taken = [] ∧
    s.released call = false ∧ (call.awake = false → s.buffer = [])

/-- A thread waits for a line on an open stream: it is blocked in a read that holds nothing and that
nothing has released, and nothing is left to read. -/
structure Waits (s : InputStream) (thread : ThreadId) : Prop where
  opened : s.isClosed = false
  drained : s.buffer = []
  settled : s.skipLF = false
  blocked : ∃ call, s.callOf? thread = some call ∧ call.demand = .line ∧ call.taken = [] ∧
    s.released call = false ∧ call.awake = false

/-- A read of a line that is off the list, before a section of it, and the text it can be served
from. -/
structure Faces (s : InputStream) (call : Call) (t : Text) : Prop where
  opened : s.isClosed = false
  buffered : ∀ future, unread s.skipLF (s.buffer ++ future) = t ++ future
  demand : call.demand = .line
  empty : call.taken = []
  unreleased : s.released call = false
  alone : s.callOf? call.thread = none

variable {s : InputStream} {thread : ThreadId} {call : Call} {t u line rest : Text}

/-- A fresh stream offers nothing. -/
theorem Fresh.offers (fresh : s.Fresh thread) : s.Offers thread [] where
  opened := fresh.opened
  whole := endsFeed_nil
  buffered future := by simp [fresh.drained, fresh.settled]
  reads call found := by simp [fresh.idle] at found

theorem Waits.offers (waits : s.Waits thread) : s.Offers thread [] where
  opened := waits.opened
  whole := endsFeed_nil
  buffered future := by simp [waits.drained, waits.settled]
  reads call found := by
    obtain ⟨call', found', demand, empty, hr, -⟩ := waits.blocked
    obtain rfl : call' = call := Option.some.inj (found'.symm.trans found)
    exact ⟨demand, empty, hr, fun _ => waits.drained⟩

/-- A read that is asleep waits, and nothing is offered. -/
theorem Offers.waits_of_asleep (offers : s.Offers thread t) (h : s.callOf? thread = some call)
    (asleep : call.awake = false) : t = [] ∧ s.Waits thread := by
  obtain ⟨demand, empty, hr, drained⟩ := offers.reads call h
  have buffered := offers.buffered
  rw [drained asleep] at buffered
  obtain rfl : t = [] := by simpa using (buffered []).symm
  have settled : s.skipLF = false := by
    cases skip : s.skipLF with
    | false => rfl
    | true => simpa [skip] using buffered ['\n']
  exact ⟨rfl, offers.opened, drained asleep, settled, call, h, demand, empty, hr, asleep⟩

/-- Text that is appended is offered behind what is there. -/
theorem Offers.append (offers : s.Offers thread t) (hu : u.EndsFeed) :
    (s.append u).1.Offers thread (t ++ u) := by
  by_cases none : u = []
  · subst none
    simpa [InputStream.append] using offers
  · rw [append_of_open none offers.opened]
    refine ⟨offers.opened, offers.whole.append hu, fun future => ?_, fun call found => ?_⟩
    · rw [List.append_assoc, ← offers.buffered, ← List.append_assoc]
      rfl
    · rw [callOf?_wakeAll] at found
      obtain ⟨asleep, hcall, rfl⟩ := Option.map_eq_some_iff.mp found
      obtain ⟨demand, empty, hr, -⟩ := offers.reads asleep hcall
      exact ⟨demand, empty, hr, by simp [Call.wake]⟩

/-- The stream to which lines are appended, one after the other, with an LF behind each. -/
def feed (s : InputStream) (list : List Text) : InputStream :=
  list.foldl (fun s line => (s.append (line ++ ['\n'])).1) s

/-- Lines that are fed are offered behind what is there. -/
theorem Offers.feed (offers : s.Offers thread t) (list : List Text) :
    (s.feed list).Offers thread (t ++ feeding list) := by
  induction list generalizing s t with
  | nil => simpa [InputStream.feed, feeding] using offers
  | cons line list ih =>
    have later := ih (offers.append (endsFeed_line line))
    rwa [List.append_assoc] at later

/-- A pass finds the first line of the text that is offered, if there is one. -/
theorem Faces.complete_iff (faces : s.Faces call t) (whole : t.EndsFeed) :
    (scanLine s.skipLF s.buffer).complete = true ↔ t ≠ [] := by
  have all := faces.buffered []
  rw [List.append_nil, List.append_nil] at all
  constructor
  · rintro hc rfl
    have found := cut_of_scanLine hc []
    rw [List.append_nil, all] at found
    simp at found
  · intro some
    by_contra hc
    rw [Bool.not_eq_true] at hc
    have moved := unread_of_scanLine hc []
    rw [List.append_nil, all, unread_nil, List.append_nil] at moved
    exact some (whole.endsLine.eq_nil_of_unbroken (moved ▸ unbroken_of_scanLine hc))

/-- A section of the read hands out the first line that is offered. -/
theorem Faces.advance_of_cut (faces : s.Faces call t) (whole : t.EndsFeed)
    (h : cut t = some (line, rest)) :
    ∃ s', s.advance call = (s', .ended (some line)) ∧ s'.callOf? call.thread = none ∧
      s'.Offers call.thread rest := by
  have nonempty : t ≠ [] := by
    rintro rfl
    simp at h
  have hc := (faces.complete_iff whole).mpr nonempty
  obtain ⟨behind, longer⟩ := whole.cut_append h
  have found : ∀ future, (scanLine s.skipLF s.buffer).taken = line ∧
      unread (scanLine s.skipLF s.buffer).skipLF ((scanLine s.skipLF s.buffer).rest ++ future) =
        rest ++ future := fun future => by
    have found := cut_of_scanLine hc future
    rw [faces.buffered, longer] at found
    simpa [eq_comm] using found
  have ended := advance_of_complete faces.unreleased (by rw [faces.demand]; exact hc)
  rw [faces.demand, faces.empty, List.nil_append, show (Demand.line.serve s.skipLF s.buffer).taken =
    line from (found []).1] at ended
  refine ⟨(s.serve .line).retire call.handle, ended, faces.alone, faces.opened, behind,
    fun future => (found future).2, fun call' reads => ?_⟩
  rw [callOf?_retire, callOf?_serve, faces.alone] at reads
  simp at reads

/-- A section of the read goes to sleep when nothing is offered. -/
theorem Faces.advance_of_nil (faces : s.Faces call []) :
    ∃ s', s.advance call = (s', .waits) ∧ s'.Waits call.thread := by
  have hc : (scanLine s.skipLF s.buffer).complete = false :=
    Bool.eq_false_iff.mpr fun hc => (faces.complete_iff endsFeed_nil).mp hc rfl
  have hc' : (call.demand.serve s.skipLF s.buffer).complete = false := by rwa [faces.demand]
  have moved := fun future => (faces.buffered future).symm.trans (unread_of_scanLine hc future)
  have nothing : (scanLine s.skipLF s.buffer).taken = [] := by simpa using (moved []).symm
  have settled : (scanLine s.skipLF s.buffer).skipLF = false := by
    cases skip : (scanLine s.skipLF s.buffer).skipLF with
    | false => rfl
    | true => simpa [nothing, skip] using moved ['\n']
  have slept := advance_of_waiting faces.unreleased hc' faces.opened
  rw [faces.demand, show (Demand.line.serve s.skipLF s.buffer).taken = [] from nothing] at slept
  have blocked := callOf?_enlist (s := s.serve .line) (call.given []) faces.alone
  refine ⟨(s.serve .line).enlist (call.given []), slept, faces.opened, ?_, settled, call.given [],
    blocked, faces.demand, ?_, faces.unreleased, rfl⟩
  · exact scanLine_rest_of_incomplete hc
  · rw [given_taken, faces.empty, List.append_nil]

/-- A reset leaves the stream fresh, and releases the read of a thread that waits, which has nothing
to return. -/
theorem Waits.resume_clear (waits : s.Waits thread) :
    s.clear.1.isReading thread = true ∧ ∃ s', s.clear.1.resume thread = (s', .ended none) ∧
      s'.Fresh thread := by
  obtain ⟨call, found, -, empty, unreleased, -⟩ := waits.blocked
  have woken : s.clear.1.callOf? thread = some call.wake := by
    rw [clear, callOf?_wakeAll]
    exact congrArg (Option.map Call.wake) found
  have since : call.epoch = s.epoch := by
    simp only [released, Bool.or_eq_false_iff, bne_eq_false_iff_eq] at unreleased
    exact unreleased.2
  have released : (s.clear.1.withdraw thread).released call.wake = true := by
    simp [InputStream.released, withdraw, clear, InputStream.wakeAll, Call.wake, since]
  have ended : (s.clear.1.withdraw thread).advance call.wake =
      ((s.clear.1.withdraw thread).retire call.handle, .ended none) := by
    rw [advance_of_released released, Call.soFar, if_pos (show call.wake.taken = [] from empty)]
    rfl
  exact ⟨isReading_iff.mpr ⟨_, woken⟩, _, (resume_eq woken rfl).trans ended, rfl, rfl, rfl,
    callOf?_withdraw⟩

end InputStream

namespace Session.Course

variable {course : Course} {thread : ThreadId} {scene : Scene Stage Event} {t line rest : Text}

/-- A session at rest: it waits for a line, or it has ended and does not read. -/
structure Rests (thread : ThreadId) (scene : Scene Stage Event) : Prop where
  waits : scene.state.session.isAlive = true → scene.stream.Waits thread
  idle : scene.state.session.isAlive = false → scene.stream.callOf? thread = none

/-! ## What is offered -/

/-- The turn of a session that reads, if its read is not asleep, is a section of a read that faces
the text that is offered. -/
theorem proceed_of_offers (course : Course) (offers : scene.stream.Offers thread t)
    (alive : scene.state.session.isAlive = true)
    (awake : ∀ call, scene.stream.callOf? thread = some call → call.awake = true) :
    ∃ (s : InputStream) (call : InputStream.Call), call.thread = thread ∧ s.Faces call t ∧
      course.program.proceed thread scene = scene.after course.program (s.advance call) := by
  cases hcall : scene.stream.callOf? thread with
  | some call =>
    obtain ⟨demand, empty, hr, -⟩ := offers.reads call hcall
    have own := InputStream.thread_of_callOf? hcall
    refine ⟨scene.stream.withdraw thread, call, own, ?_, ?_⟩
    · exact ⟨offers.opened, offers.buffered, demand, empty, hr, own ▸ InputStream.callOf?_withdraw⟩
    · rw [proceed_of_reading hcall, InputStream.resume_eq hcall (awake call hcall)]
  | none =>
    refine ⟨(scene.stream.enroll thread .line none).1, (scene.stream.enroll thread .line none).2,
      rfl, ⟨offers.opened, offers.buffered, rfl, rfl, ?_, hcall⟩, ?_⟩
    · simp [InputStream.enroll, InputStream.released, InputStream.attach, InputStream.renew]
    · rw [proceed_of_asking hcall (asks_of_alive alive), InputStream.start_eq (by simp)]

/-- A turn takes the first line that is offered. -/
theorem proceed_of_cut (course : Course) (offers : scene.stream.Offers thread t)
    (alive : scene.state.session.isAlive = true) (h : cut t = some (line, rest)) :
    ∃ s : InputStream, s.Offers thread rest ∧ s.callOf? thread = none ∧
      course.program.proceed thread scene =
        ⟨s, (course.receive scene.state (some line)).1,
          scene.done ++ (course.receive scene.state (some line)).2⟩ := by
  have awake : ∀ call, scene.stream.callOf? thread = some call → call.awake = true := by
    intro call found
    by_contra asleep
    obtain ⟨rfl, -⟩ := offers.waits_of_asleep found (by simpa using asleep)
    simp at h
  obtain ⟨s, call, rfl, faces, turned⟩ := course.proceed_of_offers offers alive awake
  obtain ⟨s', ended, idle, offers'⟩ := faces.advance_of_cut offers.whole h
  rw [ended] at turned
  exact ⟨s', offers', idle, turned⟩

/-- A turn is spent on waiting when nothing is offered. -/
theorem proceed_of_nothing (course : Course) (offers : scene.stream.Offers thread [])
    (alive : scene.state.session.isAlive = true) :
    ∃ s : InputStream, s.Waits thread ∧
      course.program.proceed thread scene = ⟨s, scene.state, scene.done⟩ := by
  by_cases awake : ∀ call, scene.stream.callOf? thread = some call → call.awake = true
  · obtain ⟨s, call, rfl, faces, turned⟩ := course.proceed_of_offers offers alive awake
    obtain ⟨s', slept, waits⟩ := faces.advance_of_nil
    rw [slept] at turned
    exact ⟨s', waits, turned⟩
  · push Not at awake
    obtain ⟨call, found, asleep⟩ := awake
    rw [ne_eq, Bool.not_eq_true] at asleep
    refine ⟨scene.stream, (offers.waits_of_asleep found asleep).2, ?_⟩
    rw [proceed_of_reading found, InputStream.resume_of_asleep found asleep]
    rfl

/-- A session at rest stays as it is. -/
theorem Rests.proceed_eq (rests : Rests thread scene) :
    course.program.proceed thread scene = scene := by
  cases alive : scene.state.session.isAlive with
  | false => exact proceed_of_resting (rests.idle alive) (asks_of_not_alive alive)
  | true =>
    obtain ⟨call, found, -, -, -, asleep⟩ := (rests.waits alive).blocked
    rw [proceed_of_reading found, InputStream.resume_of_asleep found asleep]
    rfl

/-- **A session takes the lines it is offered**, and comes to rest within a turn more than there are
lines. -/
theorem iterate_proceed_offers (course : Course) {n : Nat} (offers : scene.stream.Offers thread t)
    (idle : scene.state.session.isAlive = false → scene.stream.callOf? thread = none)
    (few : (lines t).length < n) :
    let taken := course.take scene.state (lines t)
    let after := (course.program.proceed thread)^[n] scene
    after.state = taken.stage ∧ after.done = scene.done ++ taken.events ∧ Rests thread after := by
  induction n generalizing scene t with
  | zero => simp at few
  | succ n ih =>
    rw [Function.iterate_succ_apply]
    cases alive : scene.state.session.isAlive with
    | false =>
      have rests : Rests thread scene := ⟨by simp [alive], idle⟩
      rw [rests.proceed_eq, Function.iterate_fixed rests.proceed_eq, take_of_not_alive alive]
      exact ⟨rfl, by simp, rests⟩
    | true =>
      cases hcut : cut t with
      | none =>
        obtain rfl := offers.whole.endsLine.eq_nil_of_unbroken (cut_eq_none_iff.mp hcut)
        obtain ⟨s, waits, turned⟩ := course.proceed_of_nothing offers alive
        have rests : Rests thread (⟨s, scene.state, scene.done⟩ : Scene Stage Event) :=
          ⟨fun _ => waits, by simp [alive]⟩
        rw [turned, Function.iterate_fixed rests.proceed_eq]
        exact ⟨rfl, by simp [take], rests⟩
      | some found =>
        obtain ⟨s, offers', idle', turned⟩ := course.proceed_of_cut offers alive hcut
        rw [lines_of_cut hcut] at few ⊢
        obtain ⟨state, done, rests⟩ := @ih ⟨s, _, _⟩ found.2 offers' (fun _ => idle')
          (by simpa using few)
        rw [turned, take_cons alive]
        exact ⟨state, done.trans (List.append_assoc ..), rests⟩

/-- **A session that is offered lines** has taken them when it rests. -/
theorem rest_offers (course : Course) (offers : scene.stream.Offers thread t)
    (idle : scene.state.session.isAlive = false → scene.stream.callOf? thread = none) :
    let taken := course.take scene.state (lines t)
    let after := course.program.rest thread scene
    after.state = taken.stage ∧ after.done = scene.done ++ taken.events ∧ Rests thread after := by
  rw [rest_eq]
  refine course.iterate_proceed_offers offers idle ?_
  -- There are no more lines than characters, and all of these are buffered.
  have buffered := offers.buffered []
  rw [List.append_nil, List.append_nil] at buffered
  have := length_lines_le t
  have := length_unread_le scene.stream.skipLF scene.stream.buffer
  rw [buffered] at this
  rw [InputStream.available]
  omega

/-- The scene in which a session comes into being on a stream. -/
def beginning (course : Course) (past : List Text) (s : InputStream) : Scene Stage Event :=
  ⟨s, ⟨past, opened⟩, opening (course past)⟩

/-- A session that begins on a fresh stream waits for a line. -/
theorem rest_beginning {s : InputStream} (fresh : s.Fresh thread) (past : List Text) :
    let after := course.program.rest thread (course.beginning past s)
    after.state = ⟨past, opened⟩ ∧ after.done = opening (course past) ∧
      after.stream.Waits thread := by
  have offers : (course.beginning past s).stream.Offers thread [] := fresh.offers
  obtain ⟨state, done, rests⟩ := course.rest_offers offers fun dead => by
    simp [beginning, isAlive, opened] at dead
  rw [lines_nil] at state done
  exact ⟨state, done.trans (List.append_nil _), rests.waits (by rw [state]; rfl)⟩

/-- **A reset ends a session that waits**, and leaves the stream fresh. -/
theorem rest_clear (waits : scene.stream.Waits thread) :
    let after := course.program.rest thread { scene with stream := scene.stream.clear.1 }
    after.state = (course.receive scene.state none).1 ∧
      after.done = scene.done ++ (course.receive scene.state none).2 ∧
      after.stream.Fresh thread := by
  obtain ⟨reading, s, ended, fresh⟩ := waits.resume_clear
  have turned : course.program.proceed thread { scene with stream := scene.stream.clear.1 } =
      ⟨s, (course.receive scene.state none).1,
        scene.done ++ (course.receive scene.state none).2⟩ := by
    obtain ⟨call, found⟩ := InputStream.isReading_iff.mp reading
    rw [proceed_of_reading found, ended]
    rfl
  have rests : Rests thread (⟨s, (course.receive scene.state none).1,
      scene.done ++ (course.receive scene.state none).2⟩ : Scene Stage Event) :=
    ⟨by simp [isAlive_receive_none], fun _ => fresh.idle⟩
  rw [rest_eq, Function.iterate_succ_apply, turned, Function.iterate_fixed rests.proceed_eq]
  exact ⟨rfl, rfl, fresh⟩

/-! ## On a closed stream -/

/-- What a session has done and will do with the text that is left, up to its end. -/
def outcome (course : Course) (study : Study Stage Event) : Stretch :=
  let rest := course.runOut study.state (lines study.unread)
  { rest with events := study.done ++ rest.events }

theorem outcome_of_not_alive {study : Study Stage Event}
    (dead : study.state.session.isAlive = false) :
    course.outcome study = ⟨study.state, study.done, lines study.unread⟩ := by
  simp [outcome, runOut_of_not_alive dead]

/-- A session that has ended has done what it was to do. -/
theorem eq_of_outcome {study start : Study Stage Event}
    (dead : study.state.session.isAlive = false) (h : course.outcome study = course.outcome start) :
    let ran := course.runOut start.state (lines start.unread)
    study.state = ran.stage ∧ study.done = start.done ++ ran.events ∧
      lines study.unread = ran.unread := by
  rw [outcome_of_not_alive dead, outcome, Stretch.mk.injEq] at h
  exact h

theorem pursue_of_not_alive {study : Study Stage Event}
    (dead : study.state.session.isAlive = false) : course.program.pursue study = study := by
  simp [pursue, asks_of_not_alive dead]

theorem pursue_of_alive {study : Study Stage Event}
    (alive : study.state.session.isAlive = true) :
    course.program.pursue study =
      let answer := Demand.line.read study.unread
      let (stage, events) := course.receive study.state answer.1
      ⟨stage, study.done ++ events, answer.2⟩ := by
  rw [pursue, asks_of_alive alive]
  rfl

/-- **One answer** keeps the outcome, and reads at most one line off the front of the text. -/
theorem outcome_pursue (course : Course) (study : Study Stage Event) :
    course.outcome (course.program.pursue study) = course.outcome study ∧
      ∃ taken, Reads study.unread taken (course.program.pursue study).unread := by
  cases alive : study.state.session.isAlive with
  | false =>
    rw [pursue_of_not_alive alive]
    exact ⟨rfl, [], .nothing⟩
  | true =>
    obtain ⟨stage, done, t⟩ := study
    rw [pursue_of_alive alive]
    cases h : lines t with
    | nil =>
      obtain rfl := lines_eq_nil_iff.mp h
      have dead := isAlive_receive_none course stage
      refine ⟨?_, [], .nothing⟩
      simp [outcome, runOut_nil alive, runOut_of_not_alive dead]
    | cons line more =>
      obtain ⟨rest, reads, hrest, hread⟩ := Demand.read_line_of_lines_eq_cons h
      dsimp only
      rw [hread]
      refine ⟨?_, [line], reads⟩
      simp [outcome, h, hrest, runOut_cons alive]

theorem outcome_iterate_pursue (course : Course) (n : Nat) (study : Study Stage Event) :
    course.outcome (course.program.pursue^[n] study) = course.outcome study ∧
      ∃ taken, Reads study.unread taken (course.program.pursue^[n] study).unread := by
  induction n generalizing study with
  | zero => exact ⟨rfl, [], .nothing⟩
  | succ n ih =>
    obtain ⟨first, taken, reads⟩ := course.outcome_pursue study
    obtain ⟨later, more, reads'⟩ := ih (course.program.pursue study)
    rw [Function.iterate_succ_apply]
    exact ⟨later.trans first, _, reads.trans reads'⟩

/-- A session has ended when it has been answered once for each line and once more. -/
theorem isAlive_iterate_pursue {n : Nat} {study : Study Stage Event}
    (h : (lines study.unread).length < n) :
    (course.program.pursue^[n] study).state.session.isAlive = false := by
  induction n generalizing study with
  | zero => simp at h
  | succ n ih =>
    rw [Function.iterate_succ_apply]
    cases alive : study.state.session.isAlive with
    | false =>
      rw [pursue_of_not_alive alive, Function.iterate_fixed (pursue_of_not_alive alive)]
      exact alive
    | true =>
      rw [pursue_of_alive alive]
      cases hlines : lines study.unread with
      | nil =>
        rw [lines_eq_nil_iff.mp hlines]
        have dead := isAlive_receive_none course study.state
        rw [Function.iterate_fixed (pursue_of_not_alive dead)]
        exact dead
      | cons line more =>
        obtain ⟨rest, -, hrest, hread⟩ := Demand.read_line_of_lines_eq_cons hlines
        rw [hread]
        refine ih ?_
        rw [hlines, List.length_cons] at h
        show (lines rest).length < n
        rw [hrest]
        omega

/-- **On a closed stream** a session comes to its end when it runs, and leaves no read behind: each
turn is an answer, and there are more turns than lines. -/
theorem rest_closed {thread : ThreadId} {scene : Scene Stage Event}
    (attends : course.program.Attends thread scene) (isClosed : scene.stream.isClosed = true) :
    (course.program.rest thread scene).state.session.isAlive = false ∧
      (course.program.rest thread scene).stream.callOf? thread = none ∧
      (course.program.rest thread scene).stream.isClosed = true ∧
      ∃ n, (course.program.rest thread scene).study thread [] =
        course.program.pursue^[n] (scene.study thread []) := by
  have answered := proceed_closed_study course.program_timeless trivial attends isClosed
    (scene.stream.available + 2)
  have stays := attends_iterate_proceed course.program_timeless trivial attends
    (scene.stream.available + 2)
  rw [← rest_eq] at answered stays
  obtain ⟨attends', still⟩ := stays
  have few := length_lines_outlook_lt attends fun ask asks => by rw [eq_line_of_asks asks]
  have ended : (course.program.rest thread scene).state.session.isAlive = false := by
    have state := congrArg (fun study => study.state.session.isAlive) answered
    exact state.trans (isAlive_iterate_pursue few)
  refine ⟨ended, ?_, still.trans isClosed, _, answered⟩
  cases reads : (course.program.rest thread scene).stream.callOf? thread with
  | none => rfl
  | some call =>
    obtain ⟨⟨ask, asks, -⟩, -⟩ := attends' call reads
    exact absurd ((asks_of_not_alive ended).symm.trans asks) (by simp)

/-- **The close ends a session that waits.** -/
theorem rest_close (waits : scene.stream.Waits thread)
    (alive : scene.state.session.isAlive = true) :
    let after := course.program.rest thread scene.close
    after.state = (course.receive scene.state none).1 ∧
      after.done = scene.done ++ (course.receive scene.state none).2 ∧
      after.stream.callOf? thread = none ∧ after.stream.isClosed = true := by
  have attends : course.program.Attends thread scene := by
    intro call found
    obtain ⟨call', found', demand, empty, hr, -⟩ := waits.blocked
    obtain rfl : call' = call := Option.some.inj (found'.symm.trans found)
    refine ⟨⟨_, asks_of_alive alive, demand.symm⟩, ?_, hr, fun isClosed => ?_⟩
    · rw [empty]
      exact Demand.mayHold_nil _
    · simp [waits.opened] at isClosed
  obtain ⟨attends', isClosed, kept⟩ := close_study attends waits.opened
  obtain ⟨ended, idle, still, n, answered⟩ := rest_closed attends' isClosed
  have nothing : scene.study thread [] = ⟨scene.state, scene.done, []⟩ := by
    obtain ⟨call, found, -, empty, -⟩ := waits.blocked
    simp [Scene.study, InputStream.outlook, found, empty, waits.drained]
  obtain ⟨outcome, -⟩ := course.outcome_iterate_pursue n ⟨scene.state, scene.done, []⟩
  rw [← nothing, ← kept, ← answered, kept, nothing] at outcome
  obtain ⟨state, done, -⟩ := eq_of_outcome ended outcome
  rw [lines_nil, runOut_nil alive] at state done
  exact ⟨state, done, idle, still⟩

end Session.Course

end LineConsole
