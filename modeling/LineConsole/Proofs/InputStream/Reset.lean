import LineConsole.Proofs.InputStream.Mirror

/-!
# A reset stream is a new stream

One schedule is followed on a stream that was just reset and on a new one. On the used stream, the
threads whose reads the reset has released run whenever the schedule says so; on the new one they
have no reads, and nothing happens when it is their turn. As long as such a thread does not read
again, and is not interrupted, before its old read has ended, and the later reads do not use handles
from before the reset, everything that is seen is the same after every section.

## Main definitions

* `InputStream.view`, `InputStream.allNews` — what is seen of a stream and of a schedule
* `InputStream.Continues` — a schedule can come after a reset

## Main results

* `Mirrors.perform`, `Mirrors.run` — the streams cannot be told apart after more sections
* `clear_starts_anew` — everything that is seen after a reset is seen on a new stream
-/

namespace LineConsole.InputStream

/-! ## What is seen -/

/-- What is seen of a stream: who reads, how much text there is, and whether it is open. -/
structure View where
  reading : ThreadId → Bool
  available : Nat
  gate : Gate

/-- What is seen of a stream if no heed is paid to the reads that linger. -/
def view (s : InputStream) (resets : Nat) : View :=
  ⟨fun thread => s.isReading thread && !s.lingers resets thread, s.available, s.gate⟩

/-- The event, less the number of handles in use at a reset, which only the journal tells. -/
def Event.uncounted : Event → Event
  | .reset _ => .reset 0
  | event => event

/-- What a section makes known if no heed is paid to the reads that linger. -/
def news (s : InputStream) (resets : Nat) : Action → List Event
  | .resume thread =>
    if s.lingers resets thread then [] else (s.perform (.resume thread)).2
  | action => (s.perform action).2.map Event.uncounted

/-- What each section of a schedule makes known. -/
def allNews (s : InputStream) (resets : Nat) : List Action → List (List Event)
  | [] => []
  | action :: actions => s.news resets action :: (s.perform action).1.allNews resets actions

/-! ## Schedules that come after a reset -/

/-- The section can come after a reset of `s`, when the stream has become `used`. A thread that
lingers does not read and is not interrupted, and a read does not go through a handle from before
the reset. Cancelling is one operation, so no read runs when its handle is flagged and the alert is
still to come. -/
def Follows (s used : InputStream) : Action → Prop
  | .start thread _ handle =>
    used.lingers (s.epoch + 1) thread = false ∧ ∀ name, handle = some name → s.Unheard name
  | .interrupt thread => used.lingers (s.epoch + 1) thread = false
  | .resume thread => used.lingers (s.epoch + 1) thread = false →
      ∀ call name, used.callOf? thread = some call → call.handle = .named name →
        name ∉ used.cancelling
  | _ => True

/-- The schedule can come after a reset of `s`, when the stream has become `used`. -/
def Continues (s : InputStream) : InputStream → List Action → Prop
  | _, [] => True
  | used, action :: actions =>
    s.Follows used action ∧ Continues s (used.perform action).1 actions

/-- A read may run whenever no cancelling is half done. -/
theorem follows_resume {s used : InputStream} (settled : used.cancelling = []) (thread : ThreadId) :
    s.Follows used (.resume thread) := by
  intro _ call name _ _
  simp [settled]

variable {s used new : InputStream}

namespace Mirrors

/-- What is seen of the streams is the same. -/
theorem view_eq (h : s.Mirrors used new) : used.view (s.epoch + 1) = new.view 0 := by
  have reading (thread : ThreadId) :
      (used.isReading thread && !used.lingers (s.epoch + 1) thread) = new.isReading thread := by
    have pairs := h.reads thread
    rw [h.lingers_eq]
    simp only [isReading]
    generalize used.callOf? thread = read at pairs
    generalize new.callOf? thread = read' at pairs
    cases pairs <;> rfl
  simp only [view, available, reading, lingers_zero, h.buffer, h.gate, Bool.not_false,
    Bool.and_true]

/-- **After every section that can come after a reset**, the streams cannot be told apart, and the
section has made the same known. -/
theorem perform (h : s.Mirrors used new) (hu : used.Reachable) (hn : new.Reachable)
    {action : Action} (follows : s.Follows used action) :
    s.Mirrors (used.perform action).1 (new.perform action).1 ∧
      used.news (s.epoch + 1) action = new.news 0 action := by
  cases action with
  | start thread demand name =>
    obtain ⟨mirrors, same⟩ := h.start demand follows.1 follows.2
    exact ⟨mirrors, congrArg _ same⟩
  | resume thread =>
    cases lingers : used.lingers (s.epoch + 1) thread with
    | true =>
      obtain ⟨mirrors, still⟩ := h.resume_of_lingers hu hn lingers
      simp only [news, lingers, lingers_zero, still, if_true]
      exact ⟨mirrors, rfl⟩
    | false =>
      obtain ⟨mirrors, same⟩ := h.resume_of_ended hn lingers (follows lingers)
      simp only [news, lingers, lingers_zero, Bool.false_eq_true, if_false]
      exact ⟨mirrors, same⟩
  | append text =>
    obtain ⟨mirrors, same⟩ := h.append text
    exact ⟨mirrors, congrArg _ same⟩
  | close =>
    obtain ⟨mirrors, same⟩ := h.close
    exact ⟨mirrors, congrArg _ same⟩
  | clear => exact ⟨h.clear, rfl⟩
  | interrupt thread =>
    obtain ⟨mirrors, same⟩ := h.interrupt hu hn follows
    exact ⟨mirrors, congrArg _ same⟩
  | flag name => exact ⟨h.flag name, rfl⟩
  | alert name => exact ⟨h.alert name, rfl⟩

/-- They cannot be told apart after a schedule either. -/
theorem run (h : s.Mirrors used new) (hu : used.Reachable) (hn : new.Reachable)
    {actions : List Action} (continues : s.Continues used actions) :
    s.Mirrors (used.run actions).1 (new.run actions).1 ∧
      used.allNews (s.epoch + 1) actions = new.allNews 0 actions := by
  induction actions generalizing used new with
  | nil => exact ⟨h, rfl⟩
  | cons action actions ih =>
    obtain ⟨follows, later⟩ := continues
    obtain ⟨mirrors, same⟩ := h.perform hu hn follows
    obtain ⟨mirrors', same'⟩ := ih mirrors (hu.perform action) (hn.perform action) later
    rw [run_cons, run_cons]
    exact ⟨mirrors', congrArg₂ List.cons same same'⟩

end Mirrors

/-- **A reset stream is a new stream.** After any schedule, reset the stream. Then follow any
schedule that can come after it, both on this stream and on a new one. Every section makes the same
known on both, and afterwards the same threads read, as much text is there, and both are open or
both are closed. Only the reads that the reset has released are there on one stream and not on the
other, and it does not matter when their threads get to run. -/
theorem clear_starts_anew (before later : List Action) :
    let s := (({} : InputStream).run before).1
    s.Continues s.clear.1 later →
      s.clear.1.allNews (s.epoch + 1) later = ({} : InputStream).allNews 0 later ∧
        (s.clear.1.run later).1.view (s.epoch + 1) = (({} : InputStream).run later).1.view 0 := by
  intro s continues
  have hs : s.Reachable := ⟨before, rfl⟩
  obtain ⟨mirrors, same⟩ := hs.mirrors_clear.run (hs.perform .clear) ⟨[], rfl⟩ continues
  exact ⟨same, mirrors.view_eq⟩

/-- One reader has part of a line, another has just read a line that ended on a CR, and the stream
is closed when it is reset. An LF comes, and it is a line. The first reader's old handle is
cancelled, which wakes a reader who has nothing to do with it; only then the first reader runs, and
then it reads again. -/
theorem clear_starts_anew_behind_cr :
    let before : List Action :=
      [.start "slow" .line (some "old"), .append ['x'], .resume "slow", .append ['a', '\r'],
        .start "quick" .line none, .close]
    let later : List Action :=
      [.append ['\n'], .start "quick" .line (some "new"), .start "other" .line none, .flag "old",
        .alert "old", .resume "other", .resume "slow", .start "slow" (.chars 2) (some "new"),
        .append ['p', 'q', 'r'], .resume "slow", .interrupt "other", .resume "other"]
    let s := (({} : InputStream).run before).1
    s.Continues s.clear.1 later ∧ s.clear.1.lingers 1 "slow" = true ∧ s.skipLF = true ∧
      s.clear.1.allNews 1 later =
        [[], [.ended "quick" (some [])], [], [], [], [], [], [], [],
          [.ended "slow" (some ['p', 'q'])], [.interrupted 1 "other"], [.ended "other" none]] ∧
      s.clear.1.allNews 1 later = ({} : InputStream).allNews 0 later := by
  intro before later s
  have unheard : s.Unheard "new" := ⟨by decide, by decide, by decide⟩
  have continues : s.Continues s.clear.1 later := by
    have named : ∀ name, some "new" = some name → s.Unheard name := by
      rintro _ ⟨⟩
      exact unheard
    exact ⟨trivial, ⟨by decide, named⟩, ⟨by decide, by simp⟩, trivial, trivial,
      follows_resume (by decide) _, follows_resume (by decide) _, ⟨by decide, named⟩, trivial,
      follows_resume (by decide) _, (by decide : _ = _), follows_resume (by decide) _, trivial⟩
  exact ⟨continues, by decide, by decide, by decide, (clear_starts_anew before later continues).1⟩

end LineConsole.InputStream
