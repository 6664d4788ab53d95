import LineConsole.Proofs.InputStream.Delivery
import LineConsole.Proofs.InputStream.Release

/-!
# Reads of characters

A read of characters takes what is there, as much as it asked for, and waits only if nothing is. An
LF that is to be skipped is not there for it: it is dropped, and the read takes what stands behind
it. So the text that is ready to be read is the buffer without such an LF, and the number of
characters that are buffered is one too many when the stream has one in front.

What is ready stays ready until a read takes a character of it or the stream is reset. Other reads
may come and go, and the one that drops the LF makes no difference.

## Main definitions

* `InputStream.ready` — the text that is ready to be read
* `InputStream.owed` — the LF in front that is to be skipped, counted
* `Desk.Mark.SparesText` — what was noted left the text where it is

## Main results

* `takeChars_of_nil`, `takeChars_of_cons` — what a read of characters takes
* `InputStream.advance_of_ready`, `InputStream.advance_of_unready` — a section of a read of
  characters
* `InputStream.start_of_ready`, `InputStream.outcome_start` — a read of characters that begins takes
  the front of what is ready
* `Desk.ready_goes`, `Desk.ready_run` — what is ready stays ready
* `Desk.available_readable` — as many characters as are buffered can be read, less an LF in front
  that is to be skipped
-/

namespace LineConsole

open Text

namespace Text

/-- What is left of a text: what stands behind an LF that is to be skipped, or all of it. -/
theorem unread_cases (skip : Bool) (t : Text) :
    skip = true ∧ t = '\n' :: unread skip t ∨
      unread skip t = t ∧ (skip = true → t.head? ≠ some '\n') := by
  cases t with
  | nil => exact .inr ⟨unread_nil skip, by simp⟩
  | cons c t =>
    by_cases first : skip = true ∧ c = '\n'
    · obtain ⟨rfl, rfl⟩ := first
      exact .inl ⟨rfl, rfl⟩
    · refine .inr ⟨?_, by simpa using first⟩
      cases skip with
      | false => exact unread_false _
      | true => exact unread_cons (by simpa using first) true t

/-- Text that comes behind a text comes behind what is left of it. -/
theorem unread_prefix_append (skip : Bool) (t more : Text) :
    unread skip t <+: unread skip (t ++ more) := by
  cases t with
  | nil => simp
  | cons c t =>
    rcases unread_cases skip (c :: t) with ⟨rfl, first⟩ | ⟨same, plain⟩
    · rw [first, List.cons_append, unread_lf, unread_lf]
      exact List.prefix_append _ _
    · rcases unread_cases skip (c :: t ++ more) with ⟨skips, first⟩ | ⟨same', -⟩
      · exact absurd (by simpa using (List.cons.inj first).1) (plain skips)
      · rw [same, same']
        exact List.prefix_append _ _

end Text

section TakeChars

variable {size : Nat} {skip : Bool} {buffer : Text} {c : Char} {rest : Text}

/-- A read finds nothing, or nothing but an LF that is to be skipped, and drops it. -/
theorem takeChars_of_nil (h : unread skip buffer = []) :
    takeChars size skip buffer = .nothing (skip && buffer.isEmpty) := by
  rcases unread_cases skip buffer with ⟨rfl, first⟩ | ⟨same, -⟩
  · rw [first, h, takeChars, takeChars]
    rfl
  · rw [← same, h]
    cases skip <;> rfl

/-- A read takes what it finds behind such an LF. -/
theorem takeChars_of_cons (h : unread skip buffer = c :: rest) :
    takeChars size skip buffer = ⟨(c :: rest).take size, (c :: rest).drop size, false, true⟩ := by
  rcases unread_cases skip buffer with ⟨rfl, first⟩ | ⟨same, plain⟩
  · rw [first, h, takeChars, takeChars]
    simp
  · rw [h] at same
    subst same
    rw [takeChars]
    simpa using plain

end TakeChars

namespace InputStream

/-- The text that is ready to be read: what is buffered, without an LF in front that is to be
skipped. -/
def ready (s : InputStream) : Text := unread s.skipLF s.buffer

/-- The LF in front that is to be skipped, counted. -/
def owed (s : InputStream) : Nat := if s.skipLF = true ∧ s.buffer.head? = some '\n' then 1 else 0

variable {s : InputStream} {call : Call} {size : Nat} {thread : ThreadId} {name : Option String}

theorem length_ready (s : InputStream) : s.ready.length = s.available - s.owed := by
  rcases unread_cases s.skipLF s.buffer with ⟨skips, first⟩ | ⟨same, plain⟩
  · have owes : s.owed = 1 := if_pos ⟨skips, by rw [first, List.head?_cons]⟩
    rw [owes, available, first, List.length_cons, ready]
    omega
  · have owes : s.owed = 0 := if_neg fun h => plain h.1 h.2
    rw [owes, available, ready, same]
    omega

theorem chars_ne (asks : 1 ≤ size) : Demand.chars size ≠ .chars 0 := by
  rw [ne_eq, Demand.chars.injEq]
  omega

@[simp] theorem ready_enroll (s : InputStream) (thread : ThreadId) (demand : Demand)
    (name : Option String) : (s.enroll thread demand name).1.ready = s.ready := by
  rw [ready, ready, enroll_buffer, enroll_skipLF]

/-- A read that begins through a handle that is not cancelled is not released. -/
theorem released_enroll (uncancelled : ∀ handle ∈ name, s.isCancelled handle = false)
    (demand : Demand) :
    (s.enroll thread demand name).1.released (s.enroll thread demand name).2 = false := by
  cases name with
  | none => simp [enroll, released, attach, renew]
  | some name =>
    have fresh : s.isCancelled name = false := uncancelled name rfl
    simpa [enroll, released, attach, isCancelled] using fresh

/-- A section of a read of characters takes the front of what is ready, and ends with it. -/
theorem advance_of_ready (hr : s.released call = false) (chars : call.demand = .chars size)
    (new : call.taken = []) (filled : s.ready ≠ []) :
    s.advance call =
      ({ s with buffer := s.ready.drop size, skipLF := false }.retire call.handle,
        .ended (some (s.ready.take size))) := by
  obtain ⟨c, rest, ready⟩ := List.exists_cons_of_ne_nil filled
  have served : call.demand.serve s.skipLF s.buffer =
      ⟨s.ready.take size, s.ready.drop size, false, true⟩ := by
    rw [chars, Demand.serve, takeChars_of_cons ready, ready]
  rw [advance_of_complete hr (by rw [served]), new, serve, served, List.nil_append]

/-- If nothing is ready, it drops what there is, and ends or waits. -/
theorem advance_of_unready (hr : s.released call = false) (chars : call.demand = .chars size)
    (new : call.taken = []) (empty : s.ready = []) :
    let drained := { s with buffer := [], skipLF := s.skipLF && s.buffer.isEmpty }
    s.advance call =
      if s.isClosed then (drained.retire call.handle, .ended none)
      else (drained.enlist { call with awake := false }, .waits) := by
  intro drained
  have served : call.demand.serve s.skipLF s.buffer =
      .nothing (s.skipLF && s.buffer.isEmpty) := by
    rw [chars, Demand.serve, takeChars_of_nil empty]
  have incomplete : (call.demand.serve s.skipLF s.buffer).complete = false := by
    rw [served]
    rfl
  cases closed : s.isClosed with
  | true =>
    rw [advance_of_drained hr incomplete closed, served, serve, served]
    simp [Call.given, Call.soFar, new, Serving.nothing, drained]
  | false =>
    rw [advance_of_waiting hr incomplete closed, served, serve, served]
    simp [Call.given, Serving.nothing, drained]

/-- **A read of characters that begins takes the front of what is ready**, at once. -/
theorem start_of_ready (thread : ThreadId)
    (uncancelled : ∀ handle ∈ name, s.isCancelled handle = false) (asks : 1 ≤ size)
    (filled : s.ready ≠ []) :
    let began := (s.enroll thread (.chars size) name).1
    let handle := (s.enroll thread (.chars size) name).2.handle
    s.start thread (.chars size) name =
      ({ began with buffer := s.ready.drop size, skipLF := false }.retire handle,
        .ended (some (s.ready.take size))) := by
  intro began handle
  have same : began.ready = s.ready := ready_enroll ..
  rw [start_eq (chars_ne asks), advance_of_ready (released_enroll uncancelled _)
    (enroll_demand ..) (enroll_taken ..) (same ▸ filled), same]

/-- How a read of characters that begins leaves its first section. -/
theorem outcome_start (thread : ThreadId)
    (uncancelled : ∀ handle ∈ name, s.isCancelled handle = false) (asks : 1 ≤ size) :
    (s.start thread (.chars size) name).2 =
      if s.ready ≠ [] then .ended (some (s.ready.take size))
      else if s.isClosed then .ended none else .waits := by
  by_cases empty : s.ready = []
  · have closed : (s.enroll thread (.chars size) name).1.isClosed = s.isClosed := by
      cases name <;> rfl
    rw [start_eq (chars_ne asks), advance_of_unready (released_enroll uncancelled _)
      (enroll_demand ..) (enroll_taken ..) ((ready_enroll ..).trans empty), closed,
      if_neg (not_not_intro empty)]
    split <;> rfl
  · rw [start_of_ready thread uncancelled asks empty, if_pos empty]

end InputStream

namespace Desk

open InputStream

/-- What was noted left the text where it is: nothing was discarded, and nobody took anything but an
LF that was to be skipped. -/
def Mark.SparesText : Mark → Prop
  | .took _ taken => ∀ pair ∈ taken, pair.2 = .skipped
  | .emptied => False
  | _ => True

instance : DecidablePred Mark.SparesText
  | .took _ taken => inferInstanceAs (Decidable (∀ pair ∈ taken, pair.2 = .skipped))
  | .emptied => inferInstanceAs (Decidable False)
  | .began _ | .ended _ _ _ | .accepted _ => inferInstanceAs (Decidable True)

variable {desk desk' : Desk} {marks : List Mark}

/-- A turn that takes nothing but an LF that was to be skipped leaves what is ready as it is. -/
theorem ready_of_turn {demand : Demand} {skip : Bool} {c : Char} {rest : Text} {help : Helping}
    (turn : demand.Turn skip c rest help) (spares : ∀ pair ∈ help.taken, pair.2 = .skipped) :
    unread help.skipLF help.rest = unread skip (c :: rest) := by
  cases turn with
  | skip => exact unread_false _
  | @batch size _ _ _ plain =>
    cases size with
    | zero =>
      rcases unread_cases skip (c :: rest) with ⟨skips, first⟩ | ⟨same, -⟩
      · exact absurd (List.cons.inj first).1 (plain skips)
      · rw [same]
        exact unread_false _
    | succ size => simp at spares
  | crlf | cr | lf | plain => simp at spares

/-- **What a move makes of the text that is ready.** It stays ready, and more may come behind it, if
the text is left where it is. -/
theorem ready_goes (goes : Goes desk desk' marks) (spares : ∀ mark ∈ marks, mark.SparesText) :
    desk.stream.ready <+: desk'.stream.ready := by
  cases goes with
  | stays | passes | resumes | ends | sleeps => exact List.prefix_refl _
  | begins => simp
  | @takes s call c rest help hb turn | @leaves s call c rest help hb turn =>
    have same : s.ready = unread help.skipLF help.rest := by
      rw [ready, hb, ready_of_turn turn (spares _ List.mem_cons_self)]
    have kept : s.ready <+: unread help.skipLF help.rest := same ▸ List.prefix_refl _
    exact kept
  | @accepts s text =>
    obtain ⟨buffer, skipLF, -, -⟩ := spares_append s text
    simp only [perform] at buffer skipLF
    rw [ready, ready, buffer, skipLF]
    exact unread_prefix_append _ _ _
  | resets => exact (spares _ List.mem_cons_self).elim
  | @signals _ action signals =>
    obtain ⟨buffer, skipLF, -, -⟩ := spares_of_signals (s := desk.stream) signals
    rw [accepts_of_signals signals, List.append_nil] at buffer
    have same : desk.stream.ready = (desk.stream.perform action).1.ready := by
      rw [ready, ready, buffer, skipLF]
    exact same ▸ List.prefix_refl _

/-- So it is with any moves. -/
theorem ready_run (moves : List Move) (spares : ∀ mark ∈ (desk.run moves).2, mark.SparesText) :
    desk.stream.ready <+: (desk.run moves).1.stream.ready := by
  induction moves generalizing desk with
  | nil => exact List.prefix_refl _
  | cons move moves ih =>
    rw [run_cons] at spares ⊢
    obtain ⟨first, rest⟩ := List.forall_mem_append.mp spares
    exact (ready_goes (desk.goes_step move) first).trans (ih rest)

/-- **Characters that are buffered can be read at once**, less an LF in front that is to be skipped;
an LF is to be skipped when the last character taken since the last reset is a CR that ended a line.
After any run that leaves the desk free, let other things happen that leave the text where it is. A
read of some of the characters, not more than there are, through a handle that is not cancelled,
then returns as many as it asked for, the first of those that were buffered. -/
theorem available_readable {before during : List Move} {s later : InputStream}
    (now : (run {} before).1 = ⟨s, none⟩) (free : (run ⟨s, none⟩ during).1 = ⟨later, none⟩)
    (spares : ∀ mark ∈ (run ⟨s, none⟩ during).2, mark.SparesText) :
    let popped := (({} : Ledger).tally (run {} before).2).popped
    (s.skipLF = true ↔ popped.getLast?.map Entry.pair = some ('\r', .broke)) ∧
      ∀ thread name size, later.isReading thread = false →
        (∀ handle ∈ name, later.isCancelled handle = false) →
        1 ≤ size → size ≤ s.available - s.owed →
          ∃ text, text.length = size ∧ text <+: s.ready ∧
            (later.perform (.start thread (.chars size) name)).2 = [.ended thread (some text)] := by
  intro popped
  constructor
  · have stocked := (inOrder_run inOrder_new before).stocked
    rw [now] at stocked
    rw [← stocked.skipping, behindCR_false_iff, List.getLast?_map]
  · intro thread name size idle uncancelled asks enough
    rw [← length_ready] at enough
    have kept : s.ready <+: later.ready := by simpa [free] using ready_run during spares
    have filled : later.ready ≠ [] := fun empty => by
      have short := kept.length_le
      rw [empty, List.length_nil] at short
      omega
    obtain ⟨more, whole⟩ := kept
    have front : later.ready.take size = s.ready.take size := by
      rw [← whole, List.take_append_of_le_length enough]
    refine ⟨s.ready.take size, ?_, List.take_prefix _ _, ?_⟩
    · rw [List.length_take]
      omega
    · simp only [perform, idle, start_of_ready thread uncancelled asks filled, front]
      rfl

/-- A thread reads a line that ends on a CR, and the LF of the CR LF comes with more text. Then
another thread is about to wait for a line, and before it has taken more than the LF its read is
cancelled. So two of the three characters that were buffered can be read. -/
theorem available_readable_behind_cr :
    let before : List Move :=
      [.act (.append ['a', '\r']), .act (.start "first" .line none), .draw, .draw,
        .act (.append ['\n', 'b', 'c'])]
    let during : List Move :=
      [.act (.start "second" .line (some "handle")), .draw, .act (.flag "handle"), .draw,
        .act (.append ['d']), .act .close]
    let s := (run {} before).1.stream
    let later := (run ⟨s, none⟩ during).1.stream
    s.available = 3 ∧ s.owed = 1 ∧ later.buffer = ['b', 'c', 'd'] ∧
      ∃ text, text.length = 2 ∧ text <+: s.ready ∧
        (later.perform (.start "first" (.chars 2) none)).2 = [.ended "first" (some text)] := by
  intro before during s later
  refine ⟨by decide, by decide, by decide, ?_⟩
  have now : (run {} before).1 = ⟨s, none⟩ := by decide
  have free : (run ⟨s, none⟩ during).1 = ⟨later, none⟩ := by decide
  have spares : ∀ mark ∈ (run ⟨s, none⟩ during).2, mark.SparesText := by decide
  exact (available_readable now free spares).2 "first" none 2 (by decide) (by decide) (by decide)
    (by decide)

/-- An LF in front that is to be skipped is buffered and cannot be read: a read of one character
waits for another one, or is at the end of a stream that is closed. Neither can the characters be
read that were there before a reset. -/
theorem available_unreadable :
    let s := (run {} [.act (.append ['a', '\r']), .act (.start "first" .line none), .draw, .draw,
      .act (.append ['\n'])]).1.stream
    let read : Action := .start "first" (.chars 1) none
    s.available = 1 ∧ s.isReading "first" = false ∧
      (s.perform read).2 = [] ∧ (s.perform read).1.isReading "first" = true ∧
      (s.close.1.perform read).2 = [.ended "first" none] ∧
      let filled := (s.append ['b', 'c']).1
      filled.available = 3 ∧ filled.isReading "first" = false ∧
        (filled.perform (.start "first" (.chars 3) none)).2 = [.ended "first" (some ['b', 'c'])] ∧
        (filled.clear.1.perform read).2 = [] := by
  decide

end Desk

end LineConsole
