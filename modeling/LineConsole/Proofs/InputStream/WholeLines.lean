import LineConsole.Proofs.InputStream.Section
import LineConsole.Proofs.InputStream.Serving

/-!
# Producers of whole lines

A line that arrives in two pieces can be split between two readers, and a read that is released in
the middle of a line returns a part of it. Neither happens when every text that is appended ends on
a break and every read is of a line. A pass over the buffer then always finds a break or finds
nothing, so no read goes to sleep with anything in its hands, and whatever releases it, it has
nothing to return. A CR at the end of one text and an LF at the front of the next are no exception:
they are one break, of a line that was returned when its CR came.

So the lines that are returned after a reset are the first lines of what was accepted since, in the
order in which they are returned, whoever reads them.

## Main definitions

* `Text.EndsLine` — a text that ends on a break, if it has an end
* `InputStream.Action.LineWise` — a section of a producer of whole lines, or of a reader of lines
* `InputStream.accepted`, `InputStream.returned` — the text a schedule brings in and the texts it
  hands out
* `InputStream.Tidy` — no read holds anything, and the buffer ends on a break

## Main results

* `perform_lines`, `run_tidy` — what one section preserves, and a schedule
* `returned_isPrefix_lines` — no line is torn
-/

namespace LineConsole

open Text

namespace Text

/-- The text ends on a line break, unless it is empty. -/
def EndsLine (t : Text) : Prop := ∀ c ∈ t.getLast?, c = '\r' ∨ c = '\n'

theorem endsLine_nil : EndsLine [] := by simp [EndsLine]

theorem EndsLine.append {t u : Text} (ht : t.EndsLine) (hu : u.EndsLine) : (t ++ u).EndsLine := by
  intro c hc
  rw [List.getLast?_append] at hc
  cases hlast : u.getLast? with
  | none => exact ht c (by simpa [hlast] using hc)
  | some last => exact hu c (by simpa [hlast] using hc)

theorem EndsLine.of_suffix {t u : Text} (hu : u.EndsLine) (h : t <:+ u) : t.EndsLine := by
  obtain ⟨front, rfl⟩ := h
  intro c hc
  exact hu c (by simp_all [List.getLast?_append])

/-- A text cannot both end on a break and have none, unless it is empty. -/
theorem EndsLine.eq_nil_of_unbroken {t : Text} (ends : t.EndsLine) (h : t.Unbroken) : t = [] := by
  by_contra hne
  have last := ends _ (List.getLast?_eq_some_getLast hne)
  have mem := List.getLast_mem hne
  rcases last with last | last
  · exact h.1 (last ▸ mem)
  · exact h.2 (last ▸ mem)

theorem unread_suffix (skip : Bool) (t : Text) : unread skip t <:+ t := by
  fun_cases unread skip t with
  | case1 rest => exact List.suffix_cons _ _
  | case2 => exact List.suffix_refl _

/-- The segments of a text that ends on a break are its lines, and an empty one behind the last
break. -/
theorem EndsLine.segmented {t : Text} (ends : t.EndsLine) : Segmented t (lines t ++ [[]]) := by
  induction hlen : t.length using Nat.strongRecOn generalizing t with
  | ind n ih =>
    cases hcut : cut t with
    | none =>
      obtain rfl := ends.eq_nil_of_unbroken (cut_eq_none_iff.mp hcut)
      simpa using Segmented.last unbroken_nil
    | some found =>
      obtain ⟨mark, hline, hmark, ht⟩ := cut_eq_some_iff.mp hcut
      have behind : found.2.EndsLine := ends.of_suffix ⟨_, ht.symm⟩
      rw [lines_of_cut hcut, List.cons_append]
      have rest := ih _ (hlen ▸ length_lt_of_cut hcut) behind rfl
      rw [ht]
      exact .next hline hmark rest

end Text

theorem scanLine_rest_suffix (skip : Bool) (buffer : Text) :
    (scanLine skip buffer).rest <:+ buffer := by
  fun_induction scanLine skip buffer with
  | case1 => exact List.suffix_refl _
  | case2 rest ih => exact ih.trans (List.suffix_cons _ _)
  | case3 rest => exact List.suffix_cons _ _
  | case4 skip rest => exact ⟨['\r', '\n'], rfl⟩
  | case5 skip rest => exact List.suffix_cons _ _
  | case6 skip c rest hlf hlf' hcrlf hcr ih => exact ih.trans (List.suffix_cons _ _)

/-- A pass over whole lines that finds no break finds nothing, but for an LF to skip. -/
theorem scanLine_of_endsLine {skip : Bool} {buffer : Text} (whole : buffer.EndsLine)
    (h : (scanLine skip buffer).complete = false) :
    (scanLine skip buffer).taken = [] ∧
      ∀ future, unread skip (buffer ++ future) = unread (scanLine skip buffer).skipLF future := by
  have moved := unread_of_scanLine h []
  rw [List.append_nil, unread_nil, List.append_nil] at moved
  have ends : (scanLine skip buffer).taken.EndsLine :=
    moved ▸ whole.of_suffix (unread_suffix skip buffer)
  have nothing := ends.eq_nil_of_unbroken (unbroken_of_scanLine h)
  refine ⟨nothing, fun future => ?_⟩
  rw [unread_of_scanLine h future, nothing, List.nil_append]

namespace InputStream

/-- A section that appends whole lines or reads a line, or does neither. -/
def Action.LineWise : Action → Prop
  | .start _ demand _ => demand = .line
  | .append text => text.EndsLine
  | _ => True

/-- The text that a schedule brings in. -/
def accepted (s : InputStream) : List Action → Text
  | [] => []
  | action :: actions => s.accepts action ++ (s.perform action).1.accepted actions

/-- The texts that sections hand out, in order. -/
def returned (events : List Event) : List Text := (endings events).filterMap Prod.snd

/-- What producers of whole lines and readers of lines keep up. -/
structure Tidy (s : InputStream) : Prop where
  /-- A read in progress is of a line and holds nothing. -/
  empty : ∀ call ∈ s.calls, call.demand = .line ∧ call.taken = []
  /-- No part of a line waits for the rest of it. -/
  whole : s.buffer.EndsLine

variable {s : InputStream} {call : Call} {action : Action}

theorem tidy_new : ({} : InputStream).Tidy := ⟨by simp, endsLine_nil⟩

theorem Tidy.wakeAll (h : s.Tidy) : s.wakeAll.Tidy :=
  ⟨by simpa [InputStream.wakeAll, Call.wake] using h.empty, h.whole⟩

/-! ## One section -/

/-- A read's section over whole lines. It hands out the first of them or nothing, and holds nothing
when it waits. -/
theorem advance_lines (h : call.demand = .line) (hold : call.taken = [])
    (whole : s.buffer.EndsLine) :
    (s.advance call).1.buffer.EndsLine ∧
      (∀ c ∈ (s.advance call).1.calls, c ∈ s.calls ∨ c.demand = .line ∧ c.taken = []) ∧
      ∀ future, lines (unread s.skipLF (s.buffer ++ future)) =
        returned ((s.advance call).2.events call.thread) ++
          lines (unread (s.advance call).1.skipLF ((s.advance call).1.buffer ++ future)) := by
  cases hr : s.released call with
  | true =>
    rw [advance_of_released hr]
    exact ⟨whole, fun c hc => .inl hc, by
      simp [Outcome.events, returned, endings, Event.ending?, Call.soFar, hold]⟩
  | false =>
    have behind : (s.serve call.demand).buffer.EndsLine := by
      rw [serve_buffer, h]
      exact whole.of_suffix (scanLine_rest_suffix _ _)
    cases hc : (call.demand.serve s.skipLF s.buffer).complete with
    | true =>
      rw [advance_of_complete hr hc]
      refine ⟨behind, fun c hc => .inl hc, fun future => ?_⟩
      rw [h] at hc
      rw [lines_of_cut (cut_of_scanLine hc future), h, hold]
      rfl
    | false =>
      have left := Demand.rest_eq_nil_of_incomplete hc
      obtain ⟨nothing, same⟩ : (call.demand.serve s.skipLF s.buffer).taken = [] ∧
          ∀ future, unread s.skipLF (s.buffer ++ future) =
            unread (call.demand.serve s.skipLF s.buffer).skipLF future := by
        rw [h] at hc ⊢
        exact scanLine_of_endsLine whole hc
      cases closed : s.isClosed with
      | true =>
        rw [advance_of_drained hr hc closed, nothing]
        refine ⟨behind, fun c hc => .inl hc, fun future => ?_⟩
        rw [same future]
        simp [Outcome.events, returned, endings, Event.ending?, Call.soFar, hold, left]
      | false =>
        rw [advance_of_waiting hr hc closed, nothing]
        refine ⟨behind, fun c hc => ?_, fun future => ?_⟩
        · rw [enlist_calls, serve_calls, List.mem_append, List.mem_singleton] at hc
          rcases hc with hc | rfl
          · exact .inl hc
          · exact .inr ⟨h, by simp [hold]⟩
        · rw [same future]
          simp [Outcome.events, returned, endings, left]

/-- A read that is served is of a line and holds nothing. -/
theorem Tidy.of_serves {s₀ : InputStream} (tidy : s.Tidy) (hw : action.LineWise)
    (h : s.Serves action s₀ call) : s₀.Tidy ∧ call.demand = .line ∧ call.taken = [] := by
  refine ⟨⟨fun c hc => tidy.empty c (h.mem_of_mem hc), h.buffer_eq ▸ tidy.whole⟩, ?_⟩
  cases h with
  | @start thread demand name => cases name <;> exact ⟨hw, rfl⟩
  | resume hcall => exact tidy.empty _ (mem_of_callOf? hcall)

/-- A reader's section leaves everything tidy and hands out lines from the front. -/
theorem perform_lines_of_reader {thread : ThreadId} (reads : action.reader? = some thread)
    (tidy : s.Tidy) (hw : action.LineWise) :
    (s.perform action).1.Tidy ∧
      ∀ future, lines (unread s.skipLF (s.buffer ++ future)) =
        returned (s.perform action).2 ++
          lines (unread (s.perform action).1.skipLF ((s.perform action).1.buffer ++ future)) := by
  by_cases hs : ∃ s₀ call, s.Serves action s₀ call
  · obtain ⟨s₀, call, h⟩ := hs
    obtain ⟨tidy₀, demand, hold⟩ := tidy.of_serves hw h
    obtain ⟨whole, calls, split⟩ := advance_lines demand hold tidy₀.whole
    rw [perform_of_serves h]
    refine ⟨⟨fun c hc => ?_, whole⟩, fun future => ?_⟩
    · rcases calls c hc with hc | new
      · exact tidy₀.empty c hc
      · exact new
    · rw [← split, h.buffer_eq, h.skipLF_eq]
  · push Not at hs
    obtain ⟨same, nothing⟩ := perform_of_not_serves reads hs
    rw [same]
    refine ⟨tidy, fun future => ?_⟩
    rcases nothing with nothing | nothing <;> simp [nothing, returned, endings, Event.ending?]

theorem accepts_endsLine (s : InputStream) (hw : action.LineWise) :
    (s.accepts action).EndsLine := by
  cases action with
  | append text =>
    rw [accepts]
    split
    · exact endsLine_nil
    · exact hw
  | start | resume | close | clear | interrupt | flag | alert => exact endsLine_nil

/-- A section that spares the reads leaves everything tidy and hands out nothing; what it brings in
joins the lines that are left. -/
theorem perform_lines_of_spares (spares : s.Spares action) (tidy : s.Tidy) (hw : action.LineWise) :
    (s.perform action).1.Tidy ∧ ∀ future,
      lines (unread s.skipLF (s.buffer ++ (s.accepts action ++ future))) =
        returned (s.perform action).2 ++
          lines (unread (s.perform action).1.skipLF ((s.perform action).1.buffer ++ future)) := by
  obtain ⟨buffer, skip, calls, silent⟩ := spares
  refine ⟨⟨?_, buffer ▸ tidy.whole.append (accepts_endsLine s hw)⟩, fun future => ?_⟩
  · rcases calls with calls | calls
    · exact calls ▸ tidy.empty
    · simpa [calls, Call.wake] using tidy.empty
  · rw [returned, silent, buffer, skip, List.append_assoc]
    rfl

/-- **One section** of producers of whole lines and readers of lines leaves everything tidy. Unless
it is a reset, it hands out lines from the front of those that are left. -/
theorem perform_lines (tidy : s.Tidy) (hw : action.LineWise) :
    (s.perform action).1.Tidy ∧
      (action ≠ .clear → ∀ future,
        lines (unread s.skipLF (s.buffer ++ (s.accepts action ++ future))) =
          returned (s.perform action).2 ++
            lines (unread (s.perform action).1.skipLF
              ((s.perform action).1.buffer ++ future))) := by
  cases action with
  | start | resume =>
    obtain ⟨tidy', split⟩ := perform_lines_of_reader rfl tidy hw
    exact ⟨tidy', fun _ => split⟩
  | append text =>
    obtain ⟨tidy', split⟩ := perform_lines_of_spares (spares_append s text) tidy hw
    exact ⟨tidy', fun _ => split⟩
  | clear => exact ⟨Tidy.wakeAll ⟨tidy.empty, endsLine_nil⟩, fun h => absurd rfl h⟩
  | close | interrupt | flag | alert =>
    obtain ⟨tidy', split⟩ :=
      perform_lines_of_spares (spares_of_signals (by constructor)) tidy hw
    exact ⟨tidy', fun _ => split⟩

/-! ## Runs -/

theorem returned_append (events later : List Event) :
    returned (events ++ later) = returned events ++ returned later := by
  rw [returned, endings_append, List.filterMap_append]
  rfl

theorem run_tidy {actions : List Action} (tidy : s.Tidy)
    (linewise : ∀ action ∈ actions, action.LineWise) : (s.run actions).1.Tidy := by
  induction actions generalizing s with
  | nil => exact tidy
  | cons action actions ih =>
    obtain ⟨first, rest⟩ := List.forall_mem_cons.mp linewise
    rw [run_cons]
    exact ih (perform_lines tidy first).1 rest

/-- Between resets a schedule hands out lines from the front of those that are left. -/
theorem run_lines {actions : List Action} (tidy : s.Tidy)
    (linewise : ∀ action ∈ actions, action.LineWise) (uncleared : .clear ∉ actions)
    (future : Text) :
    lines (unread s.skipLF (s.buffer ++ (s.accepted actions ++ future))) =
      returned (s.run actions).2 ++
        lines (unread (s.run actions).1.skipLF ((s.run actions).1.buffer ++ future)) := by
  -- What is still to come is left open, for the rest of the schedule brings in some of it.
  induction actions generalizing s with
  | nil => rfl
  | cons action actions ih =>
    obtain ⟨first, rest⟩ := List.forall_mem_cons.mp linewise
    have ne : action ≠ .clear := fun h => uncleared (h ▸ List.mem_cons_self)
    have later : .clear ∉ actions := fun h => uncleared (List.mem_cons_of_mem _ h)
    obtain ⟨tidy', split⟩ := perform_lines tidy first
    rw [accepted, List.append_assoc, split ne, ih tidy' rest later, run_cons, returned_append,
      List.append_assoc]

theorem accepted_endsLine {actions : List Action}
    (linewise : ∀ action ∈ actions, action.LineWise) : (s.accepted actions).EndsLine := by
  induction actions generalizing s with
  | nil => exact endsLine_nil
  | cons action actions ih =>
    obtain ⟨first, rest⟩ := List.forall_mem_cons.mp linewise
    exact (accepts_endsLine s first).append (ih rest)

/-- A stream has no text and nothing to skip when it is new and when it has just been reset. -/
theorem run_reset {before : List Action}
    (since : before = [] ∨ before.getLast? = some .clear) :
    (({} : InputStream).run before).1.buffer = [] ∧
      (({} : InputStream).run before).1.skipLF = false := by
  rcases since with rfl | last
  · exact ⟨rfl, rfl⟩
  · obtain ⟨front, rfl⟩ := List.getLast?_eq_some_iff.mp last
    rw [run_append, run_cons]
    exact ⟨rfl, rfl⟩

/-- **No line is torn.** When every text that is appended ends on a break and every read is of a
line, no read that waits holds anything. What is returned since a reset, or since the start, are
lines of the text that was accepted since, from the first one on, in order and whole, each ended by
its break; and a read that returns no line returns nothing. -/
theorem returned_isPrefix_lines {before during : List Action}
    (linewise : ∀ action ∈ before ++ during, action.LineWise)
    (since : before = [] ∨ before.getLast? = some .clear) (uncleared : .clear ∉ during) :
    let s := (({} : InputStream).run before).1
    let later := s.run during
    (∀ call ∈ later.1.calls, call.taken = []) ∧
      returned later.2 <+: lines (s.accepted during) ∧
      Segmented (s.accepted during) (lines (s.accepted during) ++ [[]]) ∧
      ∀ thread line, .ended thread (some line) ∈ later.2 → line ∈ lines (s.accepted during) := by
  intro s later
  obtain ⟨lineBefore, lineDuring⟩ := List.forall_mem_append.mp linewise
  have tidy : s.Tidy := run_tidy tidy_new lineBefore
  obtain ⟨drained, settled⟩ := run_reset since
  -- At the reset nothing was unread, so the lines are those of what was accepted from there on.
  have split := run_lines tidy lineDuring uncleared []
  rw [show s.buffer = [] from drained, show s.skipLF = false from settled, unread_false,
    List.nil_append, List.append_nil] at split
  have first : returned later.2 <+: lines (s.accepted during) := ⟨_, split.symm⟩
  refine ⟨fun call hc => ((run_tidy tidy lineDuring).empty call hc).2, first,
    (accepted_endsLine lineDuring).segmented, fun thread line hline => ?_⟩
  have ended : (thread, some line) ∈ endings later.2 := List.mem_filterMap.mpr ⟨_, hline, rfl⟩
  exact first.subset (List.mem_filterMap.mpr ⟨_, ended, rfl⟩)

/-- Two readers wait, the text comes with a CR LF cut in two, one of them is interrupted, and the
line goes to the other. -/
theorem returned_isPrefix_lines_of_cut_crlf :
    let before : List Action := [.append ['x', '\n'], .clear]
    let during : List Action :=
      [.start "first" .line none, .start "second" .line (some "shared"), .append ['a', '\r'],
        .interrupt "first", .resume "first", .resume "second", .append ['\n', '\n'],
        .start "first" .line none]
    (∀ action ∈ before ++ during, action.LineWise) ∧ before.getLast? = some .clear ∧
      .clear ∉ during ∧
      returned ((({} : InputStream).run before).1.run during).2 = [['a'], []] ∧
      returned ((({} : InputStream).run before).1.run during).2 <+:
        lines ((({} : InputStream).run before).1.accepted during) := by
  intro before during
  have linewise : ∀ action ∈ before ++ during, action.LineWise := by
    simp [before, during, Action.LineWise, EndsLine]
  have last : before.getLast? = some .clear := rfl
  have uncleared : .clear ∉ during := by decide
  exact ⟨linewise, last, uncleared, by decide,
    (returned_isPrefix_lines linewise (.inr last) uncleared).2.1⟩

end InputStream

end LineConsole
