import LineConsole.InputStream.Serving
import LineConsole.Proofs.Text.Front

/-!
# A pass over a buffer, seen from the whole text

One pass serves a demand from the characters that have arrived. Here it is compared with reading
from a text that is all there: `Demand.read` gives the result and what is left. Whatever text is
still to come, a satisfied pass has taken just what the whole text would have given, and an
unsatisfied one has only moved unbroken text from the buffer to the reader.

Only demands that do not depend on timing are compared, a line or one character; a read of more
characters takes as many as happen to be there.

## Main definitions

* `Demand.Timeless` — a demand whose answer does not depend on when text arrives
* `Demand.read` — the answer to a demand from a text that is all there, and the text left
* `Demand.MayHold` — what a read may hold while it waits

## Main results

* `Demand.read_line_of_lines_eq_cons` — a demand for a line reads the first line
* `Demand.read_of_complete` — a satisfied pass answers like the whole text
* `Demand.split_of_incomplete` — an unsatisfied pass loses nothing
-/

namespace LineConsole

open Text

theorem scanLine_cons {c : Char} (hr : c ≠ '\r') (hn : c ≠ '\n') (skip : Bool) (rest : Text) :
    scanLine skip (c :: rest) = (scanLine false rest).cons c := by
  cases skip <;> rw [scanLine] <;> simp_all

/-- A pass that finds a break finds the first line of the whole text. -/
theorem cut_of_scanLine {skip : Bool} {buffer : Text}
    (h : (scanLine skip buffer).complete = true) (future : Text) :
    cut (unread skip (buffer ++ future)) =
      some ((scanLine skip buffer).taken,
        unread (scanLine skip buffer).skipLF ((scanLine skip buffer).rest ++ future)) := by
  fun_induction scanLine skip buffer with
  | case1 => simp [Serving.nothing] at h
  | case2 rest ih => simpa using ih h
  | case3 rest => simp
  | case4 skip rest => simp [unread_cons]
  | case5 skip rest hfirst => simp [unread_cons]
  | case6 skip c rest hlf hlf' hcrlf hcr ih =>
    have hr : c ≠ '\r' := hcr
    have hn : c ≠ '\n' := by cases skip <;> simp_all
    rw [Serving.cons_complete] at h
    rw [List.cons_append, unread_cons hn, cut_cons hr hn, ← unread_false (rest ++ future), ih h]
    rfl

/-- A pass that finds no break has moved the text it found, less a skipped LF, to the reader. -/
theorem unread_of_scanLine {skip : Bool} {buffer : Text}
    (h : (scanLine skip buffer).complete = false) (future : Text) :
    unread skip (buffer ++ future) =
      (scanLine skip buffer).taken ++ unread (scanLine skip buffer).skipLF future := by
  fun_induction scanLine skip buffer with
  | case1 => simp [Serving.nothing]
  | case2 rest ih => simpa using ih h
  | case3 | case4 | case5 => simp at h
  | case6 skip c rest hlf hlf' hcrlf hcr ih =>
    have hn : c ≠ '\n' := by cases skip <;> simp_all
    rw [Serving.cons_complete] at h
    rw [List.cons_append, unread_cons hn, ← unread_false (rest ++ future), ih h]
    rfl

theorem unbroken_of_scanLine {skip : Bool} {buffer : Text}
    (h : (scanLine skip buffer).complete = false) : (scanLine skip buffer).taken.Unbroken := by
  fun_induction scanLine skip buffer with
  | case1 => simp [Serving.nothing]
  | case2 rest ih => exact ih h
  | case3 | case4 | case5 => simp at h
  | case6 skip c rest hlf hlf' hcrlf hcr ih =>
    have hn : c ≠ '\n' := by cases skip <;> simp_all
    exact unbroken_cons.mpr ⟨hcr, hn, ih h⟩

namespace Demand

/-- A demand whose answer does not depend on when the text arrives. -/
inductive Timeless : Demand → Prop
  | line : Timeless .line
  | char : Timeless (.chars 1)

/-- The answer to a demand from a text that is all there, and the text that is left. -/
def read : Demand → Text → Option Text × Text
  | .line, t =>
    match cut t with
    | some (first, rest) => (some first, rest)
    | none => (if t = [] then none else some t, [])
  | .chars size, t => (if t = [] then none else some (t.take size), t.drop size)

/-- What a read of this demand may hold while it waits. -/
def MayHold : Demand → Text → Prop
  | .line, held => held.Unbroken
  | .chars _, held => held = []

theorem Timeless.ne_chars_zero {demand : Demand} (h : demand.Timeless) : demand ≠ .chars 0 := by
  cases h <;> simp

theorem mayHold_nil (demand : Demand) : demand.MayHold [] := by
  cases demand with
  | chars size => rfl
  | line => exact unbroken_nil

/-- At the end of the text a read returns what it holds. -/
theorem read_of_mayHold {demand : Demand} {held : Text} (h : demand.MayHold held) :
    demand.read held = (if held = [] then none else some held, []) := by
  cases demand with
  | chars size =>
    cases h
    simp [read]
  | line => simp [read, cut_eq_none_iff.mpr h]

/-- A demand for a line reads the first line of a text off its front. -/
theorem read_line_of_lines_eq_cons {t line : Text} {list : List Text}
    (h : lines t = line :: list) :
    ∃ rest, Reads t [line] rest ∧ lines rest = list ∧ Demand.line.read t = (some line, rest) := by
  cases hcut : cut t with
  | none =>
    have unbroken := cut_eq_none_iff.mp hcut
    rw [lines_of_unbroken unbroken] at h
    by_cases ht : t = []
    · simp [ht] at h
    · rw [if_neg ht] at h
      cases h
      exact ⟨[], .last unbroken ht, lines_nil, by simp [read, hcut, ht]⟩
  | some found =>
    rw [lines_of_cut hcut] at h
    cases h
    exact ⟨found.2, reads_of_cut hcut, rfl, by simp [read, hcut]⟩

@[simp] theorem read_line_nil : Demand.line.read [] = (none, []) := rfl

/-- A satisfied pass answers what the whole text would have answered, and leaves the same text. -/
theorem read_of_complete {demand : Demand} (timeless : demand.Timeless) {skip : Bool}
    {held buffer : Text} (hold : demand.MayHold held)
    (h : (demand.serve skip buffer).complete = true) (future : Text) :
    demand.read (held ++ unread skip (buffer ++ future)) =
      (some (held ++ (demand.serve skip buffer).taken),
        unread (demand.serve skip buffer).skipLF
          ((demand.serve skip buffer).rest ++ future)) := by
  cases timeless with
  | line =>
    rw [serve, read, cut_append hold, cut_of_scanLine h future]
    rfl
  | char =>
    obtain rfl : held = [] := hold
    simp only [serve, read, List.nil_append] at h ⊢
    fun_induction takeChars 1 skip buffer with
    | case1 => simp [Serving.nothing] at h
    | case2 rest ih => simpa using ih h
    | case3 skip c rest hlf =>
      have hkept : unread skip (c :: (rest ++ future)) = c :: (rest ++ future) := by
        cases skip with
        | false => rfl
        | true => exact unread_cons (fun e => hlf rfl e) true _
      simp [hkept]

/-- An unsatisfied pass has only moved text from the buffer to the reader. -/
theorem split_of_incomplete {demand : Demand} {skip : Bool} {held buffer : Text}
    (hold : demand.MayHold held) (h : (demand.serve skip buffer).complete = false) :
    demand.MayHold (held ++ (demand.serve skip buffer).taken) ∧
      ∀ future, held ++ unread skip (buffer ++ future) =
        held ++ (demand.serve skip buffer).taken ++
          unread (demand.serve skip buffer).skipLF future := by
  cases demand with
  | line =>
    refine ⟨unbroken_append.mpr ⟨hold, unbroken_of_scanLine h⟩, fun future => ?_⟩
    rw [serve, unread_of_scanLine h future, List.append_assoc]
  | chars size =>
    obtain rfl : held = [] := hold
    simp only [serve, List.nil_append] at h ⊢
    fun_induction takeChars size skip buffer with
    | case1 => simp [Serving.nothing, MayHold]
    | case2 rest ih => simpa using ih h
    | case3 => simp at h

end Demand

end LineConsole
