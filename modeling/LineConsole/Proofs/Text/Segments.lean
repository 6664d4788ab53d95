import Mathlib.Data.List.Basic
import LineConsole.Text.Framing

/-!
# Cutting a text at its line breaks

The lines of a text were defined by respelling every break as LF and splitting there. Here they are
found from the front: `cut` takes the first line and the break behind it, and what is left is a text
of its own. The two agree, and both agree with the relation `Segmented`, which only says what a
break is and that no segment holds one.

A CR at the very end of what has arrived leaves the cut open: an LF that comes next belongs to the
same break. `unread` is the text to go on with when such an LF may still stand in front.

## Main definitions

* `Text.Unbroken` — a text without a line break
* `Text.Breaks` — a spelling of a line break, in front of a text
* `Text.Segmented` — the segments of a text between its line breaks
* `Text.cut` — the first line of a text, and what stands behind its break
* `Text.unread` — a text without the LF it may have to skip

## Main results

* `cut_eq_some_iff`, `cut_eq_none_iff` — what a cut finds
* `segmented_iff` — the segments are those of the respelled text between its LFs
* `lines_of_cut`, `lines_of_unbroken` — the lines of a text from the front
* `lines_flatMap` — lines that are each ended by one spelling of the break are read back
-/

namespace LineConsole.Text

/-- No line break stands in the text. -/
def Unbroken (t : Text) : Prop := '\r' ∉ t ∧ '\n' ∉ t

/-- The text `mark` is one line break when `rest` stands behind it. -/
inductive Breaks (rest : Text) : Text → Prop
  | crlf : Breaks rest ['\r', '\n']
  | cr : rest.head? ≠ some '\n' → Breaks rest ['\r']
  | lf : Breaks rest ['\n']

/-- The segments of a text between its line breaks, the last one behind the last break. -/
inductive Segmented : Text → List Text → Prop
  | last {t : Text} : t.Unbroken → Segmented t [t]
  | next {line mark rest : Text} {segments : List Text} :
      line.Unbroken → Breaks rest mark → Segmented rest segments →
        Segmented (line ++ mark ++ rest) (line :: segments)

/-- The first line of a text and what stands behind its break, if the text has a break. -/
def cut : Text → Option (Text × Text)
  | [] => none
  | '\r' :: '\n' :: rest => some ([], rest)
  | '\r' :: rest => some ([], rest)
  | '\n' :: rest => some ([], rest)
  | c :: rest => (cut rest).map fun found => (c :: found.1, found.2)

/-- A text without the LF in front of it, if that is to be skipped. -/
def unread : Bool → Text → Text
  | true, '\n' :: rest => rest
  | _, t => t

@[simp] theorem unbroken_nil : Unbroken [] := by simp [Unbroken]

@[simp] theorem unbroken_cons {c : Char} {t : Text} :
    Unbroken (c :: t) ↔ c ≠ '\r' ∧ c ≠ '\n' ∧ Unbroken t := by
  simp only [Unbroken, List.mem_cons, not_or, ne_eq]
  tauto

@[simp] theorem unbroken_append {t u : Text} : Unbroken (t ++ u) ↔ Unbroken t ∧ Unbroken u := by
  simp only [Unbroken, List.mem_append, not_or]
  tauto

/-! ## Skipping an LF -/

@[simp] theorem unread_false (t : Text) : unread false t = t := by
  cases t <;> rfl

@[simp] theorem unread_nil (skip : Bool) : unread skip [] = [] := by
  cases skip <;> rfl

@[simp] theorem unread_lf (t : Text) : unread true ('\n' :: t) = t := rfl

theorem unread_cons {c : Char} (h : c ≠ '\n') (skip : Bool) (t : Text) :
    unread skip (c :: t) = c :: t := by
  cases skip
  · rfl
  · simp [unread, h]

theorem length_unread_le (skip : Bool) (t : Text) : (unread skip t).length ≤ t.length := by
  fun_cases unread skip t <;> simp

/-! ## The first cut -/

@[simp] theorem cut_nil : cut [] = none := rfl

@[simp] theorem cut_lf (t : Text) : cut ('\n' :: t) = some ([], t) := rfl

@[simp] theorem cut_cr (t : Text) : cut ('\r' :: t) = some ([], unread true t) := by
  cases t with
  | nil => rfl
  | cons c t => by_cases h : c = '\n' <;> simp [cut, unread, h]

theorem cut_cons {c : Char} (hr : c ≠ '\r') (hn : c ≠ '\n') (t : Text) :
    cut (c :: t) = (cut t).map fun found => (c :: found.1, found.2) := by
  rw [cut] <;> simp_all

/-- Text without a break in front of a text only makes its first line longer. -/
theorem cut_append {t : Text} (h : t.Unbroken) (u : Text) :
    cut (t ++ u) = (cut u).map fun found => (t ++ found.1, found.2) := by
  induction t with
  | nil => simp
  | cons c t ih =>
    obtain ⟨hr, hn, ht⟩ := unbroken_cons.mp h
    rw [List.cons_append, cut_cons hr hn, ih ht, Option.map_map]
    rfl

/-- A text has no first line exactly when no break ends one. -/
theorem cut_eq_none_iff {t : Text} : cut t = none ↔ t.Unbroken := by
  fun_induction cut t <;> simp_all

theorem cut_of_breaks {mark rest : Text} (h : Breaks rest mark) :
    cut (mark ++ rest) = some ([], rest) := by
  cases h with
  | crlf => rfl
  | cr hfirst =>
    cases rest with
    | nil => rfl
    | cons c rest =>
      have : c ≠ '\n' := by simpa using hfirst
      simp [unread_cons this]
  | lf => rfl

/-- A cut finds the line in front of the first break. -/
theorem cut_eq_some_iff {t line rest : Text} :
    cut t = some (line, rest) ↔
      ∃ mark, line.Unbroken ∧ Breaks rest mark ∧ t = line ++ mark ++ rest := by
  constructor
  · intro h
    fun_induction cut t generalizing line with
    | case1 => simp at h
    | case2 behind =>
      cases h
      exact ⟨['\r', '\n'], unbroken_nil, .crlf, rfl⟩
    | case3 behind hfirst =>
      cases h
      refine ⟨['\r'], unbroken_nil, .cr ?_, rfl⟩
      cases rest with
      | nil => simp
      | cons c rest =>
        rintro e
        rw [List.head?_cons, Option.some.injEq] at e
        exact hfirst rest (by rw [e])
    | case4 behind =>
      cases h
      exact ⟨['\n'], unbroken_nil, .lf, rfl⟩
    | case5 c behind _ hr hn ih =>
      obtain ⟨⟨line', rest'⟩, hcut, heq⟩ := Option.map_eq_some_iff.mp h
      cases heq
      obtain ⟨mark, hline, hmark, rfl⟩ := ih hcut
      exact ⟨mark, by simp_all, hmark, rfl⟩
  · rintro ⟨mark, hline, hmark, rfl⟩
    rw [List.append_assoc, cut_append hline, cut_of_breaks hmark]
    simp

/-! ## Respelling and splitting -/

theorem normalizeBreaks_append {t : Text} (h : t.Unbroken) (u : Text) :
    normalizeBreaks (t ++ u) = t ++ normalizeBreaks u := by
  induction t with
  | nil => rfl
  | cons c t ih =>
    obtain ⟨hr, hn, ht⟩ := unbroken_cons.mp h
    rw [List.cons_append, normalizeBreaks, ih ht, List.cons_append] <;> simp_all

theorem normalizeBreaks_of_breaks {mark rest : Text} (h : Breaks rest mark) :
    normalizeBreaks (mark ++ rest) = '\n' :: normalizeBreaks rest := by
  cases h with
  | crlf => rfl
  | cr hfirst =>
    cases rest with
    | nil => rfl
    | cons c rest =>
      have : c ≠ '\n' := by simpa using hfirst
      simp [normalizeBreaks, this]
  | lf => rfl

/-- The segments between the breaks of a text, by respelling and splitting. -/
theorem splitOn_of_breaks {line mark rest : Text} (hline : line.Unbroken)
    (hmark : Breaks rest mark) :
    (normalizeBreaks (line ++ mark ++ rest)).splitOn '\n' =
      line :: (normalizeBreaks rest).splitOn '\n' := by
  rw [List.append_assoc, normalizeBreaks_append hline, normalizeBreaks_of_breaks hmark,
    List.splitOn_append_cons_self_of_not_mem hline.2]

theorem splitOn_of_unbroken {t : Text} (h : t.Unbroken) :
    (normalizeBreaks t).splitOn '\n' = [t] := by
  rw [normalizeBreaks_of_not_mem h.1, List.splitOn_eq_singleton h.2]

theorem length_lt_of_cut {t line rest : Text} (h : cut t = some (line, rest)) :
    rest.length < t.length := by
  obtain ⟨mark, -, hmark, rfl⟩ := cut_eq_some_iff.mp h
  cases hmark <;> simp <;> omega

/-- What is between the breaks of a text is what is between the LFs of the respelled one. -/
theorem segmented_iff {t : Text} {segments : List Text} :
    Segmented t segments ↔ segments = (normalizeBreaks t).splitOn '\n' := by
  constructor
  · intro h
    induction h with
    | last h => rw [splitOn_of_unbroken h]
    | next hline hmark _ ih => rw [splitOn_of_breaks hline hmark, ih]
  · rintro rfl
    induction hlen : t.length using Nat.strongRecOn generalizing t with
    | ind n ih =>
      cases hcut : cut t with
      | none =>
        have h := cut_eq_none_iff.mp hcut
        rw [splitOn_of_unbroken h]
        exact .last h
      | some found =>
        obtain ⟨mark, hline, hmark, rfl⟩ := cut_eq_some_iff.mp hcut
        rw [splitOn_of_breaks hline hmark]
        exact .next hline hmark (ih _ (hlen ▸ length_lt_of_cut hcut) rfl)

/-! ## The lines of a text -/

theorem dropEmptyLast_cons (line : Text) {pieces : List Text} (h : pieces ≠ []) :
    dropEmptyLast (line :: pieces) = line :: dropEmptyLast pieces := by
  obtain ⟨piece, pieces, rfl⟩ := List.exists_cons_of_ne_nil h
  unfold dropEmptyLast
  simp only [List.getLastD_cons, List.dropLast_cons_cons]
  split <;> rfl

/-- The lines of a text are its first line and the lines behind the first break. -/
theorem lines_of_cut {t line rest : Text} (h : cut t = some (line, rest)) :
    lines t = line :: lines rest := by
  obtain ⟨mark, hline, hmark, rfl⟩ := cut_eq_some_iff.mp h
  rw [lines, feedLines, splitOn_of_breaks hline hmark, dropEmptyLast_cons _ (by simp)]
  rfl

/-- A text without a break is one line, or none if it is empty. -/
theorem lines_of_unbroken {t : Text} (h : t.Unbroken) : lines t = if t = [] then [] else [t] := by
  rw [lines, feedLines, splitOn_of_unbroken h, dropEmptyLast]
  rfl

@[simp] theorem lines_nil : lines [] = [] := lines_of_unbroken unbroken_nil

/-- Lines without a break in them, each ended by the same spelling of the break, are read back. -/
theorem lines_flatMap {mark : Text} (hmark : mark ∈ [['\n'], ['\r'], ['\r', '\n']])
    {list : List Text} (h : ∀ line ∈ list, line.Unbroken) :
    lines (list.flatMap fun line => line ++ mark) = list := by
  induction list with
  | nil => simp
  | cons line list ih =>
    obtain ⟨hline, hlist⟩ := List.forall_mem_cons.mp h
    -- A CR is a break of its own here: the next line starts with no LF, and an empty one is
    -- followed by another CR.
    have hbreaks : Breaks (list.flatMap fun line => line ++ mark) mark := by
      simp only [List.mem_cons, List.not_mem_nil, or_false] at hmark
      rcases hmark with rfl | rfl | rfl
      · exact .lf
      · refine .cr ?_
        cases list with
        | nil => simp
        | cons next list =>
          have hnext := hlist next List.mem_cons_self
          cases next with
          | nil => simp
          | cons c next => simpa using (unbroken_cons.mp hnext).2.1
      · exact .crlf
    rw [List.flatMap_cons, lines_of_cut (cut_eq_some_iff.mpr ⟨mark, hline, hbreaks, rfl⟩),
      ih hlist]

end LineConsole.Text
