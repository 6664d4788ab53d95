import LineConsole.Proofs.Text.Segments

/-!
# Reading lines off the front of a text

Whoever reads a text line by line takes a line with the break behind it, and is left with the rest.
`Reads` says which lines were read and what is left, without saying how: a break is never cut in
two, and a last line that no break ends is read whole. Two stretches of reading make one, and the
lines that are left to read are the lines of what is left.

## Main definitions

* `Text.Reads` — the lines read off the front of a text, and what is left

## Main results

* `Reads.trans` — two stretches of reading make one
* `Reads.lines_eq` — the lines of a text are those read and those of what is left
* `reads_of_cut` — a cut reads one line
-/

namespace LineConsole.Text

/-- The lines `list` are read off the front of a text, each with the break behind it, and `left`
stands behind the last of these breaks. Nothing is left behind a line that no break ends. -/
inductive Reads : Text → List Text → Text → Prop
  | nothing {t : Text} : Reads t [] t
  | next {line mark rest left : Text} {list : List Text} : line.Unbroken → Breaks rest mark →
      Reads rest list left → Reads (line ++ mark ++ rest) (line :: list) left
  | last {t : Text} : t.Unbroken → t ≠ [] → Reads t [t] []

variable {t line rest left : Text} {list more : List Text}

theorem reads_nil_iff : Reads [] list left ↔ list = [] ∧ left = [] := by
  constructor
  · intro h
    generalize ht : ([] : Text) = t at h
    cases h with
    | nothing => exact ⟨rfl, rfl⟩
    | next _ hmark _ => cases hmark <;> simp at ht
    | last _ hne => exact absurd ht.symm hne
  · rintro ⟨rfl, rfl⟩
    exact .nothing

/-- Two stretches of reading make one. -/
theorem Reads.trans (h : Reads t list rest) (h' : Reads rest more left) :
    Reads t (list ++ more) left := by
  induction h with
  | nothing => exact h'
  | next hline hmark _ ih => exact .next hline hmark (ih h')
  | last hline hne =>
    obtain ⟨rfl, rfl⟩ := reads_nil_iff.mp h'
    exact .last hline hne

/-- The lines of a text are those read off its front and those of what is left. -/
theorem Reads.lines_eq (h : Reads t list left) : lines t = list ++ lines left := by
  induction h with
  | nothing => rfl
  | next hline hmark _ ih =>
    rw [lines_of_cut (cut_eq_some_iff.mpr ⟨_, hline, hmark, rfl⟩), ih, List.cons_append]
  | last hline hne => simp [lines_of_unbroken hline, hne]

theorem reads_of_cut (h : cut t = some (line, rest)) : Reads t [line] rest := by
  obtain ⟨mark, hline, hmark, rfl⟩ := cut_eq_some_iff.mp h
  exact .next hline hmark .nothing

end LineConsole.Text
