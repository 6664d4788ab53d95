import LineConsole.Text.Basic

/-!
# Line breaks

Three spellings break a line: CR LF, taken as one break, CR alone and LF alone. Pasted text is
first brought to the single spelling LF; plain input is cut at LF only and leaves the other
spellings to whoever reads it.

## Main definitions

* `Text.normalizeBreaks` — every break respelled as LF
* `Text.feedLines` — the pieces of a text that LF ends, with a last piece only when non-empty
* `Text.lines` — the lines of a text under all three spellings
-/

namespace LineConsole.Text

/-- Respells CR LF, and any other CR, as LF. -/
def normalizeBreaks : Text → Text
  | [] => []
  | '\r' :: '\n' :: rest => '\n' :: normalizeBreaks rest
  | '\r' :: rest => '\n' :: normalizeBreaks rest
  | c :: rest => c :: normalizeBreaks rest

/-- Forgets the last of a list of pieces when it is empty: nothing stands after the last break. -/
def dropEmptyLast (pieces : List Text) : List Text :=
  if pieces.getLastD [] = [] then pieces.dropLast else pieces

/-- The lines of a text whose only break is LF; an unterminated last line counts when non-empty. -/
def feedLines (t : Text) : List Text := dropEmptyLast (t.splitOn '\n')

/-- The lines of a text whose breaks are CR LF, CR and LF; an unterminated last line counts when
non-empty. -/
def lines (t : Text) : List Text := feedLines (normalizeBreaks t)

@[simp] theorem normalizeBreaks_nil : normalizeBreaks [] = [] := rfl

/-- No CR is left. -/
theorem not_mem_normalizeBreaks (t : Text) : '\r' ∉ normalizeBreaks t := by
  fun_induction normalizeBreaks t <;> simp_all [eq_comm]

/-- Text without CR is left alone. -/
theorem normalizeBreaks_of_not_mem {t : Text} (h : '\r' ∉ t) : normalizeBreaks t = t := by
  fun_induction normalizeBreaks t <;> simp_all

end LineConsole.Text
