import LineConsole.Proofs.Panel.Echoing

/-!
# The pieces of a paste

Pasted text goes in at the cursor, between what stands before it and what stands after it. The whole
is cut at its LFs. The pieces that an LF ends are submitted, each with its LF behind it, and the
last piece is the new input. So nothing is lost: what was submitted and what is left make up the
whole again.

The cursor is to stand before what followed it, so its offset is found by counting from the end of
the new input. The count comes out right when no LF stood after the cursor, for then all that did is
at the end of the last piece. Otherwise the last piece is shorter than what followed the cursor, and
the offset that is found lies before the start, where the cursor is then put.

## Main definitions

* `Text.replaceCRLF`, `Text.replaceCR` — the two replacements that respell the breaks of a text

## Main results

* `Text.normalizeBreaks_eq` — breaks are respelled by these two replacements
* `Text.feeding_splitOn`, `Text.not_mem_of_mem_splitOn` — the pieces of a text between its LFs
* `Panel.foldl_submit` — what becomes of a panel when lines are submitted
* `Panel.cursor_paste`, `Panel.after_paste` — where the cursor is left
* `Panel.paste_loses_nothing` — what a paste submits and keeps
-/

namespace LineConsole

open Text

namespace Text

/-! ## Respelling -/

/-- Every CR LF is replaced by an LF. -/
def replaceCRLF : Text → Text
  | [] => []
  | '\r' :: '\n' :: rest => '\n' :: replaceCRLF rest
  | c :: rest => c :: replaceCRLF rest

/-- Every CR is replaced by an LF. -/
def replaceCR (t : Text) : Text := t.map fun c => if c = '\r' then '\n' else c

/-- Breaks are respelled by replacing first each CR LF and then each CR that is left. -/
theorem normalizeBreaks_eq (t : Text) : normalizeBreaks t = replaceCR (replaceCRLF t) := by
  fun_induction normalizeBreaks t with
  | case1 => rfl
  | case2 rest ih =>
    rw [replaceCRLF, ih]
    rfl
  | case3 rest other ih =>
    -- No LF stands behind the CR, so the CR is left to the second replacement.
    rw [replaceCRLF, ih]
    · rfl
    · simpa using other
  | case4 c rest plain plain' ih =>
    have notCR : c ≠ '\r' := plain'
    rw [replaceCRLF, ih]
    · simp [replaceCR, notCR]
    · simp [notCR]

/-! ## Pieces -/

variable {t piece : Text}

/-- No piece has an LF in it. -/
theorem not_mem_of_mem_splitOn (h : piece ∈ t.splitOn '\n') : '\n' ∉ piece := by
  induction t generalizing piece with
  | nil =>
    rw [List.splitOn_nil, List.mem_singleton] at h
    simp [h]
  | cons c t ih =>
    obtain ⟨first, others, pieces⟩ := List.exists_cons_of_ne_nil (List.splitOn_ne_nil '\n' t)
    rw [List.splitOn_cons_eq_if_modifyHead, pieces, List.modifyHead_cons] at h
    rw [pieces] at ih
    split at h
    · rcases List.mem_cons.mp h with rfl | mem
      · exact List.not_mem_nil
      · exact ih mem
    next other =>
      have different : '\n' ≠ c := fun same => other (by simp [← same])
      rcases List.mem_cons.mp h with rfl | mem
      · exact List.not_mem_cons_of_ne_of_not_mem different (ih List.mem_cons_self)
      · exact ih (List.mem_cons_of_mem _ mem)

/-- Pieces with an LF behind each but the last are the pieces with an LF between any two. -/
theorem feeding_dropLast {pieces : List Text} (nonempty : pieces ≠ []) :
    feeding pieces.dropLast ++ pieces.getLastD [] = ['\n'].intercalate pieces := by
  induction pieces with
  | nil => exact absurd rfl nonempty
  | cons first others ih =>
    cases others with
    | nil => simp [feeding]
    | cons second others =>
      rw [List.intercalate_cons_cons, ← ih (List.cons_ne_nil _ _)]
      simp [feeding]

/-- The pieces of a text make up the text. -/
theorem feeding_splitOn (t : Text) :
    feeding (t.splitOn '\n').dropLast ++ (t.splitOn '\n').getLastD [] = t := by
  rw [feeding_dropLast (List.splitOn_ne_nil '\n' t), List.intercalate_splitOn]

theorem not_mem_getLastD_splitOn (t : Text) : '\n' ∉ (t.splitOn '\n').getLastD [] := by
  obtain ⟨front, last, pieces⟩ :=
    (List.eq_nil_or_concat _).resolve_left (List.splitOn_ne_nil '\n' t)
  rw [List.concat_eq_append] at pieces
  have mem : last ∈ t.splitOn '\n' := by simp [pieces]
  rw [pieces, List.getLastD_concat]
  exact not_mem_of_mem_splitOn mem

/-- A text that ends what lines with their LFs and a last piece make up, and has no LF in it, ends
the last piece. -/
theorem suffix_of_feeding {list : List Text} {rest : Text} (ends : t <:+ feeding list ++ rest)
    (unbroken : '\n' ∉ t) : t <:+ rest := by
  rcases List.suffix_or_suffix_of_suffix ends (List.suffix_append _ rest) with within | ⟨more, rfl⟩
  · exact within
  · obtain ⟨front, same⟩ := ends
    rw [← List.append_assoc, List.append_left_inj] at same
    rcases List.eq_nil_or_concat more with rfl | ⟨more, c, rfl⟩
    · exact List.suffix_refl _
    · rcases List.eq_nil_or_concat list with rfl | ⟨list, line, rfl⟩
      · simp [feeding] at same
      · have last : c = '\n' := by
          have ends := congrArg List.getLast? same
          simpa [feeding, ← List.append_assoc] using ends
        exact absurd (by simp [last]) unbroken

end Text

namespace Panel

variable {panel : Panel}

/-! ## Submitting -/

/-- Lines that are submitted come to the output pane and to the stream, and to nothing else. -/
theorem foldl_submit (panel : Panel) (list : List Text) :
    list.foldl submit panel =
      { panel with
        output := panel.output ++ (list.map panel.echo).flatten
        stdin := (panel.stdin.run (list.map fun line => .append (line ++ ['\n']))).1 } := by
  rw [run_appends, ← stdin_foldl_submit, ← output_foldl_submit]
  induction list generalizing panel with
  | nil => rfl
  | cons line list ih =>
    rw [List.foldl_cons, ih]
    rfl

/-! ## Around the cursor -/

/-- What a paste is spliced into, from one end to the other. -/
def spliced (panel : Panel) (data : Text) : Text :=
  panel.field.editor.before ++ replaceCR (replaceCRLF data) ++ panel.field.editor.after

/-- The lines that a paste submits. -/
def pastedLines (panel : Panel) (data : Text) : List Text :=
  ((panel.spliced data).splitOn '\n').dropLast

theorem paste_eq (panel : Panel) (data : Text) :
    panel.paste data =
      { (panel.pastedLines data).foldl submit panel with
        field := { editor := (panel.paste data).field.editor } } := by
  simp only [paste, pastedLines, spliced, normalizeBreaks_eq]

theorem text_paste (panel : Panel) (data : Text) :
    (panel.paste data).field.editor.text = ((panel.spliced data).splitOn '\n').getLastD [] := by
  simp only [paste, spliced, normalizeBreaks_eq, Editor.withinStart]

theorem cursor_paste_eq (panel : Panel) (data : Text) :
    (panel.paste data).field.editor.cursor = max 0
      (((panel.paste data).field.editor.text.length : Int) - panel.field.editor.after.length) := by
  simp only [paste, Editor.withinStart]

/-- What was submitted and what is left make up what the paste was spliced into. -/
theorem feeding_pastedLines (panel : Panel) (data : Text) :
    feeding (panel.pastedLines data) ++ (panel.paste data).field.editor.text =
      panel.spliced data := by
  rw [text_paste, pastedLines, feeding_splitOn]

/-- What stood after the cursor is after it again, if no LF was in it. -/
theorem after_paste {data : Text} (unbroken : '\n' ∉ panel.field.editor.after) :
    (panel.paste data).field.editor.after = panel.field.editor.after := by
  have ends : panel.field.editor.after <:+
      feeding (panel.pastedLines data) ++ (panel.paste data).field.editor.text := by
    rw [feeding_pastedLines]
    exact List.suffix_append _ _
  obtain ⟨front, text⟩ := suffix_of_feeding ends unbroken
  have cursor : (panel.paste data).field.editor.cursor = front.length := by
    rw [cursor_paste_eq, ← text, List.length_append]
    omega
  rw [Editor.after, Text.since, cursor, ← text, position_natCast (by simp), List.drop_left]

/-- Otherwise the cursor is at the start. -/
theorem cursor_paste {data : Text} (broken : '\n' ∈ panel.field.editor.after) :
    (panel.paste data).field.editor.cursor = 0 := by
  have whole := feeding_pastedLines panel data
  have ends : (panel.paste data).field.editor.text <:+ panel.spliced data :=
    ⟨_, whole⟩
  have clean : '\n' ∉ (panel.paste data).field.editor.text := by
    rw [text_paste]
    exact not_mem_getLastD_splitOn _
  -- The last piece has no LF in it, so it does not reach back to the one after the cursor.
  have shorter : (panel.paste data).field.editor.text <:+ panel.field.editor.after := by
    refine (List.suffix_or_suffix_of_suffix ends (List.suffix_append _ _)).resolve_right ?_
    exact fun within => clean (within.subset broken)
  rw [cursor_paste_eq]
  have := shorter.length_le
  omega

/-- **A paste loses nothing.** Let the breaks of the pasted text be respelled, each CR LF as LF and
then each CR as LF. The lines that the paste submits, with an LF behind each, and the text that it
leaves in the input are together what stood before the cursor, the respelled text and what stood
after the cursor. No LF is left in the input. Each line is echoed behind the prompt and appended to
the stream, in order; an open stream has them all behind what it had, a closed one drops them. No
request is pending. If no LF stood after the cursor, the same text stands after it again; otherwise
the cursor is at the start. -/
theorem paste_loses_nothing (panel : Panel) (data : Text) :
    let before := panel.field.editor.before
    let after := panel.field.editor.after
    let pasted := panel.paste data
    ∃ list : List Text,
      feeding list ++ pasted.field.editor.text = before ++ replaceCR (replaceCRLF data) ++ after ∧
      '\n' ∉ pasted.field.editor.text ∧ (∀ line ∈ list, '\n' ∉ line) ∧
      pasted = { panel with
        output := panel.output ++ (list.map panel.echo).flatten
        stdin := (panel.stdin.run (list.map fun line => .append (line ++ ['\n']))).1
        field := { editor := pasted.field.editor, pending := none } } ∧
      pasted.stdin.buffer =
        panel.stdin.buffer ++ (if panel.stdin.isClosed then [] else feeding list) ∧
      ('\n' ∉ after → pasted.field.editor.after = after) ∧
      ('\n' ∈ after → pasted.field.editor.cursor = 0) := by
  intro before after pasted
  have submitted := paste_eq panel data
  rw [foldl_submit] at submitted
  refine ⟨panel.pastedLines data, feeding_pastedLines panel data, ?_, fun line mem => ?_, submitted,
    ?_, after_paste, cursor_paste⟩
  · rw [text_paste]
    exact not_mem_getLastD_splitOn _
  · exact not_mem_of_mem_splitOn (List.dropLast_subset _ mem)
  · have stdin := congrArg Panel.stdin submitted
    rw [show pasted.stdin = _ from stdin, InputStream.buffer_run, Desk.gatherAll_appends]
    simp [InputStream.Action.reader?]

end Panel

end LineConsole
