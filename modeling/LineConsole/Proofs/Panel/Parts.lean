import LineConsole.Proofs.Panel.Pieces
import LineConsole.Proofs.Panel.Reset

/-!
# A text in parts

A text can come to the input in other ways than by one paste. It can be pasted in parts, one behind
the other, or it can be typed, with a commit for each of its line breaks. All of this leaves the
same panel.

Of two pastes the second goes on where the first has left off: the first lines are submitted, and
the piece behind the last LF stands before the cursor. The same is so when a line was typed and
committed, only that nothing is left of it. So one lemma serves for both: a paste is the same when
some of the lines that it would submit have been submitted before, if the input makes up for them.
Only a CR LF must not be torn, for its halves are two breaks.

## Main definitions

* `Panel.typing` — the steps that type a text, given its pieces between the line breaks

## Main results

* `Text.normalizeBreaks_append_of_whole` — texts are respelled apart, unless a CR LF is torn
* `Text.splitOn_feeding_append` — lines with an LF behind each are cut off a text
* `Panel.paste_of_submitted` — a paste when its first lines were submitted before
* `Panel.paste_append` — pasting in parts
* `Panel.paste_like_typing` — typing with commits
-/

namespace LineConsole

open Text

/-! ## Texts -/

namespace Text

variable {t u : Text}

/-- Texts are respelled apart, if no CR LF is torn between them. -/
theorem normalizeBreaks_append_of_whole
    (whole : ¬(t.getLast? = some '\r' ∧ u.head? = some '\n')) :
    normalizeBreaks (t ++ u) = normalizeBreaks t ++ normalizeBreaks u := by
  have behind {c : Char} {rest : Text} (whole : ¬((c :: rest).getLast? = some '\r' ∧
      u.head? = some '\n')) : ¬(rest.getLast? = some '\r' ∧ u.head? = some '\n') :=
    fun torn => whole ⟨by simp [List.getLast?_cons, torn.1], torn.2⟩
  fun_induction normalizeBreaks t with
  | case1 => rfl
  | case2 rest ih =>
    rw [List.cons_append, List.cons_append, normalizeBreaks, ih (behind (behind whole))]
    rfl
  | case3 rest other ih =>
    -- No LF comes behind the CR: not in the rest, and not from the other text if there is no rest.
    have alone : ∀ more, rest ++ u ≠ '\n' :: more := by
      intro more same
      cases rest with
      | nil => exact whole ⟨rfl, congrArg List.head? same⟩
      | cons c rest =>
        cases same
        exact other rest rfl
    rw [List.cons_append, normalizeBreaks, ih (behind whole)]
    · rfl
    · exact alone
  | case4 c rest plain plain' ih =>
    rw [List.cons_append, normalizeBreaks, ih (behind whole), List.cons_append]
    · exact fun _ same => absurd same plain'
    · exact plain'

/-- Lines with an LF behind each are cut off a text. -/
theorem splitOn_feeding_append {list : List Text} (clean : ∀ line ∈ list, '\n' ∉ line) (t : Text) :
    (feeding list ++ t).splitOn '\n' = list ++ t.splitOn '\n' := by
  induction list with
  | nil => rfl
  | cons line list ih =>
    obtain ⟨first, rest⟩ := List.forall_mem_cons.mp clean
    have regroup : feeding (line :: list) ++ t = line ++ '\n' :: (feeding list ++ t) := by
      simp [feeding]
    rw [regroup, List.splitOn_append_cons_self_of_not_mem first, ih rest, List.cons_append]

theorem Segmented.ne_nil {segments : List Text} (h : Segmented t segments) : segments ≠ [] := by
  cases h <;> exact List.cons_ne_nil _ _

end Text

/-- A cursor at the end has all the text before it. -/
theorem Editor.around_of_atEnd {e : Editor} (atEnd : e.cursor = e.text.length) :
    e.before = e.text ∧ e.after = [] := by
  simp [before, after, upTo, since, atEnd, position_natCast]

namespace Panel

variable {panel : Panel}

/-! ## Pasting in parts -/

/-- What a paste is spliced into, with the breaks respelled in one go. -/
theorem spliced_eq (panel : Panel) (data : Text) :
    panel.spliced data =
      panel.field.editor.before ++ normalizeBreaks data ++ panel.field.editor.after := by
  rw [spliced, normalizeBreaks_eq]

/-- Lines are submitted the same from another input, which they leave alone. -/
theorem foldl_submit_of_field (panel : Panel) (field : InputField) (list : List Text) :
    list.foldl submit { panel with field } = { list.foldl submit panel with field } := by
  simp only [foldl_submit]
  rfl

/-- **A paste is the same when its first lines were submitted before**, if another input makes up
for them: the same text stands after its cursor, and what goes on from its text before the cursor is
what stands behind these lines. -/
theorem paste_of_submitted {data data' : Text} {field : InputField} {list : List Text}
    (clean : ∀ line ∈ list, '\n' ∉ line)
    (after : field.editor.after = panel.field.editor.after)
    (around : panel.spliced data = feeding list ++
      (field.editor.before ++ normalizeBreaks data' ++ panel.field.editor.after)) :
    panel.paste data = paste { list.foldl submit panel with field } data' := by
  generalize left : field.editor.before ++ normalizeBreaks data' ++ panel.field.editor.after = t
    at around
  obtain ⟨front, rest, pieces⟩ :=
    (List.eq_nil_or_concat _).resolve_left (List.splitOn_ne_nil '\n' t)
  rw [List.concat_eq_append] at pieces
  have whole : (panel.spliced data).splitOn '\n' = list ++ front ++ [rest] := by
    rw [around, splitOn_feeding_append clean, pieces, List.append_assoc]
  rw [spliced_eq] at whole
  simp only [paste, whole, after, left, pieces, List.dropLast_concat, List.getLastD_concat,
    List.foldl_append, foldl_submit_of_field]

/-- **Pasting in parts.** Let no LF stand after the cursor, and paste one text and then another. The
panel is the same as after a paste of the two in one: output, stream, input, cursor and popup. Only
a CR LF must not be torn between the texts. -/
theorem paste_append (unbroken : '\n' ∉ panel.field.editor.after) {first second : Text}
    (whole : ¬(first.getLast? = some '\r' ∧ second.head? = some '\n')) :
    (panel.paste first).paste second = panel.paste (first ++ second) := by
  have after : (panel.paste first).field.editor.after = panel.field.editor.after :=
    after_paste unbroken
  have submitted := paste_eq panel first
  have around := feeding_pastedLines panel first
  generalize (panel.paste first).field.editor = editor at after submitted around
  have carried : feeding (panel.pastedLines first) ++ editor.before =
      panel.field.editor.before ++ normalizeBreaks first := by
    rw [← Editor.before_append_after, after, spliced_eq, ← List.append_assoc] at around
    exact List.append_cancel_right around
  rw [submitted]
  refine (paste_of_submitted (fun _ mem => ?_) after ?_).symm
  · exact not_mem_of_mem_splitOn (List.dropLast_subset _ mem)
  · rw [spliced_eq, normalizeBreaks_append_of_whole whole]
    simp only [← List.append_assoc, carried]

/-- There is a break before the cursor, which the first text submits; it ends on a CR, which is a
break of its own, and leaves its last piece to the second text. -/
theorem paste_append_of_broken_front :
    let panel : Panel := { prompt := .missing, field := { editor := ⟨"p\nqz".toList, 3⟩ } }
    let pasted := (panel.paste "1\r".toList).paste "2\n3".toList
    pasted = panel.paste "1\r2\n3".toList ∧ pasted.output = "[]p\n[]q1\n[]2\n".toList ∧
      pasted.field.editor = ⟨['3', 'z'], 1⟩ := by
  intro panel pasted
  have unbroken : '\n' ∉ panel.field.editor.after := by decide
  have whole : ¬("1\r".toList.getLast? = some '\r' ∧ "2\n3".toList.head? = some '\n') := by decide
  exact ⟨paste_append unbroken whole, by decide, by decide⟩

/-- A CR LF that is torn makes two breaks. -/
example : let panel : Panel := { prompt := .missing }
    ((panel.paste ['\r']).paste ['\n']).output = "[]\n[]\n".toList ∧
      (panel.paste ['\r', '\n']).output = "[]\n".toList := by decide

/-! ## Typing with commits -/

/-- The steps that type a text, given its pieces between the line breaks: each piece is typed, and
between any two there is a commit. -/
def typing (pieces : List Text) : List Step := (pieces.map Step.type).intersperse .commit

theorem typing_cons {piece : Text} {pieces : List Text} (some : pieces ≠ []) :
    typing (piece :: pieces) = .type piece :: .commit :: typing pieces := by
  obtain ⟨next, others, rfl⟩ := List.exists_cons_of_ne_nil some
  rfl

theorem commit_edit (panel : Panel) (editor : Editor) :
    (panel.edit editor).commit = { [editor.text].foldl submit panel with field := {} } := rfl

/-- **Typing with commits.** Let the input have no LF in it and the cursor at its end. To paste a
text, or to type it piece by piece with a commit for each of its line breaks, CR LF, CR or LF,
leaves the same panel: output, stream, input and cursor. Only a popup that was open is closed by the
paste, and by the first commit if there is one. -/
theorem paste_like_typing (source : Source) {data : Text} {pieces : List Text}
    (clean : '\n' ∉ panel.field.editor.text)
    (atEnd : panel.field.editor.cursor = panel.field.editor.text.length)
    (segmented : Segmented data pieces) :
    panel.paste data =
      (((typing pieces).map (Occasion.onPanel source)).foldl meet panel).dismiss := by
  induction segmented generalizing panel with
  | @last t unbroken =>
    obtain ⟨before, after⟩ := Editor.around_of_atEnd atEnd
    have single : (panel.field.editor.text ++ t).splitOn '\n' = [panel.field.editor.text ++ t] :=
      List.splitOn_eq_singleton (by simp [clean, unbroken.2])
    have typed : panel.field.editor.cursor + t.length =
        ((panel.field.editor.text ++ t).length : Int) := by simp [atEnd]
    simp [typing, meet, perform, edit, dismiss, InputField.dismiss, Editor.type, paste, before,
      after, normalizeBreaks_of_not_mem unbroken.1, single, typed]
  | @next line mark rest segments unbroken breaks segmented ih =>
    obtain ⟨before, after⟩ := Editor.around_of_atEnd atEnd
    have committed : (panel.edit (panel.field.editor.type line)).commit =
        { [panel.field.editor.text ++ line].foldl submit panel with field := {} } := by
      rw [commit_edit, Editor.type_text, before, after, List.append_nil]
    have typed : ((typing (line :: segments)).map (Occasion.onPanel source)).foldl meet panel =
        ((typing segments).map (Occasion.onPanel source)).foldl meet
          (panel.edit (panel.field.editor.type line)).commit := by
      rw [typing_cons segmented.ne_nil]
      rfl
    rw [typed, ← ih List.not_mem_nil rfl, committed]
    refine paste_of_submitted ?_ after.symm ?_
    · simp [clean, unbroken.2]
    · rw [spliced_eq, before, after, List.append_assoc line, normalizeBreaks_append unbroken,
        normalizeBreaks_of_breaks breaks]
      simp [feeding, Editor.before, upTo]

/-- The three breaks, with nothing between two of them and nothing behind the last, pasted behind a
text in which a popup is open. -/
theorem paste_like_typing_of_empty_lines :
    let source : Source := fun query => [{ label := query, insertText := ['!'] }]
    let panel := openPopup { prompt := .missing, field := { editor := ⟨['a', 'b'], 2⟩ } } source
    let pieces := [['1'], [], ['2'], []]
    panel.field.pending.isSome = true ∧
      panel.paste "1\r\n\r2\n".toList =
        (((typing pieces).map (Occasion.onPanel source)).foldl meet panel).dismiss ∧
      (panel.paste "1\r\n\r2\n".toList).output = "[]ab1\n[]\n[]2\n".toList := by
  intro source panel pieces
  have clean : '\n' ∉ panel.field.editor.text := by decide
  have atEnd : panel.field.editor.cursor = panel.field.editor.text.length := by decide
  have segmented : Segmented "1\r\n\r2\n".toList pieces := segmented_iff.mpr (by decide)
  exact ⟨by decide, paste_like_typing source clean atEnd segmented, by decide⟩

end Panel

end LineConsole
