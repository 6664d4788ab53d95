import LineConsole.Fault
import LineConsole.Text.Slice

/-!
# Line editors

The text of an input line and the cursor in it, an offset into the text. Every edit leaves the
cursor between the two ends of the text. A text given together with a cursor beyond its end is a
fault. A cursor before the start means the start to an editor that takes over a new text, while an
editor that begins with one keeps it as it is, an offset from the end, until the next edit.

The input line is a `Buffer` of the text surface, prompt_toolkit, and what it is given or asked for
is a `Document`. Of these the editor has what is documented of the text and the cursor; each
definition names the operation that it follows. Undo, selections and history have no part in what
the console does with its input line.

## Main definitions

* `Editor` — a text and a cursor
* `Editor.before`, `Editor.after` — the text on either side of the cursor
* `Editor.type`, `Editor.moveTo` — editing
* `Editor.create`, `Editor.place` — an editor that begins with a text, and one that takes it over

## Main results

* `before_append_after` — the cursor cuts the text in two without loss
* `place_eq_ok_iff` — which texts and cursors can be placed
* `moveTo_cursor_nonneg`, `moveTo_cursor_le`, `type_text` — what editing does
-/

namespace LineConsole

/-- A text and a cursor in it: the `text` and the `cursor_position` of a `Buffer`. -/
structure Editor where
  text : Text := []
  cursor : Int := 0
deriving DecidableEq, Repr

namespace Editor

/-- An editor that begins with a text and a cursor, which must not be beyond the end: a `Document`,
which asserts this of its cursor position and nothing else, handed to a new `Buffer`. -/
def create (text : Text) (cursor : Int) : Except Fault Editor :=
  if text.length < cursor then .error (.cursorBeyondText cursor text.length)
  else .ok ⟨text, cursor⟩

/-- A cursor before the start, sent to the start, as by a `Buffer` whenever its cursor position is
set. -/
def withinStart (e : Editor) : Editor := { e with cursor := max 0 e.cursor }

/-- An editor that takes over a text and a cursor: `Buffer.set_document`, with the assertion of the
`Document` that it is given. -/
def place (text : Text) (cursor : Int) : Except Fault Editor :=
  withinStart <$> create text cursor

/-- The text before the cursor: `Document.text_before_cursor`. A cursor that is an offset from the
end counts from there. -/
def before (e : Editor) : Text := e.text.upTo e.cursor

/-- The text after the cursor: `Document.text_after_cursor`. -/
def after (e : Editor) : Text := e.text.since e.cursor

/-- Inserts text at the cursor, which moves behind it: `Buffer.insert_text`, which does not
overwrite. -/
def type (e : Editor) (text : Text) : Editor :=
  withinStart ⟨e.before ++ text ++ e.after, e.cursor + text.length⟩

/-- Sends the cursor to an offset, or to the end of the text nearest to it: setting the
`cursor_position` of a `Buffer`, which is kept within its text. -/
def moveTo (e : Editor) (offset : Int) : Editor :=
  withinStart { e with cursor := min offset e.text.length }

@[simp] theorem before_append_after (e : Editor) : e.before ++ e.after = e.text :=
  Text.upTo_append_since _ _

theorem moveTo_cursor_nonneg (e : Editor) (offset : Int) : 0 ≤ (e.moveTo offset).cursor :=
  Int.le_max_left _ _

theorem moveTo_cursor_le (e : Editor) (offset : Int) :
    (e.moveTo offset).cursor ≤ (e.moveTo offset).text.length := by
  simp only [moveTo, withinStart]
  omega

@[simp] theorem type_text (e : Editor) (text : Text) :
    (e.type text).text = e.before ++ text ++ e.after := rfl

theorem place_eq_ok_iff {text : Text} {cursor : Int} {e : Editor} :
    place text cursor = .ok e ↔ cursor ≤ text.length ∧ e = ⟨text, max 0 cursor⟩ := by
  unfold place create
  split <;> simp [Functor.map, Except.map, withinStart, eq_comm] <;> omega

end Editor

end LineConsole
