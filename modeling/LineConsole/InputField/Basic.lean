import LineConsole.Completion.Request
import LineConsole.Editor

/-!
# Input fields

An input line together with the completion pending in it. A trigger asks a source of completions
and leaves a request when there is something to offer; accepting a completion settles the request,
whether or not the completion still fits the text.

## Main definitions

* `Source` — what offers completions for a query
* `InputField` — an editor with the request pending in it
* `InputField.trigger`, `InputField.accept`, `InputField.acceptSelected`, `InputField.dismiss` —
  the life of a request
-/

namespace LineConsole

/-- Offers completions for the text before the cursor. -/
abbrev Source := Text → List Completion

/-- An input line and the completion pending in it. -/
structure InputField where
  editor : Editor := {}
  pending : Option Request := none
deriving DecidableEq, Repr

/-- What became of accepting a completion: the field, the splice if one was made, and the warnings
given. -/
structure InputField.Acceptance where
  field : InputField
  splice : Option Splice := none
  warnings : List Completion.Warning := []
deriving DecidableEq, Repr

namespace InputField

/-- Asks for completions of a query at an anchor. Nothing offered means nothing pending. -/
def trigger (field : InputField) (source : Source) (query : Text) (anchor : Int) : InputField :=
  match source query with
  | [] => { field with pending := none }
  | candidates => { field with pending := some { query, anchor, candidates } }

/-- Asks for completions of the text before the cursor, where the cursor is. -/
def triggerHere (field : InputField) (source : Source) : InputField :=
  field.trigger source field.editor.before field.editor.cursor

/-- Puts a completion into the text where the pending request is anchored, with the cursor behind
it. Nothing is pending afterwards. -/
def accept (field : InputField) (completion : Completion) : Acceptance :=
  match field.pending with
  | none => { field }
  | some request =>
    let (splice, warnings) := completion.fit field.editor.text request.anchor
    match splice with
    | none => { field := { field with pending := none }, warnings }
    | some splice =>
      let cursor := splice.start + splice.text.length
      { field := ⟨⟨splice.apply field.editor.text, cursor⟩, none⟩, splice := some splice, warnings }

/-- Accepts the selected candidate, if a request is pending. The candidate is looked up first, so a
selection that names none is a fault, and there is nothing to accept. -/
def acceptSelected (field : InputField) : Except Fault Acceptance :=
  match field.pending with
  | none => .ok { field }
  | some request => field.accept <$> request.selected

/-- Sets the selection of the pending request, if there is one. -/
def select (field : InputField) (index : Int) : InputField :=
  { field with pending := field.pending.map fun request => request.select index }

/-- Forgets the pending request. -/
def dismiss (field : InputField) : InputField := { field with pending := none }

@[simp] theorem accept_of_nothing {field : InputField} (h : field.pending = none)
    (completion : Completion) : field.accept completion = { field } := by
  simp [accept, h]

@[simp] theorem accept_pending (field : InputField) (completion : Completion) :
    (field.accept completion).field.pending = none := by
  unfold accept
  split
  · assumption
  · dsimp only
    split <;> rfl

end InputField

end LineConsole
