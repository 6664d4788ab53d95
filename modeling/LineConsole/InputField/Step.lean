import LineConsole.InputField.Basic

/-!
# Steps on an input field

What a user of an input field can do to it, one step at a time: edit the line, ask for completions,
choose among them, accept or dismiss. A step that is refused answers with the fault, and the turn
holds the field in which the fault left things.

## Main definitions

* `InputField.Step` — what can be done
* `InputField.Answer` — what a step answers
* `InputField.Turn` — the field after a step, with what the step answered, asked and noted
* `InputField.perform` — one step
-/

namespace LineConsole.InputField

/-- What can be done to an input field. -/
inductive Step where
  | trigger (query : Text) (anchor : Int)
  | triggerHere
  | accept (completion : Completion)
  | acceptSelected
  | select (index : Int)
  | dismiss
  /-- A new text, with the cursor at an offset or at the end. -/
  | place (text : Text) (cursor : Option Int)
  | moveTo (offset : Int)
  | type (text : Text)
deriving DecidableEq, Repr

/-- What a step answers. -/
inductive Answer where
  | nothing
  | pending (request : Option Request)
  | splice (splice : Option Splice)
  /-- The fault for which the step was refused. -/
  | refused (fault : Fault)
deriving DecidableEq, Repr

/-- A field after a step, what the step answered, the queries it made and the warnings it gave. -/
structure Turn where
  field : InputField
  answer : Answer := .nothing
  queries : List Text := []
  warnings : List Completion.Warning := []
deriving DecidableEq, Repr

/-- The turn of a completion that was accepted. -/
def Acceptance.turn (acceptance : Acceptance) : Turn where
  field := acceptance.field
  answer := .splice acceptance.splice
  warnings := acceptance.warnings

/-- The turn of a query. -/
def askTurn (field : InputField) (source : Source) (query : Text) (anchor : Int) : Turn :=
  let field := field.trigger source query anchor
  { field, answer := .pending field.pending, queries := [query] }

/-- The turn of a step that was refused. -/
def refuse (field : InputField) (fault : Fault) : Turn := { field, answer := .refused fault }

/-- One step. The selected candidate is looked up, and a new text checked against its cursor, before
anything is done to the field; so this is what a refused step leaves. -/
def perform (source : Source) (field : InputField) : Step → Turn
  | .trigger query anchor => field.askTurn source query anchor
  | .triggerHere => field.askTurn source field.editor.before field.editor.cursor
  | .accept completion => (field.accept completion).turn
  | .acceptSelected =>
    match field.acceptSelected with
    | .ok acceptance => acceptance.turn
    | .error fault => field.refuse fault
  | .select index => { field := field.select index }
  | .dismiss => { field := field.dismiss }
  | .place text cursor =>
    match Editor.place text (cursor.getD text.length) with
    | .ok editor => { field := { field with editor } }
    | .error fault => field.refuse fault
  | .moveTo offset => { field := { field with editor := field.editor.moveTo offset } }
  | .type text => { field := { field with editor := field.editor.type text } }

end LineConsole.InputField
