import LineConsole.InputField.Basic
import LineConsole.InputStream.Basic
import LineConsole.Text.Framing

/-!
# Console panels

A panel is what the user sees and edits: an output pane, an input line with a completion popup, a
prompt and a status line. Behind it stands the stream that an interpreter reads. A committed line
is echoed to the output pane behind the prompt and appended to the stream with an LF.

Pasted text goes in at the cursor. The lines it completes are submitted at once and its last
fragment stays in the input line, in front of what followed the cursor.

A text that is written is put on a list and the list is flushed to the output pane: at once if no
application runs, and else by the application, when the step comes to rest. Nothing is left on the
list between two steps, so a panel has no such list, and writing adds to the output pane.

## Main definitions

* `Prompt`, `Trigger`, `Status` — the settings and the status of a panel
* `Panel` — the panel
* `Panel.submit` — echoes a line and hands it to the stream
* `Panel.commit`, `Panel.paste` — the two ways to submit lines
* `Panel.trigger`, `Panel.move`, `Panel.accept` — the popup
* `Panel.clear`, `Panel.close` — a fresh start, and the end of input

## Main results

* `move_of_no_request`, `commit_field` — what leaves what alone
-/

namespace LineConsole

/-- What stands before the input line: a text, or nothing at all, for which a pair of brackets is
shown. -/
inductive Prompt where
  | text (text : Text)
  | missing
deriving DecidableEq, Repr

/-- What is shown of a prompt. -/
def Prompt.shown : Prompt → Text
  | .text shown => shown
  | .missing => "[]".toList

/-- The keys that can be set to open the popup. -/
inductive Trigger where
  | tab
  | controlSpace
deriving DecidableEq, Repr

namespace Trigger

/-- The name of the key, as it is bound. -/
def name : Trigger → String
  | tab => "tab"
  | controlSpace => "c-space"

/-- The name of the key, as it is shown. -/
def label : Trigger → String
  | tab => "Tab"
  | controlSpace => "Ctrl+Space"

end Trigger

/-- What the status line speaks of. -/
inductive Status where
  | blank
  /-- The panel has been put on the screen. -/
  | ready (trigger : Trigger)
  | noCompletions
  | completions (count : Nat)
  /-- A completion was accepted that no longer fits. -/
  | notInserted
  | cleared
  | inputClosed
deriving DecidableEq, Repr

/-- What the status line says. -/
def Status.message : Status → String
  | blank => ""
  | ready trigger =>
    trigger.label ++ " completes  •  Ctrl+L clear  •  Ctrl+D end input  •  Ctrl+C quit"
  | noCompletions => "No completions."
  | completions count => s!"{count} completions. Enter inserts, Esc closes."
  | notInserted => "Completion no longer fits the input; nothing inserted."
  | cleared => "Cleared."
  | inputClosed => "Input closed."

/-- What the user sees and edits, and the stream behind it. Every text that was written is in the
output pane; none waits to be flushed between two steps. -/
structure Panel where
  prompt : Prompt
  trigger : Trigger := .tab
  status : Status := .blank
  /-- The text in the output pane. -/
  output : Text := []
  /-- The input line and its popup. -/
  field : InputField := {}
  /-- The stream that the interpreter reads. -/
  stdin : InputStream := {}
deriving DecidableEq, Repr

namespace Panel

/-- Adds text to the output pane. With no application running the text is flushed before the write
returns; what a session writes to a running application, `Application.follow` adds. -/
def write (panel : Panel) (text : Text) : Panel := { panel with output := panel.output ++ text }

/-- Adds a line to the output pane. -/
def writeLine (panel : Panel) (line : Text) : Panel := panel.write (line ++ ['\n'])

/-- Sets the status line. -/
def say (panel : Panel) (status : Status) : Panel := { panel with status }

/-- How a submitted line is echoed. -/
def echo (panel : Panel) (line : Text) : Text := panel.prompt.shown ++ line ++ ['\n']

/-- Echoes a line and hands it to the stream. -/
def submit (panel : Panel) (line : Text) : Panel :=
  { panel.write (panel.echo line) with stdin := (panel.stdin.append (line ++ ['\n'])).1 }

/-- Submits the input line and empties it: `Buffer.reset`, which leaves no text and the cursor at the
start. -/
def commit (panel : Panel) : Panel :=
  { panel.submit panel.field.editor.text with field := {} }

/-- Inserts text at the cursor, submits the lines that are then complete and keeps the rest, with
the cursor before what followed it, or at the start if a break came in between. -/
def paste (panel : Panel) (data : Text) : Panel :=
  let editor := panel.field.editor
  let pieces := (editor.before ++ data.normalizeBreaks ++ editor.after).splitOn '\n'
  let rest := pieces.getLastD []
  { pieces.dropLast.foldl submit panel with
    field := { editor := .withinStart ⟨rest, (rest.length : Int) - editor.after.length⟩ } }

/-- Opens the popup for the text before the cursor. -/
def openPopup (panel : Panel) (source : Source) : Panel :=
  let panel := { panel with field := panel.field.triggerHere source }
  match panel.field.pending with
  | none => panel.say .noCompletions
  | some request => panel.say (.completions request.candidates.length)

/-- Moves the selection in the popup, no further than to its ends. -/
def move (panel : Panel) (offset : Int) : Panel :=
  match panel.field.pending with
  | none => panel
  | some request =>
    let last : Int := request.candidates.length - 1
    { panel with field := panel.field.select (max 0 (min last (request.index + offset))) }

/-- Accepts the selected candidate of an open popup, and gives the warnings on the way. -/
def accept (panel : Panel) : Except Fault (Panel × List Completion.Warning) :=
  match panel.field.pending with
  | none => .ok (panel, [])
  | some _ => do
    let acceptance ← panel.field.acceptSelected
    let panel := { panel with field := acceptance.field }
    return (if acceptance.splice.isNone then panel.say .notInserted else panel, acceptance.warnings)

/-- Closes the popup. -/
def dismiss (panel : Panel) : Panel := { panel with field := panel.field.dismiss }

/-- A fresh start: no output, no input, no popup, and a stream that was reset. -/
def clear (panel : Panel) : Panel :=
  { panel with output := [], field := {}, stdin := panel.stdin.clear.1, status := .cleared }

/-- Ends the input of the interpreter. -/
def close (panel : Panel) : Panel := { panel with stdin := panel.stdin.close.1 }

/-- Ends the input of the interpreter, and says so. -/
def endInput (panel : Panel) : Panel := panel.close.say .inputClosed

/-- Sets the prompt, for the lines submitted from now on. -/
def setPrompt (panel : Panel) (prompt : Prompt) : Panel := { panel with prompt }

/-- Edits the input line. -/
def edit (panel : Panel) (editor : Editor) : Panel :=
  { panel with field := { panel.field with editor } }

@[simp] theorem move_of_no_request {panel : Panel} (h : panel.field.pending = none)
    (offset : Int) : panel.move offset = panel := by
  simp [move, h]

@[simp] theorem commit_field (panel : Panel) : panel.commit.field = {} := rfl

@[simp] theorem submit_field (panel : Panel) (line : Text) :
    (panel.submit line).field = panel.field := rfl

end Panel

end LineConsole
