import LineConsole.Panel.Basic
import LineConsole.Reading.Crew

/-!
# Steps on a panel

What can be done to a panel, one step at a time, and what each step asks of the interpreter and
notes on the way. A panel can also be tried with a crew of readers in the interpreter's place.

## Main definitions

* `Panel.Step` — what can be done
* `Panel.Turn` — the panel after a step, with the queries made and the warnings given
* `Panel.perform` — one step
* `Panel.Bench` — a panel and the threads that read its stream
* `Bench.perform` — one step, then a pause in which the readers come to rest
-/

namespace LineConsole

namespace Panel

/-- What can be done to a panel. -/
inductive Step where
  | type (text : Text)
  | moveTo (offset : Int)
  /-- A new input text, with the cursor at an offset or at the end. -/
  | place (text : Text) (cursor : Option Int)
  | commit
  | paste (text : Text)
  | openPopup
  | move (offset : Int)
  | accept
  | dismiss
  | clear
  | close
  | endInput
  | write (texts : List Text)
  | writeLine (text : Text)
  | setPrompt (prompt : Prompt)
  /-- The panel is put on the screen. -/
  | build
deriving DecidableEq, Repr

/-- A panel after a step, the queries it made and the warnings it gave. -/
structure Turn where
  panel : Panel
  queries : List Text := []
  warnings : List Completion.Warning := []
deriving DecidableEq, Repr

/-- One step, or the fault for which it was refused. -/
def perform (source : Source) (panel : Panel) : Step → Except Fault Turn
  | .type text => .ok { panel := panel.edit (panel.field.editor.type text) }
  | .moveTo offset => .ok { panel := panel.edit (panel.field.editor.moveTo offset) }
  | .place text cursor => do
    let editor ← Editor.place text (cursor.getD text.length)
    return { panel := panel.edit editor }
  | .commit => .ok { panel := panel.commit }
  | .paste text => .ok { panel := panel.paste text }
  | .openPopup =>
    .ok { panel := panel.openPopup source, queries := [panel.field.editor.before] }
  | .move offset => .ok { panel := panel.move offset }
  | .accept => do
    let (panel, warnings) ← panel.accept
    return { panel, warnings }
  | .dismiss => .ok { panel := panel.dismiss }
  | .clear => .ok { panel := panel.clear }
  | .close => .ok { panel := panel.close }
  | .endInput => .ok { panel := panel.endInput }
  | .write texts => .ok { panel := texts.foldl write panel }
  | .writeLine text => .ok { panel := panel.writeLine text }
  | .setPrompt prompt => .ok { panel := panel.setPrompt prompt }
  | .build => .ok { panel := panel.say (.ready panel.trigger) }

/-- A panel and the threads that read its stream. -/
structure Bench where
  panel : Panel
  crew : Crew := []

namespace Bench

/-- A step on the panel, or an errand for one of the readers. -/
inductive Step where
  | onPanel (step : Panel.Step)
  | send (thread : ThreadId) (errand : Errand)
deriving DecidableEq, Repr

/-- A bench after a step, with the reports of the readers and what the step asked and noted. -/
structure Turn where
  bench : Bench
  reports : List (ThreadId × Report) := []
  queries : List Text := []
  warnings : List Completion.Warning := []

/-- The readers come to rest. -/
def settle (bench : Bench) : Bench × List (ThreadId × Report) :=
  let (stdin, crew, reports) := bench.crew.settle bench.panel.stdin
  (⟨{ bench.panel with stdin }, crew⟩, reports)

/-- One step, and a pause in which the readers come to rest. -/
def perform (source : Source) (bench : Bench) : Step → Except Fault Turn
  | .onPanel step => do
    let turn ← bench.panel.perform source step
    let (bench, reports) := settle { bench with panel := turn.panel }
    return { bench, reports, queries := turn.queries, warnings := turn.warnings }
  | .send thread errand =>
    let (bench, reports) := settle { bench with crew := bench.crew.send thread errand }
    .ok { bench, reports }

end Bench

end Panel

end LineConsole
