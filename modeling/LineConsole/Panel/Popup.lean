import LineConsole.Panel.Basic

/-!
# The popup of a panel

The popup lists the candidates of the pending request, one to a row. The selected one carries a
marker and a style of its own, and a description follows its candidate.

## Main definitions

* `Popup.Fragment` — a text in a style
* `Popup.row` — the fragments of one candidate
* `Panel.popup` — the fragments of the popup
-/

namespace LineConsole

namespace Popup

/-- The styles of the popup. -/
inductive Style where
  | plain
  | selected
  | description
  | none
deriving DecidableEq, Repr

/-- The name of a style. -/
def Style.name : Style → String
  | plain => "class:completions"
  | selected => "class:completions.selected"
  | description => "class:completions.meta"
  | none => ""

/-- A text in a style. -/
structure Fragment where
  style : Style
  text : Text
deriving DecidableEq, Repr

/-- What stands between two rows. -/
def rowBreak : Fragment := ⟨.none, ['\n']⟩

/-- A candidate as it is listed: its marker and label. -/
def candidate (isSelected : Bool) (completion : Completion) : Fragment :=
  if isSelected then ⟨.selected, "▶ ".toList ++ completion.label⟩
  else ⟨.plain, "  ".toList ++ completion.label⟩

/-- A row: the candidate, and its description if it has one. -/
def row (isSelected : Bool) (completion : Completion) : List Fragment :=
  candidate isSelected completion ::
    if completion.description = [] then []
    else [⟨.description, "  ".toList ++ completion.description⟩]

/-- The rows of candidates that are numbered from `first`. -/
def rows (selection : Int) (first : Nat) : List Completion → List (List Fragment)
  | [] => []
  | completion :: others =>
    row ((first : Int) = selection) completion :: rows selection (first + 1) others

/-- The popup of a request. -/
def render (request : Request) : List Fragment :=
  [rowBreak].intercalate (rows request.index 0 request.candidates)

end Popup

/-- The popup of a panel: nothing unless a request is pending. -/
def Panel.popup (panel : Panel) : List Popup.Fragment :=
  match panel.field.pending with
  | none => []
  | some request => Popup.render request

end LineConsole
