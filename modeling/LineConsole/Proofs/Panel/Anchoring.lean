import LineConsole.Proofs.Completion.Splicing
import LineConsole.Proofs.InputField.Requests
import LineConsole.Proofs.Panel.Reset
import LineConsole.Proofs.Panel.Safety

/-!
# The completion goes where it was asked for

A popup is opened for the text before the cursor, and is anchored where the cursor is. Until a
candidate is accepted the cursor may go elsewhere and come back, the selection may move, the prompt
may change and output may come. None of this touches the text or the anchor. So the candidate that
is selected in the end goes in at the place where it was asked for, and what it replaces is counted
from there.

## Main definitions

* `Panel.Step.LeavesText`, `Panel.Occasion.LeavesText` — what can happen under an open popup
* `Panel.OpenOver` — a popup over a text, with one of its candidates selected

## Main results

* `Panel.OpenOver.meet` — such an occasion leaves the popup over the text
* `Panel.OpenOver.accept` — what is accepted from it
* `Panel.completion_goes_to_anchor` — the selected candidate goes in at the anchor
-/

namespace LineConsole.Panel

variable {panel : Panel} {source : Source} {text query : Text} {anchor : Int}
  {candidates : List Completion}

/-- The step moves the cursor or the selection, or is not about the input at all. -/
def Step.LeavesText : Step → Prop
  | .moveTo _ | .move _ | .close | .endInput => True
  | .write _ | .writeLine _ | .setPrompt _ | .build => True
  | _ => False

/-- So is the occasion, if it is a step; whoever is at the stream leaves the input alone. -/
def Occasion.LeavesText : Occasion → Prop
  | .onPanel _ step => step.LeavesText
  | .onStream _ => True

/-- The input has the text, and a popup with the candidates is open over it, one of which is
selected. -/
structure OpenOver (panel : Panel) (text query : Text) (anchor : Int)
    (candidates : List Completion) : Prop where
  text : panel.field.editor.text = text
  pending : ∃ p : Nat, p < candidates.length ∧
    panel.field.pending = some { query, anchor, candidates, index := p }

/-- A popup that opens is for the text before the cursor and anchored at the cursor. -/
theorem pending_openPopup (panel : Panel) (source : Source) :
    let before := panel.field.editor.before
    (panel.openPopup source).field.pending = if source before = [] then none
      else some
        { query := before, anchor := panel.field.editor.cursor, candidates := source before } := by
  intro before
  rw [field_openPopup, InputField.triggerHere, InputField.pending_trigger]

/-- A popup that opens is over the text as it is, and its first candidate is selected. -/
theorem openOver_openPopup (opened : (panel.openPopup source).field.pending.isSome) :
    (panel.openPopup source).OpenOver panel.field.editor.text panel.field.editor.before
      panel.field.editor.cursor (source panel.field.editor.before) := by
  rw [pending_openPopup] at opened
  have some : source panel.field.editor.before ≠ [] := fun nothing => by simp [nothing] at opened
  constructor
  · rw [field_openPopup, InputField.triggerHere, InputField.trigger_editor]
  · refine ⟨0, List.length_pos_iff.mpr some, ?_⟩
    rw [pending_openPopup, if_neg some]
    rfl

/-- The candidate that is selected is put in at the anchor, if that is a position of the text. -/
theorem accept_of_anchored {request : Request} {c : Nat} {k : Completion}
    (pending : panel.field.pending = some request) (anchored : request.anchor = c)
    (inside : c ≤ panel.field.editor.text.length) (selected : request.selected = .ok k) :
    let text := panel.field.editor.text
    let start := c - min k.charsToRemove.toNat c
    panel.accept = .ok
      ({ panel with field :=
          { editor := ⟨text.take start ++ k.insertText ++ text.drop c,
              start + k.insertText.length⟩
            pending := none } },
        if c < k.charsToRemove then [.shortened k.label k.charsToRemove c] else []) := by
  have accepted := InputField.acceptSelected_of_ok pending selected
  rw [InputField.accept_of_anchored pending anchored inside] at accepted
  simp only [Panel.accept, pending, accepted]
  rfl

namespace OpenOver

/-- The selection moves no further than to the ends, so it stays on a candidate. -/
theorem move (h : panel.OpenOver text query anchor candidates) (offset : Int) :
    (panel.move offset).OpenOver text query anchor candidates := by
  obtain ⟨p, lt, pending⟩ := h.pending
  let moved : Int := max 0 (min ((candidates.length : Int) - 1) (p + offset))
  have named : moved = moved.toNat := by omega
  have lt' : moved.toNat < candidates.length := by omega
  simp only [Panel.move, pending]
  refine ⟨h.text, moved.toNat, lt', ?_⟩
  simp only [InputField.select, pending, Option.map_some, Request.select, ← named, moved]

/-- **An occasion that leaves the text** leaves the popup over it. -/
theorem meet (h : panel.OpenOver text query anchor candidates) {occasion : Occasion}
    (leaves : occasion.LeavesText) :
    (panel.meet occasion).OpenOver text query anchor candidates := by
  cases occasion with
  | onStream action => exact ⟨h.text, h.pending⟩
  | onPanel source step =>
    cases step with
    | moveTo | close | endInput | writeLine | setPrompt | build => exact ⟨h.text, h.pending⟩
    | write texts =>
      have same : panel.meet (.onPanel source (.write texts)) = panel.write texts.flatten :=
        foldl_write texts
      rw [same]
      exact ⟨h.text, h.pending⟩
    | move offset => exact h.move offset
    | type | place | commit | paste | openPopup | accept | dismiss | clear => exact leaves.elim

/-- So it is throughout a course. -/
theorem foldl_meet (h : panel.OpenOver text query anchor candidates) {between : List Occasion}
    (leaves : ∀ occasion ∈ between, occasion.LeavesText) :
    (between.foldl Panel.meet panel).OpenOver text query anchor candidates := by
  induction between generalizing panel with
  | nil => exact h
  | cons occasion between ih =>
    obtain ⟨first, rest⟩ := List.forall_mem_cons.mp leaves
    exact ih (h.meet first) rest

/-- **What is accepted from a popup** that is anchored at a position of the text is the candidate
that is selected, put in at the anchor. -/
theorem accept {c : Nat} (h : panel.OpenOver text query c candidates) (inside : c ≤ text.length)
    (listed : (candidates.length : Int) ≤ Request.indexLimit) :
    ∃ (p : Nat) (k : Completion),
      panel.field.pending = some { query, anchor := c, candidates, index := p } ∧
      candidates[p]? = some k ∧
      let start := c - min k.charsToRemove.toNat c
      panel.accept = .ok
        ({ panel with field :=
            { editor := ⟨text.take start ++ k.insertText ++ text.drop c,
                start + k.insertText.length⟩
              pending := none } },
          if c < k.charsToRemove then [.shortened k.label k.charsToRemove c] else []) := by
  obtain ⟨p, lt, pending⟩ := h.pending
  obtain rfl := h.text
  have small : (p : Int) < Request.indexLimit := by omega
  have selected : Request.selected ⟨query, c, candidates, p⟩ = .ok candidates[p] :=
    Request.selected_of_lt small rfl lt
  exact ⟨p, candidates[p], pending, List.getElem?_eq_getElem lt,
    accept_of_anchored pending rfl inside selected⟩

end OpenOver

/-- **The completion goes where it was asked for.** Let the cursor be at a position `c` of the text
when a popup is opened, and let the cursor and the selection move, the prompt change and texts be
written, in any order and with readers at the stream. Then a candidate `k` is selected, of those
that were offered for the text before `c`. To accept it takes away the characters in front of `c`
that it removes, none if it asks for less than none and no more than there are, and puts its text
there, with the cursor behind it. The popup is closed, and the only warning is given when there were
fewer characters than it asks for. -/
theorem completion_goes_to_anchor {c : Nat} {between : List Occasion}
    (cursor : panel.field.editor.cursor = c) (inside : c ≤ panel.field.editor.text.length)
    (listed : source.Listed) (opened : (panel.openPopup source).field.pending.isSome)
    (leaves : ∀ occasion ∈ between, occasion.LeavesText) :
    let text := panel.field.editor.text
    let candidates := source (text.take c)
    let chosen := between.foldl meet (panel.openPopup source)
    ∃ (p : Nat) (k : Completion),
      chosen.field.pending = some { query := text.take c, anchor := c, candidates, index := p } ∧
      candidates[p]? = some k ∧
      let r := min k.charsToRemove.toNat c
      chosen.accept = .ok
        ({ chosen with field :=
            { editor := ⟨text.take (c - r) ++ k.insertText ++ text.drop c,
                (c - r : Nat) + k.insertText.length⟩
              pending := none } },
          if c < k.charsToRemove then [.shortened k.label k.charsToRemove c] else []) := by
  intro text candidates chosen
  have before : panel.field.editor.before = text.take c := by
    rw [Editor.before, cursor, Text.upTo, Text.position_natCast inside]
  have popup := (openOver_openPopup opened).foldl_meet leaves
  rw [before, cursor] at popup
  exact popup.accept inside (listed _)

/-- The cursor goes to the end and back to the start, the selection beyond both ends of the popup
and then to the second candidate, which removes far more than there is. -/
theorem completion_goes_to_anchor_after_moves :
    let source : Source := fun _ =>
      [{ label := ['m'], insertText := ['i'], charsToRemove := -5 },
        { label := ['n'], insertText := ['j', 'k'], charsToRemove := 1000000000000000000000 }]
    let panel : Panel := { prompt := .missing, field := { editor := ⟨"foo bar".toList, 3⟩ } }
    let between : List Occasion :=
      [.onPanel source (.moveTo 9), .onPanel source (.move 5), .onStream (.append ['x']),
        .onPanel source (.setPrompt (.text ['#'])), .onPanel source (.move (-7)),
        .onPanel source (.write [['w']]), .onPanel source (.moveTo (-2)), .onPanel source (.move 1)]
    let chosen := between.foldl meet (panel.openPopup source)
    chosen.field.editor = ⟨"foo bar".toList, 0⟩ ∧
      chosen.accept = .ok
        ({ chosen with field := { editor := ⟨"jk bar".toList, 2⟩, pending := none } },
          [.shortened ['n'] 1000000000000000000000 3]) := by
  intro source panel between chosen
  have listed : source.Listed := fun _ => by decide
  have leaves : ∀ occasion ∈ between, occasion.LeavesText := by
    simp [between, Occasion.LeavesText, Step.LeavesText]
  have cursor : panel.field.editor.cursor = (3 : Nat) := rfl
  have inside : 3 ≤ panel.field.editor.text.length := by decide
  have opened : (panel.openPopup source).field.pending.isSome := by decide
  obtain ⟨p, k, pending, found, accepted⟩ :=
    completion_goes_to_anchor cursor inside listed opened leaves
  have moved : chosen.field.pending.map Request.index = some 1 := by decide
  have second : (p : Int) = 1 := by simpa [chosen, pending] using moved
  obtain rfl : p = 1 := by omega
  cases found
  exact ⟨by decide, accepted⟩

end LineConsole.Panel
