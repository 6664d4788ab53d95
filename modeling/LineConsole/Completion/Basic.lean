import LineConsole.Log
import LineConsole.Text.Quoted
import LineConsole.Text.Slice

/-!
# Completions and splices

A completion offers text to insert and says how many characters before the anchor it replaces.
Fitting it to a text gives a splice: the span that the new text takes the place of. A completion
whose anchor is not a position of the text is abandoned; one that would remove more than precedes
the anchor removes what is there. Either leaves a warning.

## Main definitions

* `Completion` — an offered insertion
* `Splice`, `Splice.apply` — a span and its replacement
* `Completion.fit` — the splice of a completion at an anchor, with the warnings it gives
* `Completion.Warning` — what is noted when a completion does not fit

## Main results

* `fit_isSome_iff` — a completion fits exactly where its anchor is a position of the text
-/

namespace LineConsole

/-- An insertion offered by an interpreter. -/
structure Completion where
  /-- What is shown for it. -/
  label : Text
  insertText : Text
  /-- How many characters before the anchor the inserted text replaces. -/
  charsToRemove : Int := 0
  description : Text := []
deriving DecidableEq, Repr

/-- The replacement of a span of a text, given by its two offsets. -/
structure Splice where
  start : Int
  stop : Int
  text : Text
deriving DecidableEq, Repr

/-- The content with the span replaced. -/
def Splice.apply (splice : Splice) (content : Text) : Text :=
  content.upTo splice.start ++ splice.text ++ content.since splice.stop

namespace Completion

/-- What is noted about a completion that does not fit. -/
inductive Warning where
  /-- The anchor is not a position of the text. -/
  | abandoned (label : Text) (anchor : Int) (length : Nat)
  /-- More characters were to be removed than precede the anchor. -/
  | shortened (label : Text) (wanted : Int) (present : Int)
deriving DecidableEq, Repr

/-- The log record of a warning. -/
def Warning.entry : Warning → Log.Entry
  | abandoned label anchor length =>
    let name := String.ofList label.quoted
    ⟨.warning, s!"Abandoning completion {name}: anchor {anchor} outside text of length {length}"⟩
  | shortened label wanted present =>
    let name := String.ofList label.quoted
    ⟨.warning,
      s!"Completion {name} removes {wanted} characters but only {present} precede the anchor"⟩

/-- The splice that puts a completion into a text at an anchor, if the anchor is a position of the
text, and the warnings on the way. -/
def fit (completion : Completion) (text : Text) (anchor : Int) : Option Splice × List Warning :=
  if anchor < 0 ∨ text.length < anchor then
    (none, [.abandoned completion.label anchor text.length])
  else
    let wanted := max 0 completion.charsToRemove
    if anchor < wanted then
      (some ⟨0, anchor, completion.insertText⟩, [.shortened completion.label wanted anchor])
    else (some ⟨anchor - wanted, anchor, completion.insertText⟩, [])

/-- A completion fits exactly where its anchor is a position of the text. -/
theorem fit_isSome_iff {completion : Completion} {text : Text} {anchor : Int} :
    (completion.fit text anchor).1.isSome ↔ 0 ≤ anchor ∧ anchor ≤ text.length := by
  unfold fit
  split
  · simp; omega
  · dsimp only
    split <;> simp <;> omega

end Completion

end LineConsole
