import LineConsole.Text.Basic

/-!
# Blank characters

A blank is a character of Unicode bidirectional class `WS`, `B` or `S`, or of category `Zs`. The
same notion decides how a line is stripped, where its words are and whether one of them reaches to
its end.

## Main definitions

* `Text.isBlank` — the blank characters
* `Text.strip` — a text without the blanks at its two ends
* `Text.words` — what stands between the blanks of a text
* `Text.trailingWord` — the word that a text ends with
-/

namespace LineConsole.Text

/-- The code points of the blanks. -/
def blankRanges : List (Nat × Nat) :=
  [(0x9, 0xD), (0x1C, 0x20), (0x85, 0x85), (0xA0, 0xA0), (0x1680, 0x1680), (0x2000, 0x200A),
    (0x2028, 0x2029), (0x202F, 0x202F), (0x205F, 0x205F), (0x3000, 0x3000)]

/-- Whether a character is a blank. -/
def isBlank (c : Char) : Bool := inRanges blankRanges c

/-- A text without the blanks it begins with. -/
def stripStart (t : Text) : Text := t.dropWhile isBlank

/-- A text without the blanks it ends with. -/
def stripEnd (t : Text) : Text := (t.reverse.dropWhile isBlank).reverse

/-- A text without the blanks at its two ends. -/
def strip (t : Text) : Text := stripEnd (stripStart t)

/-- The words of a text: what stands between its blanks, where anything does. -/
def words (t : Text) : List Text := (t.splitOnP isBlank).filter fun word => word ≠ []

/-- The word that a text ends with; none at the start of a text or behind a blank. -/
def trailingWord (t : Text) : Text :=
  if t.getLast?.all isBlank then [] else t.words.getLastD []

@[simp] theorem trailingWord_nil : trailingWord [] = [] := rfl

@[simp] theorem strip_nil : strip [] = [] := rfl

end LineConsole.Text
