/-!
# Text

The console moves characters: what is typed or pasted, what waits in a stream, what a read
returns, what is shown. All of it is a list of code points, so that lengths, offsets and cursor
positions count code points and every operation on text is an operation on lists.

## Main definitions

* `LineConsole.Text` — a sequence of code points
* `Text.inRanges` — membership of a character in a table of code point ranges
-/

namespace LineConsole

/-- A text is its sequence of code points. -/
abbrev Text := List Char

namespace Text

/-- Whether the code point of a character lies in one of the closed ranges of a table. -/
def inRanges (ranges : List (Nat × Nat)) (c : Char) : Bool :=
  ranges.any fun range => range.1 ≤ c.toNat && c.toNat ≤ range.2

end Text

end LineConsole
