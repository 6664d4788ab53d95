import LineConsole.Text.Basic

/-!
# Offsets into a text

An offset is an integer that names a position between the characters of a text: from the start
when it is not negative, from the end when it is. An offset that falls outside the text means the
end it falls beyond, so every offset names a position and cutting at one cannot fail.

## Main definitions

* `Text.position` — the position an offset names in a text
* `Text.upTo`, `Text.since` — the parts of a text before and after an offset

## Main results

* `position_natCast` — offsets in range are positions
* `upTo_append_since` — an offset cuts a text in two without loss
-/

namespace LineConsole.Text

/-- The position in `t` that the offset `i` names. -/
def position (t : Text) (i : Int) : Nat :=
  if i < 0 then (t.length + i).toNat else min i.toNat t.length

/-- The part of a text before an offset. -/
def upTo (t : Text) (i : Int) : Text := t.take (t.position i)

/-- The part of a text from an offset on. -/
def since (t : Text) (i : Int) : Text := t.drop (t.position i)

theorem position_natCast {t : Text} {n : Nat} (h : n ≤ t.length) : t.position n = n := by
  unfold position
  split <;> omega

theorem upTo_append_since (t : Text) (i : Int) : t.upTo i ++ t.since i = t :=
  List.take_append_drop _ _

end LineConsole.Text
