import LineConsole.InputField.Basic

/-!
# Where a completion goes

A completion is fitted to a text at an anchor. When the anchor is a position of the text, the splice
ends there and starts as many characters before it as the completion removes: none if it asks for
less than none, and no more than there are. Nothing is cut off the text but these characters, so a
second splice that puts them back makes the text what it was.

## Main definitions

* `Text.between` — the part of a text between two offsets
* `Splice.inverse` — the splice that takes another one back

## Main results

* `Completion.fit_of_le`, `Completion.fit_of_outside` — the splice of a completion at a position of
  the text, and elsewhere
* `Splice.apply_of_le`, `Splice.apply_inverse` — what becomes of the text, and that it can be taken
  back
* `InputField.accept_of_anchored` — an input field that accepts a completion
* `Completion.splice_law` — every completion at every anchor
-/

namespace LineConsole

open Text

/-- A completion at a position of the text. It is never abandoned there, and a warning is given
exactly when it asks for more characters than there are before the anchor. -/
theorem Completion.fit_of_le (completion : Completion) {text : Text} {anchor : Nat}
    (inside : anchor ≤ text.length) :
    completion.fit text anchor =
      (some ⟨(anchor - min completion.charsToRemove.toNat anchor : Nat), anchor,
          completion.insertText⟩,
        if anchor < completion.charsToRemove then
          [.shortened completion.label completion.charsToRemove anchor] else []) := by
  have within : ¬((anchor : Int) < 0 ∨ (text.length : Int) < anchor) := by omega
  simp only [fit, within, if_false]
  -- It is compared as an integer: a negative number counts as none, a large one as all there are.
  by_cases beyond : (anchor : Int) < completion.charsToRemove
  · have wanted : max 0 completion.charsToRemove = completion.charsToRemove := by omega
    have all : anchor - min completion.charsToRemove.toNat anchor = 0 := by omega
    simp [beyond, wanted, all]
  · have present : ¬ (anchor : Int) < max 0 completion.charsToRemove := by omega
    have start : (anchor : Int) - max 0 completion.charsToRemove =
        (anchor - min completion.charsToRemove.toNat anchor : Nat) := by omega
    simp only [beyond, present, start, if_false]

/-- A completion at an anchor that is not a position of the text is abandoned. -/
theorem Completion.fit_of_outside (completion : Completion) {text : Text} {anchor : Int}
    (outside : ¬(0 ≤ anchor ∧ anchor ≤ text.length)) :
    completion.fit text anchor = (none, [.abandoned completion.label anchor text.length]) :=
  if_pos (by omega)

/-- What is noted is noted as a warning. -/
@[simp] theorem Completion.Warning.level_entry (warning : Warning) :
    warning.entry.level = .warning := by
  cases warning <;> rfl

/-- A splice between two positions of the text. -/
theorem Splice.apply_of_le {content : Text} {start stop : Nat} (ordered : start ≤ stop)
    (inside : stop ≤ content.length) (text : Text) :
    apply ⟨start, stop, text⟩ content = content.take start ++ text ++ content.drop stop := by
  simp only [apply, upTo, since, position_natCast (Nat.le_trans ordered inside),
    position_natCast inside]

/-- A field that accepts a completion at a position of its text. -/
theorem InputField.accept_of_anchored {field : InputField} {request : Request} {anchor : Nat}
    (pending : field.pending = some request) (anchored : request.anchor = anchor)
    (inside : anchor ≤ field.editor.text.length) (completion : Completion) :
    let text := field.editor.text
    let start := anchor - min completion.charsToRemove.toNat anchor
    field.accept completion =
      { field :=
          { editor := ⟨text.take start ++ completion.insertText ++ text.drop anchor,
              start + completion.insertText.length⟩
            pending := none }
        splice := some ⟨start, anchor, completion.insertText⟩
        warnings := if anchor < completion.charsToRemove then
          [.shortened completion.label completion.charsToRemove anchor] else [] } := by
  intro text start
  have ordered : start ≤ anchor := Nat.sub_le _ _
  simp only [accept, pending, anchored, completion.fit_of_le inside,
    Splice.apply_of_le ordered inside, text, start]

/-! ## Taking back -/

/-- The part of a text between two offsets; nothing if the second does not come after the first. -/
def Text.between (t : Text) (i j : Int) : Text := (t.take (t.position j)).drop (t.position i)

/-- The splice that takes another one back: it puts what was replaced in the place of what was put
in. -/
def Splice.inverse (splice : Splice) (content : Text) : Splice where
  start := splice.start
  stop := splice.start + splice.text.length
  text := content.between splice.start splice.stop

/-- A splice between two positions of the text can be taken back. -/
theorem Splice.apply_inverse {splice : Splice} {content : Text} {start stop : Nat}
    (starts : splice.start = start) (stops : splice.stop = stop) (ordered : start ≤ stop)
    (inside : stop ≤ content.length) :
    (splice.inverse content).apply (splice.apply content) = content := by
  obtain ⟨_, _, text⟩ := splice
  obtain rfl := starts
  obtain rfl := stops
  have front : (content.take start).length = start :=
    List.length_take_of_le (Nat.le_trans ordered inside)
  have replaced : content.between start stop = (content.take stop).drop start := by
    rw [between, position_natCast inside, position_natCast (Nat.le_trans ordered inside)]
  have ends : (start : Int) + text.length = (start + text.length : Nat) := by omega
  have before : (content.take start ++ text ++ content.drop stop).take start =
      content.take start := by
    rw [List.append_assoc, List.take_left' front]
  have behind : (content.take start ++ text ++ content.drop stop).drop (start + text.length) =
      content.drop stop :=
    List.drop_left' (by rw [List.length_append, front])
  rw [apply_of_le ordered inside, inverse, replaced, ends, apply_of_le (by omega) (by simp; omega),
    before, behind]
  calc content.take start ++ (content.take stop).drop start ++ content.drop stop
      = (content.take stop).take start ++ (content.take stop).drop start ++ content.drop stop := by
        rw [List.take_take, Nat.min_eq_left ordered]
    _ = content.take stop ++ content.drop stop := by rw [List.take_append_drop]
    _ = content := List.take_append_drop _ _

/-- **The splice law.** A completion is abandoned exactly where its anchor is not a position of the
text. Anywhere else its splice lies in the text and ends at the anchor, and it is as long as the
completion asks for, but no less than nothing and no more than what precedes the anchor. The text
keeps what is before the splice and what is behind the anchor, with what is inserted in between, and
the inverse splice makes it what it was. One warning is given when the completion is abandoned or
asks for more than precedes the anchor, and none otherwise. -/
theorem Completion.splice_law (completion : Completion) (text : Text) (anchor : Int) :
    let fitted := (completion.fit text anchor).1
    let noted := (completion.fit text anchor).2
    (fitted = none ↔ ¬(0 ≤ anchor ∧ anchor ≤ text.length)) ∧
      (∀ splice, fitted = some splice →
        0 ≤ splice.start ∧ splice.start ≤ splice.stop ∧ splice.stop = anchor ∧
        anchor ≤ text.length ∧
        splice.stop - splice.start = min (max 0 completion.charsToRemove) anchor ∧
        splice.text = completion.insertText ∧
        splice.apply text =
          text.take splice.start.toNat ++ completion.insertText ++ text.drop anchor.toNat ∧
        (splice.inverse text).apply (splice.apply text) = text) ∧
      noted.map (fun warning => warning.entry.level) =
        if fitted = none ∨ anchor < completion.charsToRemove then [.warning] else [] := by
  intro fitted noted
  by_cases inside : 0 ≤ anchor ∧ anchor ≤ text.length
  · obtain ⟨c, rfl⟩ := Int.eq_ofNat_of_zero_le inside.1
    have le : c ≤ text.length := by omega
    have fit := completion.fit_of_le le
    have ordered : c - min completion.charsToRemove.toNat c ≤ c := Nat.sub_le _ _
    refine ⟨by simp [fitted, fit, le], ?_, ?_⟩
    · intro splice found
      obtain rfl : _ = splice := Option.some.inj ((congrArg Prod.fst fit).symm.trans found)
      refine ⟨by simp, by simp, rfl, inside.2, by dsimp only; omega, rfl, ?_, ?_⟩
      · rw [Splice.apply_of_le ordered le]
        rfl
      · exact Splice.apply_inverse rfl rfl ordered le
    · simp only [noted, fitted, fit, reduceCtorEq, false_or]
      split <;> simp
  · have abandoned := completion.fit_of_outside inside
    simp [fitted, noted, abandoned, inside]

/-- What is asked for is far more than there is, so the splice takes all that precedes the anchor,
and its inverse brings it back. -/
theorem Completion.splice_law_of_oversized :
    let completion : Completion :=
      { label := ['t'], insertText := "xyz".toList, charsToRemove := 1000000000000000000000 }
    let text := "ab cd".toList
    ∃ splice, (completion.fit text 2).1 = some splice ∧ splice.stop - splice.start = 2 ∧
      splice.apply text = "xyz cd".toList ∧ (splice.inverse text).apply "xyz cd".toList = text ∧
      (completion.fit text 2).2.map (fun warning => warning.entry.level) = [.warning] := by
  intro completion text
  obtain ⟨-, fits, noted⟩ := completion.splice_law text 2
  have found : (completion.fit text 2).1 = some ⟨0, 2, "xyz".toList⟩ := by decide
  obtain ⟨-, -, -, -, removed, -, applied, undone⟩ := fits _ found
  rw [applied] at undone
  exact ⟨_, found, removed, applied, undone, noted.trans (if_pos (.inr (by decide)))⟩

end LineConsole
