import Mathlib.Data.List.Induction
import Mathlib.Data.List.Infix
import LineConsole.Text.Blank

/-!
# The word that a text ends with

A text falls into a front that is empty or ends with a blank, and a word without blanks behind it.
The word is the last of the words of the text, unless it is empty, which is when the text is empty
or ends with a blank itself. So the two cases that `trailingWord` tells apart come to one: it is the
longest end of the text that holds no blank.

## Main definitions

* `Text.BlankFree`, `Text.EndsBlank` — what a word and the front before it are
* `Text.IsTrailingWord` — the longest blank-free end of a text

## Main results

* `exists_front` — a text is such a front and such a word
* `trailingWord_append` — the trailing word is the one behind the front
* `isTrailingWord_iff` — it is the longest blank-free end of its text, and the only one
-/

namespace LineConsole.Text

variable {t front word : Text} {c : Char}

/-- The text holds no blank. -/
def BlankFree (t : Text) : Prop := ∀ c ∈ t, isBlank c = false

/-- The text is empty or ends with a blank. -/
def EndsBlank (t : Text) : Prop := ∀ c ∈ t.getLast?, isBlank c = true

/-! ## Words -/

/-- A blank stands between two words. -/
theorem words_append_blank (blank : isBlank c) (front rest : Text) :
    words (front ++ c :: rest) = words front ++ words rest := by
  rw [words, List.splitOnP_append_cons front rest blank, List.filter_append]
  rfl

/-- What holds no blank is one word. -/
theorem words_of_blankFree (nonempty : word ≠ []) (free : word.BlankFree) :
    words word = [word] := by
  rw [words, List.splitOnP_eq_singleton free]
  simp [nonempty]

/-- What holds no blank and has a blank before it, or nothing, is the last word. -/
theorem getLast?_words (ends : front.EndsBlank) (nonempty : word ≠ []) (free : word.BlankFree) :
    (words (front ++ word)).getLast? = some word := by
  rcases List.eq_nil_or_concat front with rfl | ⟨start, c, rfl⟩
  · rw [List.nil_append, words_of_blankFree nonempty free]
    rfl
  · have blank : isBlank c := ends c (by simp)
    rw [List.concat_eq_append, List.append_assoc, List.singleton_append,
      words_append_blank blank, words_of_blankFree nonempty free, List.getLast?_concat]

/-! ## The trailing word -/

/-- A text is a front that is empty or ends with a blank, and a word behind it. -/
theorem exists_front (t : Text) : ∃ front word, EndsBlank front ∧ BlankFree word ∧
    t = front ++ word := by
  induction t using List.reverseRecOn with
  | nil => exact ⟨[], [], by simp [EndsBlank], by simp [BlankFree], rfl⟩
  | append_singleton t c ih =>
    by_cases blank : isBlank c
    · exact ⟨t ++ [c], [], by simp [EndsBlank, blank], by simp [BlankFree], by simp⟩
    · obtain ⟨front, word, ends, free, rfl⟩ := ih
      refine ⟨front, word ++ [c], ends, fun d mem => ?_, List.append_assoc ..⟩
      rcases List.mem_append.mp mem with mem | mem
      · exact free d mem
      · rw [List.mem_singleton.mp mem]
        exact Bool.eq_false_iff.mpr blank

/-- The trailing word is the word behind the front. -/
theorem trailingWord_append (ends : front.EndsBlank) (free : word.BlankFree) :
    trailingWord (front ++ word) = word := by
  rcases List.eq_nil_or_concat word with rfl | ⟨start, c, rfl⟩
  · have blank : front.getLast?.all isBlank := Option.all_eq_true _ _ |>.mpr ends
    simp [trailingWord, blank]
  · have inner : isBlank c = false := free c (by simp)
    have last : (front ++ start.concat c).getLast?.all isBlank = false := by simp [inner]
    rw [trailingWord, last, List.getLastD_eq_getLast?,
      getLast?_words ends (by simp) free]
    rfl

/-- The word is the longest end of the text that holds no blank. -/
structure IsTrailingWord (t word : Text) : Prop where
  suffix : word <:+ t
  blankFree : word.BlankFree
  longest : ∀ other : Text, other <:+ t → other.BlankFree → other.length ≤ word.length

/-- No end of the text that holds no blank reaches into the front. -/
theorem isTrailingWord_append (ends : front.EndsBlank) (free : word.BlankFree) :
    IsTrailingWord (front ++ word) word := by
  refine ⟨List.suffix_append _ _, free, fun other suffix otherFree => ?_⟩
  by_contra longer
  obtain ⟨reach, rfl⟩ := List.suffix_of_suffix_length_le (List.suffix_append front word) suffix
    (by omega)
  have inFront : reach <:+ front := List.suffix_append_self_iff.mp suffix
  rcases List.eq_nil_or_concat reach with rfl | ⟨start, c, rfl⟩
  · exact longer (Nat.le_refl _)
  · obtain ⟨before, rfl⟩ := inFront
    have blank : isBlank c = true := ends c (by simp)
    have inner : isBlank c = false := otherFree c (by simp)
    exact Bool.false_ne_true (inner.symm.trans blank)

theorem isTrailingWord_trailingWord (t : Text) : t.IsTrailingWord t.trailingWord := by
  obtain ⟨front, word, ends, free, rfl⟩ := exists_front t
  rw [trailingWord_append ends free]
  exact isTrailingWord_append ends free

/-- **The trailing word** is the longest end of its text that holds no blank, and the only one. -/
theorem isTrailingWord_iff : t.IsTrailingWord word ↔ word = t.trailingWord := by
  constructor
  · intro h
    have trailing := isTrailingWord_trailingWord t
    have le := trailing.longest word h.suffix h.blankFree
    have ge := h.longest t.trailingWord trailing.suffix trailing.blankFree
    exact (List.suffix_of_suffix_length_le h.suffix trailing.suffix le).eq_of_length (by omega)
  · rintro rfl
    exact isTrailingWord_trailingWord t

end LineConsole.Text
