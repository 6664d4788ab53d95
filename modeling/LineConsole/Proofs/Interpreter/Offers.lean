import Mathlib.Data.Char
import Mathlib.Data.List.Lex
import Mathlib.Data.List.Sort
import LineConsole.Interpreter.Echo
import LineConsole.Proofs.Text.Words

/-!
# What the echo interpreter offers

A vocabulary is kept in ascending order with each name once, whatever the order it was given in and
however often a name was repeated. What is offered for a text are the names that go on from its
trailing word, in the order of the vocabulary. So the offers depend on nothing but the trailing word
and on which names there are.

## Main results

* `Vocabulary.mem_ofList`, `Vocabulary.pairwise_ofList`, `Vocabulary.ofList_congr` — the names that
  are kept, and their order
* `Echo.mem_offers`, `Echo.pairwise_offers` — what is offered, and in which order
* `Echo.completions_canonical` — the completions of a text
-/

namespace LineConsole

/-! ## Vocabularies -/

namespace Vocabulary

variable {name other : Text} {names : List Text}

@[simp] theorem mem_insert : other ∈ insert name names ↔ other = name ∨ other ∈ names := by
  fun_induction insert name names with
  | case1 => simp
  | case2 => simp
  | case3 => simp
  | case4 first others _ _ ih => simp [ih, or_left_comm]

/-- A name that is put in its place leaves the others in order. -/
theorem pairwise_insert (ascending : names.Pairwise (· < ·)) :
    (insert name names).Pairwise (· < ·) := by
  fun_induction insert name names with
  | case1 => exact List.pairwise_singleton _ _
  | case2 first others less =>
    have greater := (List.pairwise_cons.mp ascending).1
    exact List.pairwise_cons.mpr ⟨List.forall_mem_cons.mpr
      ⟨less, fun other mem => lt_trans less (greater other mem)⟩, ascending⟩
  | case3 => exact ascending
  | case4 first others notLess ne ih =>
    obtain ⟨greater, rest⟩ := List.pairwise_cons.mp ascending
    have behind : first < name := lt_of_le_of_ne (not_lt.mp notLess) (Ne.symm ne)
    refine List.pairwise_cons.mpr ⟨fun other mem => ?_, ih rest⟩
    rcases mem_insert.mp mem with rfl | mem
    · exact behind
    · exact greater other mem

/-- Every name is kept, and no other. -/
@[simp] theorem mem_ofList : name ∈ ofList names ↔ name ∈ names := by
  induction names with
  | nil => rfl
  | cons first others ih =>
    rw [ofList, List.foldr_cons, mem_insert, List.mem_cons]
    exact or_congr_right ih

/-- The names are in ascending order, each once. -/
theorem pairwise_ofList (names : List Text) : (ofList names).Pairwise (· < ·) := by
  induction names with
  | nil => exact List.Pairwise.nil
  | cons first others ih => exact pairwise_insert ih

/-- Neither the order nor the repetition of names makes a difference. -/
theorem ofList_congr {others : List Text} (same : ∀ name, name ∈ others ↔ name ∈ names) :
    ofList others = ofList names :=
  (pairwise_ofList others).sortedLT.eq_of_mem_iff (pairwise_ofList names).sortedLT
    fun name => by rw [mem_ofList, mem_ofList, same]

end Vocabulary

/-! ## Offers -/

namespace Echo

variable {names : List Text} {typed : Text} {k : Completion}

/-- What is offered are the names that go on from the trailing word. -/
theorem mem_offers : k ∈ offers names typed ↔ ∃ name ∈ names, typed.trailingWord <+: name ∧
    name ≠ typed.trailingWord ∧ offer typed.trailingWord name = k := by
  simp [offers, and_assoc]

/-- They are offered in the order of the names. -/
theorem pairwise_offers (ascending : names.Pairwise (· < ·)) :
    (offers names typed).Pairwise fun k l => k.label < l.label :=
  List.pairwise_map.mpr (ascending.filter _)

/-- A name is offered once, if it goes on from the trailing word, or not at all. -/
theorem count_label_offers (ascending : names.Pairwise (· < ·)) (name : Text) :
    ((offers names typed).map Completion.label).count name =
      if name ∈ names ∧ typed.trailingWord <+: name ∧ name ≠ typed.trailingWord then 1 else 0 := by
  have different : ((offers names typed).map Completion.label).Nodup :=
    List.pairwise_map.mpr ((pairwise_offers ascending).imp fun less => ne_of_lt less)
  have listed : name ∈ (offers names typed).map Completion.label ↔
      name ∈ names ∧ typed.trailingWord <+: name ∧ name ≠ typed.trailingWord := by
    simp only [List.mem_map, mem_offers]
    constructor
    · rintro ⟨_, ⟨_, mem, goesOn, ne, rfl⟩, rfl⟩
      exact ⟨mem, goesOn, ne⟩
    · rintro ⟨mem, goesOn, ne⟩
      exact ⟨_, ⟨name, mem, goesOn, ne, rfl⟩, rfl⟩
  simp only [different.count, listed]

/-- **The completions of a text** belong to its trailing word, which is the longest end that holds
no blank. They are in strictly ascending order of the code points of their names. There is one for
each name of the vocabulary of which the word is a proper beginning, and none for any other name;
each inserts its name and removes as many characters as the word has. The order of the vocabulary
and the repetition of names make no difference. -/
theorem completions_canonical (vocabulary : List Text) (title typed : Text) :
    let offered := (interpreter vocabulary title).completions typed
    ∃ word, typed.IsTrailingWord word ∧
      offered.Pairwise (fun k l => k.label.map Char.toNat < l.label.map Char.toNat) ∧
      (∀ name, (offered.map Completion.label).count name =
        if name ∈ vocabulary ∧ word <+: name ∧ name ≠ word then 1 else 0) ∧
      (∀ k ∈ offered, k.insertText = k.label ∧ k.charsToRemove = word.length) ∧
      ∀ others : List Text, (∀ name, name ∈ others ↔ name ∈ vocabulary) →
        (interpreter others title).completions typed = offered := by
  intro offered
  have ascending := Vocabulary.pairwise_ofList vocabulary
  refine ⟨typed.trailingWord, Text.isTrailingWord_trailingWord typed, ?_, fun name => ?_, ?_, ?_⟩
  · -- The order of characters is that of their code points.
    exact (pairwise_offers ascending).imp (List.map_lt (f := Char.toNat) fun _ _ less => less)
  · exact (count_label_offers ascending name).trans (by simp only [Vocabulary.mem_ofList])
  · intro k mem
    obtain ⟨name, -, -, -, rfl⟩ := mem_offers.mp mem
    exact ⟨rfl, rfl⟩
  · intro others same
    exact congrArg (offers · typed) (Vocabulary.ofList_congr same)

/-- A name that is the word itself is not offered, and the empty name never is. A name may hold a
blank, and of two names the one with the lesser code point comes first. -/
theorem completions_canonical_of_repetitions :
    let vocabulary := ["a\u3000b".toList, "ab".toList, [], "a".toList, "b".toList, "ab".toList]
    let others := [[], "b".toList, "b".toList, "a".toList, "ab".toList, "a\u3000b".toList]
    let typed := "b\u2003a".toList
    (interpreter others).completions typed = (interpreter vocabulary).completions typed ∧
      ((interpreter vocabulary).completions typed).map Completion.label =
        ["ab".toList, "a\u3000b".toList] ∧
      ∀ k ∈ (interpreter vocabulary).completions typed, k.insertText = k.label ∧
        k.charsToRemove = 1 := by
  intro vocabulary others typed
  obtain ⟨word, trailing, -, -, puts, same⟩ :=
    completions_canonical vocabulary defaultTitle typed
  obtain rfl := Text.isTrailingWord_iff.mp trailing
  refine ⟨same others fun name => ?_, by decide, puts⟩
  simp only [vocabulary, others, List.mem_cons, List.not_mem_nil, or_false]
  tauto

end Echo

end LineConsole
