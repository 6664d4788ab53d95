import LineConsole.Proofs.Interpreter.Offers
import LineConsole.Proofs.Panel.Anchoring

/-!
# A name goes on from what was typed

The echo interpreter offers the names that begin with the word before the cursor, and to accept one
takes that word away and puts the name there. The word is an end of the text before the cursor, so
there is enough to take away; and the name begins with it, so it comes back at once. What remains is
that the rest of the name is put in at the cursor.

## Main results

* `Panel.pending_foldl_down` — every candidate of a popup can be selected
* `Panel.OpenOver.accept_name` — what is accepted from a popup of names
* `Panel.name_extends_typed` — the rest of a name goes in at the cursor
-/

namespace LineConsole

/-- What stands before a cursor that is between two texts. -/
theorem Editor.before_of_append (front back : Text) :
    Editor.before ⟨front ++ back, front.length⟩ = front := by
  rw [before, Text.upTo, Text.position_natCast (by simp), List.take_left]

namespace Panel

variable {panel : Panel} {text query : Text} {anchor : Int} {candidates : List Completion}
  {request : Request} {k : Completion}

/-! ## Moving the selection -/

/-- Without a popup there is nothing to move. -/
theorem foldl_move_of_no_request (nothing : panel.field.pending = none) (moves : List Int) :
    moves.foldl move panel = panel := by
  induction moves with
  | nil => rfl
  | cons offset moves ih => rw [List.foldl_cons, move_of_no_request nothing, ih]

/-- A popup stays open over the text while the selection moves. -/
theorem OpenOver.foldl_move (h : panel.OpenOver text query anchor candidates) (moves : List Int) :
    (moves.foldl Panel.move panel).OpenOver text query anchor candidates := by
  induction moves generalizing panel with
  | nil => exact h
  | cons offset moves ih => exact ih (h.move offset)

/-- A candidate is reached by as many steps down as there are candidates before it. -/
theorem pending_foldl_down {p : Nat} (lt : p < candidates.length)
    (first : panel.field.pending = some { query, anchor, candidates }) :
    ((List.replicate p 1).foldl move panel).field.pending =
      some { query, anchor, candidates, index := p } := by
  induction p with
  | zero => exact first
  | succ p ih =>
    have reached := ih (Nat.lt_of_succ_lt lt)
    have next : max 0 (min ((candidates.length : Int) - 1) (p + 1)) = (p + 1 : Nat) := by omega
    rw [List.replicate_succ', List.foldl_append, List.foldl_cons, List.foldl_nil, move, reached]
    simp only [InputField.select, reached, Option.map_some, Request.select, next]

/-! ## Accepting a name -/

/-- A name that begins with the word before the anchor takes the place of the word, so the rest of
the name is put in. -/
theorem accept_offer {front word rest after : Text}
    (text : panel.field.editor.text = front ++ word ++ after)
    (pending : panel.field.pending = some request)
    (anchored : request.anchor = (front ++ word).length)
    (selected : request.selected = .ok (Echo.offer word (word ++ rest))) :
    let typed := front ++ word ++ rest
    panel.accept =
      .ok ({ panel with field := { editor := ⟨typed ++ after, typed.length⟩ } }, []) := by
  intro typed
  let k := Echo.offer word (word ++ rest)
  have accepted := accept_of_anchored pending anchored (by simp [text]) selected
  have start : (front ++ word).length - min k.charsToRemove.toNat (front ++ word).length =
      front.length := by
    simp [k, Echo.offer]
  have enough : ¬ ((front ++ word).length : Int) < k.charsToRemove := by
    simp only [k, Echo.offer, List.length_append]
    omega
  simp only [start, enough, text, if_false, k] at accepted
  rw [accepted]
  simp [Echo.offer, typed]

/-- **What is accepted from a popup of names** begins with the trailing word of what was typed, and
the rest of it is put in. -/
theorem OpenOver.accept_name {names : List Text} {before after : Text}
    (h : panel.OpenOver (before ++ after) before before.length (Echo.offers names before))
    (pending : panel.field.pending = some request) (selected : request.selected = .ok k) :
    let typed := before ++ k.label.drop before.trailingWord.length
    k ∈ Echo.offers names before ∧ k.label ∈ names ∧ k.label <:+ typed ∧
      panel.accept =
        .ok ({ panel with field := { editor := ⟨typed ++ after, typed.length⟩ } }, []) := by
  obtain ⟨p, -, named⟩ := h.pending
  obtain rfl := Option.some.inj (pending.symm.trans named)
  have offered := Request.mem_of_selected selected
  obtain ⟨name, known, ⟨rest, rfl⟩, -, rfl⟩ := Echo.mem_offers.mp offered
  obtain ⟨front, split⟩ := (Text.isTrailingWord_trailingWord before).suffix
  have goesOn : (before.trailingWord ++ rest).drop before.trailingWord.length = rest :=
    List.drop_left
  have text : panel.field.editor.text = front ++ before.trailingWord ++ after := by
    rw [h.text, split]
  have accepted := accept_offer text pending (by rw [split]) selected
  rw [split] at accepted
  refine ⟨offered, known, ?_, ?_⟩
  · simp only [Echo.offer, goesOn]
    exact ⟨front, by rw [← List.append_assoc, split]⟩
  · simpa only [Echo.offer, goesOn] using accepted

/-- **A name goes on from what was typed.** Let a popup of the echo interpreter be opened with the
cursor anywhere in the text. A candidate is selected by going down to it, as far as a list can be
long. Whichever is selected, and however it was reached, it is a name of the vocabulary. To accept
it puts in, between the texts before and after the cursor, what the name has behind the longest end
of the text before the cursor that holds no blank. The cursor is then behind the name, with which
the text before it ends. No warning is given, and nothing else changes. -/
theorem name_extends_typed (vocabulary : List Text) (title : Text)
    (sound : panel.field.editor.Sound) :
    let source := (Echo.interpreter vocabulary title).completions
    let before := panel.field.editor.before
    let after := panel.field.editor.after
    let opened := panel.openPopup source
    (∀ (p : Nat) (k : Completion), (source before)[p]? = some k → (p : Int) < Request.indexLimit →
      ∃ request, ((List.replicate p 1).foldl move opened).field.pending = some request ∧
        request.selected = .ok k) ∧
    ∃ word, before.IsTrailingWord word ∧
      ∀ (moves : List Int) (request : Request) (k : Completion),
        let chosen := moves.foldl move opened
        chosen.field.pending = some request → request.selected = .ok k →
        let typed := before ++ k.label.drop word.length
        k ∈ source before ∧ k.label ∈ vocabulary ∧ chosen.field.editor.text = before ++ after ∧
        chosen.accept =
          .ok ({ chosen with field := { editor := ⟨typed ++ after, typed.length⟩ } }, []) ∧
        k.label <:+ Editor.before ⟨typed ++ after, typed.length⟩ := by
  intro source before after opened
  have cursor : panel.field.editor.cursor = before.length := sound.length_before.symm
  refine ⟨fun p k found small => ?_, before.trailingWord,
    Text.isTrailingWord_trailingWord before, ?_⟩
  · obtain ⟨lt, rfl⟩ := List.getElem?_eq_some_iff.mp found
    have first : opened.field.pending = some
        { query := before, anchor := panel.field.editor.cursor, candidates := source before } := by
      rw [pending_openPopup, if_neg (List.ne_nil_of_length_pos (Nat.zero_lt_of_lt lt))]
    exact ⟨_, pending_foldl_down lt first, Request.selected_of_lt small rfl lt⟩
  · intro moves request k chosen pending selected typed
    have isOpen : opened.field.pending.isSome := by
      rw [Option.isSome_iff_ne_none]
      intro nothing
      simp [chosen, foldl_move_of_no_request nothing, nothing] at pending
    have popup := (openOver_openPopup isOpen).foldl_move moves
    rw [cursor, ← panel.field.editor.before_append_after] at popup
    obtain ⟨offered, known, ends, accepted⟩ := popup.accept_name pending selected
    refine ⟨offered, Vocabulary.mem_ofList.mp known, popup.text, accepted, ?_⟩
    rw [Editor.before_of_append]
    exact ends

/-- The word begins behind a wide blank. A name that is the word itself is not offered, one that
holds a blank is, and the second of two is selected after the selection was sent beyond both ends. -/
theorem name_extends_typed_behind_wide_blank :
    let vocabulary := ["a.cd".toList, "a.c".toList, [], "a.c e".toList, "a.cd".toList]
    let source := (Echo.interpreter vocabulary).completions
    let panel : Panel :=
      { prompt := .missing, field := { editor := ⟨"f(\u3000a.c, y)".toList, 6⟩ } }
    let chosen := [5, -9, 1].foldl move (panel.openPopup source)
    (source panel.field.editor.before).map Completion.label = ["a.c e".toList, "a.cd".toList] ∧
      chosen.accept =
        .ok ({ chosen with field := { editor := ⟨"f(\u3000a.cd, y)".toList, 7⟩ } }, []) := by
  intro vocabulary source panel chosen
  have sound : panel.field.editor.Sound := ⟨by decide, by decide⟩
  obtain ⟨-, word, trailing, accepts⟩ := name_extends_typed vocabulary Echo.defaultTitle sound
  obtain rfl := Text.isTrailingWord_iff.mp trailing
  have pending : chosen.field.pending = some
      { query := "f(\u3000a.c".toList, anchor := 6
        candidates := source "f(\u3000a.c".toList, index := 1 } := by decide
  obtain ⟨-, -, -, accepted, -⟩ :=
    accepts [5, -9, 1] _ (Echo.offer "a.c".toList "a.cd".toList) pending rfl
  exact ⟨by decide, accepted⟩

end Panel

end LineConsole
