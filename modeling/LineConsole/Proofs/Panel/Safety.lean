import LineConsole.Proofs.Panel.Run

/-!
# No step fails

A step on a panel can be refused for two reasons: a text is put into the input with a cursor beyond
its end, and the selection of the popup names no candidate. Neither comes up when the texts that the
user puts in have their cursors in range. The cursor of the input is in the text after every step;
a pending request has candidates, one of them is selected, and it is anchored behind its query.

The popup outlives the text it was opened for. So the anchor may lie beyond the text when a
candidate is accepted, which is then not inserted; and a candidate may ask for more to be removed
than there is, or for less than nothing. Wherever the splice is made, its start is in the text, and
the cursor behind what it inserts is too.

## Main definitions

* `Editor.Fits`, `Editor.Sound` — a cursor not beyond the end, and a cursor in the text
* `Request.Sound`, `InputField.Sound` — what holds of a pending request, and of an input
* `Source.Listed`, `Panel.Step.InRange` — what is asked of an interpreter, and of the user
* `Panel.inputDocument`, `Panel.outputDocuments`, `Panel.documents` — the texts with their cursors
  that a step hands to the input and to the output pane

## Main results

* `Completion.within_of_fit`, `Splice.fits_of_within` — a splice leaves the cursor in the text
* `InputField.Sound.exists_acceptSelected` — a candidate can be accepted
* `Panel.exists_turn` — a step is taken, and keeps all this
* `Panel.no_step_fails` — so it is in every run
-/

namespace LineConsole

open Text

/-! ## Cursors -/

namespace Text

/-- An offset in range leaves as much before it. -/
theorem length_upTo {t : Text} {i : Int} (lower : 0 ≤ i) (upper : i ≤ t.length) :
    ((t.upTo i).length : Int) = i := by
  obtain ⟨n, rfl⟩ := Int.eq_ofNat_of_zero_le lower
  have le : n ≤ t.length := by omega
  rw [upTo, List.length_take, position_natCast le, Nat.min_eq_left le]

end Text

namespace Editor

/-- The cursor is not beyond the end of the text. -/
def Fits (e : Editor) : Prop := e.cursor ≤ e.text.length

/-- The cursor is in the text. -/
structure Sound (e : Editor) : Prop where
  lower : 0 ≤ e.cursor
  upper : e.cursor ≤ e.text.length

variable {e : Editor} {text : Text} {cursor : Int}

theorem sound_new : Sound {} := ⟨Int.le_refl _, Int.le_refl _⟩

/-- A cursor that fits is in the text once it is not before the start. -/
theorem Fits.withinStart (h : e.Fits) : e.withinStart.Sound :=
  ⟨Int.le_max_left _ _, Int.max_le.mpr ⟨Int.natCast_nonneg _, h⟩⟩

/-- A cursor in the text stays where it is. -/
theorem withinStart_of_sound (h : e.Sound) : e.withinStart = e := by
  rw [withinStart, Int.max_eq_right h.lower]

theorem Sound.length_before (h : e.Sound) : (e.before.length : Int) = e.cursor :=
  length_upTo h.lower h.upper

theorem Sound.type (h : e.Sound) (text : Text) : (e.type text).Sound := by
  have before := h.length_before
  refine Fits.withinStart ?_
  simp only [Fits, List.length_append]
  omega

theorem sound_moveTo (e : Editor) (offset : Int) : (e.moveTo offset).Sound :=
  ⟨e.moveTo_cursor_nonneg offset, e.moveTo_cursor_le offset⟩

end Editor

/-! ## Splices -/

/-- The splice starts in the text. -/
structure Splice.Within (splice : Splice) (text : Text) : Prop where
  lower : 0 ≤ splice.start
  upper : splice.start ≤ text.length

/-- What a splice inserts is in the text that comes of it. -/
theorem Splice.fits_of_within {splice : Splice} {text : Text} (h : splice.Within text) :
    Editor.Fits ⟨splice.apply text, splice.start + splice.text.length⟩ := by
  have front := length_upTo h.lower h.upper
  simp only [Editor.Fits, Splice.apply, List.length_append]
  omega

/-- However many characters a completion removes, its splice starts in the text. -/
theorem Completion.within_of_fit {completion : Completion} {text : Text} {anchor : Int}
    {splice : Splice} (h : (completion.fit text anchor).1 = some splice) : splice.Within text := by
  obtain ⟨lower, upper⟩ := fit_isSome_iff.mp (Option.isSome_of_eq_some h)
  have inside : ¬(anchor < 0 ∨ text.length < anchor) := by omega
  simp only [fit, inside, if_false] at h
  split at h
  · -- More is to be removed than there is, so the splice starts where the text does.
    cases h
    exact ⟨Int.le_refl _, Int.natCast_nonneg _⟩
  · cases h
    constructor <;> dsimp only <;> omega

/-! ## Requests -/

/-- There is something to select, and the selection selects it; and the anchor is where the query
ended. -/
structure Request.Sound (request : Request) : Prop where
  nonempty : request.candidates ≠ []
  listed : (request.candidates.length : Int) ≤ indexLimit
  lower : 0 ≤ request.index
  upper : request.index < request.candidates.length
  anchored : request.anchor = request.query.length

namespace Request

variable {request : Request}

/-- The selection names a candidate. -/
theorem Sound.exists_selected (h : request.Sound) :
    ∃ completion, request.selected = .ok completion := by
  obtain ⟨n, named⟩ := Int.eq_ofNat_of_zero_le h.lower
  have upper := h.upper
  have listed := h.listed
  have found : n < request.candidates.length := by omega
  exact ⟨_, selected_of_lt (by omega) named found⟩

/-- A selection that moves no further than to the ends of the popup. -/
theorem Sound.select (h : request.Sound) (index : Int) :
    (request.select (max 0 (min ((request.candidates.length : Int) - 1) index))).Sound := by
  have : 0 < request.candidates.length := List.length_pos_iff.mpr h.nonempty
  refine ⟨h.nonempty, h.listed, Int.le_max_left _ _, ?_, h.anchored⟩
  simp only [Request.select]
  omega

end Request

/-- What the source offers is a list, and no list is longer than indices reach. -/
def Source.Listed (source : Source) : Prop :=
  ∀ query, ((source query).length : Int) ≤ Request.indexLimit

/-! ## The input -/

namespace InputField

/-- The cursor is in the text, and what is pending is sound. -/
structure Sound (field : InputField) : Prop where
  editor : field.editor.Sound
  pending : ∀ request, field.pending = some request → request.Sound

variable {field : InputField}

theorem sound_of_nothing {e : Editor} (h : e.Sound) : Sound ⟨e, none⟩ := ⟨h, by simp⟩

theorem Sound.edit (h : field.Sound) {e : Editor} (he : e.Sound) :
    Sound { field with editor := e } := ⟨he, h.pending⟩

/-- A popup is opened only when there is something to select, and is anchored at the cursor. -/
theorem Sound.triggerHere (h : field.Sound) {source : Source} (listed : source.Listed) :
    (field.triggerHere source).Sound := by
  have offered := listed field.editor.before
  unfold InputField.triggerHere trigger
  split
  next => exact ⟨h.editor, by simp⟩
  next candidates nonempty =>
    refine ⟨h.editor, fun request pending => ?_⟩
    cases pending
    have length : 0 < (source field.editor.before).length := List.length_pos_iff.mpr nonempty
    exact ⟨nonempty, offered, Int.le_refl _, by simpa using length, h.editor.length_before.symm⟩

/-- The text that the selected candidate leaves when it is accepted, with the cursor behind what was
inserted, if a candidate can be selected and inserted. -/
def acceptDocument (field : InputField) : Option Editor := do
  let request ← field.pending
  let completion ← request.selected.toOption
  let splice ← (completion.fit field.editor.text request.anchor).1
  return ⟨splice.apply field.editor.text, splice.start + splice.text.length⟩

/-- The selected candidate is inserted if it fits; else the input stays as it is. -/
theorem acceptSelected_of_selected {request : Request} {completion : Completion}
    (pending : field.pending = some request) (selected : request.selected = .ok completion) :
    ∃ acceptance, field.acceptSelected = .ok acceptance ∧
      acceptance.field = ⟨field.acceptDocument.getD field.editor, none⟩ := by
  refine ⟨field.accept completion, by simp only [acceptSelected, pending, selected]; rfl, ?_⟩
  cases fits : completion.fit field.editor.text request.anchor with
  | mk splice warnings =>
    cases splice <;> simp [accept, acceptDocument, pending, selected, fits, Except.toOption]

theorem sound_of_acceptDocument {document : Editor} (h : field.acceptDocument = some document) :
    document.Sound := by
  simp only [acceptDocument, Option.bind_eq_bind, Option.bind_eq_some_iff] at h
  obtain ⟨request, -, completion, -, splice, fits, made⟩ := h
  cases made
  have within := Completion.within_of_fit fits
  exact ⟨Int.add_nonneg within.lower (Int.natCast_nonneg _), splice.fits_of_within within⟩

/-- **A candidate can be accepted**, if one is pending. -/
theorem Sound.exists_acceptSelected (h : field.Sound) :
    ∃ acceptance, field.acceptSelected = .ok acceptance ∧ acceptance.field.Sound ∧
      ∀ document, field.acceptDocument = some document → acceptance.field.editor = document := by
  cases pending : field.pending with
  | none =>
    refine ⟨{ field }, by rw [acceptSelected, pending], h, fun document made => ?_⟩
    simp [acceptDocument, pending] at made
  | some request =>
    obtain ⟨completion, selected⟩ := (h.pending request pending).exists_selected
    obtain ⟨acceptance, accepted, same⟩ := acceptSelected_of_selected pending selected
    refine ⟨acceptance, accepted, ?_, fun document made => by rw [same, made]; rfl⟩
    rw [same]
    refine sound_of_nothing ?_
    cases made : field.acceptDocument with
    | none => exact h.editor
    | some document => exact sound_of_acceptDocument made

end InputField

/-! ## The panel -/

namespace Panel

variable {panel : Panel} {source : Source} {step : Panel.Step} {turn : Panel.Turn}

/-- The text that a step puts into the input, if it puts one, with the cursor that goes with it. -/
def inputDocument (panel : Panel) : Step → Option Editor
  | .place text cursor => some ⟨text, cursor.getD text.length⟩
  | .commit | .clear => some {}
  | .paste text =>
    let editor := panel.field.editor
    let rest := ((editor.before ++ text.normalizeBreaks ++ editor.after).splitOn '\n').getLastD []
    some ⟨rest, (rest.length : Int) - editor.after.length⟩
  | .accept => panel.field.acceptDocument
  | _ => none

/-- The contents of the output pane, as it is and after each text that a step adds, or when it has
been emptied, with the cursor at the end. -/
def outputDocuments (panel : Panel) (step : Step) : List Editor :=
  let contents := if step = .clear then [[]]
    else (panel.shows step).scanl (fun content text => content ++ text) panel.output
  contents.map fun content => ⟨content, content.length⟩

/-- All the texts with a cursor that come up in a step: the input as it is, and what is put into it
and into the output pane. -/
def documents (panel : Panel) (step : Step) : List Editor :=
  panel.field.editor :: (panel.inputDocument step).toList ++ panel.outputDocuments step

/-- What is asked of a step: a text that the user puts into the input has its cursor in range. -/
def Step.InRange : Step → Prop
  | .place text (some cursor) => cursor ≤ text.length
  | _ => True

theorem fits_of_mem_outputDocuments {document : Editor}
    (h : document ∈ panel.outputDocuments step) : document.Fits := by
  obtain ⟨content, -, rfl⟩ := List.mem_map.mp h
  exact Int.le_refl _

/-- The last content is the one that the step leaves. -/
theorem getLast?_outputDocuments (h : panel.perform source step = .ok turn) :
    (panel.outputDocuments step).getLast? =
      some ⟨turn.panel.output, turn.panel.output.length⟩ := by
  have joined (texts : List Text) (content : Text) :
      texts.foldl (fun content text => content ++ text) content = content ++ texts.flatten := by
    induction texts generalizing content with
    | nil => simp
    | cons text texts ih => simp [ih]
  rw [output_of_perform h, outputDocuments, List.getLast?_map]
  split
  · rfl
  · rw [List.getLast?_scanl, joined]
    rfl

theorem field_openPopup (source : Source) :
    (panel.openPopup source).field = panel.field.triggerHere source := by
  simp only [openPopup]
  split <;> rfl

theorem sound_move (sound : panel.field.Sound) (offset : Int) :
    (panel.move offset).field.Sound := by
  cases pending : panel.field.pending with
  | none => rwa [move_of_no_request pending]
  | some request =>
    simp only [move, pending]
    refine ⟨sound.editor, fun moved found => ?_⟩
    simp only [InputField.select, pending, Option.map_some, Option.some.injEq] at found
    exact found ▸ (sound.pending request pending).select _

/-- The panel accepts what its input accepts. -/
theorem exists_accept {acceptance : InputField.Acceptance}
    (h : panel.field.acceptSelected = .ok acceptance) :
    ∃ result, panel.accept = .ok result ∧ result.1.field = acceptance.field := by
  cases pending : panel.field.pending with
  | none =>
    rw [InputField.acceptSelected, pending] at h
    cases h
    exact ⟨(panel, []), by rw [accept, pending], rfl⟩
  | some request =>
    refine ⟨_, by simp only [accept, pending, h]; rfl, ?_⟩
    dsimp only
    split <;> rfl

/-- **A step is taken**, and leaves the input as sound as it was. -/
theorem exists_turn (sound : panel.field.Sound) (listed : source.Listed)
    (inRange : step.InRange) :
    ∃ turn, panel.perform source step = .ok turn ∧ turn.panel.field.Sound ∧
      ∀ document, panel.inputDocument step = some document →
        document.Fits ∧ turn.panel.field.editor = document.withinStart := by
  cases step with
  | type text =>
    exact ⟨_, rfl, sound.edit (sound.editor.type text), by simp [inputDocument]⟩
  | moveTo offset =>
    exact ⟨_, rfl, sound.edit (panel.field.editor.sound_moveTo offset), by simp [inputDocument]⟩
  | place text cursor =>
    have fits : Editor.Fits ⟨text, cursor.getD text.length⟩ := by
      cases cursor with
      | none => exact Int.le_refl _
      | some cursor => exact inRange
    have placed := Editor.place_eq_ok_iff.mpr ⟨fits, rfl⟩
    refine ⟨_, by simp only [perform, placed]; rfl, sound.edit fits.withinStart, ?_⟩
    rintro document ⟨⟩
    exact ⟨fits, rfl⟩
  | commit | clear =>
    refine ⟨_, rfl, InputField.sound_of_nothing Editor.sound_new, ?_⟩
    rintro document ⟨⟩
    exact ⟨Editor.sound_new.upper, rfl⟩
  | paste text =>
    -- What followed the cursor may be longer than the last piece, if there are breaks in it. The
    -- cursor is then before the start, which is not beyond the end.
    have fits (rest after : Text) : Editor.Fits ⟨rest, (rest.length : Int) - after.length⟩ := by
      simp only [Editor.Fits]
      omega
    refine ⟨_, rfl, InputField.sound_of_nothing (fits _ _).withinStart, ?_⟩
    rintro document ⟨⟩
    exact ⟨fits _ _, rfl⟩
  | openPopup =>
    refine ⟨_, rfl, ?_, by simp [inputDocument]⟩
    rw [field_openPopup]
    exact sound.triggerHere listed
  | move offset => exact ⟨_, rfl, sound_move sound offset, by simp [inputDocument]⟩
  | accept =>
    obtain ⟨acceptance, selected, kept, inserted⟩ := sound.exists_acceptSelected
    obtain ⟨result, accepted, same⟩ := exists_accept selected
    refine ⟨{ panel := result.1, warnings := result.2 }, by simp only [perform, accepted]; rfl,
      same ▸ kept, fun document made => ?_⟩
    have within := InputField.sound_of_acceptDocument made
    rw [same, inserted document made]
    exact ⟨within.upper, (Editor.withinStart_of_sound within).symm⟩
  | write texts =>
    refine ⟨_, rfl, ?_, by simp [inputDocument]⟩
    rw [foldl_write]
    exact sound
  | dismiss =>
    exact ⟨_, rfl, InputField.sound_of_nothing sound.editor, by simp [inputDocument]⟩
  | close | endInput | writeLine | setPrompt | build =>
    exact ⟨_, rfl, sound, by simp [inputDocument]⟩

namespace Bench

/-- The readers leave the input alone, so every step of a run keeps it sound. -/
theorem sound_run {bench : Bench} (sound : bench.panel.field.Sound) {steps : List (Source × Step)}
    (allowed : ∀ met ∈ steps, met.1.Listed ∧ ∀ step, met.2 = .onPanel step → step.InRange) :
    (bench.run steps).panel.field.Sound := by
  induction steps generalizing bench with
  | nil => exact sound
  | cons met steps ih =>
    obtain ⟨⟨listed, inRange⟩, rest⟩ := List.forall_mem_cons.mp allowed
    refine ih ?_ rest
    obtain ⟨source, step⟩ := met
    cases step with
    | send thread errand => exact sound
    | onPanel step =>
      obtain ⟨turn, taken, kept, -⟩ := exists_turn sound listed (inRange step rfl)
      rw [take_of_ok taken]
      exact kept

end Bench

/-- **No step fails.** In every run from a new panel in which the texts that the user puts in have
their cursors in range, and whatever the interpreter offers, the cursor of the input is in the text,
and when a request is pending it has candidates, one of them is selected, and it is anchored behind
its query. Every next step is taken, each text that comes up in it has its cursor at its end at the
most, the one that is put into the input is there with its cursor, or at the start if the cursor was
before it, and the last one that is given to the output pane is what it shows. -/
theorem no_step_fails (prompt : Prompt) (trigger : Trigger) (steps : List (Source × Bench.Step))
    (allowed : ∀ met ∈ steps, met.1.Listed ∧ ∀ step, met.2 = .onPanel step → step.InRange) :
    let panel := (Bench.run { panel := { prompt, trigger } } steps).panel
    let editor := panel.field.editor
    (0 ≤ editor.cursor ∧ editor.cursor ≤ editor.text.length) ∧
      (∀ request, panel.field.pending = some request →
        request.candidates ≠ [] ∧ 0 ≤ request.index ∧ request.index < request.candidates.length ∧
          request.anchor = request.query.length) ∧
      ∀ (source : Source) (step : Step), source.Listed → step.InRange →
        (∀ document ∈ panel.documents step, document.cursor ≤ document.text.length) ∧
          ∃ turn, panel.perform source step = .ok turn ∧
            (∀ document, panel.inputDocument step = some document →
              turn.panel.field.editor = ⟨document.text, max 0 document.cursor⟩) ∧
            (panel.outputDocuments step).getLast? =
              some ⟨turn.panel.output, turn.panel.output.length⟩ := by
  intro panel editor
  have sound : panel.field.Sound :=
    Bench.sound_run (InputField.sound_of_nothing Editor.sound_new) allowed
  refine ⟨⟨sound.editor.lower, sound.editor.upper⟩, fun request pending => ?_,
    fun source step listed inRange => ?_⟩
  · obtain ⟨nonempty, -, lower, upper, anchored⟩ := sound.pending request pending
    exact ⟨nonempty, lower, upper, anchored⟩
  · obtain ⟨turn, taken, -, placed⟩ := exists_turn sound listed inRange
    refine ⟨fun document mem => ?_, turn, taken, fun document given => (placed document given).2,
      getLast?_outputDocuments taken⟩
    simp only [documents, List.cons_append, List.mem_cons, List.mem_append,
      Option.mem_toList] at mem
    rcases mem with rfl | given | shown
    · exact sound.editor.upper
    · exact (placed document given).1
    · exact fits_of_mem_outputDocuments shown

/-- A text that shrinks under the popup, a selection far beyond the last candidate, which removes
far more than there is, and a paste that would put the cursor before the start. -/
theorem no_step_fails_of_shrunk_text :
    let source : Source := fun _ =>
      [{ label := ['m'], insertText := ['i'], charsToRemove := -5 },
        { label := ['n'], insertText := ['j', 'k'], charsToRemove := 1000000000000000000000 }]
    let step (step : Panel.Step) : Source × Bench.Step := (source, .onPanel step)
    let steps := [step (.type ['a', 'b']), step .openPopup, step (.move 1000000000000000000000),
      step (.place ['x'] none), step .accept, step .openPopup, step (.move (-3)), step (.move 1),
      step .accept, step (.place ['a', '\n', 'b'] (some 0))]
    let panel := (Bench.run { panel := { prompt := .missing } } steps).panel
    panel.field.editor = ⟨['a', '\n', 'b'], 0⟩ ∧
      ∃ turn, panel.perform source (.paste []) = .ok turn ∧
        turn.panel.field.editor = ⟨['b'], 0⟩ := by
  intro source step steps panel
  have listed : source.Listed := fun _ => by decide
  have allowed : ∀ met ∈ steps,
      met.1.Listed ∧ ∀ step, met.2 = .onPanel step → step.InRange := by
    simp [steps, step, listed, Step.InRange]
  have before : panel.field.editor = ⟨['a', '\n', 'b'], 0⟩ := by decide
  obtain ⟨-, -, next⟩ := no_step_fails .missing .tab steps allowed
  obtain ⟨-, turn, taken, placed, -⟩ := next source (.paste []) listed trivial
  have given : inputDocument panel (.paste []) = some ⟨['b'], -2⟩ := by decide
  exact ⟨before, turn, taken, (placed _ given).trans (by decide)⟩

end Panel

end LineConsole
