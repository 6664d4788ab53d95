import LineConsole.Proofs.InputField.Requests
import LineConsole.Proofs.Panel.Pasting
import LineConsole.Proofs.Panel.Run

/-!
# The input stays a single line

A committed line is echoed behind one prompt and fed with one LF behind it. That it is one line to
the interpreter too rests on the input: a break in it would make two lines of it there. The user
brings no break in, as long as there is none in what is typed, and a paste leaves in the input what
stands behind the last break of the pasted text. What is left is completion: an accepted candidate
is put in as it is. So the input stays a single line exactly as long as the interpreter offers
nothing with a break in it.

## Main definitions

* `InputStream.Plain` — a stream that was fed whole lines without CRs
* `InputField.Unbroken` — an input without a break, and a popup that offers none
* `Source.Unbroken`, `Panel.Step.Unbroken` — what is asked of the interpreter, and of the user

## Main results

* `InputField.Unbroken.acceptSelected` — accepting puts in what was offered
* `Panel.unbroken_pieces` — pasting leaves no break
* `Panel.Clean.perform` — every step keeps this
* `Panel.input_single_line` — so every run does, and every commit is one line
* `Panel.inserted_break_splits_commit` — a commit that is two lines
-/

namespace LineConsole

open Text

/-! ## Texts without breaks -/

namespace Text

variable {t u : Text}

theorem Unbroken.of_subset (h : t.Unbroken) (sub : u ⊆ t) : u.Unbroken :=
  ⟨fun mem => h.1 (sub mem), fun mem => h.2 (sub mem)⟩

theorem Unbroken.upTo (h : t.Unbroken) (i : Int) : (t.upTo i).Unbroken :=
  h.of_subset (List.take_subset _ _)

theorem Unbroken.since (h : t.Unbroken) (i : Int) : (t.since i).Unbroken :=
  h.of_subset (List.drop_subset _ _)

end Text

/-! ## Streams without CRs -/

/-- A reader who finds no CR leaves no LF to be skipped. -/
theorem scanLine_skipLF {skip : Bool} {buffer : Text} (settled : skip = false)
    (clean : '\r' ∉ buffer) : (scanLine skip buffer).skipLF = false := by
  fun_induction scanLine skip buffer <;> simp_all [Serving.nothing, Serving.cons]

theorem takeChars_skipLF {skip : Bool} (size : Nat) {buffer : Text} (settled : skip = false) :
    (takeChars size skip buffer).skipLF = false := by
  fun_induction takeChars size skip buffer <;> simp_all [Serving.nothing]

theorem Demand.skipLF_serve (demand : Demand) {skip : Bool} {buffer : Text}
    (settled : skip = false) (clean : '\r' ∉ buffer) :
    (demand.serve skip buffer).skipLF = false := by
  cases demand with
  | chars size => exact takeChars_skipLF size settled
  | line => exact scanLine_skipLF settled clean

namespace InputStream

variable {s : InputStream}

/-- No CR has come to the stream, and what is buffered ends on an LF. -/
structure Plain (s : InputStream) : Prop where
  settled : s.skipLF = false
  clean : '\r' ∉ s.buffer
  whole : s.buffer.EndsFeed

theorem plain_new : ({} : InputStream).Plain := ⟨rfl, List.not_mem_nil, endsFeed_nil⟩

theorem plain_clear (s : InputStream) : s.clear.1.Plain := ⟨rfl, List.not_mem_nil, endsFeed_nil⟩

theorem Plain.close (h : s.Plain) : s.close.1.Plain := by
  have spares := spares_of_signals (s := s) .close
  have buffer : s.close.1.buffer = s.buffer := spares.buffer.trans (List.append_nil _)
  exact ⟨spares.skipLF.trans h.settled, buffer ▸ h.clean, buffer ▸ h.whole⟩

/-- What an open stream holds behind an appended text. -/
theorem buffer_append (s : InputStream) (text : Text) :
    (s.append text).1.buffer = s.buffer ++ if s.isClosed then [] else text :=
  (spares_append s text).buffer

theorem Plain.append (h : s.Plain) {line : Text} (unbroken : line.Unbroken) :
    (s.append (line ++ ['\n'])).1.Plain := by
  refine ⟨(spares_append s _).skipLF.trans h.settled, ?_, ?_⟩
  · rw [buffer_append]
    split <;> simp [h.clean, unbroken.1]
  · rw [buffer_append]
    split
    · rw [List.append_nil]
      exact h.whole
    · exact h.whole.append (endsFeed_line line)

theorem Plain.feed (h : s.Plain) {list : List Text} (unbroken : ∀ line ∈ list, line.Unbroken) :
    (s.feed list).Plain := by
  induction list generalizing s with
  | nil => exact h
  | cons line list ih =>
    obtain ⟨first, rest⟩ := List.forall_mem_cons.mp unbroken
    exact ih (h.append first) rest

/-- **Readers leave the stream plain**: they take the front of what is buffered, and find no CR. -/
theorem keptByReaders_plain : KeptByReaders Plain := by
  intro s action reader reads plain
  obtain ⟨-, taken⟩ := perform_of_reader (s := s) reads
  refine ⟨?_, fun mem => plain.clean (taken.subset mem), plain.whole.of_suffix taken⟩
  rcases s.serves_or_perform_eq reads with ⟨s₀, call, serves, same⟩ | same
  · have settled : s₀.skipLF = false := serves.skipLF_eq.trans plain.settled
    have clean : '\r' ∉ s₀.buffer := serves.buffer_eq ▸ plain.clean
    have ways := s₀.advances call
    rw [same]
    generalize s₀.advance call = advanced at ways ⊢
    cases ways with
    | released => exact settled
    | complete | drained | waiting => exact call.demand.skipLF_serve settled clean
  · rw [same]
    exact plain.settled

/-- A line that is appended is one line more to read. -/
theorem Plain.lines_append (h : s.Plain) {line : Text} (unbroken : line.Unbroken) :
    let after := (s.append (line ++ ['\n'])).1
    lines (unread after.skipLF after.buffer) =
      lines (unread s.skipLF s.buffer) ++ if s.isClosed then [] else [line] := by
  intro after
  rw [(h.append unbroken).settled, h.settled, unread_false, unread_false, buffer_append]
  split
  · simp
  · rw [h.whole.lines_append]
    exact congrArg _ (framed_of_unbroken unbroken)

end InputStream

/-! ## Inputs without breaks -/

/-- No completion that the source offers puts a break in. -/
def Source.Unbroken (source : Source) : Prop :=
  ∀ query, ∀ completion ∈ source query, completion.insertText.Unbroken

namespace InputField

/-- No break is in the text, and none in what the popup offers. -/
structure Unbroken (field : InputField) : Prop where
  text : field.editor.text.Unbroken
  offered : ∀ request, field.pending = some request →
    ∀ completion ∈ request.candidates, completion.insertText.Unbroken

variable {field : InputField}

theorem unbroken_of_nothing {e : Editor} (h : e.text.Unbroken) : Unbroken ⟨e, none⟩ :=
  ⟨h, by simp⟩

theorem Unbroken.edit (h : field.Unbroken) {e : Editor} (he : e.text.Unbroken) :
    Unbroken { field with editor := e } := ⟨he, h.offered⟩

theorem Unbroken.select (h : field.Unbroken) (index : Int) : (field.select index).Unbroken := by
  refine ⟨h.text, fun request pending => ?_⟩
  obtain ⟨before, found, rfl⟩ := Option.map_eq_some_iff.mp pending
  exact h.offered before found

theorem Unbroken.triggerHere (h : field.Unbroken) {source : Source} (unbroken : source.Unbroken) :
    (field.triggerHere source).Unbroken := by
  have offered := unbroken field.editor.before
  unfold InputField.triggerHere trigger
  split
  next => exact unbroken_of_nothing h.text
  next =>
    refine ⟨h.text, fun request pending => ?_⟩
    cases pending
    exact offered

/-- The text after accepting a completion: with the splice made, or as it was. -/
theorem Unbroken.accept (h : field.Unbroken) {completion : Completion}
    (unbroken : completion.insertText.Unbroken) : (field.accept completion).field.Unbroken := by
  cases pending : field.pending with
  | none => rwa [accept_of_nothing pending]
  | some request =>
    cases fits : completion.fit field.editor.text request.anchor with
    | mk splice warnings =>
      cases splice with
      | none =>
        simp only [InputField.accept, pending, fits]
        exact unbroken_of_nothing h.text
      | some splice =>
        have put : splice.text.Unbroken := by
          rwa [Completion.text_of_fit (congrArg Prod.fst fits)]
        simp only [InputField.accept, pending, fits]
        refine unbroken_of_nothing ?_
        simp only [Splice.apply, unbroken_append]
        exact ⟨⟨h.text.upTo _, put⟩, h.text.since _⟩

/-- **Accepting puts in what was offered**, so no break comes in. -/
theorem Unbroken.acceptSelected (h : field.Unbroken) {acceptance : Acceptance}
    (accepted : field.acceptSelected = .ok acceptance) : acceptance.field.Unbroken := by
  cases pending : field.pending with
  | none =>
    rw [InputField.acceptSelected, pending] at accepted
    cases accepted
    exact h
  | some request =>
    cases selected : request.selected with
    | error fault =>
      rw [acceptSelected_of_error pending selected] at accepted
      cases accepted
    | ok completion =>
      rw [acceptSelected_of_ok pending selected] at accepted
      cases accepted
      exact h.accept (h.offered request pending completion (Request.mem_of_selected selected))

end InputField

/-! ## The panel -/

namespace Panel

variable {panel : Panel} {source : Source} {step : Panel.Step} {turn : Panel.Turn}

/-- What is asked of a step: the user types no break, and puts none into the input. -/
def Step.Unbroken : Step → Prop
  | .type text | .place text _ => text.Unbroken
  | _ => True

/-- **Pasting leaves no break**: the pieces of a paste, and of what stands around it, have none. -/
theorem unbroken_pieces (h : panel.field.editor.text.Unbroken) (data : Text) :
    let editor := panel.field.editor
    ∀ piece ∈ (editor.before ++ data.normalizeBreaks ++ editor.after).splitOn '\n',
      Text.Unbroken piece := by
  intro editor
  have before : editor.before.Unbroken := h.upTo _
  have after : editor.after.Unbroken := h.since _
  have clean : '\r' ∉ editor.before ++ data.normalizeBreaks ++ editor.after := by
    simp [before.1, after.1, not_mem_normalizeBreaks]
  have respelled := normalizeBreaks_of_not_mem clean
  exact (segmented_iff.mpr (congrArg (List.splitOn '\n') respelled.symm)).unbroken

theorem unbroken_submits (h : panel.field.editor.text.Unbroken) :
    ∀ line ∈ panel.submits step, line.Unbroken := by
  cases step with
  | commit => simpa [submits] using h
  | paste data => exact fun line mem => unbroken_pieces h data line (List.dropLast_subset _ mem)
  | _ => simp [submits]

/-- The panel accepts what its input accepts. -/
theorem field_of_accept {result : Panel × List Completion.Warning}
    (h : panel.accept = .ok result) :
    ∃ acceptance, panel.field.acceptSelected = .ok acceptance ∧
      result.1.field = acceptance.field := by
  cases pending : panel.field.pending with
  | none =>
    simp only [accept, pending] at h
    cases h
    exact ⟨_, by rw [InputField.acceptSelected, pending], rfl⟩
  | some request =>
    simp only [accept, pending] at h
    obtain ⟨acceptance, accepted, given⟩ := bind_eq_ok h
    cases given
    refine ⟨acceptance, accepted, ?_⟩
    dsimp only
    split <;> rfl

/-- No break is in the input or comes to the stream but at the end of a line. -/
structure Clean (panel : Panel) : Prop where
  field : panel.field.Unbroken
  stdin : panel.stdin.Plain

theorem unbroken_perform (h : panel.field.Unbroken) (unbroken : source.Unbroken)
    (allowed : step.Unbroken) (taken : panel.perform source step = .ok turn) :
    turn.panel.field.Unbroken := by
  cases step with
  | type text =>
    cases taken
    have text' : text.Unbroken := allowed
    refine h.edit ?_
    simp only [Editor.type_text, unbroken_append]
    exact ⟨⟨h.text.upTo _, text'⟩, h.text.since _⟩
  | moveTo offset =>
    cases taken
    exact h.edit h.text
  | place text cursor =>
    obtain ⟨editor, placed, given⟩ := bind_eq_ok taken
    cases given
    obtain ⟨-, rfl⟩ := Editor.place_eq_ok_iff.mp placed
    exact h.edit allowed
  | commit | clear =>
    cases taken
    exact InputField.unbroken_of_nothing unbroken_nil
  | paste data =>
    cases taken
    refine InputField.unbroken_of_nothing ?_
    have pieces := unbroken_pieces h.text data
    simp only [Editor.withinStart]
    rw [List.getLastD_eq_getLast?]
    cases last : List.getLast? _ with
    | none => exact unbroken_nil
    | some piece => exact pieces piece (List.mem_of_getLast? last)
  | openPopup =>
    cases taken
    have opened := h.triggerHere unbroken
    simp only [openPopup]
    split <;> exact opened
  | move offset =>
    cases taken
    simp only [move]
    split
    · exact h
    · exact h.select _
  | accept =>
    obtain ⟨result, accepted, given⟩ := bind_eq_ok taken
    cases given
    obtain ⟨acceptance, selected, same⟩ := field_of_accept accepted
    rw [same]
    exact h.acceptSelected selected
  | dismiss =>
    cases taken
    exact InputField.unbroken_of_nothing h.text
  | write texts =>
    cases taken
    rw [foldl_write]
    exact h
  | close | endInput | writeLine | setPrompt | build =>
    cases taken
    exact h

/-- **Every step keeps the panel clean.** -/
theorem Clean.perform (h : panel.Clean) (unbroken : source.Unbroken) (allowed : step.Unbroken)
    (taken : panel.perform source step = .ok turn) : turn.panel.Clean := by
  refine ⟨unbroken_perform h.field unbroken allowed taken, ?_⟩
  have affects := perform_affects taken
  generalize turn.panel = after at affects ⊢
  cases affects with
  | clears => exact panel.stdin.plain_clear
  | closes _ stdin => exact stdin ▸ h.stdin.close
  | feeds _ _ stdin => exact stdin ▸ h.stdin.feed (unbroken_submits h.field.text)

namespace Bench

/-- The readers leave the input alone, and the stream plain. -/
theorem clean_run {bench : Bench} (clean : bench.panel.Clean) {steps : List (Source × Step)}
    (allowed : ∀ met ∈ steps, met.1.Unbroken ∧ ∀ step, met.2 = .onPanel step → step.Unbroken) :
    (bench.run steps).panel.Clean := by
  have settles (bench : Bench) (clean : bench.panel.Clean) : bench.settle.1.panel.Clean :=
    ⟨clean.field, bench.crew.settle_keeps InputStream.keptByReaders_plain clean.stdin⟩
  induction steps generalizing bench with
  | nil => exact clean
  | cons met steps ih =>
    obtain ⟨⟨unbroken, own⟩, rest⟩ := List.forall_mem_cons.mp allowed
    refine ih ?_ rest
    obtain ⟨source, step⟩ := met
    cases step with
    | send thread errand =>
      exact settles { bench with crew := bench.crew.send thread errand } clean
    | onPanel step =>
      cases taken : bench.panel.perform source step with
      | error fault => rwa [take_of_error taken]
      | ok turn =>
        rw [take_of_ok taken]
        exact settles { bench with panel := turn.panel }
          (clean.perform unbroken (own step rfl) taken)

end Bench

/-- **The input stays a single line.** Take a new panel through any steps, with readers at its
stream or without; let no typed or placed text have a break in it, and let the interpreter offer no
completion that inserts one. Then no break is in the input, however texts were pasted, and a commit
echoes it behind one prompt, empties it, and hands the interpreter one line: to all that is there to
read of an open stream, the input is one line more. -/
theorem input_single_line (prompt : Prompt) (trigger : Trigger)
    {steps : List (Source × Bench.Step)}
    (allowed : ∀ met ∈ steps, met.1.Unbroken ∧ ∀ step, met.2 = .onPanel step → step.Unbroken) :
    let panel := (Bench.run { panel := { prompt, trigger } } steps).panel
    let line := panel.field.editor.text
    let stdin := panel.stdin
    let fed := panel.commit.stdin
    line.Unbroken ∧
      panel.commit.output = panel.output ++ (panel.prompt.shown ++ line ++ ['\n']) ∧
      panel.commit.field = {} ∧
      lines (unread fed.skipLF fed.buffer) =
        lines (unread stdin.skipLF stdin.buffer) ++ if stdin.isClosed then [] else [line] := by
  intro panel line stdin fed
  have new : ({ prompt, trigger } : Panel).Clean :=
    ⟨InputField.unbroken_of_nothing unbroken_nil, InputStream.plain_new⟩
  have clean : panel.Clean := Bench.clean_run new allowed
  exact ⟨clean.field.text, rfl, rfl, clean.stdin.lines_append clean.field.text⟩

/-- Two lines of a paste are submitted, and a completion is put behind what is left of it. -/
theorem input_single_line_of_paste_and_accept :
    let source : Source := fun _ => [{ label := ['+'], insertText := ['c'] }]
    let steps : List (Source × Bench.Step) :=
      [.onPanel (.paste "1\r\n2\r3".toList), .onPanel .openPopup, .onPanel .accept].map (source, ·)
    let panel := (Bench.run { panel := { prompt := .missing } } steps).panel
    let fed := panel.commit.stdin
    panel.field.editor.text = ['3', 'c'] ∧ panel.commit.output = "[]1\n[]2\n[]3c\n".toList ∧
      lines (unread fed.skipLF fed.buffer) = [['1'], ['2'], ['3', 'c']] := by
  intro source steps panel fed
  have unbroken : source.Unbroken := by
    simp [source, Source.Unbroken, Text.Unbroken]
  have typed : ∀ met ∈ steps, ∀ step, met.2 = .onPanel step → step.Unbroken := by
    simp [steps, Step.Unbroken]
  have allowed : ∀ met ∈ steps,
      met.1.Unbroken ∧ ∀ step, met.2 = .onPanel step → step.Unbroken := by
    refine fun met mem => ⟨?_, typed met mem⟩
    obtain ⟨step, -, rfl⟩ := List.mem_map.mp mem
    exact unbroken
  have text : panel.field.editor.text = ['3', 'c'] := by decide
  obtain ⟨-, output, -, reads⟩ := input_single_line .missing .tab allowed
  refine ⟨text, output.trans ?_, reads.trans ?_⟩ <;> decide

/-- A completion with a break in it makes two lines of the input: typed by nobody, it is shown
behind one prompt, and the interpreter reads two. -/
theorem inserted_break_splits_commit :
    let source : Source := fun _ => [{ label := ['+'], insertText := ['a', '\n', 'b'] }]
    let steps : List (Source × Bench.Step) := [.onPanel .openPopup, .onPanel .accept].map (source, ·)
    let panel := (Bench.run { panel := { prompt := .missing } } steps).panel
    let fed := panel.commit.stdin
    (∀ met ∈ steps, ∀ step, met.2 = .onPanel step → step.Unbroken) ∧
      ¬ panel.field.editor.text.Unbroken ∧ panel.commit.output = "[]a\nb\n".toList ∧
      lines (unread panel.stdin.skipLF panel.stdin.buffer) = [] ∧
      lines (unread fed.skipLF fed.buffer) = [['a'], ['b']] := by
  intro source steps panel fed
  have typed : ∀ met ∈ steps, ∀ step, met.2 = .onPanel step → step.Unbroken := by
    simp [steps, Step.Unbroken]
  have text : panel.field.editor.text = ['a', '\n', 'b'] := by decide
  refine ⟨typed, fun unbroken => unbroken.2 (by simp [text]), ?_, ?_, ?_⟩ <;> decide

end Panel

end LineConsole
