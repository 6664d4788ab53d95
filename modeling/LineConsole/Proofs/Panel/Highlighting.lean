import LineConsole.Proofs.InputField.Requests
import LineConsole.Proofs.Panel.Reset
import LineConsole.Proofs.Panel.Safety

/-!
# The highlighted candidate is the one that is put in

What the popup shows and what accepting puts in are found apart from each other. The popup goes
through the candidates and compares the number of each with the selection; accepting takes the
candidate that the selection names. They agree as long as the selection names a candidate from the
front. It does so from the moment a popup opens, however far the selection is sent, until the popup
is closed.

The popup is a list of fragments, of which the styles tell what they are: the candidates, their
descriptions and the breaks between the rows. So the rows are found again by splitting the list at
its breaks.

## Main definitions

* `Panel.Occasion.Listed` — an occasion on which the interpreter offers what a list can hold

## Main results

* `Popup.rows_eq_mapIdx` — a row shows the number of its candidate
* `Popup.splitOn_render`, `Popup.filter_candidate_render`, `Popup.filter_selected_render` — what is
  found in the popup of a request
* `Panel.sound_foldl_meet` — the selection names a candidate in every course
* `Panel.highlighted_is_accepted` — what is highlighted is what is accepted
-/

namespace LineConsole

/-! ## Rows -/

namespace Popup

variable {request : Request} {selection p : Nat}

/-- The rows, each with the number of its candidate. -/
theorem rows_eq_mapIdx (selection : Int) (first : Nat) (candidates : List Completion) :
    rows selection first candidates =
      candidates.mapIdx fun i completion => row ((first + i : Nat) = selection) completion := by
  induction candidates generalizing first with
  | nil => rfl
  | cons completion others ih =>
    rw [rows, ih, List.mapIdx_cons]
    simp only [Nat.add_zero, Nat.add_assoc, Nat.add_comm 1]

/-- The fragment is a candidate, selected or not. -/
def Fragment.IsCandidate (fragment : Fragment) : Prop :=
  fragment.style = .plain ∨ fragment.style = .selected

instance (fragment : Fragment) : Decidable fragment.IsCandidate :=
  inferInstanceAs (Decidable (_ ∨ _))

theorem render_eq (selected : request.index = p) :
    render request = [rowBreak].intercalate
      (request.candidates.mapIdx fun i completion => row (i = p) completion) := by
  rw [render, selected, rows_eq_mapIdx]
  simp only [Nat.zero_add, Int.natCast_inj]

/-- No row has a break in it. -/
theorem rowBreak_not_mem_row (isSelected : Bool) (completion : Completion) :
    rowBreak ∉ row isSelected completion := by
  unfold row candidate rowBreak
  split <;> split <;> simp

/-- **The rows are found again** by splitting the popup at its breaks. -/
theorem splitOn_render (selected : request.index = p) (some : request.candidates ≠ []) :
    (render request).splitOn rowBreak =
      request.candidates.mapIdx fun i completion => row (i = p) completion := by
  rw [render_eq selected]
  refine List.splitOn_intercalate rowBreak (fun fragments mem => ?_) (by simpa using some)
  obtain ⟨i, h, rfl⟩ := List.mem_mapIdx.mp mem
  exact rowBreak_not_mem_row _ _

/-- There are as many breaks as there are rows to divide. -/
theorem count_render (selected : request.index = p) :
    (render request).count rowBreak = request.candidates.length - 1 := by
  have divides (list : List (List Fragment)) (clean : ∀ fragments ∈ list, rowBreak ∉ fragments) :
      ([rowBreak].intercalate list).count rowBreak = list.length - 1 := by
    induction list with
    | nil => rfl
    | cons first others ih =>
      obtain ⟨head, rest⟩ := List.forall_mem_cons.mp clean
      cases others with
      | nil => simpa [List.count_eq_zero] using head
      | cons second others =>
        rw [List.intercalate_cons_cons, List.count_append, List.count_append, ih rest,
          List.count_eq_zero.mpr head]
        simp
        omega
  rw [render_eq selected, divides, List.length_mapIdx]
  intro fragments mem
  obtain ⟨i, h, rfl⟩ := List.mem_mapIdx.mp mem
  exact rowBreak_not_mem_row _ _

/-- What is picked out of the popup is picked out of the rows, where no break is. -/
theorem filter_render (selected : request.index = p) {keep : Fragment → Bool}
    (skips : keep rowBreak = false) :
    (render request).filter keep =
      (request.candidates.mapIdx fun i completion =>
        (row (i = p) completion).filter keep).flatten := by
  -- The breaks between the rows fall out, so the rows need not be free of them.
  have picks (list : List (List Fragment)) :
      ([rowBreak].intercalate list).filter keep = (list.map (List.filter keep)).flatten := by
    induction list with
    | nil => rfl
    | cons first others ih =>
      cases others with
      | nil => simp
      | cons second others =>
        rw [List.intercalate_cons_cons, List.filter_append, List.filter_append, ih]
        simp [skips]
  rw [render_eq selected, picks]
  congr 1
  exact List.ext_getElem? fun i => by simp [Function.comp_def]

theorem filter_candidate_row (isSelected : Bool) (completion : Completion) :
    (row isSelected completion).filter (fun fragment => fragment.IsCandidate) =
      [candidate isSelected completion] := by
  unfold row candidate
  split <;> split <;> simp [Fragment.IsCandidate]

theorem filter_selected_row (isSelected : Bool) (completion : Completion) :
    (row isSelected completion).filter (fun fragment => fragment.style = .selected) =
      if isSelected then [candidate true completion] else [] := by
  unfold row candidate
  split <;> split <;> simp

/-- **The candidates are listed in their order**, the selected one as such. -/
theorem filter_candidate_render (selected : request.index = p) :
    (render request).filter (fun fragment => fragment.IsCandidate) =
      request.candidates.mapIdx fun i completion => candidate (i = p) completion := by
  have single {α β : Type} (f : Nat → α → β) (list : List α) :
      (list.mapIdx fun i a => [f i a]).flatten = list.mapIdx f := by
    induction list generalizing f with
    | nil => rfl
    | cons a list ih => simp [List.mapIdx_cons, ih]
  rw [filter_render selected (by decide)]
  simp only [filter_candidate_row, single]

/-- **One fragment is highlighted**: the selected candidate. -/
theorem filter_selected_render (selected : request.index = p) :
    (render request).filter (fun fragment => fragment.style = .selected) =
      request.candidates[p]?.toList.map (candidate true) := by
  have single {α β : Type} (f : α → β) (list : List α) (p : Nat) :
      (list.mapIdx fun i a => if i = p then [f a] else []).flatten = list[p]?.toList.map f := by
    induction list generalizing p with
    | nil => rfl
    | cons a list ih =>
      rw [List.mapIdx_cons]
      cases p with
      | zero => simp
      | succ p => simpa using ih p
  rw [filter_render selected (by decide)]
  simp only [filter_selected_row, decide_eq_true_eq, single]

end Popup

/-! ## The selection -/

namespace Panel

variable {panel : Panel} {source : Source} {step : Step} {turn : Turn}

/-- A step that is taken leaves the input as sound as it was. -/
theorem sound_of_perform (sound : panel.field.Sound) (listed : source.Listed)
    (h : panel.perform source step = .ok turn) : turn.panel.field.Sound := by
  have inRange : step.InRange := by
    cases step with
    | place text cursor =>
      cases cursor with
      | none => trivial
      | some cursor =>
        obtain ⟨editor, placed, -⟩ := bind_eq_ok h
        exact (Editor.place_eq_ok_iff.mp placed).1
    | _ => trivial
  obtain ⟨turn', taken, kept, -⟩ := exists_turn sound listed inRange
  rw [h] at taken
  cases taken
  exact kept

/-- The interpreter offers what a list can hold, if it is asked on the occasion. -/
def Occasion.Listed : Occasion → Prop
  | .onPanel source _ => source.Listed
  | .onStream _ => True

theorem sound_meet (sound : panel.field.Sound) {occasion : Occasion} (listed : occasion.Listed) :
    (panel.meet occasion).field.Sound := by
  cases occasion with
  | onStream action => exact sound
  | onPanel source step =>
    simp only [meet]
    split
    next turn taken => exact sound_of_perform sound listed taken
    next => exact sound

/-- **In every course** the selection of an open popup names a candidate. -/
theorem sound_foldl_meet (sound : panel.field.Sound) {course : List Occasion}
    (listed : ∀ occasion ∈ course, occasion.Listed) : (course.foldl meet panel).field.Sound := by
  induction course generalizing panel with
  | nil => exact sound
  | cons occasion course ih =>
    obtain ⟨first, rest⟩ := List.forall_mem_cons.mp listed
    exact ih (sound_meet sound first) rest

/-- **The highlighted candidate is the one that is put in.** Take a new panel through any course, of
steps that may be refused and of sections at the stream, and let a popup be open in the end. One of
its fragments is highlighted, which is that of a candidate `k`. All candidates are listed in their
order. Between the breaks stands one row for each, with a description behind the candidate exactly
when it has one, and there is one break fewer than there are candidates. The row that is highlighted
has the number that the selection names, and `k` is what accepting puts in. -/
theorem highlighted_is_accepted (prompt : Prompt) (trigger : Trigger) {course : List Occasion}
    (listed : ∀ occasion ∈ course, occasion.Listed) {request : Request}
    (pending : (course.foldl meet { prompt, trigger }).field.pending = some request) :
    let panel := course.foldl meet { prompt, trigger }
    let shown := panel.popup
    let candidates := request.candidates
    ∃ (p : Nat) (k : Completion), candidates[p]? = some k ∧
      shown.filter (fun fragment => fragment.style = .selected) =
        [⟨.selected, "▶ ".toList ++ k.label⟩] ∧
      shown.filter (fun fragment => fragment.style = .plain ∨ fragment.style = .selected) =
        candidates.mapIdx (fun i completion => Popup.candidate (i = p) completion) ∧
      shown.splitOn Popup.rowBreak = candidates.mapIdx (fun i completion =>
        Popup.candidate (i = p) completion :: if completion.description = [] then []
          else [⟨.description, "  ".toList ++ completion.description⟩]) ∧
      shown.count Popup.rowBreak = candidates.length - 1 ∧
      request.index = p ∧ request.selected = .ok k ∧
      ∃ result, panel.accept = .ok result ∧ result.1.field = (panel.field.accept k).field := by
  intro panel shown candidates
  have new : ({ prompt, trigger } : Panel).field.Sound :=
    InputField.sound_of_nothing Editor.sound_new
  have sound := (sound_foldl_meet new listed).pending request pending
  obtain ⟨p, named⟩ := Int.eq_ofNat_of_zero_le sound.lower
  have lt : p < request.candidates.length := by
    have upper := sound.upper
    omega
  have small : (p : Int) < Request.indexLimit := by
    have most := sound.listed
    omega
  have found : candidates[p]? = some candidates[p] := List.getElem?_eq_getElem lt
  have selected := Request.selected_of_lt small named lt
  have shows : shown = Popup.render request := by simp only [shown, popup, panel, pending]
  refine ⟨p, candidates[p], found, ?_, ?_, ?_, ?_, named, selected,
    exists_accept (InputField.acceptSelected_of_ok pending selected)⟩
  · rw [shows, Popup.filter_selected_render named, found]
    rfl
  · rw [shows]
    exact Popup.filter_candidate_render named
  · rw [shows, Popup.splitOn_render named sound.nonempty]
    rfl
  · rw [shows, Popup.count_render named]

/-- The first two of three candidates are the same but for a description. The selection is sent
beyond both ends and then to the second, and a step is refused in between. -/
theorem highlighted_is_accepted_of_twins :
    let source : Source := fun _ =>
      [{ label := ['m'], insertText := ['i'], description := ['d'] },
        { label := ['m'], insertText := ['i'] }, { label := ['n'], insertText := ['j'] }]
    let course : List Occasion := [.onPanel source (.type ['x']), .onPanel source .openPopup,
      .onPanel source (.move 7), .onPanel source (.place ['y'] (some 5)),
      .onPanel source (.move (-9)), .onPanel source (.move 1)]
    let panel := course.foldl meet { prompt := .missing }
    panel.popup.filter (fun fragment => fragment.style = .selected) =
        [⟨.selected, "▶ m".toList⟩] ∧
      panel.popup.splitOn Popup.rowBreak =
        [[⟨.plain, "  m".toList⟩, ⟨.description, "  d".toList⟩], [⟨.selected, "▶ m".toList⟩],
          [⟨.plain, "  n".toList⟩]] ∧
      ∃ result, panel.accept = .ok result ∧ result.1.field.editor = ⟨['x', 'i'], 2⟩ := by
  intro source course panel
  have unlimited : source.Listed := fun _ => by decide
  have listed : ∀ occasion ∈ course, occasion.Listed := by
    simp [course, Occasion.Listed, unlimited]
  have pending : panel.field.pending =
      some { query := ['x'], anchor := 1, candidates := source ['x'], index := 1 } := by decide
  obtain ⟨p, k, found, highlighted, -, rows, -, named, -, result, accepted, field⟩ :=
    highlighted_is_accepted .missing .tab listed pending
  obtain rfl : p = 1 := by
    simp only at named
    omega
  cases found
  refine ⟨highlighted, rows.trans (by decide), result, accepted, ?_⟩
  rw [field]
  decide

end Panel

end LineConsole
