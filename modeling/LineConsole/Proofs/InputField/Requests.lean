import Mathlib.Data.List.Induction
import LineConsole.InputField.Step

/-!
# The life of a request

A field is taken from step to step: asked for completions, told to accept or to dismiss, and edited
in between. A course records each step with the field that it found. What is pending can then be
read off the course: the last step that asked decides, unless the field has settled since. A request
goes into the text once at most, at the anchor it was made with, however the text and the cursor
have changed under it.

## Main definitions

* `InputField.Episode`, `InputField.course`, `InputField.run` — a step and the field it found, all
  of them, and the field they lead to
* `Episode.Asks`, `Episode.Settles`, `Episode.PutsIn` — what a step does about requests
* `InputField.Awaits`, `InputField.Stands` — what a field has pending, and what a course has left
  open
* `InputField.Chooses` — a step that is to accept a completion

## Main results

* `InputField.accept_or_leave` — what accepting does to the line
* `Episode.leads`, `Episode.awaits_after_iff` — all that a step can lead to, and what it makes of
  what is pending
* `InputField.awaits_iff_stands` — what is pending is what stands
* `InputField.requests_applied_once` — requests are applied once, and accepting is all or nothing
-/

namespace LineConsole

/-! ## Splices and selections -/

/-- What a splice puts in is what the completion inserts. -/
theorem Completion.text_of_fit {completion : Completion} {text : Text} {anchor : Int}
    {splice : Splice} (h : (completion.fit text anchor).1 = some splice) :
    splice.text = completion.insertText := by
  unfold fit at h
  split at h
  · cases h
  · dsimp only at h
    split at h <;> cases h <;> rfl

namespace Request

variable {request : Request}

/-- The faults of a selection that names no candidate. -/
def outOfRange : List Fault := [.noSuchCandidate, .indexTooLarge]

/-- An index that names no candidate, from the front or from the end, is a fault. -/
theorem selected_of_out_of_range
    (h : request.index < -request.candidates.length ∨ request.candidates.length ≤ request.index) :
    ∃ fault ∈ outOfRange, request.selected = .error fault := by
  unfold selected
  split
  · exact ⟨_, by simp [outOfRange], rfl⟩
  · refine ⟨.noSuchCandidate, by simp [outOfRange], ?_⟩
    dsimp only
    generalize hposition : (if request.index < 0 then request.candidates.length + request.index
      else request.index : Int) = position
    have beyond : position < 0 ∨ request.candidates.length ≤ position.toNat := by
      split at hposition <;> omega
    rcases beyond with before | behind
    · rw [if_pos before]
    · rw [List.getElem?_eq_none behind, ite_self]

/-- Whatever is selected is a candidate. -/
theorem mem_of_selected {completion : Completion} (h : request.selected = .ok completion) :
    completion ∈ request.candidates := by
  unfold selected at h
  split at h
  · cases h
  · dsimp only at h
    generalize (if request.index < 0 then _ else request.index : Int) = position at h
    split at h
    · cases h
    · split at h
      next found =>
        cases h
        exact List.mem_of_getElem? found
      · cases h

end Request

namespace InputField

variable {field : InputField} {source : Source} {step : Step} {turn : Turn}
  {query : Text} {anchor : Int} {candidates : List Completion}

/-! ## Episodes -/

/-- A step, the source of completions it met and the field it found. -/
structure Episode where
  field : InputField
  source : Source
  step : Step

/-- The step edits the line. -/
def Step.Edits : Step → Prop
  | .place _ _ | .moveTo _ | .type _ => True
  | _ => False

namespace Episode

/-- The field after the step. -/
def after (e : Episode) : InputField := (e.field.perform e.source e.step).field

/-- The step asks for the completions of a query at an anchor. -/
def Asks (e : Episode) (query : Text) (anchor : Int) : Prop :=
  e.step = .trigger query anchor ∨
    e.step = .triggerHere ∧ query = e.field.editor.before ∧ anchor = e.field.editor.cursor

/-- The step asks for completions. -/
def Triggers (e : Episode) : Prop := ∃ query anchor, e.Asks query anchor

/-- The step accepts a completion that is given, or the candidate that is selected, and is not
refused. -/
def Accepts (e : Episode) (acceptance : Acceptance) : Prop :=
  (∃ completion, e.step = .accept completion ∧ e.field.accept completion = acceptance) ∨
    e.step = .acceptSelected ∧ e.field.acceptSelected = .ok acceptance

/-- The field has nothing more to do about what was pending: it accepted, or dismissed. -/
def Settles (e : Episode) : Prop := e.step = .dismiss ∨ ∃ acceptance, e.Accepts acceptance

/-- The step puts a completion into the text. -/
def PutsIn (e : Episode) : Prop :=
  ∃ acceptance splice, e.Accepts acceptance ∧ acceptance.splice = some splice

end Episode

/-- A request with the query, the anchor and the candidates is pending, whatever is selected. -/
def Awaits (field : InputField) (query : Text) (anchor : Int) (candidates : List Completion) :
    Prop :=
  ∃ index, field.pending = some { query, anchor, candidates, index }

/-- The step is to accept the completion: it is given, or it is the candidate that is selected. -/
def Chooses (field : InputField) (step : Step) (completion : Completion) : Prop :=
  step = .accept completion ∨
    step = .acceptSelected ∧
      ∃ request, field.pending = some request ∧ request.selected = .ok completion

/-! ## What one step does -/

theorem trigger_editor (field : InputField) (source : Source) (query : Text) (anchor : Int) :
    (field.trigger source query anchor).editor = field.editor := by
  unfold trigger
  split <;> rfl

/-- What is pending after a trigger. -/
theorem pending_trigger (field : InputField) (source : Source) (query : Text) (anchor : Int) :
    (field.trigger source query anchor).pending =
      if source query = [] then none else some { query, anchor, candidates := source query } := by
  unfold trigger
  split <;> simp_all

/-- Accepting the selected candidate is accepting the completion that it is. -/
theorem acceptSelected_of_ok {request : Request} {completion : Completion}
    (pending : field.pending = some request) (selected : request.selected = .ok completion) :
    field.acceptSelected = .ok (field.accept completion) := by
  rw [acceptSelected, pending]
  simp only [selected]
  rfl

/-- A selection that names no candidate is refused. -/
theorem acceptSelected_of_error {request : Request} {fault : Fault}
    (pending : field.pending = some request) (selected : request.selected = .error fault) :
    field.acceptSelected = .error fault := by
  rw [acceptSelected, pending]
  simp only [selected]
  rfl

/-- The step that accepts the selected candidate is taken if it can be accepted. -/
theorem perform_acceptSelected_of_ok {acceptance : Acceptance}
    (accepted : field.acceptSelected = .ok acceptance) :
    field.perform source .acceptSelected = acceptance.turn := by
  rw [perform, accepted]

theorem perform_acceptSelected_of_error {fault : Fault}
    (refused : field.acceptSelected = .error fault) :
    field.perform source .acceptSelected = field.refuse fault := by
  rw [perform, refused]

theorem perform_place_of_ok {text : Text} {cursor : Option Int} {editor : Editor}
    (placed : Editor.place text (cursor.getD text.length) = .ok editor) :
    field.perform source (.place text cursor) = { field := { field with editor } } := by
  rw [perform, placed]

theorem perform_place_of_error {text : Text} {cursor : Option Int} {fault : Fault}
    (refused : Editor.place text (cursor.getD text.length) = .error fault) :
    field.perform source (.place text cursor) = field.refuse fault := by
  rw [perform, refused]

/-- **What accepting does to the line**: the completion goes in at the anchor of the request, or it
does not fit, or nothing is pending, and the line is left alone. -/
theorem accept_or_leave (field : InputField) (completion : Completion) :
    let text := field.editor.text
    let acceptance := field.accept completion
    (∃ request splice, field.pending = some request ∧
        (completion.fit text request.anchor).1 = some splice ∧
        acceptance.splice = some splice ∧
        acceptance.field.editor =
          ⟨splice.apply text, splice.start + completion.insertText.length⟩) ∨
      acceptance.splice = none ∧ acceptance.field.editor = field.editor ∧
        ∀ request, field.pending = some request →
          (completion.fit text request.anchor).1 = none := by
  intro text acceptance
  cases pending : field.pending with
  | none => exact .inr (by simp [acceptance, pending])
  | some request =>
    cases fits : completion.fit text request.anchor with
    | mk splice warnings =>
      cases splice with
      | none => exact .inr (by simp [acceptance, text, accept, pending, fits])
      | some splice =>
        have made : (completion.fit text request.anchor).1 = some splice := congrArg Prod.fst fits
        refine .inl ⟨request, splice, rfl, made, ?_⟩
        simp [acceptance, text, accept, pending, fits, Completion.text_of_fit made]

/-- The selected candidate is accepted like any completion, or there is nothing to accept. -/
theorem eq_accept_of_acceptSelected {acceptance : Acceptance}
    (h : field.acceptSelected = .ok acceptance) :
    ∃ completion, acceptance = field.accept completion := by
  cases pending : field.pending with
  | none =>
    rw [acceptSelected, pending] at h
    cases h
    exact ⟨⟨[], [], 0, []⟩, (accept_of_nothing pending _).symm⟩
  | some request =>
    cases selected : request.selected with
    | error fault =>
      rw [acceptSelected_of_error pending selected] at h
      cases h
    | ok completion =>
      rw [acceptSelected_of_ok pending selected] at h
      cases h
      exact ⟨completion, rfl⟩

namespace Episode

variable {e : Episode} {acceptance : Acceptance}

theorem after_of_perform (h : e.field.perform e.source e.step = turn) : e.after = turn.field := by
  rw [after, h]

/-- A step that asks leads to what the source offers. -/
theorem after_of_asks (asks : e.Asks query anchor) :
    e.after = e.field.trigger e.source query anchor := by
  obtain ⟨field, source, step⟩ := e
  obtain rfl | ⟨rfl, rfl, rfl⟩ := asks <;> rfl

theorem eq_accept_of_accepts (accepts : e.Accepts acceptance) :
    ∃ completion, acceptance = e.field.accept completion := by
  obtain ⟨completion, -, rfl⟩ | ⟨-, accepted⟩ := accepts
  · exact ⟨completion, rfl⟩
  · exact eq_accept_of_acceptSelected accepted

theorem after_of_accepts (accepts : e.Accepts acceptance) : e.after = acceptance.field := by
  obtain ⟨field, source, step⟩ := e
  obtain ⟨completion, rfl, rfl⟩ | ⟨rfl, accepted⟩ := accepts
  · rfl
  · exact after_of_perform (perform_acceptSelected_of_ok accepted)

/-- A step that asks for completions settles nothing. -/
theorem not_settles_of_asks (asks : e.Asks query anchor) : ¬ e.Settles := by
  rintro (dismisses | ⟨acceptance, ⟨completion, accepts, -⟩ | ⟨accepts, -⟩⟩) <;>
    simp_all [Asks]

/-- All that a step can lead to. -/
inductive Leads (e : Episode) : InputField → Prop
  | asked {query : Text} {anchor : Int} (asks : e.Asks query anchor) :
    Leads e (e.field.trigger e.source query anchor)
  | accepted {acceptance : Acceptance} (accepts : e.Accepts acceptance) : Leads e acceptance.field
  | dismissed (dismisses : e.step = .dismiss) : Leads e e.field.dismiss
  | selected (index : Int) : Leads e (e.field.select index)
  | edited (edits : e.step.Edits) (editor : Editor) : Leads e { e.field with editor }
  | refused : Leads e e.field

theorem leads (e : Episode) : e.Leads e.after := by
  obtain ⟨field, source, step⟩ := e
  cases step with
  | trigger query anchor => exact .asked (.inl rfl)
  | triggerHere => exact .asked (.inr ⟨rfl, rfl, rfl⟩)
  | accept completion => exact .accepted (.inl ⟨completion, rfl, rfl⟩)
  | acceptSelected =>
    cases accepted : field.acceptSelected with
    | ok acceptance =>
      have accepts : Accepts ⟨field, source, .acceptSelected⟩ acceptance := .inr ⟨rfl, accepted⟩
      rw [after_of_accepts accepts]
      exact .accepted accepts
    | error fault =>
      rw [after_of_perform (perform_acceptSelected_of_error accepted)]
      exact .refused
  | select index => exact .selected index
  | dismiss => exact .dismissed rfl
  | place text cursor =>
    cases placed : Editor.place text (cursor.getD text.length) with
    | ok editor =>
      rw [after_of_perform (perform_place_of_ok placed)]
      exact .edited (by trivial) editor
    | error fault =>
      rw [after_of_perform (perform_place_of_error placed)]
      exact .refused
  | moveTo offset => exact .edited (by trivial) _
  | type text => exact .edited (by trivial) _

/-- A request is pending after a trigger if there is something to offer, and it is that of the
trigger. -/
theorem awaits_after_of_asks {asked : Text} {place : Int} (asks : e.Asks asked place) :
    e.after.Awaits query anchor candidates ↔
      e.Asks query anchor ∧ e.source query = candidates ∧ candidates ≠ [] := by
  have same : e.Asks query anchor ↔ query = asked ∧ anchor = place := by
    obtain ⟨field, source, step⟩ := e
    obtain rfl | ⟨rfl, rfl, rfl⟩ := asks <;> simp [Asks, eq_comm]
  rw [same, Awaits, after_of_asks asks, pending_trigger]
  split
  next nothing =>
    simp only [reduceCtorEq, exists_false, false_iff]
    rintro ⟨⟨rfl, rfl⟩, rfl, some⟩
    exact some nothing
  next some =>
    simp only [Option.some.injEq, Request.mk.injEq]
    constructor
    · rintro ⟨index, rfl, rfl, rfl, -⟩
      exact ⟨⟨rfl, rfl⟩, rfl, some⟩
    · rintro ⟨⟨rfl, rfl⟩, rfl, -⟩
      exact ⟨0, rfl, rfl, rfl, rfl⟩

/-- Nothing is pending after an accept or a dismissal. -/
theorem not_awaits_after_of_settles (settles : e.Settles) :
    ¬ e.after.Awaits query anchor candidates := by
  suffices e.after.pending = none by simp [Awaits, this]
  obtain dismisses | ⟨acceptance, accepts⟩ := settles
  · obtain ⟨field, source, step⟩ := e
    cases dismisses
    rfl
  · obtain ⟨completion, rfl⟩ := eq_accept_of_accepts accepts
    rw [after_of_accepts accepts]
    exact accept_pending _ completion

/-- Any other step leaves what is pending, but for what is selected. -/
theorem awaits_after_of_other (other : ¬ e.Triggers) (stays : ¬ e.Settles) :
    e.after.Awaits query anchor candidates ↔ e.field.Awaits query anchor candidates := by
  have leads := e.leads
  generalize e.after = after at leads ⊢
  cases leads with
  | asked asks => exact absurd ⟨_, _, asks⟩ other
  | accepted accepts => exact absurd (.inr ⟨_, accepts⟩) stays
  | dismissed dismisses => exact absurd (.inl dismisses) stays
  | edited | refused => rfl
  | selected index =>
    cases pending : e.field.pending with
    | none => simp [Awaits, select, pending]
    | some request =>
      obtain ⟨query, anchor, candidates, selection⟩ := request
      simp [Awaits, select, Request.select, pending]

/-- **What is pending after a step**: what the step asks for, if it asks and something is offered,
and else what was pending before, unless the step settles it. -/
theorem awaits_after_iff :
    e.after.Awaits query anchor candidates ↔
      (e.Asks query anchor ∧ e.source query = candidates ∧ candidates ≠ []) ∨
        e.field.Awaits query anchor candidates ∧ ¬ e.Triggers ∧ ¬ e.Settles := by
  by_cases triggers : e.Triggers
  · obtain ⟨asked, place, asks⟩ := id triggers
    simp [awaits_after_of_asks asks, triggers]
  · have silent : ¬ e.Asks query anchor := fun asks => triggers ⟨_, _, asks⟩
    by_cases settles : e.Settles
    · simp [not_awaits_after_of_settles settles, silent, settles]
    · simp [awaits_after_of_other triggers settles, silent, triggers, settles]

/-- The line is changed by an edit, or by a completion that is put in. -/
theorem edits_or_putsIn (changed : e.after.editor ≠ e.field.editor) : e.step.Edits ∨ e.PutsIn := by
  have leads := e.leads
  generalize e.after = after at leads changed
  cases leads with
  | asked => exact absurd (trigger_editor ..) changed
  | dismissed | selected | refused => exact absurd rfl changed
  | edited edits => exact .inl edits
  | accepted accepts =>
    obtain ⟨completion, rfl⟩ := eq_accept_of_accepts accepts
    obtain ⟨-, splice, -, -, made, -⟩ | ⟨-, same, -⟩ := e.field.accept_or_leave completion
    · exact .inr ⟨_, splice, accepts, made⟩
    · exact absurd same changed

/-- Nothing is put in unless a request is pending. -/
theorem PutsIn.awaits (putsIn : e.PutsIn) :
    ∃ query anchor candidates, e.field.Awaits query anchor candidates := by
  obtain ⟨acceptance, splice, accepts, made⟩ := putsIn
  obtain ⟨completion, rfl⟩ := eq_accept_of_accepts accepts
  cases pending : e.field.pending with
  | none => simp [accept_of_nothing pending] at made
  | some request => exact ⟨_, _, _, request.index, pending⟩

end Episode

/-! ## Courses -/

/-- The field after the steps of a run, each with the source of completions that it met. -/
def run (field : InputField) (steps : List (Source × Step)) : InputField :=
  steps.foldl (fun field met => Episode.after ⟨field, met.1, met.2⟩) field

/-- The steps of a run, each with the field that it found. -/
def course (field : InputField) : List (Source × Step) → List Episode
  | [] => []
  | (source, step) :: steps =>
    let e : Episode := ⟨field, source, step⟩
    e :: course e.after steps

theorem run_concat (field : InputField) (steps : List (Source × Step)) (met : Source × Step) :
    field.run (steps ++ [met]) = Episode.after ⟨field.run steps, met.1, met.2⟩ :=
  List.foldl_append

theorem course_concat (field : InputField) (steps : List (Source × Step)) (met : Source × Step) :
    field.course (steps ++ [met]) = field.course steps ++ [⟨field.run steps, met.1, met.2⟩] := by
  induction steps generalizing field with
  | nil => rfl
  | cons first steps ih => exact congrArg (_ :: ·) (ih _)

/-- A course has left a request open: the last step that asked for completions was offered some, and
nothing has been accepted or dismissed since. -/
def Stands (course : List Episode) (query : Text) (anchor : Int) (candidates : List Completion) :
    Prop :=
  ∃ earlier asking since, course = earlier ++ asking :: since ∧
    asking.Asks query anchor ∧ asking.source query = candidates ∧ candidates ≠ [] ∧
    ∀ e ∈ since, ¬ e.Triggers ∧ ¬ e.Settles

section Stands

variable {past : List Episode} {e : Episode}

/-- The step at the end decides, or leaves it to the steps before. -/
theorem stands_concat :
    Stands (past ++ [e]) query anchor candidates ↔
      (e.Asks query anchor ∧ e.source query = candidates ∧ candidates ≠ []) ∨
        Stands past query anchor candidates ∧ ¬ e.Triggers ∧ ¬ e.Settles := by
  constructor
  · rintro ⟨earlier, asking, since, split, asks, offers, some, quiet⟩
    -- The step at the end is the one that asked, or one of the quiet ones behind it.
    induction since using List.reverseRecOn with
    | nil =>
      obtain ⟨-, same⟩ := List.append_inj' split rfl
      cases same
      exact .inl ⟨asks, offers, some⟩
    | append_singleton since last =>
      rw [← List.cons_append, ← List.append_assoc] at split
      obtain ⟨rfl, same⟩ := List.append_inj' split rfl
      cases same
      obtain ⟨before, now⟩ := List.forall_mem_append.mp quiet
      exact .inr ⟨⟨earlier, asking, since, rfl, asks, offers, some, before⟩,
        now e List.mem_cons_self⟩
  · rintro (⟨asks, offers, some⟩ | ⟨⟨earlier, asking, since, rfl, asks, offers, some, quiet⟩, now⟩)
    · exact ⟨past, e, [], rfl, asks, offers, some, by simp⟩
    · refine ⟨earlier, asking, since ++ [e], by simp, asks, offers, some, ?_⟩
      exact List.forall_mem_append.mpr ⟨quiet, by simpa using now⟩

/-- Nothing stands behind a step that settled what was pending, until the next one that asks. -/
theorem not_stands_of_settles {since : List Episode} (settles : e.Settles)
    (quiet : ∀ e ∈ since, ¬ e.Triggers) :
    ¬ Stands (past ++ e :: since) query anchor candidates := by
  induction since using List.reverseRecOn with
  | nil =>
    rw [stands_concat]
    rintro (⟨asks, -⟩ | ⟨-, -, stays⟩)
    · exact Episode.not_settles_of_asks asks settles
    · exact stays settles
  | append_singleton since last ih =>
    obtain ⟨before, now⟩ := List.forall_mem_append.mp quiet
    rw [← List.cons_append, ← List.append_assoc, stands_concat]
    rintro (⟨asks, -⟩ | ⟨stands, -⟩)
    · exact now last List.mem_cons_self ⟨_, _, asks⟩
    · exact ih before stands

end Stands

/-- **What is pending is what stands.** -/
theorem awaits_iff_stands (editor : Editor) (steps : List (Source × Step)) :
    (run ⟨editor, none⟩ steps).Awaits query anchor candidates ↔
      Stands (course ⟨editor, none⟩ steps) query anchor candidates := by
  induction steps using List.reverseRecOn generalizing query anchor candidates with
  | nil => simp [Awaits, Stands, run, course]
  | append_singleton steps met ih =>
    rw [run_concat, course_concat, stands_concat, ← ih]
    exact Episode.awaits_after_iff

/-- Two completions are not put in but with a trigger in between. -/
theorem exists_triggers_between (editor : Editor) (steps : List (Source × Step))
    {earlier between later : List Episode} {first last : Episode}
    (split : course ⟨editor, none⟩ steps = earlier ++ first :: (between ++ last :: later))
    (putsIn : first.PutsIn) (putsIn' : last.PutsIn) : ∃ e ∈ between, e.Triggers := by
  induction steps using List.reverseRecOn generalizing later with
  | nil => simp [course] at split
  | append_singleton steps met ih =>
    rw [course_concat] at split
    induction later using List.reverseRecOn with
    | append_singleton later final _ =>
      simp only [← List.cons_append, ← List.append_assoc] at split
      obtain ⟨same, -⟩ := List.append_inj' split rfl
      exact ih (by simpa using same)
    | nil =>
      -- What the last step puts in was pending, so it stands, and the first step has settled it.
      rw [← List.cons_append, ← List.append_assoc] at split
      obtain ⟨past, same⟩ := List.append_inj' split rfl
      obtain ⟨query, anchor, candidates, awaits⟩ := putsIn'.awaits
      cases same
      rw [awaits_iff_stands, past] at awaits
      by_contra none
      obtain ⟨acceptance, splice, accepts, -⟩ := putsIn
      exact not_stands_of_settles (.inr ⟨acceptance, accepts⟩) (by simpa using none) awaits

/-- Whoever chooses a completion accepts it, and is not refused. -/
theorem perform_of_chooses {completion : Completion} (chooses : field.Chooses step completion) :
    field.perform source step = (field.accept completion).turn := by
  obtain rfl | ⟨rfl, request, pending, selected⟩ := chooses
  · rfl
  · exact perform_acceptSelected_of_ok (acceptSelected_of_ok pending selected)

/-- **Requests are applied once, and accepting is all or nothing.** After any steps from a field
with nothing pending:

* a request is pending exactly when the last step that asked was offered something and nothing was
  accepted or dismissed since, and it has the query, the anchor and the candidates of that step;
* between any two completions that were put into the text there was a trigger, and nothing but that
  and the user's own edits has changed the text or the cursor;
* accepting a completion leaves nothing pending, and either puts it into the text at the anchor that
  stood, with the cursor behind it, or changes neither text nor cursor;
* accepting a selection that names no candidate is refused, and the turn that is refused holds the
  field as it was and has asked and noted nothing. -/
theorem requests_applied_once (editor : Editor) (steps : List (Source × Step)) :
    let past := course ⟨editor, none⟩ steps
    let field := run ⟨editor, none⟩ steps
    let text := field.editor.text
    (∀ query anchor candidates,
      field.Awaits query anchor candidates ↔ Stands past query anchor candidates) ∧
    (∀ earlier first between last later,
      past = earlier ++ first :: (between ++ last :: later) →
        first.PutsIn → last.PutsIn → ∃ e ∈ between, e.Triggers) ∧
    (∀ e ∈ past, e.after.editor ≠ e.field.editor → e.step.Edits ∨ e.PutsIn) ∧
    (∀ source step completion, field.Chooses step completion →
      let turn := field.perform source step
      turn.field.pending = none ∧
        ((∃ query anchor candidates splice, Stands past query anchor candidates ∧
            (completion.fit text anchor).1 = some splice ∧
            turn.answer = .splice (some splice) ∧
            turn.field.editor =
              ⟨splice.apply text, splice.start + completion.insertText.length⟩) ∨
          turn.answer = .splice none ∧ turn.field.editor = field.editor ∧
            ∀ query anchor candidates, Stands past query anchor candidates →
              (completion.fit text anchor).1 = none)) ∧
    ∀ source request, field.pending = some request →
      request.index < -request.candidates.length ∨ request.candidates.length ≤ request.index →
        ∃ fault ∈ Request.outOfRange,
          field.perform source .acceptSelected = { field, answer := .refused fault } ∧
            Episode.after ⟨field, source, .acceptSelected⟩ = field := by
  intro past field text
  have stands : ∀ query anchor candidates,
      field.Awaits query anchor candidates ↔ Stands past query anchor candidates :=
    fun _ _ _ => awaits_iff_stands editor steps
  refine ⟨stands, fun _ _ _ _ _ split => exists_triggers_between editor steps split,
    fun e _ => e.edits_or_putsIn, fun source step completion chooses => ?_,
    fun source request pending range => ?_⟩
  · rw [perform_of_chooses chooses]
    refine ⟨accept_pending field completion, ?_⟩
    obtain ⟨request, splice, pending, fits, made, put⟩ | ⟨made, left, fits⟩ :=
      field.accept_or_leave completion
    · have awaits : field.Awaits request.query request.anchor request.candidates :=
        ⟨request.index, pending⟩
      exact .inl ⟨_, _, _, splice, (stands ..).mp awaits, fits, congrArg Answer.splice made, put⟩
    · refine .inr ⟨congrArg Answer.splice made, left, fun query anchor candidates standing => ?_⟩
      obtain ⟨index, pending⟩ := (stands ..).mpr standing
      exact fits _ pending
  · obtain ⟨fault, mem, selected⟩ := Request.selected_of_out_of_range range
    have refused : field.perform source .acceptSelected = field.refuse fault :=
      perform_acceptSelected_of_error (acceptSelected_of_error pending selected)
    have left : Episode.after ⟨field, source, .acceptSelected⟩ = field := by
      rw [Episode.after, refused]
      rfl
    exact ⟨fault, mem, refused, left⟩

end InputField

end LineConsole
