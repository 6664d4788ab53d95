import LineConsole.Panel.Popup
import LineConsole.Proofs.InputStream.Renewal
import LineConsole.Proofs.Panel.Run

/-!
# A cleared panel is a new panel

Clearing empties the output pane and the input line, drops the popup and resets the stream. Here it
is shown that nothing else is left of the past: from then on the panel does whatever a new panel
does that has the same prompt and trigger key, as long as nobody was reading. Only the status line
says that the panel was cleared, where that of the new panel says nothing yet.

The panel is taken from occasion to occasion. An occasion is a step on the panel, with the source of
completions it meets, or a section of somebody at the stream behind it, so that readers may come and
go at any point.

## Main definitions

* `Panel.Occasion`, `Panel.meet` — what happens to a panel, and what becomes of it
* `Panel.Heard`, `Panel.Sight`, `Panel.record` — what is heard and seen on each occasion
* `Panel.Like` — two panels differ in the stream at most, and in what the status line owes to a
  reset
* `Panel.Anew` — a panel that was cleared and used, and a new one that was used in the same way

## Main results

* `Panel.perform_like` — a step is the same on like panels
* `Panel.Anew.meet` — so is every occasion, and the same is heard and seen
* `Panel.clear_is_full_reset` — so everything is the same after a clear
-/

namespace LineConsole

open InputStream (endings)

/-- What a status line shows after a reset, where it would show the status without one. -/
def Status.sinceClear : Status → Status
  | .blank => .cleared
  | status => status

namespace Panel

variable {panel used new : Panel} {source : Source} {step : Panel.Step} {turn : Panel.Turn}

/-! ## What happens, and what is seen of it -/

/-- What happens to a panel: a step on it, which meets a source of completions, or a section of
somebody at the stream behind it. -/
inductive Occasion where
  | onPanel (source : Source) (step : Step)
  | onStream (action : InputStream.Action)

/-- The panel after an occasion. A step that is refused leaves it as it is. -/
def meet (panel : Panel) : Occasion → Panel
  | .onPanel source step =>
    match panel.perform source step with
    | .ok turn => turn.panel
    | .error _ => panel
  | .onStream action => { panel with stdin := (panel.stdin.perform action).1 }

/-- What is heard on an occasion. -/
inductive Heard where
  | refused (fault : Fault)
  /-- What a step asked the source, and the warnings it gave. -/
  | taken (queries : List Text) (warnings : List Completion.Warning)
  /-- The reads that ended, with their results. -/
  | ended (reads : List (ThreadId × Option Text))
deriving DecidableEq

/-- What is heard of a panel on an occasion. -/
def hear (panel : Panel) : Occasion → Heard
  | .onPanel source step =>
    match panel.perform source step with
    | .ok turn => .taken turn.queries turn.warnings
    | .error fault => .refused fault
  | .onStream action => .ended (endings (panel.stdin.perform action).2)

/-- What is seen of a panel. -/
structure Sight where
  prompt : Prompt
  status : Status
  output : Text
  editor : Editor
  popup : List Popup.Fragment
  request : Option Request
  reading : ThreadId → Bool
  available : Nat
  gate : InputStream.Gate

/-- What is seen of a panel now. -/
def sight (panel : Panel) : Sight where
  prompt := panel.prompt
  status := panel.status
  output := panel.output
  editor := panel.field.editor
  popup := panel.popup
  request := panel.field.pending
  reading := panel.stdin.isReading
  available := panel.stdin.available
  gate := panel.stdin.gate

/-- The same, where the status line may tell of a reset. -/
def Sight.sinceClear (sight : Sight) : Sight := { sight with status := sight.status.sinceClear }

/-- What is heard on each occasion of a course, and what is seen after it. -/
def record (panel : Panel) : List Occasion → List (Heard × Sight)
  | [] => []
  | occasion :: later =>
    (panel.hear occasion, (panel.meet occasion).sight) :: (panel.meet occasion).record later

/-! ## Steps -/

/-- Two panels differ in the stream at most, and in what the status line owes to a reset. -/
def Like (used new : Panel) : Prop :=
  ∃ stdin, used = { new with status := new.status.sinceClear, stdin }

/-- What came of a step on two panels: on both it was refused, or on both it was taken, with the
same queries and warnings, and they are like each other. -/
inductive Alike : Except Fault Turn → Except Fault Turn → Prop
  | refused (fault : Fault) : Alike (.error fault) (.error fault)
  | taken {turn turn' : Turn} : turn.panel.Like turn'.panel → turn.queries = turn'.queries →
      turn.warnings = turn'.warnings → Alike (.ok turn) (.ok turn')

theorem Like.foldl_submit (h : used.Like new) (list : List Text) :
    (list.foldl submit used).Like (list.foldl submit new) := by
  induction list generalizing used new with
  | nil => exact h
  | cons line list ih =>
    obtain ⟨stdin, rfl⟩ := h
    exact ih ⟨_, rfl⟩

theorem Like.paste (h : used.Like new) (data : Text) : (used.paste data).Like (new.paste data) := by
  have field : used.field = new.field := by
    obtain ⟨stdin, rfl⟩ := h
    rfl
  let pieces :=
    (new.field.editor.before ++ data.normalizeBreaks ++ new.field.editor.after).splitOn '\n'
  obtain ⟨stdin, same⟩ := h.foldl_submit pieces.dropLast
  simp only [Panel.paste, field]
  rw [same]
  exact ⟨stdin, rfl⟩

/-- **A step is the same on like panels.** -/
theorem perform_like (h : used.Like new) (source : Source) (step : Step) :
    Alike (used.perform source step) (new.perform source step) := by
  cases step with
  | paste data => exact .taken (h.paste data) rfl rfl
  | type | moveTo | commit | dismiss | clear | close | endInput | writeLine | setPrompt | build =>
    obtain ⟨stdin, rfl⟩ := h
    exact .taken ⟨_, rfl⟩ rfl rfl
  | place text cursor =>
    obtain ⟨stdin, rfl⟩ := h
    simp only [Panel.perform]
    cases Editor.place text (cursor.getD text.length) with
    | error fault => exact .refused fault
    | ok editor => exact .taken ⟨_, rfl⟩ rfl rfl
  | write texts =>
    obtain ⟨stdin, rfl⟩ := h
    simp only [Panel.perform, foldl_write]
    exact .taken ⟨_, rfl⟩ rfl rfl
  | openPopup =>
    obtain ⟨stdin, rfl⟩ := h
    refine .taken ?_ rfl rfl
    simp only [openPopup]
    split <;> exact ⟨_, rfl⟩
  | move offset =>
    obtain ⟨stdin, rfl⟩ := h
    refine .taken ?_ rfl rfl
    simp only [move]
    split <;> exact ⟨_, rfl⟩
  | accept =>
    obtain ⟨stdin, rfl⟩ := h
    simp only [Panel.perform, accept]
    split
    · exact .taken ⟨_, rfl⟩ rfl rfl
    · cases new.field.acceptSelected with
      | error fault => exact .refused fault
      | ok acceptance =>
        refine .taken ?_ rfl rfl
        dsimp only
        split <;> exact ⟨_, rfl⟩

/-! ## Courses -/

/-- The occasion can come after a panel was cleared when nobody read its stream. -/
def Occasion.Renews : Occasion → Prop
  | .onPanel _ _ => True
  | .onStream action => InputStream.Renews action

/-- What a step does to the stream can come after a reset. -/
theorem renews_of_mem_sections {action : InputStream.Action} (mem : action ∈ panel.sections step) :
    InputStream.Renews action := by
  cases step with
  | clear | close | endInput =>
    cases List.mem_singleton.mp mem
    trivial
  | _ =>
    obtain ⟨line, -, rfl⟩ := List.mem_map.mp mem
    trivial

/-- A panel that was cleared and that has been used since, and a new panel that has been used in the
same way. -/
structure Anew (resets : Nat) (used new : Panel) : Prop where
  like : used.Like new
  stdin : InputStream.Renewed resets used.stdin new.stdin

namespace Anew

variable {resets : Nat}

/-- What is seen of the panels is the same, but for what the status line owes to the reset. -/
theorem sight (h : Anew resets used new) : used.sight = new.sight.sinceClear := by
  have reading := funext h.stdin.isReading_eq
  have buffer := h.stdin.buffer
  have gate := h.stdin.gate
  -- The streams differ as such, so what is seen of them is compared, and the rest is like.
  obtain ⟨stdin, rfl⟩ := h.like
  simp only at reading buffer gate
  simp only [Panel.sight, Sight.sinceClear, Panel.popup, InputStream.available, reading, buffer,
    gate]

/-- **On every occasion** the same is heard, and the panels stay alike. -/
theorem meet (h : Anew resets used new) {occasion : Occasion}
    (renews : occasion.Renews) :
    Anew resets (used.meet occasion) (new.meet occasion) ∧
      used.hear occasion = new.hear occasion := by
  cases occasion with
  | onStream action =>
    obtain ⟨stdin, endings⟩ := h.stdin.perform renews
    refine ⟨⟨?_, stdin⟩, congrArg Heard.ended endings⟩
    obtain ⟨stdin, rfl⟩ := h.like
    exact ⟨_, rfl⟩
  | onPanel source step =>
    have sections : used.sections step = new.sections step := by
      obtain ⟨stdin, rfl⟩ := h.like
      cases step <;> rfl
    have alike := perform_like h.like source step
    simp only [Panel.meet, hear]
    generalize performed : used.perform source step = outcome at alike ⊢
    generalize performed' : new.perform source step = outcome' at alike ⊢
    cases alike with
    | refused fault => exact ⟨h, rfl⟩
    | taken like queries warnings =>
      refine ⟨⟨like, ?_⟩, congrArg₂ Heard.taken queries warnings⟩
      rw [stdin_of_perform performed, stdin_of_perform performed', sections]
      exact h.stdin.run fun action mem => renews_of_mem_sections mem

/-- So it is throughout a course. -/
theorem record (h : Anew resets used new) {later : List Occasion}
    (renews : ∀ occasion ∈ later, occasion.Renews) :
    used.record later =
      (new.record later).map fun (heard, sight) => (heard, sight.sinceClear) := by
  induction later generalizing used new with
  | nil => rfl
  | cons occasion later ih =>
    obtain ⟨first, rest⟩ := List.forall_mem_cons.mp renews
    obtain ⟨anew, heard⟩ := h.meet first
    simp only [Panel.record, List.map_cons, heard, anew.sight, ih anew rest]

end Anew

/-- **Clearing is a full reset.** Take a panel, whatever has happened to it, at a moment at which
nobody reads, and clear it. Compare it with a new panel that has its prompt and its trigger key, for
which the same handles are cancelled, if any are: they belong to those who read. Whatever happens
later to both, steps that meet the same completions and reads through whatever handles, the same is
heard on every occasion: faults, queries, warnings and the reads that end. And the same is seen at
the start and after every occasion: prompt, output, input, cursor, popup and request, who reads, how
much is there to read, and whether the stream is open. Only the status line may say that the panel
was cleared, while that of the new panel is still blank. -/
theorem clear_is_full_reset (panel : Panel) (nobody : panel.stdin.calls = []) :
    let new : Panel := { prompt := panel.prompt, trigger := panel.trigger,
                         stdin := { cancelled := panel.stdin.cancelled } }
    panel.clear.sight = new.sight.sinceClear ∧
      ∀ later : List Occasion, (∀ occasion ∈ later, occasion.Renews) →
        panel.clear.record later =
          (new.record later).map fun (heard, sight) => (heard, sight.sinceClear) := by
  intro new
  have anew : Anew (panel.stdin.epoch + 1) panel.clear new :=
    ⟨⟨panel.stdin.clear.1, rfl⟩, InputStream.renewed_clear nobody⟩
  exact ⟨anew.sight, fun later renews => anew.record renews⟩

/-- A closed panel is cleared with a line unread, with text on both sides of the cursor, with the
popup open and after a handle was cancelled. A thread goes to read, and is given the next line;
another tries the cancelled handle, and is given nothing. -/
theorem clear_is_full_reset_of_closed :
    let source : Source := fun query => [{ label := query, insertText := ['!'] }]
    let earlier := [.onPanel source (.paste "1\n23".toList), .onPanel source (.moveTo 1),
      .onPanel source .openPopup, .onStream (.flag "late"), .onPanel source .close]
    let panel := earlier.foldl meet { prompt := .missing }
    let later := [.onStream (.start "reader" .line none), .onPanel source (.type ['x']),
      .onStream (.start "other" .line (some "late")), .onPanel source .openPopup,
      .onPanel source .accept, .onPanel source .commit, .onStream (.resume "reader")]
    let new : Panel := { prompt := .missing, stdin := { cancelled := [.named "late"] } }
    panel.stdin.calls = [] ∧ panel.stdin.isClosed = true ∧ panel.field.pending.isSome = true ∧
      panel.field.editor = ⟨['2', '3'], 1⟩ ∧ panel.output = "[]1\n".toList ∧
      (panel.clear.record later).map Prod.fst = [.ended [], .taken [] [], .ended [("other", none)],
        .taken [['x']] [], .taken [] [], .taken [] [], .ended [("reader", some ['x', '!'])]] ∧
      panel.clear.record later =
        (new.record later).map fun (heard, sight) => (heard, sight.sinceClear) := by
  intro source earlier panel later new
  have nobody : panel.stdin.calls = [] := by decide
  have renews : ∀ occasion ∈ later, occasion.Renews := by
    simp [later, Occasion.Renews, InputStream.Renews]
  have same := (clear_is_full_reset panel nobody).2 later renews
  exact ⟨nobody, by decide, by decide, by decide, by decide, by decide, same⟩

end Panel

end LineConsole
