import LineConsole.Proofs.Reading.Arrival

/-!
# Pulling lines and characters

A single reader makes a list of pulls, each for a line or for a character, while text arrives in
pieces and the stream is closed at some time. What it is answered depends on the text alone: not on
how the text was cut into pieces, and not on which pulls had to wait for it. A CR LF is one break
wherever it was cut, also when its CR has already ended a line and its LF comes with a later piece.

## Main definitions

* `Pull` — a line, or one character
* `Pull.program` — a list of pulls as a reading program
* `Pull.answers` — the answers from a text that is all there

## Main results

* `answers_of_arrival` — the answers are those from the text in one piece
-/

namespace LineConsole

open Text Program

/-- What a reader asks for. -/
inductive Pull where
  | readLine
  | readChar
deriving DecidableEq, Repr

namespace Pull

/-- The demand of a pull. -/
def demand : Pull → Demand
  | readLine => .line
  | readChar => .chars 1

/-- A reader that makes its pulls in order and notes the answers. -/
def program : Program (List Pull) (Option Text) where
  asks pulls := pulls.head?.map fun pull => { demand := pull.demand }
  receive pulls result := (pulls.tail, [result])

/-- The answers to pulls from a text that is all there. -/
def answers : List Pull → Text → List (Option Text)
  | [], _ => []
  | pull :: pulls, t =>
    (pull.demand.read t).1 :: answers pulls (pull.demand.read t).2

theorem demand_timeless (pull : Pull) : pull.demand.Timeless := by
  cases pull with
  | readLine => exact .line
  | readChar => exact .char

theorem program_timeless : program.Timeless fun _ => True where
  asks {pulls ask} _ h := by
    cases pulls with
    | nil => simp [program] at h
    | cons pull pulls =>
      obtain rfl : { demand := pull.demand } = ask := by simpa [program] using h
      exact ⟨rfl, pull.demand_timeless⟩
  receive _ _ := trivial

theorem length_answers (pulls : List Pull) (t : Text) :
    (answers pulls t).length = pulls.length := by
  induction pulls generalizing t with
  | nil => rfl
  | cons pull pulls ih => simp [answers, ih]

/-- A break that is a CR LF ends one line, and the next pull is answered from behind it. -/
theorem answers_crlf {line : Text} (h : line.Unbroken) (pulls : List Pull) (rest : Text) :
    answers (.readLine :: pulls) (line ++ '\r' :: '\n' :: rest) =
      some line :: answers pulls rest := by
  have found : cut (line ++ '\r' :: '\n' :: rest) = some (line, rest) :=
    cut_eq_some_iff.mpr ⟨_, h, .crlf, by simp⟩
  simp [answers, demand, Demand.read, found]

theorem pursue_nil (done : List (Option Text)) (t : Text) :
    program.pursue ⟨[], done, t⟩ = ⟨[], done, t⟩ := rfl

theorem pursue_cons (pull : Pull) (pulls : List Pull) (done : List (Option Text))
    (t : Text) :
    program.pursue ⟨pull :: pulls, done, t⟩ =
      ⟨pulls, done ++ [(pull.demand.read t).1], (pull.demand.read t).2⟩ := rfl

/-- So many answers to a reader of a text that is all there. -/
theorem done_iterate_pursue (pulls : List Pull) (n : Nat) (done : List (Option Text))
    (t : Text) :
    (program.pursue^[n] ⟨pulls, done, t⟩).done = done ++ (answers pulls t).take n := by
  induction n generalizing pulls done t with
  | zero => simp
  | succ n ih =>
    rw [Function.iterate_succ_apply]
    cases pulls with
    | nil => rw [pursue_nil, ih]; simp [answers]
    | cons pull pulls => rw [pursue_cons, ih]; simp [answers]

/-- The answers given to pulls by the time the stream is closed and the reader has taken some
turns more. -/
def answered (s : InputStream) (thread : ThreadId) (pulls : List Pull) (beats : List Beat)
    (turns : Nat) : List (Option Text) :=
  ((program.proceed thread)^[turns]
    (program.play thread ⟨s, pulls, []⟩ beats).close).done

/-- After the close there are at least as many answers as turns, and all are those from the whole
text. -/
theorem answered_eq_take {s : InputStream} {thread : ThreadId} (fresh : s.Fresh thread)
    (pulls : List Pull) (beats : List Beat) :
    ∃ k, ∀ turns, answered s thread pulls beats turns =
      (answers pulls (beats.flatMap Beat.text)).take (turns + k) := by
  obtain ⟨attends, ok, closed, k, studied⟩ :=
    play_close_study program_timeless trivial fresh beats
  refine ⟨k, fun turns => ?_⟩
  have done := congrArg Study.done
    (proceed_closed_study program_timeless ok attends closed turns)
  rwa [studied, ← Function.iterate_add_apply, done_iterate_pursue, List.nil_append] at done

/-- **The answers do not depend on arrival.** However the text is cut into pieces, and whichever
pulls wait for it, the answers are those to the same pulls when the text came in one piece and
the stream was closed before the first of them; they are never others on the way there, and all
have come when the reader has taken a turn for each pull. These are the answers from the text as
a whole, where a CR LF is one break that no pull sees again. -/
theorem answers_of_arrival {s : InputStream} {thread : ThreadId} (fresh : s.Fresh thread)
    (pulls : List Pull) (beats : List Beat) :
    let text := beats.flatMap Beat.text
    let whole := answered s thread pulls [.append text] pulls.length
    (∀ extra, answered s thread pulls beats (pulls.length + extra) = whole) ∧
      (∀ turns, answered s thread pulls beats turns <+: whole) ∧
      (program.play thread ⟨s, pulls, []⟩ beats).done <+: whole ∧
      whole = answers pulls text ∧
      ∀ line rest more, Unbroken line →
        answers (.readLine :: more) (line ++ '\r' :: '\n' :: rest) =
          some line :: answers more rest := by
  intro text whole
  have all_of_le (n : Nat) (h : pulls.length ≤ n) :
      (answers pulls text).take n = answers pulls text :=
    List.take_of_length_le (by rwa [length_answers])
  obtain ⟨k, piecewise⟩ := answered_eq_take fresh pulls beats
  obtain ⟨k', atOnce⟩ := answered_eq_take fresh pulls [.append text]
  have whole_eq : whole = answers pulls text := by
    simp only [whole, atOnce]
    simpa [Beat.text] using all_of_le (pulls.length + k') (by omega)
  refine ⟨fun extra => ?_, fun turns => ?_, ?_, whole_eq, fun line rest more h =>
    answers_crlf h more rest⟩
  · rw [piecewise, whole_eq]
    exact all_of_le _ (by omega)
  · rw [piecewise, whole_eq]
    exact List.take_prefix _ _
  -- What was answered before the close is what no turn behind it adds to.
  · have now : (program.play thread ⟨s, pulls, []⟩ beats).done =
        (answers pulls text).take (0 + k) := piecewise 0
    rw [now, whole_eq]
    exact List.take_prefix _ _

/-- The CR of a CR LF ends the line that was waited for, the LF comes later, and the character asked
for is the one behind it. -/
theorem answers_of_cut_crlf :
    ({} : InputStream).Fresh "reader" ∧
      answered {} "reader" [.readLine, .readChar]
          [.turn, .append ['a', '\r'], .turn, .append ['\n', 'b']] 2 =
        [some ['a'], some ['b']] := by
  refine ⟨InputStream.fresh_new _, ?_⟩
  obtain ⟨all, -, -, whole, crlf⟩ := answers_of_arrival (InputStream.fresh_new "reader")
    [.readLine, .readChar] [.turn, .append ['a', '\r'], .turn, .append ['\n', 'b']]
  have cut := crlf ['a'] ['b'] [.readChar] (by simp)
  exact (all 0).trans (whole.trans cut)

end Pull

end LineConsole
