import Mathlib.Data.List.Induction
import Mathlib.Data.List.Nodup
import Mathlib.Logic.Function.Basic
import LineConsole.Proofs.InputStream.Desk

/-!
# A ledger of every character

The notes taken at the desk are entered in a ledger: each character that was taken, with what became
of it and the read that took it, and each read that ended, with its result. A read is known by its
thread and its number among the reads of that thread, so no two reads share an entry.

The ledger is in order in two respects that do not meddle with each other. `Stocked` compares it
with the stream: what was accepted is what was taken and what is buffered, and an LF is skipped just
behind a CR that ended a line. `Booked` compares it with the reads: what a read returned or holds is
what is entered for it. Each posting keeps both.

## Main definitions

* `ReadId`, `Entry`, `Receipt`, `Ledger`, `Ledger.post`, `Ledger.tally` — the ledger and its entries
* `Orderly`, `behindCR` — when an LF is to be skipped
* `Ledger.Stocked`, `Ledger.Booked` — a ledger in order

## Main results

* `orderly_iff` — an LF is skipped exactly behind a CR that ended a line
* `Stocked.take` — a turn keeps the stock
* `Booked.begin`, `Booked.take`, `Booked.finish` — the life of a read keeps the books
-/

namespace LineConsole

open InputStream

/-- A read is known by its thread and its number among the reads of the thread. -/
structure ReadId where
  thread : ThreadId
  ordinal : Nat
deriving DecidableEq, Repr

/-- A character that was taken, what became of it, and the read that took it. -/
structure Entry where
  char : Char
  use : Use
  read : ReadId
deriving DecidableEq, Repr

/-- A character and what became of it. -/
def Entry.pair (entry : Entry) : Char × Use := (entry.char, entry.use)

/-- A read that has ended, what it asked for, and its result. -/
structure Receipt where
  read : ReadId
  demand : Demand
  result : Option Text
deriving DecidableEq, Repr

/-- What is known of a stream from the notes taken at its desk. -/
structure Ledger where
  /-- How many reads each thread has begun. -/
  begun : ThreadId → Nat := fun _ => 0
  /-- The text accepted since the last reset. -/
  accepted : Text := []
  /-- The characters taken since the last reset. -/
  popped : List Entry := []
  /-- The characters taken before. -/
  earlier : List Entry := []
  /-- The reads that have ended. -/
  receipts : List Receipt := []

namespace Ledger

/-- The read that a thread began last. -/
def current (ledger : Ledger) (thread : ThreadId) : ReadId := ⟨thread, ledger.begun thread⟩

/-- Every character that was ever taken. -/
def entries (ledger : Ledger) : List Entry := ledger.earlier ++ ledger.popped

/-- The text that was kept for a read. -/
def text (ledger : Ledger) (read : ReadId) : Text :=
  (ledger.entries.filter fun entry => entry.use = .kept ∧ entry.read = read).map Entry.char

/-- The reads that have ended. -/
def finished (ledger : Ledger) : List ReadId := ledger.receipts.map Receipt.read

/-- The reads that ended with a break, once for each break. -/
def breakers (ledger : Ledger) : List ReadId :=
  (ledger.entries.filter fun entry => entry.use = .broke).map Entry.read

/-- The entries for characters that a thread's read has taken. -/
def enter (ledger : Ledger) (thread : ThreadId) (taken : List (Char × Use)) : List Entry :=
  taken.map fun pair => ⟨pair.1, pair.2, ledger.current thread⟩

/-- Enters what was noted. -/
def post (ledger : Ledger) : Desk.Mark → Ledger
  | .began thread =>
    { ledger with begun := Function.update ledger.begun thread (ledger.begun thread + 1) }
  | .took thread taken =>
    { ledger with popped := ledger.popped ++ ledger.enter thread taken }
  | .ended thread demand result =>
    { ledger with receipts := ledger.receipts ++ [⟨ledger.current thread, demand, result⟩] }
  | .accepted text => { ledger with accepted := ledger.accepted ++ text }
  | .emptied =>
    { ledger with accepted := [], popped := [], earlier := ledger.earlier ++ ledger.popped }

/-- Enters a list of notes. -/
def tally (ledger : Ledger) (marks : List Desk.Mark) : Ledger := marks.foldl post ledger

@[simp] theorem tally_nil (ledger : Ledger) : ledger.tally [] = ledger := rfl

@[simp] theorem tally_cons (ledger : Ledger) (mark : Desk.Mark) (marks : List Desk.Mark) :
    ledger.tally (mark :: marks) = (ledger.post mark).tally marks := rfl

theorem tally_append (ledger : Ledger) (marks later : List Desk.Mark) :
    ledger.tally (marks ++ later) = (ledger.tally marks).tally later :=
  List.foldl_append

end Ledger

/-! ## Skipping an LF -/

/-- Whether an LF that comes next is to be skipped: the last character taken is a CR that ended a
line, or nothing was taken and it was so before. -/
def behindCR (skip : Bool) : List (Char × Use) → Bool
  | [] => skip
  | pair :: taken => behindCR (pair = ('\r', .broke)) taken

/-- An LF is skipped where it is to be skipped, and nothing else is. -/
def Orderly (skip : Bool) : List (Char × Use) → Prop
  | [] => True
  | pair :: taken =>
    (pair.2 = .skipped ↔ pair.1 = '\n' ∧ skip = true) ∧ Orderly (pair = ('\r', .broke)) taken

theorem behindCR_append (skip : Bool) (taken later : List (Char × Use)) :
    behindCR skip (taken ++ later) = behindCR (behindCR skip taken) later := by
  induction taken generalizing skip with
  | nil => rfl
  | cons pair taken ih => exact ih _

theorem orderly_append {skip : Bool} {taken later : List (Char × Use)} :
    Orderly skip (taken ++ later) ↔
      Orderly skip taken ∧ Orderly (behindCR skip taken) later := by
  induction taken generalizing skip with
  | nil => simp [Orderly, behindCR]
  | cons pair taken ih => simp only [List.cons_append, Orderly, behindCR, ih, and_assoc]

theorem behindCR_false_iff {taken : List (Char × Use)} :
    behindCR false taken = true ↔ taken.getLast? = some ('\r', .broke) := by
  induction taken using List.reverseRecOn with
  | nil => simp [behindCR]
  | append_singleton taken pair _ => simp [behindCR_append, behindCR]

/-- An LF is skipped exactly when the character before it is a CR that ended a line. -/
theorem orderly_iff {taken : List (Char × Use)} (h : Orderly false taken)
    {before after : List (Char × Use)} {pair : Char × Use}
    (split : taken = before ++ pair :: after) :
    pair.2 = .skipped ↔ pair.1 = '\n' ∧ before.getLast? = some ('\r', .broke) := by
  subst split
  rw [← behindCR_false_iff]
  exact (orderly_append.mp h).2.1

/-- A batch of characters may be kept when it does not start with an LF that is to be skipped. -/
theorem orderly_batch {t : Text} {skip : Bool} (h : skip = true → t.head? ≠ some '\n') :
    Orderly skip (t.map (·, .kept)) := by
  induction t generalizing skip with
  | nil => trivial
  | cons c t ih =>
    refine ⟨?_, ih (by simp)⟩
    simp only [reduceCtorEq, false_iff, not_and]
    intro hc skips
    exact h skips (by simp [hc])

theorem behindCR_batch {t : Text} (skip : Bool) (h : t ≠ []) :
    behindCR skip (t.map (·, .kept)) = false := by
  obtain ⟨c, t, rfl⟩ := List.exists_cons_of_ne_nil h
  have kept : behindCR false (t.map (·, .kept)) = false := by
    induction t with
    | nil => rfl
    | cons c t ih => simpa [behindCR] using ih (by simp)
  simpa [behindCR] using kept

namespace Demand

variable {demand : Demand} {skip : Bool} {c : Char} {rest : Text} {help : Helping}

/-- A turn takes characters from the front of the buffer. -/
theorem Turn.taken_append_rest (turn : demand.Turn skip c rest help) :
    help.taken.map Prod.fst ++ help.rest = c :: rest := by
  cases turn with
  | batch => simp [List.map_map, Function.comp_def, List.take_append_drop]
  | skip | crlf | cr | lf | plain => rfl

theorem Turn.orderly (turn : demand.Turn skip c rest help) : Orderly skip help.taken := by
  cases turn with
  | @batch size _ _ _ hfirst =>
    refine orderly_batch fun skips => ?_
    cases size <;> simp [hfirst skips]
  | skip | crlf | cr | lf => simp [Orderly]
  | plain hr hn => simp [Orderly, hn]

/-- A turn leaves an LF to be skipped when its last character is a CR that ended a line. -/
theorem Turn.behindCR (turn : demand.Turn skip c rest help) (asks : demand ≠ .chars 0) :
    LineConsole.behindCR skip help.taken = help.skipLF := by
  cases turn with
  | @batch size _ c rest =>
    refine behindCR_batch _ ?_
    cases size with
    | zero => exact absurd rfl asks
    | succ size => simp
  | skip | crlf | cr | lf => simp [LineConsole.behindCR]
  | plain => simp [LineConsole.behindCR]

/-- A turn breaks at most one line, and then it ends the read of that line. -/
theorem Turn.breaks (turn : demand.Turn skip c rest help) :
    help.taken.filter (fun pair => pair.2 = .broke) = [] ∨
      ∃ c, help.taken.filter (fun pair => pair.2 = .broke) = [(c, .broke)] ∧
        (c = '\r' ∨ c = '\n') ∧ demand = .line ∧ help.complete = true := by
  cases turn with
  | skip | plain => exact .inl rfl
  | batch =>
    refine .inl (List.filter_eq_nil_iff.mpr fun pair mem => ?_)
    obtain ⟨c, -, rfl⟩ := List.mem_map.mp mem
    simp
  | crlf | cr => exact .inr ⟨'\r', rfl, .inl rfl, rfl, rfl⟩
  | lf => exact .inr ⟨'\n', rfl, .inr rfl, rfl, rfl⟩

end Demand

namespace Ledger

variable {ledger : Ledger} {thread : ThreadId} {taken : List (Char × Use)}

/-! ## The ledger and the stream -/

/-- The ledger is in order with the stream: what was accepted since the last reset was taken or is
buffered, and each LF that was skipped, or is to be, is behind a CR that ended a line. -/
structure Stocked (buffer : Text) (skip : Bool) (ledger : Ledger) : Prop where
  conserved : ledger.accepted = ledger.popped.map Entry.char ++ buffer
  orderly : Orderly false (ledger.popped.map Entry.pair)
  skipping : behindCR false (ledger.popped.map Entry.pair) = skip

theorem stocked_new : Stocked [] false {} := ⟨rfl, trivial, rfl⟩

theorem Stocked.append {buffer : Text} {skip : Bool} (h : ledger.Stocked buffer skip)
    (text : Text) : (ledger.post (.accepted text)).Stocked (buffer ++ text) skip := by
  refine ⟨?_, h.orderly, h.skipping⟩
  simp only [post]
  rw [h.conserved, List.append_assoc]

theorem stocked_emptied (ledger : Ledger) : (ledger.post .emptied).Stocked [] false :=
  ⟨rfl, trivial, rfl⟩

/-- A turn keeps the stock. -/
theorem Stocked.take {demand : Demand} {skip : Bool} {c : Char} {rest : Text} {help : Helping}
    (h : ledger.Stocked (c :: rest) skip) (turn : demand.Turn skip c rest help)
    (asks : demand ≠ .chars 0) :
    (ledger.post (.took thread help.taken)).Stocked help.rest help.skipLF := by
  have pairs : (ledger.enter thread help.taken).map Entry.pair = help.taken := by
    simp [enter, Entry.pair, Function.comp_def]
  have chars : (ledger.enter thread help.taken).map Entry.char = help.taken.map Prod.fst := by
    simp [enter, Function.comp_def]
  refine ⟨?_, ?_, ?_⟩
  · simp only [post, List.map_append, chars]
    rw [h.conserved, List.append_assoc, turn.taken_append_rest]
  · simp only [post, List.map_append, pairs]
    exact orderly_append.mpr ⟨h.orderly, h.skipping ▸ turn.orderly⟩
  · simp only [post, List.map_append, pairs]
    rw [behindCR_append, h.skipping, turn.behindCR asks]

/-! ## The ledger and the reads -/

/-- The reads that have ended, and then those of the threads that hold something. -/
def reads (ledger : Ledger) (held : List (ThreadId × Text)) : List ReadId :=
  ledger.finished ++ held.map fun hold => ledger.current hold.1

/-- The ledger is in order with the reads. Beside each thread that reads stands what it holds. While
a read is about to end with a break, it is `broken`. -/
structure Booked (broken : Option ReadId) (held : List (ThreadId × Text)) (ledger : Ledger) :
    Prop where
  once : (ledger.reads held).Nodup
  numbered : ∀ read ∈ ledger.reads held, read.ordinal ≤ ledger.begun read.thread
  known : ∀ entry ∈ ledger.entries, entry.read ∈ ledger.reads held
  holds : ∀ hold ∈ held, hold.2 = ledger.text (ledger.current hold.1)
  paid : ∀ receipt ∈ ledger.receipts, receipt.result.getD [] = ledger.text receipt.read
  breaks : ∀ entry ∈ ledger.entries, entry.use = .broke →
    (entry.char = '\r' ∨ entry.char = '\n') ∧
      (some entry.read = broken ∨ ∃ receipt ∈ ledger.receipts, receipt.read = entry.read ∧
        receipt.demand = .line ∧ receipt.result.isSome = true)
  breakers : ledger.breakers.Nodup

theorem booked_new : Booked none [] {} := by
  constructor <;> simp [reads, finished, entries, breakers]

variable {broken : Option ReadId} {held : List (ThreadId × Text)}

/-- Postings that enter no character and no read keep the books. -/
theorem Booked.of_same {later : Ledger} (h : ledger.Booked broken held)
    (begun : later.begun = ledger.begun) (receipts : later.receipts = ledger.receipts)
    (entries : later.entries = ledger.entries) : later.Booked broken held := by
  have current (thread : ThreadId) : later.current thread = ledger.current thread := by
    simp [Ledger.current, begun]
  have reads : later.reads held = ledger.reads held := by
    simp [Ledger.reads, Ledger.finished, receipts, current]
  have text (read : ReadId) : later.text read = ledger.text read := by simp [Ledger.text, entries]
  obtain ⟨once, numbered, known, holds, paid, breaks, breakers⟩ := h
  constructor
  · rwa [reads]
  · rwa [reads, begun]
  · rwa [reads, entries]
  · simpa only [text, current] using holds
  · simpa only [receipts, text] using paid
  · rwa [entries, receipts]
  · rwa [Ledger.breakers, entries]

/-- The order in which the reads are listed does not matter. -/
theorem Booked.perm {held' : List (ThreadId × Text)} (h : ledger.Booked broken held)
    (perm : held.Perm held') : ledger.Booked broken held' := by
  have reads : (ledger.reads held).Perm (ledger.reads held') := (perm.map _).append_left _
  obtain ⟨once, numbered, known, holds, paid, breaks, breakers⟩ := h
  exact ⟨reads.nodup_iff.mp once, fun read mem => numbered read (reads.mem_iff.mpr mem),
    fun entry mem => reads.mem_iff.mp (known entry mem),
    fun hold mem => holds hold (perm.mem_iff.mpr mem), paid, breaks, breakers⟩

/-- A read that has taken nothing is kept nothing. -/
theorem text_eq_nil {read : ReadId} (h : ∀ entry ∈ ledger.entries, entry.read ≠ read) :
    ledger.text read = [] := by
  rw [text, List.map_eq_nil_iff, List.filter_eq_nil_iff]
  intro entry mem
  simp [h entry mem]

theorem current_post_began (reader : ThreadId) :
    (ledger.post (.began thread)).current reader =
      if reader = thread then ⟨thread, ledger.begun thread + 1⟩ else ledger.current reader := by
  by_cases h : reader = thread
  · subst h
    simp [post, current]
  · simp [post, current, h]

/-- A thread that does not read begins a read, which is a new one and holds nothing. -/
theorem Booked.begin (h : ledger.Booked none held) (idle : ∀ hold ∈ held, hold.1 ≠ thread) :
    (ledger.post (.began thread)).Booked none ((thread, []) :: held) := by
  have others : ∀ hold ∈ held,
      (ledger.post (.began thread)).current hold.1 = ledger.current hold.1 := fun hold mem => by
    rw [current_post_began, if_neg (idle hold mem)]
  -- Its number is above those given out, so nothing has been entered for it.
  have fresh : (⟨thread, ledger.begun thread + 1⟩ : ReadId) ∉ ledger.reads held := fun mem => by
    have bound : ledger.begun thread + 1 ≤ ledger.begun thread := h.numbered _ mem
    omega
  have reads : (ledger.post (.began thread)).reads ((thread, []) :: held) =
      ledger.finished ++
        ⟨thread, ledger.begun thread + 1⟩ :: held.map fun hold => ledger.current hold.1 := by
    rw [Ledger.reads, List.map_cons, current_post_began, if_pos rfl, List.map_congr_left others]
    rfl
  have perm : ((ledger.post (.began thread)).reads ((thread, []) :: held)).Perm
      (⟨thread, ledger.begun thread + 1⟩ :: ledger.reads held) := reads ▸ List.perm_middle
  constructor
  · exact perm.nodup_iff.mpr (List.nodup_cons.mpr ⟨fresh, h.once⟩)
  · intro read mem
    rcases List.mem_cons.mp (perm.mem_iff.mp mem) with rfl | mem
    · simp [post]
    · have bound := h.numbered read mem
      by_cases same : read.thread = thread
      · rw [same] at bound
        simp only [post, same, Function.update_self]
        omega
      · simpa [post, same] using bound
  · exact fun entry mem => perm.mem_iff.mpr (List.mem_cons_of_mem _ (h.known entry mem))
  · intro hold mem
    rcases List.mem_cons.mp mem with rfl | mem
    · rw [current_post_began, if_pos rfl]
      have new : ∀ entry ∈ ledger.entries, entry.read ≠ ⟨thread, ledger.begun thread + 1⟩ :=
        fun entry mem same => fresh (same ▸ h.known entry mem)
      exact (text_eq_nil new).symm
    · rw [others hold mem]
      exact h.holds hold mem
  · exact h.paid
  · exact h.breaks
  · exact h.breakers

theorem current_post_took (reader : ThreadId) :
    (ledger.post (.took thread taken)).current reader = ledger.current reader := rfl

theorem entries_post_took : (ledger.post (.took thread taken)).entries =
    ledger.entries ++ ledger.enter thread taken := by
  simp [post, entries, List.append_assoc]

/-- What a turn takes is kept for the read that takes it. -/
theorem text_post_took (read : ReadId) : (ledger.post (.took thread taken)).text read =
    if read = ledger.current thread then ledger.text read ++ keptText taken
    else ledger.text read := by
  rw [text, entries_post_took, List.filter_append, List.map_append]
  by_cases same : read = ledger.current thread
  · subst same
    simp [text, enter, keptText, List.filter_map, Function.comp_def]
  · have none : (ledger.enter thread taken).filter
        (fun entry => entry.use = .kept ∧ entry.read = read) = [] := by
      refine List.filter_eq_nil_iff.mpr fun entry mem => ?_
      obtain ⟨pair, -, rfl⟩ := List.mem_map.mp mem
      simp [Ne.symm same]
    rw [none, List.map_nil, List.append_nil, if_neg same, text]

theorem breakers_post_took : (ledger.post (.took thread taken)).breakers =
    ledger.breakers ++
      (taken.filter fun pair => pair.2 = .broke).map fun _ => ledger.current thread := by
  rw [breakers, entries_post_took, List.filter_append, List.map_append]
  simp [breakers, enter, List.filter_map, Function.comp_def]

/-- The read at the desk takes some characters. They may end a line, but one only, and then the read
must end. -/
theorem Booked.take {hold : Text} (h : ledger.Booked none ((thread, hold) :: held))
    (breaks : taken.filter (fun pair => pair.2 = .broke) = [] ∧ broken = none ∨
      ∃ c, taken.filter (fun pair => pair.2 = .broke) = [(c, .broke)] ∧
        (c = '\r' ∨ c = '\n') ∧ broken = some (ledger.current thread)) :
    (ledger.post (.took thread taken)).Booked broken
      ((thread, hold ++ keptText taken) :: held) := by
  obtain ⟨-, apart, disjoint⟩ := List.nodup_append.mp h.once
  have going : ledger.current thread ∉ ledger.finished := fun mem =>
    disjoint _ mem _ List.mem_cons_self rfl
  have others : ∀ hold ∈ held, ledger.current hold.1 ≠ ledger.current thread :=
    fun hold mem same => (List.nodup_cons.mp apart).1 (List.mem_map.mpr ⟨hold, mem, same⟩)
  -- So far every break belongs to a read that has ended.
  have settled : ∀ entry ∈ ledger.entries, entry.use = .broke →
      (entry.char = '\r' ∨ entry.char = '\n') ∧ ∃ receipt ∈ ledger.receipts,
        receipt.read = entry.read ∧ receipt.demand = .line ∧ receipt.result.isSome = true := by
    simpa using h.breaks
  constructor
  · exact h.once
  · exact h.numbered
  · intro entry mem
    rw [entries_post_took] at mem
    rcases List.mem_append.mp mem with mem | mem
    · exact h.known entry mem
    · obtain ⟨pair, -, rfl⟩ := List.mem_map.mp mem
      exact List.mem_append_right _ List.mem_cons_self
  · intro now mem
    rw [current_post_took, text_post_took]
    rcases List.mem_cons.mp mem with rfl | mem
    · rw [if_pos rfl]
      exact congrArg (· ++ keptText taken) (h.holds _ List.mem_cons_self)
    · rw [if_neg (others now mem)]
      exact h.holds now (List.mem_cons_of_mem _ mem)
  · intro receipt mem
    have other : receipt.read ≠ ledger.current thread := fun same =>
      going (same ▸ List.mem_map_of_mem mem)
    rw [text_post_took, if_neg other]
    exact h.paid receipt mem
  · intro entry mem broke
    rw [entries_post_took] at mem
    rcases List.mem_append.mp mem with mem | mem
    · exact (settled entry mem broke).imp_right .inr
    · obtain ⟨pair, inTaken, rfl⟩ := List.mem_map.mp mem
      have found : pair ∈ taken.filter fun pair => pair.2 = .broke :=
        List.mem_filter.mpr ⟨inTaken, by simpa using broke⟩
      rcases breaks with ⟨none, -⟩ | ⟨c, one, isBreak, ends⟩
      · simp [none] at found
      · rw [one, List.mem_singleton] at found
        subst found
        exact ⟨isBreak, .inl ends.symm⟩
  · rw [breakers_post_took]
    rcases breaks with ⟨none, -⟩ | ⟨c, one, -, -⟩
    · simpa [none] using h.breakers
    · have new : ledger.current thread ∉ ledger.breakers := fun mem => by
        obtain ⟨entry, inEntries, same⟩ := List.mem_map.mp mem
        obtain ⟨inEntries, broke⟩ := List.mem_filter.mp inEntries
        obtain ⟨-, receipt, inReceipts, read, -⟩ := settled entry inEntries (by simpa using broke)
        exact going ((read.trans same) ▸ List.mem_map_of_mem inReceipts)
      rw [one, List.map_singleton]
      refine List.nodup_append.mpr ⟨h.breakers, List.nodup_singleton _, ?_⟩
      rintro read mem _ last rfl
      exact new (List.mem_singleton.mp last ▸ mem)

/-- The read at the desk ends. -/
theorem Booked.finish {hold : Text} {demand : Demand} {result : Option Text}
    (h : ledger.Booked broken ((thread, hold) :: held)) (pays : result.getD [] = hold)
    (ends : broken = none ∨
      broken = some (ledger.current thread) ∧ demand = .line ∧ result.isSome = true) :
    (ledger.post (.ended thread demand result)).Booked none held := by
  have reads : (ledger.post (.ended thread demand result)).reads held =
      ledger.reads ((thread, hold) :: held) := by
    simp [Ledger.reads, finished, post, current]
  constructor
  · rw [reads]; exact h.once
  · rw [reads]; exact h.numbered
  · rw [reads]; exact h.known
  · exact fun hold mem => h.holds hold (List.mem_cons_of_mem _ mem)
  · intro receipt mem
    rcases List.mem_append.mp mem with mem | mem
    · exact h.paid receipt mem
    · obtain rfl := List.mem_singleton.mp mem
      rw [pays]
      exact h.holds _ List.mem_cons_self
  · intro entry mem broke
    obtain ⟨isBreak, now | ⟨receipt, mem', paid⟩⟩ := h.breaks entry mem broke
    · rcases ends with ends | ⟨ends, line, some⟩
      · simp [ends] at now
      · rw [ends, Option.some.injEq] at now
        refine ⟨isBreak, .inr ⟨_, List.mem_append_right _ (List.mem_singleton.mpr rfl), ?_⟩⟩
        exact ⟨now.symm, line, some⟩
    · exact ⟨isBreak, .inr ⟨receipt, List.mem_append_left _ mem', paid⟩⟩
  · exact h.breakers

end Ledger

end LineConsole
