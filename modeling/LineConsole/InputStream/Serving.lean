import LineConsole.Text.Basic

/-!
# Serving a read from a buffer

What a read takes is decided by the buffer alone, in one pass. A read of characters takes as many
as it asked for and are there, and is satisfied with one. A read of a line takes everything up to
a line break and is satisfied by the break; CR LF, CR and LF are breaks.

The two characters of a CR LF may arrive apart. A line that ends on a CR with nothing behind it is
complete, and the LF that may follow belongs to no line: the stream remembers to skip it. The
remembered skip is settled by the next character served, whoever asks for it.

## Main definitions

* `Demand` — what a read asks for
* `Serving` — what one pass over the buffer gives it
* `scanLine`, `takeChars` — the pass, for either kind of demand
* `Demand.serve` — the pass a demand calls for

## Main results

* `Demand.rest_eq_nil_of_incomplete` — an unsatisfied demand has emptied the buffer
-/

namespace LineConsole

/-- What a read asks for: up to a number of characters, or a line. -/
inductive Demand where
  | chars (size : Nat)
  | line
deriving DecidableEq, Repr

namespace Demand

/-- The demand for `size` characters; a size below one asks for nothing. -/
def ofSize (size : Int) : Demand := .chars size.toNat

end Demand

/-- The outcome of one pass over a buffer: what the read takes, what is left, whether an LF is to
be skipped next, and whether the demand is satisfied. -/
structure Serving where
  taken : Text
  rest : Text
  skipLF : Bool
  complete : Bool
deriving DecidableEq, Repr

namespace Serving

/-- The serving that takes one more character in front. -/
def cons (c : Char) (v : Serving) : Serving := { v with taken := c :: v.taken }

/-- Nothing to serve. -/
def nothing (skipLF : Bool) : Serving := ⟨[], [], skipLF, false⟩

end Serving

/-- Takes the characters before the next line break, and removes the break. The flag asks for an
LF at the front to be skipped. -/
def scanLine : Bool → Text → Serving
  | skip, [] => .nothing skip
  | true, '\n' :: rest => scanLine false rest
  | false, '\n' :: rest => ⟨[], rest, false, true⟩
  | _, '\r' :: '\n' :: rest => ⟨[], rest, false, true⟩
  | _, '\r' :: rest => ⟨[], rest, true, true⟩
  | _, c :: rest => (scanLine false rest).cons c

/-- Takes up to `size` characters, all that are there if there are fewer; breaks are characters
like others. The flag asks for an LF at the front to be skipped. -/
def takeChars (size : Nat) : Bool → Text → Serving
  | skip, [] => .nothing skip
  | true, '\n' :: rest => takeChars size false rest
  | _, c :: rest => ⟨(c :: rest).take size, (c :: rest).drop size, false, true⟩

/-- The pass over a buffer that a demand calls for. -/
def Demand.serve : Demand → Bool → Text → Serving
  | .chars size => takeChars size
  | .line => scanLine

@[simp] theorem Serving.cons_rest (c : Char) (v : Serving) : (v.cons c).rest = v.rest := rfl

@[simp] theorem Serving.cons_complete (c : Char) (v : Serving) :
    (v.cons c).complete = v.complete := rfl

theorem scanLine_rest_of_incomplete {skip : Bool} {buffer : Text}
    (h : (scanLine skip buffer).complete = false) : (scanLine skip buffer).rest = [] := by
  fun_induction scanLine skip buffer <;> simp_all [Serving.nothing]

theorem takeChars_rest_of_incomplete {size : Nat} {skip : Bool} {buffer : Text}
    (h : (takeChars size skip buffer).complete = false) :
    (takeChars size skip buffer).rest = [] := by
  fun_induction takeChars size skip buffer <;> simp_all [Serving.nothing]

/-- An unsatisfied demand has emptied the buffer. -/
theorem Demand.rest_eq_nil_of_incomplete {demand : Demand} {skip : Bool} {buffer : Text}
    (h : (demand.serve skip buffer).complete = false) :
    (demand.serve skip buffer).rest = [] := by
  cases demand with
  | chars size => exact takeChars_rest_of_incomplete h
  | line => exact scanLine_rest_of_incomplete h

end LineConsole
