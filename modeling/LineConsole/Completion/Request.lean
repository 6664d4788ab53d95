import LineConsole.Completion.Basic
import LineConsole.Fault

/-!
# Completion requests

A request is what an open popup stands for: the query it was made with, the anchor where its
completion goes, the candidates, and the candidate selected. The anchor is fixed for the life of
the request, so that moving the cursor afterwards does not move the completion. The selection is an
index that nothing checks when it is set; from the end, it counts backwards.

## Main definitions

* `Request` — a pending completion
* `Request.selected` — the candidate the index names
* `Request.setAnchor` — refused
* `Request.sameAs` — equality that takes no notice of the selection
-/

namespace LineConsole

/-- A completion that is asked for and not yet accepted. -/
structure Request where
  query : Text
  anchor : Int
  candidates : List Completion
  index : Int := 0
deriving DecidableEq, Repr

namespace Request

/-- Two to the power of 63: indices of this magnitude name no element of any list. -/
def indexLimit : Int := 9223372036854775808

/-- The candidate that the index names: from the front, or from the end if negative. -/
def selected (request : Request) : Except Fault Completion :=
  if request.index < -indexLimit ∨ indexLimit ≤ request.index then .error .indexTooLarge
  else
    let position := if request.index < 0 then request.candidates.length + request.index
      else request.index
    if position < 0 then .error .noSuchCandidate
    else match request.candidates[position.toNat]? with
      | some candidate => .ok candidate
      | none => .error .noSuchCandidate

/-- The anchor cannot be moved. -/
def setAnchor (_ : Request) (_ : Int) : Except Fault Request := .error .anchorFixed

/-- The request with another query. -/
def setQuery (request : Request) (query : Text) : Request := { request with query }

/-- The request with another candidate selected, whether or not there is one. -/
def select (request : Request) (index : Int) : Request := { request with index }

/-- Whether two requests ask the same, whatever is selected in them. -/
def sameAs (request other : Request) : Bool :=
  request.query = other.query ∧ request.anchor = other.anchor ∧
    request.candidates = other.candidates

/-- A selection in range is found. -/
theorem selected_of_lt {request : Request} {n : Nat} (small : (n : Int) < indexLimit)
    (named : request.index = n) (found : n < request.candidates.length) :
    request.selected = .ok request.candidates[n] := by
  have positive : ¬((n : Int) < -indexLimit ∨ indexLimit ≤ (n : Int)) := by
    have : 0 < indexLimit := by decide
    omega
  have nonneg : ¬(n : Int) < 0 := by omega
  simp [selected, named, positive, nonneg, found]

end Request

end LineConsole
