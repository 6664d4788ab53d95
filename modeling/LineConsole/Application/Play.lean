import LineConsole.Application.Basic

/-!
# Playing an application

A play puts the application on the screen and takes the user's steps one after the other, as long
as the application runs. If no step ended it, it is ended as by a key. The play is recorded in
frames: one for the launch, one for each step taken, one for the end. A step may also be the user
breaking off the whole program, after which nothing is recorded.

## Main definitions

* `Application.Move` — a step, or breaking off
* `Application.Play` — the frames, and whether the play was broken off
* `Application.Play.settles` — whether the application came to rest between the moves
* `Application.play` — a whole play
-/

namespace LineConsole.Application

/-- What the user does next: a step, or breaking off the program. -/
inductive Move where
  | step (step : Step)
  | breakOff
deriving DecidableEq, Repr

/-- The record of a play. -/
structure Play where
  frames : List Turn
  brokenOff : Bool := false
deriving DecidableEq, Repr

/-- Whether the application came to rest before each of its frames: it had ended, or somebody waited
for the next line. Whoever plays it waits for this between two moves. -/
def Play.settles (play : Play) : Bool := play.frames.all fun turn => turn.application.isAttended

/-- The frame that shows an application once more. -/
def still (app : Application) : Turn := { application := app }

/-- The moves taken from a state of the application. -/
def playOn (interpreter : Interpreter) (app : Application) : List Move → Except Fault Play
  | [] => .ok { frames := [if app.running then app.exit interpreter else app.still] }
  | move :: moves =>
    if app.running then
      match move with
      | .breakOff => .ok { frames := [], brokenOff := true }
      | .step step => do
        let turn ← app.perform interpreter step
        let later ← playOn interpreter turn.application moves
        return { later with frames := turn :: later.frames }
    else .ok { frames := [app.still] }

/-- A whole play. -/
def play (interpreter : Interpreter) (panel : Panel) (moves : List Move) : Except Fault Play := do
  let first := launch interpreter panel
  let later ← playOn interpreter first.application moves
  return { later with frames := first :: later.frames }

end LineConsole.Application
