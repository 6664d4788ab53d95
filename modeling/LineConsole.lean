import LineConsole.Text.Blank
import LineConsole.Text.Framing
import LineConsole.Text.Slice
import LineConsole.Text.Quoted
import LineConsole.Fault
import LineConsole.Log
import LineConsole.InputStream.Serving
import LineConsole.InputStream.Basic
import LineConsole.InputStream.Journal
import LineConsole.Reading.Program
import LineConsole.Reading.Room
import LineConsole.InputField.Step
import LineConsole.Interpreter.Echo
import LineConsole.Session.Basic
import LineConsole.Session.Script
import LineConsole.Session.Pump
import LineConsole.Panel.Popup
import LineConsole.Application.Play
import LineConsole.CommandLine.Run
import LineConsole.Main
import LineConsole.Proofs.InputStream.Serving
import LineConsole.Proofs.InputStream.Section
import LineConsole.Proofs.Reading.Arrival
import LineConsole.Proofs.Reading.Pulls
import LineConsole.Proofs.Reading.Iteration
import LineConsole.Proofs.InputStream.WholeLines
import LineConsole.Proofs.InputStream.Desk
import LineConsole.Proofs.InputStream.Ledger
import LineConsole.Proofs.InputStream.Delivery
import LineConsole.Proofs.InputStream.Roster
import LineConsole.Proofs.InputStream.Waking
import LineConsole.Proofs.InputStream.Release
import LineConsole.Proofs.InputStream.Reset
import LineConsole.Proofs.Session.Scripted
import LineConsole.Proofs.Session.Remembering
import LineConsole.Proofs.Session.Streamed
import LineConsole.Proofs.Session.Pumped
import LineConsole.Proofs.Application.Runs
import LineConsole.Proofs.Session.Resting
import LineConsole.Proofs.InputStream.Handles
import LineConsole.Proofs.InputStream.Leaving
import LineConsole.Proofs.InputStream.Resemblance
import LineConsole.Proofs.InputStream.Interrupt
import LineConsole.Proofs.Session.Incidents
import LineConsole.Proofs.Session.Interrupted
import LineConsole.Proofs.Session.Restarts
import LineConsole.Proofs.Application.Record
import LineConsole.Proofs.Application.Lifecycle
import LineConsole.Proofs.InputStream.Draining
import LineConsole.Proofs.Panel.Pasting
import LineConsole.Proofs.Panel.Run
import LineConsole.Proofs.Panel.Echoing
import LineConsole.Proofs.Panel.Safety
import LineConsole.Proofs.InputStream.Renewal
import LineConsole.Proofs.InputField.Requests
import LineConsole.Proofs.Panel.SingleLine
import LineConsole.Proofs.Panel.Reset
import LineConsole.Proofs.CommandLine.PlainInput
import LineConsole.Proofs.Panel.Pieces
import LineConsole.Proofs.InputStream.Characters
import LineConsole.Proofs.InputStream.Usage
import LineConsole.Proofs.InputStream.Batches
import LineConsole.Proofs.Panel.Parts
import LineConsole.Proofs.Completion.Splicing
import LineConsole.Proofs.Panel.Anchoring
import LineConsole.Proofs.Panel.Highlighting
import LineConsole.Proofs.Text.Words
import LineConsole.Proofs.Interpreter.Offers
import LineConsole.Proofs.Panel.Extending
