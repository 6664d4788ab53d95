import LineConsole.InputStream.Schedule
import LineConsole.Log

/-!
# The journal of a stream

A stream keeps a journal at the level of debugging: text dropped, closing, reset, interrupts. The
journal is a rendering of the events; the end of a read leaves no record.

## Main definitions

* `InputStream.Event.entry?` — the record an event leaves
* `InputStream.journal` — the records of a list of events
-/

namespace LineConsole.InputStream

/-- The record an event leaves in the journal. -/
def Event.entry? : Event → Option Log.Entry
  | .ended _ _ => none
  | .dropped count => some ⟨.debug, s!"Dropping {count} characters appended to a closed stream"⟩
  | .closed unread => some ⟨.debug, s!"Stream closed with {unread} characters still buffered"⟩
  | .reset waiting => some ⟨.debug, s!"Stream reset, released {waiting} waiting reads"⟩
  | .interrupted count thread => some ⟨.debug, s!"Interrupted {count} reads on thread {thread}"⟩

/-- The records a list of events leaves. -/
def journal (events : List Event) : List Log.Entry := events.filterMap Event.entry?

end LineConsole.InputStream
