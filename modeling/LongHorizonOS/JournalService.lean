import Mathlib.Data.List.Range
import LongHorizonOS.FailFast
import LongHorizonOS.KernelModels

/-! The journal service on its two tables. An event gets the next offset from a
counter and the next sequence number of its process from the rows; an id that
is already there is not written again. The other services see the rows in the
order of their offsets. -/
namespace LongHorizonOS.JournalService
open KeyedRows FailFast KernelModels

/-! ## Tables -/

/-- A row of `journal_events`. -/
structure JournalRow where
  eventId : String
  journalOffset : ℕ
  pid : String
  processSequence : ℕ
  eventType : String
  causationId : Option String
  correlationId : Option String
  payloadJson : String
  createdAt : Int
  deriving DecidableEq

/-- The rows in the order of insertion, and `next_offset` of `journal_meta`. -/
structure JournalTables where
  events : List JournalRow := []
  nextOffset : Option ℕ := some 0
  deriving DecidableEq

/-- A `KernelEvent` that is to be appended. -/
structure JournalEvent (π : Type) where
  eventId : String
  pid : String
  eventType : String
  causationId : Option String := none
  correlationId : Option String := none
  payload : π
  createdAt : Int

def findEvent (tables : JournalTables) (eventId : String) : Option JournalRow :=
  lookup JournalRow.eventId tables.events eventId

def ofPid (tables : JournalTables) (pid : String) : List JournalRow :=
  tables.events.filter fun row => decide (row.pid = pid)

/-- One past the greatest number, from zero. -/
def successor (numbers : List ℕ) : ℕ := (numbers.max?.map (· + 1)).getD 0

/-! ## Appending -/

section
variable {π : Type} (dumps : π → Except KernelError String)

/-- `INSERT INTO journal_events`, with its two unique columns. -/
def insertEvent (row : JournalRow) : Session JournalTables KernelError Unit := do
  Session.check fun tables => require (findEvent tables row.eventId = none)
    (.integrityError "journal_events.event_id")
  Session.check fun tables => require (row.journalOffset ∉ tables.events.map JournalRow.journalOffset)
    (.integrityError "journal_events.journal_offset")
  Session.write fun tables => { tables with events := tables.events ++ [row] }

/-- One event of a batch, as the offset and the sequence number that it gets.
A payload that cannot be written as text raises. -/
def appendEach (event : JournalEvent π) : Session JournalTables KernelError (ℕ × ℕ) := do
  match ← Session.read fun tables => findEvent tables event.eventId with
  | some row => return (row.journalOffset, row.processSequence)
  | none =>
    let offset ← Session.check fun tables => demand tables.nextOffset
      (.kernelInvariantViolation "journal_meta.next_offset is missing")
    let sequence ← Session.read fun tables =>
      successor ((ofPid tables event.pid).map JournalRow.processSequence)
    let payloadJson ← Session.check fun _ => dumps event.payload
    insertEvent
      { eventId := event.eventId, journalOffset := offset, pid := event.pid, processSequence := sequence
        eventType := event.eventType, causationId := event.causationId
        correlationId := event.correlationId, payloadJson, createdAt := event.createdAt }
    Session.write fun tables => { tables with nextOffset := tables.nextOffset.map (· + 1) }
    return (offset, sequence)

/-- `append_events_tx`, in a transaction that is open already. -/
def appendEventsTx : List (JournalEvent π) → Session JournalTables KernelError (List (ℕ × ℕ))
  | [] => return []
  | event :: rest => do
    let position ← appendEach dumps event
    let positions ← appendEventsTx rest
    return position :: positions

def appendEventsAtomically (events : List (JournalEvent π)) :
    Session JournalTables KernelError (List (ℕ × ℕ)) :=
  if events.isEmpty then return [] else Session.transaction (appendEventsTx dumps events)

def appendEvent (event : JournalEvent π) : Session JournalTables KernelError (List (ℕ × ℕ)) :=
  appendEventsAtomically dumps [event]

end

/-- What `rebuild_projections` does to these tables. Whatever the handlers append
while they replay is appended by calls of their own. -/
def rebuildProjections (tables : JournalTables) : JournalTables :=
  { tables with nextOffset := some (successor (tables.events.map JournalRow.journalOffset)) }

end LongHorizonOS.JournalService
