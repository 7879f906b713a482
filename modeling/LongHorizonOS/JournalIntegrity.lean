import LongHorizonOS.JournalService

/-! The journal over sequences of calls. Whatever is appended, repeated, rolled
back or rebuilt, offsets and sequence numbers have no gaps, an id keeps the
first event that came with it, and the rows only grow. -/
namespace LongHorizonOS.JournalIntegrity
open KeyedRows FailFast Session KernelModels JournalService
open List hiding lookup lookup_append

/-! ## Calls -/

section
variable {π : Type} (dumps : π → Except KernelError String)

inductive JournalCall (π : Type) where
  | appendEventsAtomically (events : List (JournalEvent π))
  /-- Calls of `append_events_tx` in a transaction of the caller, who catches the
  errors of some of them and may roll everything back in the end. -/
  | inTransaction (batches : List (List (JournalEvent π) × Bool)) (commits : Bool)
  | rebuildProjections

/-- The batches of a transaction, up to an error that is not caught. -/
def appendBatches : List (List (JournalEvent π) × Bool) → Session JournalTables KernelError Unit
  | [] => return ()
  | (batch, caught) :: rest => fun tables =>
    match appendEventsTx dumps batch tables with
    | (.ok _, tables') => appendBatches rest tables'
    | (.error failure, tables') => if caught then appendBatches rest tables' else (.error failure, tables')

/-- The error of a caller that gives up. -/
def rolledBack : KernelError := .valueError "rolled back"

def callerTx (batches : List (List (JournalEvent π) × Bool)) (commits : Bool) :
    Session JournalTables KernelError Unit := do
  appendBatches dumps batches
  Session.check fun _ => require (commits = true) rolledBack

def perform (tables : JournalTables) : JournalCall π → JournalTables
  | .appendEventsAtomically events => (appendEventsAtomically dumps events tables).2
  | .inTransaction batches commits => (Session.transaction (callerTx dumps batches commits) tables).2
  | .rebuildProjections => rebuildProjections tables

/-- The journal after some calls, on new tables. -/
def journal (calls : List (JournalCall π)) : JournalTables := calls.foldl (perform dumps) {}

/-! ### What was appended -/

/-- The events of a batch that the service has taken. -/
def taken : List (JournalEvent π) → JournalTables → List (JournalEvent π)
  | [], _ => []
  | event :: rest, tables =>
    match appendEach dumps event tables with
    | (.ok _, tables') => event :: taken rest tables'
    | (.error _, _) => []

def takenBatches : List (List (JournalEvent π) × Bool) → JournalTables → List (JournalEvent π)
  | [], _ => []
  | (batch, caught) :: rest, tables =>
    taken dumps batch tables ++
      match appendEventsTx dumps batch tables with
      | (.ok _, tables') => takenBatches rest tables'
      | (.error _, tables') => if caught then takenBatches rest tables' else []

/-- What is taken counts if the transaction commits. -/
def committed {α : Type} (body : Session JournalTables KernelError α) (tables : JournalTables)
    (events : List (JournalEvent π)) : List (JournalEvent π) :=
  match (body tables).1 with
  | .ok _ => events
  | .error _ => []

def offers (tables : JournalTables) : JournalCall π → List (JournalEvent π)
  | .appendEventsAtomically events =>
    committed (appendEventsTx dumps events) tables (taken dumps events tables)
  | .inTransaction batches commits =>
    committed (callerTx dumps batches commits) tables (takenBatches dumps batches tables)
  | .rebuildProjections => []

/-- The events of all committed appends, in their order and with repetitions. -/
def offered : JournalTables → List (JournalCall π) → List (JournalEvent π)
  | _, [] => []
  | tables, call :: rest => offers dumps tables call ++ offered (perform dumps tables call) rest

end

/-! ## One event -/

section
variable {π : Type}

/-- The row of an event at its place. -/
def rowOf (event : JournalEvent π) (offset sequence : ℕ) (payloadJson : String) : JournalRow :=
  { eventId := event.eventId, journalOffset := offset, pid := event.pid, processSequence := sequence
    eventType := event.eventType, causationId := event.causationId
    correlationId := event.correlationId, payloadJson, createdAt := event.createdAt }

/-- The tables with one more row. -/
def grown (tables : JournalTables) (event : JournalEvent π) (offset : ℕ) (payloadJson : String) : JournalTables :=
  { events := tables.events ++
      [rowOf event offset (successor ((ofPid tables event.pid).map JournalRow.processSequence)) payloadJson]
    nextOffset := some (offset + 1) }

theorem insertEvent_allOrNothing : Session.AllOrNothing (insertEvent row) :=
  (check_readOnly _).bind fun _ => (check_readOnly _).bind fun _ =>
    write_allOrNothing _

theorem appendEach_allOrNothing : Session.AllOrNothing (appendEach dumps event) := by
  refine (read_readOnly _).bind fun found => ?_
  cases found with
  | some row => exact fun _ _ _ raised => by cases raised
  | none =>
    exact (check_readOnly _).bind fun _ => (read_readOnly _).bind fun _ =>
      (check_readOnly _).bind fun _ => insertEvent_allOrNothing.bind fun _ _ => ⟨_, _, rfl⟩

/-- An event that is taken is there already, or has a new row. -/
theorem appendEach_ok (ran : appendEach dumps event tables = (.ok position, tables')) :
    (event.eventId ∈ tables.events.map JournalRow.eventId ∧ tables' = tables) ∨
    ∃ offset payloadJson, event.eventId ∉ tables.events.map JournalRow.eventId ∧
      tables.nextOffset = some offset ∧ dumps event.payload = .ok payloadJson ∧
      tables' = grown tables event offset payloadJson := by
  unfold appendEach at ran
  rw [read_bind] at ran
  cases found : findEvent tables event.eventId with
  | some row =>
    rw [found] at ran
    cases ran
    exact .inl ⟨lookup_isSome.mp (Option.isSome_iff_exists.mpr ⟨row, found⟩), rfl⟩
  | none =>
    rw [found] at ran
    obtain ⟨offset, next, ran⟩ := check_bind_ok.mp ran
    rw [read_bind] at ran
    obtain ⟨payloadJson, dumped, ran⟩ := check_bind_ok.mp ran
    obtain ⟨_, middle, inserted, ran⟩ := bind_ok.mp ran
    obtain ⟨_, _, inserted⟩ := check_bind_ok.mp inserted
    obtain ⟨_, _, inserted⟩ := check_bind_ok.mp inserted
    obtain rfl := write_ok.mp inserted
    have known := demand_ok.mp next
    cases ran
    refine .inr ⟨offset, payloadJson, lookup_eq_none.mp found, known, dumped, ?_⟩
    simp only [known, Option.map_some]
    rfl

/-! ## The invariant -/

/-- The row is the one of the event. -/
def Holds (dumps : π → Except KernelError String) (row : JournalRow) (event : JournalEvent π) : Prop :=
  ∃ payloadJson, dumps event.payload = .ok payloadJson ∧
    row = rowOf event row.journalOffset row.processSequence payloadJson

/-- The journal of the events that were appended. -/
structure Intact (dumps : π → Except KernelError String) (tables : JournalTables)
    (events : List (JournalEvent π)) : Prop where
  offsets : tables.events.map JournalRow.journalOffset = List.range tables.events.length
  sequences : ∀ pid, (ofPid tables pid).map JournalRow.processSequence = List.range (ofPid tables pid).length
  ids : (tables.events.map JournalRow.eventId).Nodup
  /-- A row has the first event with its id. -/
  first : ∀ row ∈ tables.events, ∃ event, lookup JournalEvent.eventId events row.eventId = some event ∧
    Holds dumps row event
  stored : ∀ event ∈ events, event.eventId ∈ tables.events.map JournalRow.eventId
  next : tables.nextOffset = some tables.events.length

theorem successor_range (count) : successor (List.range count) = count := by
  cases count with
  | zero => rfl
  | succ count =>
    have greatest : (List.range (count + 1)).max? = some count := by
      rw [max?_eq_some_iff]
      exact ⟨mem_range.mpr (Nat.lt_succ_self count), fun other member =>
        Nat.le_of_lt_succ (mem_range.mp member)⟩
    rw [successor, greatest]
    rfl

theorem intact_empty (dumps : π → Except KernelError String) : Intact dumps {} [] :=
  ⟨rfl, fun _ => rfl, nodup_nil, by simp, by simp, rfl⟩

/-- An event whose id is there already changes nothing. -/
theorem Intact.repeated (intact : Intact dumps tables events)
    (known : event.eventId ∈ tables.events.map JournalRow.eventId) : Intact dumps tables (events ++ [event]) := by
  refine { intact with first := fun row member => ?_, stored := fun other member => ?_ }
  · obtain ⟨first, found, holds⟩ := intact.first row member
    exact ⟨first, by rw [lookup_append, found]; rfl, holds⟩
  rcases mem_append.mp member with early | late
  · exact intact.stored other early
  cases mem_singleton.mp late
  exact known

theorem Intact.grown (intact : Intact dumps tables events)
    (fresh : event.eventId ∉ tables.events.map JournalRow.eventId)
    (next : tables.nextOffset = some offset) (dumped : dumps event.payload = .ok payloadJson) :
    Intact dumps (grown tables event offset payloadJson) (events ++ [event]) := by
  obtain rfl : offset = tables.events.length := Option.some.inj (next.symm.trans intact.next)
  refine ⟨?_, fun pid => ?_, ?_, fun row member => ?_, fun other member => ?_, ?_⟩
  · simp [JournalIntegrity.grown, rowOf, intact.offsets, range_succ]
  · by_cases same : event.pid = pid
    · subst same
      have rows : ofPid (JournalIntegrity.grown tables event tables.events.length payloadJson) event.pid =
          ofPid tables event.pid ++ [rowOf event tables.events.length
            (successor ((ofPid tables event.pid).map JournalRow.processSequence)) payloadJson] := by
        simp [JournalIntegrity.grown, rowOf, ofPid, filter_append]
      rw [rows, map_append, length_append, intact.sequences, successor_range, length_singleton, range_succ]
      rfl
    · simpa [JournalIntegrity.grown, rowOf, ofPid, filter_append, same] using intact.sequences pid
  · change ((tables.events ++ [_]).map _).Nodup
    rw [map_append]
    exact nodup_append_single intact.ids fresh
  · rw [lookup_append]
    rcases mem_append.mp member with old | new
    · obtain ⟨first, found, holds⟩ := intact.first row old
      exact ⟨first, by rw [found]; rfl, holds⟩
    cases mem_singleton.mp new
    have unknown : lookup JournalEvent.eventId events event.eventId = none := by
      refine lookup_eq_none.mpr fun known => ?_
      obtain ⟨earlier, stored, same⟩ := mem_map.mp known
      exact fresh (same ▸ intact.stored earlier stored)
    refine ⟨event, ?_, payloadJson, dumped, rfl⟩
    change (lookup _ events event.eventId).or _ = _
    rw [unknown]
    simp [lookup, rowOf]
  · change other.eventId ∈ (tables.events ++ [_]).map _
    rw [map_append]
    rcases mem_append.mp member with early | late
    · exact mem_append_left _ (intact.stored other early)
    cases mem_singleton.mp late
    exact mem_append_right _ (mem_singleton.mpr rfl)
  · simp [JournalIntegrity.grown]

/-! ## Calls and runs -/

/-- The journal has taken these events and stays intact. -/
structure Takes (dumps : π → Except KernelError String) (tables tables' : JournalTables)
    (events : List (JournalEvent π)) : Prop where
  grows : tables.events <+: tables'.events
  keeps : ∀ before, Intact dumps tables before → Intact dumps tables' (before ++ events)

theorem Takes.refl (dumps : π → Except KernelError String) (tables) : Takes dumps tables tables [] :=
  ⟨prefix_rfl, fun before intact => by rwa [append_nil]⟩

theorem Takes.trans (first : Takes dumps tables middle events)
    (second : Takes dumps middle tables' later) : Takes dumps tables tables' (events ++ later) :=
  ⟨first.grows.trans second.grows, fun before intact => by
    rw [← append_assoc]
    exact second.keeps _ (first.keeps before intact)⟩

theorem takes_appendEach (ran : appendEach dumps event tables = (.ok position, tables')) :
    Takes dumps tables tables' [event] := by
  rcases appendEach_ok ran with ⟨known, rfl⟩ | ⟨offset, payloadJson, fresh, next, dumped, rfl⟩
  · exact ⟨prefix_rfl, fun _ intact => intact.repeated known⟩
  exact ⟨prefix_append _ _, fun _ intact => intact.grown fresh next dumped⟩

variable (dumps) in
/-- A batch has taken what comes before an error. -/
theorem takes_appendEventsTx (events : List (JournalEvent π)) (tables : JournalTables) :
    Takes dumps tables (appendEventsTx dumps events tables).2 (taken dumps events tables) := by
  induction events generalizing tables with
  | nil => exact .refl dumps tables
  | cons event rest ih =>
    rw [taken]
    change Takes dumps tables (Session.bind (appendEach dumps event) _ tables).2 _
    unfold Session.bind
    rcases ran : appendEach dumps event tables with ⟨failure | position, middle⟩
    · rw [appendEach_allOrNothing _ _ _ ran]
      exact .refl dumps tables
    refine (takes_appendEach ran).trans ?_
    have tail := ih middle
    change Takes dumps middle (Session.bind (appendEventsTx dumps rest) _ middle).2 _
    unfold Session.bind
    generalize appendEventsTx dumps rest middle = ended at tail ⊢
    obtain ⟨failure | positions, after⟩ := ended
    · exact tail
    exact tail

variable (dumps) in
theorem takes_appendBatches (batches : List (List (JournalEvent π) × Bool)) (tables : JournalTables) :
    Takes dumps tables (appendBatches dumps batches tables).2 (takenBatches dumps batches tables) := by
  induction batches generalizing tables with
  | nil => exact .refl dumps tables
  | cons head rest ih =>
    obtain ⟨batch, caught⟩ := head
    have first := takes_appendEventsTx dumps batch tables
    simp only [takenBatches, appendBatches]
    generalize appendEventsTx dumps batch tables = ended at first ⊢
    obtain ⟨failure | positions, middle⟩ := ended
    · cases caught with
      | true => exact first.trans (ih middle)
      | false => exact first.trans (.refl dumps middle)
    · exact first.trans (ih middle)

/-- A transaction takes all or nothing. -/
theorem takes_transaction {body : Session JournalTables KernelError α}
    (takes : Takes dumps tables (body tables).2 events) :
    Takes dumps tables (Session.transaction body tables).2 (committed body tables events) := by
  unfold Session.transaction committed
  generalize body tables = ended at takes ⊢
  obtain ⟨failure | a, after⟩ := ended
  · exact .refl dumps tables
  exact takes

theorem takes_perform (tables : JournalTables) (call : JournalCall π) :
    Takes dumps tables (perform dumps tables call) (offers dumps tables call) := by
  cases call with
  | appendEventsAtomically events =>
    change Takes dumps tables (appendEventsAtomically dumps events tables).2
      (committed (appendEventsTx dumps events) tables (taken dumps events tables))
    have takes := takes_transaction (takes_appendEventsTx dumps events tables)
    unfold appendEventsAtomically
    split
    · rename_i empty
      cases isEmpty_iff.mp empty
      exact takes
    · exact takes
  | inTransaction batches commits =>
    refine takes_transaction ?_
    have takes := takes_appendBatches dumps batches tables
    change Takes dumps tables (Session.bind (appendBatches dumps batches) _ tables).2 _
    unfold Session.bind
    generalize appendBatches dumps batches tables = ended at takes ⊢
    obtain ⟨failure | _, after⟩ := ended
    · exact takes
    exact takes
  | rebuildProjections =>
    refine ⟨prefix_rfl, fun before intact => ?_⟩
    rw [offers, append_nil]
    refine { intact with next := ?_ }
    change some (successor (tables.events.map JournalRow.journalOffset)) = some tables.events.length
    rw [intact.offsets, successor_range]

variable (dumps) in
theorem takes_calls (calls : List (JournalCall π)) (tables : JournalTables) :
    Takes dumps tables (calls.foldl (perform dumps) tables) (offered dumps tables calls) := by
  induction calls generalizing tables with
  | nil => exact .refl dumps tables
  | cons call rest ih => exact (takes_perform tables call).trans (ih _)

/-! ## The journal as a list -/

end

/-- After every sequence of calls: the offsets are `0 .. n - 1`, the sequence
numbers of each process `0 .. m - 1` in the order of the offsets; every id that
was appended is stored once, with the first event that came with it; the counter
is `n`; and the rows stay what they are whatever calls come after. -/
theorem journal_stays_intact {π : Type} (dumps : π → Except KernelError String)
    (calls more : List (JournalCall π)) : Intact dumps (journal dumps calls) (offered dumps {} calls) ∧
      (journal dumps calls).events <+: (journal dumps (calls ++ more)).events := by
  refine ⟨(takes_calls dumps calls {}).keeps [] (intact_empty dumps), ?_⟩
  rw [journal, journal, foldl_append]
  exact (takes_calls dumps more _).grows

end LongHorizonOS.JournalIntegrity
