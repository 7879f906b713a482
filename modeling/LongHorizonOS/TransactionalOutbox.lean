import LongHorizonOS.FailFast
import LongHorizonOS.PythonValues

/-! The transactional outbox: a mutation of the kernel's own state and the intent
to deliver something outside are committed in one transaction, and workers claim,
acknowledge and give back the rows under tokens that expire. -/
namespace LongHorizonOS.TransactionalOutbox
open KeyedRows PythonValues FailFast

/-! ## Records -/

inductive OutboxError where
  | idempotencyConflict (idempotencyKey : String)
  | integrity (text : String)
  | value (text : String)
  /-- A unique column of the table. -/
  | constraint (column : String)
  /-- What the mutation raises, or a text that cannot be written. -/
  | raised (text : String)
  deriving DecidableEq

inductive OutboxStatus where
  | pending
  | inFlight
  | delivered
  | failed
  deriving DecidableEq

/-- A `datetime`, in microseconds if it has a time zone. -/
inductive Timestamp where
  | naive
  | aware (utc : Int)

/-- `OutboxIntent`, whose two texts `__post_init__` checks. -/
structure OutboxIntent (π : Type) where
  destination : String
  payload : π
  idempotencyKey : String
  headers : π
  aggregateType : Option String := none
  aggregateId : Option String := none
  causationId : Option String := none
  correlationId : Option String := none
  outboxId : Option String := none
  availableAt : Option Timestamp := none
  destinationFilled : strip destination ≠ ""
  idempotencyKeyFilled : strip idempotencyKey ≠ ""

/-- A row of `transactional_outbox`. -/
structure OutboxRow where
  outboxId : String
  idempotencyKey : String
  destination : String
  payloadJson : String
  payloadHash : String
  headersJson : String
  aggregateType : Option String
  aggregateId : Option String
  causationId : Option String
  correlationId : Option String
  transactionId : String
  status : OutboxStatus := .pending
  attempts : ℕ := 0
  availableAt : Int
  claimedBy : Option String := none
  claimToken : Option String := none
  claimedAt : Option Int := none
  claimExpiresAt : Option Int := none
  lastErrorJson : Option String := none
  deliveryResultJson : Option String := none
  createdAt : Int
  deliveredAt : Option Int := none
  deriving DecidableEq

/-- `OutboxRecord`: the row with what its two texts stand for. -/
structure OutboxRecord (π : Type) where
  row : OutboxRow
  payload : π
  headers : π

/-- How objects are written as texts, read back and hashed. -/
structure Codec (π : Type) where
  dumps : π → Except OutboxError String
  loads : String → Except OutboxError π
  hash : String → String
  /-- An object with these texts. -/
  ofTexts : List (String × String) → π

/-- The table, next to the state that the mutations are about. -/
structure OutboxStore (σ : Type) where
  rows : List OutboxRow := []
  inner : σ

/-- The time, unless one is given. -/
def normalizeTime (value : Option Timestamp) (clock : Int) : Except OutboxError Int :=
  match value with
  | some .naive => .error (.value "outbox timestamps must be timezone-aware")
  | some (.aware utc) => .ok utc
  | none => .ok clock

section
variable {σ π : Type} (codec : Codec π) (row : OutboxRow)

/-- `_row_to_record` -/
def rowToRecord : Except OutboxError (OutboxRecord π) := do
  require (row.payloadHash = codec.hash row.payloadJson)
    (.integrity ("outbox payload hash mismatch for " ++ row.outboxId))
  let payload ← codec.loads row.payloadJson
  let headers ← codec.loads row.headersJson
  return { row, payload, headers }

/-- `_assert_same_intent` -/
def assertSameIntent (record : OutboxRecord π) (intent : OutboxIntent π) : Except OutboxError Unit := do
  let payloadJson ← codec.dumps intent.payload
  let headersJson ← codec.dumps intent.headers
  let storedHeaders ← codec.dumps record.headers
  require (record.row.destination = intent.destination ∧
      record.row.payloadHash = codec.hash payloadJson ∧ storedHeaders = headersJson ∧
      record.row.aggregateType = intent.aggregateType ∧ record.row.aggregateId = intent.aggregateId)
    (.idempotencyConflict intent.idempotencyKey)

/-- `_get_by_idempotency_key_tx` -/
def getByIdempotencyKeyTx (idempotencyKey : String) :
    Session (OutboxStore σ) OutboxError (Option (OutboxRecord π)) := Session.check fun store =>
  match lookup OutboxRow.idempotencyKey store.rows idempotencyKey with
  | none => .ok none
  | some row => do
    let record ← rowToRecord codec row
    return some record

variable (outboxId : String)

/-- The row with this id after a statement that must have left one. -/
def readBack (vanished : String) : Session (OutboxStore σ) OutboxError (OutboxRecord π) :=
  Session.check fun store =>
    match lookup OutboxRow.outboxId store.rows outboxId with
    | none => .error (.integrity (vanished ++ outboxId))
    | some row => rowToRecord codec row

/-! ## Intents -/

/-- `INSERT INTO transactional_outbox`, with its two unique columns. -/
def insertRow : Session (OutboxStore σ) OutboxError Unit := do
  Session.check fun store => require (row.outboxId ∉ store.rows.map OutboxRow.outboxId)
    (.constraint "transactional_outbox.outbox_id")
  Session.check fun store => require (row.idempotencyKey ∉ store.rows.map OutboxRow.idempotencyKey)
    (.constraint "transactional_outbox.idempotency_key")
  Session.write fun store => { store with rows := store.rows ++ [row] }

/-- `value or uuid4().hex` -/
def orDrawn (value : Option String) (drawn : String) : String :=
  (value.filter fun text => decide (text ≠ "")).getD drawn

variable (intent : OutboxIntent π)

def enqueueTx (transactionId drawn : String) (commitTime clock : Int) :
    Session (OutboxStore σ) OutboxError (OutboxRecord π) := do
  let availableAt ← Session.check fun _ =>
    normalizeTime (intent.availableAt.or (some (.aware commitTime))) clock
  let payloadJson ← Session.check fun _ => codec.dumps intent.payload
  let headersJson ← Session.check fun _ => codec.dumps intent.headers
  match ← getByIdempotencyKeyTx codec intent.idempotencyKey with
  | some record =>
    Session.check fun _ => assertSameIntent codec record intent
    return record
  | none =>
    let outboxId := orDrawn intent.outboxId drawn
    insertRow
      { outboxId, idempotencyKey := intent.idempotencyKey, destination := intent.destination
        payloadJson, payloadHash := codec.hash payloadJson, headersJson
        aggregateType := intent.aggregateType, aggregateId := intent.aggregateId
        causationId := intent.causationId, correlationId := intent.correlationId, transactionId
        availableAt, createdAt := commitTime }
    readBack codec outboxId "inserted outbox row vanished: "

variable (mutate : σ → Except OutboxError σ)

/-- The callback of a commit, on the state that is not the outbox. -/
def mutateTx : Session (OutboxStore σ) OutboxError Unit := fun store =>
  match mutate store.inner with
  | .error failure => (.error failure, store)
  | .ok inner => (.ok (), { store with inner })

/-- The transaction of a commit. The result says whether the mutation was applied. -/
def commitTx (transactionId drawn : String)
    (commitTime clock : Int) : Session (OutboxStore σ) OutboxError (OutboxRecord π × Bool) := do
  match ← getByIdempotencyKeyTx codec intent.idempotencyKey with
  | some record =>
    Session.check fun _ => assertSameIntent codec record intent
    return (record, false)
  | none =>
    mutateTx mutate
    let record ← enqueueTx codec intent transactionId drawn commitTime clock
    return (record, true)

def commitIntent (transactionId : Option String) (now : Option Timestamp) (clock : Int) (draw : ℕ → String) :
    Session (OutboxStore σ) OutboxError (OutboxRecord π × Bool) := do
  let commitTime ← Session.check fun _ => normalizeTime now clock
  Session.transaction (commitTx codec intent mutate (orDrawn transactionId (draw 0)) (draw 1) commitTime clock)

/-! ## Claims -/

/-- `UPDATE transactional_outbox SET … WHERE …`, as the number of rows that it hits. -/
def updateWhere (hits : OutboxRow → Bool) (change : OutboxRow → OutboxRow) :
    Session (OutboxStore σ) OutboxError ℕ := fun store =>
  (.ok (store.rows.countP hits),
    { store with rows := store.rows.map fun row => if hits row then change row else row })

/-- A pending row whose time has come, or a claim that has expired. -/
def Ready (time : Int) (row : OutboxRow) : Prop :=
  row.status = .pending ∧ row.availableAt ≤ time ∨
    row.status = .inFlight ∧ ∃ expiry ∈ row.claimExpiresAt, expiry ≤ time

instance (time : Int) (row : OutboxRow) : Decidable (Ready time row) :=
  inferInstanceAs (Decidable (_ ∨ _))

/-- `ORDER BY available_at ASC, created_at ASC, outbox_id ASC` -/
def readyBefore (a b : OutboxRow) : Prop :=
  a.availableAt < b.availableAt ∨ a.availableAt = b.availableAt ∧
    (a.createdAt < b.createdAt ∨ a.createdAt = b.createdAt ∧ a.outboxId ≤ b.outboxId)

instance (a b : OutboxRow) : Decidable (readyBefore a b) := inferInstanceAs (Decidable (_ ∨ _))

def nextReady (time : Int) (rows : List OutboxRow) : Option OutboxRow :=
  ((rows.filter fun row => decide (Ready time row)).insertionSort readyBefore).head?

/-- The row in flight under a new token. -/
def taken (workerId token : String) (time ttl : Int) (row : OutboxRow) : OutboxRow :=
  { row with
    status := .inFlight
    attempts := row.attempts + 1
    claimedBy := some workerId
    claimToken := some token
    claimedAt := some time
    claimExpiresAt := some (time + ttl) }

def claimTx (workerId token : String) (time ttl : Int) :
    Session (OutboxStore σ) OutboxError (Option (OutboxRecord π)) := do
  match ← Session.read fun store => nextReady time store.rows with
  | none => return none
  | some row =>
    let count ← updateWhere (fun other => decide (other.outboxId = row.outboxId ∧ Ready time other))
      (taken workerId token time ttl)
    if count ≠ 1 then return none
    else
      let record ← readBack codec row.outboxId "claimed outbox row vanished: "
      return some record

def claimNext (workerId : String) (now : Option Timestamp) (ttl clock : Int) (token : String) :
    Session (OutboxStore σ) OutboxError (Option (OutboxRecord π)) := do
  Session.check fun _ => require (strip workerId ≠ "") (.value "worker_id must be non-empty")
  Session.check fun _ => require (0 < ttl) (.value "claim_ttl must be positive")
  let time ← Session.check fun _ => normalizeTime now clock
  Session.transaction (claimTx codec workerId token time ttl)

/-- The row is in flight under this token, which has not expired. -/
def Claimed (outboxId token : String) (time : Int) (row : OutboxRow) : Prop :=
  row.outboxId = outboxId ∧ row.status = .inFlight ∧ row.claimToken = some token ∧
    ∃ expiry ∈ row.claimExpiresAt, time < expiry

instance (outboxId token : String) (time : Int) (row : OutboxRow) :
    Decidable (Claimed outboxId token time row) :=
  inferInstanceAs (Decidable (_ ∧ _ ∧ _ ∧ _))

/-- The row without the marks of a claim. -/
def unclaimed : OutboxRow :=
  { row with claimedBy := none, claimToken := none, claimedAt := none, claimExpiresAt := none }

def deliver (resultJson : Option String) (time : Int) (row : OutboxRow) : OutboxRow :=
  { unclaimed row with
    status := .delivered
    deliveryResultJson := resultJson
    deliveredAt := some time
    lastErrorJson := none }

def ack (token : String) (result : Option π) (now : Option Timestamp) (clock : Int) :
    Session (OutboxStore σ) OutboxError Bool := do
  let time ← Session.check fun _ => normalizeTime now clock
  let resultJson ← Session.check fun _ => result.mapM codec.dumps
  Session.transaction do
    let count ← updateWhere (fun row => decide (Claimed outboxId token time row)) (deliver resultJson time)
    return decide (count = 1)

/-- What `nack` is given. -/
inductive Failure (π : Type) where
  | exception (type message : String)
  | text (message : String)
  | mapping (value : π)

/-- `_serialize_error` -/
def serializeError : Failure π → π
  | .exception type message => codec.ofTexts [("type", type), ("message", message)]
  | .text message => codec.ofTexts [("message", message)]
  | .mapping value => value

/-- The row after a failed delivery: for another attempt, or for an operator. -/
def giveBack (terminal : Bool) (nextTime : Int) (errorJson : String) (row : OutboxRow) : OutboxRow :=
  { unclaimed row with
    status := if terminal then .failed else .pending
    availableAt := nextTime
    lastErrorJson := some errorJson }

def nack (token : String) (failure : Failure π) (retryAt : Option Timestamp) (terminal : Bool)
    (now : Option Timestamp) (clock : Int) : Session (OutboxStore σ) OutboxError Bool := do
  let time ← Session.check fun _ => normalizeTime now clock
  let nextTime ← Session.check fun _ => normalizeTime (retryAt.or (some (.aware time))) clock
  let errorJson ← Session.check fun _ => codec.dumps (serializeError codec failure)
  Session.transaction do
    let count ← updateWhere (fun row => decide (Claimed outboxId token time row))
      (giveBack terminal nextTime errorJson)
    return decide (count = 1)

def retryFailed (availableAt : Option Timestamp) (clock : Int) : Session (OutboxStore σ) OutboxError Bool := do
  let time ← Session.check fun _ => normalizeTime availableAt clock
  Session.transaction do
    let count ← updateWhere (fun row => decide (row.outboxId = outboxId ∧ row.status = .failed)) fun row =>
      { row with status := .pending, availableAt := time }
    return decide (count = 1)

end
end LongHorizonOS.TransactionalOutbox
