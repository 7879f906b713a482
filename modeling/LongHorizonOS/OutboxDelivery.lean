import LongHorizonOS.TransactionalOutbox

/-! Workers on one outbox, each with a clock of its own. Whatever they call and
in whatever order, a mutation is committed once for each idempotency key, and a
row is acknowledged once. -/
namespace LongHorizonOS.OutboxDelivery
open KeyedRows FailFast Session TransactionalOutbox List
open Session (check_ok check_bind_ok check_readOnly transaction_allOrNothing transaction_ok)

/-! ## Calls -/

inductive OutboxCall (σ π : Type) where
  | commitIntent (intent : OutboxIntent π) (mutate : σ → Except OutboxError σ)
      (transactionId : Option String) (now : Option Timestamp)
  | claimNext (workerId : String) (now : Option Timestamp) (ttl : Int)
  | ack (outboxId token : String) (result : Option π) (now : Option Timestamp)
  | nack (outboxId token : String) (failure : Failure π) (retryAt : Option Timestamp) (terminal : Bool)
      (now : Option Timestamp)
  | retryFailed (outboxId : String) (availableAt : Option Timestamp)

/-- A call, with what the caller's clock shows and the texts that `uuid4` gives it. -/
structure Turn (σ π : Type) where
  clock : Int
  draw : ℕ → String
  call : OutboxCall σ π

inductive Reply where
  | committed (applied : Bool)
  | claimed (row : Option OutboxRow)
  | answered (hit : Bool)
  | raised (failure : OutboxError)

section
variable {σ π α : Type} (codec : Codec π)

/-- A session as one call, which is one transaction. -/
def replying (body : Session (OutboxStore σ) OutboxError α) (reply : α → Reply) (store : OutboxStore σ) :
    Reply × OutboxStore σ :=
  match body store with
  | (.ok a, after) => (reply a, after)
  | (.error failure, after) => (.raised failure, after)

theorem replying_state (body : Session (OutboxStore σ) OutboxError α) (reply : α → Reply)
    (store : OutboxStore σ) : (replying body reply store).2 = (body store).2 := by
  unfold replying
  split <;> simp [*]

def perform (store : OutboxStore σ) (turn : Turn σ π) : Reply × OutboxStore σ :=
  match turn.call with
  | .commitIntent intent mutate transactionId now =>
    replying (commitIntent codec intent mutate transactionId now turn.clock turn.draw)
      (fun result => .committed result.2) store
  | .claimNext workerId now ttl =>
    replying (claimNext codec workerId now ttl turn.clock (turn.draw 0))
      (fun record => .claimed (record.map OutboxRecord.row)) store
  | .ack outboxId token result now =>
    replying (ack codec outboxId token result now turn.clock) .answered store
  | .nack outboxId token failure retryAt terminal now =>
    replying (nack codec outboxId token failure retryAt terminal now turn.clock) .answered store
  | .retryFailed outboxId availableAt =>
    replying (retryFailed outboxId availableAt turn.clock) .answered store

def run (store : OutboxStore σ) (turns : List (Turn σ π)) : OutboxStore σ :=
  turns.foldl (fun store turn => (perform codec store turn).2) store

/-- The calls of a run, each with its reply. -/
def history (store : OutboxStore σ) : List (Turn σ π) → List (Turn σ π × Reply)
  | [] => []
  | turn :: turns => (turn, (perform codec store turn).1) :: history (perform codec store turn).2 turns

theorem history_append : history codec store (turns ++ more) =
    history codec store turns ++ history codec (run codec store turns) more := by
  induction turns generalizing store with
  | nil => rfl
  | cons turn turns ih =>
    change _ :: history codec _ (turns ++ more) = _ :: (_ ++ _)
    rw [ih]
    rfl

end

section
variable {σ π : Type}

/-- The key and the mutation of a commit that has said it was applied. -/
def applied : Turn σ π × Reply → Option (String × (σ → Except OutboxError σ))
  | (⟨_, _, .commitIntent intent mutate _ _⟩, .committed true) => some (intent.idempotencyKey, mutate)
  | _ => none

/-- The key of a commit that has returned, applied or not. -/
def submitted : Turn σ π × Reply → Option String
  | (⟨_, _, .commitIntent intent _ _ _⟩, .committed _) => some intent.idempotencyKey
  | _ => none

theorem submitted_of_applied {entry : Turn σ π × Reply} (told : applied entry = some (key, mutate)) :
    submitted entry = some key := by
  unfold applied at told
  split at told <;> cases told
  rfl

/-- The acknowledgement of this row, if it has succeeded. -/
def acknowledges (outboxId : String) : Turn σ π × Reply → Bool
  | (⟨_, _, .ack other _ _ _⟩, .answered true) => decide (other = outboxId)
  | _ => false

/-- The row that a call names and the token that it presents for it. -/
def presents : OutboxCall σ π → Option (String × String)
  | .ack outboxId token _ _ => some (outboxId, token)
  | .nack outboxId token _ _ _ _ => some (outboxId, token)
  | _ => none

end

/-! ## What one call does -/

section
variable {σ π : Type} {store store' : OutboxStore σ}

/-- Rows change in place: they keep both their keys, and only those that `touched`
describes change at all. -/
structure Revises (touched : OutboxRow → Prop) (store store' : OutboxStore σ) : Prop where
  inner : store'.inner = store.inner
  rows : ∃ revise : OutboxRow → OutboxRow, store'.rows = store.rows.map revise ∧
    ∀ row, (revise row).outboxId = row.outboxId ∧ (revise row).idempotencyKey = row.idempotencyKey ∧
      (¬ touched row → revise row = row)

namespace Revises
theorem refl : Revises touched store store := ⟨rfl, id, (map_id _).symm, fun _ => ⟨rfl, rfl, fun _ => rfl⟩⟩

section
variable (revised : Revises touched store store')
include revised

theorem outboxIds : store'.rows.map OutboxRow.outboxId = store.rows.map OutboxRow.outboxId := by
  obtain ⟨revise, rows, same⟩ := revised.rows
  rw [rows, map_map]
  exact map_congr_left fun row _ => (same row).1

theorem idempotencyKeys : store'.rows.map OutboxRow.idempotencyKey = store.rows.map OutboxRow.idempotencyKey := by
  obtain ⟨revise, rows, same⟩ := revised.rows
  rw [rows, map_map]
  exact map_congr_left fun row _ => (same row).2.1

/-- A row that is not touched is still there as it was. -/
theorem stays (member : row ∈ store.rows) (spared : ¬ touched row) : row ∈ store'.rows := by
  obtain ⟨revise, rows, same⟩ := revised.rows
  rw [rows, ← (same row).2.2 spared]
  exact mem_map_of_mem member

theorem mono (within : ∀ row, touched row → wider row) : Revises wider store store' := by
  obtain ⟨revise, rows, same⟩ := revised.rows
  exact ⟨revised.inner, revise, rows, fun row =>
    ⟨(same row).1, (same row).2.1, fun spared => (same row).2.2 fun hit => spared (within row hit)⟩⟩

end

end Revises

theorem revises_updateWhere (condition : OutboxRow → Prop) [DecidablePred condition]
    (keeps : ∀ row, (change row).outboxId = row.outboxId ∧ (change row).idempotencyKey = row.idempotencyKey) :
    Revises condition store (updateWhere (fun row => decide (condition row)) change store).2 := by
  refine ⟨rfl, fun row => if decide (condition row) then change row else row, rfl, fun row => ?_⟩
  by_cases hit : condition row
  · simp [hit, keeps row]
  simp [hit]

/-! ### Commits -/

theorem getByIdempotencyKeyTx_ok (ran : getByIdempotencyKeyTx codec key store = (.ok found, store')) :
    store' = store ∧ (found = none ↔ key ∉ store.rows.map OutboxRow.idempotencyKey) := by
  obtain ⟨read, rfl⟩ := check_ok.mp ran
  refine ⟨rfl, ?_⟩
  rw [← lookup_eq_none]
  split at read
  · rename_i missing
    cases read
    simp [missing]
  rename_i row present
  obtain ⟨record, -, kept⟩ := bind_ok.mp read
  cases kept
  simp [present]

/-- What a commit has added. -/
structure Adds (intent : OutboxIntent π) (mutate : σ → Except OutboxError σ) (row : OutboxRow)
    (store store' : OutboxStore σ) : Prop where
  mutated : mutate store.inner = .ok store'.inner
  rows : store'.rows = store.rows ++ [row]
  named : row.idempotencyKey = intent.idempotencyKey
  pending : row.status = .pending
  newKey : row.idempotencyKey ∉ store.rows.map OutboxRow.idempotencyKey
  newId : row.outboxId ∉ store.rows.map OutboxRow.outboxId

theorem enqueueTx_ok (ran : enqueueTx codec intent transactionId drawn commitTime clock store = (.ok record, store'))
    (unknown : intent.idempotencyKey ∉ store.rows.map OutboxRow.idempotencyKey) :
    ∃ row : OutboxRow, row.idempotencyKey = intent.idempotencyKey ∧ row.status = .pending ∧
      row.outboxId ∉ store.rows.map OutboxRow.outboxId ∧ store' = { store with rows := store.rows ++ [row] } := by
  obtain ⟨availableAt, -, ran⟩ := check_bind_ok.mp ran
  obtain ⟨payloadJson, -, ran⟩ := check_bind_ok.mp ran
  obtain ⟨headersJson, -, ran⟩ := check_bind_ok.mp ran
  obtain ⟨found, middle, got, ran⟩ := bind_ok.mp ran
  obtain ⟨rfl, missing⟩ := getByIdempotencyKeyTx_ok got
  obtain rfl := missing.mpr unknown
  obtain ⟨_, inserted, insert, back⟩ := bind_ok.mp ran
  obtain ⟨_, newId, insert⟩ := check_bind_ok.mp insert
  obtain ⟨_, -, insert⟩ := check_bind_ok.mp insert
  obtain rfl := write_ok.mp insert
  obtain ⟨-, rfl⟩ := check_ok.mp back
  exact ⟨_, rfl, rfl, require_ok.mp newId, rfl⟩

theorem commitTx_ok {transactionId drawn} {commitTime} {applied}
    (ran : commitTx codec intent mutate transactionId drawn commitTime clock store = (.ok (record, applied), store')) :
    applied = false ∧ store' = store ∧ intent.idempotencyKey ∈ store.rows.map OutboxRow.idempotencyKey ∨
      applied = true ∧ ∃ row, Adds intent mutate row store store' := by
  obtain ⟨found, middle, got, ran⟩ := bind_ok.mp ran
  obtain ⟨rfl, missing⟩ := getByIdempotencyKeyTx_ok got
  cases found with
  | some existing =>
    obtain ⟨_, -, ran⟩ := check_bind_ok.mp ran
    cases ran
    exact .inl ⟨rfl, rfl, not_not.mp fun unknown => nomatch missing.mpr unknown⟩
  | none =>
    have unknown := missing.mp rfl
    obtain ⟨_, changed, mutated, ran⟩ := bind_ok.mp ran
    obtain ⟨_, _, enqueued, ran⟩ := bind_ok.mp ran
    cases ran
    unfold mutateTx at mutated
    split at mutated
    · cases mutated
    rename_i inner mutate_ok
    cases mutated
    obtain ⟨row, named, pending, newId, rfl⟩ := enqueueTx_ok enqueued unknown
    exact .inr ⟨rfl, row, mutate_ok, rfl, named, pending, named ▸ unknown, newId⟩

theorem commitIntent_allOrNothing : (commitIntent codec intent mutate transactionId now clock draw).AllOrNothing :=
  (check_readOnly _).bind fun _ => transaction_allOrNothing _

theorem commitIntent_ok {applied}
    (ran : commitIntent codec intent mutate transactionId now clock draw store = (.ok (record, applied), store')) :
    applied = false ∧ store' = store ∧ intent.idempotencyKey ∈ store.rows.map OutboxRow.idempotencyKey ∨
      applied = true ∧ ∃ row, Adds intent mutate row store store' := by
  obtain ⟨commitTime, -, ran⟩ := check_bind_ok.mp ran
  exact commitTx_ok (transaction_ok.mp ran)

/-- A key that is already in the table is not committed again, whether or not
the intent is the one that was. -/
theorem commitIntent_known (known : intent.idempotencyKey ∈ store.rows.map OutboxRow.idempotencyKey) :
    (commitIntent codec intent mutate transactionId now clock draw store).2 = store := by
  generalize ended : commitIntent codec intent mutate transactionId now clock draw store = result
  obtain ⟨failure | ⟨record, applied⟩, after⟩ := result
  · exact commitIntent_allOrNothing _ _ _ ended
  rcases commitIntent_ok ended with ⟨-, same, -⟩ | ⟨-, row, added⟩
  · exact same
  exact absurd (added.named ▸ known) added.newKey

/-! ### Claims -/

/-- An update under a condition, as a call: it says whether it has hit one row. -/
theorem update_ok (ran : transaction (do
      let count ← updateWhere hits change return decide (count = 1)) store = (.ok hit, store')) :
    hit = decide (store.rows.countP hits = 1) ∧ store' = (updateWhere hits change store).2 := by
  cases transaction_ok.mp ran
  exact ⟨rfl, rfl⟩

theorem claimTx_ok (ran : claimTx codec workerId token time ttl store = (.ok claimed, store')) :
    Revises (Ready time) store store' := by
  obtain ⟨next, middle, read, ran⟩ := bind_ok.mp ran
  obtain rfl : store = middle := congrArg Prod.snd read
  cases next with
  | none =>
    cases ran
    exact Revises.refl
  | some row =>
    obtain ⟨count, updated, update, ran⟩ := bind_ok.mp ran
    have left : store' = updated := by
      by_cases other : count ≠ 1
      · rw [if_pos other] at ran
        cases ran
        rfl
      rw [if_neg other] at ran
      obtain ⟨record, _, back, returned⟩ := bind_ok.mp ran
      obtain ⟨-, rfl⟩ := check_ok.mp back
      exact (congrArg Prod.snd returned).symm
    obtain rfl : _ = updated := congrArg Prod.snd update
    rw [left]
    have keeps : ∀ row, (taken workerId token time ttl row).outboxId = row.outboxId ∧
        (taken workerId token time ttl row).idempotencyKey = row.idempotencyKey := fun _ => ⟨rfl, rfl⟩
    exact (revises_updateWhere _ keeps).mono fun other hit => hit.2

theorem claimNext_allOrNothing : (claimNext (σ := σ) codec workerId now ttl clock token).AllOrNothing :=
  (check_readOnly _).bind fun _ => (check_readOnly _).bind fun _ =>
    (check_readOnly _).bind fun _ => transaction_allOrNothing _

theorem claimNext_ok (ran : claimNext codec workerId now ttl clock token store = (.ok claimed, store')) :
    Revises (fun row => row.status ≠ .delivered) store store' := by
  obtain ⟨_, -, ran⟩ := check_bind_ok.mp ran
  obtain ⟨_, -, ran⟩ := check_bind_ok.mp ran
  obtain ⟨time, -, ran⟩ := check_bind_ok.mp ran
  refine (claimTx_ok (transaction_ok.mp ran)).mono fun row ready delivered => ?_
  rcases ready with ⟨pending, -⟩ | ⟨inFlight, -⟩ <;> simp_all

theorem ack_allOrNothing : (ack (σ := σ) codec outboxId token result now clock).AllOrNothing :=
  (check_readOnly _).bind fun _ => (check_readOnly _).bind fun _ =>
    transaction_allOrNothing _

theorem ack_ok (ran : ack codec outboxId token result now clock store = (.ok hit, store')) : ∃ time resultJson,
    hit = decide (store.rows.countP (fun row => decide (Claimed outboxId token time row)) = 1) ∧
    store' = (updateWhere (fun row => decide (Claimed outboxId token time row)) (deliver resultJson time) store).2 := by
  obtain ⟨time, -, ran⟩ := check_bind_ok.mp ran
  obtain ⟨resultJson, -, ran⟩ := check_bind_ok.mp ran
  exact ⟨time, resultJson, update_ok ran⟩

variable {failure : Failure π}

theorem nack_allOrNothing : (nack (σ := σ) codec outboxId token failure retryAt terminal now clock).AllOrNothing :=
  (check_readOnly _).bind fun _ => (check_readOnly _).bind fun _ =>
    (check_readOnly _).bind fun _ => transaction_allOrNothing _

theorem nack_ok (ran : nack codec outboxId token failure retryAt terminal now clock store = (.ok hit, store')) :
    ∃ time, Revises (Claimed outboxId token time) store store' := by
  obtain ⟨time, -, ran⟩ := check_bind_ok.mp ran
  obtain ⟨nextTime, -, ran⟩ := check_bind_ok.mp ran
  obtain ⟨errorJson, -, ran⟩ := check_bind_ok.mp ran
  obtain ⟨-, rfl⟩ := update_ok ran
  exact ⟨time, revises_updateWhere _ fun _ => ⟨rfl, rfl⟩⟩

theorem retryFailed_allOrNothing : (retryFailed (σ := σ) outboxId availableAt clock).AllOrNothing :=
  (check_readOnly _).bind fun _ => transaction_allOrNothing _

theorem retryFailed_ok (ran : retryFailed outboxId availableAt clock store = (.ok hit, store')) :
    Revises (fun row => row.outboxId = outboxId ∧ row.status = .failed) store store' := by
  obtain ⟨time, -, ran⟩ := check_bind_ok.mp ran
  obtain ⟨-, rfl⟩ := update_ok ran
  exact revises_updateWhere _ fun _ => ⟨rfl, rfl⟩

/-! ### Every call -/

/-- A row that a call may change: not a delivered one, and under the token that the
call presents. -/
def Touchable (call : OutboxCall σ π) (row : OutboxRow) : Prop :=
  row.status ≠ .delivered ∧ ∀ outboxId token, presents call = some (outboxId, token) →
      row.outboxId = outboxId ∧ row.claimToken = some token

theorem Claimed.touchable (claimed : Claimed outboxId token time row)
    (presented : presents call = some (outboxId, token)) : Touchable call row := by
  obtain ⟨named, inFlight, current, -⟩ := claimed
  refine ⟨by simp [inFlight], fun other text same => ?_⟩
  cases presented.symm.trans same
  exact ⟨named, current⟩

/-- What a call does that does not add a row: rows change in place, and an
acknowledgement that succeeds finds its row undelivered and leaves it delivered. -/
structure Settles (turn : Turn σ π) (reply : Reply) (store store' : OutboxStore σ) : Prop where
  nothingApplied : applied (turn, reply) = none
  known : ∀ key, submitted (turn, reply) = some key → key ∈ store.rows.map OutboxRow.idempotencyKey
  revised : Revises (Touchable turn.call) store store'
  acknowledged : ∀ outboxId, acknowledges outboxId (turn, reply) = true →
    (∃ row ∈ store.rows, row.outboxId = outboxId ∧ row.status ≠ .delivered) ∧
    ∃ row ∈ store'.rows, row.outboxId = outboxId ∧ row.status = .delivered

theorem Settles.raised (turn : Turn σ π) (failure : OutboxError) (store : OutboxStore σ) :
    Settles turn (.raised failure) store store := by
  obtain ⟨clock, draw, call⟩ := turn
  refine ⟨?_, fun key returned => ?_, Revises.refl, fun outboxId acked => ?_⟩
  · cases call <;> rfl
  · cases call <;> cases returned
  cases call <;> cases acked

theorem settles_ack (ran : ack codec outboxId token result now clock store = (.ok hit, store')) :
    Settles (⟨clock, draw, .ack outboxId token result now⟩ : Turn σ π) (.answered hit) store store' := by
  obtain ⟨time, resultJson, answer, rfl⟩ := ack_ok ran
  have revised : Revises (Claimed outboxId token time) store _ :=
    revises_updateWhere _ fun row : OutboxRow => (⟨rfl, rfl⟩ : (deliver resultJson time row).outboxId = _ ∧ _)
  refine ⟨rfl, nofun, revised.mono fun row held => Claimed.touchable held rfl, fun other acked => ?_⟩
  cases hit with
  | false => cases acked
  | true =>
    obtain rfl : outboxId = other := of_decide_eq_true acked
    have one := of_decide_eq_true answer.symm
    obtain ⟨row, member, claimed⟩ := countP_pos_iff.mp (one ▸ Nat.one_pos)
    have held : Claimed outboxId token time row := of_decide_eq_true claimed
    refine ⟨⟨row, member, held.1, by simp [held.2.1]⟩, deliver resultJson time row, ?_, held.1, rfl⟩
    exact mem_map.mpr ⟨row, member, by simp [held]⟩

/-- What a call can do: add one row for a new key, with its mutation, or settle. -/
inductive Moves (turn : Turn σ π) (store : OutboxStore σ) (ended : Reply × OutboxStore σ) : Prop
  | adds {intent : OutboxIntent π} {mutate : σ → Except OutboxError σ} {row : OutboxRow}
      (told : applied (turn, ended.1) = some (intent.idempotencyKey, mutate))
      (silent : ∀ outboxId, acknowledges outboxId (turn, ended.1) = false)
      (added : Adds intent mutate row store ended.2)
  | settles (settled : Settles turn ended.1 store ended.2)

/-- A call whose session changes nothing when it raises is judged by what it does
when it returns. -/
theorem moves_replying {body} {reply : α → Reply} {turn : Turn σ π} (guarded : body.AllOrNothing)
    (returned : ∀ a after, body store = (.ok a, after) → Moves turn store (reply a, after)) :
    Moves turn store (replying body reply store) := by
  unfold replying
  split
  · rename_i a after ran
    exact returned a after ran
  rename_i failure after raised
  rw [guarded store after failure raised]
  exact .settles (Settles.raised turn failure store)

theorem moves_perform : Moves turn store (perform codec store turn) := by
  obtain ⟨clock, draw, call⟩ := turn
  cases call with
  | commitIntent intent mutate transactionId now =>
    refine moves_replying commitIntent_allOrNothing ?_
    rintro ⟨record, applied⟩ after ran
    rcases commitIntent_ok ran with ⟨rfl, rfl, known⟩ | ⟨rfl, row, added⟩
    · exact .settles ⟨rfl, fun key returned => Option.some.inj returned ▸ known, Revises.refl, nofun⟩
    exact .adds rfl (fun _ => rfl) added
  | claimNext workerId now ttl =>
    refine moves_replying claimNext_allOrNothing fun claimed after ran => ?_
    exact .settles ⟨rfl, nofun, (claimNext_ok ran).mono fun row undelivered => ⟨undelivered, nofun⟩, nofun⟩
  | ack outboxId token result now =>
    exact moves_replying ack_allOrNothing fun hit after ran => .settles (settles_ack ran)
  | nack outboxId token failure retryAt terminal now =>
    refine moves_replying nack_allOrNothing fun hit after ran => ?_
    obtain ⟨time, revised⟩ := nack_ok ran
    exact .settles ⟨rfl, nofun, revised.mono fun row held => Claimed.touchable held rfl, nofun⟩
  | retryFailed outboxId availableAt =>
    refine moves_replying retryFailed_allOrNothing fun hit after ran => ?_
    exact .settles ⟨rfl, nofun, (retryFailed_ok ran).mono fun row failed => ⟨by simp [failed.2], nofun⟩, nofun⟩

end
/-! ## Runs -/

section
variable {σ π : Type}

/-- What the calls so far and the rows say together: the commits that were applied
are the rows, in their order, each under a key of its own; the state is what their
mutations make of the first; the key of a commit that returned is among them; and a row
that was acknowledged is delivered, and was acknowledged once. -/
structure Exact (start : σ) (past : List (Turn σ π × Reply)) (store : OutboxStore σ) : Prop where
  outboxIds : (store.rows.map OutboxRow.outboxId).Nodup
  idempotencyKeys : (store.rows.map OutboxRow.idempotencyKey).Nodup
  rows : store.rows.map OutboxRow.idempotencyKey = (past.filterMap applied).map Prod.fst
  inner : (past.filterMap applied).foldlM (fun state commit => commit.2 state) start = .ok store.inner
  submitted : ∀ entry ∈ past, ∀ key, submitted entry = some key → key ∈ store.rows.map OutboxRow.idempotencyKey
  once : ∀ outboxId, past.countP (acknowledges outboxId) ≤ 1
  delivered : ∀ outboxId, 0 < past.countP (acknowledges outboxId) →
    ∃ row ∈ store.rows, row.outboxId = outboxId ∧ row.status = .delivered

namespace Exact
variable {store store' : OutboxStore σ}

theorem adds (exact : Exact start past store) (told : applied (turn, reply) = some (intent.idempotencyKey, mutate))
    (silent : ∀ outboxId, acknowledges outboxId (turn, reply) = false)
    (added : Adds intent mutate row store store') : Exact start (past ++ [(turn, reply)]) store' := by
  have commits : (past ++ [(turn, reply)]).filterMap applied =
      past.filterMap applied ++ [(intent.idempotencyKey, mutate)] := by
    simp [told]
  have acks : ∀ outboxId, (past ++ [(turn, reply)]).countP (acknowledges outboxId) =
      past.countP (acknowledges outboxId) := by
    intro outboxId
    simp [countP_append, silent]
  refine ⟨?_, ?_, ?_, ?_, ?_, fun outboxId => (acks outboxId).trans_le (exact.once outboxId), ?_⟩
  · rw [added.rows, map_append]
    exact nodup_append_single exact.outboxIds added.newId
  · rw [added.rows, map_append]
    exact nodup_append_single exact.idempotencyKeys added.newKey
  · rw [added.rows, commits, map_append, map_append, exact.rows]
    simp [added.named]
  · rw [commits, foldlM_append, exact.inner]
    change (mutate store.inner >>= fun state => pure state) = _
    rw [added.mutated]
    rfl
  · rw [added.rows, map_append]
    refine forall_append_single (fun entry member key returned => ?_) fun key returned => ?_
    · exact mem_append_left _ (exact.submitted entry member key returned)
    · cases (submitted_of_applied told).symm.trans returned
      exact mem_append_right _ (mem_singleton.mpr added.named.symm)
  intro outboxId counted
  rw [acks] at counted
  obtain ⟨other, member, named, status⟩ := exact.delivered outboxId counted
  exact ⟨other, added.rows ▸ mem_append_left _ member, named, status⟩

theorem settles (exact : Exact start past store) (settled : Settles turn reply store store') :
    Exact start (past ++ [(turn, reply)]) store' := by
  have commits : (past ++ [(turn, reply)]).filterMap applied = past.filterMap applied := by
    simp [settled.nothingApplied]
  have kept : ∀ row ∈ store.rows, row.status = .delivered → row ∈ store'.rows :=
    fun row member status => settled.revised.stays member fun touched => touched.1 status
  have before : ∀ outboxId, acknowledges outboxId (turn, reply) = true →
      past.countP (acknowledges outboxId) = 0 := by
    intro outboxId acked
    obtain ⟨⟨row, member, named, undelivered⟩, -⟩ := settled.acknowledged outboxId acked
    by_contra counted
    obtain ⟨other, otherMember, otherNamed, status⟩ := exact.delivered outboxId (Nat.pos_of_ne_zero counted)
    obtain rfl := inj_on_of_nodup_map exact.outboxIds member otherMember (named.trans otherNamed.symm)
    exact undelivered status
  refine ⟨settled.revised.outboxIds ▸ exact.outboxIds, settled.revised.idempotencyKeys ▸ exact.idempotencyKeys,
    ?_, ?_, ?_, fun outboxId => ?_, fun outboxId counted => ?_⟩
  · rw [settled.revised.idempotencyKeys, commits, exact.rows]
  · rw [commits, exact.inner, settled.revised.inner]
  · rw [settled.revised.idempotencyKeys]
    exact forall_append_single exact.submitted settled.known
  · rw [countP_append, countP_singleton]
    split
    · rename_i acked
      rw [before outboxId acked]
    · exact exact.once outboxId
  cases acked : acknowledges outboxId (turn, reply) with
  | true => exact (settled.acknowledged outboxId acked).2
  | false =>
    rw [countP_append, countP_singleton, acked] at counted
    obtain ⟨row, member, named, status⟩ := exact.delivered outboxId (by simpa using counted)
    exact ⟨row, kept row member status, named, status⟩

end Exact

variable (codec : Codec π)

theorem exact_run (start : σ) (turns) :
    Exact start (history codec { inner := start } turns) (run codec { inner := start } turns) := by
  induction turns using List.reverseRecOn with
  | nil => exact ⟨nodup_nil, nodup_nil, rfl, rfl, fun _ member => (not_mem_nil member).elim, fun _ => Nat.zero_le _, nofun⟩
  | append_singleton turns turn ih =>
    rw [history_append]
    unfold run
    rw [foldl_append]
    change Exact start (history codec _ turns ++ [(turn, (perform codec (run codec _ turns) turn).1)])
      (perform codec (run codec _ turns) turn).2
    cases moves_perform with
    | adds told silent added => exact ih.adds told silent added
    | settles settled => exact ih.settles settled

/-- A delivered row is in the table as it is after any further calls. -/
theorem delivered_stays (store : OutboxStore σ) (more : List (Turn σ π)) (member : row ∈ store.rows)
    (status : row.status = .delivered) : row ∈ (run codec store more).rows := by
  induction more generalizing store with
  | nil => exact member
  | cons turn more ih =>
    refine ih _ ?_
    cases moves_perform with
    | adds told silent added => exact added.rows ▸ mem_append_left _ member
    | settles settled => exact settled.revised.stays member fun touched => touched.1 status

/-- Under the token of another claim a row stays as it is. -/
theorem stale_token_spares (store : OutboxStore σ) (turn : Turn σ π)
    (presented : presents turn.call = some (outboxId, token)) (member : row ∈ store.rows)
    (stale : row.claimToken ≠ some token) : row ∈ (perform codec store turn).2.rows := by
  cases moves_perform with
  | adds told silent added => exact added.rows ▸ mem_append_left _ member
  | settles settled =>
    exact settled.revised.stays member fun touched => stale (touched.2 outboxId token presented).2

/-- A key that was submitted has one row, and one commit under it was applied. -/
theorem Exact.one {entry : Turn σ π × Reply} (exact : Exact start past store) (member : entry ∈ past)
    (returned : OutboxDelivery.submitted entry = some key) :
    (store.rows.map OutboxRow.idempotencyKey).count key = 1 ∧
      ((past.filterMap applied).map Prod.fst).count key = 1 := by
  have one := count_eq_one_of_mem exact.idempotencyKeys (exact.submitted entry member key returned)
  exact ⟨one, exact.rows ▸ one⟩

/-- Workers that call the outbox in any order and at any times, from an empty table:
the keys of the commits that were applied are those of the rows, each once, and the
state is what exactly their mutations have made; the key of a commit that returned has
one row and one application; a commit under a key that is there changes nothing; each row is acknowledged at most once; a delivered row is not changed
by whatever follows; nor is any row by a call with another token than its current one. -/
theorem outbox_commits_and_acknowledges_once (codec : Codec π) (start : σ) (turns : List (Turn σ π)) :
    Exact start (history codec { inner := start } turns) (run codec { inner := start } turns) ∧
    (∀ entry ∈ history codec { inner := start } turns, ∀ key, submitted entry = some key →
      ((run codec { inner := start } turns).rows.map OutboxRow.idempotencyKey).count key = 1 ∧
      (((history codec { inner := start } turns).filterMap applied).map Prod.fst).count key = 1) ∧
    (∀ clock draw intent mutate transactionId now,
      intent.idempotencyKey ∈ (run codec { inner := start } turns).rows.map OutboxRow.idempotencyKey →
      (perform codec (run codec { inner := start } turns)
        ⟨clock, draw, .commitIntent intent mutate transactionId now⟩).2 = run codec { inner := start } turns) ∧
    (∀ row ∈ (run codec { inner := start } turns).rows, row.status = .delivered →
      ∀ more, row ∈ (run codec { inner := start } (turns ++ more)).rows) ∧
    ∀ turn outboxId token, presents turn.call = some (outboxId, token) →
      ∀ row ∈ (run codec { inner := start } turns).rows, row.claimToken ≠ some token →
        row ∈ (perform codec (run codec { inner := start } turns) turn).2.rows := by
  have exact := exact_run codec start turns
  refine ⟨exact, fun entry member key returned => exact.one member returned, ?_, ?_, ?_⟩
  · intro clock draw intent mutate transactionId now known
    exact (replying_state _ _ _).trans (commitIntent_known known)
  · intro row member status more
    have later := delivered_stays codec _ more member status
    unfold run at later ⊢
    rwa [foldl_append]
  · intro turn outboxId token presented row member stale
    exact stale_token_spares codec _ turn presented member stale

end

/-- An intent with a mutation that counts, submitted by two workers. -/
def submittedTwice : List (Turn ℕ String) :=
  ["o", "q"].map fun id => ⟨0, fun _ => id, .commitIntent ⟨"d", "x", "k", "", none, none, none, none, none, none,
    by decide, by decide⟩ (fun n => .ok (n + 1)) none none⟩

def textCodec : Codec String := ⟨.ok, .ok, id, fun _ => ""⟩

/-- Both return, and there is one row and one application. -/
theorem submitted_twice_applied_once :
    (history textCodec { inner := 0 } submittedTwice).map submitted = [some "k", some "k"] ∧
    (run textCodec { inner := 0 } submittedTwice).inner = 1 ∧
    ((run textCodec { inner := 0 } submittedTwice).rows.map OutboxRow.idempotencyKey).count "k" = 1 := by
  have returned : (history textCodec { inner := 0 } submittedTwice).map submitted = [some "k", some "k"] := by
    decide +kernel
  obtain ⟨entry, member, key⟩ := mem_map.mp (returned ▸ mem_cons_self)
  have once := (outbox_commits_and_acknowledges_once textCodec 0 submittedTwice).2.1 entry member "k" key
  exact ⟨returned, by decide +kernel, once.1⟩

end LongHorizonOS.OutboxDelivery
