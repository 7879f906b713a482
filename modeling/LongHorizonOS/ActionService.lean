import LongHorizonOS.LeaseService

/-! The action service. Most methods read an action, journal what happens to it
and write its projection in three separate accesses; the conditional ones do
all of it in one transaction. -/
namespace LongHorizonOS.ActionService
open KeyedRows PythonValues FailFast KernelModels KernelTasks LeaseService

/-! ## The projection -/

def getAction (store : KernelStore) (actionId : String) : Option ActionControlBlock :=
  lookup ActionControlBlock.actionId store.actions actionId

/-- An empty `dict` is stored as `NULL`. -/
def storedDict : Option Dict → Option Dict
  | some [] => none
  | value => value

variable (acb : ActionControlBlock)

/-- The row after the upsert: on a conflict the columns of the submission stay. -/
def projected : Option ActionControlBlock → ActionControlBlock
  | none => { acb with result := storedDict acb.result, error := storedDict acb.error }
  | some row =>
    { row with
      state := acb.state
      resourceClaims := acb.resourceClaims
      leaseIds := acb.leaseIds
      fencingTokens := acb.fencingTokens
      retryCount := acb.retryCount
      result := storedDict acb.result
      error := storedDict acb.error }

/-- `_upsert_projection_tx` -/
def upsertProjection (store : KernelStore) : KernelStore :=
  let row := projected acb (getAction store acb.actionId)
  { store with actions := upsert ActionControlBlock.actionId row store.actions }

/-! ## Methods of three accesses -/

variable (actionId : String)

/-- Read the action, journal, write the projection. -/
def revise (change : ActionControlBlock → Except KernelError (ActionControlBlock × EventBody)) :
    KernelTask Unit := do
  match ← query fun store => getAction store actionId with
  | none => throw (.valueError ("Action not found: " ++ actionId))
  | some acb =>
    let (revised, body) ← compute (change acb)
    appendEvent { access := .append actionId (some acb) } acb.pid body
    update { access := .upsert actionId (some acb) revised.state } (upsertProjection revised)

/-- Enter a state, with what else the method sets and journals. -/
def enter (target : ActionState) (body : EventBody)
    (set : ActionControlBlock → ActionControlBlock) : KernelTask Unit :=
  revise actionId fun acb => do
    let moved ← applyActionTransition acb target
    return (set moved, body)

structure Submission where
  pid : String
  deviceType : String
  operation : String
  arguments : Dict := []
  sideEffectClass : SideEffectClass := .pure
  recoveryPolicy : RecoveryPolicy := .retry
  resourceClaims : List ResourceClaim := []
  actionId : Option String := none
  deriving DecidableEq

variable (submission : Submission)

/-- `action_id or uuid4().hex` -/
def Submission.idOr (drawn : String) : String :=
  match submission.actionId with
  | some "" => drawn
  | some actionId => actionId
  | none => drawn

def Submission.record (actionId : String) (now : Int) : ActionControlBlock :=
  { actionId
    pid := submission.pid
    deviceType := submission.deviceType
    operation := submission.operation
    arguments := submission.arguments
    resourceClaims := submission.resourceClaims
    sideEffectClass := submission.sideEffectClass
    recoveryPolicy := submission.recoveryPolicy
    submittedAt := now }

def submit : KernelTask ActionControlBlock := do
  let draw ← drawIds 1
  let now ← readClock
  let acb := submission.record (submission.idOr (draw 0)) now
  appendEvent { access := .append acb.actionId none } acb.pid (.actionSubmitted acb)
  update { access := .upsert acb.actionId none acb.state } (upsertProjection acb)
  return acb

/-- `admit` of the source. -/
def admitAction : KernelTask Unit :=
  enter actionId .admitted (.actionAdmitted actionId) id

def reject (reason : String) : KernelTask Unit :=
  enter actionId .failed (.actionRejected actionId reason) fun acb =>
    { acb with error := some [("reason", .str reason)] }

/-- `mark_intent_durable` checks no transition. Without tokens those of the
action stay. -/
def markIntentDurable (leaseIds : List String)
    (fencingTokens : Option (List (String × Int))) : KernelTask Unit :=
  revise actionId fun acb =>
    let marked := { acb with leaseIds, fencingTokens := fencingTokens.getD acb.fencingTokens }
    .ok (marked, .actionIntentDurable actionId leaseIds marked.fencingTokens)

def dispatch : KernelTask Unit :=
  enter actionId .running (.actionRunning actionId) id

variable (result : Dict)

def commit : KernelTask Unit :=
  enter actionId .committed (.actionCommitted actionId result) fun acb =>
    { acb with result := some result }

def fail (error : Dict) : KernelTask Unit :=
  enter actionId .failed (.actionFailed actionId error) fun acb => { acb with error := some error }

def markTimedOut : KernelTask Unit :=
  enter actionId .timedOut (.actionTimedOut actionId) fun acb =>
    { acb with error := some [("reason", .str "timeout")] }

variable (detail : Dict)

/-- `detail or {"reason": "uncertain"}` -/
def uncertainDetail : Dict :=
  if detail = [] then [("reason", .str "uncertain")] else detail

def markUncertain : KernelTask Unit :=
  enter actionId .uncertain (.actionUncertain actionId detail) fun acb =>
    { acb with error := some (uncertainDetail detail) }

def cancel : KernelTask Unit :=
  enter actionId .cancelled (.actionCancelled actionId) id

/-! ## Fencing contracts -/

variable (now : Int)

/-- The lease is the process's, in force, and of the current epoch of its
resource, with the token that the action has recorded. -/
def leaseError (store : KernelStore) (lease : ResourceLease) : Option String :=
  if lease.ownerPid ≠ acb.pid then some "lease_owner_mismatch"
  else if lease.expiresAt ≤ now then some "lease_expired"
  else if lease.fencingToken ≤ 0 ∨ (lookup Prod.fst acb.fencingTokens lease.resourceId).map Prod.snd ≠
      some lease.fencingToken then some "lease_fencing_token_mismatch"
  else if lastToken store lease.resourceId ≠ some lease.fencingToken then
    some "resource_fencing_token_superseded"
  else none

/-- The leases of the action, or what is wrong with the first that fails. -/
def fencedLeases (acb : ActionControlBlock) (now : Int) (store : KernelStore) :
    List String → Except String (List ResourceLease)
  | [] => .ok []
  | leaseId :: rest => do
    let lease ← demand (findLease store leaseId) "lease_missing"
    match leaseError acb now store lease with
    | some reason => .error reason
    | none =>
      let leases ← fencedLeases acb now store rest
      return lease :: leases

/-- `_validate_fencing_contract_tx`, as the reason why the contract does not hold. -/
def validateFencingContract (store : KernelStore) : Except KernelError (Option String) :=
  if acb.resourceClaims = [] then
    .ok (if acb.leaseIds ≠ [] then some "unexpected_leases"
      else if acb.fencingTokens ≠ [] then some "unexpected_fencing_tokens"
      else none)
  else if acb.leaseIds.length ≠ acb.resourceClaims.length ∨ ¬ acb.leaseIds.Nodup then
    .ok (some "lease_count_mismatch")
  else do
    let expected ← claimed acb.resourceClaims
    if ¬ ((∀ entry ∈ acb.fencingTokens, entry.1 ∈ expected.map Prod.fst) ∧
        ∀ claim ∈ expected, claim.1 ∈ acb.fencingTokens.map Prod.fst) then
      return some "fencing_token_count_mismatch"
    else match fencedLeases acb now store acb.leaseIds with
      | .error reason => return some reason
      | .ok leases =>
        return if (leased leases).Perm expected then none else some "lease_claim_mismatch"

/-! ## Methods of one transaction -/

/-- Revise a running action, unless something forbids it. The result is the
reason why nothing was done. -/
def conditionalTx (forbids : ActionControlBlock → KernelStore → Except KernelError (Option String))
    (change : ActionControlBlock → ActionControlBlock × EventBody) :
    Session KernelStore KernelError (Option String) := fun store =>
  match getAction store actionId with
  | none => (.ok (some "action_missing"), store)
  | some acb =>
    if acb.state ≠ .running then (.ok (some ("action_not_running:" ++ acb.state.value)), store)
    else match forbids acb store with
      | .error failure => (.error failure, store)
      | .ok (some reason) => (.ok (some reason), store)
      | .ok none =>
        let (revised, body) := change acb
        (.ok none, upsertProjection revised (appendEvents [⟨acb.pid, body⟩] store))

/-- The checks before a retry, up to the fence. -/
def retryForbidden (budget : ActionControlBlock → Option String)
    (acb : ActionControlBlock) (store : KernelStore) : Except KernelError (Option String) :=
  if acb.sideEffectClass ≠ .pure ∨ acb.recoveryPolicy ≠ .retry then .ok (some "retry_not_permitted")
  else match budget acb with
    | some reason => .ok (some reason)
    | none => validateFencingContract acb now store

def reserveRetryIfFenced : KernelTask (Option String) :=
  transaction { access := .decide actionId } fun _ => conditionalTx actionId
    (retryForbidden now fun acb => if 1 ≤ acb.retryCount then some "retry_budget_exhausted" else none)
    fun acb => ({ acb with retryCount := acb.retryCount + 1 },
      .actionRetryReserved actionId (acb.retryCount + 1))

/-- The same checks for a retry that is reserved. Nothing is written. -/
def validateReservedRetryIfFenced : KernelTask (Option String) :=
  transaction {} fun _ => Session.check fun store =>
    match getAction store actionId with
    | none => .ok (some "action_missing")
    | some acb =>
      if acb.state ≠ .running then .ok (some ("action_not_running:" ++ acb.state.value))
      else retryForbidden now
        (fun acb => if acb.retryCount ≠ 1 then some "retry_not_reserved" else none) acb store

def commitTx (now : Int) : Session KernelStore KernelError (Option String) :=
  conditionalTx actionId (fun acb store => validateFencingContract acb now store) fun acb =>
    ({ acb with state := .committed, result := some result }, .actionCommitted actionId result)

/-- `commit_if_fenced`, with the reading of the clock that it is given. -/
def commitIfFenced (now : Int) : KernelTask (Option String) :=
  transaction { access := .commit actionId now } fun _ => commitTx actionId result now

def failIfRunning (error : Dict) : KernelTask Bool := do
  let forbidden ← transaction { access := .decide actionId } fun _ =>
    conditionalTx actionId (fun _ _ => .ok none) fun acb =>
      ({ acb with state := .failed, error := some error }, .actionFailed actionId error)
  return forbidden.isNone

def markUncertainIfRunning : KernelTask Bool := do
  let error := uncertainDetail detail
  let forbidden ← transaction { access := .decide actionId } fun _ =>
    conditionalTx actionId (fun _ _ => .ok none) fun acb =>
      ({ acb with state := .uncertain, error := some error }, .actionUncertain actionId error)
  return forbidden.isNone

/-! ## Queries -/

/-- `list_by_pid`, in the order of submission. -/
def listByPid (pid : String) (store : KernelStore) : List ActionControlBlock :=
  (store.actions.filter fun acb => decide (acb.pid = pid)).insertionSort
    fun a b => a.submittedAt ≤ b.submittedAt

def listNonTerminal (store : KernelStore) : List ActionControlBlock :=
  store.actions.filter fun acb => decide (¬ acb.state.Terminal)

/-! ## Replay -/

/-- What an event says about an action: the id, and what becomes of the row. -/
def replayChange : EventBody → Option (String × (ActionControlBlock → ActionControlBlock))
  | .actionAdmitted actionId => some (actionId, fun acb => { acb with state := .admitted })
  | .actionIntentDurable actionId leaseIds fencingTokens =>
    some (actionId, fun acb => { acb with leaseIds, fencingTokens })
  | .actionRunning actionId => some (actionId, fun acb => { acb with state := .running })
  | .actionRetryReserved actionId retryCount => some (actionId, fun acb =>
      { acb with retryCount := max (max acb.retryCount retryCount) 1 })
  | .actionCommitted actionId result => some (actionId, fun acb =>
      { acb with state := .committed, result := some result })
  | .actionFailed actionId error => some (actionId, fun acb =>
      { acb with state := .failed, error := some (replayError error "action_failed") })
  | .actionRejected actionId reason => some (actionId, fun acb =>
      { acb with state := .failed, error := some (replayError [] reason) })
  | .actionTimedOut actionId => some (actionId, fun acb =>
      { acb with state := .timedOut, error := some (replayError [] "action_failed") })
  | .actionUncertain actionId detail => some (actionId, fun acb =>
      { acb with state := .uncertain, error := some (replayError detail "action_failed") })
  | .actionCancelled actionId => some (actionId, fun acb => { acb with state := .cancelled })
  | _ => none
where
  /-- `payload.get("error") or payload.get("detail") or {"reason": ...}` -/
  replayError (error : Dict) (reason : String) : Dict :=
    if error = [] then [("reason", .str reason)] else error

def handleEvent (store : KernelStore) (event : KernelEvent) : KernelStore :=
  match event.body with
  | .actionSubmitted acb => upsertProjection acb store
  | body =>
    match replayChange body with
    | none => store
    | some (actionId, change) =>
      match getAction store actionId with
      | none => store
      | some acb => upsertProjection (change acb) store

end LongHorizonOS.ActionService
