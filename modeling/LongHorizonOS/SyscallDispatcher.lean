import LongHorizonOS.ActionService
import LongHorizonOS.CapabilityService
import LongHorizonOS.SignalService

/-! The dispatcher of system calls. A request is the fields of its class and a
text that selects the handler; the two need not agree, since a program builds
its requests itself. A handler that reads a field which the class does not have
raises where it reads it. -/
namespace LongHorizonOS.SyscallDispatcher
open PythonValues FailFast KernelModels KernelTasks
open LeaseService ActionService ProcessService CapabilityService SignalService

/-! ## Requests -/

/-- What is given explicitly for an action. Without a class or a policy the
request has its default. -/
structure ActionRequest where
  deviceType : String
  operation : String
  arguments : Dict := []
  resourceClaims : List ResourceClaim := []
  sideEffectClass : Option SideEffectClass := none
  recoveryPolicy : Option RecoveryPolicy := none
  deriving DecidableEq

inductive RequestFields where
  | base
  | spawn (programId : String) (parentPid : Option String) (namespaceId resourceGroupId : String)
      (initialState : Dict)
  | submitAction (request : ActionRequest)
  | inspectAction (actionId : String)
  | cancelAction (actionId : String)
  | acquire (claims : List ResourceClaim)
  | release (leaseIds : List String)
  | wait (condition : Dict)
  | signal (targetPid signalType : String) (payload : Dict)
  | restore (checkpointId : String)
  | exit (exitCode : String) (resultRef : Option String)
  deriving DecidableEq

structure KernelRequest where
  requestType : String
  fields : RequestFields
  deriving DecidableEq

/-- What a handler answers: the type and the payload of an event. -/
structure Reply where
  eventType : String
  payload : Dict := []
  deriving DecidableEq

/-- Journal the answer as well. -/
def journalled (pid : String) (reply : Reply) : KernelTask Reply := do
  appendEvent {} pid (.note reply.eventType reply.payload)
  return reply

def missing {α : Type} (name : String) : KernelTask α := throw (.attributeError name)

/-! ## Spawning -/

/-- The child has the context and the capabilities of its parent; only the
kernel itself, with no `pid`, starts a process from the defaults. -/
def handleSpawn (pid : String) : RequestFields → KernelTask Reply
  | .spawn programId parentPid namespaceId resourceGroupId initialState => do
    let failed := journalled pid { eventType := "SPAWN_FAILED", payload := [("reason", .str "invalid_parent")] }
    if pid ≠ "" then
      match ← query fun store => getProcess store pid with
      | none => failed
      | some parent =>
        if parentPid ≠ none ∧ parentPid ≠ some pid then failed
        else
          let capabilities ← query fun store => getCapabilitySet store pid
          complete
            { programId, namespaceId := parent.namespaceId, parentPid := some pid
              resourceGroupId := parent.resourceGroupId, programState := initialState }
            (capabilities.getD [])
    else if parentPid ≠ none then failed
    else
      let namespaceId := if namespaceId = "" then "default" else namespaceId
      complete { programId, namespaceId, resourceGroupId, programState := initialState } fullCapabilities
  | _ => missing "parent_pid"
where
  complete (spawning : Spawning) (capabilities : List Capability) : KernelTask Reply := do
    let pcb ← spawn spawning
    createCapabilitySet pcb.pid capabilities
    update {} (upsertProcess pcb)
    journalled pcb.pid
      { eventType := "SPAWN_COMPLETE"
        payload := [("pid", .str pcb.pid), ("program_id", .str pcb.programId)] }

/-! ## Actions -/

/-- `claim["resource_id"]` -/
def resourceOf (claim : ResourceClaim) : Except KernelError String :=
  demand claim.resourceId (.keyError "resource_id")

/-- Every claim is checked before anything is acquired. -/
def enforceClaims (pid : String) (claims : List ResourceClaim) : KernelTask Unit :=
  claims.forM fun claim => do
    let resourceId ← compute (resourceOf claim)
    enforce pid resourceId "acquire"

/-- The fields that a strict kernel misses. -/
def missingFields (request : ActionRequest) : List String :=
  (if request.sideEffectClass = none then ["side_effect_class"] else []) ++
    if request.recoveryPolicy = none then ["recovery_policy"] else []

def ActionRequest.submission (request : ActionRequest) (pid : String) : Submission :=
  { pid
    deviceType := request.deviceType
    operation := request.operation
    arguments := request.arguments
    sideEffectClass := request.sideEffectClass.getD .pure
    recoveryPolicy := request.recoveryPolicy.getD .retry
    resourceClaims := request.resourceClaims }

/-- `self._lease_service.atomic_acquire(pid, claims)` with fresh ids. -/
def acquireLeases (pid : String) (claims : List ResourceClaim) : KernelTask (List ResourceLease) := do
  let draw ← drawIds claims.length
  atomicAcquire pid claims draw defaultLeaseTtl

/-- Resource acquisition is part of admission: without it the action is rejected. -/
def acquireForAction (pid actionId : String) (claims : List ResourceClaim) : KernelTask (List ResourceLease) :=
  if claims = [] then return []
  else tryCatch (acquireLeases pid claims) fun failure => do
    reject actionId failure.text
    clearWaitersForPid pid
    throw failure

/-- What is left of an admission that raised is undone. -/
def undoAdmission (pid actionId : String) (leaseIds : List String) (failure : KernelError) :
    KernelTask Unit := do
  tryCatch (do
    match ← query fun store => getAction store actionId with
    | none => return ()
    | some current =>
      if current.state = .submitted then reject actionId failure.text
      else if current.state = .admitted then
        fail actionId [("reason", .str "admission_failed"), ("detail", .str failure.kind)]
      else return ()) fun _ => return ()
  LeaseService.release leaseIds
  clearWaitersForPid pid

def admitAction (pid actionId : String) (leases : List ResourceLease) : KernelTask Unit :=
  let leaseIds := leases.map ResourceLease.leaseId
  let fencingTokens := leases.map fun lease => (lease.resourceId, lease.fencingToken)
  tryCatch (do
    ActionService.admitAction actionId
    markIntentDurable actionId leaseIds (some fencingTokens)) fun failure => do
    undoAdmission pid actionId leaseIds failure
    throw failure

def handleSubmitAction (strict : Bool) (pid : String) : RequestFields → KernelTask Reply
  | .submitAction request =>
    if strict = true ∧ missingFields request ≠ [] then
      journalled pid
        { eventType := "ACTION_REJECTED"
          payload := [("reason", .str "effect_contract_required"),
            ("missing_fields", Json.ofTexts (missingFields request)),
            ("device_type", .str request.deviceType), ("operation", .str request.operation)] }
    else do
      enforce pid ("device:" ++ request.deviceType) "invoke"
      enforceClaims pid request.resourceClaims
      let acb ← submit (request.submission pid)
      let leases ← acquireForAction pid acb.actionId request.resourceClaims
      admitAction pid acb.actionId leases
      return { eventType := "ACTION_READY_FOR_DISPATCH"
               payload := [("action_id", .str acb.actionId), ("device_type", .str request.deviceType)] }
  | _ => missing "device_type"

/-- The field that two of the classes have. -/
def RequestFields.actionId? : RequestFields → Option String
  | .inspectAction actionId | .cancelAction actionId => some actionId
  | _ => none

/-- `acb is None or acb.pid != req.pid` -/
def ownAction (pid actionId : String) (store : KernelStore) : Option ActionControlBlock :=
  (getAction store actionId).filter fun acb => decide (acb.pid = pid)

def optionalDict : Option Dict → Json
  | none => .null
  | some d => Json.ofDict d

def handleInspectAction (pid : String) (fields : RequestFields) : KernelTask Reply := do
  let actionId ← compute (demand fields.actionId? (.attributeError "action_id"))
  match ← query (ownAction pid actionId) with
  | none =>
    journalled pid
      { eventType := "ACTION_INSPECT_FAILED"
        payload := [("action_id", .str actionId), ("reason", .str "not_found")] }
  | some acb =>
    journalled pid
      { eventType := "ACTION_INSPECTED"
        payload := [("action_id", .str actionId), ("state", .str acb.state.value),
          ("result", optionalDict acb.result), ("error", optionalDict acb.error)] }

def handleCancelAction (pid : String) (fields : RequestFields) : KernelTask Reply := do
  let actionId ← compute (demand fields.actionId? (.attributeError "action_id"))
  match ← query (ownAction pid actionId) with
  | none =>
    return { eventType := "ACTION_CANCEL_FAILED"
             payload := [("action_id", .str actionId), ("reason", .str "not_found")] }
  | some acb =>
    cancel actionId
    LeaseService.release acb.leaseIds
    clearWaitersForPid acb.pid
    return { eventType := "ACTION_CANCELLED", payload := [("action_id", .str actionId)] }

/-! ## Resources -/

def handleAcquire (pid : String) : RequestFields → KernelTask Reply
  | .acquire claims => do
    enforceClaims pid claims
    let leases ← acquireLeases pid claims
    return { eventType := "RESOURCE_ACQUIRED"
             payload := [("lease_ids", Json.ofTexts (leases.map ResourceLease.leaseId)),
               ("resources", Json.ofTexts (leases.map ResourceLease.resourceId))] }
  | _ => missing "claims"

/-- All leases of the request belong to the process. Each is read on its own. -/
def ownsAll (pid : String) : List String → KernelTask Bool
  | [] => return true
  | leaseId :: rest => do
    let lease ← query fun store => findLease store leaseId
    let others ← ownsAll pid rest
    return lease.any (fun lease => decide (lease.ownerPid = pid)) && others

def handleRelease (pid : String) : RequestFields → KernelTask Reply
  | .release leaseIds => do
    if ← ownsAll pid leaseIds then
      LeaseService.release leaseIds
      return { eventType := "RESOURCE_RELEASED", payload := [("lease_ids", Json.ofTexts leaseIds)] }
    else
      return { eventType := "RESOURCE_RELEASE_FAILED"
               payload := [("count", .int 0), ("reason", .str "not_found")] }
  | _ => missing "lease_ids"

/-! ## Processes -/

def handleWait (pid : String) : RequestFields → KernelTask Reply
  | .wait condition => do
    transition pid .blocked (some (.requested condition))
    return { eventType := "PROCESS_BLOCKED", payload := [("condition", Json.ofDict condition)] }
  | _ => missing "condition"

def handleSignal (pid : String) : RequestFields → KernelTask Reply
  | .signal targetPid signalType payload => do
    enforce pid ("process:signal/" ++ targetPid) "send"
    let signal ← send targetPid signalType (some pid) payload
    return { eventType := "SIGNAL_SENT"
             payload := [("signal_id", .str signal.signalId), ("target_pid", .str targetPid)] }
  | _ => missing "target_pid"

/-- Only the `pid` is read, which every request has. -/
def handleCheckpoint (pid : String) : KernelTask Reply := do
  match ← query fun store => getProcess store pid with
  | none => throw (.valueError ("Process not found: " ++ pid))
  | some pcb =>
    let offset ← query fun store => store.journal.length
    let draw ← drawIds 1
    let checkpoint : ProcessCheckpoint :=
      { checkpointId := draw 0, pid, journalOffset := offset, processSequence := pcb.eventCursor
        waitCondition := storedWait pcb.waitCondition }
    update {} fun store => { store with checkpoints := store.checkpoints ++ [checkpoint] }
    update {} (upsertProcess { pcb with checkpointRef := some checkpoint.checkpointId })
    journalled pid
      { eventType := "CHECKPOINT_CREATED"
        payload := [("checkpoint_id", .str checkpoint.checkpointId), ("journal_offset", .int offset)] }

def handleRestore (pid : String) : RequestFields → KernelTask Reply
  | .restore checkpointId => do
    let found ← query fun store => store.checkpoints.find? fun checkpoint =>
      decide (checkpoint.checkpointId = checkpointId ∧ checkpoint.pid = pid)
    match found with
    | none =>
      journalled pid
        { eventType := "CHECKPOINT_RESTORE_FAILED"
          payload := [("checkpoint_id", .str checkpointId), ("reason", .str "not_found")] }
    | some checkpoint =>
      journalled pid
        { eventType := "CHECKPOINT_RESTORED"
          payload := [("checkpoint_id", .str checkpointId),
            ("journal_offset", .int checkpoint.journalOffset)] }
  | _ => missing "checkpoint_id"

/-- The process is closed for new leases before the old ones are released. -/
def handleExit (pid : String) (fields : RequestFields) : KernelTask Reply := do
  transition pid .exited none
  releaseAllForPid pid
  let found ← query fun store => getProcess store pid
  match fields with
  | .exit exitCode resultRef =>
    match found with
    | none => pure ()
    | some pcb => update {} (upsertProcess { pcb with exitCode := some exitCode, resultRef })
    appendEvent {} pid (.processExited exitCode resultRef)
    return { eventType := "PROCESS_EXITED"
             payload := [("exit_code", .str exitCode), ("result_ref", resultRef.elim .null .str)] }
  | _ => missing "exit_code"

/-! ## Dispatch -/

/-- The handler that the text selects. -/
def dispatch (strict : Bool) (pid : String) (request : KernelRequest) : KernelTask Reply :=
  match request.requestType with
  | "spawn" => handleSpawn pid request.fields
  | "submit_action" => handleSubmitAction strict pid request.fields
  | "inspect_action" => handleInspectAction pid request.fields
  | "cancel_action" => handleCancelAction pid request.fields
  | "acquire" => handleAcquire pid request.fields
  | "release" => handleRelease pid request.fields
  | "wait" => handleWait pid request.fields
  | "signal" => handleSignal pid request.fields
  | "checkpoint" => handleCheckpoint pid
  | "restore" => handleRestore pid request.fields
  | "exit" => handleExit pid request.fields
  | other => throw (.valueError ("Unknown request type: " ++ other))

end LongHorizonOS.SyscallDispatcher
