import LongHorizonOS.SyscallDispatcher

/-! The agent kernel. A tick reclaims leases, delivers signals, recovers and
dispatches actions, breaks deadlocks and gives every ready process one step.
Programs and drivers are outside of the kernel: a step of a program may return
any request or raise, and a driver may answer anything. -/
namespace LongHorizonOS.AgentKernel
open PythonValues AtomicPrograms KernelModels KernelTasks
open LeaseService ActionService ProcessService SignalService SyscallDispatcher

/-! ## Programs -/

/-- A request of a program. What is no kernel request has a type only. -/
inductive ProgramRequest where
  | kernel (request : KernelRequest)
  | foreign (typeName : String)
  deriving DecidableEq

structure StepResult where
  newState : Dict := []
  request : Option ProgramRequest := none
  exitCode : Option String := none
  resultRef : Option String := none
  deriving DecidableEq

inductive StepOutcome where
  | returned (result : StepResult)
  | raised (message kind : String)
  deriving DecidableEq

/-- A program sees its state and its last event. What else it depends on is
taken from the world, so that any behaviour is possible. -/
abbrev AgentProgram := World → Dict → Option (ℕ × KernelEvent) → StepOutcome

structure Kernel where
  programs : String → Option AgentProgram
  /-- The device types that have a driver. -/
  drivers : String → Bool
  strict : Bool := false

/-! ## Outcomes of actions -/

/-- The steps after the journal entry of a method belong to the hand-over. -/
def handingOver {α : Type} (task : KernelTask α) : KernelTask α :=
  Task.relabel (fun label => match label.access with
    | .upsert .. => { label with phase := .handover }
    | _ => label) task

/-- The signal that wakes the owner of a finished action. -/
def tellOwner (pid signalType : String) (payload : Dict) : KernelTask Unit := do
  let _ ← post .handover .posting pid signalType (some "kernel") payload

/-- End the action if it is still running, release its leases, and tell the
owner if this was what ended it. -/
def settle (ends : KernelTask Bool) (acb : ActionControlBlock) (signalType : String) (payload : Dict) :
    KernelTask Unit := do
  let ended ← ends
  during (if ended then .handover else .ordinary) (LeaseService.release acb.leaseIds)
  if ended then tellOwner acb.pid signalType payload

variable (acb : ActionControlBlock) (error : Dict)

def errorPayload : Dict :=
  [("action_id", .str acb.actionId), ("error", Json.ofDict error)]

variable (detail : Dict)

def detailPayload : Dict :=
  [("action_id", .str acb.actionId), ("detail", Json.ofDict detail)]

def failAction : KernelTask Unit :=
  settle (failIfRunning acb.actionId error) acb "ACTION_FAILED" (errorPayload acb error)

def uncertainAction : KernelTask Unit :=
  settle (markUncertainIfRunning acb.actionId detail) acb "ACTION_UNCERTAIN" (detailPayload acb detail)

/-- `_recovery_detail` -/
def recoveryDetail : Dict :=
  let classified := (detail.setDefault "side_effect_class" (.str acb.sideEffectClass.value)).setDefault
    "recovery_policy" (.str acb.recoveryPolicy.value)
  if acb.recoveryPolicy = .deadLetter then
    classified.setDefault "recovery_disposition" (.str "dead_letter")
  else classified

/-- `_mark_uncertain_and_release` -/
def markUncertainAndRelease : KernelTask Unit :=
  uncertainAction acb (recoveryDetail acb detail)

/-- Commit a completed action under its fence. If the fence does not hold the
action fails with one error, and its owner is told of another. -/
def completeAction (output : Dict) (stale tells : String → Dict) : KernelTask Unit := do
  let now ← readClock
  match ← commitIfFenced acb.actionId output now with
  | some fenceError =>
    settle (failIfRunning acb.actionId (stale fenceError)) acb "ACTION_FAILED"
      (errorPayload acb (tells fenceError))
  | none =>
    during .handover (LeaseService.release acb.leaseIds)
    tellOwner acb.pid "ACTION_COMPLETED" [("action_id", .str acb.actionId), ("result", Json.ofDict output)]

def tokensJson : Json :=
  Json.ofDict (acb.fencingTokens.map fun entry => (entry.1, .int entry.2))

/-! ## Recovery modes -/

inductive RecoveryMode where
  | retry
  | inspect
  | uncertain
  deriving DecidableEq

/-- `_unknown_recovery_mode` -/
def unknownRecoveryMode : RecoveryMode :=
  match acb.recoveryPolicy with
  | .inspect => .inspect
  | .uncertain | .deadLetter => .uncertain
  | .retry =>
    match acb.sideEffectClass with
    | .pure => if acb.retryCount < 1 then .retry else .inspect
    | .idempotent => .inspect
    | .nonReversible | .unknown => .uncertain

/-- `_action_is_running` -/
def actionIsRunning (actionId : String) : KernelTask Bool :=
  query fun store => (getAction store actionId).any fun acb => decide (acb.state = .running)

/-- `_retry_reservation_is_owned_elsewhere` -/
def reservationIsOwnedElsewhere (actionId reason : String) : KernelTask Bool :=
  if reason ≠ "retry_budget_exhausted" then return false
  else query fun store => (getAction store actionId).any fun current =>
    decide (current.sideEffectClass = .pure ∧ current.recoveryPolicy = .retry ∧ current.retryCount = 1)

/-- `{**(error or {}), "reason": (error or {}).get("reason", "retry_failed"), ...}` -/
def retryFailure (error : Option Dict) (more : Dict) : Dict :=
  let given := error.getD []
  Dict.merge (given.set "reason" ((given.get "reason").getD (.str "retry_failed"))) more

/-- `_inspect_after_unknown` -/
def inspectAfterUnknown (reason : String) : KernelTask Unit := do
  if ← actionIsRunning acb.actionId then
    match ← driverInspect with
    | .raised message kind =>
      markUncertainAndRelease acb [("reason", .str "inspect_failed"), ("source", .str reason),
        ("error", .str message), ("type", .str kind)]
    | .answered .completed output _ =>
      let stale := fun fenceError : String => [("reason", .str "stale_fenced_completion"),
        ("source", .str reason), ("detail", .str fenceError)]
      completeAction acb output stale stale
    | .answered .failed _ error =>
      failAction acb (if error.getD [] = [] then [("reason", .str "inspection_failed")] else error.getD [])
    | .answered .unknown _ _ =>
      markUncertainAndRelease acb [("reason", .str "inspection_unknown"), ("source", .str reason)]
    | .answered .running _ _ => return ()
  else LeaseService.release acb.leaseIds

/-! ## Dispatching -/

/-- The one retry of a pure action whose dispatch raised. The action is read
again, and its fence is checked when the retry is reserved and once more before
the driver is called. -/
def retryAfterException (initialError : Dict) : KernelTask Unit := do
  match ← query fun store => getAction store acb.actionId with
  | none => LeaseService.release acb.leaseIds
  | some current =>
    if current.state ≠ .running then LeaseService.release acb.leaseIds
    else
      let now ← readClock
      match ← reserveRetryIfFenced current.actionId now with
      | some reason =>
        if ← reservationIsOwnedElsewhere current.actionId reason then return ()
        else uncertainAction acb (recoveryDetail current
          [("reason", .str "retry_fencing_contract_invalid"), ("source", .str "dispatch_exception"),
            ("detail", .str reason), ("initial_error", Json.ofDict initialError),
            ("fencing_tokens", tokensJson current)])
      | none =>
        if ← actionIsRunning acb.actionId then
          let now ← readClock
          match ← validateReservedRetryIfFenced acb.actionId now with
          | some reason =>
            uncertainAction acb (recoveryDetail current
              [("reason", .str "retry_dispatch_contract_invalid"), ("source", .str "dispatch_exception"),
                ("detail", .str reason), ("initial_error", Json.ofDict initialError)])
          | none => redispatch current
        else LeaseService.release acb.leaseIds
where
  redispatch (current : ActionControlBlock) : KernelTask Unit := do
    match ← driverDispatch acb.actionId with
    | .raised message kind =>
      uncertainAction acb (recoveryDetail current
        [("reason", .str "retry_failed"), ("source", .str "dispatch_exception"), ("error", .str message),
          ("type", .str kind), ("initial_error", Json.ofDict initialError)])
    | .answered .completed output _ =>
      let stale := fun fenceError : String => recoveryDetail current
        [("reason", .str "stale_fenced_completion"), ("source", .str "dispatch_exception_retry"),
          ("detail", .str fenceError), ("initial_error", Json.ofDict initialError),
          ("fencing_tokens", tokensJson current)]
      completeAction acb output stale stale
    | .answered .failed _ error =>
      uncertainAction acb (recoveryDetail current (retryFailure error
        [("source", .str "dispatch_exception_retry"), ("initial_error", Json.ofDict initialError)]))
    | .answered .unknown _ _ =>
      uncertainAction acb (recoveryDetail current
        [("reason", .str "retry_unknown"), ("source", .str "dispatch_exception_retry"),
          ("initial_error", Json.ofDict initialError)])
    | .answered .running _ _ => return ()

/-- The one retry of a pure action of unknown outcome. What to do when the
driver raises depends on the caller. -/
def retryUnknown (raised : String → KernelTask Unit) : KernelTask Unit := do
  let now ← readClock
  match ← reserveRetryIfFenced acb.actionId now with
  | some reason =>
    if ← reservationIsOwnedElsewhere acb.actionId reason then return ()
    else markUncertainAndRelease acb [("reason", .str "retry_reservation_failed"), ("detail", .str reason)]
  | none =>
    let now ← readClock
    match ← validateReservedRetryIfFenced acb.actionId now with
    | some reason =>
      markUncertainAndRelease acb [("reason", .str "retry_dispatch_contract_invalid"), ("detail", .str reason)]
    | none =>
      match ← driverDispatch acb.actionId with
      | .raised message _ => raised message
      | .answered .completed output _ =>
        let stale := fun fenceError : String =>
          [("reason", .str "stale_fenced_completion"), ("detail", .str fenceError)]
        completeAction acb output stale stale
      | .answered .failed _ error => markUncertainAndRelease acb (retryFailure error [])
      | .answered .unknown _ _ => markUncertainAndRelease acb [("reason", .str "retry_unknown")]
      | .answered .running _ _ => return ()

/-- An action that cannot be dispatched fails, and its owner is told. -/
def refuse : KernelTask Unit := do
  handingOver (fail acb.actionId error)
  during .handover (LeaseService.release acb.leaseIds)
  during .handover (clearWaitersForPid acb.pid)
  tellOwner acb.pid "ACTION_FAILED" (errorPayload acb error)

/-- What follows the first call of the driver. -/
def afterDispatch : DriverReply → KernelTask Unit
  | .raised message kind =>
    let initialError : Dict := [("reason", .str "driver_dispatch_exception"), ("error", .str message),
      ("type", .str kind), ("side_effect_class", .str acb.sideEffectClass.value)]
    match unknownRecoveryMode acb with
    | .retry => retryAfterException acb initialError
    | .inspect => inspectAfterUnknown acb "dispatch_exception"
    | .uncertain => uncertainAction acb (recoveryDetail acb initialError)
  | .answered .completed output _ =>
    let tells := fun fenceError : String =>
      [("reason", .str "stale_fenced_completion"), ("detail", .str fenceError)]
    completeAction acb output (fun fenceError => tells fenceError ++ [("fencing_tokens", tokensJson acb)]) tells
  | .answered .failed _ error => failAction acb (error.getD [])
  | .answered .unknown _ _ =>
    match unknownRecoveryMode acb with
    | .retry => retryUnknown acb fun message =>
        markUncertainAndRelease acb [("reason", .str "retry_failed"), ("error", .str message)]
    | .inspect => inspectAfterUnknown acb "dispatch_unknown"
    | .uncertain =>
      markUncertainAndRelease acb [("reason", .str "recovery_policy_forbids_blind_retry"),
        ("disposition", .str "uncertain")]
  | .answered .running _ _ => return ()

variable (kernel : Kernel)

/-- The turn of one action in `_dispatch_pending_actions`. -/
def dispatchAction (acb : ActionControlBlock) : KernelTask Unit := do
  let now ← readClock
  match ← validateActionContract acb.pid acb.resourceClaims acb.leaseIds now with
  | some reason =>
    refuse acb [("reason", .str "invalid_resource_contract"), ("detail", .str reason)]
  | none =>
    if kernel.drivers acb.deviceType = false then refuse acb [("reason", .str "no_driver")]
    else
      ActionService.dispatch acb.actionId
      let reply ← driverDispatch acb.actionId
      afterDispatch acb reply

def actionsIn (state : ActionState) (store : KernelStore) : List ActionControlBlock :=
  (listNonTerminal store).filter fun acb => decide (acb.state = state)

def dispatchPendingActions : KernelTask Unit := do
  let admitted ← query (actionsIn .admitted)
  admitted.forM (dispatchAction kernel)

/-! ## Recovery -/

/-- What follows the inspection of an action that was left running. -/
def afterInspection (mode : RecoveryMode) : DriverReply → KernelTask Unit
  | .raised message _ =>
    uncertainAction acb [("reason", .str "inspect_failed"), ("error", .str message)]
  | .answered .completed output _ =>
    let stale := fun fenceError : String =>
      [("reason", .str "stale_fenced_completion"), ("detail", .str fenceError)]
    completeAction acb output stale stale
  | .answered .failed _ error => failAction acb (error.getD [])
  | .answered .unknown _ _ =>
    match mode with
    | .retry => tryCatch (retryUnknown acb fun message => throw (.valueError message)) fun failure =>
        markUncertainAndRelease acb [("reason", .str "retry_failed"), ("error", .str failure.text)]
    | .inspect =>
      markUncertainAndRelease acb [("reason", .str "inspection_unknown"), ("source", .str "recovery")]
    | .uncertain =>
      markUncertainAndRelease acb [("reason", .str "recovery_policy_forbids_blind_retry"),
        ("disposition", .str "uncertain")]
  | .answered .running _ _ => return ()

/-- The turn of one action in `recover_incomplete_actions`. -/
def recoverAction (acb : ActionControlBlock) : KernelTask Unit :=
  if kernel.drivers acb.deviceType = false then failAction acb [("reason", .str "no_driver")]
  else do
    if ← actionIsRunning acb.actionId then
      if unknownRecoveryMode acb = .uncertain then
        markUncertainAndRelease acb [("reason", .str "recovery_policy_forbids_inspection"),
          ("disposition", .str "uncertain")]
      else
        let reply ← driverInspect
        afterInspection acb (unknownRecoveryMode acb) reply
    else LeaseService.release acb.leaseIds

def recoverIncompleteActions : KernelTask Unit := do
  let running ← query (actionsIn .running)
  running.forM (recoverAction kernel)

/-! ## Deadlocks -/

/-- Priority, then the number of leases, then the pid. -/
def victimBefore (a b : Int × ℕ × String) : Prop :=
  a.1 < b.1 ∨ a.1 = b.1 ∧ (a.2.1 < b.2.1 ∨ a.2.1 = b.2.1 ∧ a.2.2 ≤ b.2.2)

instance : DecidableRel victimBefore := fun _ _ => inferInstanceAs (Decidable (_ ∨ _))

def victimCandidates : List String → KernelTask (List (Int × ℕ × String))
  | [] => return []
  | pid :: rest => do
    match ← query fun store => getProcess store pid with
    | none => victimCandidates rest
    | some pcb =>
      let leases ← query fun store => (listLeasesForPid store pid).length
      let others ← victimCandidates rest
      return (pcb.priority, leases, pid) :: others

/-- `_select_victim` -/
def selectVictim (cycle : List String) : KernelTask String := do
  let candidates ← victimCandidates cycle
  match candidates.insertionSort victimBefore with
  | [] => return cycle.headD ""
  | (_, _, pid) :: _ => return pid

/-- `suppress(IllegalStateTransition)` -/
def suppressIllegal (task : KernelTask Unit) : KernelTask Unit :=
  tryCatch task fun failure =>
    match failure with
    | .illegalStateTransition .. => return ()
    | other => throw other

/-- `_recover_deadlock` -/
def recoverDeadlock (cycle : List String) : KernelTask Unit := do
  let victim ← selectVictim cycle
  let payload : Dict := [("cycle", Json.ofTexts cycle), ("victim", .str victim)]
  appendEvent {} victim (.note "DEADLOCK_DETECTED" payload)
  suppressIllegal (transition victim .failed none)
  releaseAllForPid victim
  appendEvent {} victim (.note "DEADLOCK_RECOVERED" payload)

/-! ## Process steps -/

variable (store : KernelStore)

/-- `read_last_for_pid_since`, with the offset. -/
def lastEventSince (pid : String) (offset : ℕ) : Option (ℕ × KernelEvent) :=
  (store.journal.zipIdx.filter fun entry => decide (entry.1.pid = pid ∧ offset ≤ entry.2)).getLast?.map
    Prod.swap

variable (program : AgentProgram)

/-- `await program.step(state, last_event)` -/
def callProgram (state : Dict) (event : Option (ℕ × KernelEvent)) : KernelTask StepOutcome :=
  ExceptT.mk (Program.atomic {} fun w => (.ok (program w state event), w))

/-- The process is failed and what it held is released. -/
def failProcess (pid : String) (event : EventBody) : KernelTask Unit := do
  appendEvent {} pid event
  transition pid .failed none
  releaseAllForPid pid

/-- `_get_last_action_id` -/
def lastActionId (pid : String) : Option String :=
  (listByPid pid store).getLast?.map ActionControlBlock.actionId

/-- The process waits for the action that it has submitted last. -/
def blockOnAction (pid : String) : KernelTask Unit := do
  match filled (← query fun store => lastActionId store pid) with
  | some actionId => transition pid .blocked (some (.submitted actionId))
  | none => transition pid .ready none

/-- Contention on resources sends the process back to the ready ones. -/
def submitRequest (pid : String) (request : KernelRequest) : KernelTask Unit := do
  let reply ← tryCatch (do
    let reply ← SyscallDispatcher.dispatch kernel.strict pid request
    return some reply) fun failure =>
    match failure with
    | .leaseAcquisitionFailed .. => return none
    | other => throw other
  match reply with
  | none => transition pid .ready none
  | some reply =>
    if reply.eventType = "ACTION_REJECTED" then transition pid .ready none
    else blockOnAction pid

def RequestFields.isExit : RequestFields → Bool
  | .exit .. => true
  | _ => false

def RequestFields.isSubmit : RequestFields → Bool
  | .submitAction _ => true
  | _ => false

def RequestFields.isWait : RequestFields → Bool
  | .wait _ => true
  | _ => false

/-- The class of the request or its text says how the process goes on. -/
def handleRequest (pid : String) (request : KernelRequest) : KernelTask Unit :=
  if RequestFields.isExit request.fields ∨ request.requestType = "exit" then do
    let _ ← SyscallDispatcher.dispatch kernel.strict pid request
  else if RequestFields.isSubmit request.fields ∨ request.requestType = "submit_action" then
    submitRequest kernel pid request
  else if RequestFields.isWait request.fields ∨ request.requestType = "wait" then do
    let _ ← SyscallDispatcher.dispatch kernel.strict pid request
  else do
    let _ ← SyscallDispatcher.dispatch kernel.strict pid request
    transition pid .ready none

variable (pcb : ProcessControlBlock)

/-- What follows a step that returned. -/
def afterStep (result : StepResult) : KernelTask Unit := do
  update {} (saveProgramState pcb.pid result.newState)
  let cursor ← query fun store => store.journal.length
  update {} (upsertProcess { pcb with eventCursor := cursor })
  match result.request with
  | some (.foreign typeName) =>
    failProcess pcb.pid (.note "PROGRAM_REQUEST_REJECTED"
      [("reason", .str "invalid_request_type"), ("type", .str typeName)])
  | some (.kernel request) => handleRequest kernel pcb.pid request
  | none =>
    match filled result.exitCode with
    | some exitCode =>
      let _ ← SyscallDispatcher.dispatch kernel.strict pcb.pid
        { requestType := "exit", fields := .exit exitCode result.resultRef }
    | none => transition pcb.pid .ready none

/-- The step of a process that is running. -/
def stepRunning (pcb : ProcessControlBlock) : KernelTask Unit := do
  let state ← query fun store => getProgramState store pcb.pid
  let event ← query fun store => lastEventSince store pcb.pid pcb.eventCursor
  match ← callProgram program (state.set "pid" (.str pcb.pid)) event with
  | .raised message kind =>
    failProcess pcb.pid (.note "PROGRAM_STEP_FAILED" [("error", .str message), ("type", .str kind)])
  | .returned result => afterStep kernel pcb result

/-- Whether the process has become the running one. -/
def schedule (pid : String) : KernelTask Bool :=
  tryCatch (do
    transition pid .running none
    return true) fun failure =>
    match failure with
    | .illegalStateTransition .. => return false
    | other => throw other

/-- `_run_process_step` -/
def runProcessStep : KernelTask Unit :=
  if pcb.state ≠ .ready then return ()
  else match kernel.programs pcb.pid with
    | none => return ()
    | some program => do
      if ← schedule pcb.pid then
        match ← query fun store => getProcess store pcb.pid with
        | none => return ()
        | some current => stepRunning kernel program current
      else return ()

/-! ## The tick -/

def tick : KernelTask Unit := do
  let now ← readClock
  reclaimExpired now
  deliverPending
  recoverIncompleteActions kernel
  let cycles ← detectDeadlocks
  cycles.forM recoverDeadlock
  dispatchPendingActions kernel
  deliverPending
  let ready ← query listReady
  ready.forM (runProcessStep kernel)

/-! ## Restart -/

/-- What the handlers of the services do with an event, each in a transaction of its own. -/
def replayHandlers (entry : KernelEvent × ℕ) : List (KernelStore → KernelStore) :=
  [fun store => ProcessService.handleEvent store entry.2 entry.1, fun store => ActionService.handleEvent store entry.1,
    fun store => CapabilityService.handleEvent store entry.1, fun store => LeaseService.handleEvent store entry.1,
    fun store => SignalService.handleEvent store entry.1]

/-- The transactions of `rebuild_projections`: the first deletes the projections, all but
the fences, and then every event of the journal is given to the handlers. -/
def rebuildTransactions (journal : List KernelEvent) : List (KernelStore → KernelStore) :=
  (fun store => { journal := store.journal, fencingTokens := store.fencingTokens }) ::
    journal.zipIdx.flatMap replayHandlers

/-- A rebuild whose transactions nobody interrupts. -/
def rebuild : KernelStore :=
  (rebuildTransactions store.journal).foldl (fun store transaction => transaction store) store

/-- A rebuild that stops after so many of its transactions. -/
def rebuildUpTo (transactions : ℕ) : KernelStore :=
  ((rebuildTransactions store.journal).take transactions).foldl (fun store transaction => transaction store) store

/-- `rebuild_from_journal` -/
def restart (w : World) : World := { w with store := rebuild w.store }

end LongHorizonOS.AgentKernel
