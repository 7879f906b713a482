import LongHorizonOS.PythonValues

/-! The records of the agent kernel, its state machines and its database. A
journal event carries the payload that the projections replay; its offset is
its place in the journal. Times are instants in UTC. -/
namespace LongHorizonOS.KernelModels
open PythonValues

/-! ## Processes -/

inductive ProcessState where
  | created
  | ready
  | running
  | blocked
  | suspended
  | exited
  | failed
  deriving DecidableEq

namespace ProcessState

def value : ProcessState → String
  | created => "created"
  | ready => "ready"
  | running => "running"
  | blocked => "blocked"
  | suspended => "suspended"
  | exited => "exited"
  | failed => "failed"

/-- `TERMINAL_PROCESS_STATES` -/
def Terminal (state : ProcessState) : Prop := state = exited ∨ state = failed

instance (state : ProcessState) : Decidable state.Terminal :=
  inferInstanceAs (Decidable (_ ∨ _))

end ProcessState

/-- What a blocked process waits for: the condition that the kernel writes when
the process has submitted an action, or one that the process asked for. -/
inductive WaitCondition where
  | submitted (actionId : String)
  | requested (condition : Dict)
  deriving DecidableEq

/-- The condition as the `dict` that is stored. -/
def WaitCondition.dict : WaitCondition → Dict
  | .submitted actionId =>
    [("signal_types", .arr (Json.ofList
        [.str "ACTION_COMPLETED", .str "ACTION_FAILED", .str "ACTION_UNCERTAIN"])),
      ("action_id", .str actionId)]
  | .requested condition => condition

structure ProcessControlBlock where
  pid : String
  parentPid : Option String := none
  programId : String
  state : ProcessState := .created
  priority : Int := 10
  namespaceId : String := "default"
  resourceGroupId : String := "default"
  waitCondition : Option WaitCondition := none
  checkpointRef : Option String := none
  exitCode : Option String := none
  resultRef : Option String := none
  eventCursor : ℕ := 0
  createdAt : Int := 0
  deriving DecidableEq

/-! ## Actions -/

inductive ActionState where
  | submitted
  | admitted
  | running
  | committed
  | failed
  | cancelled
  | timedOut
  | uncertain
  deriving DecidableEq

namespace ActionState

def value : ActionState → String
  | submitted => "submitted"
  | admitted => "admitted"
  | running => "running"
  | committed => "committed"
  | failed => "failed"
  | cancelled => "cancelled"
  | timedOut => "timed_out"
  | uncertain => "uncertain"

/-- `TERMINAL_ACTION_STATES` -/
def Terminal : ActionState → Prop
  | submitted | admitted | running => False
  | committed | failed | cancelled | timedOut | uncertain => True

instance : DecidablePred Terminal := fun state =>
  match state with
  | submitted | admitted | running => isFalse id
  | committed | failed | cancelled | timedOut | uncertain => isTrue trivial

end ActionState

inductive SideEffectClass where
  | pure
  | idempotent
  | nonReversible
  | unknown
  deriving DecidableEq

def SideEffectClass.value : SideEffectClass → String
  | pure => "pure"
  | idempotent => "idempotent"
  | nonReversible => "non_reversible"
  | unknown => "unknown"

inductive RecoveryPolicy where
  | retry
  | inspect
  | uncertain
  | deadLetter
  deriving DecidableEq

def RecoveryPolicy.value : RecoveryPolicy → String
  | retry => "retry"
  | inspect => "inspect"
  | uncertain => "uncertain"
  | deadLetter => "dead_letter"

/-- A claim as a request states it. The key `resource_id` can be missing, and
the mode can be any text. -/
structure ResourceClaim where
  resourceId : Option String
  mode : Option String := none
  deriving DecidableEq

/-- `claim.get("mode", "exclusive")` -/
def ResourceClaim.modeText (claim : ResourceClaim) : String := claim.mode.getD "exclusive"

structure ActionControlBlock where
  actionId : String
  pid : String
  deviceType : String
  operation : String
  arguments : Dict := []
  state : ActionState := .submitted
  resourceClaims : List ResourceClaim := []
  leaseIds : List String := []
  fencingTokens : List (String × Int) := []
  sideEffectClass : SideEffectClass := .pure
  recoveryPolicy : RecoveryPolicy := .retry
  retryCount : ℕ := 0
  result : Option Dict := none
  error : Option Dict := none
  submittedAt : Int := 0
  deriving DecidableEq

/-! ## Leases, signals, capabilities and checkpoints -/

inductive LeaseMode where
  | shared
  | exclusive
  deriving DecidableEq

namespace LeaseMode

def value : LeaseMode → String
  | shared => "shared"
  | exclusive => "exclusive"

/-- The field admits these two texts only. -/
def parse (text : String) : Option LeaseMode :=
  if text = "shared" then some shared
  else if text = "exclusive" then some exclusive
  else none

theorem value_of_parse (parsed : parse text = some mode) : mode.value = text := by
  unfold parse at parsed
  split at parsed
  · rename_i equal
    cases parsed
    exact equal.symm
  split at parsed
  · rename_i equal
    cases parsed
    exact equal.symm
  · cases parsed

end LeaseMode

structure ResourceLease where
  leaseId : String
  resourceId : String
  ownerPid : String
  mode : LeaseMode
  fencingToken : Int
  acquiredAt : Int
  expiresAt : Int
  deriving DecidableEq

structure Signal where
  signalId : String
  targetPid : String
  signalType : String
  sourcePid : Option String := none
  payload : Dict := []
  createdAt : Int := 0
  consumed : Bool := false
  deriving DecidableEq

structure Capability where
  resourcePattern : String
  operations : List String
  deriving DecidableEq

structure ProcessCheckpoint where
  checkpointId : String
  pid : String
  journalOffset : ℕ
  processSequence : ℕ
  waitCondition : Option WaitCondition
  deriving DecidableEq

/-! ## Errors -/

inductive KernelError where
  | kernelInvariantViolation (message : String)
  | illegalStateTransition (objId old new : String)
  | capabilityDenied (pid resource operation : String)
  | leaseAcquisitionFailed (pid failedResource : String)
  | terminalStateError (objId state : String)
  | waitConditionMissing (pid : String)
  | valueError (message : String)
  | keyError (key : String)
  | validationError (field : String)
  | integrityError (column : String)
  | attributeError (name : String)
  deriving DecidableEq

/-- `str(exc)`, where the texts of the libraries are cut short. -/
def KernelError.text : KernelError → String
  | kernelInvariantViolation message => message
  | illegalStateTransition objId old new =>
    "Illegal transition " ++ old ++ "→" ++ new ++ " for " ++ objId
  | capabilityDenied pid resource operation =>
    "Capability denied for pid=" ++ pid ++ " resource=" ++ resource ++ " op=" ++ operation
  | leaseAcquisitionFailed pid failedResource =>
    "Lease acquisition failed for pid=" ++ pid ++ " resource=" ++ failedResource
  | terminalStateError objId state => objId ++ " is in terminal state " ++ state
  | waitConditionMissing pid => "Cannot block pid=" ++ pid ++ " without wait_condition"
  | valueError message => message
  | keyError key => quoted key
  | validationError field => "validation error for " ++ field
  | integrityError column => "UNIQUE constraint failed: " ++ column
  | attributeError name => "object has no attribute " ++ quoted name

/-- `type(exc).__name__` -/
def KernelError.kind : KernelError → String
  | kernelInvariantViolation _ => "KernelInvariantViolation"
  | illegalStateTransition .. => "IllegalStateTransition"
  | capabilityDenied .. => "CapabilityDenied"
  | leaseAcquisitionFailed .. => "LeaseAcquisitionFailed"
  | terminalStateError .. => "TerminalStateError"
  | waitConditionMissing _ => "WaitConditionMissing"
  | valueError _ => "ValueError"
  | keyError _ => "KeyError"
  | validationError _ => "ValidationError"
  | integrityError _ => "IntegrityError"
  | attributeError _ => "AttributeError"

/-! ## State machines -/

/-- `_PROCESS_TRANSITIONS` -/
def processTransitions : ProcessState → ProcessState → Option String
  | .created, .ready => some "spawn_complete"
  | .ready, .running => some "scheduled"
  | .running, .ready => some "yielded"
  | .running, .blocked => some "blocked"
  | .blocked, .ready => some "woken"
  | .ready, .suspended => some "paused"
  | .blocked, .suspended => some "paused"
  | .suspended, .ready => some "resumed"
  | .running, .exited => some "exit"
  | .ready, .exited => some "exit"
  | .blocked, .exited => some "exit"
  | .running, .failed => some "error"
  | .ready, .failed => some "error"
  | .blocked, .failed => some "error"
  | .suspended, .failed => some "error"
  | _, _ => none

def validateProcessTransition (pcb : ProcessControlBlock) (target : ProcessState)
    (waitCondition : Option WaitCondition) : Except KernelError String :=
  if pcb.state.Terminal then .error (.terminalStateError pcb.pid pcb.state.value)
  else match processTransitions pcb.state target with
    | none => .error (.illegalStateTransition pcb.pid pcb.state.value target.value)
    | some reason =>
      if target = .blocked ∧ waitCondition = none then .error (.waitConditionMissing pcb.pid)
      else .ok reason

/-- `apply_process_transition`, as the record it leaves. -/
def applyProcessTransition (pcb : ProcessControlBlock) (target : ProcessState)
    (waitCondition : Option WaitCondition) : Except KernelError ProcessControlBlock :=
  match validateProcessTransition pcb target waitCondition with
  | .error failure => .error failure
  | .ok _ =>
    .ok { pcb with
      state := target
      waitCondition :=
        if target = .blocked then waitCondition
        else if target = .ready ∨ target = .running ∨ target.Terminal then none
        else pcb.waitCondition }

/-- `_ACTION_TRANSITIONS` -/
def actionTransitions : ActionState → ActionState → Option String
  | .submitted, .admitted => some "admission_pass"
  | .submitted, .failed => some "admission_fail"
  | .admitted, .running => some "dispatched"
  | .admitted, .failed => some "dispatch_precondition_failed"
  | .admitted, .cancelled => some "cancelled_pre_dispatch"
  | .running, .committed => some "driver_success"
  | .running, .failed => some "driver_failure"
  | .running, .timedOut => some "deadline_exceeded"
  | .running, .cancelled => some "cancelled_in_flight"
  | .running, .uncertain => some "driver_unknown"
  | _, _ => none

def validateActionTransition (acb : ActionControlBlock) (target : ActionState) : Except KernelError String :=
  if acb.state.Terminal then .error (.terminalStateError acb.actionId acb.state.value)
  else match actionTransitions acb.state target with
    | none => .error (.illegalStateTransition acb.actionId acb.state.value target.value)
    | some reason => .ok reason

/-- `apply_action_transition`, as the record it leaves. -/
def applyActionTransition (acb : ActionControlBlock) (target : ActionState) :
    Except KernelError ActionControlBlock :=
  match validateActionTransition acb target with
  | .error failure => .error failure
  | .ok _ => .ok { acb with state := target }

theorem applyProcessTransition_ok (applied : applyProcessTransition pcb target waitCondition = .ok moved) :
    ¬ pcb.state.Terminal ∧ (processTransitions pcb.state target).isSome ∧ moved = { pcb with
        state := target
        waitCondition :=
          if target = .blocked then waitCondition
          else if target = .ready ∨ target = .running ∨ target.Terminal then none
          else pcb.waitCondition } := by
  unfold applyProcessTransition validateProcessTransition at applied
  split at applied
  · cases applied
  rename_i valid
  cases applied
  split at valid
  · cases valid
  rename_i live
  split at valid
  · cases valid
  rename_i defined
  exact ⟨live, by simp [defined], rfl⟩

/-- A transition leaves a state that is not terminal and follows the table. -/
theorem applyActionTransition_ok (applied : applyActionTransition acb target = .ok moved) :
    ¬ acb.state.Terminal ∧ (actionTransitions acb.state target).isSome ∧ moved = { acb with state := target } := by
  unfold applyActionTransition validateActionTransition at applied
  split at applied
  · cases applied
  rename_i valid
  cases applied
  split at valid
  · cases valid
  rename_i live
  split at valid
  · cases valid
  rename_i defined
  exact ⟨live, by simp [defined], rfl⟩

/-! ## The journal and the tables -/

inductive EventBody where
  | processSpawned (pcb : ProcessControlBlock)
  /-- `PROCESS_READY`, `PROCESS_RUNNING` and so on, with `new_state` and `wait_condition`. -/
  | processMoved (state : ProcessState) (waitCondition : Option WaitCondition)
  /-- The `PROCESS_EXITED` that carries the exit code. -/
  | processExited (exitCode : String) (resultRef : Option String)
  | actionSubmitted (acb : ActionControlBlock)
  | actionAdmitted (actionId : String)
  | actionRejected (actionId reason : String)
  | actionIntentDurable (actionId : String) (leaseIds : List String) (fencingTokens : List (String × Int))
  | actionRunning (actionId : String)
  | actionRetryReserved (actionId : String) (retryCount : ℕ)
  | actionCommitted (actionId : String) (result : Dict)
  | actionFailed (actionId : String) (error : Dict)
  | actionTimedOut (actionId : String)
  | actionUncertain (actionId : String) (detail : Dict)
  | actionCancelled (actionId : String)
  | leaseAcquired (lease : ResourceLease)
  | leaseReleased (leaseId resourceId : String)
  | leaseExpired (leaseId resourceId : String)
  | leaseRenewed (leaseId : String) (newExpiry : Int)
  | leaseAcquireFailed (resourceId mode : String)
  | signalSent (signal : Signal)
  | signalConsumed (signalId : String)
  | capabilitySetCreated (capabilities : List Capability)
  | capabilityDenied (resource operation : String)
  /-- An event that no projection reads. -/
  | note (eventType : String) (payload : Dict)
  deriving DecidableEq

structure KernelEvent where
  pid : String
  body : EventBody
  deriving DecidableEq

/-- The database of the kernel. -/
structure KernelStore where
  journal : List KernelEvent := []
  processes : List ProcessControlBlock := []
  programStates : List (String × Dict) := []
  actions : List ActionControlBlock := []
  leases : List ResourceLease := []
  /-- `resource_fencing_tokens`: the last token of each resource. -/
  fencingTokens : List (String × Int) := []
  /-- `lease_waiters`: who waits for which resource. -/
  waiters : List (String × String) := []
  signals : List Signal := []
  capabilitySets : List (String × List Capability) := []
  checkpoints : List ProcessCheckpoint := []

/-- `append_events_tx`. Every event has an id of its own, so none is dropped. -/
def appendEvents (events : List KernelEvent) (store : KernelStore) : KernelStore :=
  { store with journal := store.journal ++ events }

end LongHorizonOS.KernelModels
