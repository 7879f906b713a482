import LongHorizonOS.ProcessService

/-! The signal service. A signal is kept until a blocked process whose condition
it matches takes it. -/
namespace LongHorizonOS.SignalService
open KeyedRows PythonValues KernelModels KernelTasks LeaseService ProcessService

/-! ## Sending -/

/-- `INSERT OR REPLACE INTO signals_projection` -/
def upsertSignal (signal : Signal) (store : KernelStore) : KernelStore :=
  { store with signals := store.signals.filter (fun row => decide (row.signalId ≠ signal.signalId)) ++ [signal] }

/-- `source_pid or target_pid` -/
def sender (sourcePid : Option String) (targetPid : String) : String :=
  (filled sourcePid).getD targetPid

/-- `send`, with the phases before and after its journal entry. -/
def post (before after : Phase) (targetPid signalType : String) (sourcePid : Option String)
    (payload : Dict) : KernelTask Signal := do
  let draw ← during before (drawIds 1)
  let now ← during before readClock
  let signal : Signal := { signalId := draw 0, targetPid, signalType, sourcePid, payload, createdAt := now }
  appendEvent { phase := before } (sender sourcePid targetPid) (.signalSent signal)
  update { phase := after } (upsertSignal signal)
  return signal

def send (targetPid signalType : String) (sourcePid : Option String) (payload : Dict) : KernelTask Signal :=
  post .ordinary .ordinary targetPid signalType sourcePid payload

/-! ## Delivery -/

/-- `_matches_wait_condition` -/
def matchesWaitCondition (waitCondition : Option WaitCondition) (signal : Signal) : Bool :=
  match waitCondition with
  | none => true
  | some condition =>
    let expects := fun name => (condition.dict.get name).filter Json.truthy
    (expects "signal_type").all (fun expected => decide (expected = .str signal.signalType)) &&
    (expects "action_id").all (fun expected => decide (signal.payload.get "action_id" = some expected)) &&
    (expects "signal_types").all fun expected =>
      match expected with
      | .arr items => decide (Json.str signal.signalType ∈ Json.itemList items)
      | _ => true

def unconsumed (store : KernelStore) : List Signal :=
  (store.signals.filter fun signal => !signal.consumed).insertionSort fun a b => a.createdAt ≤ b.createdAt

def consume (signalId : String) (store : KernelStore) : KernelStore :=
  let mark := fun signal : Signal => { signal with consumed := true }
  { store with signals := modify Signal.signalId signalId mark store.signals }

/-- `_mark_consumed`: the projection first, then the journal. -/
def markConsumed (signalId : String) : KernelTask Unit := do
  update {} (consume signalId)
  appendEvent { phase := .posting } "kernel" (.signalConsumed signalId)

/-- The turn of one signal in `deliver_pending`. -/
def deliver (signal : Signal) : KernelTask Unit := do
  match ← query fun store => getProcess store signal.targetPid with
  | none => return ()
  | some pcb =>
    if pcb.state ≠ .blocked ∨ matchesWaitCondition pcb.waitCondition signal = false then return ()
    else
      markConsumed signal.signalId
      move .handover .posting signal.targetPid .ready none

def deliverPending : KernelTask Unit := do
  let pending ← query unconsumed
  pending.forM deliver

/-! ## Replay -/

def handleEvent (store : KernelStore) (event : KernelEvent) : KernelStore :=
  match event.body with
  | .signalSent signal => upsertSignal signal store
  | .signalConsumed signalId => consume signalId store
  | _ => store

end LongHorizonOS.SignalService
