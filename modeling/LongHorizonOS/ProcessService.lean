import LongHorizonOS.LeaseService

/-! The process service: processes are spawned and move between their states,
and their programs keep a state of their own. -/
namespace LongHorizonOS.ProcessService
open KeyedRows PythonValues KernelModels KernelTasks LeaseService

/-! ## The projection -/

/-- An empty condition is stored as `NULL`. -/
def storedWait : Option WaitCondition → Option WaitCondition
  | none => none
  | some waitCondition => if waitCondition.dict = [] then none else some waitCondition

variable (pcb : ProcessControlBlock)

/-- The row after the upsert: on a conflict the columns of the spawn stay. -/
def projectedProcess : Option ProcessControlBlock → ProcessControlBlock
  | none => { pcb with waitCondition := storedWait pcb.waitCondition }
  | some row =>
    { row with
      state := pcb.state
      priority := pcb.priority
      waitCondition := storedWait pcb.waitCondition
      checkpointRef := pcb.checkpointRef
      exitCode := pcb.exitCode
      resultRef := pcb.resultRef
      eventCursor := pcb.eventCursor }

/-- `_upsert_projection` -/
def upsertProcess (store : KernelStore) : KernelStore :=
  let row := projectedProcess pcb (getProcess store pcb.pid)
  { store with processes := upsert ProcessControlBlock.pid row store.processes }

/-! ## Program states -/

variable (store : KernelStore) (pid : String)

def getProgramState : Dict :=
  ((lookup Prod.fst store.programStates pid).map Prod.snd).getD []

def saveProgramState (state : Dict) (store : KernelStore) : KernelStore :=
  { store with programStates := upsert Prod.fst (pid, state) store.programStates }

/-! ## Transitions -/

/-- `transition`, with the phases before and after its journal entry. -/
def move (before after : Phase) (pid : String) (target : ProcessState)
    (waitCondition : Option WaitCondition) : KernelTask Unit := do
  match ← during before (query fun store => getProcess store pid) with
  | none => throw (.valueError ("Process not found: " ++ pid))
  | some pcb =>
    let moved ← compute (applyProcessTransition pcb target waitCondition)
    appendEvent { phase := before } pid (.processMoved target waitCondition)
    update { phase := after } (upsertProcess moved)

variable (target : ProcessState) (waitCondition : Option WaitCondition)

def transition : KernelTask Unit :=
  move .ordinary .ordinary pid target waitCondition

/-! ## Spawning -/

structure Spawning where
  programId : String
  namespaceId : String := "default"
  parentPid : Option String := none
  resourceGroupId : String := "default"
  priority : Int := 10
  programState : Dict := []

/-- The `pid` and an id for the set of capabilities are drawn. -/
def spawn (spawning : Spawning) : KernelTask ProcessControlBlock := do
  let draw ← drawIds 2
  let now ← readClock
  let pcb : ProcessControlBlock :=
    { pid := draw 0
      parentPid := spawning.parentPid
      programId := spawning.programId
      priority := spawning.priority
      namespaceId := spawning.namespaceId
      resourceGroupId := spawning.resourceGroupId
      createdAt := now }
  update {} (saveProgramState pcb.pid spawning.programState)
  appendEvent {} pcb.pid (.processSpawned pcb)
  update {} (upsertProcess pcb)
  transition pcb.pid .ready none
  let updated ← query fun store => getProcess store pcb.pid
  return updated.getD pcb

/-! ## Queries -/

/-- `list_ready` and the scheduler: by priority, then by the time of creation. -/
def listReady : List ProcessControlBlock :=
  (store.processes.filter fun pcb => decide (pcb.state = .ready)).insertionSort
    fun a b => a.priority < b.priority ∨ a.priority = b.priority ∧ a.createdAt ≤ b.createdAt

/-! ## Replay -/

/-- The row of the process of an event, if there is one. -/
def revisePcb (change : ProcessControlBlock → ProcessControlBlock) : KernelStore :=
  match getProcess store pid with
  | none => store
  | some pcb => upsertProcess (change pcb) store

/-- What a move makes of the record: the condition stays unless the event has
one or the process is about to run. -/
def replayMove (pcb : ProcessControlBlock) : ProcessControlBlock :=
  { pcb with
    state := target
    waitCondition := match storedWait waitCondition with
      | some condition => some condition
      | none => if target = .ready ∨ target = .running then none else pcb.waitCondition }

/-- `if text:` for an optional text. -/
def filled : Option String → Option String
  | some "" => none
  | text => text

def handleEvent (offset : ℕ) (event : KernelEvent) : KernelStore :=
  match event.body with
  | .processSpawned pcb =>
    saveProgramState pcb.pid (getProgramState store pcb.pid) (upsertProcess pcb store)
  | .processMoved target waitCondition =>
    revisePcb (revisePcb store event.pid (replayMove target waitCondition)) event.pid fun pcb =>
      { pcb with eventCursor := offset + 1 }
  | .processExited exitCode resultRef =>
    revisePcb (revisePcb store event.pid fun pcb =>
      { pcb with
        exitCode := (filled (some exitCode)).or pcb.exitCode
        resultRef := (filled resultRef).or pcb.resultRef }) event.pid fun pcb =>
      { pcb with eventCursor := offset + 1 }
  | _ => store

end LongHorizonOS.ProcessService
