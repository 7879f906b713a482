import LongHorizonOS.ActionSpec
import LongHorizonOS.AgentKernel

/-! What the tables are after a restart. Each row is a function of the journal
alone: an event changes the record of its subject as the replay has it so far. -/
namespace LongHorizonOS.JournalReplay
open Prod (fst snd)
open KeyedRows KernelModels List
open LeaseService ActionService ProcessService CapabilityService AgentKernel ActionSpec
open LeaseSpec

/-- The handlers of one event, one after the other. -/
def replayEvent (store : KernelStore) (entry : KernelEvent × ℕ) : KernelStore :=
  (replayHandlers entry).foldl (fun store handler => handler store) store

/-- A rebuild goes through the journal event by event. -/
theorem rebuild_events (store : KernelStore) : rebuild store = store.journal.zipIdx.foldl replayEvent
    { journal := store.journal, fencingTokens := store.fencingTokens } := by
  rw [rebuild, rebuildTransactions, foldl_cons, foldl_flatMap]
  rfl

/-- What is read off the tables follows the journal if it follows each event. -/
theorem rebuild_follows (view : KernelStore → β) (hear : β → KernelEvent → β)
    (follows : ∀ store entry, view (replayEvent store entry) = hear (view store) entry.1)
    (store) : view (rebuild store) = store.journal.foldl hear
    (view { journal := store.journal, fencingTokens := store.fencingTokens }) := by
  have along : ∀ (entries : List (KernelEvent × ℕ)) (start : KernelStore),
      view (entries.foldl replayEvent start) = (entries.map fst).foldl hear (view start) := by
    intro entries
    induction entries with
    | nil => exact fun _ => rfl
    | cons entry entries ih =>
      intro start
      rw [foldl_cons, ih, follows, map_cons, foldl_cons]
  rw [rebuild_events, along, zipIdx_map_fst]

/-! ## What each handler writes -/

section
variable (store : KernelStore) (offset : ℕ) (event : KernelEvent)

theorem revisePcb_writes (change : ProcessControlBlock → ProcessControlBlock) :
    revisePcb store pid change = { store with processes := (revisePcb store pid change).processes } := by
  unfold revisePcb
  split <;> rfl

theorem processHandler_writes : ProcessService.handleEvent store offset event = { store with
        processes := (ProcessService.handleEvent store offset event).processes
        programStates := (ProcessService.handleEvent store offset event).programStates } := by
  have twice : ∀ pid (first second : ProcessControlBlock → ProcessControlBlock),
      revisePcb (revisePcb store pid first) pid second =
        { store with
          processes := (revisePcb (revisePcb store pid first) pid second).processes
          programStates := (revisePcb (revisePcb store pid first) pid second).programStates } := by
    intro pid first second
    rw [revisePcb_writes (revisePcb store pid first) second, revisePcb_writes store first]
  unfold ProcessService.handleEvent
  split
  · rfl
  · exact twice _ _ _
  · exact twice _ _ _
  · rfl

theorem actionHandler_writes : ActionService.handleEvent store event =
    { store with actions := (ActionService.handleEvent store event).actions } := by
  unfold ActionService.handleEvent
  split
  · rfl
  split
  · rfl
  split <;> rfl

/-- An event is for one handler only, and that writes to its own tables. -/
theorem replayEvent_writes : replayEvent store (event, offset) = { store with
        processes := (ProcessService.handleEvent store offset event).processes
        programStates := (ProcessService.handleEvent store offset event).programStates
        actions := (ActionService.handleEvent store event).actions
        capabilitySets := (CapabilityService.handleEvent store event).capabilitySets
        leases := (LeaseService.handleEvent store event).leases
        fencingTokens := (LeaseService.handleEvent store event).fencingTokens
        signals := (SignalService.handleEvent store event).signals } := by
  have process := processHandler_writes store offset event
  have action := actionHandler_writes store event
  obtain ⟨pid, body⟩ := event
  cases body <;> first
    | rfl
    | exact process
    | exact action

end

/-- What the transactions of a rebuild keep is kept by those that stop on the way. -/
theorem stopped_rule {P : KernelStore → Prop} (begins : P store) (told : ∀ store, P store → store.journal = journal)
    (keeps : ∀ transaction ∈ rebuildTransactions journal, ∀ store, P store → P (transaction store))
    (stopped : List ℕ) : P (stopped.foldl rebuildUpTo store) := by
  refine foldlRecOn stopped rebuildUpTo begins fun store held transactions _ => ?_
  rw [rebuildUpTo, told store held]
  exact foldlRecOn _ _ held fun store held transaction member =>
    keeps transaction (mem_of_mem_take member) store held

variable (store : KernelStore)

theorem rebuild_journal : (rebuild store).journal = store.journal := by
  have same := rebuild_follows KernelStore.journal (fun journal _ => journal)
    (fun store entry => by rw [replayEvent_writes store entry.2 entry.1]) store
  rw [same]
  exact foldl_fixed _

/-! ## Actions -/

/-- What an event makes of the record of an action. -/
def amend (body : EventBody) (acb : ActionControlBlock) : ActionControlBlock :=
  match replayChange body with
  | some (subject, change) => if subject = acb.actionId then projected (change acb) (some acb) else acb
  | none => acb

section

theorem amend_eq (body) (acb) : amend body acb = acb ∨ ∃ changed, amend body acb = projected changed (some acb) := by
  unfold amend
  split
  · split
    · exact .inr ⟨_, rfl⟩
    exact .inl rfl
  · exact .inl rfl

/-- An event changes nothing that the submission has fixed. -/
theorem amend_fixed (body) (acb) : (amend body acb).actionId = acb.actionId ∧ (amend body acb).pid = acb.pid ∧
    (amend body acb).sideEffectClass = acb.sideEffectClass ∧
    (amend body acb).recoveryPolicy = acb.recoveryPolicy ∧ (amend body acb).submittedAt = acb.submittedAt := by
  rcases amend_eq body acb with same | ⟨changed, same⟩
  · simp [same]
  rw [same]
  exact ⟨rfl, rfl, rfl, rfl, rfl⟩

theorem amend_state (tells : told body = some (subject, target)) (later : target ≠ .submitted) :
    (amend body acb).state = if subject = acb.actionId then target else acb.state := by
  cases body <;> cases tells <;> first
    | exact absurd rfl later
    | simp only [amend, replayChange]
      split <;> rfl

theorem amend_retryCount (tells : (told body).isSome) : (amend body acb).retryCount = acb.retryCount := by
  cases body <;> first
    | rfl
    | simp only [amend, replayChange]
      split <;> rfl
    | cases tells

end

/-- What an event makes of the row of an action. -/
def hearAction (actionId : String) (row : Option ActionControlBlock) (event : KernelEvent) :
    Option ActionControlBlock :=
  match event.body with
  | .actionSubmitted acb => if actionId = acb.actionId then some (projected acb row) else row
  | body => row.map (amend body)

/-- The row of the action that the journal tells of. -/
def replayedAction (journal : List KernelEvent) (actionId : String) : Option ActionControlBlock :=
  journal.foldl (hearAction actionId) none

variable (journal : List KernelEvent) (event : KernelEvent) (actionId : String)

theorem replayedAction_append : replayedAction (journal ++ [event]) actionId =
    hearAction actionId (replayedAction journal actionId) event := by
  rw [replayedAction, foldl_append]
  rfl

/-- The event is about no action. -/
def actionless : EventBody → Prop
  | .actionSubmitted _ => False
  | body => replayChange body = none

theorem hearAction_actionless {event} (silent : actionless event.body) (actionId) :
    hearAction actionId row event = row := by
  obtain ⟨pid, body⟩ := event
  have same : replayChange body = none → row.map (amend body) = row := by
    intro unknown
    have idle : amend body = id := by
      funext acb
      rw [amend, unknown]
      rfl
    rw [idle, Option.map_id]
    rfl
  cases body <;> first
    | exact absurd silent id
    | exact same silent

theorem replayedAction_actionless {store store'} (journals : Journals actionless store store')
    (actionId) : replayedAction store'.journal actionId = replayedAction store.journal actionId := by
  obtain ⟨events, grown, silent⟩ := journals
  rw [grown]
  clear grown
  induction events using List.reverseRecOn with
  | nil => rw [append_nil]
  | append_singleton events event ih =>
    rw [← append_assoc, replayedAction_append, hearAction_actionless (silent event (by simp))]
    exact ih fun other member => silent other (by simp [member])

/-- An event of a state after the submission amends the record of its action. -/
theorem hearAction_told {actionId} (tells : told body = some (subject, target)) (later : target ≠ .submitted)
    (row) : hearAction actionId row ⟨pid, body⟩ = row.map (amend body) := by
  cases body <;> first
    | rfl
    | cases tells
      exact absurd rfl later

/-- The same for every event that is no submission. -/
theorem hearAction_changing {actionId} (changes : (replayChange body).isSome) (row) :
    hearAction actionId row ⟨pid, body⟩ = row.map (amend body) := by
  cases body <;> first | rfl | cases changes

theorem replayChange_actionId (known : replayChange body = some (subject, change))
    (acb) : (change acb).actionId = acb.actionId := by
  cases body <;> cases known <;> rfl

/-- An event that is no submission changes the row of its subject. -/
theorem getAction_replayChange (body) (actionId) : getAction (match replayChange body with
      | none => store
      | some (subject, change) =>
        match getAction store subject with
        | none => store
        | some acb => upsertProjection (change acb) store) actionId =
      (getAction store actionId).map (amend body) := by
  -- Only a row under the id of the subject is amended.
  have others : ∀ {subject change}, replayChange body = some (subject, change) → actionId ≠ subject →
      (getAction store actionId).map (amend body) = getAction store actionId := by
    intro subject change known differ
    cases row : getAction store actionId with
    | none => rfl
    | some acb =>
      have apart : subject ≠ acb.actionId := by
        rw [getAction_actionId row]
        exact Ne.symm differ
      rw [Option.map_some, amend, known]
      simp only [apart, if_false]
  cases known : replayChange body with
  | none =>
    have same : amend body = id := by
      funext acb
      rw [amend, known]
      rfl
    rw [same, Option.map_id]
    rfl
  | some pair =>
    obtain ⟨subject, change⟩ := pair
    by_cases same : actionId = subject
    · subst same
      simp only
      cases found : getAction store actionId with
      | none => exact found
      | some acb =>
        have key : (change acb).actionId = actionId :=
          (replayChange_actionId known acb).trans (getAction_actionId found)
        simp only [getAction_upsertProjection, key, if_true, found, Option.map_some, amend, known,
          getAction_actionId found]
    · rw [others known same]
      simp only
      cases found : getAction store subject with
      | none => rfl
      | some acb =>
        have key : (change acb).actionId = subject :=
          (replayChange_actionId known acb).trans (getAction_actionId found)
        simp only [getAction_upsertProjection, key, same, if_false]

theorem getAction_handleEvent : getAction (ActionService.handleEvent store event) actionId =
    hearAction actionId (getAction store actionId) event := by
  obtain ⟨pid, body⟩ := event
  have changed := getAction_replayChange store body actionId
  cases body with
  | actionSubmitted acb =>
    change getAction (upsertProjection acb store) actionId =
      if actionId = acb.actionId then some (projected acb (getAction store actionId)) else _
    rw [getAction_upsertProjection]
    split
    · rename_i same
      rw [same]
    · rfl
  | _ => exact changed

/-- After a restart the action is as the journal tells. -/
theorem getAction_rebuild : getAction (rebuild store) actionId = replayedAction store.journal actionId := by
  have follows : ∀ (store : KernelStore) (entry : KernelEvent × ℕ),
      getAction (replayEvent store entry) actionId =
        hearAction actionId (getAction store actionId) entry.1 := by
    intro store entry
    rw [replayEvent_writes store entry.2 entry.1]
    exact getAction_handleEvent store entry.1 actionId
  exact rebuild_follows (fun store => getAction store actionId) (hearAction actionId) follows store

theorem replayedAction_actionId {journal} {actionId} (known : replayedAction journal actionId = some record) :
    record.actionId = actionId :=
  getAction_actionId ((getAction_rebuild { journal } actionId).trans known)

/-! ## Processes -/

/-- What is kept of a process, apart from its place in the journal and its
checkpoint. -/
structure ProcessView where
  state : ProcessState
  waitCondition : Option WaitCondition
  exitCode : Option String
  resultRef : Option String
  deriving DecidableEq

def view (pcb : ProcessControlBlock) : ProcessView :=
  { state := pcb.state
    waitCondition := storedWait pcb.waitCondition
    exitCode := pcb.exitCode
    resultRef := pcb.resultRef }

/-- What a move makes of it. -/
def moveView (target : ProcessState) (waitCondition : Option WaitCondition) (known : ProcessView) :
    ProcessView :=
  { known with
    state := target
    waitCondition := match storedWait waitCondition with
      | some condition => some condition
      | none => if target = .ready ∨ target = .running then none else known.waitCondition }

/-- What the exit code and the result make of it. -/
def exitView (exitCode : String) (resultRef : Option String) (known : ProcessView) : ProcessView :=
  { known with
    exitCode := (filled (some exitCode)).or known.exitCode
    resultRef := (filled resultRef).or known.resultRef }

def hearProcess (pid : String) (known : Option ProcessView) (event : KernelEvent) : Option ProcessView :=
  match event.body with
  | .processSpawned pcb => if pid = pcb.pid then some (view pcb) else known
  | .processMoved target waitCondition =>
    if pid = event.pid then known.map (moveView target waitCondition) else known
  | .processExited exitCode resultRef =>
    if pid = event.pid then known.map (exitView exitCode resultRef) else known
  | _ => known

/-- The process as the journal tells of it. -/
def replayedProcess (journal : List KernelEvent) (pid : String) : Option ProcessView :=
  journal.foldl (hearProcess pid) none

theorem replayedProcess_append :
    replayedProcess (journal ++ [event]) pid = hearProcess pid (replayedProcess journal pid) event := by
  rw [replayedProcess, foldl_append]
  rfl

@[simp] theorem storedWait_idem (waitCondition) : storedWait (storedWait waitCondition) = storedWait waitCondition := by
  cases waitCondition with
  | none => rfl
  | some condition =>
    by_cases empty : condition.dict = []
    · simp [storedWait, empty]
    simp [storedWait, empty]

theorem getProcess_pid {store} {pid} {pcb} (found : getProcess store pid = some pcb) : pcb.pid = pid :=
  lookup_key found

variable (pcb : ProcessControlBlock)

/-- The upsert writes one row. -/
theorem getProcess_upsertProcess : getProcess (upsertProcess pcb store) pid =
    if pid = pcb.pid then some (projectedProcess pcb (getProcess store pcb.pid)) else getProcess store pid := by
  have key : (projectedProcess pcb (getProcess store pcb.pid)).pid = pcb.pid := by
    cases found : getProcess store pcb.pid with
    | none => rfl
    | some row =>
      change row.pid = pcb.pid
      exact getProcess_pid found
  change lookup _ (upsert _ _ _) _ = _
  rw [lookup_upsert, key]
  rfl

@[simp] theorem view_projectedProcess (row) : view (projectedProcess pcb row) = view pcb := by
  cases row <;> simp [view, projectedProcess]

theorem viewed_upsertProcess (pid) : (getProcess (upsertProcess pcb store) pid).map view =
    if pid = pcb.pid then some (view pcb) else (getProcess store pid).map view := by
  rw [getProcess_upsertProcess]
  split
  · rw [Option.map_some, view_projectedProcess]
  rfl

/-- A change of the row of a process, as far as it is seen. -/
theorem viewed_revisePcb (subject pid)
    (change : ProcessControlBlock → ProcessControlBlock) (seen : ProcessView → ProcessView)
    (key : ∀ pcb, (change pcb).pid = pcb.pid) (sees : ∀ pcb, view (change pcb) = seen (view pcb)) :
    (getProcess (revisePcb store subject change) pid).map view =
    if pid = subject then ((getProcess store pid).map view).map seen else (getProcess store pid).map view := by
  unfold revisePcb
  cases found : getProcess store subject with
  | none =>
    by_cases same : pid = subject
    · subst same
      simp [found]
    · simp [same]
  | some pcb =>
    simp only
    rw [viewed_upsertProcess, key, getProcess_pid found]
    split
    · rename_i same
      rw [same, found, Option.map_some, Option.map_some, sees]
    · rfl

theorem viewed_handleEvent (offset) (event) (pid) :
    (getProcess (ProcessService.handleEvent store offset event) pid).map view =
    hearProcess pid ((getProcess store pid).map view) event := by
  obtain ⟨subject, body⟩ := event
  -- The cursor is not seen.
  have cursor : ∀ store : KernelStore, (getProcess (revisePcb store subject
      (fun pcb => { pcb with eventCursor := offset + 1 })) pid).map view = (getProcess store pid).map view := by
    intro store
    rw [viewed_revisePcb store subject pid (fun pcb => { pcb with eventCursor := offset + 1 }) id (fun _ => rfl)
      (fun _ => rfl), Option.map_id]
    split <;> rfl
  cases body with
  | processSpawned pcb =>
    change (getProcess (upsertProcess pcb store) pid).map view = if pid = pcb.pid then some (view pcb) else _
    exact viewed_upsertProcess store pcb pid
  | processMoved target waitCondition =>
    refine (cursor _).trans (viewed_revisePcb _ _ _ _ (moveView target waitCondition) (fun _ => rfl) fun pcb => ?_)
    simp only [view, replayMove, moveView, ProcessView.mk.injEq, true_and, and_true]
    cases given : storedWait waitCondition with
    | some condition =>
      have again := storedWait_idem waitCondition
      rw [given] at again
      exact again
    | none =>
      simp only
      split <;> rfl
  | processExited exitCode resultRef =>
    exact (cursor _).trans (viewed_revisePcb _ _ _ _ (exitView exitCode resultRef) (fun _ => rfl) fun pcb => rfl)
  | _ => rfl

/-- After a restart the process is as the journal tells. -/
theorem viewed_rebuild (pid) : (getProcess (rebuild store) pid).map view = replayedProcess store.journal pid := by
  have follows : ∀ (store : KernelStore) (entry : KernelEvent × ℕ),
      (getProcess (replayEvent store entry) pid).map view =
        hearProcess pid ((getProcess store pid).map view) entry.1 := by
    intro store entry
    rw [replayEvent_writes store entry.2 entry.1]
    exact viewed_handleEvent store entry.2 entry.1 pid
  exact rebuild_follows (fun store => (getProcess store pid).map view) (hearProcess pid) follows store

/-- No event has the state of a program. -/
theorem getProgramState_rebuild : getProgramState (rebuild store) pid = [] := by
  have follows : ∀ (store : KernelStore) (entry : KernelEvent × ℕ),
      getProgramState (replayEvent store entry) pid = getProgramState store pid := by
    intro store entry
    rw [replayEvent_writes store entry.2 entry.1]
    obtain ⟨⟨subject, body⟩, offset⟩ := entry
    have revised : ∀ first second : ProcessControlBlock → ProcessControlBlock,
        (revisePcb (revisePcb store subject first) subject second).programStates = store.programStates := by
      intro first second
      rw [revisePcb_writes (revisePcb store subject first), revisePcb_writes store]
    cases body with
    | processSpawned pcb =>
      change (((lookup fst (upsert fst (pcb.pid, getProgramState store pcb.pid)
        store.programStates) pid).map snd).getD []) = _
      rw [lookup_upsert]
      split
      · rename_i same
        subst same
        rfl
      · rfl
    | processMoved target waitCondition =>
      exact congrArg (fun states => ((lookup fst states pid).map snd).getD []) (revised _ _)
    | processExited exitCode resultRef =>
      exact congrArg (fun states => ((lookup fst states pid).map snd).getD []) (revised _ _)
    | _ => rfl
  have kept := rebuild_follows (fun store => getProgramState store pid) (fun state _ => state) follows store
  exact kept.trans (foldl_fixed _)

theorem checkpoints_rebuild : (rebuild store).checkpoints = [] := by
  have kept := rebuild_follows KernelStore.checkpoints (fun checkpoints _ => checkpoints)
    (fun store entry => by rw [replayEvent_writes store entry.2 entry.1]) store
  exact kept.trans (foldl_fixed _)

/-! ## Capabilities -/

def hearCapabilities (sets : List (String × List Capability)) (event : KernelEvent) :
    List (String × List Capability) :=
  match event.body with
  | .capabilitySetCreated capabilities => upsert fst (event.pid, capabilities) sets
  | _ => sets

def replayedCapabilities (journal : List KernelEvent) : List (String × List Capability) :=
  journal.foldl hearCapabilities []

theorem replayedCapabilities_append :
    replayedCapabilities (journal ++ [event]) = hearCapabilities (replayedCapabilities journal) event := by
  rw [replayedCapabilities, foldl_append]
  rfl

theorem capabilitySets_rebuild : (rebuild store).capabilitySets = replayedCapabilities store.journal := by
  refine rebuild_follows KernelStore.capabilitySets hearCapabilities (fun store entry => ?_) store
  rw [replayEvent_writes store entry.2 entry.1]
  obtain ⟨⟨pid, body⟩, offset⟩ := entry
  cases body <;> rfl

/-! ## Signals -/

def hearSignals (signals : List Signal) (event : KernelEvent) : List Signal :=
  match event.body with
  | .signalSent signal => signals.filter (fun row => decide (row.signalId ≠ signal.signalId)) ++ [signal]
  | .signalConsumed signalId =>
    modify Signal.signalId signalId (fun signal => { signal with consumed := true }) signals
  | _ => signals

def replayedSignals (journal : List KernelEvent) : List Signal := journal.foldl hearSignals []

theorem replayedSignals_append :
    replayedSignals (journal ++ [event]) = hearSignals (replayedSignals journal) event := by
  rw [replayedSignals, foldl_append]
  rfl

theorem signals_rebuild : (rebuild store).signals = replayedSignals store.journal := by
  refine rebuild_follows KernelStore.signals hearSignals (fun store entry => ?_) store
  rw [replayEvent_writes store entry.2 entry.1]
  obtain ⟨⟨pid, body⟩, offset⟩ := entry
  cases body <;> rfl

/-! ## Leases -/

def hearLeases (leases : List ResourceLease) (event : KernelEvent) : List ResourceLease :=
  match event.body with
  | .leaseAcquired lease => upsert ResourceLease.leaseId lease leases
  | .leaseReleased leaseId _ | .leaseExpired leaseId _ =>
    leases.filter fun row => decide (row.leaseId ≠ leaseId)
  | .leaseRenewed leaseId newExpiry =>
    modify ResourceLease.leaseId leaseId (fun lease => { lease with expiresAt := newExpiry }) leases
  | _ => leases

def replayedLeases (journal : List KernelEvent) : List ResourceLease := journal.foldl hearLeases []

theorem replayedLeases_append (events) :
    replayedLeases (journal ++ events) = events.foldl hearLeases (replayedLeases journal) := by
  rw [replayedLeases, foldl_append]
  rfl

def hearTokens (tokens : List (String × Int)) (event : KernelEvent) : List (String × Int) :=
  match event.body with
  | .leaseAcquired lease =>
    let last := ((lookup fst tokens lease.resourceId).map snd).getD lease.fencingToken
    upsert fst (lease.resourceId, max last lease.fencingToken) tokens
  | _ => tokens

/-- The leases after a restart are told by the journal, the fences by the
journal on top of the fences that were not deleted. -/
theorem leases_rebuild : (rebuild store).leases = replayedLeases store.journal ∧
    (rebuild store).fencingTokens = store.journal.foldl hearTokens store.fencingTokens := by
  have owned : ∀ (store : KernelStore) (entry : KernelEvent × ℕ),
      (replayEvent store entry).leases = hearLeases store.leases entry.1 ∧
        (replayEvent store entry).fencingTokens = hearTokens store.fencingTokens entry.1 := by
    intro store entry
    rw [replayEvent_writes store entry.2 entry.1]
    obtain ⟨⟨pid, body⟩, offset⟩ := entry
    cases body <;> exact ⟨rfl, rfl⟩
  exact ⟨rebuild_follows KernelStore.leases hearLeases (fun store entry => (owned store entry).1) store,
    rebuild_follows KernelStore.fencingTokens hearTokens (fun store entry => (owned store entry).2) store⟩

/-- No transaction of a rebuild writes to the journal, and the fences are set as one of
the events tells. -/
theorem transaction_keeps (member : transaction ∈ rebuildTransactions journal) :
    (transaction store).journal = store.journal ∧ ((transaction store).fencingTokens = store.fencingTokens ∨
      ∃ event ∈ journal, (transaction store).fencingTokens = hearTokens store.fencingTokens event) := by
  rcases mem_cons.mp member with rfl | later
  · exact ⟨rfl, .inl rfl⟩
  obtain ⟨⟨event, offset⟩, among, inside⟩ := mem_flatMap.mp later
  have told : event ∈ journal := fst_mem_of_mem_zipIdx among
  simp only [replayHandlers, mem_cons, not_mem_nil, or_false] at inside
  rcases inside with rfl | rfl | rfl | rfl | rfl
  · dsimp only
    rw [processHandler_writes]
    exact ⟨rfl, .inl rfl⟩
  · dsimp only
    rw [actionHandler_writes]
    exact ⟨rfl, .inl rfl⟩
  all_goals
    obtain ⟨pid, body⟩ := event
    cases body <;> first
      | exact ⟨rfl, .inl rfl⟩
      | exact ⟨rfl, .inr ⟨_, told, rfl⟩⟩

end LongHorizonOS.JournalReplay
