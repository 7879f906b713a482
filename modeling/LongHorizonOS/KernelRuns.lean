import LongHorizonOS.JournalReplay

/-! Runs of the kernel's services without a crash: calls one after the other on
one database, each at its own time. What a service does not own, it leaves
alone, in the tables as in the journal. -/
namespace LongHorizonOS.KernelRuns
open PythonValues FailFast AtomicPrograms KernelModels KernelTasks List
open LeaseService ActionService ProcessService CapabilityService SignalService SyscallDispatcher
open LeaseSpec ActionSpec

/-! ## Calls -/

inductive KernelCall where
  | atomicAcquire (pid : String) (claims : List ResourceClaim) (draw : ℕ → String) (ttl : Int)
  | release (leaseIds : List String)
  | releaseAllForPid (pid : String)
  | renew (leaseId : String) (ttl : Int)
  | reclaimExpired (now : Int)
  | action (call : ActionCall)
  | spawn (spawning : Spawning)
  | transition (pid : String) (target : ProcessState) (waitCondition : Option WaitCondition)
  | saveProgramState (pid : String) (state : Dict)
  /-- The cursor that a program step moves to the end of the journal. -/
  | moveCursor (pid : String)
  | checkpoint (pid : String)
  | exit (pid exitCode : String) (resultRef : Option String)
  | createCapabilitySet (pid : String) (capabilities : List Capability)
  | grant (pid : String) (capability : Capability)
  | send (targetPid signalType : String) (sourcePid : Option String) (payload : Dict)
  | deliverPending

/-- `pcb.event_cursor = self._journal.next_offset()`, and the upsert. -/
def moveCursor (pid : String) : KernelTask Unit := do
  match ← query fun store => getProcess store pid with
  | none => return ()
  | some pcb =>
    let cursor ← query fun store => store.journal.length
    update {} (upsertProcess { pcb with eventCursor := cursor })

def discard {α : Type} (task : KernelTask α) : KernelTask Unit := do
  let _ ← task

def KernelCall.task : KernelCall → KernelTask Unit
  | .atomicAcquire pid claims draw ttl => discard (LeaseService.atomicAcquire pid claims draw ttl)
  | .release leaseIds => LeaseService.release leaseIds
  | .releaseAllForPid pid => LeaseService.releaseAllForPid pid
  | .renew leaseId ttl => discard (LeaseService.renew leaseId ttl)
  | .reclaimExpired now => LeaseService.reclaimExpired now
  | .action call => call.task
  | .spawn spawning => discard (ProcessService.spawn spawning)
  | .transition pid target waitCondition => ProcessService.transition pid target waitCondition
  | .saveProgramState pid state => update {} (ProcessService.saveProgramState pid state)
  | .moveCursor pid => KernelRuns.moveCursor pid
  | .checkpoint pid => discard (handleCheckpoint pid)
  | .exit pid exitCode resultRef => discard (handleExit pid (.exit exitCode resultRef))
  | .createCapabilitySet pid capabilities => CapabilityService.createCapabilitySet pid capabilities
  | .grant pid capability => CapabilityService.grant pid capability
  | .send targetPid signalType sourcePid payload =>
    discard (SignalService.send targetPid signalType sourcePid payload)
  | .deliverPending => SignalService.deliverPending

/-- One call at its time, whatever it returns or raises. -/
def perform (w : World) (turn : Int × KernelCall) : World :=
  (turn.2.task.alone { w with clock := turn.1 }).2

/-- The world after some calls on an empty database. -/
def runCalls (turns : List (Int × KernelCall)) : World := turns.foldl perform {}

variable {I : World → Prop}

/-- What every call keeps, whenever it comes, holds after every run. -/
theorem runCalls_keeps (start : I {}) (clock : ∀ w now, I w → I { w with clock := now })
    (calls : ∀ turn ∈ turns, KeepsTask solo I turn.2.task) : I (runCalls turns) := by
  unfold runCalls
  have along : ∀ w, I w → I (turns.foldl perform w) := by
    induction turns with
    | nil => exact fun _ kept => kept
    | cons turn turns ih =>
      intro w kept
      refine ih (fun other member => calls other (mem_cons_of_mem _ member)) _ ?_
      exact (calls turn mem_cons_self).alone (clock w turn.1 kept)
  exact along {} start

/-- The same for calls that keep it where they come in the run. -/
theorem runCalls_induct (start : I {})
    (calls : ∀ before turn later, turns = before ++ turn :: later → I (runCalls before) →
      I (perform (runCalls before) turn)) : I (runCalls turns) := by
  induction turns using List.reverseRecOn with
  | nil => exact start
  | append_singleton turns turn ih =>
    have earlier := ih fun before turn' later split => calls before turn' (later ++ [turn]) (by simp [split])
    have step := calls turns turn [] rfl earlier
    rw [runCalls, foldl_append]
    exact step

theorem keeps_discard (keeps : KeepsTask d I task) : KeepsTask d I (discard task) :=
  keeps.bind fun _ => .pure _

/-! ### Steps alone -/

section
variable {α : Type}

theorem solo_query (read : KernelStore → α) :
    SafeTask solo (fun a w' _ => a = read w.store ∧ w' = w) raises (query read) w held :=
  safe_query fun _ same => ⟨trivial, by rw [same], same⟩

theorem keeps_query (read : KernelStore → α) : KeepsTask solo I (query read) :=
  fun _ _ kept => safe_query fun _ same => ⟨trivial, by rw [same]; exact kept⟩

theorem solo_during (phase) (safe : SafeTask solo returns raises task w held) :
    SafeTask solo returns raises (during phase task) w held :=
  .relabel (fun _ _ granted => granted) (fun _ _ _ promised => promised) safe

theorem solo_update (ends : ∀ held, returns () { w with store := change w.store } held) :
    SafeTask solo returns raises (update label change) w held :=
  safe_update fun w' same _ => ⟨trivial, 0, by simp [solo], by rw [same]; exact ends 0⟩

/-- A write, and what follows it. -/
theorem solo_then {returns : β → World → ℕ → Prop} {rest : Unit → KernelTask β}
    (later : ∀ held, SafeTask solo returns raises (rest ()) { w with store := change w.store } held) :
    SafeTask solo returns raises (update label change >>= rest) w held := by
  have writes : SafeTask solo (fun _ w' _ => w' = { w with store := change w.store }) raises
      (update label change) w held := solo_update fun _ => rfl
  refine writes.bind fun _ w' held same => ?_
  subst same
  exact later held

theorem solo_readClock : SafeTask solo (fun now w' _ => now = w.clock ∧ w' = w) raises readClock w held :=
  safe_readClock fun _ same => ⟨trivial, by rw [same], same⟩

theorem solo_drawIds (count) :
    SafeTask solo (fun _ w' _ => w' = { w with drawn := w.drawn + count }) raises (drawIds count) w held :=
  .step fun _ same _ => ⟨trivial, held, by simp [solo], by rw [same]; rfl⟩

/-- The journal entry of a method and what it writes after it. -/
theorem solo_journalled {label' pid body}
    (ends : ∀ held, returns () { w with store := change (appendEvents [⟨pid, body⟩] w.store) } held) :
    SafeTask solo returns raises (do appendEvent label pid body; update label' change) w held := by
  refine solo_then fun held => ?_
  exact solo_update ends

end

/-! ## What a service owns -/

inductive Service where
  | process
  | action
  | lease
  | signal
  | capability
  deriving DecidableEq

/-- The service that replays an event. -/
def service : EventBody → Option Service
  | .processSpawned _ | .processMoved .. | .processExited .. => some .process
  | .actionSubmitted _ | .actionAdmitted _ | .actionRejected .. | .actionIntentDurable ..
  | .actionRunning _ | .actionRetryReserved .. | .actionCommitted .. | .actionFailed ..
  | .actionTimedOut _ | .actionUncertain .. | .actionCancelled _ => some .action
  | .leaseAcquired _ | .leaseReleased .. | .leaseExpired .. | .leaseRenewed .. => some .lease
  | .signalSent _ | .signalConsumed _ => some .signal
  | .capabilitySetCreated _ => some .capability
  | .leaseAcquireFailed .. | .capabilityDenied .. | .note .. => none

/-- A step of these services only. -/
structure Touches (services : List Service) (store store' : KernelStore) : Prop where
  journals : Journals (fun body => ∀ owner, service body = some owner → owner ∈ services) store store'
  processes : .process ∉ services → store'.processes = store.processes ∧
    store'.programStates = store.programStates ∧ store'.checkpoints = store.checkpoints
  actions : .action ∉ services → store'.actions = store.actions
  leases : .lease ∉ services → store'.leases = store.leases ∧ store'.fencingTokens = store.fencingTokens
  signals : .signal ∉ services → store'.signals = store.signals
  capabilities : .capability ∉ services → store'.capabilitySets = store.capabilitySets

def Touching (services : List Service) (_ : Label) (w w' : World) : Prop :=
  Touches services w.store w'.store

section
variable {services : List Service} {α : Type}

theorem Touches.refl : Touches services store store :=
  ⟨.refl _ _, fun _ => ⟨rfl, rfl, rfl⟩, fun _ => rfl, fun _ => ⟨rfl, rfl⟩, fun _ => rfl, fun _ => rfl⟩

theorem Touches.append (owned : ∀ owner, service body = some owner → owner ∈ services) :
    Touches services store (appendEvents [⟨pid, body⟩] store) :=
  ⟨.one owned store, fun _ => ⟨rfl, rfl, rfl⟩, fun _ => rfl, fun _ => ⟨rfl, rfl⟩, fun _ => rfl, fun _ => rfl⟩

theorem touching_query (read : KernelStore → α) : AlwaysTask (Touching services) (query read) :=
  always_query read fun _ => .refl

theorem touching_during (touching : AlwaysTask (Touching services) task) :
    AlwaysTask (Touching services) (during phase task) :=
  .relabel (fun _ _ _ step => step) touching

theorem touching_readClock : AlwaysTask (Touching services) readClock :=
  .step fun _ => .refl

theorem touching_drawIds {count} : AlwaysTask (Touching services) (drawIds count) :=
  .step fun _ => .refl

theorem touching_append {pid} (owned : ∀ owner, service body = some owner → owner ∈ services) :
    AlwaysTask (Touching services) (appendEvent label pid body) :=
  always_update fun _ => .append owned

theorem touching_discard {task : KernelTask α} (touching : AlwaysTask (Touching services) task) :
    AlwaysTask (Touching services) (discard task) :=
  touching.bind fun _ => .pure _

/-! ### Leases -/

theorem Touches.of_lease {w w'} (step : LeaseStep label w w') : Touching [.lease] label w w' := by
  obtain ⟨_, store', frame, rfl⟩ := step
  have same := frame.elsewhere
  refine ⟨frame.journals.mono fun body kind => ?_, fun _ => ⟨same.processes, same.programStates,
    same.checkpoints⟩, fun _ => same.actions, fun outside => absurd mem_cons_self outside,
    fun _ => same.signals, fun _ => same.capabilitySets⟩
  cases body <;> first
    | simp [service]; done
    | cases kind

theorem touching_lapse {task : KernelTask α} (lapses : AlwaysTask (OnStore Lapse) task) :
    AlwaysTask (Touching [.lease]) task :=
  .mono (fun _ _ _ step => .of_lease (.of_lapse step)) lapses

/-! ### Actions -/

theorem Touches.trans {after} (first : Touches services store store')
    (second : Touches services store' after) : Touches services store after where
  journals := first.journals.trans second.journals
  processes outside :=
    have a := first.processes outside
    have b := second.processes outside
    ⟨b.1.trans a.1, b.2.1.trans a.2.1, b.2.2.trans a.2.2⟩
  actions outside := (second.actions outside).trans (first.actions outside)
  leases outside :=
    have a := first.leases outside
    have b := second.leases outside
    ⟨b.1.trans a.1, b.2.trans a.2⟩
  signals outside := (second.signals outside).trans (first.signals outside)
  capabilities outside := (second.capabilities outside).trans (first.capabilities outside)

theorem Touches.upsertProjection (acb) : Touches [.action] store (upsertProjection acb store) :=
  ⟨.of_eq rfl, fun _ => ⟨rfl, rfl, rfl⟩, fun outside => absurd mem_cons_self outside,
    fun _ => ⟨rfl, rfl⟩, fun _ => rfl, fun _ => rfl⟩

theorem owned (known : service body = some owner) : ∀ other, service body = some other → other ∈ [owner] := by
  intro other same
  rw [known] at same
  cases same
  exact mem_cons_self

theorem touching_revise {change}
    (known : ∀ acb revised body, change acb = .ok (revised, body) → service body = some .action) :
    AlwaysTask (Touching [.action]) (revise actionId change) := by
  refine (touching_query _).bind fun found => ?_
  cases found with
  | none => exact .throw _
  | some acb =>
    refine always_compute ?_
    rintro ⟨revised, body⟩ changed
    exact (touching_append (owned (known acb revised body changed))).bind fun _ =>
      always_update fun _ => .upsertProjection revised

theorem touching_enter {target set} (known : service body = some .action) :
    AlwaysTask (Touching [.action]) (enter actionId target body set) := by
  refine touching_revise fun acb revised told changed => ?_
  obtain ⟨moved, _, done⟩ := bind_ok.mp changed
  cases done
  exact known

theorem touching_conditional {forbids change} (known : ∀ acb, service (change acb).2 = some .action) :
    AlwaysTask (Touching [.action]) (transaction label fun _ => conditionalTx actionId forbids change) := by
  refine always_transaction fun w result store' ran => ?_
  rcases conditionalTx_cases ran with ⟨rfl, _⟩ | ⟨acb, _, _, _, _, rfl⟩
  · exact .refl
  exact (Touches.append (owned (known acb))).trans (Touches.upsertProjection _)

theorem touching_sampled {now} : AlwaysTask (Touching services) (sampled now) := by
  cases now with
  | some now => exact .pure _
  | none => exact touching_readClock

theorem touching_submit {submission} : AlwaysTask (Touching [.action]) (submit submission) :=
  touching_drawIds.bind fun _ => touching_readClock.bind fun _ =>
    (touching_append (owned rfl)).bind fun _ =>
    (always_update fun _ => .upsertProjection _).bind fun _ => .pure _

theorem touching_actionCall {call : ActionCall} : AlwaysTask (Touching [.action]) call.task := by
  cases call with
  | submit submission => exact touching_submit.bind fun _ => .pure _
  | admitAction actionId => exact touching_enter rfl
  | reject actionId reason => exact touching_enter rfl
  | markIntentDurable actionId leaseIds fencingTokens =>
    exact touching_revise fun acb revised body changed => by cases changed; rfl
  | dispatch actionId => exact touching_enter rfl
  | reserveRetryIfFenced actionId now =>
    exact touching_sampled.bind fun now =>
      (touching_conditional fun _ => rfl).bind fun _ => .pure _
  | validateReservedRetryIfFenced actionId now =>
    refine touching_sampled.bind fun now =>
      (always_transaction fun w result store' ran => ?_).bind fun _ => .pure _
    obtain rfl := Session.transaction_check ran
    exact .refl
  | commit actionId result => exact touching_enter rfl
  | commitIfFenced actionId result now =>
    exact touching_sampled.bind fun now =>
      (touching_conditional fun _ => rfl).bind fun _ => .pure _
  | fail actionId error => exact touching_enter rfl
  | failIfRunning actionId error =>
    exact ((touching_conditional fun _ => rfl).bind fun _ => .pure _).bind fun _ => .pure _
  | markTimedOut actionId => exact touching_enter rfl
  | markUncertain actionId detail => exact touching_enter rfl
  | markUncertainIfRunning actionId detail =>
    exact ((touching_conditional fun _ => rfl).bind fun _ => .pure _).bind fun _ => .pure _
  | cancel actionId => exact touching_enter rfl

/-! ### Processes -/

/-- The tables of the processes are the only ones that differ. -/
theorem Touches.processTables {rows states saved} (inside : .process ∈ services) : Touches services store
    { store with processes := rows, programStates := states, checkpoints := saved } :=
  ⟨.of_eq rfl, fun outside => absurd inside outside, fun _ => rfl, fun _ => ⟨rfl, rfl⟩, fun _ => rfl, fun _ => rfl⟩

theorem touching_upsertProcess (pcb) (inside : .process ∈ services) :
    AlwaysTask (Touching services) (update label (upsertProcess pcb)) :=
  always_update fun _ => .processTables inside

theorem touching_move {before after} {pid} {target} {waitCondition} (inside : .process ∈ services) :
    AlwaysTask (Touching services) (move before after pid target waitCondition) := by
  refine (touching_during (touching_query _)).bind fun found => ?_
  cases found with
  | none => exact .throw _
  | some pcb =>
    refine always_compute fun moved _ => ?_
    exact (touching_append fun owner same => by cases same; exact inside).bind fun _ =>
      touching_upsertProcess _ inside

theorem touching_spawn {spawning} : AlwaysTask (Touching [.process]) (spawn spawning) :=
  touching_drawIds.bind fun _ => touching_readClock.bind fun _ =>
    (always_update fun _ => .processTables mem_cons_self).bind fun _ =>
    (touching_append (owned rfl)).bind fun _ =>
    (touching_upsertProcess _ mem_cons_self).bind fun _ =>
    (touching_move mem_cons_self).bind fun _ =>
    (touching_query _).bind fun _ => .pure _

variable (pid : String)

theorem touching_moveCursor : AlwaysTask (Touching [.process]) (moveCursor pid) := by
  refine (touching_query _).bind fun found => ?_
  cases found with
  | none => exact .pure _
  | some pcb =>
    exact (touching_query _).bind fun _ => touching_upsertProcess _ mem_cons_self

theorem touching_checkpoint : AlwaysTask (Touching [.process]) (handleCheckpoint pid) := by
  refine (touching_query _).bind fun found => ?_
  cases found with
  | none => exact .throw _
  | some pcb =>
    exact (touching_query _).bind fun _ => touching_drawIds.bind fun _ =>
      (always_update fun _ => .processTables mem_cons_self).bind fun _ =>
      (touching_upsertProcess _ mem_cons_self).bind fun _ =>
      .bind (touching_append nofun) fun _ => .pure _

theorem Touches.mono {more} (wider : ∀ owner ∈ services, owner ∈ more)
    (touches : Touches services store store') : Touches more store store' where
  journals := touches.journals.mono fun _ inside owner known => wider owner (inside owner known)
  processes outside := touches.processes fun inside => outside (wider _ inside)
  actions outside := touches.actions fun inside => outside (wider _ inside)
  leases outside := touches.leases fun inside => outside (wider _ inside)
  signals outside := touches.signals fun inside => outside (wider _ inside)
  capabilities outside := touches.capabilities fun inside => outside (wider _ inside)

theorem touching_exit {pid exitCode : String} {resultRef : Option String} :
    AlwaysTask (Touching [.process, .lease]) (handleExit pid (.exit exitCode resultRef)) := by
  refine (touching_move mem_cons_self).bind fun _ => ?_
  refine .bind (.mono (fun _ _ _ => .mono (by simp)) (touching_lapse always_releaseAllForPid)) fun _ => ?_
  refine .bind (touching_query _) fun found => ?_
  have tells : AlwaysTask (Touching [.process, .lease]) (do
      appendEvent {} pid (.processExited exitCode resultRef)
      return { eventType := "PROCESS_EXITED"
               payload := [("exit_code", .str exitCode), ("result_ref", resultRef.elim .null .str)] } :
      KernelTask Reply) :=
    (touching_append fun owner same => by cases same; exact mem_cons_self).bind fun _ =>
      .pure _
  cases found with
  | none => exact tells
  | some pcb => exact (touching_upsertProcess _ mem_cons_self).bind fun _ => tells

/-! ### Signals and capabilities -/

theorem Touches.signalTable {rows} (inside : .signal ∈ services) :
    Touches services store { store with signals := rows } :=
  ⟨.of_eq rfl, fun _ => ⟨rfl, rfl, rfl⟩, fun _ => rfl, fun _ => ⟨rfl, rfl⟩,
    fun outside => absurd inside outside, fun _ => rfl⟩

theorem touching_post {before after} {targetPid signalType} {sourcePid}
    {payload} : AlwaysTask (Touching [.signal]) (post before after targetPid signalType sourcePid payload) :=
  (touching_during touching_drawIds).bind fun _ =>
    (touching_during touching_readClock).bind fun _ =>
    (touching_append (owned rfl)).bind fun _ =>
    (always_update fun _ => .signalTable mem_cons_self).bind fun _ => .pure _

theorem touching_markConsumed (signalId) : AlwaysTask (Touching [.signal]) (markConsumed signalId) :=
  (always_update fun _ => .signalTable mem_cons_self).bind fun _ =>
    touching_append (owned rfl)

/-- A signal that is delivered is consumed first, and then its target is woken. -/
theorem keeps_delivery (consumes : KeepsTask solo I (markConsumed signal.signalId))
    (wakes : KeepsTask solo I (move .handover .posting signal.targetPid .ready none)) :
    KeepsTask solo I (deliver signal) := by
  refine (keeps_query _).bind fun found => ?_
  cases found with
  | none => exact .pure _
  | some pcb =>
    dsimp only
    split
    · exact .pure _
    exact consumes.bind fun _ => wakes

theorem touching_deliver (signal) : AlwaysTask (Touching [.signal, .process]) (deliver signal) := by
  refine (touching_query _).bind fun found => ?_
  cases found with
  | none => exact .pure _
  | some pcb =>
    dsimp only
    split
    · exact .pure _
    refine ((always_update fun _ => .signalTable mem_cons_self).bind
      fun _ => touching_append fun owner same => ?_).bind fun _ => touching_move (by simp)
    cases same
    exact mem_cons_self

theorem touching_deliverPending : AlwaysTask (Touching [.signal, .process]) deliverPending :=
  (touching_query _).bind fun _ => .forM touching_deliver

theorem Touches.capabilityTable : Touches [.capability] store { store with capabilitySets := rows } :=
  ⟨.of_eq rfl, fun _ => ⟨rfl, rfl, rfl⟩, fun _ => rfl, fun _ => ⟨rfl, rfl⟩, fun _ => rfl,
    fun outside => absurd mem_cons_self outside⟩

theorem touching_createCapabilitySet (capabilities) :
    AlwaysTask (Touching [.capability]) (createCapabilitySet pid capabilities) :=
  (always_update fun _ => .capabilityTable).bind fun _ => touching_append (owned rfl)

theorem touching_grant (capability) : AlwaysTask (Touching [.capability]) (grant pid capability) := by
  refine always_update fun w => ?_
  change Touches _ _ (grantCapability pid capability w.store)
  unfold grantCapability
  split
  · exact .capabilityTable
  split
  · exact .refl
  exact .capabilityTable

end

/-- The services that a call is of. -/
def KernelCall.services : KernelCall → List Service
  | .atomicAcquire .. | .release _ | .releaseAllForPid _ | .renew .. | .reclaimExpired _ => [.lease]
  | .action _ => [.action]
  | .spawn _ | .transition .. | .saveProgramState .. | .moveCursor _ | .checkpoint _ => [.process]
  | .exit .. => [.process, .lease]
  | .createCapabilitySet .. | .grant .. => [.capability]
  | .send .. => [.signal]
  | .deliverPending => [.signal, .process]

/-- Every step of a call stays with its services. -/
theorem touching_call (call : KernelCall) : AlwaysTask (Touching call.services) call.task := by
  cases call with
  | atomicAcquire pid claims draw ttl =>
    exact touching_discard (.mono (fun _ _ _ => .of_lease) always_atomicAcquire)
  | release leaseIds => exact touching_lapse always_release
  | releaseAllForPid pid => exact touching_lapse always_releaseAllForPid
  | renew leaseId ttl => exact touching_discard (touching_lapse always_renew)
  | reclaimExpired now => exact touching_lapse always_reclaimExpired
  | action call => exact touching_actionCall
  | spawn spawning => exact touching_discard touching_spawn
  | transition pid target waitCondition => exact touching_move mem_cons_self
  | saveProgramState pid state => exact always_update fun _ => .processTables mem_cons_self
  | moveCursor pid => exact touching_moveCursor pid
  | checkpoint pid => exact touching_discard (touching_checkpoint pid)
  | exit pid exitCode resultRef => exact touching_discard touching_exit
  | createCapabilitySet pid capabilities => exact touching_createCapabilitySet pid capabilities
  | grant pid capability => exact touching_grant pid capability
  | send targetPid signalType sourcePid payload => exact touching_discard touching_post
  | deliverPending => exact touching_deliverPending

/-- What a step of other services keeps, a call of other services keeps. -/
theorem keeps_untouched (owner : Service) (call : KernelCall) (outside : owner ∉ call.services)
    (steps : ∀ services w w', owner ∉ services → I w → Touches services w.store w'.store → I w') :
    KeepsTask solo I call.task :=
  .of_steps (touching_call call) fun _ w w' kept step => steps call.services w w' outside kept step

end LongHorizonOS.KernelRuns
