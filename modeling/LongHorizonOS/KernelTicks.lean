import LongHorizonOS.AtMostOnce
import LongHorizonOS.LeaseReplay

/-! Ticks of any number of kernels on one database, with the system calls that
their programs make. Whatever the programs and the drivers answer, every single
step moves the leases as the fenced locks allow and tells the journal of it. -/
namespace LongHorizonOS.KernelTicks
open FailFast AtomicPrograms Interleaving KernelModels KernelTasks List
open LeaseService ActionService ProcessService CapabilityService SignalService SyscallDispatcher AgentKernel
open FencedLock LeaseSpec ActionSpec JournalReplay KernelRuns LeaseReplay LeaseExclusion
open AtMostOnce (Happening happen)

/-- What is done to the leases is told to the journal, and moves their locks. -/
def Moved (w w' : World) : Prop := Told w.store w'.store ∧ Moves w.store w'.store

/-- So does every step. -/
def Moving {α : Type} (task : KernelTask α) : Prop := AlwaysTask (fun _ => Moved) task

/-! ## Rules -/

section
variable {α β : Type} {task : KernelTask α}

@[grind ←] theorem moving_pure (a : α) : Moving (pure a) := .pure a

@[grind ←] theorem moving_throw {failure} : Moving (throw failure : KernelTask α) := .throw failure

@[grind ←] theorem moving_bind {rest : α → KernelTask β} (head : Moving task) (tail : ∀ a, Moving (rest a)) :
    Moving (task >>= rest) := .bind head tail

/-- After a step without a result there is one way to go on. -/
@[grind ←] theorem moving_then {first : KernelTask Unit} {rest : Unit → KernelTask β} (head : Moving first)
    (tail : Moving (rest ())) : Moving (first >>= rest) := .bind head fun _ => tail

@[grind ←] theorem moving_catching {handle} (head : Moving task) (tail : ∀ failure, Moving (handle failure)) :
    Moving (tryCatch task handle) :=
  Always.bind head fun
    | .ok _ => trivial
    | .error failure => tail failure

@[grind ←] theorem moving_forM {items : List ι} {turn : ι → KernelTask Unit}
    (turns : ∀ item, Moving (turn item)) : Moving (items.forM turn) := .forM turns

@[grind ←] theorem moving_compute (result : Except KernelError α) : Moving (compute result) := trivial

@[grind ←] theorem moving_during {phase} (moving : Moving task) : Moving (during phase task) :=
  .relabel (fun _ _ _ step => step) moving

@[grind ←] theorem moving_handingOver (moving : Moving task) : Moving (handingOver task) :=
  .relabel (fun _ _ _ step => step) moving

/-! ### Services without leases -/

/-- A task that stays away from the leases moves nothing. -/
theorem moving_of_touching (services : List Service) (outside : .lease ∉ services)
    (touching : AlwaysTask (Touching services) task) : Moving task :=
  .mono (fun _ _ _ touches => ⟨.of_touches outside touches,
    .of_eq (touches.leases outside).1 (touches.leases outside).2⟩) touching

@[grind ←] theorem moving_touching (touching : AlwaysTask (Touching [.process]) task) : Moving task :=
  moving_of_touching _ (by simp) touching

attribute [grind ←] touching_query touching_readClock touching_drawIds touching_append touching_upsertProcess
  touching_checkpoint touching_spawn touching_move touching_submit touching_enter

@[grind ←] theorem moving_action (touching : AlwaysTask (Touching [.action]) task) : Moving task :=
  moving_of_touching _ (by simp) touching

@[grind ←] theorem moving_markIntentDurable : Moving (markIntentDurable actionId leaseIds tokens) :=
  moving_action (@touching_actionCall (.markIntentDurable ..))

@[grind ←] theorem moving_failIfRunning : Moving (failIfRunning actionId error) :=
  moving_bind (moving_action (touching_conditional fun _ => rfl)) moving_pure

@[grind ←] theorem moving_markUncertainIfRunning : Moving (markUncertainIfRunning actionId detail) :=
  moving_bind (moving_action (touching_conditional fun _ => rfl)) moving_pure

@[grind ←] theorem moving_commitIfFenced : Moving (commitIfFenced actionId result now) :=
  moving_action (touching_conditional fun _ => rfl)

@[grind ←] theorem moving_reserveRetryIfFenced : Moving (reserveRetryIfFenced actionId now) :=
  moving_action (touching_conditional fun _ => rfl)

@[grind ←] theorem moving_validateReservedRetryIfFenced : Moving (validateReservedRetryIfFenced actionId now) := by
  refine always_transaction fun w result store' ran => ?_
  obtain rfl := Session.transaction_check ran
  exact ⟨.refl _, .refl _⟩

@[grind ←] theorem moving_post {before after} : Moving (post before after targetPid signalType sourcePid payload) :=
  moving_of_touching _ (by simp) touching_post

@[grind ←] theorem moving_createCapabilitySet : Moving (createCapabilitySet pid capabilities) :=
  moving_of_touching _ (by simp) (touching_createCapabilitySet pid capabilities)

/-! ### Leases -/

theorem moving_lapse (tells : AlwaysTask Telling task) (lapses : AlwaysTask (OnStore Lapse) task) : Moving task :=
  .mono (fun _ _ _ ⟨told, _, _, lapse, same⟩ => ⟨told, same ▸ lapse.moves⟩) (tells.and lapses)

@[grind ←] theorem moving_release : Moving (release leaseIds) :=
  moving_lapse (@telling_call (.release leaseIds)) always_release

@[grind ←] theorem moving_releaseAllForPid : Moving (releaseAllForPid pid) :=
  moving_lapse telling_releaseAllForPid always_releaseAllForPid

@[grind ←] theorem moving_clearWaitersForPid : Moving (clearWaitersForPid pid) :=
  always_update fun _ => ⟨.of_eq rfl rfl rfl, .of_eq rfl rfl⟩

@[grind ←] theorem moving_atomicAcquire : Moving (atomicAcquire pid claims draw ttl) := by
  unfold atomicAcquire
  split
  · exact moving_then moving_clearWaitersForPid (moving_pure _)
  refine always_compute fun names named => .bind (always_transaction fun w result store' ran => ?_) fun _ =>
    moving_lapse telling_concludeAcquire always_concludeAcquire
  have distinct := (nameClaims_nodup named).1
  refine ⟨.acquireTx distinct ran, ?_⟩
  rcases acquireTx_cases distinct ran with ⟨rfl, _⟩ | ⟨leases, granted, _, free, all, rfl, _⟩
  · exact .refl _
  have acquired : Acquired pid w { store := _ } leases := ⟨names, _, granted, distinct, free, all, rfl, rfl⟩
  exact acquired.moves

/-! ## System calls -/

@[grind ←] theorem moving_ownsAll : Moving (ownsAll pid leaseIds) := by
  induction leaseIds with grind [ownsAll]

/-- Every system call, with every branch of its handler. -/
@[grind ←] theorem moving_call : Moving (SyscallDispatcher.dispatch strict pid request) := by
  unfold SyscallDispatcher.dispatch handleSubmitAction handleInspectAction handleCancelAction handleAcquire handleRelease
    handleWait handleSignal handleRestore handleExit handleSpawn missing enforceClaims enforce acquireForAction
    SyscallDispatcher.admitAction undoAdmission handleSpawn.complete journalled acquireLeases send
    ActionService.admitAction reject fail cancel transition
  -- a bind is taken apart as it stands; what is left at the leaves has a lemma
  repeat' first
    | with_reducible refine moving_bind ?_ fun _ => ?_
    | with_reducible refine moving_catching ?_ fun _ => ?_
    | split
    | grind [service]

/-! ## Ticks -/

@[grind ←] theorem moving_driverDispatch : Moving (driverDispatch actionId) := .step fun _ => ⟨.refl _, .refl _⟩

@[grind ←] theorem moving_driverInspect : Moving driverInspect := .step fun _ => ⟨.refl _, .refl _⟩

@[grind ←] theorem moving_callProgram : Moving (callProgram program state event) := .step fun _ => ⟨.refl _, .refl _⟩

@[grind ←] theorem moving_contractLeases : Moving (contractLeases pid now leaseIds) := by
  induction leaseIds with grind [contractLeases]

@[grind ←] theorem moving_settle {ends} (moving : Moving ends) : Moving (settle ends acb signalType payload) := by
  grind [settle, tellOwner]

theorem moving_after : Moving (afterDispatch acb reply) ∧ Moving (afterInspection acb mode reply) := by
  unfold afterDispatch afterInspection inspectAfterUnknown retryAfterException retryAfterException.redispatch
    retryUnknown completeAction markUncertainAndRelease uncertainAction failAction actionIsRunning
    reservationIsOwnedElsewhere tellOwner
  constructor
  all_goals repeat' first
    | with_reducible refine moving_bind ?_ fun _ => ?_
    | with_reducible refine moving_catching ?_ fun _ => ?_
    | split
    | grind

@[grind ←] theorem moving_victimCandidates : Moving (victimCandidates cycle) := by
  induction cycle with grind [victimCandidates]

@[grind ←] theorem moving_runProcessStep : Moving (runProcessStep kernel pcb) := by
  have saves := fun pid state => moving_touching (touching_call (.saveProgramState pid state))
  simp only [KernelCall.task] at saves
  unfold runProcessStep schedule stepRunning afterStep handleRequest submitRequest blockOnAction failProcess
    transition
  repeat' first
    | with_reducible refine moving_bind ?_ fun _ => ?_
    | with_reducible refine moving_catching ?_ fun _ => ?_
    | split
    | grind [service]

/-- The whole tick, whatever the programs and the drivers answer. -/
theorem moving_tick : Moving (tick kernel) := by
  have reclaims : ∀ now, Moving (reclaimExpired now) := fun now =>
    moving_lapse (@telling_call (.reclaimExpired now)) always_reclaimExpired
  have delivers : Moving deliverPending := moving_of_touching _ (by simp) touching_deliverPending
  have dispatched := fun acb reply => (@moving_after acb reply .retry).1
  have inspected := fun acb reply mode => (@moving_after acb reply mode).2
  unfold tick recoverIncompleteActions recoverAction dispatchPendingActions dispatchAction refuse tellOwner
    validateActionContract recoverDeadlock selectVictim suppressIllegal detectDeadlocks ActionService.dispatch fail
    transition
  repeat' first
    | with_reducible refine moving_bind ?_ fun _ => ?_
    | with_reducible refine moving_catching ?_ fun _ => ?_
    | with_reducible refine moving_forM fun _ => ?_
    | split
    | grind [service, markUncertainAndRelease, uncertainAction, failAction, actionIsRunning]

end

/-! ## Runs -/

inductive Work where
  | tick (kernel : Kernel)
  | call (strict : Bool) (pid : String) (request : KernelRequest)

/-- The steps of a tick or of a system call. One that has crashed takes no further step. -/
def Work.program : Work → Program World Label Unit
  | .tick kernel => (AgentKernel.tick kernel).launch
  | .call strict pid request => (SyscallDispatcher.dispatch strict pid request).launch

/-- Any number of kernels and callers over one database. -/
def kernels : Machine World (Program World Label Unit) Happening Work := machine happen Work.program

/-- The leases are those that the journal tells of, and they exclude each other. -/
structure Intact (store : KernelStore) : Prop where
  synced : LeasesSynced store
  sound : ∀ resourceId, Sound reading (lockOf store resourceId)

section
variable {w : World}

theorem Intact.moved (intact : Intact w.store) (moved : Moved w w') : Intact w'.store :=
  ⟨intact.synced.told moved.1, fun resourceId => (moved.2 resourceId).sound (intact.sound resourceId)⟩

/-- A restart finds the leases and the fences as they were. -/
theorem Intact.rebuild (intact : Intact store) :
    (rebuild store).leases = store.leases ∧ (rebuild store).fencingTokens = store.fencingTokens := by
  obtain ⟨leases, tokens⟩ := leases_rebuild store
  exact ⟨leases.trans intact.synced.leases.symm, tokens.trans (tokens_replayed intact.synced.fenced)⟩

theorem moved_happen (intact : Intact w.store) (happening) : Moved w (happen w happening) := by
  cases happening with
  | clock now => exact ⟨.refl _, .refl _⟩
  | restart stopped =>
    -- a rebuild that stops has left the journal alone, and the fences too
    obtain ⟨journal, tokens⟩ := stopped_rule (P := fun store => store.journal = w.store.journal ∧
        store.fencingTokens = w.store.fencingTokens) ⟨rfl, rfl⟩ (fun _ => And.left) (fun _ member store held => by
      obtain ⟨told, same⟩ := held
      obtain ⟨journal, tokens | ⟨event, among, tokens⟩⟩ := transaction_keeps store _ member
      · exact ⟨journal.trans told, tokens.trans same⟩
      rw [same] at tokens
      exact ⟨journal.trans told, tokens.trans (token_replayed (intact.synced.fenced event among))⟩) stopped
    obtain ⟨rows, fences⟩ := leases_rebuild (stopped.foldl rebuildUpTo w.store)
    rw [journal] at rows fences
    rw [tokens, tokens_replayed intact.synced.fenced] at fences
    rw [← intact.synced.leases] at rows
    exact ⟨.of_eq ((rebuild_journal _).trans journal) rows fences, .of_eq rows fences⟩

theorem moved_advance (moving : Always (fun _ => Moved) client) :
    Moved w (client.advance w).2 ∧ Always (fun _ => Moved) (client.advance w).1 := by
  cases client with
  | ret a => exact ⟨⟨.refl _, .refl _⟩, trivial⟩
  | step label write next => exact moving w

end

variable (events : List (Event Happening Work))

abbrev storeAfter : KernelStore := (kernels.conduct {} events).shared.store

theorem kernels_run : Intact (storeAfter events) ∧ ∀ (index : ℕ) client,
    (kernels.conduct {} events).clients[index]? = some client → Always (fun _ => Moved) client := by
  refine Machine.conduct_rule (P := fun w : World => Intact w.store) (G := fun _ _ => True)
    (I := fun _ _ client => Always (fun _ => Moved) client) Machine.meets_true ⟨⟨rfl, by simp⟩, fun _ => sound_free⟩
    (fun w happening intact => ⟨intact.moved (moved_happen intact happening), trivial⟩) (fun _ w work _ => ?_)
    (fun _ w client intact moving _ => ⟨intact.moved (moved_advance moving).1, trivial, (moved_advance moving).2⟩)
    fun _ _ _ _ _ _ moving => moving
  cases work with
  | tick kernel => exact Always.bind moving_tick fun _ => trivial
  | call strict pid request => exact Always.bind moving_call fun _ => trivial

end LongHorizonOS.KernelTicks
