import LongHorizonOS.KernelRuns

/-! The table of the processes, and what goes with them, after a rebuild. The
states of the processes are always replayed. The rest is as long as it was
journalled: what programs have saved, checkpoints and grants leave no event,
and the handler of a move keeps a condition that the move has cleared. -/
namespace LongHorizonOS.ProcessReplay
open KeyedRows AtomicPrograms KernelModels KernelTasks
open LeaseService ProcessService CapabilityService SignalService SyscallDispatcher AgentKernel
open LeaseSpec JournalReplay KernelRuns

/-! ## Agreement -/

/-- Both have the same state, and are the same if that is asked for. -/
def ViewAgrees (strict : Prop) (seen told : ProcessView) : Prop :=
  told.state = seen.state ∧ (strict → told = seen)

structure Synced (strict : Prop) (store : KernelStore) : Prop where
  agrees : ∀ pid, Option.Rel (ViewAgrees strict) ((getProcess store pid).map view)
    (replayedProcess store.journal pid)
  /-- Only an exit has a result. -/
  resultless : ∀ pid seen, (getProcess store pid).map view = some seen → ¬ seen.state.Terminal →
    seen.resultRef = none
  programs : strict → ∀ pid, getProgramState store pid = []
  checkpoints : strict → store.checkpoints = []
  capabilities : strict → store.capabilitySets = replayedCapabilities store.journal

theorem synced_empty (strict : Prop) : Synced strict {} :=
  ⟨fun _ => .none, nofun, fun _ _ => rfl, fun _ => rfl, fun _ => rfl⟩

section
/-- The row of one process and what the journal tells of it change together. -/
theorem Synced.change (synced : Synced strict store) (key : pcb.pid = pid)
    (others : ∀ other known, other ≠ pid → hearProcess other known event = known)
    (uncapable : ∀ sets, hearCapabilities sets event = sets)
    (own : ∀ told, Option.Rel (ViewAgrees strict) ((getProcess store pid).map view) told →
      Option.Rel (ViewAgrees strict) (some (view pcb)) (hearProcess pid told event))
    (resultless : ¬ pcb.state.Terminal → pcb.resultRef = none) :
    Synced strict (upsertProcess pcb (appendEvents [event] store)) := by
  refine ⟨fun other => ?_, fun other seen found => ?_, synced.programs, synced.checkpoints, fun exact => ?_⟩
  · rw [viewed_upsertProcess, key]
    change Option.Rel _ _ (replayedProcess (store.journal ++ [event]) other)
    rw [replayedProcess_append]
    by_cases same : other = pid
    · subst same
      rw [if_pos rfl]
      exact own _ (synced.agrees other)
    · rw [if_neg same, others other _ same]
      exact synced.agrees other
  · rw [viewed_upsertProcess, key] at found
    split at found
    · cases found
      exact resultless
    · exact synced.resultless other seen found
  · change store.capabilitySets = replayedCapabilities (store.journal ++ [event])
    rw [replayedCapabilities_append, uncapable]
    exact synced.capabilities exact

/-- What is not seen of a process may change without an event. -/
theorem Synced.unseen (synced : Synced strict store) (found : getProcess store pid = some row)
    (key : pcb.pid = pid) (same : view pcb = view row) : Synced strict (upsertProcess pcb store) := by
  refine ⟨fun other => ?_, fun other seen hit => ?_, synced.programs, synced.checkpoints, synced.capabilities⟩
  · rw [viewed_upsertProcess, key]
    split
    · rename_i here
      have before := synced.agrees other
      rw [here, found, Option.map_some, ← same, ← here] at before
      exact before
    · exact synced.agrees other
  · rw [viewed_upsertProcess, key] at hit
    split at hit
    · cases hit
      exact synced.resultless pid (view pcb) (by rw [found, same]; rfl)
    · exact synced.resultless other seen hit

/-- Steps of the services of actions, leases and signals leave all of this alone. -/
theorem Synced.untouched (outside : Service.process ∉ services)
    (unable : Service.capability ∉ services) (synced : Synced strict store)
    (touches : Touches services store store') : Synced strict store' := by
  obtain ⟨processes, programs, checkpoints⟩ := touches.processes outside
  have told : (∀ pid, replayedProcess store'.journal pid = replayedProcess store.journal pid) ∧
      replayedCapabilities store'.journal = replayedCapabilities store.journal := by
    obtain ⟨events, grown, silent⟩ := touches.journals
    rw [grown]
    clear grown
    induction events using List.reverseRecOn with
    | nil => simp
    | append_singleton events event ih =>
      obtain ⟨views, sets⟩ := ih fun other member => silent other (by simp [member])
      have inside := silent event (by simp)
      simp only [← List.append_assoc, replayedProcess_append, replayedCapabilities_append, views, sets]
      obtain ⟨subject, body⟩ := event
      cases body <;> first
        | exact ⟨fun _ => rfl, rfl⟩
        | exact absurd (inside .process rfl) outside
        | exact absurd (inside .capability rfl) unable
  refine ⟨fun pid => ?_, fun pid seen found => ?_, fun exact pid => ?_, fun exact => ?_, fun exact => ?_⟩
  · rw [told.1, getProcess, processes]
    exact synced.agrees pid
  · rw [getProcess, processes] at found
    exact synced.resultless pid seen found
  · rw [getProgramState, programs]
    exact synced.programs exact pid
  · rw [checkpoints]
    exact synced.checkpoints exact
  rw [told.2, touches.capabilities unable]
  exact synced.capabilities exact

/-! ## Moves -/

/-- The handler of the move leaves the condition that the move leaves. -/
def MoveTold (store : KernelStore) (pid : String) (target : ProcessState)
    (waitCondition : Option WaitCondition) : Prop :=
  (waitCondition ≠ none → target = .blocked ∧ storedWait waitCondition ≠ none) ∧
    (target.Terminal → ∀ pcb, getProcess store pid = some pcb → pcb.waitCondition = none)

theorem moveTold_ready : MoveTold store pid .ready none :=
  ⟨fun given => absurd rfl given, fun terminal => absurd terminal (by decide)⟩

theorem blocked_waits (applied : applyProcessTransition pcb target none = .ok moved) : target ≠ .blocked := by
  rintro rfl
  unfold applyProcessTransition validateProcessTransition at applied
  split at applied
  · cases applied
  rename_i valid
  split at valid
  · cases valid
  split at valid
  · cases valid
  simp at valid

/-- The handler and the method make the same of an agreeing process. -/
theorem moved_agrees (applied : applyProcessTransition pcb target waitCondition = .ok moved)
    (agrees : ViewAgrees strict (view pcb) told)
    (telling : strict → (waitCondition ≠ none → target = .blocked ∧ storedWait waitCondition ≠ none) ∧
      (target.Terminal → pcb.waitCondition = none)) :
    ViewAgrees strict (view moved) (moveView target waitCondition told) := by
  have waits : waitCondition = none → target ≠ .blocked := by
    rintro rfl
    exact blocked_waits applied
  obtain ⟨_, _, rfl⟩ := applyProcessTransition_ok applied
  refine ⟨rfl, fun exact => ?_⟩
  obtain ⟨given, ends⟩ := telling exact
  obtain rfl := agrees.2 exact
  simp only [moveView, view, ProcessView.mk.injEq, true_and, and_true]
  cases waitCondition with
  | some condition =>
    obtain ⟨rfl, filled⟩ := given (by simp)
    cases stored : storedWait (some condition) with
    | none => exact absurd stored filled
    | some kept => simp only [if_true, stored]
  | none =>
    simp only [storedWait, waits rfl, if_false]
    by_cases runs : target = .ready ∨ target = .running
    · rw [if_pos runs, if_pos (runs.elim .inl fun running => .inr (.inl running))]
    rw [if_neg runs]
    by_cases terminal : target.Terminal
    · rw [if_pos (.inr (.inr terminal)), ends terminal]
    rw [if_neg fun some => some.elim (fun h => runs (.inl h)) fun rest =>
      rest.elim (fun h => runs (.inr h)) terminal]

/-- The process has moved there, and has no result. -/
def Arrived (store : KernelStore) (pid : String) (target : ProcessState) : Prop :=
  ∃ seen, (getProcess store pid).map view = some seen ∧ seen.state = target ∧ seen.resultRef = none

theorem Synced.moved {moved} (synced : Synced strict store) (found : getProcess store pid = some pcb)
    (applied : applyProcessTransition pcb target waitCondition = .ok moved)
    (telling : strict → MoveTold store pid target waitCondition) :
    Synced strict (upsertProcess moved (appendEvents [⟨pid, .processMoved target waitCondition⟩] store)) ∧
      Arrived (upsertProcess moved (appendEvents [⟨pid, .processMoved target waitCondition⟩] store)) pid target := by
  obtain ⟨live, _, shape⟩ := applyProcessTransition_ok applied
  have key : moved.pid = pid := by rw [shape, ← getProcess_pid found]
  have result : moved.resultRef = none := by
    rw [shape]
    exact synced.resultless pid (view pcb) (by rw [found]; rfl) live
  refine ⟨synced.change key (fun other known differs => if_neg differs) (fun _ => rfl) (fun told agrees => ?_)
    fun _ => result, ?_⟩
  · rw [found] at agrees
    cases agrees with
    | some agrees =>
      change Option.Rel _ _ (if pid = pid then _ else _)
      rw [if_pos rfl]
      exact .some (moved_agrees applied agrees fun exact =>
        ⟨(telling exact).1, fun terminal => (telling exact).2 terminal pcb found⟩)
  · exact ⟨view moved, by rw [viewed_upsertProcess, key, if_pos rfl], by rw [shape]; rfl, result⟩

theorem solo_move (synced : Synced strict w.store) (telling : strict → MoveTold w.store pid target waitCondition) :
    SafeTask solo (fun _ w' _ => Synced strict w'.store ∧ Arrived w'.store pid target)
    (fun _ w' _ => Synced strict w'.store) (move before after pid target waitCondition) w held := by
  refine (solo_during _ (solo_query _)).bind fun found w' held ⟨read, same⟩ => ?_
  subst same
  cases found with
  | none => exact synced
  | some pcb =>
    refine safe_compute (fun _ => synced) fun moved applied => ?_
    exact solo_journalled fun _ => synced.moved read.symm applied telling

/-! ## The other calls -/

theorem Synced.saved (synced : Synced strict store) (empty : strict → state = []) :
    Synced strict (saveProgramState pid state store) := by
  refine ⟨synced.agrees, synced.resultless, fun exact other => ?_, synced.checkpoints, synced.capabilities⟩
  change ((lookup Prod.fst (upsert Prod.fst (pid, state) store.programStates) other).map Prod.snd).getD [] = []
  rw [lookup_upsert]
  split
  · exact empty exact
  exact synced.programs exact other

theorem Synced.spawned (synced : Synced strict store) (new : pcb.resultRef = none) :
    Synced strict (upsertProcess pcb (appendEvents [⟨pcb.pid, .processSpawned pcb⟩] store)) := by
  refine synced.change rfl (fun other known differs => if_neg differs) (fun _ => rfl) (fun told _ => ?_) fun _ => new
  change Option.Rel _ _ (if pcb.pid = pcb.pid then _ else _)
  rw [if_pos rfl]
  exact .some ⟨rfl, fun _ => rfl⟩

theorem keeps_spawn (empty : strict → spawning.programState = []) :
    KeepsTask solo (fun w : World => Synced strict w.store) (spawn spawning) := by
  intro w held synced
  refine (solo_drawIds 2).bind fun draw w' held same => ?_
  subst same
  refine solo_readClock.bind fun now w' held ⟨_, same⟩ => ?_
  subst same
  refine solo_then fun held => ?_
  refine solo_then fun held => ?_
  refine solo_then fun held => ?_
  refine (solo_move ((synced.saved empty).spawned (by rfl)) fun _ => moveTold_ready).bind fun _ w held arrived => ?_
  refine (solo_query _).bind fun found w' held ⟨_, same⟩ => ?_
  subst same
  exact arrived.1

theorem keeps_moveCursor : KeepsTask solo (fun w : World => Synced strict w.store) (moveCursor pid) := by
  intro w held synced
  refine (solo_query _).bind fun found w' held ⟨read, same⟩ => ?_
  subst same
  cases found with
  | none => exact synced
  | some pcb =>
    have key := getProcess_pid read.symm
    refine (solo_query _).bind fun cursor w held ⟨_, same⟩ => ?_
    subst same
    exact solo_update fun _ => synced.unseen read.symm key rfl

/-- A note in the journal. -/
theorem Synced.noted (synced : Synced strict store) (silent : service body = none) :
    Synced strict (appendEvents [⟨pid, body⟩] store) :=
  have touches : Touches [] store (appendEvents [⟨pid, body⟩] store) :=
    .append fun owner known => by rw [silent] at known; cases known
  synced.untouched List.not_mem_nil List.not_mem_nil touches

theorem Synced.checkpointed (synced : Synced strict store) (lax : ¬ strict) :
    Synced strict { store with checkpoints := store.checkpoints ++ [checkpoint] } :=
  ⟨synced.agrees, synced.resultless, synced.programs, fun exact => absurd exact lax, synced.capabilities⟩

theorem solo_checkpoint (synced : Synced strict w.store) (unknown : strict → getProcess w.store pid = none) :
    SafeTask solo (fun _ w _ => Synced strict w.store) (fun _ w _ => Synced strict w.store)
    (handleCheckpoint pid) w held := by
  refine (solo_query _).bind fun found w' held ⟨read, same⟩ => ?_
  subst same
  cases found with
  | none => exact synced
  | some pcb =>
    have lax : ¬ strict := fun exact => by rw [unknown exact] at read; cases read
    refine (solo_query _).bind fun offset w' held ⟨_, same⟩ => ?_
    subst same
    refine (solo_drawIds 1).bind fun draw w' held same => ?_
    subst same
    refine solo_then fun held => ?_
    refine solo_then fun held => ?_
    refine solo_then fun held => ?_
    have key := getProcess_pid read.symm
    refine .noted ?_ rfl
    exact (synced.checkpointed lax).unseen read.symm key rfl

theorem Synced.exited (synced : Synced strict store) (found : getProcess store pid = some pcb)
    (exits : pcb.state = .exited) (new : pcb.resultRef = none)
    (telling : strict → exitCode ≠ "" ∧ resultRef ≠ some "") :
    Synced strict (upsertProcess { pcb with exitCode := some exitCode, resultRef }
      (appendEvents [⟨pid, .processExited exitCode resultRef⟩] store)) := by
  have key := getProcess_pid found
  have terminal : pcb.state.Terminal := .inl exits
  refine synced.change key (fun other known differs => if_neg differs) (fun _ => rfl) (fun told agrees => ?_)
    fun live => absurd terminal live
  rw [found] at agrees
  cases agrees with
  | some agrees =>
    change Option.Rel _ _ (if pid = pid then _ else _)
    rw [if_pos rfl]
    refine .some ⟨agrees.1, fun exact => ?_⟩
    obtain ⟨code, result⟩ := telling exact
    obtain rfl := agrees.2 exact
    have coded : filled (some exitCode) = some exitCode := by simp [filled, code]
    have resulted : (filled resultRef).or (view pcb).resultRef = resultRef := by
      cases resultRef with
      | none => exact new
      | some text =>
        simp [filled]
    simp only [exitView, coded, resulted]
    rfl

theorem Arrived.untouched (outside : Service.process ∉ services) (arrived : Arrived store pid target)
    (touches : Touches services store store') : Arrived store' pid target := by
  rw [Arrived, getProcess, (touches.processes outside).1]
  exact arrived

theorem solo_exit (synced : Synced strict w.store)
    (telling : strict → MoveTold w.store pid .exited none ∧ exitCode ≠ "" ∧ resultRef ≠ some "") :
    SafeTask solo (fun _ w _ => Synced strict w.store) (fun _ w _ => Synced strict w.store)
    (handleExit pid (.exit exitCode resultRef)) w held := by
  refine (solo_move synced fun exact => (telling exact).1).bind fun _ w held arrived => ?_
  have releases : KeepsTask solo (fun w : World => Synced strict w.store ∧ Arrived w.store pid .exited)
      (releaseAllForPid pid) :=
    .of_steps (touching_lapse always_releaseAllForPid) fun _ _ _ ⟨synced, arrived⟩ touches =>
      ⟨synced.untouched (by simp) (by simp) touches, arrived.untouched (by simp) touches⟩
  have released : SafeTask solo (fun _ w _ => Synced strict w.store ∧ Arrived w.store pid .exited)
      (fun _ w _ => Synced strict w.store) (releaseAllForPid pid) w held :=
    (releases w held arrived).mono (fun _ _ _ kept => kept) fun _ _ _ kept => kept.1
  refine released.bind fun _ w held ⟨synced, seen, viewed, exits, new⟩ => ?_
  refine (solo_query _).bind fun found w' held ⟨read, same⟩ => ?_
  subst same
  cases found with
  | none =>
    rw [← read] at viewed
    cases viewed
  | some pcb =>
    rw [← read] at viewed
    cases viewed
    refine solo_then fun held => ?_
    refine solo_then fun held => ?_
    exact synced.exited read.symm exits new fun exact => (telling exact).2

theorem keeps_deliver (signal) : KeepsTask solo (fun w : World => Synced strict w.store) (deliver signal) := by
  refine keeps_delivery (.of_steps (touching_markConsumed _) fun _ _ _ synced touches =>
    synced.untouched (by simp) (by simp) touches) fun w held synced => ?_
  exact (solo_move synced fun _ => moveTold_ready).mono (fun _ _ _ kept => kept.1) fun _ _ _ kept => kept

theorem keeps_deliverPending : KeepsTask solo (fun w : World => Synced strict w.store) deliverPending :=
  (keeps_query _).bind fun _ => .forM keeps_deliver

theorem keeps_createCapabilitySet :
    KeepsTask solo (fun w : World => Synced strict w.store) (createCapabilitySet pid capabilities) := by
  intro w held synced
  refine solo_then fun held => solo_update fun _ => ?_
  refine ⟨fun other => ?_, synced.resultless, synced.programs, synced.checkpoints, fun exact => ?_⟩
  · change Option.Rel _ _ (replayedProcess (w.store.journal ++ [_]) other)
    rw [replayedProcess_append]
    exact synced.agrees other
  change upsert _ _ w.store.capabilitySets = replayedCapabilities (w.store.journal ++ [_])
  rw [replayedCapabilities_append, synced.capabilities exact]
  rfl

theorem Synced.granted (synced : Synced strict store) (known : strict → grantCapability pid capability store = store) :
    Synced strict (grantCapability pid capability store) := by
  by_cases exact : strict
  · rw [known exact]
    exact synced
  unfold grantCapability
  split
  · exact ⟨synced.agrees, synced.resultless, synced.programs, synced.checkpoints, fun held => absurd held exact⟩
  split
  · exact synced
  exact ⟨synced.agrees, synced.resultless, synced.programs, synced.checkpoints, fun held => absurd held exact⟩

end

/-! ## Runs -/

/-- What the call does to processes and capabilities is in the journal. -/
def Telling (store : KernelStore) : KernelCall → Prop
  | .spawn spawning => spawning.programState = []
  | .transition pid target waitCondition => MoveTold store pid target waitCondition
  | .saveProgramState _ state => state = []
  | .checkpoint pid => getProcess store pid = none
  | .exit pid exitCode resultRef =>
    MoveTold store pid .exited none ∧ exitCode ≠ "" ∧ resultRef ≠ some ""
  | .grant pid capability =>
    ∃ existing, getCapabilitySet store pid = some existing ∧ existing.any (Capability.same capability)
  | _ => True

theorem synced_call (synced : Synced strict w.store) (telling : strict → Telling w.store call) (held) :
    SafeTask solo (fun _ w _ => Synced strict w.store) (fun _ w _ => Synced strict w.store) call.task w held := by
  have discarded : ∀ {α : Type} {task : KernelTask α},
      SafeTask solo (fun _ w _ => Synced strict w.store) (fun _ w _ => Synced strict w.store) task w held →
      SafeTask solo (fun _ w _ => Synced strict w.store) (fun _ w _ => Synced strict w.store)
        (KernelRuns.discard task) w held :=
    fun safe => safe.bind fun _ _ _ kept => kept
  cases call with
  | spawn spawning => exact discarded (keeps_spawn telling w held synced)
  | transition pid target waitCondition =>
    exact (solo_move synced telling).mono (fun _ _ _ kept => kept.1) fun _ _ _ kept => kept
  | saveProgramState pid state => exact solo_update fun _ => synced.saved telling
  | moveCursor pid => exact keeps_moveCursor w held synced
  | checkpoint pid => exact discarded (solo_checkpoint synced telling)
  | exit pid exitCode resultRef => exact discarded (solo_exit synced telling)
  | createCapabilitySet pid capabilities => exact keeps_createCapabilitySet w held synced
  | grant pid capability =>
    refine solo_update fun _ => synced.granted fun exact => ?_
    obtain ⟨existing, stored, known⟩ := telling exact
    simp only [grantCapability, stored, known, if_true]
  | deliverPending => exact keeps_deliverPending w held synced
  | _ =>
    exact KeepsTask.of_steps (touching_call _) (fun _ _ _ synced touches =>
      synced.untouched (by simp [KernelCall.services]) (by simp [KernelCall.services]) touches) w held synced

theorem synced_run (telling : strict → ∀ before turn later, turns = before ++ turn :: later →
    Telling (runCalls before).store turn.2) : Synced strict (runCalls turns).store := by
  refine runCalls_induct (I := fun w => Synced strict w.store) (synced_empty strict)
    fun before turn later split synced => ?_
  exact SafeTask.alone (synced_call (w := { runCalls before with clock := turn.1 }) synced
    (fun exact => telling exact before turn later split) 0)

/-- After every run of calls whose effects are all in the journal, the rebuilt
tables have the same processes, program states, checkpoints and decisions. -/
theorem replayed_processes_agree {turns : List (Int × KernelCall)}
    (telling : ∀ before turn later, turns = before ++ turn :: later → Telling (runCalls before).store turn.2) :
    (∀ pid, (getProcess (rebuild (runCalls turns).store) pid).map view =
        (getProcess (runCalls turns).store pid).map view ∧
      getProgramState (rebuild (runCalls turns).store) pid = getProgramState (runCalls turns).store pid) ∧
    (rebuild (runCalls turns).store).checkpoints = (runCalls turns).store.checkpoints ∧
    ∀ pid resource operation, check (rebuild (runCalls turns).store) pid resource operation =
      check (runCalls turns).store pid resource operation := by
  have synced : Synced True (runCalls turns).store := synced_run fun _ => telling
  refine ⟨fun pid => ⟨?_, ?_⟩, ?_, fun pid resource operation => ?_⟩
  · rw [viewed_rebuild]
    have agrees := synced.agrees pid
    generalize (getProcess (runCalls turns).store pid).map view = seen,
      replayedProcess (runCalls turns).store.journal pid = told at agrees ⊢
    cases agrees with
    | none => rfl
    | some agrees => rw [agrees.2 trivial]
  · rw [getProgramState_rebuild, synced.programs trivial]
  · rw [checkpoints_rebuild, synced.checkpoints trivial]
  · rw [check, getCapabilitySet, capabilitySets_rebuild, ← synced.capabilities trivial]
    rfl

/-- A process that starts with a state, and one with a checkpoint. -/
def savedRun : List (Int × KernelCall) :=
  [(0, .spawn { programId := "agent", programState := [("turn", .int 1)] }),
    (1, .spawn { programId := "agent" }), (2, .checkpoint (uuid 2))]

/-- A process that is granted a tool. -/
def grantedRun : List (Int × KernelCall) :=
  [(0, .spawn { programId := "agent" }),
    (1, .grant (uuid 0) { resourcePattern := "device:tool/read", operations := ["invoke"] })]

/-- A process that fails while it waits for an action. -/
def failedRun : List (Int × KernelCall) :=
  [(0, .spawn { programId := "agent" }), (1, .transition (uuid 0) .running none),
    (2, .transition (uuid 0) .blocked (some (.submitted "a"))),
    (3, .transition (uuid 0) .failed none)]

/-- What a program saves, a checkpoint, a grant and the end of a blocked
process all differ after a rebuild. -/
theorem replayed_processes_differ : (getProgramState (runCalls savedRun).store (uuid 0) = [("turn", .int 1)] ∧
      getProgramState (rebuild (runCalls savedRun).store) (uuid 0) = []) ∧
    ((runCalls savedRun).store.checkpoints.length = 1 ∧ (rebuild (runCalls savedRun).store).checkpoints = []) ∧
    (check (runCalls grantedRun).store (uuid 0) "device:tool/read" "invoke" = true ∧
      check (rebuild (runCalls grantedRun).store) (uuid 0) "device:tool/read" "invoke" = false) ∧
    (getProcess (runCalls failedRun).store (uuid 0)).map (fun pcb => pcb.waitCondition) = some none ∧
    (getProcess (rebuild (runCalls failedRun).store) (uuid 0)).map (fun pcb => pcb.waitCondition) =
      some (some (.submitted "a")) := by
  decide +kernel

/-- A process that exits with a code and a result. -/
def exitedRun : List (Int × KernelCall) :=
  [(0, .spawn { programId := "agent" }), (1, .createCapabilitySet (uuid 0) fullCapabilities),
    (2, .transition (uuid 0) .running none),
    (3, .exit (uuid 0) "done" (some "report"))]

theorem exitedRun_telling (before) (turn) (later) (split : exitedRun = before ++ turn :: later) :
    Telling (runCalls before).store turn.2 := by
  unfold exitedRun at split
  rcases before with _ | ⟨_, _ | ⟨_, _ | ⟨_, _ | ⟨_, before⟩⟩⟩⟩ <;> simp at split
  · obtain ⟨rfl, _⟩ := split
    rfl
  · obtain ⟨rfl, rfl, _⟩ := split
    trivial
  · obtain ⟨rfl, rfl, rfl, _⟩ := split
    exact ⟨fun given => absurd rfl given, fun terminal => absurd terminal (by decide)⟩
  obtain ⟨rfl, rfl, rfl, rfl, _⟩ := split
  refine ⟨⟨fun given => absurd rfl given, fun _ pcb found => ?_⟩, by decide, by decide⟩
  have waits : (getProcess (runCalls (exitedRun.take 3)).store (uuid 0)).map
      (fun pcb => pcb.waitCondition) = some none := by decide +kernel
  change getProcess (runCalls (exitedRun.take 3)).store (uuid 0) = some pcb at found
  rw [found] at waits
  exact Option.some.inj waits

/-- Its run is replayed as it was, exit and capabilities included. -/
theorem replayed_exit_agrees : (getProcess (rebuild (runCalls exitedRun).store) (uuid 0)).map view =
        (getProcess (runCalls exitedRun).store (uuid 0)).map view ∧
      ((getProcess (runCalls exitedRun).store (uuid 0)).map view).isSome = true ∧
      check (rebuild (runCalls exitedRun).store) (uuid 0) "device:tool/mock" "invoke" = true := by
  obtain ⟨processes, _, decisions⟩ := replayed_processes_agree exitedRun_telling
  refine ⟨(processes (uuid 0)).1, by decide +kernel, ?_⟩
  rw [decisions]
  decide +kernel

end LongHorizonOS.ProcessReplay
