import LongHorizonOS.LeaseReplay

/-! What an acquisition, a renewal and a fenced commit look at: the leases, the
fences, which processes have ended, and the actions up to their errors. All of
it survives a rebuild, so whatever lease calls come after it, they are decided
as if there had been none. -/
namespace LongHorizonOS.RebuiltDecisions
open KeyedRows PythonValues FailFast AtomicPrograms KernelModels KernelTasks Option
open LeaseService ActionService ProcessService SignalService AgentKernel
open ActionSpec JournalReplay KernelRuns LeaseReplay

/-! ## What is looked at -/

def ended (store : KernelStore) (pid : String) : Option Bool :=
  (getProcess store pid).map fun pcb => decide pcb.state.Terminal

theorem ended_view :
    ended store pid = ((getProcess store pid).map view).map fun seen => decide seen.state.Terminal := by
  rw [map_map]
  rfl

/-- The action without its error. -/
def blameless (store : KernelStore) (actionId : String) : Option ActionControlBlock :=
  (getAction store actionId).map fun acb => { acb with error := none }

/-- The stores have the same in what the lease service and a fenced commit
decide on. -/
structure Alike (store store' : KernelStore) : Prop where
  leases : store.leases = store'.leases
  tokens : store.fencingTokens = store'.fencingTokens
  ended : ∀ pid, ended store pid = ended store' pid
  actions : ∀ actionId, blameless store actionId = blameless store' actionId

theorem Alike.refl (store) : Alike store store := ⟨rfl, rfl, fun _ => rfl, fun _ => rfl⟩

theorem Alike.symm (alike : Alike store store') : Alike store' store :=
  ⟨alike.leases.symm, alike.tokens.symm, fun pid => (alike.ended pid).symm, fun id => (alike.actions id).symm⟩

theorem Alike.trans (first : Alike store middle) (second : Alike middle after) : Alike store after :=
  ⟨first.leases.trans second.leases, first.tokens.trans second.tokens,
    fun pid => (first.ended pid).trans (second.ended pid), fun id => (first.actions id).trans (second.actions id)⟩

theorem alike_rebuild : Alike (rebuild (runCalls turns).store) (runCalls turns).store := by
  obtain ⟨leases, tokens⟩ := leases_replayed turns
  refine ⟨leases, tokens, fun pid => ?_, fun actionId => ?_⟩
  · have synced : ProcessReplay.Synced False (runCalls turns).store := ProcessReplay.synced_run nofun
    have agrees := synced.agrees pid
    have told := viewed_rebuild (runCalls turns).store pid
    rw [ended_view, ended_view, told]
    generalize (getProcess (runCalls turns).store pid).map view = seen,
      replayedProcess (runCalls turns).store.journal pid = told at agrees ⊢
    cases agrees with
    | none => rfl
    | some agrees => simp only [map_some, agrees.1]
  have synced : ActionReplay.Synced False (runCalls turns).store := ActionReplay.synced_run nofun
  have agrees := synced actionId
  rw [blameless, blameless, getAction_rebuild]
  generalize getAction (runCalls turns).store actionId = row,
    replayedAction (runCalls turns).store.journal actionId = record at agrees ⊢
  cases agrees with
  | none => rfl
  | some agrees =>
    obtain ⟨error, rfl, _⟩ := agrees
    rfl

section
theorem Alike.lastToken (alike : Alike store store') (resourceId) :
    lastToken store resourceId = lastToken store' resourceId := by
  rw [LeaseService.lastToken, alike.tokens]
  rfl

theorem Alike.leasesOn (alike : Alike store store') (resourceId) :
    leasesOn store resourceId = leasesOn store' resourceId := by
  rw [LeaseService.leasesOn, alike.leases]
  rfl

theorem Alike.findLease (alike : Alike store store') (leaseId) :
    findLease store leaseId = findLease store' leaseId := by
  rw [LeaseService.findLease, alike.leases]
  rfl

/-! ## Lease calls -/

variable (events : ResourceLease → List EventBody)

theorem alike_dropLease
    (alike : Alike store store') : Alike (dropLease events lease store) (dropLease events lease store') :=
  ⟨congrArg (List.filter fun row : ResourceLease => decide (row.leaseId ≠ lease.leaseId)) alike.leases,
    alike.tokens, alike.ended, alike.actions⟩

theorem alike_dropAll
    (alike : Alike store store') : Alike (dropAll events rows store) (dropAll events rows store') := by
  induction rows generalizing store store' with
  | nil => exact alike
  | cons lease rest ih => exact ih (alike_dropLease events alike)

theorem alike_releaseAll {leaseIds : List String} (alike : Alike store store') :
    Alike (leaseIds.foldl releaseOne store) (leaseIds.foldl releaseOne store') := by
  induction leaseIds generalizing store store' with
  | nil => exact alike
  | cons leaseId rest ih =>
    refine ih ?_
    rw [releaseOne, releaseOne, alike.findLease]
    cases findLease store' leaseId with
    | none => exact alike
    | some lease => exact alike_dropLease releasedEvents alike

theorem relates_renewTx : Session.Relates Alike (renewTx leaseId ttl now) (renewTx leaseId ttl now) := by
  refine .read fun store store' alike => ?_
  rw [alike.findLease]
  cases findLease store' leaseId with
  | none => exact .pure _
  | some lease =>
    dsimp only
    split
    · refine .bind (.write fun store store' alike => ?_) fun _ => .pure _
      exact ⟨congrArg (modify ResourceLease.leaseId leaseId fun lease => { lease with expiresAt := now + ttl })
        alike.leases, alike.tokens, alike.ended, alike.actions⟩
    · exact .pure _

theorem admitOwner_alike (alike : Alike store store') : admitOwner pid claims store = admitOwner pid claims store' := by
  have known := alike.ended pid
  unfold admitOwner
  unfold ended at known
  cases first : getProcess store pid with
  | none =>
    rw [first] at known
    cases second : getProcess store' pid with
    | none => rfl
    | some pcb => rw [second] at known; cases known
  | some pcb =>
    rw [first] at known
    cases second : getProcess store' pid with
    | none => rw [second] at known; cases known
    | some pcb' =>
      rw [second] at known
      have same : pcb.state.Terminal ↔ pcb'.state.Terminal := by simpa using known
      simp only [require, same]

theorem busy_alike (alike : Alike store store') : busy store claim = busy store' claim := by
  rw [busy, alike.leasesOn]
  rfl

theorem cohortToken_alike (alike : Alike store store') :
    cohortToken resourceId active store = cohortToken resourceId active store' := by
  simp only [cohortToken, alike.lastToken]

theorem relates_leaseToken : Session.Relates Alike (leaseToken claim active) (leaseToken claim active) := by
  unfold leaseToken
  split
  · exact .check fun store store' alike => cohortToken_alike alike
  refine .read fun store store' alike => ?_
  rw [alike.lastToken]
  refine .bind (.write fun store store' alike => ?_) fun _ => .pure _
  exact ⟨alike.leases, congrArg (upsert Prod.fst _) alike.tokens, alike.ended, alike.actions⟩

theorem relates_grant : Session.Relates Alike (LeaseService.grant pid leaseId now expiresAt claim active)
    (LeaseService.grant pid leaseId now expiresAt claim active) := by
  refine .bind relates_leaseToken fun token =>
    .bind (.check fun _ _ _ => rfl) fun mode =>
    .bind ?_ fun _ => .pure _
  refine .bind (.check fun store store' alike => ?_) fun _ =>
    .write fun store store' alike => ?_
  · rw [alike.leases]
  exact ⟨congrArg (· ++ [_]) alike.leases, alike.tokens, alike.ended, alike.actions⟩

theorem relates_grantAll (alike : Alike found found') (index) :
    Session.Relates Alike (grantAll pid draw now expiresAt found claims index)
    (grantAll pid draw now expiresAt found' claims index) := by
  induction claims generalizing index with
  | nil => exact .pure _
  | cons claim rest ih =>
    unfold grantAll
    rw [alike.leasesOn]
    exact .bind relates_grant fun _ =>
      .bind (ih (index + 1)) fun _ => .pure _

theorem relates_acquireTx :
    Session.Relates Alike (acquireTx pid claims draw ttl now) (acquireTx pid claims draw ttl now) := by
  refine .bind (.check fun _ _ alike => admitOwner_alike alike) fun _ =>
    .read fun store store' alike => ?_
  have same : claims.find? (busy store) = claims.find? (busy store') :=
    congrArg (claims.find? ·) (funext fun claim => busy_alike alike)
  unfold grantUnlessBusy
  rw [same]
  cases claims.find? (busy store') with
  | some claim => exact .pure _
  | none =>
    refine .bind (relates_grantAll alike 0) fun leases =>
      .bind (.write fun store store' alike => ?_) fun _ => .pure _
    exact ⟨alike.leases, alike.tokens, alike.ended, alike.actions⟩

/-! ## Fenced commits -/

variable (acb : ActionControlBlock) (error : Option Dict)

theorem leaseError_alike (now) (lease) (alike : Alike store store') :
    leaseError { acb with error := error } now store lease = leaseError acb now store' lease := by
  simp only [leaseError, alike.lastToken]

theorem fencedLeases_alike (now) (leaseIds) (alike : Alike store store') :
    fencedLeases { acb with error := error } now store leaseIds = fencedLeases acb now store' leaseIds := by
  induction leaseIds with
  | nil => rfl
  | cons leaseId rest ih => simp only [fencedLeases, alike.findLease, leaseError_alike acb error now _ alike, ih]

theorem validateFencingContract_alike (now) (alike : Alike store store') :
    validateFencingContract { acb with error := error } now store = validateFencingContract acb now store' := by
  simp only [validateFencingContract, fencedLeases_alike acb error now _ alike]

/-- Both stores have the action, up to its error, or neither has it. -/
theorem Alike.action (alike : Alike store store') (actionId) :
    getAction store actionId = none ∧ getAction store' actionId = none ∨
    ∃ acb error, getAction store actionId = some { acb with error := error } ∧
      getAction store' actionId = some acb := by
  have known := alike.actions actionId
  unfold blameless at known
  cases first : getAction store actionId with
  | none =>
    rw [first] at known
    cases second : getAction store' actionId with
    | none => exact .inl ⟨rfl, rfl⟩
    | some acb => rw [second] at known; cases known
  | some acb =>
    rw [first] at known
    cases second : getAction store' actionId with
    | none => rw [second] at known; cases known
    | some acb' =>
      rw [second] at known
      refine .inr ⟨acb', acb.error, ?_, rfl⟩
      obtain ⟨⟩ := acb
      obtain ⟨⟩ := acb'
      cases known
      rfl

theorem relates_commitTx : Session.Relates Alike (commitTx actionId result now) (commitTx actionId result now) := by
  intro store store' alike
  rw [commitTx, conditionalTx, conditionalTx]
  rcases alike.action actionId with ⟨missing, missing'⟩ | ⟨acb, error, found, found'⟩
  · rw [missing, missing']
    exact ⟨rfl, alike⟩
  rw [found, found']
  simp only [validateFencingContract_alike acb error now alike]
  split
  · exact ⟨rfl, alike⟩
  cases validateFencingContract acb now store' with
  | error failure => exact ⟨rfl, alike⟩
  | ok reason =>
    cases reason with
    | some reason => exact ⟨rfl, alike⟩
    | none =>
      have key := getAction_actionId found'
      refine ⟨rfl, alike.leases, alike.tokens, alike.ended, fun other => ?_⟩
      simp only [blameless, getAction_upsertProjection]
      by_cases same : other = acb.actionId
      · rw [if_pos same, if_pos same, key]
        change Option.map _ (some (projected _ (getAction store actionId))) =
          Option.map _ (some (projected _ (getAction store' actionId)))
        rw [found, found']
        rfl
      · rw [if_neg same, if_neg same]
        exact alike.actions other

end

/-! ## Tasks alone -/

/-- The databases are alike, and it is the same time. -/
def Twins (w w' : World) : Prop := Alike w.store w'.store ∧ w.clock = w'.clock

/-- On alike databases the task does alike. -/
def Steady {α : Type} (task : KernelTask α) : Prop := Session.Relates Twins task.alone task.alone

section
variable {α β : Type}

theorem steady_bind (head : Steady first) (tail : ∀ a, Steady (rest a)) : Steady (first >>= rest) := by
  have whole : Task.alone (first >>= rest) = (Task.alone first >>= fun a => Task.alone (rest a)) :=
    funext (Task.alone_bind first rest)
  unfold Steady
  rw [whole]
  exact .bind head tail

theorem steady_pure : Steady (pure a : KernelTask α) := fun _ _ twins => ⟨rfl, twins⟩

theorem steady_throw {failure} : Steady (throw failure : KernelTask α) :=
  fun _ _ twins => ⟨rfl, twins⟩

theorem steady_readClock : Steady readClock := fun _ _ twins => ⟨congrArg Except.ok twins.2, twins⟩

theorem steady_update (kept : ∀ store store', Alike store store' → Alike (change store) (change store')) :
    Steady (update label change) := fun _ _ twins => ⟨rfl, kept _ _ twins.1, twins.2⟩

theorem steady_transaction (related : ∀ now, Session.Relates Alike (body now) (body now)) :
    Steady (transaction label body) := by
  intro w w' twins
  change (Session.transaction (inStore body) w).1 = (Session.transaction (inStore body) w').1 ∧
    Twins (Session.transaction (inStore body) w).2 (Session.transaction (inStore body) w').2
  rw [transaction_inStore, transaction_inStore, ← twins.2]
  obtain ⟨result, kept⟩ := Session.Relates.transaction (related w.clock) w.store w'.store twins.1
  exact ⟨result, kept, rfl⟩

/-- Changes of the journal and of the waiters are not looked at. -/
theorem steady_aside (aside : ∀ store, ∃ journal waiters, change store = { store with journal, waiters }) :
    Steady (update label change) := by
  refine steady_update fun store store' alike => ?_
  obtain ⟨journal, waiters, same⟩ := aside store
  obtain ⟨journal', waiters', same'⟩ := aside store'
  rw [same, same']
  exact ⟨alike.leases, alike.tokens, alike.ended, alike.actions⟩

theorem steady_concludeAcquire : Steady (concludeAcquire pid acquisition) := by
  cases acquisition with
  | granted leases => exact steady_pure
  | denied resourceId mode =>
    refine steady_bind (steady_aside fun store => ⟨_, _, rfl⟩) fun _ =>
      steady_bind (steady_aside fun store => ?_) fun _ =>
      steady_bind (steady_aside fun store => ⟨_, _, rfl⟩) fun _ => steady_throw
    split
    · exact ⟨store.journal, store.waiters, rfl⟩
    exact ⟨store.journal, _, rfl⟩

theorem steady_atomicAcquire (pid) (claims) (draw : ℕ → String) (ttl) : Steady (atomicAcquire pid claims draw ttl) := by
  unfold atomicAcquire
  split
  · exact steady_bind (steady_aside fun store => ⟨_, _, rfl⟩) fun _ => steady_pure
  cases nameClaims pid claims [] with
  | error failure => exact steady_throw
  | ok names =>
    rw [compute_ok_bind]
    exact steady_bind (steady_transaction fun now => relates_acquireTx) fun acquisition => steady_concludeAcquire

theorem steady_releaseAllForPid : Steady (releaseAllForPid pid) := by
  unfold releaseAllForPid
  split
  · exact steady_throw
  refine steady_update fun store store' alike => ?_
  have rows : listLeasesForPid store pid = listLeasesForPid store' pid := by
    rw [listLeasesForPid, alike.leases]
    rfl
  rw [rows]
  obtain ⟨leases, tokens, ended, actions⟩ := alike_dropAll releasedEvents alike
  exact ⟨leases, tokens, ended, actions⟩

theorem steady_release : Steady (LeaseService.release leaseIds) := by
  unfold LeaseService.release
  split
  · exact steady_pure
  exact steady_update fun _ _ alike => alike_releaseAll alike

theorem steady_reclaimExpired : Steady (LeaseService.reclaimExpired now) := by
  refine steady_update fun store store' alike => ?_
  rw [alike.leases]
  exact alike_dropAll expiredEvents alike

theorem steady_sampled : Steady (sampled now) := by
  cases now with
  | some now => exact steady_pure
  | none => exact steady_readClock

end

/-! ## Signals in between -/

theorem Alike.of_touches {services store} (processes : .process ∉ services)
    (actions : .action ∉ services) (leases : .lease ∉ services)
    (touches : Touches services store store') : Alike store store' := by
  obtain ⟨sameLeases, sameTokens⟩ := touches.leases leases
  refine ⟨sameLeases.symm, sameTokens.symm, fun pid => ?_, fun actionId => ?_⟩
  · simp only [RebuiltDecisions.ended, getProcess, (touches.processes processes).1]
  simp only [blameless, getAction, touches.actions actions]

/-- A wakeup ends no process. -/
theorem alike_wakeup (found : getProcess store pid = some pcb)
    (applied : applyProcessTransition pcb .ready none = .ok moved) :
    Alike store (upsertProcess moved (appendEvents [event] store)) := by
  obtain ⟨live, _, shape⟩ := applyProcessTransition_ok applied
  have key : moved.pid = pid := by rw [shape, ← getProcess_pid found]
  refine ⟨rfl, rfl, fun other => ?_, fun _ => rfl⟩
  rw [ended_view, ended_view, viewed_upsertProcess, key]
  split
  · rename_i same
    have ready : (view moved).state = .ready := by rw [shape]; rfl
    have live' : ¬ (view pcb).state.Terminal := live
    rw [same, found, map_some, map_some, map_some, ready, decide_eq_false live']
    rfl
  · rfl

theorem keeps_wakeup : KeepsTask solo (fun w : World => Alike store w.store) (move before after pid .ready none) := by
  intro w held alike
  refine .bind (solo_during _ (solo_query _)) fun found w' held ⟨read, same⟩ => ?_
  subst same
  cases found with
  | none => exact alike
  | some pcb =>
    refine safe_compute (fun _ => alike) fun moved applied => ?_
    exact solo_journalled fun _ => alike.trans (alike_wakeup read.symm applied)

theorem keeps_deliver (signal) : KeepsTask solo (fun w : World => Alike store w.store) (deliver signal) :=
  keeps_delivery (.of_steps (touching_markConsumed _) fun _ _ _ alike touches =>
    alike.trans (.of_touches (by simp) (by simp) (by simp) touches)) keeps_wakeup

/-! ## Later calls -/

/-- The lease and signal calls, and the fenced commit. -/
def Leasing : KernelCall → Prop
  | .atomicAcquire .. | .release _ | .releaseAllForPid _ | .renew .. | .reclaimExpired _ | .send ..
  | .deliverPending | .action (.commitIfFenced ..) => True
  | _ => False

inductive Decision where
  | acquired (result : Except KernelError (List ResourceLease))
  | renewed (result : Except KernelError (Option ResourceLease))
  /-- The reason why it is not committed, if there is one. -/
  | committed (result : Except KernelError (Option String))
  | none

/-- What the call decides. -/
def decision (w : World) (turn : Int × KernelCall) : Decision :=
  let now := { w with clock := turn.1 }
  match turn.2 with
  | .atomicAcquire pid claims draw ttl => .acquired ((LeaseService.atomicAcquire pid claims draw ttl).alone now).1
  | .renew leaseId ttl => .renewed ((LeaseService.renew leaseId ttl).alone now).1
  | .action (.commitIfFenced actionId result given) => .committed
      (Task.alone (sampled given >>= fun now => ActionService.commitIfFenced actionId result now) now).1
  | _ => .none

/-- The decisions of calls one after the other. -/
def decisions : World → List (Int × KernelCall) → List Decision
  | _, [] => []
  | w, turn :: rest => decision w turn :: decisions (perform w turn) rest

theorem alike_perform {w w'} {turn} (leasing : Leasing turn.2) (alike : Alike w.store w'.store) :
    decision w turn = decision w' turn ∧ Alike (perform w turn).store (perform w' turn).store := by
  obtain ⟨now, call⟩ := turn
  have twins : Twins { w with clock := now } { w' with clock := now } := ⟨alike, rfl⟩
  have steady : ∀ task : KernelTask Unit, Steady task →
      Alike (task.alone { w with clock := now }).2.store (task.alone { w' with clock := now }).2.store :=
    fun task steady => (steady _ _ twins).2.1
  have discarded : ∀ {α : Type} {task : KernelTask α}, Steady task → Steady (KernelRuns.discard task) :=
    fun steady => steady_bind steady fun _ => steady_pure
  have aside : ∀ task : KernelTask Unit, (∀ store, KeepsTask solo (fun w : World => Alike store w.store) task) →
      Alike (task.alone { w with clock := now }).2.store (task.alone { w' with clock := now }).2.store := by
    intro task keeps
    have left : Alike w.store (task.alone { w with clock := now }).2.store :=
      (keeps w.store).alone (s := { w with clock := now }) (.refl _)
    have right : Alike w'.store (task.alone { w' with clock := now }).2.store :=
      (keeps w'.store).alone (s := { w' with clock := now }) (.refl _)
    exact left.symm.trans (alike.trans right)
  cases call with
  | atomicAcquire pid claims draw ttl =>
    have acquires := steady_atomicAcquire pid claims draw ttl
    exact ⟨congrArg Decision.acquired (acquires _ _ twins).1, steady _ (discarded acquires)⟩
  | release leaseIds => exact ⟨rfl, steady _ steady_release⟩
  | releaseAllForPid pid => exact ⟨rfl, steady _ steady_releaseAllForPid⟩
  | renew leaseId ttl =>
    have renews : Steady (LeaseService.renew leaseId ttl) := steady_transaction fun now => relates_renewTx
    exact ⟨congrArg Decision.renewed (renews _ _ twins).1, steady _ (discarded renews)⟩
  | reclaimExpired now => exact ⟨rfl, steady _ steady_reclaimExpired⟩
  | send targetPid signalType sourcePid payload =>
    refine ⟨rfl, aside _ fun store => .of_steps (touching_call _) fun _ _ _ alike touches => ?_⟩
    exact alike.trans (.of_touches (by simp [KernelCall.services]) (by simp [KernelCall.services])
      (by simp [KernelCall.services]) touches)
  | deliverPending =>
    exact ⟨rfl, aside _ fun store => .bind (keeps_query _) fun _ => .forM keeps_deliver⟩
  | action call =>
    cases call with
    | commitIfFenced actionId result given =>
      have commits : ∀ now, Steady (ActionService.commitIfFenced actionId result now) := fun now =>
        steady_transaction fun _ => relates_commitTx
      exact ⟨congrArg Decision.committed (steady_bind steady_sampled commits _ _ twins).1,
        steady _ (steady_bind steady_sampled fun now => discarded (commits now))⟩
    | _ => cases leasing
  | _ => cases leasing

/-- After every run of calls, a rebuild yields the same leases, fences and
signals, and every later sequence of lease calls, signals and fenced commits is
decided as it would have been without it. -/
theorem rebuilt_leases_decide_alike (turns later : List (Int × KernelCall))
    (leasing : ∀ turn ∈ later, Leasing turn.2) :
    (rebuild (runCalls turns).store).leases = (runCalls turns).store.leases ∧
    (rebuild (runCalls turns).store).fencingTokens = (runCalls turns).store.fencingTokens ∧
    (rebuild (runCalls turns).store).signals = (runCalls turns).store.signals ∧
    decisions (restart (runCalls turns)) later = decisions (runCalls turns) later := by
  obtain ⟨leases, tokens⟩ := leases_replayed turns
  refine ⟨leases, tokens, (signals_rebuild _).trans (signals_synced turns).symm, ?_⟩
  have along : ∀ w w' : World, Alike w.store w'.store → decisions w later = decisions w' later := by
    clear leases tokens
    induction later with
    | nil => exact fun _ _ _ => rfl
    | cons turn rest ih =>
      intro w w' alike
      obtain ⟨same, kept⟩ := alike_perform (leasing turn List.mem_cons_self) alike
      rw [decisions, decisions, same,
        ih (fun other member => leasing other (List.mem_cons_of_mem _ member)) _ _ kept]
  exact along _ _ alike_rebuild

/-- A lease that is held, a signal that waits since its process is READY, and then a
rebuild: the resource stays taken for another process and the renewal goes through. -/
theorem held_lease_survives_rebuild : let turns : List (Int × KernelCall) :=
      [(0, .spawn { programId := "agent" }), (1, .atomicAcquire "p" [⟨some "r", some "exclusive"⟩] uuid 300),
        (2, .send (uuid 0) "WAKE" none []), (3, .deliverPending)]
    let later : List (Int × KernelCall) :=
      [(4, .renew (uuid 0) 300), (5, .atomicAcquire "q" [⟨some "r", some "shared"⟩] uuid 300)]
    (runCalls turns).store.leases ≠ [] ∧ decisions (restart (runCalls turns)) later =
      decisions (runCalls turns) later := by
  refine ⟨by decide +kernel, (rebuilt_leases_decide_alike _ _ ?_).2.2.2⟩
  intro turn member
  rcases List.mem_pair.mp member with rfl | rfl
  · trivial
  · trivial

end LongHorizonOS.RebuiltDecisions
