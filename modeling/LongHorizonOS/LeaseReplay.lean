import LongHorizonOS.ActionReplay
import LongHorizonOS.ProcessReplay

/-! Leases, fences and signals after a rebuild. The handler replays the events
of a lease one by one; the fences are not deleted, and replaying an acquisition
never moves one. So the tables are as they were, and what an acquisition, a
renewal or a fenced commit looks at is as it was. -/
namespace LongHorizonOS.LeaseReplay
open KeyedRows FailFast AtomicPrograms KernelModels KernelTasks List
open LeaseService SignalService SyscallDispatcher AgentKernel
open LeaseSpec JournalReplay KernelRuns

/-! ## Leases -/

/-- The fence of the resource of a lease is not behind it. -/
def Fenced (store : KernelStore) (event : KernelEvent) : Prop :=
  ∀ lease, event.body = .leaseAcquired lease →
    ∃ token, lastToken store lease.resourceId = some token ∧ lease.fencingToken ≤ token

/-- A step that journals what it does to the leases. -/
structure Told (store store' : KernelStore) : Prop where
  events : ∃ events, store'.journal = store.journal ++ events ∧
    store'.leases = events.foldl hearLeases store.leases ∧ ∀ event ∈ events, Fenced store' event
  fences : ∀ resourceId token, lastToken store resourceId = some token →
    ∃ token', lastToken store' resourceId = some token' ∧ token ≤ token'

variable {store store' : KernelStore}

theorem Fenced.later (fenced : Fenced store event) (told : Told store store') : Fenced store' event := by
  intro lease acquired
  obtain ⟨token, last, covers⟩ := fenced lease acquired
  obtain ⟨token', last', grows⟩ := told.fences _ _ last
  exact ⟨token', last', covers.trans grows⟩

namespace Told

theorem refl (store) : Told store store :=
  ⟨⟨[], by simp, rfl, by simp⟩, fun _ token last => ⟨token, last, le_rfl⟩⟩

variable {store store' : KernelStore}

theorem trans {middle after} (first : Told store middle) (second : Told middle after) : Told store after := by
  obtain ⟨events, journal, leases, fenced⟩ := first.events
  obtain ⟨events', journal', leases', fenced'⟩ := second.events
  refine ⟨⟨events ++ events', by rw [journal', journal, append_assoc],
    by rw [leases', leases, foldl_append], fun event member => ?_⟩, fun resourceId token last => ?_⟩
  · rcases mem_append.mp member with early | late
    · exact (fenced event early).later second
    exact fenced' event late
  obtain ⟨token', last', grows⟩ := first.fences resourceId token last
  obtain ⟨token'', last'', grows'⟩ := second.fences resourceId token' last'
  exact ⟨token'', last'', grows.trans grows'⟩

/-- Steps that grant nothing leave the fences alone. -/
theorem lapse {events} (journal : store'.journal = store.journal ++ events)
    (leases : store'.leases = events.foldl hearLeases store.leases)
    (tokens : store'.fencingTokens = store.fencingTokens)
    (lapses : ∀ event ∈ events, lapseEvent event.body) : Told store store' := by
  refine ⟨⟨events, journal, leases, fun event member lease acquired => ?_⟩, fun resourceId token last => ?_⟩
  · have kind := lapses event member
    rw [acquired] at kind
    cases kind
  · rw [lastToken, tokens]
    exact ⟨token, last, le_rfl⟩

theorem of_eq (journal : store'.journal = store.journal)
    (leases : store'.leases = store.leases) (tokens : store'.fencingTokens = store.fencingTokens) : Told store store' :=
  lapse (journal.trans (append_nil _).symm) leases tokens (by simp)

theorem dropReleased (lease) (store) : Told store (dropLease releasedEvents lease store) :=
  lapse rfl rfl rfl fun _ member => by cases mem_singleton.mp member; trivial

theorem dropExpired (lease) (store) : Told store (dropLease expiredEvents lease store) := by
  refine lapse rfl ?_ rfl fun event member => ?_
  · change List.filter _ store.leases = List.filter _ (List.filter _ store.leases)
    rw [filter_filter]
    simp
  rcases mem_pair.mp member with rfl | rfl
  · trivial
  trivial

theorem dropAll {events} (drops : ∀ lease store, Told store (dropLease events lease store)) (rows) (store) :
    Told store (LeaseService.dropAll events rows store) := by
  induction rows generalizing store with
  | nil => exact refl store
  | cons lease rest ih => exact (drops lease store).trans (ih _)

theorem releaseAll (leaseIds : List String) (store : KernelStore) : Told store (leaseIds.foldl releaseOne store) := by
  induction leaseIds generalizing store with
  | nil => exact refl store
  | cons leaseId rest ih =>
    refine .trans ?_ (ih _)
    unfold releaseOne
    split
    · exact refl store
    exact dropReleased _ store

theorem renewTx {leaseId} {ttl now} {result}
    (ran : Session.transaction (LeaseService.renewTx leaseId ttl now) store = (result, store')) :
    Told store store' := by
  rcases renewTx_cases with ⟨found, same⟩ | ⟨lease, found, _, renewed⟩
  · rw [Session.transaction, same] at ran
    cases ran
    exact refl store
  rw [Session.transaction, renewed] at ran
  cases ran
  exact lapse rfl rfl rfl fun _ member => by cases mem_singleton.mp member; trivial

end Told

/-! ### Acquisitions -/

variable {active leases : List ResourceLease}

/-- A new lease has a new id, so inserting is upserting. -/
theorem grant_upserts (ok : LeaseService.grant pid leaseId now expiresAt claim active store = (.ok lease, store')) :
    upsert ResourceLease.leaseId lease store.leases = store'.leases := by
  unfold LeaseService.grant at ok
  obtain ⟨token, middle, tokened, ok⟩ := Session.bind_ok.mp ok
  have same : middle.leases = store.leases := by
    unfold leaseToken at tokened
    split at tokened
    · obtain ⟨_, rfl⟩ := Session.check_ok.mp tokened
      rfl
    cases tokened
    rfl
  obtain ⟨mode, _, ok⟩ := Session.check_bind_ok.mp ok
  simp only [insertLease, Session.bind_ok, Session.check_ok, Session.write_ok] at ok
  obtain ⟨_, _, ⟨_, _, ⟨fresh, rfl⟩, rfl⟩, done⟩ := ok
  cases done
  rw [same] at fresh ⊢
  exact upsert_fresh (lookup_eq_none.mp (require_ok.mp fresh))

theorem grantAll_upserts (ok : grantAll pid draw now expiresAt found claims index store = (.ok leases, store')) :
    leases.foldl (fun rows lease => upsert ResourceLease.leaseId lease rows) store.leases = store'.leases := by
  induction claims generalizing store index leases with
  | nil =>
    cases ok
    rfl
  | cons claim rest ih =>
    obtain ⟨lease, middle, first, ok⟩ := Session.bind_ok.mp ok
    obtain ⟨more, _, later, done⟩ := Session.bind_ok.mp ok
    cases done
    rw [foldl_cons, grant_upserts first, ih later]

theorem acquireTx_upserts
    (ran : Session.transaction (acquireTx pid claims draw ttl now) store = (.ok (.granted leases), store')) :
    leases.foldl (fun rows lease => upsert ResourceLease.leaseId lease rows) store.leases = store'.leases := by
  obtain ⟨_, _, ok⟩ := Session.check_bind_ok.mp (Session.transaction_ok.mp ran)
  rw [Session.read_bind, grantUnlessBusy] at ok
  cases free : claims.find? (busy store) with
  | some claim =>
    rw [free] at ok
    cases ok
  | none =>
    rw [free] at ok
    obtain ⟨leases, granted, all, ok⟩ := Session.bind_ok.mp ok
    cases ok
    exact (grantAll_upserts all).trans rfl

/-- The token of a new lease is not behind the fence. -/
theorem tokenFor_covers (token : TokenFor store shared active lease)
    (known : lastToken store lease.resourceId = some last) : last ≤ lease.fencingToken := by
  unfold TokenFor at token
  split at token
  · rw [known] at token
    exact (Option.some.inj token).le
  rw [known, Option.getD_some] at token
  omega

theorem Told.acquireTx (distinct : (claims.map Prod.fst).Nodup)
    (ran : Session.transaction (acquireTx pid claims draw ttl now) store = (result, store')) : Told store store' := by
  rcases acquireTx_cases distinct ran with ⟨rfl, _⟩ | ⟨leases, granted, rfl, _, all, rfl, _⟩
  · exact .refl _
  have distinctLeases : (leases.map ResourceLease.resourceId).Nodup := by
    have same : leases.map ResourceLease.resourceId = claims.map Prod.fst := by
      rw [← all.named, map_map]
      rfl
    rwa [same]
  have last : ∀ resourceId, lastToken (appendEvents (leases.map fun lease => ⟨pid, .leaseAcquired lease⟩)
      (clearWaiters pid granted)) resourceId =
      ((lookup ResourceLease.resourceId leases resourceId).map ResourceLease.fencingToken).or
        (lastToken store resourceId) := all.last
  have journal : granted.journal = store.journal := by rw [all.others]
  refine ⟨⟨leases.map fun lease => ⟨pid, .leaseAcquired lease⟩, ?_, ?_, fun event member lease acquired => ?_⟩,
    fun resourceId token known => ?_⟩
  · rw [← journal]
    rfl
  · rw [← acquireTx_upserts ran, foldl_map]
    rfl
  · obtain ⟨granted', stored, rfl⟩ := mem_map.mp member
    cases acquired
    refine ⟨lease.fencingToken, ?_, le_rfl⟩
    rw [last, lookup_of_mem distinctLeases stored]
    rfl
  rw [last]
  cases found : lookup ResourceLease.resourceId leases resourceId with
  | none => exact ⟨token, known, le_rfl⟩
  | some lease =>
    obtain rfl := lookup_key found
    exact ⟨lease.fencingToken, rfl, tokenFor_covers (all.token lease (lookup_mem found)) known⟩

/-! ### Calls -/

/-- The rows are those that the journal tells of, and the fences are not behind it. -/
structure LeasesSynced (store : KernelStore) : Prop where
  leases : store.leases = replayedLeases store.journal
  fenced : ∀ event ∈ store.journal, Fenced store event

theorem LeasesSynced.told (synced : LeasesSynced store) (told : Told store store') : LeasesSynced store' := by
  obtain ⟨events, journal, leases, fenced⟩ := told.events
  refine ⟨by rw [journal, replayedLeases_append, leases, synced.leases], fun event member => ?_⟩
  rw [journal] at member
  rcases mem_append.mp member with early | late
  · exact (synced.fenced event early).later told
  exact fenced event late

/-- Steps of other services are told too, since they do nothing to the leases. -/
theorem Told.of_touches (outside : .lease ∉ services)
    (touches : Touches services store store') : Told store store' := by
  obtain ⟨events, journal, inside⟩ := touches.journals
  obtain ⟨leases, tokens⟩ := touches.leases outside
  have silent : ∀ event ∈ events, (∀ rows, hearLeases rows event = rows) ∧ Fenced store' event := by
    intro event member
    have inside := inside event member
    obtain ⟨pid, body⟩ := event
    cases body <;> first
      | exact ⟨fun _ => rfl, nofun⟩
      | exact absurd (inside .lease rfl) outside
  refine ⟨⟨events, journal, ?_, fun event member => (silent event member).2⟩, fun resourceId token last => ?_⟩
  · rw [leases]
    clear journal inside
    induction events with
    | nil => rfl
    | cons event rest ih =>
      rw [foldl_cons, (silent event mem_cons_self).1]
      exact ih fun other member => silent other (mem_cons_of_mem _ member)
  · rw [lastToken, tokens]
    exact ⟨token, last, le_rfl⟩

def Telling (_ : Label) (w w' : World) : Prop := Told w.store w'.store

theorem telling_releaseAllForPid : AlwaysTask Telling (releaseAllForPid pid) := by
  unfold releaseAllForPid
  split
  · exact .throw _
  exact always_update fun w => (Told.dropAll Told.dropReleased _ w.store).trans (.of_eq rfl rfl rfl)

theorem telling_concludeAcquire {pid} {acquisition} : AlwaysTask Telling (concludeAcquire pid acquisition) := by
  cases acquisition with
  | granted leases => exact .pure _
  | denied resourceId mode =>
    refine (always_update fun w => .of_eq rfl rfl rfl).bind fun _ =>
      (always_update fun w => ?_).bind fun _ =>
      (always_update fun w => .lapse rfl rfl rfl fun _ member => ?_).bind fun _ => .throw _
    · split
      · exact .refl _
      exact .of_eq rfl rfl rfl
    · cases mem_singleton.mp member
      trivial

theorem telling_atomicAcquire {pid} {claims} {draw} {ttl} : AlwaysTask Telling (atomicAcquire pid claims draw ttl) := by
  unfold atomicAcquire
  split
  · exact (always_update fun w => .of_eq rfl rfl rfl).bind fun _ => .pure _
  refine always_compute fun names named => ?_
  exact (always_transaction fun w result store' ran =>
    .acquireTx (nameClaims_nodup named).1 ran).bind fun acquisition => telling_concludeAcquire

theorem telling_exit : AlwaysTask Telling (handleExit pid (.exit exitCode resultRef)) := by
  have process : ∀ {α : Type} {task : KernelTask α}, AlwaysTask (Touching [.process]) task →
      AlwaysTask Telling task :=
    .mono fun _ _ _ touches => .of_touches (by simp) touches
  refine (process (touching_move mem_cons_self)).bind fun _ =>
    telling_releaseAllForPid.bind fun _ =>
    (process (touching_query _)).bind fun found => ?_
  have tells : AlwaysTask Telling (do
      appendEvent {} pid (.processExited exitCode resultRef)
      return { eventType := "PROCESS_EXITED"
               payload := [("exit_code", .str exitCode), ("result_ref", resultRef.elim .null .str)] } :
      KernelTask Reply) :=
    (process (touching_append (owned rfl))).bind fun _ => .pure _
  cases found with
  | none => exact tells
  | some pcb => exact (process (touching_upsertProcess _ mem_cons_self)).bind fun _ => tells

theorem telling_call {call : KernelCall} : AlwaysTask Telling call.task := by
  have discarded : ∀ {α : Type} {task : KernelTask α}, AlwaysTask Telling task →
      AlwaysTask Telling (KernelRuns.discard task) :=
    fun telling => telling.bind fun _ => .pure _
  cases call with
  | atomicAcquire pid claims draw ttl => exact discarded telling_atomicAcquire
  | release leaseIds =>
    change AlwaysTask Telling (LeaseService.release leaseIds)
    unfold LeaseService.release
    split
    · exact .pure _
    exact always_update fun w => .releaseAll leaseIds w.store
  | releaseAllForPid pid => exact telling_releaseAllForPid
  | renew leaseId ttl => exact discarded (always_transaction fun _ _ _ ran => .renewTx ran)
  | reclaimExpired now =>
    change AlwaysTask Telling (LeaseService.reclaimExpired now)
    exact always_update fun w => .dropAll Told.dropExpired _ w.store
  | exit pid exitCode resultRef => exact discarded telling_exit
  | _ =>
    exact .mono (fun _ _ _ touches => .of_touches (by simp [KernelCall.services]) touches) (touching_call _)

variable (turns : List (Int × KernelCall))

theorem leases_synced : LeasesSynced (runCalls turns).store :=
  runCalls_keeps (I := fun w => LeasesSynced w.store) ⟨rfl, by simp⟩ (fun _ _ synced => synced) fun turn _ =>
    .of_steps telling_call fun _ _ _ synced told => synced.told told

/-- Replaying an acquisition leaves its fence where it is. -/
theorem token_replayed (fenced : Fenced store event) : hearTokens store.fencingTokens event = store.fencingTokens := by
  obtain ⟨pid, body⟩ := event
  cases body with
  | leaseAcquired lease =>
    obtain ⟨token, last, covers⟩ := fenced lease rfl
    change upsert _ _ _ = _
    have known : (lookup Prod.fst store.fencingTokens lease.resourceId).map Prod.snd = some token := last
    obtain ⟨row, found, rfl⟩ := Option.map_eq_some_iff.mp known
    rw [known, Option.getD_some, max_eq_left covers]
    have key := lookup_key found
    rw [← key] at found ⊢
    exact upsert_self found
  | _ => rfl

theorem tokens_replayed {events : List KernelEvent} (fenced : ∀ event ∈ events, Fenced store event) :
    events.foldl hearTokens store.fencingTokens = store.fencingTokens := by
  induction events with
  | nil => rfl
  | cons event rest ih =>
    rw [foldl_cons, token_replayed (fenced event mem_cons_self)]
    exact ih fun other member => fenced other (mem_cons_of_mem _ member)

theorem leases_replayed : (rebuild (runCalls turns).store).leases = (runCalls turns).store.leases ∧
    (rebuild (runCalls turns).store).fencingTokens = (runCalls turns).store.fencingTokens := by
  obtain ⟨leases, tokens⟩ := leases_rebuild (runCalls turns).store
  have synced := leases_synced turns
  exact ⟨leases.trans synced.leases.symm, tokens.trans (tokens_replayed synced.fenced)⟩

/-! ## Signals -/

def SignalsSynced (store : KernelStore) : Prop := store.signals = replayedSignals store.journal

theorem SignalsSynced.untouched
    (outside : .signal ∉ services) (synced : SignalsSynced store) (touches : Touches services store store') :
    SignalsSynced store' := by
  obtain ⟨events, journal, inside⟩ := touches.journals
  rw [SignalsSynced, touches.signals outside, synced, journal]
  clear journal
  induction events using List.reverseRecOn with
  | nil => rw [append_nil]
  | append_singleton events event ih =>
    rw [← append_assoc, replayedSignals_append, ← ih fun other member => inside other (by simp [member])]
    have inside := inside event (by simp)
    obtain ⟨pid, body⟩ := event
    cases body <;> first
      | rfl
      | exact absurd (inside .signal rfl) outside

theorem keeps_send : KeepsTask solo (fun w : World => SignalsSynced w.store)
    (SignalService.send targetPid signalType sourcePid payload) := by
  intro w held synced
  refine (solo_during _ (solo_drawIds 1)).bind fun draw w' held same => ?_
  subst same
  refine (solo_during _ solo_readClock).bind fun now w' held ⟨_, same⟩ => ?_
  subst same
  refine solo_then fun held => ?_
  refine solo_then fun held => ?_
  change _ = replayedSignals (w.store.journal ++ [_])
  rw [replayedSignals_append, ← synced]
  rfl

theorem keeps_deliver (signal) : KeepsTask solo (fun w : World => SignalsSynced w.store) (deliver signal) := by
  have consumes : KeepsTask solo (fun w : World => SignalsSynced w.store) (markConsumed signal.signalId) := by
    intro w held synced
    refine solo_then fun held => solo_update fun _ => ?_
    change _ = replayedSignals (w.store.journal ++ [_])
    rw [replayedSignals_append, ← synced]
    rfl
  exact keeps_delivery consumes (.of_steps (touching_move mem_cons_self)
    fun _ _ _ synced (touches : Touches [.process] _ _) => synced.untouched (by simp) touches)

theorem signals_synced : SignalsSynced (runCalls turns).store := by
  refine runCalls_keeps (I := fun w => SignalsSynced w.store) rfl (fun _ _ synced => synced) fun turn _ => ?_
  cases turn.2 with
  | send targetPid signalType sourcePid payload =>
    exact keeps_discard keeps_send
  | deliverPending => exact (keeps_query _).bind fun _ => .forM keeps_deliver
  | _ =>
    exact keeps_untouched .signal _ (by simp [KernelCall.services]) fun _ _ _ outside synced touches =>
      SignalsSynced.untouched outside synced touches

end LongHorizonOS.LeaseReplay
