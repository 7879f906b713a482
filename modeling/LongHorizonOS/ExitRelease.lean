import LongHorizonOS.JournalReplay

/-! Exits and acquisitions. An exit makes the process terminal first and then
drops its leases; an acquisition looks at the process in the transaction that
inserts. So an acquisition that comes before the first step is cleaned up by the
second, and none comes after. -/
namespace LongHorizonOS.ExitRelease
open FailFast AtomicPrograms Interleaving KernelModels KernelTasks List
open LeaseService ProcessService LeaseSpec JournalReplay

/-! ## The system -/

inductive Visit where
  | acquire (owner : String) (claims : List ResourceClaim) (draw : ℕ → String) (ttl : Int)
  | release (leaseIds : List String)
  | renew (leaseId : String) (ttl : Int)
  | reclaimExpired (now : Int)
  /-- The two steps of an exit of the process. -/
  | exit (target : ProcessState) (terminal : target.Terminal)

/-- What a visit has come to. -/
inductive Visited where
  | called
  | exited (result : Except KernelError Unit)
  deriving DecidableEq

def exitSteps (pid : String) (target : ProcessState) : KernelTask Unit := do
  transition pid target none
  releaseAllForPid pid

/-- The visit, as its single accesses. -/
def Visit.program (pid : String) : Visit → Program World Label Visited
  | .acquire owner claims draw ttl =>
    ExceptT.run (atomicAcquire owner claims draw ttl) >>= fun _ => .ret .called
  | .release leaseIds => ExceptT.run (LeaseService.release leaseIds) >>= fun _ => .ret .called
  | .renew leaseId ttl => ExceptT.run (LeaseService.renew leaseId ttl) >>= fun _ => .ret .called
  | .reclaimExpired now => ExceptT.run (LeaseService.reclaimExpired now) >>= fun _ => .ret .called
  | .exit target _ => ExceptT.run (exitSteps pid target) >>= fun result => .ret (.exited result)

/-- Visits of any number, with a clock that is set at will. -/
def visits (pid : String) : Machine World (Program World Label Visited) Int Visit where
  act w now := { w with clock := now }
  enter visit := visit.program pid
  advance := Program.advance

/-! ## What every step keeps -/

section
def Gone (pid : String) (store : KernelStore) : Prop :=
  ∃ pcb, getProcess store pid = some pcb ∧ pcb.state.Terminal

def Free (pid : String) (store : KernelStore) : Prop := ∀ lease ∈ store.leases, lease.ownerPid ≠ pid

/-- A process that is gone stays so, and gets no lease. -/
def Respects (pid : String) (w w' : World) : Prop :=
  Gone pid w.store → Gone pid w'.store ∧ (Free pid w.store → Free pid w'.store)

theorem respects_trans (first : Respects pid w w') (second : Respects pid w' w'') : Respects pid w w'' := by
  intro gone
  obtain ⟨gone', free'⟩ := first gone
  obtain ⟨gone'', free''⟩ := second gone'
  exact ⟨gone'', fun free => free'' (free' free)⟩

theorem Gone.of_processes (gone : Gone pid store) (same : store'.processes = store.processes) : Gone pid store' := by
  obtain ⟨pcb, found, terminal⟩ := gone
  exact ⟨pcb, by rw [getProcess, same]; exact found, terminal⟩

theorem Free.of_lapse (free : Free pid store) (lapse : Lapse store store') : Free pid store' := by
  intro lease' member
  obtain ⟨lease, stored, same⟩ := lapse.mem member
  rw [same]
  exact free lease stored

theorem respects_lapse {label w'} (step : OnStore Lapse label w w') : Respects pid w w' := by
  obtain ⟨_, store', lapse, rfl⟩ := step
  exact fun gone => ⟨gone.of_processes lapse.elsewhere.processes, fun free => free.of_lapse lapse⟩

/-- An acquisition for a process that is gone is refused. -/
theorem admitOwner_gone (gone : Gone pid store) : admitOwner pid claims store ≠ .ok () := by
  obtain ⟨pcb, found, terminal⟩ := gone
  rw [admitOwner, found]
  simp [terminal]

theorem respects_acquireTx (distinct : (claims.map Prod.fst).Nodup)
    (ran : Session.transaction (acquireTx owner claims draw ttl now) w.store = (result, store')) :
    Respects pid w { w with store := store' } := by
  intro gone
  rcases acquireTx_cases distinct ran with ⟨rfl, _⟩ | ⟨leases, granted, rfl, _, all, rfl, admitted⟩
  · exact ⟨gone, id⟩
  refine ⟨gone.of_processes (by rw [all.others]; rfl), fun free lease member => ?_⟩
  have rows : lease ∈ w.store.leases ++ leases := by
    rw [← all.rows]
    exact member
  rcases mem_append.mp rows with old | new
  · exact free lease old
  rw [all.owner lease new]
  rintro rfl
  exact admitOwner_gone gone admitted

theorem respecting_acquire (draw : ℕ → String) :
    AlwaysTask (fun _ => Respects pid) (atomicAcquire owner claims draw ttl) := by
  unfold atomicAcquire
  split
  · exact .bind (.mono (fun _ _ _ => respects_lapse) always_clearWaitersForPid) fun _ => .pure _
  refine always_compute fun names named => ?_
  exact .bind (always_transaction fun w result store' ran =>
    respects_acquireTx (nameClaims_nodup named).1 ran) fun acquisition =>
    .mono (fun _ _ _ => respects_lapse) always_concludeAcquire

/-! ## The exit -/

/-- Every client respects an exit, and may rely on the others to do so. -/
def discipline (pid : String) : Discipline World Label where
  rely := Respects pid
  guarantee _ := Respects pid

/-- Once an exit is through, the process is gone and has no lease. -/
def Through (pid : String) : Visited → World → ℕ → Prop
  | .exited (.ok ()), w, _ => Gone pid w.store ∧ Free pid w.store
  | _, _, _ => True

theorem safe_respecting {task : KernelTask α} (respecting : AlwaysTask (fun _ => Respects pid) task) :
    Safe (discipline pid) (Through pid) (ExceptT.run task >>= fun _ => .ret .called) w 0 :=
  .bind (.of_always (I := fun _ _ => True) respecting trivial fun _ _ _ _ _ _ _ step =>
    ⟨step, le_rfl, trivial⟩) fun _ _ _ _ => trivial

theorem free_releaseAll : Free pid (dropAll releasedEvents (listLeasesForPid store pid) store) := by
  have dropped : ∀ (rows : List ResourceLease) (store : KernelStore),
      (dropAll releasedEvents rows store).leases =
        store.leases.filter fun lease => decide (lease.leaseId ∉ rows.map ResourceLease.leaseId) := by
    intro rows
    induction rows with
    | nil => intro store; simp [dropAll]
    | cons row rest ih =>
      intro store
      change (dropAll releasedEvents rest (dropLease releasedEvents row store)).leases = _
      rw [ih]
      simp only [dropLease, appendEvents, filter_filter, map_cons, mem_cons, not_or]
      refine filter_congr fun lease _ => ?_
      simp [Bool.and_comm]
  intro lease member owned
  rw [dropped, mem_filter] at member
  refine of_decide_eq_true member.2 (mem_map_of_mem ?_)
  exact mem_filter.mpr ⟨member.1, decide_eq_true owned⟩

theorem gone_upsertProcess (key : moved.pid = pid) (terminal : moved.state.Terminal) :
    Gone pid (upsertProcess moved store) := by
  have seen := viewed_upsertProcess store moved pid
  rw [if_pos key.symm] at seen
  obtain ⟨pcb, found, same⟩ := Option.map_eq_some_iff.mp seen
  refine ⟨pcb, found, ?_⟩
  have state : pcb.state = moved.state := congrArg ProcessView.state same
  rwa [state]

theorem safe_transition (terminal : target.Terminal) :
    SafeTask (discipline pid) (fun _ w _ => Gone pid w.store) Any (transition pid target none) w 0 := by
  have reads : SafeTask (discipline pid)
      (fun found _ held => held = 0 ∧ ∀ pcb, found = some pcb → pcb.pid = pid) Any
      (during .ordinary (query fun store => getProcess store pid)) w 0 :=
    .relabel (fun _ _ granted => granted) (fun _ _ _ promised => promised)
      (safe_query fun w' _ => ⟨fun gone => ⟨gone, id⟩, rfl, fun pcb found => getProcess_pid found⟩)
  refine reads.bind fun found w held ⟨unpaid, key⟩ => ?_
  subst unpaid
  cases found with
  | none => trivial
  | some pcb =>
    refine safe_compute (fun _ => trivial) fun moved applied => ?_
    obtain ⟨_, _, shape⟩ := applyProcessTransition_ok applied
    have ends : ∀ store, Gone pid (upsertProcess moved store) := fun store =>
      gone_upsertProcess (by rw [shape]; exact key pcb rfl) (by rw [shape]; exact terminal)
    refine (safe_update fun w' _ _ => ⟨fun gone => ⟨gone, id⟩, 0, by simp [discipline], rfl⟩).andThen fun _ w => ?_
    exact safe_update fun w' _ _ => ⟨fun _ => ⟨ends _, id⟩, 0, by simp [discipline], ends _⟩

theorem safe_releaseAllForPid (gone : Gone pid w.store) :
    SafeTask (discipline pid) (fun _ w _ => Gone pid w.store ∧ Free pid w.store) Any (releaseAllForPid pid) w held := by
  unfold releaseAllForPid
  split
  · trivial
  refine safe_update fun w' relied _ => ?_
  have gone' := (relied gone).1
  have lapse : Lapse w'.store
      (clearWaiters pid (dropAll releasedEvents (listLeasesForPid w'.store pid) w'.store)) :=
    (Lapse.dropAll Lapse.releasedEvents _ w'.store).trans (.clearWaiters pid _)
  refine ⟨fun _ => ⟨gone'.of_processes lapse.elsewhere.processes, fun free => free.of_lapse lapse⟩, held,
    by simp [discipline], gone'.of_processes lapse.elsewhere.processes, ?_⟩
  exact free_releaseAll

theorem safe_exit (terminal : target.Terminal) : Safe (discipline pid) (Through pid)
    (ExceptT.run (exitSteps pid target) >>= fun result => .ret (.exited result)) w 0 := by
  have steps : SafeTask (discipline pid) (fun _ w _ => Gone pid w.store ∧ Free pid w.store)
      Any (exitSteps pid target) w 0 :=
    (safe_transition terminal).bind fun _ _ _ gone => safe_releaseAllForPid gone
  refine .bind steps fun result w held ended => ?_
  cases result with
  | ok _ => exact ended
  | error failure => trivial

theorem safe_visit (visit : Visit) : Safe (discipline pid) (Through pid) (visit.program pid) w 0 := by
  have lapsing : ∀ {α : Type} {task : KernelTask α}, AlwaysTask (OnStore Lapse) task →
      AlwaysTask (fun _ => Respects pid) task := .mono fun _ _ _ => respects_lapse
  cases visit with
  | acquire owner claims draw ttl => exact safe_respecting (respecting_acquire draw)
  | release leaseIds => exact safe_respecting (lapsing always_release)
  | renew leaseId ttl => exact safe_respecting (lapsing always_renew)
  | reclaimExpired now => exact safe_respecting (lapsing always_reclaimExpired)
  | exit target terminal => exact safe_exit terminal

end

/-! ## Every interleaving -/

/-- However acquisitions, of this and of other processes, other lease calls and
exits interleave, from any database: once both steps of an exit of the process
have completed, there is no lease of it, then or ever after. -/
theorem exited_process_holds_no_lease (pid : String) (start : World) (events more : List (Event Int Visit))
    (index : ℕ) (completed : ((visits pid).conduct start events).clients[index]? =
      some (.ret (.exited (.ok ())))) :
    ∀ lease ∈ ((visits pid).conduct start (events ++ more)).shared.store.leases, lease.ownerPid ≠ pid := by
  have kept : ((visits pid).conduct start (events ++ more)).clients[index]? =
      some (.ret (.exited (.ok ()))) := Machine.conduct_settled (fun _ => rfl) completed
  have safe := ((visits pid).conduct_rule (P := fun _ => True)
    (I := fun _ w client => ∃ held, Safe (discipline pid) (Through pid) client w held)
    Machine.meets_true trivial
    (fun w now _ => ⟨trivial, fun gone => ⟨gone, id⟩⟩)
    (fun _ w visit _ => ⟨0, safe_visit visit⟩)
    (fun _ w client _ ⟨held, safe⟩ _ => by
      cases client with
      | ret visited => exact ⟨trivial, fun gone => ⟨gone, id⟩, held, safe⟩
      | step label write next =>
        obtain ⟨respects, held', _, rest⟩ := safe w (fun gone => ⟨gone, id⟩) trivial
        exact ⟨trivial, respects, held', rest⟩)
    (fun _ w w' client _ respects ⟨held, safe⟩ => ⟨held, safe.stable (fun _ _ _ => respects_trans)
      (fun visited w w' held through relied => by
        cases visited with
        | called => trivial
        | exited result =>
          cases result with
          | error failure => trivial
          | ok _ => exact ⟨(relied through.1).1, (relied through.1).2 through.2⟩) respects⟩)).2 index _ kept
  obtain ⟨_, _, free⟩ := safe
  exact free

/-- An acquisition that is overtaken by the exit: it enters first and inserts
between the two steps of the exit, which then takes its lease away. -/
def overtaken : List (Event Int Visit) :=
  [.enter (.exit .exited (.inl rfl)), .enter (.acquire "p" [{ resourceId := some "r" }] uuid 300),
    .step 0, .step 1, .step 0, .step 0, .step 0]

def runningProcess : World :=
  { store := { processes := [{ pid := "p", programId := "agent", state := .running, createdAt := 0 }] } }

theorem overtaken_acquisition_is_released :
    ((visits "p").conduct runningProcess (overtaken.take 4)).shared.store.leases ≠ [] ∧
    ∀ lease ∈ ((visits "p").conduct runningProcess (overtaken ++ [])).shared.store.leases,
      lease.ownerPid ≠ "p" := by
  exact ⟨by decide +kernel, exited_process_holds_no_lease "p" runningProcess overtaken [] 0 rfl⟩

end LongHorizonOS.ExitRelease
