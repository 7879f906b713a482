import LongHorizonOS.LeaseSpec

/-! Sequences of calls of the lease service. Whatever the calls, the processes
and the clock readings, the leases on a resource are those of one epoch of its
lock, and the tokens that are handed out follow the epochs. -/
namespace LongHorizonOS.LeaseExclusion
open KeyedRows FailFast AtomicPrograms FencedLock KernelModels KernelTasks LeaseService List
open LeaseSpec

/-! ## Calls -/

inductive LeaseCall where
  | acquire (pid : String) (claims : List ResourceClaim) (draw : ℕ → String) (ttl : Int)
  | release (leaseIds : List String)
  | releaseAllForPid (pid : String)
  | renew (leaseId : String) (ttl : Int)
  | reclaimExpired (now : Int)
  /-- Other services change the processes. -/
  | processes (rows : List ProcessControlBlock)

/-- The body of a call, with the leases that it hands out. -/
def LeaseCall.task : LeaseCall → KernelTask (List ResourceLease)
  | .acquire pid claims draw ttl => atomicAcquire pid claims draw ttl
  | .release leaseIds => do
    LeaseService.release leaseIds
    return []
  | .releaseAllForPid pid => do
    LeaseService.releaseAllForPid pid
    return []
  | .renew leaseId ttl => do
    let _ ← LeaseService.renew leaseId ttl
    return []
  | .reclaimExpired now => do
    LeaseService.reclaimExpired now
    return []
  | .processes rows => do
    update {} fun store => { store with processes := rows }
    return []

/-- One call, at the time that the clock then shows. -/
def perform (w : World) (call : Int × LeaseCall) : Except KernelError (List ResourceLease) × World :=
  call.2.task.alone { w with clock := call.1 }

def handedOut : Except KernelError (List ResourceLease) → List ResourceLease
  | .ok leases => leases
  | .error _ => []

def execute (calls : List (Int × LeaseCall)) : World :=
  calls.foldl (fun w call => (perform w call).2) {}

/-- All leases that the calls have handed out. -/
def issued : List (Int × LeaseCall) → World → List ResourceLease
  | [], _ => []
  | call :: rest, w => handedOut (perform w call).1 ++ issued rest (perform w call).2

/-! ## What a call does -/

section
variable {α : Type}

theorem alone_transaction (body : Int → Session KernelStore KernelError α) (w) :
    (transaction label body).alone w = ((Session.transaction (body w.clock) w.store).1,
        { w with store := (Session.transaction (body w.clock) w.store).2 }) :=
  transaction_inStore body w

end

/-- What follows the transaction of an acquisition. -/
theorem alone_concludeAcquire (acquisition) (w) :
    (∃ leases, acquisition = .granted leases ∧ (concludeAcquire pid acquisition).alone w = (.ok leases, w)) ∨
    ∃ failure store', (∀ leases, acquisition ≠ .granted leases) ∧
      (concludeAcquire pid acquisition).alone w = (.error failure, { w with store := store' }) ∧
      store'.leases = w.store.leases ∧ store'.fencingTokens = w.store.fencingTokens := by
  cases acquisition with
  | granted leases => exact .inl ⟨leases, rfl, rfl⟩
  | denied resourceId mode =>
    refine .inr ⟨_, _, fun _ => by simp, rfl, ?_, ?_⟩
    · change (if _ then _ else _ : KernelStore).leases = _
      split <;> rfl
    change (if _ then _ else _ : KernelStore).fencingTokens = _
    split <;> rfl

/-- A granted acquisition, as the world that it leaves. -/
def Acquired (pid : String) (w w' : World) (leases : List ResourceLease) : Prop :=
  ∃ named ids granted, (named.map Prod.fst).Nodup ∧ (∀ claim ∈ named, busy w.store claim = false) ∧
    GrantedAll pid ids named w.store w.store granted leases ∧
    w'.store.leases = granted.leases ∧ w'.store.fencingTokens = granted.fencingTokens

/-- An acquisition raises, or is for nothing, and leaves the leases and the
tokens alone, or it grants all of its claims. -/
theorem atomicAcquire_cases (ran : (atomicAcquire pid claims draw ttl).alone w = (result, w')) :
    (handedOut result = [] ∧ w'.store.leases = w.store.leases ∧ w'.store.fencingTokens = w.store.fencingTokens) ∨
    ∃ leases, result = .ok leases ∧ Acquired pid w w' leases := by
  unfold atomicAcquire at ran
  split at ran
  · cases ran
    exact .inl ⟨rfl, rfl, rfl⟩
  cases named : nameClaims pid claims [] with
  | error failure =>
    rw [named] at ran
    cases ran
    exact .inl ⟨rfl, rfl, rfl⟩
  | ok names =>
    rw [named] at ran
    have distinct := (nameClaims_nodup named).1
    change Task.alone (transaction _ (acquireTx pid names draw ttl) >>= concludeAcquire pid) w = _ at ran
    rw [Task.alone_bind, Session.bind, alone_transaction] at ran
    rcases done : Session.transaction (acquireTx pid names draw ttl w.clock) w.store with ⟨outcome, store'⟩
    rw [done] at ran
    rcases acquireTx_cases distinct done with ⟨rfl, none⟩ | ⟨leases, granted, rfl, free, all, rfl, _⟩
    · left
      cases outcome with
      | error failure =>
        cases ran
        exact ⟨rfl, rfl, rfl⟩
      | ok acquisition =>
        rcases alone_concludeAcquire acquisition w with
          ⟨leases, rfl, _⟩ | ⟨failure, store', _, concluded, rows, tokens⟩
        · exact absurd rfl (none leases)
        cases concluded.symm.trans ran
        exact ⟨rfl, rows, tokens⟩
    · cases ran
      exact .inr ⟨leases, rfl, names, _, granted, distinct, free, all, rfl, rfl⟩

theorem Acquired.moves (acquired : Acquired pid w w' leases) : Moves w.store w'.store := by
  obtain ⟨named, ids, granted, distinct, free, all, rows, tokens⟩ := acquired
  refine .trans (fun resourceId => ?_) (.of_eq rows tokens)
  by_cases claimed : ∃ lease ∈ leases, lease.resourceId = resourceId
  · obtain ⟨lease, member, rfl⟩ := claimed
    exact .single (granted_step distinct free all member).1
  have none : lookup ResourceLease.resourceId leases resourceId = none :=
    lookup_eq_none.mpr fun member => claimed (mem_map.mp member)
  have same : lockOf granted resourceId = lockOf w.store resourceId := by
    have outside : leases.filter (fun lease => decide (lease.resourceId = resourceId)) = [] :=
      filter_eq_nil_iff.mpr fun lease member => by
        simpa using fun equal : lease.resourceId = resourceId => claimed ⟨lease, member, equal⟩
    rw [lockOf, lockOf, all.last, none, leasesOn, all.rows, filter_append, outside, append_nil]
    rfl
  rw [same]

/-- Every call takes steps of the locks. -/
theorem perform_moves (w) (call) : Moves w.store (perform w call).2.store := by
  obtain ⟨now, call⟩ := call
  cases call with
  | acquire pid claims draw ttl =>
    rcases ran : (atomicAcquire pid claims draw ttl).alone { w with clock := now } with ⟨result, w'⟩
    change Moves w.store ((atomicAcquire pid claims draw ttl).alone { w with clock := now }).2.store
    rw [ran]
    rcases atomicAcquire_cases ran with ⟨_, rows, tokens⟩ | ⟨leases, _, acquired⟩
    · exact .of_eq rows tokens
    exact acquired.moves
  | release leaseIds =>
    change Moves w.store (Task.alone (LeaseService.release leaseIds >>= fun _ => pure []) _).2.store
    unfold LeaseService.release
    split
    · exact .refl _
    exact (Lapse.releaseAll leaseIds w.store).moves
  | releaseAllForPid pid =>
    change Moves w.store (Task.alone (LeaseService.releaseAllForPid pid >>= fun _ => pure []) _).2.store
    unfold LeaseService.releaseAllForPid
    split
    · exact .refl _
    exact ((Lapse.dropAll Lapse.releasedEvents _ w.store).trans (.clearWaiters pid _)).moves
  | renew leaseId ttl =>
    change Moves w.store
      (Task.alone (transaction {} (renewTx leaseId ttl) >>= fun _ => pure []) { w with clock := now }).2.store
    rw [Task.alone_bind, Session.bind, alone_transaction]
    rcases ran : Session.transaction (renewTx leaseId ttl now) w.store with ⟨failure | found, store'⟩
    · exact (Lapse.renewTx ran).moves
    exact (Lapse.renewTx ran).moves
  | reclaimExpired cutoff => exact (Lapse.dropAll Lapse.expiredEvents _ w.store).moves
  | processes rows => exact .of_eq rfl rfl

theorem handsOutNothing (task : KernelTask α) (w : World) :
    lease ∉ handedOut (Task.alone (task >>= fun _ => pure []) w).1 := by
  rw [Task.alone_bind, Session.bind]
  rcases task.alone w with ⟨failure | a, w'⟩
  · exact not_mem_nil
  exact not_mem_nil

/-- What a call hands out: the token of the epoch that the call leaves, which is
a new one if nobody held the resource. -/
theorem perform_handedOut (member : lease ∈ handedOut (perform w call).1) :
    (lockOf (perform w call).2.store lease.resourceId).last = lease.fencingToken ∧
      (lockOf w.store lease.resourceId).last ≤ lease.fencingToken ∧ (leasesOn w.store lease.resourceId = [] →
        (lockOf w.store lease.resourceId).last < lease.fencingToken) := by
  have moves := perform_moves w call
  obtain ⟨now, call⟩ := call
  cases call with
  | acquire pid claims draw ttl =>
    rcases ran : (atomicAcquire pid claims draw ttl).alone { w with clock := now } with ⟨result, w'⟩
    have same : perform w (now, .acquire pid claims draw ttl) = (result, w') := ran
    rw [same] at member moves ⊢
    rcases atomicAcquire_cases ran with ⟨none, _⟩ | ⟨leases, rfl, acquired⟩
    · rw [none] at member
      cases member
    obtain ⟨named, ids, granted, distinct, free, all, rows, tokens⟩ := acquired
    obtain ⟨_, last, next⟩ := granted_step distinct free all member
    have equal : (lockOf w'.store lease.resourceId).last = lease.fencingToken := by
      rw [← last, lockOf, lockOf, lastToken, tokens]
      rfl
    exact ⟨equal, equal ▸ (moves lease.resourceId).last_le, next⟩
  | release leaseIds => exact absurd member (handsOutNothing _ _)
  | releaseAllForPid pid => exact absurd member (handsOutNothing _ _)
  | renew leaseId ttl => exact absurd member (handsOutNothing _ _)
  | reclaimExpired cutoff => exact absurd member (handsOutNothing _ _)
  | processes rows => exact absurd member (handsOutNothing _ _)

/-! ## Runs -/

variable (calls : List (Int × LeaseCall))

theorem execute_append (call) : execute (calls ++ [call]) = (perform (execute calls) call).2 := by
  rw [execute, foldl_append]
  rfl

theorem issued_append : issued (calls ++ [call]) w =
    issued calls w ++ handedOut (perform (calls.foldl (fun w call => (perform w call).2) w) call).1 := by
  induction calls generalizing w with
  | nil => simp [issued]
  | cons first rest ih =>
    rw [cons_append, issued, ih, issued, append_assoc]
    rfl

theorem execute_sound (resourceId) : Sound reading (lockOf (execute calls).store resourceId) := by
  induction calls using List.reverseRecOn with
  | nil => exact sound_free
  | append_singleton calls call ih =>
    rw [execute_append]
    exact (perform_moves _ call resourceId).sound ih

/-- No token that was handed out is ahead of its resource. -/
theorem issued_le :
    ∀ lease ∈ issued calls {}, lease.fencingToken ≤ (lockOf (execute calls).store lease.resourceId).last := by
  induction calls using List.reverseRecOn with
  | nil => exact fun _ member => nomatch member
  | append_singleton calls call ih =>
    intro lease member
    rw [issued_append] at member
    rw [execute_append]
    rcases mem_append.mp member with old | new
    · exact (ih lease old).trans (perform_moves _ call lease.resourceId).last_le
    exact (perform_handedOut new).1.ge

/-- No lease, one exclusive lease, or shared leases only. -/
def Compatible (rows : List ResourceLease) : Prop :=
  rows = [] ∨ (∃ lease, rows = [lease] ∧ lease.mode = .exclusive) ∨ ∀ lease ∈ rows, lease.mode = .shared

theorem compatible_of_sound (sound : Sound reading (lockOf store resourceId)) :
    Compatible (leasesOn store resourceId) := by
  by_cases exclusive : ∃ lease ∈ leasesOn store resourceId, lease.mode = .exclusive
  · obtain ⟨lease, member, mode⟩ := exclusive
    have short := sound.alone lease member (by simpa [reading] using mode)
    change (leasesOn store resourceId).length ≤ 1 at short
    obtain ⟨only, shape⟩ : ∃ only, leasesOn store resourceId = [only] := by
      rw [← length_eq_one_iff]
      have := length_pos_of_mem member
      omega
    rw [shape] at member
    obtain rfl := mem_singleton.mp member
    exact .inr (.inl ⟨lease, shape, mode⟩)
  · refine .inr (.inr fun lease member => ?_)
    cases mode : lease.mode with
    | shared => rfl
    | exclusive => exact absurd ⟨lease, member, mode⟩ exclusive

theorem token_of_sound (sound : Sound reading (lockOf store resourceId))
    (member : lease ∈ leasesOn store resourceId) : lastToken store resourceId = some lease.fencingToken := by
  have current : lease.fencingToken = (lastToken store resourceId).getD 0 := sound.current lease member
  have positive : 0 < lease.fencingToken := sound.positive lease member
  cases last : lastToken store resourceId with
  | none =>
    rw [last, Option.getD_none] at current
    omega
  | some token =>
    rw [last, Option.getD_some] at current
    rw [current]

/-- Whatever calls have been made, the leases on a resource exclude each other
as their modes say and carry its last token. The next call hands out no smaller
token than any before it, and a larger one if the resource is free. If it is an
acquisition that raises, the leases and the tokens stay as they are. -/
theorem leases_exclude_and_fence (calls : List (Int × LeaseCall)) :
    (∀ resourceId, Compatible (leasesOn (execute calls).store resourceId) ∧
      ∀ lease ∈ leasesOn (execute calls).store resourceId,
        lastToken (execute calls).store resourceId = some lease.fencingToken) ∧
    (∀ call, ∀ lease ∈ handedOut (perform (execute calls) call).1, ∀ old ∈ issued calls {},
      old.resourceId = lease.resourceId → old.fencingToken ≤ lease.fencingToken ∧
        (leasesOn (execute calls).store lease.resourceId = [] → old.fencingToken < lease.fencingToken)) ∧
    ∀ now pid claims draw ttl failure,
      (perform (execute calls) (now, .acquire pid claims draw ttl)).1 = .error failure →
      (perform (execute calls) (now, .acquire pid claims draw ttl)).2.store.leases =
          (execute calls).store.leases ∧
        (perform (execute calls) (now, .acquire pid claims draw ttl)).2.store.fencingTokens =
          (execute calls).store.fencingTokens := by
  refine ⟨fun resourceId => ?_, fun call lease member old before same => ?_, ?_⟩
  · have sound := execute_sound calls resourceId
    exact ⟨compatible_of_sound sound, fun lease member => token_of_sound sound member⟩
  · obtain ⟨_, grows, opens⟩ := perform_handedOut member
    have bound := issued_le calls old before
    rw [same] at bound
    exact ⟨bound.trans grows, fun free => bound.trans_lt (opens free)⟩
  · intro now pid claims draw ttl failure raised
    rcases ran : (atomicAcquire pid claims draw ttl).alone { execute calls with clock := now } with
      ⟨result, w'⟩
    have done : perform (execute calls) (now, .acquire pid claims draw ttl) = (result, w') := ran
    rw [done] at raised ⊢
    rcases atomicAcquire_cases ran with ⟨_, rows, tokens⟩ | ⟨leases, rfl, _⟩
    · exact ⟨rows, tokens⟩
    · cases raised

end LongHorizonOS.LeaseExclusion
