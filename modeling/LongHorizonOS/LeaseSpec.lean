import LongHorizonOS.FencedLock
import LongHorizonOS.LeaseService

/-! What the transactions of the lease service do to the lease rows and the
tokens. Seen from one resource, the rows and the token are a fenced lock, and
every transaction takes steps of that lock. -/
namespace LongHorizonOS.LeaseSpec
open Prod (fst snd)
open KeyedRows FailFast AtomicPrograms FencedLock KernelModels KernelTasks LeaseService
open List hiding lookup

/-! ## The lock of a resource -/

def reading : Reading ResourceLease where
  exclusive := fun lease => decide (lease.mode = .exclusive)
  token := ResourceLease.fencingToken

def lockOf (store : KernelStore) (resourceId : String) : Lock ResourceLease :=
  ⟨(lastToken store resourceId).getD 0, leasesOn store resourceId⟩

/-- The store moves on as the locks do. -/
def Moves (store store' : KernelStore) : Prop :=
  ∀ resourceId, Steps reading (lockOf store resourceId) (lockOf store' resourceId)

theorem Moves.refl (store) : Moves store store := fun _ => .refl

variable {store middle after : KernelStore}

theorem Moves.trans (first : Moves store middle) (second : Moves middle after) : Moves store after :=
  fun resourceId => (first resourceId).trans (second resourceId)

/-- Nothing but the lease rows and the tokens counts. -/
theorem Moves.of_eq (leases : store'.leases = store.leases)
    (tokens : store'.fencingTokens = store.fencingTokens) : Moves store store' := by
  intro resourceId
  have same : lockOf store' resourceId = lockOf store resourceId := by
    simp [lockOf, lastToken, leasesOn, leases, tokens]
  rw [same]

theorem mem_leasesOn : lease ∈ leasesOn store resourceId ↔ lease ∈ store.leases ∧ lease.resourceId = resourceId := by
  simp [leasesOn]

/-! ## What the service writes -/

/-- The tables of the other services stay as they are. -/
structure SameElsewhere (store store' : KernelStore) : Prop where
  processes : store'.processes = store.processes
  programStates : store'.programStates = store.programStates
  actions : store'.actions = store.actions
  signals : store'.signals = store.signals
  capabilitySets : store'.capabilitySets = store.capabilitySets
  checkpoints : store'.checkpoints = store.checkpoints

theorem SameElsewhere.refl (store) : SameElsewhere store store :=
  ⟨rfl, rfl, rfl, rfl, rfl, rfl⟩

theorem SameElsewhere.trans (first : SameElsewhere store middle)
    (second : SameElsewhere middle after) : SameElsewhere store after :=
  ⟨second.processes.trans first.processes, second.programStates.trans first.programStates,
    second.actions.trans first.actions, second.signals.trans first.signals,
    second.capabilitySets.trans first.capabilitySets, second.checkpoints.trans first.checkpoints⟩

/-- The events of a lease that ends, is extended or is not granted. -/
def lapseEvent : EventBody → Prop
  | .leaseReleased .. | .leaseExpired .. | .leaseRenewed .. | .leaseAcquireFailed .. => True
  | _ => False

/-- The events of the lease service. -/
def leaseEvent : EventBody → Prop
  | .leaseAcquired _ => True
  | body => lapseEvent body

/-- What the journal has gained. -/
def Journals (told : EventBody → Prop) (store store' : KernelStore) : Prop :=
  ∃ events, store'.journal = store.journal ++ events ∧ ∀ event ∈ events, told event.body

theorem Journals.of_eq (same : store'.journal = store.journal) : Journals told store store' :=
  ⟨[], by rw [same, append_nil], by simp⟩

theorem Journals.refl (told : EventBody → Prop) (store) : Journals told store store :=
  .of_eq rfl

theorem Journals.trans {after} (first : Journals told store middle) (second : Journals told middle after) :
    Journals told store after := by
  obtain ⟨events, grown, kinds⟩ := first
  obtain ⟨events', grown', kinds'⟩ := second
  refine ⟨events ++ events', by rw [grown', grown, append_assoc], fun event member => ?_⟩
  exact (mem_append.mp member).elim (kinds event) (kinds' event)

theorem Journals.mono (weaken : ∀ body, told body → told' body)
    (journals : Journals told store store') : Journals told' store store' := by
  obtain ⟨events, grown, kinds⟩ := journals
  exact ⟨events, grown, fun event member => weaken _ (kinds event member)⟩

theorem Journals.one (kind : told body) (store) : Journals told store (appendEvents [⟨pid, body⟩] store) :=
  ⟨_, rfl, fun event member => by cases mem_singleton.mp member; exact kind⟩

theorem Journals.grows (journals : Journals told store store') : store.journal <+: store'.journal := by
  obtain ⟨events, grown, _⟩ := journals
  exact ⟨events, grown.symm⟩

/-- All that the lease service ever writes. -/
structure LeaseFrame (store store' : KernelStore) : Prop where
  journals : Journals leaseEvent store store'
  elsewhere : SameElsewhere store store'

/-- Leases are dropped or extended and none is granted. -/
structure Lapse (store store' : KernelStore) : Prop where
  journals : Journals lapseEvent store store'
  elsewhere : SameElsewhere store store'
  tokens : store'.fencingTokens = store.fencingTokens
  rows : ∃ change : ResourceLease → Option ResourceLease,
    store'.leases = store.leases.filterMap change ∧ ∀ lease lease', change lease = some lease' →
      lease' = { lease with expiresAt := lease'.expiresAt }

namespace Lapse

theorem refl (store) : Lapse store store :=
  ⟨.refl _ store, .refl store, rfl, some, by simp, fun lease lease' kept => by cases kept; rfl⟩

theorem trans {after} (first : Lapse store middle) (second : Lapse middle after) : Lapse store after := by
  obtain ⟨change, rows, keeps⟩ := first.rows
  obtain ⟨change', rows', keeps'⟩ := second.rows
  refine ⟨first.journals.trans second.journals, first.elsewhere.trans second.elsewhere,
    second.tokens.trans first.tokens, fun lease => (change lease).bind change', ?_, ?_⟩
  · rw [rows', rows, filterMap_filterMap]
  intro lease lease'' kept
  obtain ⟨lease', once, twice⟩ := Option.bind_eq_some_iff.mp kept
  rw [keeps' lease' lease'' twice, keeps lease lease' once]

theorem frame (lapse : Lapse store store') : LeaseFrame store store' := by
  refine ⟨lapse.journals.mono fun body kind => ?_, lapse.elsewhere⟩
  cases body <;> trivial

/-- A lease that is left was there before, with the same holder, mode and token. -/
theorem mem (lapse : Lapse store store') (member : lease' ∈ store'.leases) :
    ∃ lease ∈ store.leases, lease' = { lease with expiresAt := lease'.expiresAt } := by
  obtain ⟨change, rows, keeps⟩ := lapse.rows
  rw [rows] at member
  obtain ⟨lease, stored, kept⟩ := mem_filterMap.mp member
  exact ⟨lease, stored, keeps lease lease' kept⟩

theorem dropLease (kinds : ∀ lease, ∀ body ∈ events lease, lapseEvent body) (lease)
    (store) : Lapse store (LeaseService.dropLease events lease store) := by
  refine ⟨⟨_, rfl, fun event member => ?_⟩, ⟨rfl, rfl, rfl, rfl, rfl, rfl⟩, rfl,
    Option.guard fun row => decide (row.leaseId ≠ lease.leaseId), ?_, fun row row' kept => ?_⟩
  · obtain ⟨body, emitted, rfl⟩ := mem_map.mp member
    exact kinds lease body emitted
  · rw [filterMap_eq_filter]
    rfl
  obtain ⟨rfl, _⟩ := Option.guard_eq_some_iff.mp kept
  rfl

theorem dropAll (kinds : ∀ lease, ∀ body ∈ events lease, lapseEvent body) (rows)
    (store) : Lapse store (LeaseService.dropAll events rows store) := by
  induction rows generalizing store with
  | nil => exact refl store
  | cons lease rest ih => exact (dropLease kinds lease store).trans (ih _)

theorem releasedEvents (lease) : ∀ body ∈ LeaseService.releasedEvents lease, lapseEvent body :=
  fun body emitted => by cases mem_singleton.mp emitted; trivial

theorem expiredEvents (lease) : ∀ body ∈ LeaseService.expiredEvents lease, lapseEvent body := by
  intro body emitted
  rcases mem_pair.mp emitted with rfl | rfl
  · trivial
  trivial

theorem releaseOne (store) (leaseId) : Lapse store (LeaseService.releaseOne store leaseId) := by
  unfold LeaseService.releaseOne
  split
  · exact refl store
  exact dropLease releasedEvents _ store

theorem releaseAll (leaseIds : List String) (store : KernelStore) :
    Lapse store (leaseIds.foldl LeaseService.releaseOne store) := by
  induction leaseIds generalizing store with
  | nil => exact refl store
  | cons leaseId rest ih => exact (releaseOne store leaseId).trans (ih _)

theorem clearWaiters (pid) (store) : Lapse store (LeaseService.clearWaiters pid store) :=
  ⟨⟨[], by simp [LeaseService.clearWaiters], by simp⟩, ⟨rfl, rfl, rfl, rfl, rfl, rfl⟩, rfl, some,
    by simp [LeaseService.clearWaiters], fun lease lease' kept => by cases kept; rfl⟩

theorem extendLease (leaseId) (expiresAt) (store) : Lapse store (LeaseService.extendLease leaseId expiresAt store) := by
  refine ⟨⟨[], by simp [LeaseService.extendLease], by simp⟩, ⟨rfl, rfl, rfl, rfl, rfl, rfl⟩, rfl,
    fun lease => some (if lease.leaseId = leaseId then { lease with expiresAt := expiresAt } else lease),
    (congrFun filterMap_eq_map store.leases).symm, fun lease lease' kept => ?_⟩
  cases kept
  split <;> rfl

theorem appendEvent (kind : lapseEvent body) (store) : Lapse store (appendEvents [⟨pid, body⟩] store) :=
  ⟨.one kind store, ⟨rfl, rfl, rfl, rfl, rfl, rfl⟩, rfl, some, by simp [appendEvents],
    fun lease lease' kept => by cases kept; rfl⟩

/-- A lapse is a step of every lock. -/
theorem moves (lapse : Lapse store store') : Moves store store' := by
  intro resourceId
  obtain ⟨change, rows, keeps⟩ := lapse.rows
  have last : lastToken store' resourceId = lastToken store resourceId := by
    simp [lastToken, lapse.tokens]
  have kept : ((leasesOn store' resourceId).map fun lease =>
      (reading.exclusive lease, reading.token lease)).Sublist
      ((leasesOn store resourceId).map fun lease => (reading.exclusive lease, reading.token lease)) := by
    rw [leasesOn, leasesOn, rows]
    clear rows
    induction store.leases with
    | nil => simp
    | cons lease rest ih =>
      rw [filterMap_cons]
      split
      · refine ih.trans ?_
        exact (sublist_cons_self _ _ |>.filter _).map _
      rename_i lease' kept
      rw [keeps lease lease' kept]
      by_cases here : lease.resourceId = resourceId
      · simp only [filter_cons, here, decide_true, if_true, map_cons]
        exact ih.cons_cons _
      · simpa [filter_cons, here] using ih
  rw [lockOf, lockOf, last]
  exact .single (.lapse kept)

end Lapse

/-- A renewal changes nothing, or the expiry of one lease. -/
theorem renewTx_cases : (∃ found, renewTx leaseId ttl now store = (.ok found, store)) ∨
    ∃ lease found, findLease store leaseId = some lease ∧ renewTx leaseId ttl now store = (.ok found,
      appendEvents [⟨lease.ownerPid, .leaseRenewed leaseId (now + ttl)⟩] (extendLease leaseId (now + ttl) store)) := by
  simp only [renewTx, Session.read_bind]
  cases hit : findLease store leaseId with
  | none => exact .inl ⟨none, rfl⟩
  | some lease =>
    by_cases current : now < lease.expiresAt
    · simp only [if_pos current]
      exact .inr ⟨lease, _, rfl, rfl⟩
    simp only [if_neg current]
    exact .inl ⟨none, rfl⟩

theorem Lapse.renewTx (ran : Session.transaction (renewTx leaseId ttl now) store = (result, store')) :
    Lapse store store' := by
  rcases renewTx_cases with ⟨found, same⟩ | ⟨lease, found, _, renewed⟩
  · rw [Session.transaction, same] at ran
    cases ran
    exact .refl store
  rw [Session.transaction, renewed] at ran
  cases ran
  refine (Lapse.extendLease leaseId _ store).trans (.appendEvent ?_ _)
  trivial

/-! ## Acquisitions -/

theorem nameClaims_nodup (ok : nameClaims pid claims seen = .ok named) :
    (named.map fst).Nodup ∧ ∀ resourceId ∈ named.map fst, resourceId ∉ seen := by
  induction claims generalizing seen named with
  | nil =>
    cases ok
    exact ⟨nodup_nil, by simp⟩
  | cons claim rest ih =>
    unfold nameClaims at ok
    split at ok
    · cases ok
    rename_i resourceId _
    split at ok
    · cases ok
    rename_i fresh
    obtain ⟨more, later, done⟩ := bind_ok.mp ok
    cases done
    obtain ⟨distinct, apart⟩ := ih later
    refine ⟨nodup_cons.mpr ⟨fun member => apart _ member mem_cons_self, distinct⟩, ?_⟩
    intro other member
    rcases mem_cons.mp member with rfl | member
    · exact fresh
    exact fun held => apart other member (mem_cons_of_mem _ held)

/-- The token of a new lease: the one of the readers it joins, or the next. -/
def TokenFor (store : KernelStore) (shared : Bool) (active : List ResourceLease)
    (lease : ResourceLease) : Prop :=
  if shared = true ∧ active ≠ [] then lastToken store lease.resourceId = some lease.fencingToken
  else lease.fencingToken = (lastToken store lease.resourceId).getD 0 + 1

theorem cohortToken_ok (ok : cohortToken resourceId active store = .ok token) :
    lastToken store resourceId = some token := by
  simp only [cohortToken, require_bind_ok] at ok
  obtain ⟨_, current, done⟩ := ok
  cases done
  exact current

/-- What the grant of one claim writes. -/
structure Granted (pid leaseId : String) (claim : String × String) (active : List ResourceLease)
    (store store' : KernelStore) (lease : ResourceLease) : Prop where
  id : lease.leaseId = leaseId
  resource : lease.resourceId = claim.1
  owner : lease.ownerPid = pid
  mode : lease.mode.value = claim.2
  token : TokenFor store (decide (claim.2 = "shared")) active lease
  rows : store'.leases = store.leases ++ [lease]
  last : ∀ resourceId, lastToken store' resourceId =
    if resourceId = claim.1 then some lease.fencingToken else lastToken store resourceId
  others : store' = { store with leases := store'.leases, fencingTokens := store'.fencingTokens }

theorem grant_granted (ok : grant pid leaseId now expiresAt claim active store = (.ok lease, store')) :
    Granted pid leaseId claim active store store' lease := by
  unfold grant at ok
  obtain ⟨token, middle, tokened, ok⟩ := Session.bind_ok.mp ok
  obtain ⟨mode, parsed, ok⟩ := Session.check_bind_ok.mp ok
  simp only [insertLease, Session.bind_ok, Session.check_ok, Session.write_ok] at ok
  obtain ⟨_, _, ⟨_, _, ⟨_, rfl⟩, rfl⟩, done⟩ := ok
  cases done
  have mode_eq := LeaseMode.value_of_parse (demand_ok.mp parsed)
  unfold leaseToken at tokened
  split at tokened
  · rename_i joins
    obtain ⟨cohort, rfl⟩ := Session.check_ok.mp tokened
    have current := cohortToken_ok cohort
    refine ⟨rfl, rfl, rfl, mode_eq, ?_, rfl, fun resourceId => ?_, rfl⟩
    · simpa [TokenFor, joins] using current
    split
    · rename_i equal
      rw [equal]
      exact current
    · rfl
  rename_i opens
  cases tokened
  refine ⟨rfl, rfl, rfl, mode_eq, ?_, rfl, fun resourceId => ?_, rfl⟩
  · have next : ∀ last : Option Int, (last.map (· + 1)).getD 1 = last.getD 0 + 1 := fun last => by
      cases last <;> simp
    simpa [TokenFor, opens] using next _
  change Option.map snd (lookup fst (upsert fst _ store.fencingTokens) resourceId) = _
  rw [lookup_upsert]
  split
  · rfl
  rfl

/-- What the grants of an acquisition write together. -/
structure GrantedAll (pid : String) (ids : List String) (claims : List (String × String))
    (found store store' : KernelStore) (leases : List ResourceLease) : Prop where
  ids : leases.map ResourceLease.leaseId = ids
  named : (leases.map fun lease => (lease.resourceId, lease.mode.value)) = claims
  owner : ∀ lease ∈ leases, lease.ownerPid = pid
  token : ∀ lease ∈ leases, TokenFor store (decide (lease.mode = .shared))
    (leasesOn found lease.resourceId) lease
  rows : store'.leases = store.leases ++ leases
  last : ∀ resourceId, lastToken store' resourceId =
    ((lookup ResourceLease.resourceId leases resourceId).map ResourceLease.fencingToken).or
      (lastToken store resourceId)
  others : store' = { store with leases := store'.leases, fencingTokens := store'.fencingTokens }

theorem value_shared {mode : LeaseMode} : mode.value = "shared" ↔ mode = .shared := by
  cases mode <;> decide

theorem grantAll_granted {expiresAt : Int} {index : ℕ} (distinct : (claims.map fst).Nodup)
    (ok : grantAll pid draw now expiresAt found claims index store = (.ok leases, store')) :
    GrantedAll pid ((List.range' index claims.length).map draw) claims found store store' leases := by
  induction claims generalizing store index leases with
  | nil =>
    cases ok
    exact ⟨rfl, rfl, by simp, by simp, (append_nil _).symm, fun _ => rfl, rfl⟩
  | cons claim rest ih =>
    obtain ⟨lease, middle, first, ok⟩ := Session.bind_ok.mp ok
    obtain ⟨more, _, later, done⟩ := Session.bind_ok.mp ok
    cases done
    obtain ⟨fresh, apart⟩ := nodup_cons.mp distinct
    have head := grant_granted first
    have tail := ih apart later
    -- The later claims are for other resources, whose fences the first leaves alone.
    have other : ∀ later ∈ more, later.resourceId ≠ claim.1 := fun later member equal =>
      fresh (by
        rw [← equal, ← tail.named, map_map]
        exact mem_map_of_mem member)
    refine ⟨?_, ?_, ?_, ?_, ?_, fun resourceId => ?_, ?_⟩
    · rw [map_cons, head.id, tail.ids, length_cons, List.range'_succ, map_cons]
    · rw [map_cons, head.resource, head.mode, tail.named]
    · exact forall_mem_cons.mpr ⟨head.owner, tail.owner⟩
    · refine forall_mem_cons.mpr ⟨?_, fun later member => ?_⟩
      · have token := head.token
        rw [← head.mode, ← head.resource] at token
        simpa only [value_shared] using token
      have token := tail.token later member
      have same : lastToken middle later.resourceId = lastToken store later.resourceId := by
        rw [head.last, if_neg (other later member)]
      simpa only [TokenFor, same] using token
    · rw [tail.rows, head.rows, append_assoc, singleton_append]
    · rw [tail.last, head.last, lookup, lookup, find?_cons, head.resource]
      by_cases here : claim.1 = resourceId
      · subst here
        have none : List.find? (fun row => decide (row.resourceId = claim.1)) more = none :=
          find?_eq_none.mpr fun later member => by simpa using other later member
        simp [none]
      · simp [here, Ne.symm here]
    · rw [tail.others, head.others]

section
variable {draw : ℕ → String} {ttl now : Int} {store store' : KernelStore} {result : Except KernelError Acquisition}
  (distinct : (claims.map fst).Nodup)
  (ran : Session.transaction (acquireTx pid claims draw ttl now) store = (result, store'))
include distinct ran

/-- What the transaction of an acquisition can do. -/
theorem acquireTx_cases : (store' = store ∧ ∀ leases, result ≠ .ok (.granted leases)) ∨
    ∃ leases granted, result = .ok (.granted leases) ∧ (∀ claim ∈ claims, busy store claim = false) ∧
      GrantedAll pid ((List.range claims.length).map draw) claims store store granted leases ∧
      store' = appendEvents (leases.map fun lease => ⟨pid, .leaseAcquired lease⟩)
        (clearWaiters pid granted) ∧ admitOwner pid claims store = .ok () := by
  rcases result with failure | acquisition
  · exact .inl ⟨Session.transaction_error ran, fun _ => by simp⟩
  have ok := Session.transaction_ok.mp ran
  obtain ⟨_, admitted, ok⟩ := Session.check_bind_ok.mp ok
  rw [Session.read_bind, grantUnlessBusy] at ok
  cases free : claims.find? (busy store) with
  | some claim =>
    rw [free] at ok
    cases ok
    exact .inl ⟨rfl, fun _ => by simp⟩
  | none =>
    rw [free] at ok
    obtain ⟨leases, granted, all, ok⟩ := Session.bind_ok.mp ok
    cases ok
    refine .inr ⟨leases, granted, rfl, fun claim member => ?_, ?_, rfl, admitted⟩
    · simpa using find?_eq_none.mp free claim member
    rw [range_eq_range']
    exact grantAll_granted distinct all

/-- An acquisition writes what the lease service writes. -/
theorem LeaseFrame.acquireTx : LeaseFrame store store' := by
  rcases acquireTx_cases distinct ran with ⟨rfl, _⟩ | ⟨leases, granted, _, _, all, rfl, _⟩
  · exact (Lapse.refl _).frame
  have journal : granted.journal = store.journal := by rw [all.others]
  refine ⟨⟨leases.map fun lease => ⟨pid, .leaseAcquired lease⟩, ?_, fun event member => ?_⟩, ?_⟩
  · rw [← journal]
    rfl
  · obtain ⟨lease, _, rfl⟩ := mem_map.mp member
    trivial
  rw [all.others]
  exact ⟨rfl, rfl, rfl, rfl, rfl, rfl⟩

end

/-- A granted acquisition opens an epoch of the lock of each of its resources,
or joins the readers that hold it. -/
theorem granted_step (distinct : (claims.map fst).Nodup) (free : ∀ claim ∈ claims, busy store claim = false)
    (granted : GrantedAll pid ids claims store store store' leases) (member : lease ∈ leases) :
    Step reading (lockOf store lease.resourceId) (lockOf store' lease.resourceId) ∧
      (lockOf store' lease.resourceId).last = lease.fencingToken ∧ (leasesOn store lease.resourceId = [] →
        (lockOf store lease.resourceId).last < lease.fencingToken) := by
  have distinctLeases : (leases.map ResourceLease.resourceId).Nodup := by
    have same : leases.map ResourceLease.resourceId = claims.map fst := by
      rw [← granted.named, map_map]
      rfl
    rwa [same]
  have found := lookup_of_mem distinctLeases member
  have last : lastToken store' lease.resourceId = some lease.fencingToken := by
    rw [granted.last, found]
    rfl
  have rows : leasesOn store' lease.resourceId = leasesOn store lease.resourceId ++ [lease] := by
    have only := filter_key_eq_singleton distinctLeases member
    rw [leasesOn, granted.rows, filter_append, only]
    rfl
  have notBusy : ∀ row ∈ leasesOn store lease.resourceId,
      lease.mode = .shared ∧ row.mode ≠ .exclusive := by
    intro row here
    have claimed : (lease.resourceId, lease.mode.value) ∈ claims := by
      rw [← granted.named]
      exact mem_map_of_mem member
    have open_ := free _ claimed
    rw [busy, any_eq_false] at open_
    have := open_ row here
    simp only [decide_eq_true_eq, not_or] at this
    refine ⟨?_, this.2⟩
    cases mode : lease.mode with
    | shared => rfl
    | exclusive =>
      rw [mode] at this
      exact absurd rfl this.1
  have token := granted.token lease member
  unfold TokenFor at token
  refine ⟨?_, ?_, fun nobody => ?_⟩
  · rw [lockOf, lockOf, rows, last]
    split at token
    · rename_i joins
      rw [token]
      exact .join joins.2 (fun other here => by simpa [reading] using (notBusy other here).2)
        (by simp [reading, of_decide_eq_true joins.1]) rfl
    rename_i opens
    have nobody : leasesOn store lease.resourceId = [] := by
      by_contra held
      obtain ⟨row, rest, shape⟩ := exists_cons_of_ne_nil held
      exact opens ⟨decide_eq_true (notBusy row (by simp [shape])).1, held⟩
    rw [nobody, nil_append, Option.getD_some, token]
    exact .epoch rfl token
  · rw [lockOf, last]
    rfl
  · rw [nobody] at token
    simp only [ne_eq, not_true_eq_false, and_false, if_false] at token
    rw [lockOf, token]
    exact lt_add_one _

/-! ## The steps of the service -/

theorem always_clearWaitersForPid : AlwaysTask (OnStore Lapse) (clearWaitersForPid pid) :=
  always_onStore fun store => .clearWaiters pid store

theorem always_addWaiter : AlwaysTask (OnStore Lapse) (addWaiter pid resourceId) := by
  refine always_onStore fun store => ?_
  split
  · exact .refl store
  exact ⟨⟨[], by simp, by simp⟩, ⟨rfl, rfl, rfl, rfl, rfl, rfl⟩, rfl, some, by simp,
    fun lease lease' kept => by cases kept; rfl⟩

theorem always_concludeAcquire : AlwaysTask (OnStore Lapse) (concludeAcquire pid acquisition) := by
  cases acquisition with
  | granted leases => exact .pure _
  | denied resourceId mode =>
    refine always_clearWaitersForPid.bind fun _ =>
      always_addWaiter.bind fun _ =>
      (always_onStore fun store => .appendEvent ?_ store).bind fun _ => .throw _
    trivial

theorem always_release : AlwaysTask (OnStore Lapse) (release leaseIds) := by
  unfold release
  split
  · exact .pure _
  exact always_onStore (.releaseAll leaseIds)

theorem always_releaseAllForPid : AlwaysTask (OnStore Lapse) (releaseAllForPid pid) := by
  unfold releaseAllForPid
  split
  · exact .throw _
  exact always_onStore fun store => (Lapse.dropAll Lapse.releasedEvents _ store).trans (.clearWaiters pid _)

theorem always_renew : AlwaysTask (OnStore Lapse) (renew leaseId ttl) :=
  always_transaction fun _ _ store' ran => ⟨rfl, store', .renewTx ran, rfl⟩

theorem always_reclaimExpired : AlwaysTask (OnStore Lapse) (reclaimExpired now) :=
  always_onStore fun store => .dropAll Lapse.expiredEvents _ store

/-- A step of the service, acquisitions included. -/
def LeaseStep (label : Label) (w w' : World) : Prop :=
  (label.access = .other ∨ ∃ leaseIds, label.access = .acquire leaseIds) ∧
    ∃ store', LeaseFrame w.store store' ∧ w' = { w with store := store' }

theorem LeaseStep.of_lapse (step : OnStore Lapse label w w') : LeaseStep label w w' := by
  obtain ⟨other, store', lapse, same⟩ := step
  exact ⟨.inl other, store', lapse.frame, same⟩

theorem always_atomicAcquire {pid} {claims} : AlwaysTask LeaseStep (atomicAcquire pid claims draw ttl) := by
  unfold atomicAcquire
  split
  · exact .bind (.mono (fun _ _ _ => .of_lapse) always_clearWaitersForPid) fun _ => .pure _
  refine always_compute fun names named => ?_
  refine .bind (always_transaction fun w result store' ran => ?_) fun acquisition =>
    .mono (fun _ _ _ => .of_lapse) always_concludeAcquire
  exact ⟨.inr ⟨_, rfl⟩, store', .acquireTx (nameClaims_nodup named).1 ran, rfl⟩

end LongHorizonOS.LeaseSpec
