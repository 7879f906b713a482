import LongHorizonOS.ActionSpec

/-! Commits under a fence. Calls of the lease service and of the action service
interleave while the clock moves. A lease that still stands has stood since the
journal entry of its acquisition, and an intent that names it comes after that
entry, so that what the committing transaction checks of its own instant holds
of the whole time since the intent. -/
namespace LongHorizonOS.FencedCommit
open KeyedRows FailFast AtomicPrograms Interleaving KernelModels KernelTasks List
open LeaseService ActionService LeaseSpec ActionSpec LeaseExclusion

/-! ## The journal on leases and intents -/

/-- The leases that an intent names. -/
def intended : EventBody → List String
  | .actionIntentDurable _ leaseIds _ => leaseIds
  | _ => []

/-- The resource that was acquired. -/
def acquired : EventBody → Option String
  | .leaseAcquired lease => some lease.resourceId
  | _ => none

/-- The leases and tokens of the action are those of an intent. -/
def Recorded (journal : List KernelEvent) (acb : ActionControlBlock) : Prop :=
  acb.leaseIds ≠ [] → ∃ event ∈ journal,
    event.body = .actionIntentDurable acb.actionId acb.leaseIds acb.fencingTokens

/-- The lease was acquired before any intent named it, and if it is exclusive
nobody has acquired its resource since. -/
def Standing (journal : List KernelEvent) (lease : ResourceLease) : Prop :=
  ∃ earlier event later, journal = earlier ++ event :: later ∧ acquired event.body = some lease.resourceId ∧
    (∀ old ∈ earlier, lease.leaseId ∉ intended old.body) ∧
    (lease.mode = .exclusive → ∀ new ∈ later, acquired new.body ≠ some lease.resourceId)

structure Fenced (store : KernelStore) : Prop where
  recorded : ∀ acb ∈ store.actions, Recorded store.journal acb
  standing : ∀ lease ∈ store.leases, Standing store.journal lease

theorem Recorded.mono (grows : journal <+: journal') (recorded : Recorded journal acb) : Recorded journal' acb := by
  intro named
  obtain ⟨event, member, intent⟩ := recorded named
  exact ⟨event, grows.subset member, intent⟩

theorem Standing.append (standing : Standing journal lease)
    (untouched : lease.mode = .exclusive → ∀ event ∈ events, acquired event.body ≠ some lease.resourceId) :
    Standing (journal ++ events) lease := by
  obtain ⟨earlier, event, later, rfl, here, before, after⟩ := standing
  refine ⟨earlier, event, later ++ events, by simp, here, before, fun exclusive new member => ?_⟩
  rcases mem_append.mp member with member | member
  · exact after exclusive new member
  exact untouched exclusive new member

/-- An intent that names a standing lease comes after its acquisition. -/
theorem Standing.undisturbed (standing : Standing journal lease)
    (exclusive : lease.mode = .exclusive) (split : journal = earlier ++ event :: later)
    (names : lease.leaseId ∈ intended event.body) : ∀ new ∈ later, acquired new.body ≠ some lease.resourceId := by
  obtain ⟨before, start, since, shape, here, unnamed, after⟩ := standing
  have inside : ∀ new ∈ later, new ∈ since := by
    rw [shape] at split
    rcases append_eq_append_iff.mp split with ⟨more, rfl, rest⟩ | ⟨more, rfl, rest⟩
    · cases more with
      | nil =>
        cases rest
        exact fun new member => member
      | cons head tail =>
        cases rest
        exact fun new member => by simp [member]
    cases more with
    | nil =>
      cases rest
      exact fun new member => member
    | cons head tail =>
      cases rest
      exact absurd names (unnamed event (by simp))
  exact fun new member => after exclusive new (inside new member)

/-! ## Steps that acquire nothing -/

/-- The journal may grow by anything but acquisitions. -/
theorem fenced_of_journals (journals : Journals (fun body => acquired body = none) store store')
    (actions : store'.actions = store.actions) (leases : ∀ lease' ∈ store'.leases,
      ∃ lease ∈ store.leases, lease' = { lease with expiresAt := lease'.expiresAt })
    (fenced : Fenced store) : Fenced store' := by
  refine ⟨fun acb member => ?_, fun lease' member => ?_⟩
  · exact (fenced.recorded acb (actions ▸ member)).mono journals.grows
  obtain ⟨events, grown, quiet⟩ := journals
  obtain ⟨lease, stored, same⟩ := leases lease' member
  rw [grown, same]
  exact (fenced.standing lease stored).append fun _ event inside => by simp [quiet event inside]

theorem fenced_lapse (lapse : Lapse store store') (fenced : Fenced store) : Fenced store' :=
  fenced_of_journals (lapse.journals.mono fun body kind => by cases body <;> first | rfl | cases kind)
    lapse.elsewhere.actions (fun _ => lapse.mem) fenced

theorem fenced_append (quiet : acquired body = none) (fenced : Fenced store) :
    Fenced (appendEvents [⟨pid, body⟩] store) :=
  fenced_of_journals (.one quiet store) rfl (fun lease member => ⟨lease, member, rfl⟩) fenced

/-! ## Acquisitions -/

/-- A granted acquisition keeps the fences, if no intent has named its leases yet. -/
theorem fenced_acquired {ids claims granted} (distinct : (claims.map Prod.fst).Nodup)
    (free : ∀ claim ∈ claims, busy store claim = false) (all : GrantedAll pid ids claims store store granted leases)
    (fresh : ∀ leaseId ∈ ids, ∀ event ∈ store.journal, leaseId ∉ intended event.body)
    (fenced : Fenced store) : Fenced (appendEvents (leases.map fun lease => ⟨pid, .leaseAcquired lease⟩)
      (clearWaiters pid granted)) := by
  have journal : granted.journal = store.journal := by rw [all.others]
  have actions : granted.actions = store.actions := by rw [all.others]
  have resources : leases.map ResourceLease.resourceId = claims.map Prod.fst := by
    rw [← all.named, map_map]
    rfl
  refine ⟨fun acb member => ?_, fun lease member => ?_⟩
  · have stored : acb ∈ store.actions := actions ▸ member
    exact (fenced.recorded acb stored).mono ⟨_, by rw [← journal]; rfl⟩
  change Standing (granted.journal ++ _) lease
  rw [journal]
  have member : lease ∈ store.leases ++ leases := all.rows ▸ member
  rcases mem_append.mp member with old | new
  · -- An exclusive lease stands in the way of every claim on its resource.
    refine (fenced.standing lease old).append fun exclusive event acquires same => ?_
    obtain ⟨other, granted, rfl⟩ := mem_map.mp acquires
    have named : (other.resourceId, other.mode.value) ∈ claims := by
      rw [← all.named]
      exact mem_map_of_mem granted
    have open_ := any_eq_false.mp (free _ named) lease (mem_leasesOn.mpr ⟨old, (Option.some.inj same).symm⟩)
    exact absurd (Or.inr exclusive) (by simpa using open_)
  obtain ⟨before, after, rfl⟩ := append_of_mem new
  refine ⟨store.journal ++ before.map fun lease => ⟨pid, .leaseAcquired lease⟩, ⟨pid, .leaseAcquired lease⟩,
    after.map fun lease => ⟨pid, .leaseAcquired lease⟩, by simp, rfl, ?_, ?_⟩
  · intro event inside
    rcases mem_append.mp inside with inside | inside
    · refine fresh lease.leaseId ?_ event inside
      rw [← all.ids]
      exact mem_map_of_mem new
    · obtain ⟨other, _, rfl⟩ := mem_map.mp inside
      exact not_mem_nil
  · intro _ event inside
    obtain ⟨other, later, rfl⟩ := mem_map.mp inside
    rw [← resources, map_append, map_cons] at distinct
    have apart := (nodup_cons.mp (nodup_append.mp distinct).2.1).1
    exact fun same => apart (Option.some.inj same ▸ mem_map_of_mem later)

/-! ## The contract that a commit checks -/

/-- What holds of a lease that passes. -/
structure Holds (acb : ActionControlBlock) (now : Int) (store : KernelStore) (lease : ResourceLease) :
    Prop where
  stored : lease ∈ store.leases
  owner : lease.ownerPid = acb.pid
  unexpired : now < lease.expiresAt
  recorded : (lookup Prod.fst acb.fencingTokens lease.resourceId).map Prod.snd = some lease.fencingToken
  current : lastToken store lease.resourceId = some lease.fencingToken

theorem leaseError_none (stored : lease ∈ store.leases)
    (passes : leaseError acb now store lease = none) : Holds acb now store lease := by
  unfold leaseError at passes
  split at passes
  · cases passes
  rename_i owner
  split at passes
  · cases passes
  rename_i unexpired
  split at passes
  · cases passes
  rename_i token
  rw [not_or, not_not] at token
  split at passes
  · cases passes
  rename_i current
  exact ⟨stored, not_not.mp owner, not_le.mp unexpired, token.2, not_not.mp current⟩

theorem fencedLeases_ok (ok : fencedLeases acb now store leaseIds = .ok leases) :
    leases.map ResourceLease.leaseId = leaseIds ∧ ∀ lease ∈ leases, Holds acb now store lease := by
  induction leaseIds generalizing leases with
  | nil =>
    cases ok
    exact ⟨rfl, by simp⟩
  | cons leaseId rest ih =>
    obtain ⟨lease, found, ok⟩ := bind_ok.mp ok
    have found := demand_ok.mp found
    cases checked : leaseError acb now store lease with
    | some reason =>
      rw [checked] at ok
      cases ok
    | none =>
      rw [checked] at ok
      obtain ⟨more, later, done⟩ := bind_ok.mp ok
      cases done
      obtain ⟨ids, holds⟩ := ih later
      refine ⟨by rw [map_cons, ids, lookup_key found], forall_mem_cons.mpr ⟨?_, holds⟩⟩
      exact leaseError_none (lookup_mem found) checked

/-- The leases that the contract of an action with claims is about. -/
structure Contract (acb : ActionControlBlock) (now : Int) (store : KernelStore)
    (expected : List (String × String)) (leases : List ResourceLease) : Prop where
  claims : claimed acb.resourceClaims = .ok expected
  ids : leases.map ResourceLease.leaseId = acb.leaseIds
  holds : ∀ lease ∈ leases, Holds acb now store lease
  tokens : ∀ entry ∈ acb.fencingTokens, entry.1 ∈ leases.map ResourceLease.resourceId
  covers : (leased leases).Perm expected

theorem validateFencingContract_none
    (claims : acb.resourceClaims ≠ []) (valid : validateFencingContract acb now store = .ok none) :
    acb.leaseIds ≠ [] ∧ ∃ expected leases, Contract acb now store expected leases := by
  unfold validateFencingContract at valid
  rw [if_neg claims] at valid
  split at valid
  · cases valid
  rename_i counted
  rw [not_or, not_not] at counted
  obtain ⟨expected, named, valid⟩ := bind_ok.mp valid
  split at valid
  · cases valid
  rename_i tokens
  rw [not_not] at tokens
  split at valid
  · cases valid
  rename_i leases passed
  split at valid
  · rename_i covers
    obtain ⟨ids, holds⟩ := fencedLeases_ok passed
    refine ⟨fun empty => claims ?_, expected, leases, named, ids, holds, fun entry member => ?_, covers⟩
    · rw [← length_eq_zero_iff, ← counted.1, empty]
      rfl
    have same : (leases.map ResourceLease.resourceId).Perm (expected.map Prod.fst) := by
      have mapped := covers.map Prod.fst
      rw [leased, map_map] at mapped
      exact mapped
    exact same.mem_iff.mpr (tokens.1 entry member)
  · cases valid

/-- What a commit under a fence promises of the instant at which it happens and
of the time since the intent. -/
structure UnderFence (w : World) (acb : ActionControlBlock) (expected : List (String × String))
    (leases : List ResourceLease) : Prop where
  contract : Contract acb w.clock w.store expected leases
  intent : ∃ event ∈ w.store.journal,
    event.body = .actionIntentDurable acb.actionId acb.leaseIds acb.fencingTokens
  undisturbed : ∀ earlier event later, w.store.journal = earlier ++ event :: later →
    event.body = .actionIntentDurable acb.actionId acb.leaseIds acb.fencingTokens →
    ∀ resourceId, (resourceId, "exclusive") ∈ expected → ∀ new ∈ later, acquired new.body ≠ some resourceId

theorem value_exclusive {mode : LeaseMode} : mode.value = "exclusive" ↔ mode = .exclusive := by
  cases mode <;> decide

theorem underFence_of_valid (fenced : Fenced w.store) (recorded : Recorded w.store.journal acb)
    (claims : acb.resourceClaims ≠ []) (valid : validateFencingContract acb now w.store = .ok none)
    (timely : w.clock ≤ now) : ∃ expected leases, UnderFence w acb expected leases := by
  obtain ⟨named, expected, leases, contract⟩ := validateFencingContract_none claims valid
  refine ⟨expected, leases, ?_, recorded named, fun earlier event later split intent => ?_⟩
  · exact { contract with
      holds := fun lease member =>
        { contract.holds lease member with
          unexpired := timely.trans_lt (contract.holds lease member).unexpired } }
  intro resourceId exclusive
  obtain ⟨lease, member, same⟩ := mem_map.mp (contract.covers.mem_iff.mpr exclusive)
  obtain ⟨rfl, mode⟩ := Prod.mk.inj same
  refine (fenced.standing lease (contract.holds lease member).stored).undisturbed (value_exclusive.mp mode) split ?_
  rw [intent, intended, ← contract.ids]
  exact mem_map_of_mem member

/-! ## The discipline -/

/-- Nothing has happened between the reading of the clock and the transaction
of a commit, and the ids that are drawn for new leases are not in use. -/
def Timely (label : Label) (w : World) : Prop :=
  match label.access with
  | .commit _ now => w.clock ≤ now
  | .acquire leaseIds => ∀ leaseId ∈ leaseIds, ∀ event ∈ w.store.journal, leaseId ∉ intended event.body
  | _ => True

instance : ∀ label w, Decidable (Timely label w)
  | ⟨.commit _ now, _⟩, w => inferInstanceAs (Decidable (w.clock ≤ now))
  | ⟨.acquire leaseIds, _⟩, w => inferInstanceAs (Decidable
      (∀ leaseId ∈ leaseIds, ∀ event ∈ w.store.journal, leaseId ∉ intended event.body))
  | ⟨.other, _⟩, _ | ⟨.append .., _⟩, _ | ⟨.upsert .., _⟩, _ | ⟨.decide _, _⟩, _
  | ⟨.dispatch _, _⟩, _ => isTrue trivial

/-- The step commits the action. -/
def Commits (w w' : World) (acb : ActionControlBlock) : Prop :=
  getAction w.store acb.actionId = some acb ∧ acb.state ≠ .committed ∧
    ∃ acb', getAction w'.store acb.actionId = some acb' ∧ acb'.state = .committed

def Kept (w w' : World) : Prop := w.store.journal <+: w'.store.journal ∧ Fenced w'.store

def discipline : Discipline World Label where
  rely := Kept
  allowed := Timely
  guarantee label w w' := Kept w w' ∧ ∀ actionId now, label.access = .commit actionId now →
    ∀ acb, acb.resourceClaims ≠ [] → Commits w w' acb → ∃ expected leases, UnderFence w acb expected leases

theorem guarantee_of_kept {label} {w'} (kept : Kept w w')
    (other : ∀ actionId now, label.access ≠ .commit actionId now) : discipline.guarantee label w w' :=
  ⟨kept, fun actionId now commits => absurd commits (other actionId now)⟩

/-- What a method journals is no acquisition. -/
theorem acquired_of_revises (revises : Revises acb revised body) : acquired body = none := by
  cases revises with
  | enters result error live legal tells => cases body <;> first | rfl | cases tells
  | intends leaseIds fencingTokens => rfl
  | reserves => rfl

/-- Once its event is in the journal, a revision is on record as well. -/
theorem recorded_of_revises (revises : Revises acb revised body)
    (recorded : Recorded journal acb) : Recorded (journal ++ [⟨pid, body⟩]) revised := by
  have before : Recorded (journal ++ [⟨pid, body⟩]) acb := recorded.mono (prefix_append _ _)
  cases revises with
  | enters result error live legal tells => exact before
  | intends leaseIds fencingTokens => exact fun _ => ⟨_, mem_concat_self, rfl⟩
  | reserves => exact before

theorem fenced_upsertProjection (fenced : Fenced store)
    (recorded : Recorded store.journal acb) : Fenced (upsertProjection acb store) := by
  refine ⟨fun row member => ?_, fenced.standing⟩
  rcases mem_upsert member with rfl | old
  · unfold Recorded
    rw [projected_leaseIds, projected_fencingTokens, projected_actionId]
    exact recorded
  · exact fenced.recorded row old

section
/-- An entry that acquires nothing. -/
theorem safe_append (quiet : acquired body = none) (other : ∀ actionId now, label.access ≠ .commit actionId now) :
    SafeTask discipline (fun _ w' held => held = 0 ∧
      ∃ before, w.store.journal <+: before ∧ w'.store.journal = before ++ [⟨pid, body⟩]) raises
      (appendEvent label pid body) w 0 := by
  refine safe_update fun w' relied _ => ?_
  refine ⟨guarantee_of_kept ⟨prefix_append _ _, fenced_append quiet relied.2⟩ other, 0,
    by simp [discipline], rfl, w'.store.journal, relied.1, rfl⟩

theorem safe_upsert (recorded : Recorded w.store.journal acb)
    (other : ∀ actionId now, label.access ≠ .commit actionId now) :
    SafeTask discipline Any raises (update label (upsertProjection acb)) w 0 := by
  refine safe_update fun w' relied _ => ?_
  have kept := fenced_upsertProjection relied.2 (recorded.mono relied.1)
  exact ⟨guarantee_of_kept ⟨prefix_rfl, kept⟩ other, 0, by simp [discipline], trivial⟩

theorem safe_revise (revising : Revising actionId change) :
    SafeTask discipline Any Any (revise actionId change) w 0 := by
  have read : SafeTask discipline (fun found w held => held = 0 ∧
      ∀ acb, found = some acb → acb.actionId = actionId ∧ Recorded w.store.journal acb)
      Any (query fun store => getAction store actionId) w 0 :=
    safe_query fun w' relied => ⟨guarantee_of_kept ⟨prefix_rfl, relied.2⟩ (by simp), rfl,
      fun acb found => ⟨getAction_actionId found, relied.2.recorded acb (lookup_mem found)⟩⟩
  refine read.bind fun found w held ⟨unspent, known⟩ => ?_
  subst unspent
  cases found with
  | none => trivial
  | some acb =>
    obtain ⟨same, recorded⟩ := known acb rfl
    refine safe_compute (fun _ => trivial) ?_
    rintro ⟨revised, body⟩ changed
    have revises := revising acb revised body same changed
    refine (safe_append (acquired_of_revises revises) (by simp)).bind ?_
    intro _ w' held ⟨unspent, before, grows, journal⟩
    subst unspent
    refine safe_upsert ?_ (by simp)
    rw [journal]
    exact recorded_of_revises revises (recorded.mono grows)

theorem safe_submit (submission : Submission) : SafeTask discipline Any Any (submit submission) w 0 := by
  refine .andThen (.step fun w' relied _ =>
    ⟨guarantee_of_kept ⟨prefix_rfl, relied.2⟩ (by simp), 0, by simp [discipline], rfl⟩) fun draw w => ?_
  refine .andThen (safe_readClock fun w' relied =>
    ⟨guarantee_of_kept ⟨prefix_rfl, relied.2⟩ (by simp), rfl⟩) fun now w => ?_
  refine (safe_append rfl (by simp)).bind fun _ w held ⟨unspent, _⟩ => ?_
  subst unspent
  -- A new action has no leases to account for.
  refine (safe_upsert (fun named => absurd rfl named) (by simp)).bind fun _ _ _ _ => trivial

/-- A conditional method writes what a three-step one would. -/
theorem kept_conditionalTx (fenced : Fenced w.store)
    (revises : ∀ acb, acb.actionId = actionId → acb.state = .running → Revises acb (change acb).1 (change acb).2)
    (ran : Session.transaction (conditionalTx actionId forbids change) w.store = (result, store')) :
    Kept w { w with store := store' } := by
  rcases conditionalTx_cases ran with ⟨rfl, _⟩ | ⟨acb, found, running, _, _, rfl⟩
  · exact ⟨prefix_rfl, fenced⟩
  have revised := revises acb (getAction_actionId found) running
  exact ⟨prefix_append _ _, fenced_upsertProjection (fenced_append (acquired_of_revises revised) fenced)
      (recorded_of_revises revised (fenced.recorded acb (lookup_mem found)))⟩

theorem safe_commit : SafeTask discipline Any Any (commitIfFenced actionId result now) w 0 := by
  refine safe_transaction fun w' outcome store' relied timely ran => ⟨⟨?_, ?_⟩, 0, by simp [discipline],
    by cases outcome <;> trivial⟩
  · refine kept_conditionalTx relied.2 (fun acb same running => ?_) ran
    exact .of_running _ _ rfl rfl same running
  rintro _ _ _ acb claims ⟨found, open_, acb', committed, final⟩
  rcases conditionalTx_cases ran with ⟨rfl, _⟩ | ⟨row, hit, _, valid, _, rfl⟩
  · rw [found] at committed
    cases committed
    exact absurd final open_
  by_cases same : acb.actionId = actionId
  · rw [same, hit] at found
    cases found
    exact underFence_of_valid relied.2 (relied.2.recorded acb (lookup_mem hit)) claims valid timely
  rw [getAction_upsertProjection, if_neg (by rw [getAction_actionId hit]; exact same)] at committed
  rw [getAction_appendEvents, found] at committed
  cases committed
  exact absurd final open_

end

theorem supports : Supports discipline fun w => Fenced w.store where
  relied _ _ _ relied := relied.2
  idle w fenced := guarantee_of_kept ⟨prefix_rfl, fenced⟩ (by simp)
  revise w actionId change _ revising := safe_revise revising
  submit w submission _ := safe_submit submission
  decide w actionId forbids change _ revises := safe_transaction fun w' result store' relied _ ran =>
    ⟨guarantee_of_kept (kept_conditionalTx relied.2 revises ran) (by simp), 0, by simp [discipline],
      by cases result <;> trivial⟩
  commit w actionId result now _ := safe_commit

/-! ## Calls of the lease service -/

theorem safe_of_lapse {task : KernelTask α} (lapses : AlwaysTask (OnStore Lapse) task) :
    SafeTask discipline Any Any task w 0 := by
  refine .of_always lapses trivial fun label _ w _ _ relied _ ⟨other, store', lapse, same⟩ => ?_
  subst same
  exact ⟨guarantee_of_kept ⟨lapse.journals.grows, fenced_lapse lapse relied.2⟩ (by simp [other]), le_rfl, trivial⟩

theorem safe_atomicAcquire (draw : ℕ → String) :
    SafeTask discipline Any Any (atomicAcquire pid claims draw ttl) w 0 := by
  unfold atomicAcquire
  split
  · exact safe_of_lapse (always_clearWaitersForPid.bind fun _ => .pure _)
  refine safe_compute (fun _ => trivial) fun names named => ?_
  refine (safe_transaction fun w' result store' relied fresh ran =>
    ⟨guarantee_of_kept ?_ (by simp), 0, by simp [discipline], by cases result <;> trivial⟩).andThen
    fun acquisition w => safe_of_lapse always_concludeAcquire
  have distinct := (nameClaims_nodup named).1
  refine ⟨(LeaseFrame.acquireTx distinct ran).journals.grows, ?_⟩
  rcases acquireTx_cases distinct ran with ⟨rfl, _⟩ | ⟨leases, granted, _, free, all, rfl, _⟩
  · exact relied.2
  exact fenced_acquired distinct free all fresh relied.2

theorem safe_leaseCall (call : LeaseCall) : SafeTask discipline Any Any call.task w 0 := by
  cases call with
  | acquire pid claims draw ttl => exact safe_atomicAcquire draw
  | release leaseIds =>
    exact safe_of_lapse (always_release.bind fun _ => .pure _)
  | releaseAllForPid pid =>
    exact safe_of_lapse (always_releaseAllForPid.bind fun _ => .pure _)
  | renew leaseId ttl =>
    exact safe_of_lapse (always_renew.bind fun _ => .pure _)
  | reclaimExpired now =>
    exact safe_of_lapse (always_reclaimExpired.bind fun _ => .pure _)
  | processes rows =>
    exact (safe_update fun w' relied _ =>
      ⟨guarantee_of_kept ⟨prefix_rfl, ⟨relied.2.recorded, relied.2.standing⟩⟩ (by simp), 0,
        by simp [discipline], rfl⟩).andThen fun _ _ => trivial

/-! ## Runs -/

theorem admits : discipline.Admits (fun w => Fenced w.store) setClock ServiceCall.program where
  trans _ _ _ first second := ⟨first.1.trans second.1, second.2⟩
  guaranteed _ _ _ _ guaranteed := ⟨guaranteed.1.2, guaranteed.1⟩
  acts _ _ fenced := ⟨fenced, ⟨prefix_rfl, fenced⟩, le_rfl⟩
  self _ fenced := ⟨prefix_rfl, fenced⟩
  enters w call fenced := by
    cases call with
    | lease call => exact (safe_leaseCall call).launch
    | action call => exact (supports.call fenced call).launch

/-- In every interleaving in which no time passes between the reading of the
clock for a commit and its transaction, an action with claims is committed under
its fence only: its process holds the leases of the intent at that instant, and
nobody has acquired an exclusively claimed resource since the intent. -/
theorem timely_commits_are_fenced {events before later : List (Event Int ServiceCall)} {index : ℕ}
    {client : Program World Label Unit} {label : Label} {actionId : String} {now : Int}
    {acb : ActionControlBlock}
    (timely : services.Meets (fun _ w client => ∀ label, client.label? = some label → Timely label w)
      {} events) (split : events = before ++ .step index :: later)
    (turn : (services.conduct {} before).clients[index]? = some client)
    (next : client.label? = some label) (through : label.access = .commit actionId now)
    (claims : acb.resourceClaims ≠ []) (commits : Commits (services.conduct {} before).shared
      (services.conduct {} (before ++ [.step index])).shared acb) :
    ∃ expected leases, UnderFence (services.conduct {} before).shared acb expected leases := by
  cases client with
  | ret a => cases next
  | step here write rest =>
    cases next
    have empty : Fenced ({} : World).store := ⟨by simp, by simp⟩
    obtain ⟨_, _, promised⟩ := conduct_step admits empty timely split turn
    refine promised actionId now through acb claims ?_
    rw [Machine.conduct_append, Machine.next, turn] at commits
    exact commits

/-! ## A schedule -/

def writing : Submission :=
  { pid := "p", deviceType := "tool/mock", operation := "write",
    resourceClaims := [{ resourceId := some "r" }], actionId := some "a" }

/-- An action with one exclusive claim is brought to `RUNNING`, and its commit
reads the clock. -/
def untilCommit : List (Event Int ServiceCall) :=
  whole 0 1 (.lease (.acquire "p" [{ resourceId := some "r" }] (fun _ => "lease") 300)) ++
  whole 1 4 (.action (.submit writing)) ++
  whole 2 3 (.action (.admitAction "a")) ++
  whole 3 3 (.action (.markIntentDurable "a" ["lease"] (some [("r", 1)]))) ++
  whole 4 3 (.action (.dispatch "a")) ++
  .act 299 :: whole 5 1 (.action (.commitIfFenced "a" [] none))

def runningAction : ActionControlBlock :=
  { actionId := "a", pid := "p", deviceType := "tool/mock", operation := "write", state := .running,
    resourceClaims := [{ resourceId := some "r" }], leaseIds := ["lease"], fencingTokens := [("r", 1)] }

/-- The committing transaction, when the clock shows another time. -/
def commitAt (now : Int) : List (Event Int ServiceCall) := untilCommit ++ [.act now]

theorem commitAt_commits : Commits (services.conduct {} (commitAt now)).shared
    (services.conduct {} (commitAt now ++ [.step 5])).shared runningAction := by
  refine ⟨?_, by decide, { runningAction with state := .committed }, ?_, rfl⟩
  · rw [commitAt, Machine.conduct_append]
    change getAction (services.conduct {} untilCommit).shared.store "a" = _
    decide +kernel
  · rw [Machine.conduct_append, commitAt, Machine.conduct_append]
    rfl

/-- The lease has expired when the action is committed: the clock was read
before the transaction began. -/
theorem late_commit_is_not_fenced : Commits (services.conduct {} (commitAt 301)).shared
      (services.conduct {} (commitAt 301 ++ [.step 5])).shared runningAction ∧
    ∀ expected leases, ¬ UnderFence (services.conduct {} (commitAt 301)).shared runningAction expected leases := by
  refine ⟨commitAt_commits, fun expected leases fenced => ?_⟩
  have stored : ∀ lease ∈ (services.conduct {} (commitAt 301)).shared.store.leases,
      lease.expiresAt = 300 := by decide +kernel
  obtain ⟨lease, rest, rfl⟩ : ∃ lease rest, leases = lease :: rest := by
    have ids := fenced.contract.ids
    cases leases with
    | nil => cases ids
    | cons lease rest => exact ⟨lease, rest, rfl⟩
  have holds := fenced.contract.holds lease mem_cons_self
  have unexpired : (301 : Int) < lease.expiresAt := holds.unexpired
  rw [stored lease holds.stored] at unexpired
  exact absurd unexpired (by decide)

theorem prompt_commit_is_fenced : ∃ expected leases,
    UnderFence (services.conduct {} (commitAt 299)).shared runningAction expected leases := by
  have turn : ((services.conduct {} (commitAt 299)).clients[5]?).bind Program.label? =
      some { access := .commit "a" 299 } := rfl
  obtain ⟨client, found, next⟩ := Option.bind_eq_some_iff.mp turn
  have timely : services.Meets (fun _ w client => ∀ label, client.label? = some label → Timely label w) {}
      (commitAt 299 ++ [.step 5]) := meets_of_tests (by decide +kernel)
  exact timely_commits_are_fenced timely rfl found next rfl (by decide) commitAt_commits

end LongHorizonOS.FencedCommit
