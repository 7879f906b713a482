import LongHorizonOS.ArtifactService
import LongHorizonOS.LeaseExclusion

/-! Handles for writing. A handle for writing or appending comes with an exclusive
lease on its artifact, and the lease service keeps exclusive leases on one resource
apart. What has to be added is that the leases of two handles are two leases: a
lease id is drawn once, serves for one acquisition, and goes into one handle. -/
namespace LongHorizonOS.WriteHandles
open KeyedRows FailFast AtomicPrograms Interleaving FencedLock KernelModels KernelTasks List
open LeaseService LeaseSpec LeaseExclusion ArtifactUri ArtifactModels ArtifactService

section
variable {γ : Type}

/-! ## The invariant -/

/-- The leases whose acquisition the journal tells of. -/
def acquired (journal : List KernelEvent) : List ResourceLease :=
  journal.filterMap fun event =>
    match event.body with
    | .leaseAcquired lease => some lease
    | _ => none

/-- The lease keeps other writers away from the artifact of the handle. -/
def Protects (lease : ResourceLease) (handle : ArtifactHandle) : Prop :=
  handle.leaseId = some lease.leaseId ∧ lease.resourceId = "artifact:" ++ handle.artifactId ∧
    lease.mode = .exclusive

/-- What the handles and the leases say at all times. -/
structure Accurate (w : FsWorld γ) : Prop where
  locks : ∀ resourceId, Sound reading (lockOf w.kernel.store resourceId)
  handleIds : (w.tables.handles.map ArtifactHandle.handleId).Nodup
  drawn : ∀ handle ∈ w.tables.handles, ∃ index < w.kernel.drawn, handle.handleId = uuid index
  told : ∀ row ∈ w.kernel.store.leases, ∃ lease ∈ acquired w.kernel.store.journal,
    row = { lease with expiresAt := row.expiresAt }
  leased : ∀ handle ∈ w.tables.handles, handle.mode ≠ .read →
    ∃ lease ∈ acquired w.kernel.store.journal, Protects lease handle

/-- What is once there stays. -/
structure Grows (w w' : FsWorld γ) : Prop where
  drawn : w.kernel.drawn ≤ w'.kernel.drawn
  acquired : ∀ lease ∈ acquired w.kernel.store.journal, lease ∈ acquired w'.kernel.store.journal
  handles : ∀ handleId ∈ w.tables.handles.map ArtifactHandle.handleId,
    handleId ∈ w'.tables.handles.map ArtifactHandle.handleId

theorem Grows.refl (w : FsWorld γ) : Grows w w := ⟨le_rfl, fun _ => id, fun _ => id⟩

theorem Grows.trans (first : Grows w w') (second : Grows w' w'') : Grows w w'' :=
  ⟨first.drawn.trans second.drawn, fun _ told => second.acquired _ (first.acquired _ told),
    fun _ stored => second.handles _ (first.handles _ stored)⟩

/-! ## Credits -/

/-- An id may be used twice once it was drawn. -/
def granted (leaseId : String) (drawn : ℕ) : ℤ := if leaseId ∈ (List.range drawn).map uuid then 2 else 0

/-- How often the id of a lease was used: by an acquisition and by a handle. -/
def uses (leaseId : String) (w : FsWorld γ) : ℕ :=
  (acquired w.kernel.store.journal).countP (fun lease => decide (lease.leaseId = leaseId)) +
    w.tables.handles.countP fun handle => decide (handle.leaseId = some leaseId)

def credit (leaseId : String) (w : FsWorld γ) : ℤ := granted leaseId w.kernel.drawn - uses leaseId w

theorem granted_mono (leaseId) (more : drawn ≤ drawn') : granted leaseId drawn ≤ granted leaseId drawn' := by
  unfold granted
  split
  · rename_i old
    obtain ⟨index, below, named⟩ := mem_map.mp old
    rw [if_pos (mem_map.mpr ⟨index, mem_range.mpr ((mem_range.mp below).trans_le more), named⟩)]
  · split <;> decide

/-- The id that is drawn next was not drawn before. -/
theorem granted_next : granted (uuid drawn) drawn = 0 ∧ granted (uuid drawn) (drawn + 1) = 2 := by
  refine ⟨if_neg fun old => ?_, if_pos (mem_map_of_mem (mem_range.mpr (Nat.lt_succ_self drawn)))⟩
  obtain ⟨index, below, named⟩ := mem_map.mp old
  exact (mem_range.mp below).ne (uuid_injective named)

/-! ## Steps -/

/-- Who opens an artifact for writing finds it recorded. -/
def Known : FsAccess → FsWorld γ → Prop
  | .lookUp canonicalUri mode, w => mode = .read ∨ w.tables.getArtifactByUri canonicalUri ≠ none
  | _, _ => True

instance (access : FsAccess) (w : FsWorld γ) : Decidable (Known access w) :=
  match access with
  | .lookUp .. => inferInstanceAs (Decidable (_ ∨ _))
  | .other | .kernel _ | .insertVersion .. | .advance .. | .conclude .. | .revise .. => isTrue trivial

def discipline (leaseId : String) : Discipline (FsWorld γ) FsAccess where
  rely w w' := Grows w w' ∧ Accurate w'
  allowed := Known
  guarantee _ w w' := Grows w w' ∧ Accurate w'
  credit := credit leaseId

/-- No lease is granted, and no handle is touched. -/
structure Calm (w w' : FsWorld γ) : Prop where
  drawn : w.kernel.drawn ≤ w'.kernel.drawn
  handles : w'.tables.handles = w.tables.handles
  lapse : Lapse w.kernel.store w'.kernel.store

theorem acquired_append :
    acquired (journal ++ events) = acquired journal ++ acquired events := filterMap_append

theorem acquired_lapse (lapse : Lapse store store') : acquired store'.journal = acquired store.journal := by
  obtain ⟨events, grown, kinds⟩ := lapse.journals
  have none : acquired events = [] := by
    refine filterMap_eq_nil_iff.mpr fun event member => ?_
    have kind := kinds event member
    cases body : event.body <;> simp_all [lapseEvent]
  rw [grown, acquired_append, none, append_nil]

theorem Calm.keeps (accurate : Accurate w) (calm : Calm w w') : Grows w w' ∧ Accurate w' := by
  obtain ⟨drawn, handles, lapse⟩ := calm
  have told := acquired_lapse lapse
  refine ⟨⟨drawn, by rw [told]; exact fun _ => id, by rw [handles]; exact fun _ => id⟩, ?_⟩
  constructor
  case locks => exact fun resourceId => (lapse.moves resourceId).sound (accurate.locks resourceId)
  case handleIds => exact handles ▸ accurate.handleIds
  case drawn =>
    intro handle member
    obtain ⟨index, below, named⟩ := accurate.drawn handle (handles ▸ member)
    exact ⟨index, below.trans_le drawn, named⟩
  case told =>
    intro row member
    obtain ⟨old, stored, same⟩ := lapse.mem member
    obtain ⟨lease, tells, shape⟩ := accurate.told old stored
    refine ⟨lease, told ▸ tells, ?_⟩
    rw [same, shape]
  case leased =>
    intro handle member writes
    rw [told]
    exact accurate.leased handle (handles ▸ member) writes

theorem Calm.credit_le (calm : Calm w w') : credit leaseId w ≤ credit leaseId w' := by
  have more := granted_mono leaseId calm.drawn
  unfold credit uses
  rw [acquired_lapse calm.lapse, calm.handles]
  omega

/-- The world after one more id was drawn. -/
def withDrawn (w : FsWorld γ) : FsWorld γ :=
  { w with kernel := { w.kernel with drawn := w.kernel.drawn + 1 } }

theorem calm_withDrawn : Calm w (withDrawn w) := ⟨Nat.le_succ _, rfl, .refl _⟩

theorem credit_withDrawn : (((if uuid w.kernel.drawn = leaseId then 2 else 0 : ℕ) : ℕ) : ℤ) - ((0 : ℕ) : ℤ) ≤
    credit leaseId (withDrawn w) - credit leaseId w := by
  by_cases mine : uuid w.kernel.drawn = leaseId
  · obtain ⟨before, after⟩ := granted_next
    rw [mine] at before after
    rw [if_pos mine, credit, credit, before]
    change _ ≤ granted leaseId (w.kernel.drawn + 1) - uses leaseId w - _
    rw [after]
    omega
  · have funded : credit leaseId w ≤ credit leaseId (withDrawn w) := calm_withDrawn.credit_le
    rw [if_neg mine]
    omega

/-! ### An acquisition -/

/-- The lease on an artifact that an acquisition has granted. Who holds it has a use
of its id left. -/
def Grants (leaseId artifactId : String) (leases : List ResourceLease) (w : FsWorld γ) (held : ℕ) : Prop :=
  ∃ lease, leases = [lease] ∧ lease ∈ acquired w.kernel.store.journal ∧
    lease.resourceId = "artifact:" ++ artifactId ∧ lease.mode = .exclusive ∧
    held = if lease.leaseId = leaseId then 1 else 0

/-- The world with another database of the kernel. -/
def withStore (w : FsWorld γ) (store : KernelStore) : FsWorld γ := { w with kernel := { w.kernel with store } }

/-- The transaction of an acquisition for one artifact. -/
theorem acquireTx_one (accurate : Accurate w)
    (ran : Session.transaction (acquireTx pid [(resourceId, "exclusive")] draw ttl now) w.kernel.store =
      (result, store')) : (store' = w.kernel.store ∧ ∀ leases, result ≠ .ok (.granted leases)) ∨
    ∃ lease, result = .ok (.granted [lease]) ∧ lease.leaseId = draw 0 ∧ lease.resourceId = resourceId ∧
      lease.mode = .exclusive ∧ acquired store'.journal = acquired w.kernel.store.journal ++ [lease] ∧
      Accurate (withStore w store') := by
  have distinct : (([(resourceId, "exclusive")] : List (String × String)).map Prod.fst).Nodup := nodup_singleton _
  rcases acquireTx_cases distinct ran with unchanged | ⟨leases, grantedStore, rfl, free, all, rfl, -⟩
  · exact .inl unchanged
  right
  obtain ⟨lease, rfl⟩ : ∃ lease, leases = [lease] := by
    have one := congrArg List.length all.named
    rw [length_map] at one
    exact length_eq_one_iff.mp one
  have named : (lease.resourceId, lease.mode.value) = (resourceId, "exclusive") := head_eq_of_cons_eq all.named
  have exclusive : lease.mode = .exclusive := by
    have value := congrArg Prod.snd named
    cases mode : lease.mode with
    | exclusive => rfl
    | shared =>
      rw [mode] at value
      change LeaseMode.shared.value = "exclusive" at value
      exact absurd value (by decide)
  have journal : grantedStore.journal = w.kernel.store.journal := by rw [all.others]
  have tells : acquired (grantedStore.journal ++ [⟨pid, .leaseAcquired lease⟩]) =
      acquired w.kernel.store.journal ++ [lease] := by
    rw [acquired_append, journal]
    rfl
  refine ⟨lease, rfl, head_eq_of_cons_eq all.ids, congrArg Prod.fst named, exclusive, tells, ?_⟩
  constructor
  case locks =>
    have moves : Moves w.kernel.store grantedStore :=
      have done : Acquired pid w.kernel { w.kernel with store := grantedStore } [lease] :=
        ⟨_, _, grantedStore, distinct, free, all, rfl, rfl⟩
      done.moves
    exact fun resourceId => (moves resourceId).sound (accurate.locks resourceId)
  case handleIds => exact accurate.handleIds
  case drawn => exact accurate.drawn
  case told =>
    intro row member
    change row ∈ grantedStore.leases at member
    rw [all.rows] at member
    change ∃ other ∈ acquired (grantedStore.journal ++ [⟨pid, .leaseAcquired lease⟩]), _
    rw [tells]
    rcases mem_append.mp member with old | new
    · obtain ⟨lease, told, shape⟩ := accurate.told row old
      exact ⟨lease, mem_append_left _ told, shape⟩
    rw [mem_singleton.mp new]
    exact ⟨lease, mem_append_right _ (mem_singleton_self _), rfl⟩
  case leased =>
    intro handle member writes
    obtain ⟨other, told, protects⟩ := accurate.leased handle member writes
    change ∃ other ∈ acquired (grantedStore.journal ++ [⟨pid, .leaseAcquired lease⟩]), _
    rw [tells]
    exact ⟨other, mem_append_left _ told, protects⟩

/-! ### Handles -/

/-- The world after a handle was inserted under an id of its own. -/
def withHandle (w : FsWorld γ) (handle : ArtifactHandle) : FsWorld γ :=
  { w with
    kernel := { w.kernel with drawn := w.kernel.drawn + 1 }
    tables := { w.tables with handles := w.tables.handles ++ [handle] } }

theorem Accurate.fresh (accurate : Accurate w) :
    uuid w.kernel.drawn ∉ w.tables.handles.map ArtifactHandle.handleId := by
  intro taken
  obtain ⟨handle, member, named⟩ := mem_map.mp taken
  obtain ⟨index, below, drawn⟩ := accurate.drawn handle member
  exact below.ne (uuid_injective (drawn.symm.trans named))

theorem Accurate.withHandle (accurate : Accurate w) (named : handle.handleId = uuid w.kernel.drawn)
    (leased : handle.mode ≠ .read → ∃ lease ∈ acquired w.kernel.store.journal, Protects lease handle) :
    Grows w (withHandle w handle) ∧ Accurate (withHandle w handle) := by
  refine ⟨⟨Nat.le_succ _, fun _ => id, fun handleId member => ?_⟩, ?_⟩
  · exact (map_append ▸ mem_append_left _ member :)
  constructor
  case locks => exact accurate.locks
  case handleIds =>
    change ((w.tables.handles ++ [handle]).map _).Nodup
    rw [map_append]
    exact nodup_append_single accurate.handleIds (named ▸ accurate.fresh)
  case drawn =>
    intro other member
    rcases mem_append.mp member with old | new
    · obtain ⟨index, below, drawn⟩ := accurate.drawn other old
      exact ⟨index, below.trans (Nat.lt_succ_self _), drawn⟩
    rw [mem_singleton.mp new]
    exact ⟨w.kernel.drawn, Nat.lt_succ_self _, named⟩
  case told => exact accurate.told
  case leased =>
    intro other member writes
    rcases mem_append.mp member with old | new
    · exact accurate.leased other old writes
    rw [mem_singleton.mp new] at writes ⊢
    exact leased writes

/-- The id of the lease of the new handle is used once more. -/
theorem credit_withHandle (leaseId : String) (w : FsWorld γ) (handle : ArtifactHandle) :
    credit leaseId w - (if handle.leaseId = some leaseId then 1 else 0) ≤ credit leaseId (withHandle w handle) := by
  have more : granted leaseId w.kernel.drawn ≤ granted leaseId (w.kernel.drawn + 1) :=
    granted_mono leaseId (Nat.le_succ _)
  have counts : (w.tables.handles ++ [handle]).countP (fun handle => decide (handle.leaseId = some leaseId)) =
      w.tables.handles.countP (fun handle => decide (handle.leaseId = some leaseId)) +
        if handle.leaseId = some leaseId then 1 else 0 := by
    rw [countP_append, countP_singleton]
    simp only [decide_eq_true_eq]
  unfold credit uses
  simp only [withHandle, counts]
  by_cases mine : handle.leaseId = some leaseId
  · simp only [if_pos mine]
    omega
  simp only [if_neg mine]
  omega

/-- The world after the handle was closed. -/
def withClosed (w : FsWorld γ) (handle : ArtifactHandle) : FsWorld γ :=
  { w with tables := w.tables.upsertHandle { handle with closed := true } }

theorem withClosed_handles (accurate : Accurate w)
    (stored : handle.handleId ∈ w.tables.handles.map ArtifactHandle.handleId) :
    ∃ close : ArtifactHandle → ArtifactHandle, (withClosed w handle).tables.handles = w.tables.handles.map close ∧
      ∀ other, close other = { other with closed := (close other).closed } := by
  have inPlace : (withClosed w handle).tables.handles =
      modify ArtifactHandle.handleId handle.handleId (fun old => { old with closed := true }) w.tables.handles := by
    have here : ({ handle with closed := true } : ArtifactHandle).handleId ∈
        w.tables.handles.map ArtifactHandle.handleId := stored
    rw [withClosed, ArtifactTables.upsertHandle_found accurate.handleIds here]
  refine ⟨_, inPlace, fun other => ?_⟩
  split <;> rfl

theorem Accurate.withClosed (leaseId) (accurate : Accurate w)
    (stored : handle.handleId ∈ w.tables.handles.map ArtifactHandle.handleId) :
    (Grows w (withClosed w handle) ∧ Accurate (withClosed w handle)) ∧
      credit leaseId (withClosed w handle) = credit leaseId w := by
  obtain ⟨close, handles, closes⟩ := withClosed_handles accurate stored
  have ids : (WriteHandles.withClosed w handle).tables.handles.map ArtifactHandle.handleId =
      w.tables.handles.map ArtifactHandle.handleId := by
    rw [handles, map_map]
    exact map_congr_left fun other _ => by rw [Function.comp, closes other]
  refine ⟨⟨⟨le_rfl, fun _ => id, by rw [ids]; exact fun _ => id⟩, ?_⟩, ?_⟩
  · constructor
    case locks => exact accurate.locks
    case handleIds => exact ids ▸ accurate.handleIds
    case drawn =>
      intro other member
      rw [handles] at member
      obtain ⟨old, listed, rfl⟩ := mem_map.mp member
      obtain ⟨index, below, named⟩ := accurate.drawn old listed
      exact ⟨index, below, by rw [closes old]; exact named⟩
    case told => exact accurate.told
    case leased =>
      intro other member writes
      rw [handles] at member
      obtain ⟨old, listed, rfl⟩ := mem_map.mp member
      rw [closes old] at writes ⊢
      exact accurate.leased old listed writes
  · have counts : (w.tables.handles.map close).countP (fun handle => decide (handle.leaseId = some leaseId)) =
        w.tables.handles.countP fun handle => decide (handle.leaseId = some leaseId) := by
      rw [countP_map]
      refine countP_congr fun other _ => ?_
      rw [Function.comp, closes other]
    unfold credit uses
    rw [handles, counts]
    rfl

/-! ## Methods -/

section
variable {α : Type}

/-- A task that touches no handle and acquires nothing keeps its credits, and what
stays true. -/
theorem safe_calm {K : FsWorld γ → Prop} (stable : ∀ w w', K w → Grows w w' → K w')
    (calm : AlwaysTask (fun _ => Calm) task) (known : K w) :
    SafeTask (discipline leaseId) (fun _ w held' => K w ∧ held' = held) Any task w held := by
  refine (SafeTask.of_always (I := fun w held' => K w ∧ held' = held) calm ⟨known, rfl⟩ ?_).mono
    (fun _ _ _ kept => kept) fun _ _ _ _ => trivial
  intro _ w w' w'' ⟨known, same⟩ ⟨grows, accurate⟩ _ step
  have keeps := step.keeps accurate
  exact ⟨keeps, step.credit_le, stable w' w'' (stable w w' known grows) keeps.1, same⟩

/-- Nothing needs to be known. -/
theorem safe_calmly (calm : AlwaysTask (fun _ => Calm) task) :
    SafeTask (discipline leaseId) (fun _ _ held' => held' = held) Any task w held :=
  (safe_calm (K := fun _ => True) (fun _ _ _ _ => trivial) calm trivial).mono
    (fun _ _ _ kept => kept.2) fun _ _ _ _ => trivial

theorem calm_reads (reads : AlwaysTask Reads task) : AlwaysTask (fun _ => Calm) task := by
  refine .mono (fun access w w' ⟨_, same⟩ => ?_) reads
  rw [same]
  exact ⟨le_rfl, rfl, .refl _⟩

theorem calm_tell : AlwaysTask (fun _ => Calm) (tell event : FsTask γ Unit) :=
  .step fun _ => ⟨le_rfl, rfl, .refl _⟩

theorem calm_lapse {task} (lapse : AlwaysTask (OnStore Lapse) task) :
    AlwaysTask (fun _ => Calm) (kernel task : FsTask γ α) := by
  refine always_kernel (fun label kernel' w step => ?_) lapse
  obtain ⟨_, store', lapse, rfl⟩ := step
  exact ⟨le_rfl, rfl, lapse⟩

/-- The id that is drawn can be used twice. -/
theorem safe_drawOne : SafeTask (discipline leaseId)
    (fun draw (_ : FsWorld γ) held => held = if draw 0 = leaseId then 2 else 0) Any (kernel (drawIds 1)) w 0 := by
  rw [drawIds, kernel_atomic]
  refine .step fun w' ⟨_, accurate⟩ _ => ?_
  exact ⟨calm_withDrawn.keeps accurate, _, credit_withDrawn, rfl⟩

/-- The transaction uses the id once. -/
theorem safe_acquireTx (funded : held = if draw 0 = leaseId then 2 else 0) : SafeTask (discipline leaseId)
    (fun acquisition w held => ∀ leases, acquisition = .granted leases → Grants leaseId artifactId leases w held)
    Any (kernel (transaction { access := .acquire [draw 0] }
        (acquireTx pid [("artifact:" ++ artifactId, "exclusive")] draw ttl)) : FsTask γ Acquisition) w held := by
  rw [transaction, Task.transaction, kernel_atomic]
  refine .step fun w' ⟨_, accurate⟩ _ => ?_
  rw [transaction_inStore]
  rcases ran : Session.transaction (acquireTx pid [("artifact:" ++ artifactId, "exclusive")] draw ttl
    w'.kernel.clock) w'.kernel.store with ⟨result, store'⟩
  rcases acquireTx_one accurate ran with ⟨rfl, denied⟩ | ⟨lease, rfl, named, resource, exclusive, told, after⟩
  · refine ⟨⟨.refl w', accurate⟩, held, by simp [discipline], ?_⟩
    cases result with
    | error failure => trivial
    | ok acquisition => exact fun leases same => absurd (congrArg Except.ok same) (denied leases)
  have grows : Grows w' (withStore w' store') :=
    ⟨le_rfl, fun other member => told ▸ mem_append_left _ member, fun _ => id⟩
  refine ⟨⟨grows, after⟩, if lease.leaseId = leaseId then 1 else 0, ?_, ?_⟩
  · change _ ≤ credit leaseId (withStore w' store') - credit leaseId w'
    rw [funded, ← named]
    have counts : (acquired store'.journal).countP (fun other => decide (other.leaseId = leaseId)) =
        (acquired w'.kernel.store.journal).countP (fun other => decide (other.leaseId = leaseId)) +
          if lease.leaseId = leaseId then 1 else 0 := by
      rw [told, countP_append, countP_singleton]
      simp only [decide_eq_true_eq]
    simp only [credit, uses, withStore, counts]
    by_cases mine : lease.leaseId = leaseId
    · simp only [if_pos mine]
      omega
    simp only [if_neg mine]
    omega
  · rintro leases ⟨⟩
    refine ⟨lease, rfl, ?_, resource, exclusive, rfl⟩
    rw [told]
    exact mem_append_right _ (mem_singleton_self _)

/-- What follows the transaction hands the leases on or raises. -/
theorem safe_concludeAcquire
    (granted : ∀ leases, acquisition = .granted leases → Grants leaseId artifactId leases w held) :
    SafeTask (discipline leaseId) (fun leases w held => Grants leaseId artifactId leases w held) Any
    (kernel (concludeAcquire pid acquisition)) w held := by
  cases acquisition with
  | granted leases => exact granted leases rfl
  | denied resourceId mode =>
    unfold concludeAcquire
    rw [kernel_bind]
    refine (safe_calmly (calm_lapse always_clearWaitersForPid)).bind fun _ w held _ => ?_
    rw [kernel_bind]
    refine (safe_calmly (calm_lapse always_addWaiter)).bind fun _ w held _ => ?_
    rw [kernel_bind]
    refine (safe_calmly (calm_lapse (always_onStore fun store => .appendEvent ?_ store))).bind fun _ w held _ => ?_
    · trivial
    exact trivial

theorem safe_acquireWriteLease :
    SafeTask (discipline leaseId) (fun leases w held => Grants leaseId artifactId leases w held) Any
    (acquireWriteLease pid artifactId) w 0 := by
  refine safe_drawOne.bind fun draw w held funded => ?_
  have shape : atomicAcquire pid [{ resourceId := some ("artifact:" ++ artifactId), mode := some "exclusive" }]
      draw defaultLeaseTtl =
      (transaction { access := .acquire [draw 0] }
        (acquireTx pid [("artifact:" ++ artifactId, "exclusive")] draw defaultLeaseTtl) >>= concludeAcquire pid) :=
    rfl
  rw [shape, kernel_bind]
  exact (safe_acquireTx funded).bind fun acquisition w held granted => safe_concludeAcquire granted

/-! ### Opening and closing -/

/-- The lease of a new handle, if it has one, protects it and has a use left. -/
def Backed (leaseId artifactId : String) (mode : HandleMode) (leases : List ResourceLease) (w : FsWorld γ)
    (held : ℕ) : Prop :=
  if mode = .read then leases = [] ∧ held = 0 else Grants leaseId artifactId leases w held

theorem safe_insertHandle (backed : Backed leaseId artifact.artifactId mode leases w held) :
    SafeTask (discipline leaseId) Any Any (insertHandle pid artifact mode expectedVersion leases) w held := by
  refine .step fun w' ⟨grows, accurate⟩ _ => ?_
  dsimp only
  rw [ArtifactTables.upsertHandle_new accurate.fresh]
  set handle : ArtifactHandle :=
    { handleId := uuid w'.kernel.drawn, pid, artifactId := artifact.artifactId, mode
      openedVersion := if mode = .write then none else some artifact.currentVersion
      expectedVersion, leaseId := leases.head?.map ResourceLease.leaseId } with shape
  have spent := credit_withHandle leaseId w' handle
  unfold Backed at backed
  split at backed
  · rename_i reads
    obtain ⟨rfl, rfl⟩ := backed
    refine ⟨accurate.withHandle rfl fun writes => absurd reads writes, 0, ?_, trivial⟩
    rw [if_neg (by simp [shape])] at spent
    change _ ≤ credit leaseId (withHandle w' handle) - credit leaseId w'
    omega
  obtain ⟨lease, rfl, told, resource, exclusive, rfl⟩ := backed
  refine ⟨accurate.withHandle rfl fun _ => ⟨lease, grows.acquired lease told, rfl, resource, exclusive⟩, 0, ?_,
    trivial⟩
  change _ ≤ credit leaseId (withHandle w' handle) - credit leaseId w'
  have same : handle.leaseId = some lease.leaseId := rfl
  rw [same] at spent
  by_cases mine : lease.leaseId = leaseId
  · rw [if_pos mine]
    push_cast
    omega
  rw [if_neg fun equal => mine (Option.some.inj equal)] at spent
  rw [if_neg mine]
  push_cast
  omega

theorem safe_leaseFor :
    SafeTask (discipline leaseId) (fun leases w held => Backed leaseId artifactId mode leases w held)
    Any (leaseFor pid artifactId [] mode) w 0 := by
  unfold leaseFor Backed
  split
  · exact ⟨rfl, rfl⟩
  exact safe_acquireWriteLease

theorem safe_openHandle : SafeTask (discipline leaseId) Any Any
    (openHandle rules pid uri mode expectedVersion : FsTask γ ArtifactHandle) w 0 := by
  refine (safe_calmly (calm_reads reads_resolveAndCheck)).bind fun canonical w held none => ?_
  subst none
  refine (safe_calmly (calm_reads reads_fetch)).bind fun count w held none => ?_
  subst none
  split
  · exact trivial
  have finds : SafeTask (discipline leaseId)
      (fun found (_ : FsWorld γ) held => (mode = .read ∨ found ≠ none) ∧ held = 0) Any
      (findForOpen canonical mode) w 0 :=
    .step fun w' ⟨_, accurate⟩ known => ⟨⟨.refl w', accurate⟩, 0, by simp, known, rfl⟩
  refine finds.bind fun found w held ⟨known, unspent⟩ => ?_
  subst unspent
  have unneeded : preacquire pid found mode = (pure [] : FsTask γ (List ResourceLease)) :=
    if_neg fun ⟨missing, writes⟩ => known.elim writes fun present => present missing
  rw [unneeded]
  cases found with
  | none =>
    have reads : mode = .read := known.elim id fun present => absurd rfl present
    have missing : findOrCreate pid canonical none mode =
        (throw (.artifactNotFound canonical.canonical) : FsTask γ ArtifactRecord) := if_pos reads
    rw [missing]
    exact trivial
  | some artifact =>
    refine safe_leaseFor.bind fun leases w held backed => ?_
    refine (safe_insertHandle backed).bind fun handle w held _ => ?_
    exact (safe_calmly calm_tell).bind fun _ w held _ => trivial

theorem calm_releaseFor : AlwaysTask (fun _ => Calm) (releaseFor handle : FsTask γ Unit) := by
  unfold releaseFor
  split
  · exact .pure _
  split
  · exact .pure _
  exact calm_lapse always_release

theorem safe_close : SafeTask (discipline leaseId) Any Any (close handleId : FsTask γ Bool) w held := by
  have finds : SafeTask (discipline leaseId) (fun found (w : FsWorld γ) _ => ∀ handle ∈ found,
        handle.handleId ∈ w.tables.handles.map ArtifactHandle.handleId) Any
      (fetch fun tables => tables.getHandle handleId) w held :=
    safe_fetch fun w' ⟨_, accurate⟩ => ⟨⟨.refl w', accurate⟩, fun handle found =>
      mem_map_of_mem (lookup_mem found)⟩
  refine finds.bind fun found w held stored => ?_
  cases found with
  | none => exact trivial
  | some handle =>
    dsimp only
    split
    · exact trivial
    have closes : SafeTask (discipline leaseId) Any Any
        (save .other fun tables => tables.upsertHandle { handle with closed := true }) w held := by
      refine safe_save fun w' ⟨grows, accurate⟩ _ => ?_
      obtain ⟨keeps, same⟩ := accurate.withClosed leaseId (grows.handles _ (stored handle rfl))
      exact ⟨keeps, held, (sub_self _).trans_le (sub_nonneg.mpr same.ge), trivial⟩
    refine closes.bind fun _ w held _ => ?_
    refine (safe_calmly calm_releaseFor).bind fun _ w held _ => ?_
    exact (safe_calmly calm_tell).bind fun _ w held _ => trivial

theorem safe_closeAllForPid : SafeTask (discipline leaseId) Any Any (closeAllForPid pid : FsTask γ Unit) w held := by
  refine (safe_calmly (calm_reads reads_fetch)).bind fun handles w held _ => ?_
  refine .forM (I := fun _ _ => True) (fun handle _ w held _ => ?_) trivial
  exact safe_close.bind fun _ _ _ _ => trivial

end

/-! ## Runs -/

inductive HandleCall where
  | openHandle (pid uri : String) (mode : HandleMode) (expectedVersion : Option Int)
  | close (handleId : String)
  | closeAllForPid (pid : String)
  | reclaimExpired (now : Int)

def HandleCall.program (rules : TextRules) : HandleCall → Program (FsWorld γ) FsAccess Unit
  | .openHandle pid uri mode expectedVersion =>
    (ArtifactService.openHandle rules pid uri mode expectedVersion).launch
  | .close handleId => (ArtifactService.close handleId).launch
  | .closeAllForPid pid => (ArtifactService.closeAllForPid pid).launch
  | .reclaimExpired now => (kernel (LeaseService.reclaimExpired now)).launch

/-- What the other services write in the meantime. Leases can also end in other ways
than those of this service. -/
structure Elsewhere where
  clock : Int
  /-- How many ids are drawn. -/
  draws : ℕ
  /-- The leases that stay. -/
  keeps : ResourceLease → Bool
  processes : List ProcessControlBlock
  capabilitySets : List (String × List Capability)
  artifacts : List ArtifactRecord
  namespaces : List ArtifactNamespace
  mounts : List NamespaceMount

def happen (w : FsWorld γ) (other : Elsewhere) : FsWorld γ :=
  { w with
    kernel := { w.kernel with
      clock := other.clock
      drawn := w.kernel.drawn + other.draws
      store := { w.kernel.store with
        leases := w.kernel.store.leases.filter other.keeps
        processes := other.processes
        capabilitySets := other.capabilitySets } }
    tables := { w.tables with
      artifacts := other.artifacts, namespaces := other.namespaces, mounts := other.mounts } }

def holders (rules : TextRules) : Machine (FsWorld γ) (Program (FsWorld γ) FsAccess Unit) Elsewhere HandleCall :=
  machine happen (HandleCall.program rules)

/-- An open handle for writing whose lease is still there. -/
def Writing (w : FsWorld γ) (handle : ArtifactHandle) : Prop :=
  handle ∈ w.tables.handles ∧ handle.closed = false ∧ handle.mode ≠ .read ∧
    ∃ lease ∈ w.kernel.store.leases, handle.leaseId = some lease.leaseId

theorem happen_keeps (accurate : Accurate w) :
    (Grows w (happen w other) ∧ Accurate (happen w other)) ∧ credit leaseId w ≤ credit leaseId (happen w other) := by
  have rows : Lapse w.kernel.store { w.kernel.store with leases := w.kernel.store.leases.filter other.keeps } :=
    ⟨.of_eq rfl, ⟨rfl, rfl, rfl, rfl, rfl, rfl⟩, rfl, Option.guard other.keeps,
      (congrFun filterMap_eq_filter.symm _).trans rfl, fun lease lease' kept => by
        obtain ⟨rfl, -⟩ := Option.guard_eq_some_iff.mp kept
        rfl⟩
  have calm : Calm w (withStore { w with kernel := { w.kernel with drawn := w.kernel.drawn + other.draws } }
      { w.kernel.store with leases := w.kernel.store.leases.filter other.keeps }) :=
    ⟨Nat.le_add_right _ _, rfl, rows⟩
  have keeps := calm.keeps accurate
  refine ⟨⟨⟨keeps.1.drawn, keeps.1.acquired, keeps.1.handles⟩, ?_⟩, calm.credit_le⟩
  exact ⟨keeps.2.locks, keeps.2.handleIds, keeps.2.drawn, keeps.2.told, keeps.2.leased⟩

theorem admits (rules : TextRules) (leaseId : String) :
    (discipline leaseId).Admits (Accurate (γ := γ)) happen (HandleCall.program rules) where
  trans _ _ _ first second := ⟨first.1.trans second.1, second.2⟩
  guaranteed _ _ _ _ keeps := ⟨keeps.2, keeps⟩
  acts w other accurate := by
    obtain ⟨keeps, funded⟩ := happen_keeps accurate
    exact ⟨keeps.2, keeps, funded⟩
  self w accurate := ⟨.refl w, accurate⟩
  enters w call _ := by
    cases call with
    | openHandle pid uri mode expectedVersion => exact safe_openHandle.launch
    | close handleId => exact safe_close.launch
    | closeAllForPid pid => exact safe_closeAllForPid.launch
    | reclaimExpired now => exact (safe_calmly (calm_lapse always_reclaimExpired)).launch

/-- Two entries that a list counts at most once are the same. -/
theorem eq_of_countP_le_one {counts} {items : List α} {a b : α}
    (once : items.countP counts ≤ 1) (member : a ∈ items) (member' : b ∈ items)
    (counted : counts a = true) (counted' : counts b = true) : a = b := by
  rw [countP_eq_length_filter] at once
  have inside := mem_filter.mpr ⟨member, counted⟩
  have inside' := mem_filter.mpr ⟨member', counted'⟩
  obtain ⟨only, shape⟩ := length_eq_one_iff.mp (le_antisymm once (length_pos_of_mem inside))
  rw [shape, mem_singleton] at inside inside'
  rw [inside, inside']

/-- A lease that is left on the id of a handle is the one that protects it. -/
theorem Accurate.protects (accurate : Accurate w) (few : ∀ leaseId, uses leaseId w ≤ 2)
    (member : handle ∈ w.tables.handles) (writes : handle.mode ≠ .read) {row}
    (stored : row ∈ w.kernel.store.leases) (named : handle.leaseId = some row.leaseId) :
    row ∈ leasesOn w.kernel.store ("artifact:" ++ handle.artifactId) ∧ row.mode = .exclusive := by
  obtain ⟨lease, told, same, resource, exclusive⟩ := accurate.leased handle member writes
  obtain ⟨lease', told', shape⟩ := accurate.told row stored
  have id : lease.leaseId = row.leaseId := Option.some.inj (same.symm.trans named)
  have id' : lease'.leaseId = row.leaseId := by rw [shape]
  have used : 0 < w.tables.handles.countP fun handle => decide (handle.leaseId = some row.leaseId) :=
    countP_pos_iff.mpr ⟨handle, member, decide_eq_true named⟩
  have bound := few row.leaseId
  unfold uses at bound
  have once : (acquired w.kernel.store.journal).countP (fun lease => decide (lease.leaseId = row.leaseId)) ≤ 1 := by
    omega
  obtain rfl := eq_of_countP_le_one once told told' (decide_eq_true id) (decide_eq_true id')
  refine ⟨mem_leasesOn.mpr ⟨stored, ?_⟩, ?_⟩
  · rw [shape]
    exact resource
  rw [shape]
  exact exclusive

theorem Accurate.one_writer (accurate : Accurate w) (few : ∀ leaseId, uses leaseId w ≤ 2) {handle'}
    (writing : Writing w handle) (writing' : Writing w handle')
    (same : handle.artifactId = handle'.artifactId) : handle = handle' := by
  obtain ⟨member, -, writes, row, stored, named⟩ := writing
  obtain ⟨member', -, writes', row', stored', named'⟩ := writing'
  obtain ⟨here, exclusive⟩ := accurate.protects few member writes stored named
  obtain ⟨here', -⟩ := accurate.protects few member' writes' stored' named'
  rw [← same] at here'
  -- The two leases are on one resource, so they are one lease.
  have rows : row = row' := by
    have alone := (accurate.locks _).alone row here (by simpa [reading] using exclusive)
    change (leasesOn w.kernel.store _).length ≤ 1 at alone
    obtain ⟨only, shape⟩ := length_eq_one_iff.mp (le_antisymm alone (length_pos_of_mem here))
    rw [shape, mem_singleton] at here here'
    rw [here, here']
  subst rows
  -- Its id was acquired once, which leaves one use for a handle.
  obtain ⟨lease, told, id, -⟩ := accurate.leased handle member writes
  have used : 0 < (acquired w.kernel.store.journal).countP fun lease => decide (lease.leaseId = row.leaseId) :=
    countP_pos_iff.mpr ⟨lease, told, decide_eq_true (Option.some.inj (id.symm.trans named))⟩
  have bound := few row.leaseId
  unfold uses at bound
  have once : w.tables.handles.countP (fun handle => decide (handle.leaseId = some row.leaseId)) ≤ 1 := by omega
  exact eq_of_countP_le_one once member member' (decide_eq_true named) (decide_eq_true named')

/-- In every interleaving in which whoever opens an artifact for writing finds it
recorded, no artifact has two open handles for writing with their leases. -/
theorem recorded_artifacts_have_one_writer (rules : TextRules) {events : List (Event Elsewhere HandleCall)}
    (known : (holders rules).Meets
      (fun _ w client => ∀ access, client.label? = some access → Known access w) ({} : FsWorld γ) events)
    {handle handle' : ArtifactHandle}
    (writing : Writing ((holders rules).conduct ({} : FsWorld γ) events).shared handle)
    (writing' : Writing ((holders rules).conduct ({} : FsWorld γ) events).shared handle')
    (same : handle.artifactId = handle'.artifactId) : handle = handle' := by
  have initial : Accurate ({} : FsWorld γ) := ⟨fun _ => sound_free, .nil, nofun, nofun, nofun⟩
  have accurate := (conduct_accounted (admits rules "") initial known).1
  refine accurate.one_writer (fun leaseId => ?_) writing writing' same
  obtain ⟨-, held, accounted⟩ := conduct_accounted (admits rules leaseId) initial known
  have backed := accounted.backed
  generalize ((machine happen (HandleCall.program rules)).conduct ({} : FsWorld γ) events) = system at backed ⊢
  have most : granted leaseId system.shared.kernel.drawn ≤ 2 := by
    unfold granted
    split <;> decide
  change _ ≤ credit leaseId system.shared - 0 at backed
  unfold credit at backed
  omega

end

/-! ## Schedules -/

instance {γ : Type} (w : FsWorld γ) (handle : ArtifactHandle) : Decidable (Writing w handle) :=
  inferInstanceAs (Decidable (_ ∧ _ ∧ _ ∧ _))

/-- Two processes may write in the namespace of the first, which has these artifacts. -/
def workspace (artifacts : List ArtifactRecord) : Event Elsewhere HandleCall :=
  .act
    { clock := 0, draws := 0, keeps := fun _ => true, processes := [], artifacts, mounts := []
      capabilitySets := ["p", "q"].map fun pid =>
        (pid, [{ resourcePattern := "artifact://ns-p/**", operations := ["read", "write"] }])
      namespaces := [{ namespaceId := "ns-p", ownerPid := "p", rootUri := "artifact://ns-p/",
                       quotaBytes := none, maxOpenHandles := none }] }

/-- The call runs from its first step to its last. -/
def completes (index : ℕ) (call : HandleCall) : List (Event Elsewhere HandleCall) :=
  .enter call :: List.replicate 16 (.step index)

/-- Both processes open the file for writing, one after the other. -/
def opensTwice (artifacts : List ArtifactRecord) : List (Event Elsewhere HandleCall) :=
  workspace artifacts :: (completes 0 (.openHandle "p" "artifact://ns-p/f" .write none) ++
    completes 1 (.openHandle "q" "artifact://ns-p/f" .write none))

def runs (events : List (Event Elsewhere HandleCall)) : FsWorld Unit :=
  ((holders plainRules).conduct {} events).shared

/-- The first handle for a new artifact has a lease on an id that was made up for it, and
not on the artifact. The second one gets the lease on the artifact. -/
theorem new_artifact_has_two_writers :
    ∃ handle ∈ (runs (opensTwice [])).tables.handles, ∃ handle' ∈ (runs (opensTwice [])).tables.handles,
      Writing (runs (opensTwice [])) handle ∧ Writing (runs (opensTwice [])) handle' ∧
        handle.artifactId = handle'.artifactId ∧ handle ≠ handle' := by
  decide +kernel

/-- The artifact `"a"` as a writer has left it. -/
def written : ArtifactRecord :=
  { artifactId := "a", namespaceId := "ns-p", canonicalUri := "artifact://ns-p/f", createdByPid := "p"
    currentVersion := 1 }

/-- The handle that the first process gets for it. -/
def firstHandle : ArtifactHandle :=
  { handleId := "uu", pid := "p", artifactId := "a", mode := .write, openedVersion := none
    expectedVersion := none, leaseId := some "u" }

theorem recorded_artifact_has_one_writer : Writing (runs (opensTwice [written])) firstHandle ∧
    ∀ handle ∈ (runs (opensTwice [written])).tables.handles, Writing (runs (opensTwice [written])) handle →
      handle.artifactId = "a" → handle = firstHandle := by
  have known : (holders plainRules).Meets
      (fun _ w client => ∀ access, client.label? = some access → Known access w) ({} : FsWorld Unit)
      (opensTwice [written]) := meets_of_tests (by decide +kernel)
  have first : Writing (runs (opensTwice [written])) firstHandle := by decide +kernel
  refine ⟨first, fun handle _ writing same => ?_⟩
  exact recorded_artifacts_have_one_writer plainRules known writing first same

end LongHorizonOS.WriteHandles
