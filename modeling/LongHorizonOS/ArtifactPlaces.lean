import LongHorizonOS.ArtifactReplay
import LongHorizonOS.CanonicalUris

/-! Where artifacts are. A record is found by the text of its canonical URI, and
its namespace is a column of its own; that the two agree is not checked anywhere.
It holds while no `/` gets into the name of a namespace, which the pid of a writer
and the source of a mount decide. -/
namespace LongHorizonOS.ArtifactPlaces
open KeyedRows FailFast AtomicPrograms Interleaving KernelModels KernelTasks List
open ArtifactUri ArtifactModels ArtifactService ArtifactRuns ArtifactReplay CanonicalUris

/-! ## Names of namespaces -/

/-- A name that cannot be confused with a namespace and a part of a path. -/
def Plain (name : String) : Prop := '/' ∉ name.toList

instance (name : String) : Decidable (Plain name) := inferInstanceAs (Decidable (_ ∉ _))

/-- The name of a namespace can be read off a canonical text. -/
theorem canonicalText_namespace (first : Plain a) (second : Plain b)
    (same : canonicalText a path = canonicalText b path') : a = b := by
  have text (name path : String) : (canonicalText name path).toList =
      "artifact://".toList ++ (name.toList ++ '/' :: path.toList) := by
    simp [canonicalText, String.toList_append]
  have joined := congrArg String.toList same
  rw [text, text] at joined
  have split := congrArg splitSlash (append_cancel_left joined)
  rw [splitSlash_named _ first, splitSlash_named _ second] at split
  exact String.toList_inj.mp (Prod.mk.inj (Option.some.inj split)).1

theorem plain_namespaceOf (plain : Plain pid) : Plain (namespaceOf pid) := by
  intro found
  rw [namespaceOf, String.toList_append] at found
  exact (mem_append.mp found).elim (by decide) plain

/-- The canonical text names the namespace. -/
def Names (canonical : CanonicalUri) : Prop :=
  Plain canonical.namespaceId ∧ canonical.canonical = canonicalText canonical.namespaceId canonical.path

theorem names_resolved {rules pid uri} {canonical} (plain : Plain pid)
    (resolved : resolveWorkspaceUri rules uri (namespaceOf pid) = .ok canonical) : Names canonical := by
  unfold resolveWorkspaceUri at resolved
  obtain ⟨parsed, accepted, chosen⟩ := bind_ok.mp resolved
  obtain ⟨slash, text, -⟩ := canonicalizeUri_ok accepted
  split at chosen
  · cases chosen
    exact ⟨plain_namespaceOf plain, rfl⟩
  cases chosen
  exact ⟨slash, text⟩

/-! ## Placed records -/

section
variable {γ : Type} {w w' : FsWorld γ}

/-- The URI of the record names its namespace. -/
def Located (record : ArtifactRecord) : Prop :=
  Plain record.namespaceId ∧ ∃ path, record.canonicalUri = canonicalText record.namespaceId path

/-- A record that may be written. -/
def Fits (record : ArtifactRecord) (w : FsWorld γ) : Prop :=
  Located record ∧ ∃ index < w.kernel.drawn, record.artifactId = uuid index

structure Placed (w : FsWorld γ) : Prop where
  ids : (w.tables.artifacts.map ArtifactRecord.artifactId).Nodup
  fits : ∀ record ∈ w.tables.artifacts, Fits record w
  sources : ∀ mount ∈ w.tables.mounts, Plain mount.sourceNamespaceId

theorem Fits.later (fits : Fits record w) (drawn : w.kernel.drawn ≤ w'.kernel.drawn) :
    Fits record w' := ⟨fits.1, drawn_later fits.2 drawn⟩

theorem Placed.fresh (placed : Placed w) : uuid w.kernel.drawn ∉ w.tables.artifacts.map ArtifactRecord.artifactId :=
  uuid_fresh fun record member => (placed.fits record member).2

/-- The step writes no record and adds no mount. -/
structure Leaves (w w' : FsWorld γ) : Prop where
  drawn : w.kernel.drawn ≤ w'.kernel.drawn
  artifacts : w'.tables.artifacts = w.tables.artifacts
  mounts : ∀ mount ∈ w'.tables.mounts, mount ∈ w.tables.mounts

abbrev LeavesTask {α : Type} (task : FsTask γ α) : Prop := AlwaysTask (fun _ => Leaves) task

theorem Placed.leaves (placed : Placed w) (leaves : Leaves w w') : Placed w' where
  ids := leaves.artifacts ▸ placed.ids
  fits record member := (placed.fits record (leaves.artifacts ▸ member)).later leaves.drawn
  sources mount member := placed.sources mount (leaves.mounts mount member)

/-- A record that fits is written over one with its id, which keeps its place, or added. -/
theorem Placed.upsertArtifact (placed : Placed w) (drawn : w.kernel.drawn ≤ w'.kernel.drawn)
    (fits : Fits record w') (written : w.tables.upsertArtifact record = .ok tables)
    (same : w'.tables = tables) : Placed w' := by
  unfold ArtifactTables.upsertArtifact at written
  split at written
  · cases written
  cases written
  have artifacts := congrArg ArtifactTables.artifacts same
  refine ⟨?_, fun other member => ?_, ?_⟩
  · rw [artifacts]
    dsimp only
    refine nodup_upsertWith ?_ placed.ids
    exact fun _ same => same
  · rw [artifacts] at member
    dsimp only [upsertWith] at member
    split at member
    · exact forall_append_single (fun other old => (placed.fits other old).later drawn) fits other member
    rename_i old found
    rcases mem_upsert member with rfl | kept
    · obtain ⟨located, named⟩ := (placed.fits old (lookup_mem found)).later drawn
      exact ⟨located, named⟩
    · exact (placed.fits other kept).later drawn
  · rw [same]
    exact placed.sources

/-! ## The discipline -/

/-- Ids are only drawn, and the records stay placed. -/
def placing : Discipline (FsWorld γ) FsAccess where
  rely w w' := w.kernel.drawn ≤ w'.kernel.drawn ∧ Placed w'
  guarantee _ w w' := w.kernel.drawn ≤ w'.kernel.drawn ∧ Placed w'

/-- The task keeps the records placed, and what it returns satisfies the assertion. -/
def Lays {α : Type} (post : α → FsWorld γ → Prop) (task : FsTask γ α) (w : FsWorld γ) : Prop :=
  ∀ held, SafeTask placing (fun a w _ => post a w) (fun _ _ _ => True) task w held

namespace Lays
variable {α β : Type}

theorem pure {a : α} (holds : post a w) : Lays post (Pure.pure a) w := fun _ => holds

theorem throw (failure) : Lays post (MonadExcept.throw failure) w := fun _ => trivial

theorem bind (head : Lays post first w)
    (tail : ∀ a w, post a w → Lays post' (rest a) w) : Lays post' (first >>= rest) w := fun held =>
  (head held).bind fun a w held holds => tail a w holds held

theorem andThen (head : Lays (fun _ _ => True) first w)
    (tail : ∀ a w, Lays post' (rest a) w) : Lays post' (first >>= rest) w := head.bind fun a w _ => tail a w

variable {K : FsWorld γ → Prop}

theorem forM {ι : Type} {items : List ι} {turn}
    (turns : ∀ item ∈ items, ∀ w, K w → Lays (fun _ => K) (turn item) w) (known : K w) :
    Lays (fun _ => K) (items.forM turn) w := fun _ =>
  .forM (fun item listed w held known => turns item listed w known held) known

/-- A task that leaves the records alone keeps what only needs ids to be drawn. -/
theorem leaves {task : FsTask γ α}
    (stable : ∀ w w' : FsWorld γ, w.kernel.drawn ≤ w'.kernel.drawn → K w → K w') (known : K w)
    (leaves : LeavesTask task) : Lays (fun _ w => K w) task w := fun _ =>
  .mono (.of_always (I := fun w _ => K w) leaves known
    fun _ w _ w'' known relied _ step =>
      ⟨⟨step.drawn, relied.2.leaves step⟩, le_rfl, stable w w'' (relied.1.trans step.drawn) known⟩)
    (fun _ _ _ known => known) fun _ _ _ _ => trivial

theorem quietly {task : FsTask γ α} (left : LeavesTask task) :
    Lays (fun _ _ => True) task w := leaves (fun _ _ _ _ => trivial) trivial left

theorem skip (left : LeavesTask first)
    (tail : ∀ a w, Lays post' (rest a) w) : Lays post' (first >>= rest) w := (quietly left).andThen tail

/-- A query gives records that fit. -/
theorem fetch {read} (reads : ∀ w', w.kernel.drawn ≤ w'.kernel.drawn → Placed w' →
    post (read w'.tables) w') : Lays post (ArtifactService.fetch read) w := fun _ =>
  safe_fetch fun w' relied => ⟨⟨le_rfl, relied.2⟩, reads w' relied.1 relied.2⟩

/-- A record that fits may be written. -/
theorem attempt (fits : Fits record w) :
    Lays (fun _ _ => True) (ArtifactService.attempt access fun tables => tables.upsertArtifact record) w :=
  fun held => .step fun w' relied _ => by
    dsimp only
    split
    · exact ⟨⟨le_rfl, relied.2⟩, held, by simp [placing], trivial⟩
    rename_i tables written
    have placed : Placed { w' with tables } := relied.2.upsertArtifact le_rfl (fits.later relied.1) written rfl
    exact ⟨⟨le_rfl, placed⟩, held, by simp [placing], trivial⟩

end Lays

/-! ## What leaves the records alone -/

section
variable {α : Type}

theorem leaves_reads {task : FsTask γ α} (reads : AlwaysTask Reads task) : LeavesTask task :=
  .mono (fun _ w _ same => by
    obtain ⟨-, rfl⟩ := same
    exact ⟨le_rfl, rfl, fun _ => id⟩) reads

theorem leaves_look {read : FsWorld γ → α} : LeavesTask (look read) := leaves_reads reads_look

theorem leaves_fetch {read} : LeavesTask (fetch read : FsTask γ α) :=
  leaves_reads reads_fetch

theorem leaves_tell {event} : LeavesTask (tell event : FsTask γ Unit) :=
  .step fun _ => ⟨le_rfl, rfl, fun _ => id⟩

theorem leaves_drive {access : Storage γ → α × Storage γ} : LeavesTask (drive access) :=
  .step fun _ => ⟨le_rfl, rfl, fun _ => id⟩

theorem leaves_save {access} {change} (artifacts : ∀ tables, (change tables).artifacts = tables.artifacts)
    (mounts : ∀ tables, ∀ mount ∈ (change tables).mounts, mount ∈ tables.mounts) :
    LeavesTask (save access change : FsTask γ Unit) :=
  .step fun w => ⟨le_rfl, artifacts w.tables, mounts w.tables⟩

/-- A row of another table is inserted. -/
theorem leaves_insertNew {make} {insert} (inserts : ∀ row tables tables', insert row tables = .ok tables' →
      tables'.artifacts = tables.artifacts ∧ tables'.mounts = tables.mounts) :
    LeavesTask (insertNew make insert : FsTask γ ρ) :=
  .step fun w => by
    dsimp only
    split
    · exact ⟨Nat.le_succ _, rfl, fun _ => id⟩
    rename_i tables written
    obtain ⟨artifacts, mounts⟩ := inserts _ _ _ written
    exact ⟨Nat.le_succ _, artifacts, fun _ member => mounts ▸ member⟩

theorem leaves_kernel (grows : AlwaysTask (fun _ => Grown) task) : LeavesTask (kernel task : FsTask γ α) :=
  always_kernel (fun _ _ _ grown => ⟨grown.drawn, rfl, fun _ => id⟩) grows

theorem leaves_send : LeavesTask (kernel (SignalService.send targetPid signalType sourcePid payload) : FsTask γ _) :=
  leaves_kernel (grows_send _ _ _ _)

theorem leaves_acquireWriteLease : LeavesTask (acquireWriteLease pid artifactId : FsTask γ (List ResourceLease)) :=
  (leaves_kernel (grows_drawIds 1)).bind fun _ => leaves_kernel (grows_atomicAcquire _ _)

variable (pid : String)

theorem leaves_preacquire {found} : LeavesTask (preacquire pid found mode : FsTask γ (List ResourceLease)) := by
  unfold preacquire
  split
  · refine .bind ?_ fun artifactId => leaves_acquireWriteLease
    exact (leaves_kernel (grows_drawIds 1)).bind fun _ => .pure _
  · exact .pure _

theorem leaves_leaseFor {pid artifactId} {preacquired} :
    LeavesTask (leaseFor pid artifactId preacquired mode : FsTask γ (List ResourceLease)) := by
  unfold leaseFor
  split
  · exact .pure _
  split
  · exact leaves_acquireWriteLease
  exact .pure _

theorem leaves_insertHandle {artifact} {expected} {leases} :
    LeavesTask (insertHandle pid artifact mode expected leases : FsTask γ ArtifactHandle) :=
  leaves_insertNew fun _ _ _ written => by
    cases written
    exact ⟨rfl, rfl⟩

theorem leaves_findForOpen {canonical} : LeavesTask (findForOpen canonical mode : FsTask γ (Option ArtifactRecord)) :=
  .step fun _ => ⟨le_rfl, rfl, fun _ => id⟩

theorem leaves_close {handleId} : LeavesTask (close handleId : FsTask γ Bool) := by
  refine leaves_fetch.bind fun found => ?_
  cases found with
  | none => exact .pure _
  | some handle =>
    dsimp only
    split
    · exact .pure _
    refine .bind (leaves_save (fun _ => rfl) fun _ _ => id) fun _ => ?_
    refine .bind ?_ fun _ => leaves_tell.bind fun _ => .pure _
    unfold releaseFor
    split
    · exact .pure _
    split
    · exact .pure _
    exact leaves_kernel (grows_release _)

theorem leaves_closeAllForPid : LeavesTask (closeAllForPid pid : FsTask γ Unit) :=
  leaves_fetch.bind fun _ => .forM fun _ =>
    leaves_close.bind fun _ => .pure _

theorem leaves_reviseTransaction {found written event} :
    LeavesTask (reviseTransaction found written event : FsTask γ Unit) :=
  .bind (leaves_save (fun _ => rfl) fun _ _ => id) fun _ => leaves_tell

theorem leaves_stage {digest : Digest γ} {content : γ} : LeavesTask (stage digest transactionId content) := by
  refine leaves_fetch.bind fun found => ?_
  cases found with
  | none => exact .throw _
  | some txn =>
    dsimp only
    split
    · exact .throw _
    refine leaves_drive.bind fun _ => ?_
    refine (leaves_reads reads_overQuota).bind fun message => ?_
    cases message with
    | some message => exact leaves_drive.bind fun _ => .throw _
    | none => exact leaves_reviseTransaction.bind fun _ => .pure _

theorem leaves_abort : LeavesTask (abort transactionId : FsTask γ WriteTransaction) := by
  refine leaves_fetch.bind fun found => ?_
  cases found with
  | none => exact .throw _
  | some txn =>
    dsimp only
    split
    · exact .pure _
    refine leaves_drive.bind fun _ => ?_
    exact leaves_reviseTransaction.bind fun _ => .pure _

theorem leaves_notifyWatches {newVersion} :
    LeavesTask (notifyWatches canonicalUri newVersion writerPid : FsTask γ Unit) := by
  refine leaves_fetch.bind fun watches => .forM fun watch => ?_
  split
  · exact leaves_send.bind fun _ => .pure _
  exact .pure _

theorem leaves_watch {pid uriPrefix} : LeavesTask (watch pid uriPrefix : FsTask γ ArtifactWatch) := by
  refine (leaves_insertNew fun _ _ _ written => ?_).bind fun _ =>
    leaves_tell.bind fun _ => .pure _
  cases written
  exact ⟨rfl, rfl⟩

theorem leaves_unwatch {watchId} : LeavesTask (unwatch watchId : FsTask γ Bool) :=
  .bind (leaves_save (fun _ => rfl) fun _ _ => id) fun _ => .pure _

theorem leaves_createNamespace {quotaBytes maxOpenHandles} :
    LeavesTask (createNamespace pid quotaBytes maxOpenHandles : FsTask γ ArtifactNamespace) := by
  refine leaves_fetch.bind fun found => ?_
  cases found with
  | some existing => exact .pure _
  | none =>
    refine .bind (leaves_save (fun _ => rfl) fun _ _ => id) fun _ => ?_
    exact leaves_tell.bind fun _ => .pure _

theorem leaves_setQuota {namespaceId} {quotaBytes} : LeavesTask (setQuota namespaceId quotaBytes : FsTask γ Unit) := by
  refine leaves_fetch.bind fun found => ?_
  cases found with
  | none => exact .throw _
  | some ns => exact .bind (leaves_save (fun _ => rfl) fun _ _ => id) fun _ => leaves_tell

theorem leaves_unmount {targetPid mountPoint} : LeavesTask (unmount targetPid mountPoint : FsTask γ Bool) := by
  refine leaves_fetch.bind fun mounts => ?_
  dsimp only
  split
  · exact .pure _
  refine .bind (leaves_save (fun _ => rfl) fun _ _ member => ?_) fun _ => ?_
  · exact (mem_filter.mp member).1
  exact leaves_tell.bind fun _ => .pure _

end

/-! ## What writes them -/

section
theorem pickMount_mem {path} {mount} (picked : pickMount mounts path = some mount) : mount ∈ mounts := by
  have folds (mounts : List NamespaceMount) (best : Option NamespaceMount) (mount : NamespaceMount)
      (picked : mounts.foldl (fun best mount =>
        if below mount.mountPoint.toList path.toList &&
            best.all fun held => decide (held.mountPoint.length < mount.mountPoint.length)
        then some mount else best) best = some mount) : best = some mount ∨ mount ∈ mounts := by
    induction mounts generalizing best with
    | nil => exact .inl picked
    | cons first mounts ih =>
      rcases ih _ picked with chosen | later
      · dsimp only at chosen
        split at chosen
        · cases chosen
          exact .inr mem_cons_self
        · exact .inl chosen
      · exact .inr (mem_cons_of_mem _ later)
  exact (folds mounts none mount picked).resolve_left nofun

theorem names_throughMounts (sources : ∀ mount ∈ mounts, Plain mount.sourceNamespaceId) (names : Names canonical) :
    Names (throughMounts mounts canonical) := by
  unfold throughMounts
  split
  · exact names
  rename_i mount picked
  split
  · exact names
  exact ⟨sources mount (pickMount_mem picked), rfl⟩

theorem Placed.listed (placed : Placed w) (namespaceId) :
    ∀ mount ∈ w.tables.listMounts namespaceId, Plain mount.sourceNamespaceId := fun mount member =>
  placed.sources mount (mem_filter.mp ((mem_insertionSort _).mp member)).1

/-- Wherever a URI leads, the name of the namespace is plain. -/
theorem lays_resolveAndCheck (plain : Plain pid) :
    Lays (fun canonical _ => Names canonical) (resolveAndCheck rules pid uri mode) w := by
  unfold resolveAndCheck
  cases resolved : resolveWorkspaceUri rules uri (namespaceOf pid) with
  | error failure => exact fun _ => trivial
  | ok canonical =>
    have names := names_resolved plain resolved
    have settles : Lays (fun parsed _ => canonical = parsed) (settle (.ok canonical) : FsTask γ _) w := fun _ => rfl
    refine settles.bind fun _ w same => ?_
    subst same
    refine .skip (leaves_reads reads_demandCapability) fun _ w => ?_
    have routes : Lays (fun resolved _ => Names resolved) (route pid canonical mode) w := by
      unfold route
      split
      · refine .skip leaves_fetch fun found w => ?_
        split
        · have lists : Lays (fun mounts _ => ∀ mount ∈ mounts, Plain mount.sourceNamespaceId)
              (fetch fun tables => tables.listMounts (namespaceOf pid)) w :=
            .fetch fun w' _ placed => placed.listed _
          exact lists.bind fun mounts w sources => .pure (names_throughMounts sources names)
        · exact .pure names
      · exact .pure names
    refine routes.bind fun resolved w names => ?_
    exact .skip (leaves_reads reads_demandSourceCapability) fun _ w => .pure names

/-- A new record is where its URI says. -/
theorem lays_createArtifactRecord (names : Names canonical) :
    Lays (fun _ _ => True) (createArtifactRecord canonical pid) w := by
  refine .skip leaves_fetch fun ns w => ?_
  cases ns with
  | none => exact .throw _
  | some ns =>
    refine .andThen (fun held => .step fun w' relied _ => ?_) fun record w =>
      .skip leaves_tell fun _ w => .pure trivial
    dsimp only
    split
    · have placed : Placed (withDrawn w') := relied.2.leaves ⟨Nat.le_succ _, rfl, fun _ => id⟩
      exact ⟨⟨Nat.le_succ _, placed⟩, held, by simp [placing], trivial⟩
    rename_i tables written
    have placed : Placed { withDrawn w' with tables } := relied.2.upsertArtifact (Nat.le_succ _)
      ⟨⟨names.1, canonical.path, names.2⟩, w'.kernel.drawn, Nat.lt_succ_self _, rfl⟩ written rfl
    exact ⟨⟨Nat.le_succ _, placed⟩, held, by simp [placing], trivial⟩

theorem lays_findOrCreate {pid} {found} (names : Names canonical) :
    Lays (fun _ _ => True) (findOrCreate pid canonical found mode) w := by
  cases found with
  | some record => exact .pure trivial
  | none =>
    unfold findOrCreate
    dsimp only
    split
    · exact .throw _
    exact lays_createArtifactRecord names

theorem lays_beginWrite
    (plain : Plain pid) : Lays (fun _ _ => True) (beginWrite rules pid uri idempotencyKey expectedVersion) w := by
  refine (lays_resolveAndCheck plain).bind fun canonical w names => ?_
  refine .skip leaves_fetch fun found w => ?_
  refine (lays_findOrCreate names).andThen fun artifact w => ?_
  refine .skip leaves_fetch fun existing w => ?_
  cases existing with
  | some existing =>
    dsimp only
    split
    · exact .throw _
    exact .pure trivial
  | none =>
    dsimp only
    split
    · exact .throw _
    refine .skip (leaves_insertNew fun _ _ _ written => ?_) fun txn w =>
      .skip leaves_tell fun _ w => .pure trivial
    cases written
    exact ⟨rfl, rfl⟩

theorem lays_openHandle
    (plain : Plain pid) : Lays (fun _ _ => True) (openHandle rules pid uri mode expectedVersion) w := by
  refine (lays_resolveAndCheck plain).bind fun canonical w names => ?_
  refine .skip leaves_fetch fun count w => ?_
  split
  · exact .throw _
  refine .skip leaves_findForOpen fun found w => ?_
  refine .skip (leaves_preacquire _) fun preacquired w => ?_
  refine (lays_findOrCreate names).andThen fun artifact w => ?_
  refine .skip leaves_leaseFor fun leases w => ?_
  refine .skip (leaves_insertHandle _) fun handle w => ?_
  exact .skip leaves_tell fun _ w => .pure trivial

/-- A record that was read may be moved to another version. -/
theorem lays_recordCommitted {artifact} {contentRef : String} (fits : Fits artifact w) :
    Lays (fun _ _ => True) (recordCommitted artifact txn contentRef) w := by
  have inserts : Lays (fun _ w => Fits artifact w) (save (.insertVersion artifact txn
      (nextVersion artifact txn contentRef)) fun tables =>
        tables.insertVersion (nextVersion artifact txn contentRef)) w :=
    .leaves (fun _ _ drawn fits => fits.later drawn) fits (leaves_save (fun _ => rfl) fun _ _ => id)
  refine inserts.bind fun _ w fits => ?_
  have moves : Fits { artifact with currentVersion := (nextVersion artifact txn contentRef).version } w := fits
  refine (Lays.attempt moves).andThen fun _ w => ?_
  exact Lays.quietly (leaves_save (fun _ => rfl) fun _ _ => id)

/-- The record under an id. -/
theorem lays_getArtifact {artifactId} : Lays (fun found w => ∀ artifact ∈ found, Fits artifact w)
    (fetch fun tables => tables.getArtifact artifactId) w :=
  .fetch fun _ _ placed artifact found => placed.fits artifact (lookup_mem found)

theorem lays_commit {txnId : String} : Lays (fun _ _ => True) (commit digest txnId) w := by
  refine .skip leaves_fetch fun stored w => ?_
  cases stored with
  | none => exact .throw _
  | some txn =>
    dsimp only
    split
    · exact .pure trivial
    split
    · exact .throw _
    split
    · exact .throw _
    refine lays_getArtifact.bind fun found w fits => ?_
    cases found with
    | none => exact .throw _
    | some artifact =>
      have known : Fits artifact w := fits artifact rfl
      dsimp only
      split
      · refine .skip (leaves_save (fun _ => rfl) fun _ _ => id) fun _ w => ?_
        refine .skip leaves_drive fun _ w => ?_
        exact .skip leaves_tell fun _ w => .throw _
      have stable (w w' : FsWorld γ) (drawn : w.kernel.drawn ≤ w'.kernel.drawn) (fits : Fits artifact w) :
          Fits artifact w' := fits.later drawn
      refine (Lays.leaves stable known leaves_drive).bind fun result w known => ?_
      refine (Lays.leaves stable known (leaves_reads reads_contentLost)).bind fun lost w known => ?_
      split
      · exact .skip leaves_reviseTransaction fun _ w => .pure trivial
      refine (lays_recordCommitted known).andThen fun _ w => ?_
      refine .skip (leaves_save (fun _ => rfl) fun _ _ => id) fun _ w => ?_
      refine .skip leaves_tell fun _ w => ?_
      exact .skip leaves_notifyWatches fun _ w => .pure trivial

theorem lays_write {content : γ} (plain : Plain pid) :
    Lays (fun _ _ => True) (write rules digest pid uri content idempotencyKey expectedVersion) w := by
  refine (lays_beginWrite plain).andThen fun txn w => ?_
  split
  · exact .pure trivial
  exact .skip leaves_stage fun _ w => lays_commit

theorem lays_resolveUncertain : Lays (fun _ _ => True) (resolveUncertain txn : FsTask γ Unit) w := by
  have marks (found written : WriteTransaction) (w : FsWorld γ) : Lays (fun _ _ => True)
      (save (.revise found written) fun tables => tables.upsertTransaction written) w :=
    .quietly (leaves_save (fun _ => rfl) fun _ _ => id)
  refine .skip leaves_look fun stored w => ?_
  cases stored with
  | false => exact marks _ _ w
  | true =>
    refine lays_getArtifact.bind fun found w fits => ?_
    cases found with
    | none => exact marks _ _ w
    | some artifact =>
      refine (Lays.leaves (fun w w' drawn (fits : Fits artifact w) => fits.later drawn) (fits artifact rfl)
        leaves_fetch).bind fun inserted w known => ?_
      cases inserted with
      | some row => exact marks _ _ w
      | none => exact lays_recordCommitted known

theorem lays_recover : Lays (fun _ _ => True) (recover : FsTask γ Unit) w := by
  refine .skip leaves_fetch fun rows w => ?_
  refine (Lays.forM (fun txn _ w _ => lays_resolveUncertain) trivial).bind fun _ w _ => ?_
  exact Lays.skip leaves_fetch fun known w => Lays.quietly leaves_drive

theorem lays_delete {pid : String} : Lays (fun _ _ => True) (delete rules pid uri : FsTask γ Bool) w := by
  refine .skip (leaves_reads reads_resolveAndCheck) fun canonical w => ?_
  have finds : Lays (fun found w => ∀ artifact ∈ found, Fits artifact w)
      (fetch fun tables => tables.getArtifactByUri canonical.canonical) w :=
    .fetch fun _ _ placed artifact found => placed.fits artifact (lookup_mem found)
  refine finds.bind fun found w fits => ?_
  cases found with
  | none => exact .throw _
  | some artifact =>
    have marked : Fits { artifact with deleted := true } w := fits artifact rfl
    refine (Lays.attempt marked).andThen fun _ w => ?_
    exact Lays.skip leaves_tell fun _ w => Lays.pure trivial

theorem lays_mount {targetPid mountPoint sourceNamespaceId sourcePrefix mode}
    (plain : Plain sourceNamespaceId) : Lays (fun _ _ => True)
    (mount targetPid mountPoint sourceNamespaceId sourcePrefix mode : FsTask γ NamespaceMount) w := by
  refine .skip leaves_fetch fun ns w => ?_
  cases ns with
  | none => exact .throw _
  | some ns =>
    refine .andThen (fun held => .step fun w' relied _ => ?_) fun mounted w =>
      .skip leaves_tell fun _ w => .pure trivial
    refine ⟨⟨Nat.le_succ _, relied.2.ids, fun record member => ?_, fun mount member => ?_⟩, held, ?_, trivial⟩
    · exact (relied.2.fits record member).later (Nat.le_succ _)
    · dsimp only [ArtifactTables.upsertMount] at member
      rw [upsertWith_ignore] at member
      split at member
      · exact relied.2.sources mount member
      exact forall_append_single relied.2.sources plain mount member
    · simp [placing]

end

/-! ## Runs -/

/-- No `/` gets into the name of a namespace: neither with the pid of a process that
creates artifacts, nor with the source of a mount. -/
def PlainNames : ArtifactCall γ → Prop
  | .file (.write pid _ _ _ _) | .beginWrite pid _ _ _ | .openHandle pid _ _ _ => Plain pid
  | .file (.mount _ _ sourceNamespaceId _ _) => Plain sourceNamespaceId
  | _ => True

/-- A call with plain names. -/
def PlainCall (γ : Type) := { call : ArtifactCall γ // PlainNames call }

/-- The calls as programs. What the kernel does elsewhere is one step. -/
def program (rules : TextRules) (digest : Digest γ) : ArtifactCall γ → Program (FsWorld γ) FsAccess Unit
  | .file (.createNamespace pid quotaBytes maxOpenHandles) =>
    (createNamespace pid quotaBytes maxOpenHandles).launch
  | .file (.setQuota namespaceId quotaBytes) => (setQuota namespaceId quotaBytes).launch
  | .file (.write pid uri content idempotencyKey expectedVersion) =>
    (write rules digest pid uri content idempotencyKey expectedVersion).launch
  | .file (.delete pid uri) => (delete rules pid uri).launch
  | .file (.read pid uri version) => (read rules pid uri version).launch
  | .file (.mount targetPid mountPoint sourceNamespaceId sourcePrefix mode) =>
    (mount targetPid mountPoint sourceNamespaceId sourcePrefix mode).launch
  | .file (.unmount targetPid mountPoint) => (unmount targetPid mountPoint).launch
  | .file (.elsewhere store clock draws) =>
    Program.atomic .other fun w =>
      ((), { w with kernel := { w.kernel with store, clock, drawn := w.kernel.drawn + draws } })
  | .beginWrite pid uri idempotencyKey expectedVersion =>
    (beginWrite rules pid uri idempotencyKey expectedVersion).launch
  | .stage transactionId content => (stage digest transactionId content).launch
  | .commit transactionId => (commit digest transactionId).launch
  | .abort transactionId => (abort transactionId).launch
  | .openHandle pid uri mode expectedVersion => (openHandle rules pid uri mode expectedVersion).launch
  | .close handleId => (close handleId).launch
  | .closeAllForPid pid => (closeAllForPid pid).launch
  | .watch pid uriPrefix => (watch pid uriPrefix).launch
  | .unwatch watchId => (unwatch watchId).launch
  | .recover => recover.launch

/-- Calls with plain names whose steps interleave. A client that steps no further has
crashed. -/
def plainCalls (rules : TextRules) (digest : Digest γ) :
    Machine (FsWorld γ) (Program (FsWorld γ) FsAccess Unit) Empty (PlainCall γ) :=
  machine (fun _ none => none.elim) fun call => program rules digest call.val

variable (rules : TextRules) (digest : Digest γ)

theorem safe_program (plain : PlainNames call) : Safe placing Any (program rules digest call) w 0 := by
  have quiet {α : Type} {task : FsTask γ α} (left : LeavesTask task) :
      Safe placing Any task.launch w 0 := (Lays.quietly left 0).launch
  cases call with
  | file call =>
    cases call with
    | createNamespace pid quotaBytes maxOpenHandles => exact quiet (leaves_createNamespace _)
    | setQuota namespaceId quotaBytes => exact quiet leaves_setQuota
    | write pid uri content idempotencyKey expectedVersion =>
      exact (lays_write plain 0).launch
    | delete pid uri => exact (lays_delete 0).launch
    | read pid uri version => exact quiet (leaves_reads reads_read)
    | mount targetPid mountPoint sourceNamespaceId sourcePrefix mode =>
      exact (lays_mount plain 0).launch
    | unmount targetPid mountPoint => exact quiet leaves_unmount
    | elsewhere store clock draws =>
      intro w' relied _
      have placed : Placed { w' with kernel := { w'.kernel with
          store, clock, drawn := w'.kernel.drawn + draws } } :=
        relied.2.leaves ⟨Nat.le_add_right _ _, rfl, fun _ => id⟩
      exact ⟨⟨Nat.le_add_right _ _, placed⟩, 0, by simp [placing], trivial⟩
  | beginWrite pid uri idempotencyKey expectedVersion =>
    exact (lays_beginWrite plain 0).launch
  | stage transactionId content => exact quiet leaves_stage
  | commit transactionId => exact (lays_commit 0).launch
  | abort transactionId => exact quiet leaves_abort
  | openHandle pid uri mode expectedVersion => exact (lays_openHandle plain 0).launch
  | close handleId => exact quiet leaves_close
  | closeAllForPid pid => exact quiet (leaves_closeAllForPid _)
  | watch pid uriPrefix => exact quiet leaves_watch
  | unwatch watchId => exact quiet leaves_unwatch
  | recover => exact (lays_recover 0).launch

theorem placing_admits :
    placing.Admits Placed (fun _ none => Empty.elim none) fun call : PlainCall γ => program rules digest call.val where
  trans _ _ _ first second := ⟨first.1.trans second.1, second.2⟩
  guaranteed _ _ _ _ kept := ⟨kept.2, kept⟩
  acts _ none := none.elim
  self _ placed := ⟨le_rfl, placed⟩
  enters _ call _ := safe_program rules digest call.property

theorem placed_start {kernel} : Placed ({ kernel } : FsWorld γ) where
  ids := .nil
  fits := nofun
  sources := nofun

/-- Whatever calls with plain names do, and wherever they stop, the records stay where
their URIs say. -/
theorem placed_run (kernel) (events) : Placed ((plainCalls rules digest).conduct { kernel } events).shared :=
  (conduct_accounted (placing_admits rules digest) placed_start fun _ _ _ _ _ _ _ _ => trivial).1

end
end LongHorizonOS.ArtifactPlaces
