import LongHorizonOS.ArtifactService
import LongHorizonOS.LeaseSpec

/-! The Artifact FS one call at a time. A call that nobody disturbs is a sequence of
effects, each of which writes the tables, the files and the journal together, so
that whatever holds of the three before an effect and after it holds between any
two calls. -/
namespace LongHorizonOS.ArtifactRuns
open KeyedRows FailFast AtomicPrograms KernelModels KernelTasks LeaseSpec List Relation
open ArtifactUri ArtifactModels ArtifactService

/-! ## Steps of a call alone -/

section
variable {γ α β : Type}

theorem alone_look (read : FsWorld γ → α) (rest : α → FsTask γ β) :
    (look read >>= rest).alone w = (rest (read w)).alone w := rfl

theorem alone_fetch (read : ArtifactTables → α) (rest : α → FsTask γ β) :
    (fetch read >>= rest).alone w = (rest (read w.tables)).alone w := rfl

theorem alone_save (change : ArtifactTables → ArtifactTables) (rest : Unit → FsTask γ β) :
    (save access change >>= rest).alone w = (rest ()).alone { w with tables := change w.tables } := rfl

theorem alone_tell (rest : Unit → FsTask γ β) :
    (tell event >>= rest).alone w = (rest ()).alone { w with journal := w.journal ++ [event] } := rfl

theorem alone_drive (access : Storage γ → α × Storage γ) (rest : α → FsTask γ β) :
    (drive access >>= rest).alone w =
    (rest (access w.storage).1).alone { w with storage := (access w.storage).2 } := rfl

theorem alone_attempt (rest : Unit → FsTask γ β) : (attempt access change >>= rest).alone w =
      match change w.tables with
      | .error failure => (.error failure, w)
      | .ok tables => (rest ()).alone { w with tables } := by
  rw [Task.alone_bind, Session.bind]
  simp only [attempt, Task.alone, ExceptT.run_mk, Program.run_atomic]
  cases change w.tables <;> rfl

/-- The world after one more id was drawn. -/
def withDrawn (w : FsWorld γ) : FsWorld γ :=
  { w with kernel := { w.kernel with drawn := w.kernel.drawn + 1 } }

theorem alone_insertNew {make} {insert} (rest : ρ → FsTask γ β) :
    (insertNew make insert >>= rest).alone w = match insert (make (uuid w.kernel.drawn)) w.tables with
    | .error failure => (.error failure, withDrawn w)
    | .ok tables => (rest (make (uuid w.kernel.drawn))).alone { withDrawn w with tables } := by
  rw [Task.alone_bind, Session.bind]
  simp only [insertNew, Task.alone, ExceptT.run_mk, Program.run_atomic]
  cases insert (make (uuid w.kernel.drawn)) w.tables <;> rfl

theorem alone_reads (reads : AlwaysTask Reads task) (w) : (task.alone w).2 = w :=
  Always.run (R := fun w w' => w' = w) (fun _ => rfl) (fun _ _ _ first second => second.trans first)
    (.mono (fun _ _ _ step => step.2) reads) w

/-- What a query returns decides how the call goes on. -/
theorem alone_reads_bind (reads : AlwaysTask Reads task) (rest : α → FsTask γ β) : (task >>= rest).alone w =
    match (task.alone w).1 with | .error failure => (.error failure, w) | .ok a => (rest a).alone w := by
  rw [Task.alone_bind, Session.bind]
  have same := alone_reads reads w
  generalize task.alone w = ended at same ⊢
  obtain ⟨failure | a, after⟩ := ended
  · cases same
    rfl
  cases same
  rfl

/-- A call that goes on after a part that returned. -/
theorem alone_bind_ok {rest : α → FsTask γ β} {a : α} {w'} (ran : task.alone w = (.ok a, w')) :
    (task >>= rest).alone w = (rest a).alone w' := by
  rw [Task.alone_bind, Session.bind, ran]

theorem alone_kernel (task) : (kernel task : FsTask γ α).alone w =
    ((task.alone w.kernel).1.mapError .kernel, { w with kernel := (task.alone w.kernel).2 }) := by
  have inside : ((ExceptT.run task).within FsWorld.kernel (fun kernel w => { w with kernel }) FsAccess.kernel).run w =
      ((task.alone w.kernel).1, { w with kernel := (task.alone w.kernel).2 }) := by
    refine Program.run_within ?_ ?_ ?_ _ w <;> intros <;> rfl
  change Program.run (_ >>= _) w = _
  rw [Program.run_bind, inside]
  rfl

theorem alone_kernel_bind (task) (rest : α → FsTask γ β) : (kernel task >>= rest).alone w =
    match (task.alone w.kernel).1 with
    | .error failure => (.error (.kernel failure), { w with kernel := (task.alone w.kernel).2 })
      | .ok a => (rest a).alone { w with kernel := (task.alone w.kernel).2 } := by
  rw [Task.alone_bind, Session.bind, alone_kernel]
  generalize task.alone w.kernel = ended
  obtain ⟨failure | a, after⟩ := ended
  · rfl
  rfl

end

/-! ## Effects -/

section
variable {γ : Type} (digest : Digest γ)

/-- Ids were drawn, and the capabilities are the same. -/
structure Grown (kernel kernel' : World) : Prop where
  drawn : kernel.drawn ≤ kernel'.drawn
  capabilities : kernel'.store.capabilitySets = kernel.store.capabilitySets

/-- The transaction with these contents. -/
def stagedAs (txn : WriteTransaction) (content : γ) : WriteTransaction :=
  { txn with
    stagedContentRef := digest.hash content
    stagedContentHash := digest.hash content
    stagedSizeBytes := digest.size content
    state := .staged }

/-- The world after contents were staged. -/
def stagedWorld (w : FsWorld γ) (txn : WriteTransaction) (content : γ) : FsWorld γ :=
  { w with
    storage := w.storage.stage txn.transactionId content
    tables := w.tables.upsertTransaction (stagedAs digest txn content)
    journal := w.journal ++ [.transactionStaged (stagedAs digest txn content)] }

/-- The events of a transaction that ends without a version. -/
inductive Ends : TransactionState → (WriteTransaction → ArtifactEvent) → Prop where
  | conflicted : Ends .conflicted .transactionConflicted
  | uncertain : Ends .uncertain .transactionUncertain
  | aborted : Ends .aborted .transactionAborted

/-- The reference under which a commit records its contents. -/
def recordedRef (w : FsWorld γ) (txn : WriteTransaction) : String :=
  committedRef (w.storage.commit digest txn.transactionId).1 txn

/-- The tables after a version was recorded for a transaction. -/
def committedTables (tables : ArtifactTables) (artifact : ArtifactRecord) (txn : WriteTransaction)
    (contentRef : String) : ArtifactTables :=
  let inserted := tables.insertVersion (nextVersion artifact txn contentRef)
  let moved := { inserted with
    artifacts := upsert ArtifactRecord.artifactId
      { artifact with currentVersion := artifact.currentVersion + 1 } inserted.artifacts }
  (moved.upsertTransaction { txn with state := .committed }).insertIdempotency
    { idempotencyKey := txn.idempotencyKey, artifactId := artifact.artifactId, pid := txn.pid
      transactionId := txn.transactionId, resultState := .committed
      resultVersion := some (artifact.currentVersion + 1) }

/-- What a call does at once when nobody disturbs it, apart from the recording of a
version. -/
inductive Effect : FsWorld γ → FsWorld γ → Prop where
  | kernel {w : FsWorld γ} {kernel : World} (grown : Grown w.kernel kernel) : Effect w { w with kernel }
  | unlinked {w : FsWorld γ} (transactionId : String) :
    Effect w { w with storage := w.storage.unlink transactionId }
  | cleaned {w : FsWorld γ} (known : List String) : Effect w { w with storage := w.storage.recover known }
  | created {w : FsWorld γ} {record : ArtifactRecord} {tables : ArtifactTables}
    (named : record.artifactId = uuid w.kernel.drawn) (unversioned : record.currentVersion = 0)
    (inserted : w.tables.upsertArtifact record = .ok tables) :
    Effect w { withDrawn w with tables, journal := w.journal ++ [.artifactCreated record] }
  | begun {w : FsWorld γ} {txn : WriteTransaction} (named : txn.transactionId = uuid w.kernel.drawn)
    (state : txn.state = .begun) (expecting : txn.expectedVersion ≠ none)
    (based : txn.artifactId ∈ w.tables.artifacts.map ArtifactRecord.artifactId) :
    Effect w { withDrawn w with
      tables := w.tables.upsertTransaction txn, journal := w.journal ++ [.transactionBegun txn] }
  | staged {w : FsWorld γ} {txn : WriteTransaction} (content : γ)
    (stored : w.tables.getTransaction txn.transactionId = some txn) (pending : txn.state ≠ .committed) :
    Effect w (stagedWorld digest w txn content)
  | ended {w : FsWorld γ} {txn : WriteTransaction} {state : TransactionState}
    {event : WriteTransaction → ArtifactEvent} (ends : Ends state event)
    (stored : w.tables.getTransaction txn.transactionId = some txn) (pending : txn.state ≠ .committed) :
    Effect w { w with
      tables := w.tables.upsertTransaction { txn with state }
      journal := w.journal ++ [event { txn with state }] }
  | opened {w : FsWorld γ} {handle : ArtifactHandle} (named : handle.handleId = uuid w.kernel.drawn) :
    Effect w { withDrawn w with
      tables := w.tables.upsertHandle handle, journal := w.journal ++ [.handleOpened handle] }
  | closed {w : FsWorld γ} {handle : ArtifactHandle}
    (stored : w.tables.getHandle handle.handleId = some handle) :
    Effect w { w with
      tables := w.tables.upsertHandle { handle with closed := true }
      journal := w.journal ++ [.handleClosed handle.handleId handle.leaseId] }
  | watched {w : FsWorld γ} {watch : ArtifactWatch} (named : watch.watchId = uuid w.kernel.drawn) :
    Effect w { withDrawn w with
      tables := w.tables.upsertWatch watch, journal := w.journal ++ [.watchRegistered watch] }
  | deleted {w : FsWorld γ} {artifact : ArtifactRecord} {canonicalUri : String} {tables : ArtifactTables}
    (stored : w.tables.getArtifactByUri canonicalUri = some artifact)
    (written : w.tables.upsertArtifact { artifact with deleted := true } = .ok tables) :
    Effect w { w with tables, journal := w.journal ++ [.artifactDeleted artifact.artifactId canonicalUri] }
  | namespaceCreated {w : FsWorld γ} (ns : ArtifactNamespace) :
    Effect w { w with
      tables := w.tables.upsertNamespace ns, journal := w.journal ++ [.namespaceCreated ns] }
  | quotaSet {w : FsWorld γ} {ns : ArtifactNamespace} (quotaBytes : Int)
    (stored : w.tables.getNamespace ns.namespaceId = some ns) :
    Effect w { w with
      tables := w.tables.upsertNamespace { ns with quotaBytes := some quotaBytes }
      journal := w.journal ++ [.quotaSet ns.namespaceId quotaBytes] }
  | mounted {w : FsWorld γ} {mount : NamespaceMount} (named : mount.mountId = uuid w.kernel.drawn) :
    Effect w { withDrawn w with
      tables := w.tables.upsertMount mount, journal := w.journal ++ [.mountCreated mount] }
  | unmounted {w : FsWorld γ} (mountId mountPoint : String) :
    Effect w { w with
      tables := w.tables.removeMount mountId, journal := w.journal ++ [.mountRemoved mountId mountPoint] }

def Effects : FsWorld γ → FsWorld γ → Prop := Relation.ReflTransGen (Effect digest)

/-- What `commit` has found when it goes on to record a version. -/
structure Committable (w : FsWorld γ) (txn : WriteTransaction) (artifact : ArtifactRecord) : Prop where
  stored : w.tables.getTransaction txn.transactionId = some txn
  staged : txn.state = .staged
  found : w.tables.getArtifact txn.artifactId = some artifact
  passed : ¬ (txn.expectedVersion.any fun expected => decide (artifact.currentVersion ≠ expected)) = true
  present : (w.storage.commit digest txn.transactionId).1.committed = true ∨
    w.storage.existsRef txn.stagedContentRef = true

/-- The world after a version was recorded. -/
def committedWorld (w : FsWorld γ) (txn : WriteTransaction) (artifact : ArtifactRecord) : FsWorld γ :=
  { w with
    storage := (w.storage.commit digest txn.transactionId).2
    tables := committedTables w.tables artifact txn (recordedRef digest w txn)
    journal := w.journal ++
      [.transactionCommitted { txn with state := .committed } (artifact.currentVersion + 1)] }

/-- The artifact and the namespace it is in. -/
def home (record : ArtifactRecord) : String × String := (record.artifactId, record.namespaceId)

/-- No quota is set, no contents are staged, and every artifact stays in its namespace. -/
structure Idle (tables tables' : ArtifactTables) : Prop where
  namespaces : tables'.namespaces = tables.namespaces
  staged : ∀ txn ∈ tables'.transactions, txn.state = .staged → txn ∈ tables.transactions
  homes : ∀ pair ∈ tables.artifacts.map home, pair ∈ tables'.artifacts.map home

/-- Effects none of which stages contents. -/
structure IdleEffects (w w' : FsWorld γ) : Prop where
  effects : Effects digest w w'
  idle : Idle w.tables w'.tables

/-- A version of the artifact was recorded with these contents. -/
def Records (w : FsWorld γ) (content : γ) (artifact : ArtifactRecord) (w' : FsWorld γ) : Prop :=
  ∃ before txn kernel, Effects digest w before ∧ Committable digest before txn artifact ∧
    lookup Prod.fst before.storage.staging txn.transactionId = some (txn.transactionId, content) ∧
    txn.stagedContentRef = digest.hash content ∧ Grown before.kernel kernel ∧
    w' = { committedWorld digest before txn artifact with kernel }

end

/-! ## Calls -/

section
variable {γ : Type} {w : FsWorld γ}

theorem Effects.refl (w) : Effects digest w w := ReflTransGen.refl

theorem Effects.one (effect : Effect digest w w') : Effects digest w w' :=
  ReflTransGen.single effect

theorem Effects.trans {w''} (first : Effects digest w w') (second : Effects digest w' w'') :
    Effects digest w w'' := ReflTransGen.trans first second

instance : IsPreorder (FsWorld γ) (Effects digest) := { refl := .refl, trans := fun _ _ _ => .trans }

variable {tables tables' : ArtifactTables}

theorem Idle.refl (tables) : Idle tables tables :=
  ⟨rfl, fun _ member _ => member, fun _ => id⟩

theorem Idle.trans {tables''} (first : Idle tables tables') (second : Idle tables' tables'') : Idle tables tables'' :=
  ⟨second.namespaces.trans first.namespaces,
    fun txn member staged => first.staged txn (second.staged txn member staged) staged,
    fun pair member => second.homes pair (first.homes pair member)⟩

theorem Idle.upsertTransaction {txn} (unstaged : txn.state ≠ .staged) : Idle tables (tables.upsertTransaction txn) := by
  refine ⟨rfl, ?_, fun _ => id⟩
  rw [ArtifactTables.upsertTransaction, upsertWith]
  split
  · exact forall_append_single (fun _ member _ => member) fun staged => absurd staged unstaged
  exact forall_upsert (fun _ member _ => member) fun staged => absurd staged unstaged

theorem Idle.upsertArtifact (written : tables.upsertArtifact record = .ok tables') : Idle tables tables' := by
  unfold ArtifactTables.upsertArtifact at written
  split at written
  · cases written
  cases written
  refine ⟨rfl, fun _ member _ => member, ?_⟩
  dsimp only [upsertWith]
  split
  · rw [map_append]
    exact fun _ member => mem_append_left _ member
  rename_i old found
  have key : old.artifactId = record.artifactId := lookup_key found
  rw [← key] at found
  rw [map_upsert_stored]
  · exact fun _ => id
  · exact found
  rfl

theorem IdleEffects.one (effect : Effect digest w w') (idle : Idle w.tables w'.tables) :
    IdleEffects digest w w' := ⟨.one effect, idle⟩

theorem IdleEffects.refl (w) : IdleEffects digest w w := ⟨.refl w, .refl _⟩

instance : IsPreorder (FsWorld γ) (IdleEffects digest) where
  refl := .refl
  trans _ _ _ first second := ⟨first.effects.trans second.effects, first.idle.trans second.idle⟩

variable {α : Type} {R : FsWorld γ → FsWorld γ → Prop} [IsPreorder (FsWorld γ) R]

theorem effects_reads (reads : AlwaysTask Reads task) : Effects digest w (task.alone w).2 := by
  rw [alone_reads reads]
  exact .refl w

/-- A call that goes on after a query. -/
theorem effects_after {rest : α → FsTask γ β} (reads : AlwaysTask Reads task)
    (goes : ∀ a, R w ((rest a).alone w).2) : R w ((task >>= rest).alone w).2 := by
  rw [alone_reads_bind reads]
  split
  · exact refl w
  exact goes _

/-- A call whose first part returns what satisfies a postcondition. -/
theorem effects_bind {rest : α → FsTask γ β} {P : α → FsWorld γ → Prop}
    (goes : R w (task.alone w).2 ∧ ∀ a, (task.alone w).1 = .ok a → P a (task.alone w).2)
    (later : ∀ a w, P a w → R w ((rest a).alone w).2) : R w ((task >>= rest).alone w).2 := by
  rw [Task.alone_bind, Session.bind]
  obtain ⟨before, returned⟩ := goes
  generalize task.alone w = ended at before returned ⊢
  obtain ⟨failure | a, after⟩ := ended
  · exact before
  exact trans_of R before (later a after (returned a rfl))

/-- A call whose first part returns anything. -/
theorem effects_then {rest : α → FsTask γ β} (goes : R w (task.alone w).2)
    (later : ∀ a w, R w ((rest a).alone w).2) : R w ((task >>= rest).alone w).2 :=
  effects_bind (P := fun _ _ => True) ⟨goes, fun _ _ => trivial⟩ fun a w _ => later a w

/-! ### Namespaces -/

variable (pid : String)

theorem effects_createNamespace {quotaBytes maxOpenHandles} :
    Effects digest w ((createNamespace pid quotaBytes maxOpenHandles).alone w).2 := by
  unfold createNamespace
  rw [alone_fetch]
  cases w.tables.getNamespace (namespaceOf pid) with
  | some existing => exact .refl w
  | none => exact .one (.namespaceCreated _)

theorem effects_setQuota {namespaceId} {quotaBytes} :
    Effects digest w ((setQuota namespaceId quotaBytes).alone w).2 := by
  unfold setQuota
  rw [alone_fetch]
  cases found : w.tables.getNamespace namespaceId with
  | none => exact .refl w
  | some ns =>
    obtain rfl : ns.namespaceId = namespaceId := lookup_key found
    exact .one (.quotaSet quotaBytes found)

theorem effects_mount {mountPoint sourceNamespaceId sourcePrefix mode} :
    Effects digest w ((mount targetPid mountPoint sourceNamespaceId sourcePrefix mode).alone w).2 := by
  unfold mount
  rw [alone_fetch]
  cases w.tables.getNamespace (namespaceOf targetPid) with
  | none => exact .refl w
  | some ns =>
    rw [alone_insertNew]
    exact .one (.mounted rfl)

theorem effects_unmount {mountPoint} : Effects digest w ((unmount targetPid mountPoint).alone w).2 := by
  unfold unmount
  rw [alone_fetch]
  dsimp only
  split
  · exact .refl w
  exact .one (.unmounted _ _)

/-! ### Transactions -/

theorem idle_createArtifactRecord {pid} : IdleEffects digest w ((createArtifactRecord canonical pid).alone w).2 := by
  unfold createArtifactRecord
  rw [alone_fetch]
  cases w.tables.getNamespace canonical.namespaceId with
  | none => exact .refl w
  | some ns =>
    rw [alone_insertNew]
    split
    · exact .one (.kernel ⟨Nat.le_succ _, rfl⟩) (.refl _)
    rename_i tables inserted
    exact .one (.created rfl rfl inserted) (.upsertArtifact inserted)

theorem recorded_upsertArtifact (written : tables.upsertArtifact record = .ok tables') :
    record.artifactId ∈ tables'.artifacts.map ArtifactRecord.artifactId := by
  unfold ArtifactTables.upsertArtifact at written
  split at written
  · cases written
  cases written
  rw [map_key_upsertWith fun _ same => same]
  split
  · assumption
  exact mem_append_right _ (mem_singleton_self _)

theorem idle_findOrCreate (canonical) (found)
    (mode) : IdleEffects digest w ((findOrCreate pid canonical found mode).alone w).2 := by
  cases found with
  | some record => exact .refl w
  | none =>
    unfold findOrCreate
    dsimp only
    split
    · exact .refl w
    exact idle_createArtifactRecord

/-- What `findOrCreate` returns is recorded. -/
theorem recorded_findOrCreate {pid} {found} {mode} (known : ∀ record ∈ found, record ∈ w.tables.artifacts) (artifact)
    (returned : ((findOrCreate pid canonical found mode).alone w).1 = .ok artifact) : artifact.artifactId ∈
    ((findOrCreate pid canonical found mode).alone w).2.tables.artifacts.map ArtifactRecord.artifactId := by
  cases found with
  | some record =>
    cases returned
    exact mem_map_of_mem (known _ rfl)
  | none =>
    revert returned
    unfold findOrCreate
    dsimp only
    split
    · exact nofun
    unfold createArtifactRecord
    rw [alone_fetch]
    cases w.tables.getNamespace canonical.namespaceId with
    | none => exact nofun
    | some ns =>
      rw [alone_insertNew]
      split
      · exact nofun
      rename_i tables inserted
      rintro ⟨⟩
      exact recorded_upsertArtifact inserted

theorem idle_beginWrite (pid uri key) (expected) :
    IdleEffects digest w ((beginWrite rules pid uri key expected).alone w).2 := by
  refine effects_after reads_resolveAndCheck fun canonical => ?_
  rw [alone_fetch]
  have known : ∀ record ∈ w.tables.getArtifactByUri canonical.canonical, record ∈ w.tables.artifacts :=
    fun _ found => lookup_mem found
  refine effects_bind (P := fun artifact w => artifact.artifactId ∈ w.tables.artifacts.map ArtifactRecord.artifactId)
    ⟨idle_findOrCreate pid canonical _ .write, recorded_findOrCreate known⟩ fun artifact w based => ?_
  rw [alone_fetch]
  cases w.tables.findTransactionByIdempotency artifact.artifactId pid key with
  | some existing =>
    dsimp only
    split
    · exact .refl w
    exact .refl w
  | none =>
    dsimp only
    split
    · exact .refl w
    rw [alone_insertNew]
    exact .one (.begun rfl rfl nofun based) (.upsertTransaction (by simp))

theorem unlink_stage (storage : Storage γ) :
    (storage.stage transactionId content).unlink transactionId = storage.unlink transactionId := by
  unfold Storage.stage Storage.unlink
  rw [filter_upsert fun other same => ?_]
  simpa using same

/-- A size fits the quota of the namespace, where there is one. -/
def FitsQuota (tables : ArtifactTables) (artifactId : String) (sizeBytes : ℕ) : Prop :=
  ∀ artifact ∈ tables.getArtifact artifactId,
    ∀ quotaBytes ∈ (tables.getNamespace artifact.namespaceId).bind ArtifactNamespace.quotaBytes,
      (tables.countCommittedBytes artifact.namespaceId + sizeBytes : Int) ≤ quotaBytes

/-- The check of the quota raises nothing. -/
theorem overQuota_returns (w : FsWorld γ) : ∃ message, ((overQuota artifactId sizeBytes).alone w).1 = .ok message ∧
    (message = none → FitsQuota w.tables artifactId sizeBytes) := by
  unfold overQuota FitsQuota
  rw [alone_fetch]
  cases w.tables.getArtifact artifactId with
  | none => exact ⟨none, rfl, fun _ => by simp⟩
  | some artifact =>
    rw [alone_fetch]
    split
    · rename_i unlimited
      exact ⟨none, rfl, fun _ => by simp [unlimited]⟩
    rename_i limit limited
    refine ⟨_, rfl, fun fits => ?_⟩
    simpa [limited, quotaMessage] using fits

/-- A call that stages contents raises, or it has written them. -/
theorem stage_cases (digest) (w) (transactionId) (content : γ) :
    (Effects digest w ((stage digest transactionId content).alone w).2 ∧
      ((stage digest transactionId content).alone w).2.tables = w.tables ∧
      ∀ staged, ((stage digest transactionId content).alone w).1 ≠ .ok staged) ∨
    ∃ txn, w.tables.getTransaction transactionId = some txn ∧ txn.state ≠ .committed ∧
      ((stage digest transactionId content).alone w).2 = stagedWorld digest w txn content ∧
      FitsQuota w.tables txn.artifactId (digest.size content) := by
  unfold stage
  rw [alone_fetch]
  cases found : w.tables.getTransaction transactionId with
  | none => exact .inl ⟨.refl w, rfl, nofun⟩
  | some txn =>
    obtain rfl : txn.transactionId = transactionId := lookup_key found
    dsimp only
    split
    · exact .inl ⟨.refl w, rfl, nofun⟩
    rename_i pending
    rw [alone_drive, alone_reads_bind reads_overQuota]
    obtain ⟨message, checked, fits⟩ := overQuota_returns
      { w with storage := w.storage.stage txn.transactionId content }
    rw [checked]
    cases message with
    | some message =>
      refine .inl ⟨?_, rfl, nofun⟩
      dsimp only
      rw [alone_drive]
      rw [unlink_stage]
      exact .one (.unlinked txn.transactionId)
    | none => exact .inr ⟨txn, rfl, fun marked => pending (.inl marked), rfl, fits rfl⟩

theorem effects_stage (transactionId) (content : γ) :
    Effects digest w ((stage digest transactionId content).alone w).2 := by
  rcases stage_cases digest w transactionId content with ⟨effects, _⟩ | ⟨txn, found, pending, eq, _⟩
  · exact effects
  obtain rfl : txn.transactionId = transactionId := lookup_key found
  rw [eq]
  exact .one (.staged content found pending)

theorem getTransaction_staged (stored : tables.getTransaction transactionId = some txn) :
    (tables.upsertTransaction (stagedAs digest txn content)).getTransaction transactionId =
    some (stagedAs digest txn content) := by
  obtain rfl : txn.transactionId = transactionId := lookup_key stored
  have shape : tables.upsertTransaction (stagedAs digest txn content) = _ :=
    ArtifactTables.upsertTransaction_found stored rfl
  rw [shape]
  exact (lookup_upsert _).trans (if_pos rfl)

/-- The files after a commit of a transaction without a file are the same. -/
theorem commit_unstaged {storage : Storage γ} (missing : (storage.commit digest transactionId).1.committed = false) :
    storage.commit digest transactionId = ({ contentRef := "", committed := false }, storage) := by
  unfold Storage.commit at missing ⊢
  split at missing
  · rfl
  cases missing

/-- The three writes of a recorded version. -/
theorem alone_recordCommitted {txn} {contentRef}
    (found : w.tables.getArtifact artifact.artifactId = some artifact) :
    (recordCommitted artifact txn contentRef).alone w = (.ok (), { w with
      tables := ({ w.tables.insertVersion (nextVersion artifact txn contentRef) with
        artifacts := upsert ArtifactRecord.artifactId
          { artifact with currentVersion := artifact.currentVersion + 1 } w.tables.artifacts }).upsertTransaction
        { txn with state := .committed } }) := by
  have written : (w.tables.insertVersion (nextVersion artifact txn contentRef)).upsertArtifact
      { artifact with currentVersion := (nextVersion artifact txn contentRef).version } = .ok _ :=
    ArtifactTables.upsertArtifact_found (artifact.currentVersion + 1) artifact.deleted found
  unfold recordCommitted
  rw [alone_save, alone_attempt]
  rw [written]
  rfl

theorem grown_of_always {task : KernelTask α} (grows : AlwaysTask (fun _ => Grown) task) (k : World) :
    Grown k (task.alone k).2 := by
  refine Always.run (fun _ => ⟨le_rfl, rfl⟩) (fun _ _ _ first second => ?_) grows k
  exact ⟨first.drawn.trans second.drawn, second.capabilities.trans first.capabilities⟩

theorem effects_kernel {task : KernelTask α} (grows : AlwaysTask (fun _ => Grown) task) :
    Effects digest w ((kernel task).alone w).2 := by
  rw [alone_kernel]
  exact .one (.kernel (grown_of_always grows w.kernel))

theorem grows_send (targetPid signalType) (sourcePid) (payload) :
    AlwaysTask (fun _ => Grown) (SignalService.send targetPid signalType sourcePid payload) := by
  refine (AlwaysTask.step fun _ => ⟨Nat.le_add_right _ _, rfl⟩).bind fun _ => ?_
  refine (AlwaysTask.step fun _ => ⟨le_rfl, rfl⟩).bind fun _ => ?_
  refine (always_update fun _ => ⟨le_rfl, rfl⟩).bind fun _ => ?_
  exact (always_update fun _ => ⟨le_rfl, rfl⟩).bind fun _ => .pure _

/-- A loop whose turns are effects. -/
theorem effects_forM {items : List ι} {turn : ι → FsTask γ Unit}
    (turns : ∀ item w, Effects digest w ((turn item).alone w).2) : Effects digest w ((items.forM turn).alone w).2 := by
  induction items generalizing w with
  | nil => exact .refl w
  | cons item items ih => exact effects_then (turns item w) fun _ w => ih

theorem alone_send : ∃ told, Grown w.kernel told ∧ Task.alone (do
    let _ ← kernel (SignalService.send targetPid signalType sourcePid payload)) w =
    (.ok (), { w with kernel := told }) := by
  refine ⟨_, grown_of_always (grows_send targetPid signalType sourcePid payload) w.kernel, ?_⟩
  rw [alone_kernel_bind]
  rfl

/-- The watchers are told without an error, and only the kernel hears of it. -/
theorem alone_notifyWatches : ∃ kernel, Grown w.kernel kernel ∧
    (notifyWatches canonicalUri newVersion writerPid).alone w = (.ok (), { w with kernel }) := by
  unfold notifyWatches
  rw [alone_fetch]
  generalize w.tables.watches.filter _ = watches
  induction watches generalizing w with
  | nil => exact ⟨w.kernel, ⟨le_rfl, rfl⟩, rfl⟩
  | cons watch watches ih =>
    have turn : ∃ told, Grown w.kernel told ∧
        Task.alone (if watch.uriPrefix.toList <+: canonicalUri.toList then do
          let _ ← kernel (SignalService.send watch.pid "ARTIFACT_CHANGED" (some writerPid)
            [("canonical_uri", .str canonicalUri), ("new_version", .int newVersion),
              ("watch_id", .str watch.watchId), ("uri_prefix", .str watch.uriPrefix)])
          else pure ()) w = (.ok (), { w with kernel := told }) := by
      split
      · exact alone_send
      exact ⟨w.kernel, ⟨le_rfl, rfl⟩, rfl⟩
    obtain ⟨kernel, told, ran⟩ := turn
    obtain ⟨kernel', later, rest⟩ := ih (w := { w with kernel })
    refine ⟨kernel', ⟨told.drawn.trans later.drawn, later.capabilities.trans told.capabilities⟩, ?_⟩
    exact (alone_bind_ok ran).trans rest

theorem alone_contentLost (result) (txn) :
    (contentLost result txn).alone w = (.ok (decide (result.committed = false ∧ result.contentRef = "") &&
        !w.storage.existsRef txn.stagedContentRef), w) := by
  unfold contentLost
  split
  · rename_i unstaged
    rw [decide_eq_true unstaged]
    rfl
  rename_i staged
  rw [decide_eq_false staged]
  rfl

/-- A commit records a version and returns the transaction as committed, or it records
none and returns no transaction as committed that was not. -/
theorem commit_cases (digest : Digest γ) (w : FsWorld γ) (transactionId : String) :
    (IdleEffects digest w ((commit digest transactionId).alone w).2 ∧
      ∀ txn, ((commit digest transactionId).alone w).1 = .ok txn → txn.state = .committed →
        w.tables.getTransaction transactionId = some txn) ∨
    ∃ txn artifact kernel, Committable digest w txn artifact ∧ txn.transactionId = transactionId ∧
      Grown w.kernel kernel ∧ (commit digest transactionId).alone w =
        (.ok { txn with state := .committed }, { committedWorld digest w txn artifact with kernel }) := by
  unfold commit
  rw [alone_fetch]
  cases stored : w.tables.getTransaction transactionId with
  | none => exact .inl ⟨.refl w, nofun⟩
  | some txn =>
    obtain rfl : txn.transactionId = transactionId := lookup_key stored
    dsimp only
    split
    · exact .inl ⟨.refl w, fun result same _ => by cases same; rfl⟩
    rename_i pending
    split
    · exact .inl ⟨.refl w, nofun⟩
    split
    · exact .inl ⟨.refl w, nofun⟩
    rename_i staged
    rw [alone_fetch]
    cases found : w.tables.getArtifact txn.artifactId with
    | none => exact .inl ⟨.refl w, nofun⟩
    | some artifact =>
      have same : artifact.artifactId = txn.artifactId := lookup_key found
      dsimp only
      split
      · exact .inl ⟨⟨(Effects.one (.unlinked txn.transactionId)).trans
          (.one (.ended .conflicted stored pending)), .upsertTransaction (by simp)⟩, nofun⟩
      rename_i passed
      rw [alone_drive, Task.alone_bind, Session.bind, alone_contentLost]
      dsimp only
      split
      · rename_i lost
        obtain ⟨⟨missing, -⟩, -⟩ : (_ ∧ _) ∧ _ := by simpa using lost
        rw [commit_unstaged missing]
        refine .inl ⟨.one (.ended .uncertain stored pending) (.upsertTransaction (by simp)), ?_⟩
        rintro result ⟨⟩ ⟨⟩
      rename_i kept
      have present : (w.storage.commit digest txn.transactionId).1.committed = true ∨
          w.storage.existsRef txn.stagedContentRef = true := by
        cases missing : (w.storage.commit digest txn.transactionId).1.committed with
        | true => exact .inl rfl
        | false =>
          rw [commit_unstaged missing] at kept
          exact .inr (by simpa using kept)
      rw [Task.alone_bind, Session.bind, alone_recordCommitted (same ▸ found)]
      dsimp only
      rw [alone_save, alone_tell]
      obtain ⟨kernel, grown, told⟩ := alone_notifyWatches (w := committedWorld digest w txn artifact)
      refine .inr ⟨txn, artifact, kernel, ⟨stored, not_not.mp staged, found, passed, present⟩, rfl, grown, ?_⟩
      exact alone_bind_ok told

theorem idle_abort (transactionId) : IdleEffects digest w ((abort transactionId).alone w).2 := by
  unfold abort
  rw [alone_fetch]
  cases stored : w.tables.getTransaction transactionId with
  | none => exact .refl w
  | some txn =>
    obtain rfl : txn.transactionId = transactionId := lookup_key stored
    dsimp only
    split
    · exact .refl w
    rename_i pending
    refine ⟨(Effects.one (.unlinked txn.transactionId)).trans (.one (.ended .aborted stored ?_)),
      .upsertTransaction (by simp)⟩
    exact fun marked => pending (.inl marked)

/-- A write records no version and returns no transaction as committed that was not, or
it stages its contents, records one version with them and returns the transaction as
committed. -/
theorem write_cases (digest) (rules) (w) (pid uri) (content : γ)
    (key) (expected) :
    (Effects digest w ((write rules digest pid uri content key expected).alone w).2 ∧
      ∀ txn, ((write rules digest pid uri content key expected).alone w).1 = .ok txn →
        txn.state = .committed → ((beginWrite rules pid uri key expected).alone w).1 = .ok txn) ∨
    ∃ opened begun txn artifact kernel, (beginWrite rules pid uri key expected).alone w = (.ok opened, begun) ∧
      begun.tables.getTransaction opened.transactionId = some txn ∧ txn.state ≠ .committed ∧
      Committable digest (stagedWorld digest begun txn content) (stagedAs digest txn content) artifact ∧
      Grown begun.kernel kernel ∧ (write rules digest pid uri content key expected).alone w =
        (.ok { stagedAs digest txn content with state := .committed },
          { committedWorld digest (stagedWorld digest begun txn content) (stagedAs digest txn content) artifact with
            kernel }) := by
  have begins : Effects digest w ((beginWrite rules pid uri key expected).alone w).2 :=
    (idle_beginWrite pid uri key expected).effects
  unfold write
  rw [Task.alone_bind, Session.bind]
  generalize (beginWrite rules pid uri key expected).alone w = ended at begins ⊢
  obtain ⟨failure | opened, begun⟩ := ended
  · exact .inl ⟨begins, fun _ same => by cases same⟩
  dsimp only
  split
  · exact .inl ⟨begins, fun txn same _ => same⟩
  rw [Task.alone_bind, Session.bind]
  have stages : Effects digest begun ((stage digest opened.transactionId content).alone begun).2 :=
    effects_stage opened.transactionId content
  have staged := stage_cases digest begun opened.transactionId content
  generalize (stage digest opened.transactionId content).alone begun = ended at stages staged ⊢
  obtain ⟨failure | txn', before⟩ := ended
  · exact .inl ⟨begins.trans stages, fun _ same => by cases same⟩
  obtain ⟨txn, stored, pending, rfl, _⟩ := staged.resolve_left fun raised => raised.2.2 txn' rfl
  have known : (stagedWorld digest begun txn content).tables.getTransaction opened.transactionId =
      some (stagedAs digest txn content) := getTransaction_staged stored
  rcases commit_cases digest (stagedWorld digest begun txn content) opened.transactionId with
    ⟨plain, unmarked⟩ | ⟨txn'', artifact, kernel, committable, same, grown, ran⟩
  · refine .inl ⟨(begins.trans stages).trans plain.effects, fun result returned marked => ?_⟩
    have there := unmarked result returned marked
    rw [known] at there
    cases there
    cases marked
  · have written := committable.stored
    rw [same, known] at written
    cases written
    exact .inr ⟨opened, begun, txn, artifact, kernel, rfl, stored, pending, committable, grown, ran⟩

/-! ### Handles -/

theorem grows_drawIds (count) : AlwaysTask (fun _ => Grown) (drawIds count) :=
  .step fun _ => ⟨Nat.le_add_right _ _, rfl⟩

theorem grows_atomicAcquire (draw : ℕ → String) :
    AlwaysTask (fun _ => Grown) (LeaseService.atomicAcquire pid claims draw ttl) := by
  refine .mono (fun label w w' step => ?_) always_atomicAcquire
  obtain ⟨_, store', frame, rfl⟩ := step
  exact ⟨le_rfl, frame.elsewhere.capabilitySets⟩

theorem grows_release (leaseIds) : AlwaysTask (fun _ => Grown) (LeaseService.release leaseIds) := by
  refine .mono (fun label w w' step => ?_) always_release
  obtain ⟨_, store', lapse, rfl⟩ := step
  exact ⟨le_rfl, lapse.elsewhere.capabilitySets⟩

theorem effects_acquireWriteLease {pid artifactId : String} :
    Effects digest w ((acquireWriteLease pid artifactId).alone w).2 :=
  effects_then (effects_kernel (grows_drawIds 1)) fun _ _ => effects_kernel (grows_atomicAcquire _ _)

theorem effects_preacquire : Effects digest w ((preacquire pid found mode).alone w).2 := by
  unfold preacquire
  split
  · refine effects_then (effects_then (effects_kernel (grows_drawIds 1)) fun _ w => .refl w) fun _ w => ?_
    exact effects_acquireWriteLease
  · exact .refl w

theorem effects_leaseFor {pid artifactId} {preacquired} {mode} :
    Effects digest w ((leaseFor pid artifactId preacquired mode).alone w).2 := by
  unfold leaseFor
  split
  · exact .refl w
  split
  · exact effects_acquireWriteLease
  exact .refl w

theorem effects_openHandle (pid uri) (mode) (expected) :
    Effects digest w ((openHandle rules pid uri mode expected).alone w).2 := by
  refine effects_after reads_resolveAndCheck fun canonical => ?_
  rw [alone_fetch]
  split
  · exact .refl w
  change Effects digest w (Task.alone (preacquire pid (w.tables.getArtifactByUri canonical.canonical) mode >>= _) w).2
  refine effects_then (effects_preacquire pid) fun preacquired w => ?_
  refine effects_then (idle_findOrCreate pid canonical _ mode).effects fun artifact w => ?_
  refine effects_then effects_leaseFor fun leases w => ?_
  unfold insertHandle
  rw [alone_insertNew]
  exact .one (.opened rfl)

theorem alone_releaseFor :
    ∃ kernel, Grown w.kernel kernel ∧ (releaseFor handle).alone w = (.ok (), { w with kernel }) := by
  unfold releaseFor
  split
  · exact ⟨w.kernel, ⟨le_rfl, rfl⟩, rfl⟩
  split
  · exact ⟨w.kernel, ⟨le_rfl, rfl⟩, rfl⟩
  rename_i leaseId _ _
  refine ⟨_, grown_of_always (grows_release [leaseId]) w.kernel, ?_⟩
  rw [alone_kernel]
  rfl

theorem effects_close (handleId) : Effects digest w ((close handleId).alone w).2 := by
  unfold close
  rw [alone_fetch]
  cases stored : w.tables.getHandle handleId with
  | none => exact .refl w
  | some handle =>
    obtain rfl : handle.handleId = handleId := lookup_key stored
    dsimp only
    split
    · exact .refl w
    rw [alone_save, Task.alone_bind, Session.bind]
    obtain ⟨kernel, grown, ran⟩ := alone_releaseFor
     
    rw [ran]
    have releases : Effects digest w { w with kernel } := .one (.kernel grown)
    refine releases.trans ?_
    exact .one (.closed stored)

theorem effects_closeAllForPid : Effects digest w ((closeAllForPid pid).alone w).2 := by
  unfold closeAllForPid
  rw [alone_fetch]
  exact effects_forM fun handle w => effects_then (effects_close _) fun _ w => .refl w

/-! ### Watches and deletion -/

theorem effects_watch (pid uriPrefix) : Effects digest w ((watch pid uriPrefix).alone w).2 := by
  unfold watch
  rw [alone_insertNew]
  exact .one (.watched rfl)

theorem effects_delete {pid uri} : Effects digest w ((delete rules pid uri).alone w).2 := by
  refine effects_after reads_resolveAndCheck fun canonical => ?_
  rw [alone_fetch]
  cases stored : w.tables.getArtifactByUri canonical.canonical with
  | none => exact .refl w
  | some artifact =>
    rw [alone_attempt]
    cases written : w.tables.upsertArtifact { artifact with deleted := true } with
    | error failure => exact .refl w
    | ok tables => exact .one (.deleted stored written)

/-- Recovery that finds no uncertain transaction deletes files of unknown transactions. -/
theorem effects_recover (certain : ∀ txn ∈ w.tables.transactions, txn.state ≠ .uncertain) :
    Effects digest w (recover.alone w).2 := by
  have none : (w.tables.transactions.filter fun txn => decide (txn.state = .uncertain)) = [] :=
    filter_eq_nil_iff.mpr fun txn member => by simpa using certain txn member
  unfold recover
  rw [alone_fetch, none]
  exact .one (.cleaned _)

/-- To unwatch what is not watched changes nothing. -/
theorem effects_unwatch (silent : ∀ watch ∈ w.tables.watches, watch.watchId = watchId → watch.active = false) :
    Effects digest w ((unwatch watchId).alone w).2 := by
  have same : w.tables.deactivateWatch watchId = w.tables := by
    have rows : (w.tables.watches.map fun watch =>
        if watch.watchId = watchId then { watch with active := false } else watch) = w.tables.watches := by
      refine (map_congr_left fun watch member => ?_).trans w.tables.watches.map_id
      split
      · rename_i here
        rw [← silent watch member here]
        rfl
      · rfl
    exact congrArg (fun watches => { w.tables with watches }) rows
  unfold unwatch
  rw [alone_save, same]
  exact .refl w

/-! ## Files -/

theorem records_of_committed {begun} {content : γ} {kernel} (begins : Effects digest w begun)
    (stored : begun.tables.getTransaction txn.transactionId = some txn) (pending : txn.state ≠ .committed)
    (committable : Committable digest (stagedWorld digest begun txn content) (stagedAs digest txn content) artifact)
    (grown : Grown begun.kernel kernel) : Records digest w content artifact
    { committedWorld digest (stagedWorld digest begun txn content) (stagedAs digest txn content) artifact with
        kernel } :=
  ⟨_, _, kernel, begins.trans (.one (.staged content stored pending)), committable,
    (lookup_upsert _).trans (if_pos rfl), rfl, grown, rfl⟩

/-- Any write records one version with its contents, or none. -/
theorem write_records {rules pid uri} {content : γ} {key expected} :
    Effects digest w ((write rules digest pid uri content key expected).alone w).2 ∨
    ∃ artifact, Records digest w content artifact ((write rules digest pid uri content key expected).alone w).2 := by
  rcases write_cases digest rules w pid uri content key expected with
    ⟨effects, -⟩ | ⟨opened, begun, txn, artifact, kernel, begins, stored, pending, committable, grown, ran⟩
  · exact .inl effects
  have same := lookup_key stored
  rw [← same] at stored
  have effects : Effects digest w ((beginWrite rules pid uri key expected).alone w).2 :=
    (idle_beginWrite pid uri key expected).effects
  rw [begins] at effects
  rw [ran]
  exact .inr ⟨artifact, records_of_committed effects stored pending committable grown⟩

/-- The calls of a history, one after the other. Between them the other services of the
kernel do what they do. -/
inductive FileCall (γ : Type) where
  | createNamespace (pid : String) (quotaBytes maxOpenHandles : Option Int)
  | setQuota (namespaceId : String) (quotaBytes : Int)
  | write (pid uri : String) (content : γ) (idempotencyKey : String) (expectedVersion : Option Int)
  | delete (pid uri : String)
  | read (pid uri : String) (version : Option Int)
  | mount (targetPid mountPoint sourceNamespaceId sourcePrefix : String) (mode : MountMode)
  | unmount (targetPid mountPoint : String)
  | elsewhere (store : KernelStore) (clock : Int) (draws : ℕ)

def FileCall.run (rules : TextRules) (digest : Digest γ) (w : FsWorld γ) : FileCall γ → FsWorld γ
  | .createNamespace pid quotaBytes maxOpenHandles =>
    ((ArtifactService.createNamespace pid quotaBytes maxOpenHandles).alone w).2
  | .setQuota namespaceId quotaBytes => ((ArtifactService.setQuota namespaceId quotaBytes).alone w).2
  | .write pid uri content idempotencyKey expectedVersion =>
    ((ArtifactService.write rules digest pid uri content idempotencyKey expectedVersion).alone w).2
  | .delete pid uri => ((ArtifactService.delete rules pid uri).alone w).2
  | .read pid uri version => ((ArtifactService.read rules pid uri version).alone w).2
  | .mount targetPid mountPoint sourceNamespaceId sourcePrefix mode =>
    ((ArtifactService.mount targetPid mountPoint sourceNamespaceId sourcePrefix mode).alone w).2
  | .unmount targetPid mountPoint => ((ArtifactService.unmount targetPid mountPoint).alone w).2
  | .elsewhere store clock draws =>
    { w with kernel := { w.kernel with store, clock, drawn := w.kernel.drawn + draws } }

/-- The contents that a call is given. -/
def FileCall.content : FileCall γ → Option γ
  | .write _ _ content _ _ => some content
  | _ => none

/-- A call has effects, records one version with the contents that it was given, or is
a step of the kernel's services. -/
theorem FileCall.run_cases (rules : TextRules) (digest : Digest γ) (w : FsWorld γ) (call : FileCall γ) :
    Effects digest w (call.run rules digest w) ∨
    (∃ content artifact, call.content = some content ∧ Records digest w content artifact (call.run rules digest w)) ∨
    ∃ kernel, w.kernel.drawn ≤ kernel.drawn ∧ call.run rules digest w = { w with kernel } := by
  cases call with
  | createNamespace pid quotaBytes maxOpenHandles => exact .inl (effects_createNamespace _)
  | setQuota namespaceId quotaBytes => exact .inl effects_setQuota
  | delete pid uri => exact .inl effects_delete
  | mount targetPid mountPoint sourceNamespaceId sourcePrefix mode => exact .inl effects_mount
  | unmount targetPid mountPoint => exact .inl effects_unmount
  | read pid uri version => exact .inl (effects_reads reads_read)
  | write pid uri content idempotencyKey expectedVersion =>
    refine write_records.imp_right fun recorded => ?_
    obtain ⟨artifact, records⟩ := recorded
    exact .inl ⟨content, artifact, rfl, records⟩
  | elsewhere store clock draws => exact .inr (.inr ⟨_, Nat.le_add_right _ _, rfl⟩)

end

end LongHorizonOS.ArtifactRuns
