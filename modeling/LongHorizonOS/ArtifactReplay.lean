import LongHorizonOS.ReadYourWrites

/-! The Artifact FS rebuilt from the journal. Each service has a handler that writes
its tables from the events; a rebuild empties the tables and gives the events to the
handlers of the kernel that it was given. -/
namespace LongHorizonOS.ArtifactReplay
open KeyedRows KernelTasks List
open ArtifactUri ArtifactModels ArtifactService ArtifactHistory ArtifactRuns ReadYourWrites

/-! ## Handlers -/

abbrev Handler := ArtifactEvent → ArtifactTables → Except FsError ArtifactTables

/-- `NamespaceService.handle_event` -/
def namespaceHandler : Handler := fun event tables =>
  match event with
  | .namespaceCreated ns => .ok (tables.upsertNamespace ns)
  | .quotaSet namespaceId quotaBytes =>
    match tables.getNamespace namespaceId with
    | none => .ok tables
    | some ns => .ok (tables.upsertNamespace { ns with quotaBytes := some quotaBytes })
  | .mountCreated mount => .ok (tables.upsertMount mount)
  | .mountRemoved mountId _ => .ok (tables.removeMount mountId)
  | _ => .ok tables

/-- Move an artifact, if it is there, to a version. -/
def moveTo (artifactId : String) (version : Int) (tables : ArtifactTables) : Except FsError ArtifactTables :=
  match tables.getArtifact artifactId with
  | none => .ok tables
  | some artifact => tables.upsertArtifact { artifact with currentVersion := version }

/-- The version that the handler makes of a committed transaction. -/
def replayedVersion (txn : WriteTransaction) (newVersion : Int) : ArtifactVersion :=
  { artifactId := txn.artifactId
    version := newVersion
    contentRef := txn.stagedContentRef
    contentHash := txn.stagedContentHash
    sizeBytes := txn.stagedSizeBytes
    parentVersion := if 1 < newVersion then some (newVersion - 1) else none
    committedByPid := txn.pid
    committedActionId := txn.transactionId }

/-- `ArtifactFSService.handle_event` -/
def artifactHandler : Handler := fun event tables =>
  match event with
  | .artifactCreated record => tables.upsertArtifact record
  | .versionCommitted row => moveTo row.artifactId row.version (tables.insertVersion row)
  | .handleOpened handle => .ok (tables.upsertHandle handle)
  | .handleClosed handleId _ =>
    match tables.getHandle handleId with
    | none => .ok tables
    | some handle => .ok (tables.upsertHandle { handle with closed := true })
  | .transactionBegun txn | .transactionStaged txn | .transactionAborted txn | .transactionConflicted txn
  | .transactionUncertain txn => .ok (tables.upsertTransaction txn)
  | .transactionCommitted txn newVersion =>
    moveTo txn.artifactId newVersion
      ((tables.upsertTransaction txn).insertVersion (replayedVersion txn newVersion))
  | .artifactDeleted artifactId _ =>
    match tables.getArtifact artifactId with
    | none => .ok tables
    | some artifact => tables.upsertArtifact { artifact with deleted := true }
  | .watchRegistered watch => .ok (tables.upsertWatch watch)
  | _ => .ok tables

/-- `rebuild_projections`, for the tables of the Artifact FS. -/
def rebuildProjections (handlers : List Handler) (journal : List ArtifactEvent) : Except FsError ArtifactTables :=
  journal.foldlM (fun tables event => handlers.foldlM (fun tables handler => handler event tables) tables) {}

/-- A kernel as one of the two factories makes it. -/
inductive Wiring where
  | createKernel
  | createKernelWithArtifacts
  deriving DecidableEq

/-- The handlers of a rebuild that write to the tables of the Artifact FS: those of the
two services if they are attached, which only `create_kernel_with_artifacts` does. -/
def Wiring.handlers : Wiring → List Handler
  | .createKernel => []
  | .createKernelWithArtifacts => [namespaceHandler, artifactHandler]

/-- `rebuild_from_journal` makes a kernel with `create_kernel`. -/
def rebuildFromJournal (journal : List ArtifactEvent) : Except FsError ArtifactTables :=
  rebuildProjections Wiring.createKernel.handlers journal

/-! ## What a rebuild restores -/

/-- The same namespaces, mounts, artifacts, versions, transactions and active watches. -/
def Matches (again tables : ArtifactTables) : Prop :=
  again.namespaces = tables.namespaces ∧ again.mounts = tables.mounts ∧ again.artifacts = tables.artifacts ∧
    again.versions = tables.versions ∧ again.transactions = tables.transactions ∧
    again.watches.filter ArtifactWatch.active = tables.watches.filter ArtifactWatch.active

instance (again tables : ArtifactTables) : Decidable (Matches again tables) :=
  inferInstanceAs (Decidable (_ ∧ _ ∧ _ ∧ _ ∧ _ ∧ _))

/-- The rebuild raises nothing, and the tables match. -/
def Agrees (rebuilt : Except FsError ArtifactTables) (tables : ArtifactTables) : Prop :=
  ∃ again, rebuilt = .ok again ∧ Matches again tables

instance (rebuilt : Except FsError ArtifactTables) (tables : ArtifactTables) : Decidable (Agrees rebuilt tables) :=
  match rebuilt with
  | .error _ => isFalse fun ⟨_, same, _⟩ => nomatch same
  | .ok again =>
    decidable_of_iff (Matches again tables)
      ⟨fun matched => ⟨again, rfl, matched⟩, fun ⟨_, same, matched⟩ => Except.ok.inj same ▸ matched⟩

/-- There is nothing to restore. -/
def Blank (tables : ArtifactTables) : Prop :=
  tables.namespaces = [] ∧ tables.mounts = [] ∧ tables.artifacts = [] ∧ tables.versions = [] ∧
    tables.transactions = [] ∧ tables.watches.filter ArtifactWatch.active = []

/-- The tables without the keys of finished writes, which no event carries. -/
def restored (tables : ArtifactTables) : ArtifactTables := { tables with idempotency := [] }

section
/-- Both handlers, one after the other. -/
def handle (tables : ArtifactTables) (event : ArtifactEvent) : Except FsError ArtifactTables :=
  namespaceHandler event tables >>= artifactHandler event

theorem rebuild_attached (journal) :
    rebuildProjections Wiring.createKernelWithArtifacts.handlers journal = journal.foldlM handle {} := by
  unfold rebuildProjections
  congr 1
  funext tables event
  simp only [Wiring.handlers, foldlM_cons, foldlM_nil, bind_pure]
  rfl

theorem rebuild_append (rebuilt : rebuildProjections Wiring.createKernelWithArtifacts.handlers journal = .ok tables) :
    rebuildProjections Wiring.createKernelWithArtifacts.handlers (journal ++ [event]) = handle tables event := by
  rw [rebuild_attached] at rebuilt ⊢
  rw [foldlM_append, rebuilt]
  exact bind_pure (handle tables event)

theorem upsertArtifact_restored (written : tables.upsertArtifact record = .ok tables') :
    (restored tables).upsertArtifact record = .ok (restored tables') := by
  unfold ArtifactTables.upsertArtifact at written ⊢
  split at written
  · cases written
  rename_i free
  cases written
  exact if_neg free

theorem handle_closed (stored : tables.getHandle opened.handleId = some opened) :
    handle (restored tables) (.handleClosed opened.handleId leaseId) =
    .ok (restored (tables.upsertHandle { opened with closed := true })) := by
  change (match tables.getHandle opened.handleId with
    | none => Except.ok (restored tables)
    | some handle => .ok ((restored tables).upsertHandle { handle with closed := true })) = _
  rw [stored]
  rfl

theorem handle_deleted (found : tables.getArtifact artifact.artifactId = some artifact)
    (written : tables.upsertArtifact { artifact with deleted := true } = .ok tables') :
    handle (restored tables) (.artifactDeleted artifact.artifactId canonicalUri) = .ok (restored tables') := by
  change (match tables.getArtifact artifact.artifactId with
    | none => Except.ok (restored tables)
    | some artifact => (restored tables).upsertArtifact { artifact with deleted := true }) = _
  rw [found]
  exact upsertArtifact_restored written

theorem handle_quotaSet (stored : tables.getNamespace ns.namespaceId = some ns) :
    handle (restored tables) (.quotaSet ns.namespaceId quotaBytes) =
    .ok (restored (tables.upsertNamespace { ns with quotaBytes := some quotaBytes })) := by
  unfold handle namespaceHandler
  dsimp only
  rw [show (restored tables).getNamespace ns.namespaceId = some ns from stored]
  rfl

/-- The version is the one that was recorded under the staged reference. -/
theorem replayedVersion_eq (same : artifact.artifactId = txn.artifactId) :
    replayedVersion { txn with state := .committed } (artifact.currentVersion + 1) =
      nextVersion artifact txn txn.stagedContentRef := by
  have parent : (if 1 < artifact.currentVersion + 1 then some (artifact.currentVersion + 1 - 1) else none) =
      if 0 < artifact.currentVersion then some artifact.currentVersion else none := by
    rw [add_sub_cancel_right]
    exact if_congr (by omega) rfl rfl
  unfold replayedVersion nextVersion
  rw [same, parent]

theorem handle_committed (found : tables.getArtifact txn.artifactId = some artifact)
    (ref : contentRef = txn.stagedContentRef) : handle (restored tables)
    (.transactionCommitted { txn with state := .committed } (artifact.currentVersion + 1)) =
      .ok (restored (committedTables tables artifact txn contentRef)) := by
  subst ref
  have same : artifact.artifactId = txn.artifactId := lookup_key found
  have here : (((restored tables).upsertTransaction { txn with state := .committed }).insertVersion
      (nextVersion artifact txn txn.stagedContentRef)).getArtifact txn.artifactId = some artifact := found
  change moveTo txn.artifactId (artifact.currentVersion + 1)
    (((restored tables).upsertTransaction { txn with state := .committed }).insertVersion
      (replayedVersion { txn with state := .committed } (artifact.currentVersion + 1))) = _
  rw [replayedVersion_eq same, moveTo, here]
  rw [← same] at here
  exact ArtifactTables.upsertArtifact_found (artifact.currentVersion + 1) artifact.deleted here

end

/-! ## Between two calls -/

section
variable {γ : Type} {digest : Digest γ} {w w' : FsWorld γ}

variable (digest) in
/-- The journal tells what is in the tables, and a staged file is what its transaction
says. -/
structure Told (w : FsWorld γ) : Prop where
  orderly : Orderly digest w
  replayed : rebuildProjections Wiring.createKernelWithArtifacts.handlers w.journal = .ok (restored w.tables)
  filed : ∀ transactionId file, lookup Prod.fst w.storage.staging transactionId = some file →
    ∃ txn, w.tables.getTransaction transactionId = some txn ∧ txn.stagedContentRef = digest.hash file.2

/-- An event that is handled as the tables were changed. -/
theorem Told.handled (told : Told digest w)
    (handled : handle (restored w.tables) event = .ok (restored tables)) :
    rebuildProjections Wiring.createKernelWithArtifacts.handlers (w.journal ++ [event]) =
    .ok (restored tables) := (rebuild_append told.replayed).trans handled

/-- Files are only deleted. -/
theorem filed_of_part (told : Told digest w) (part : String → Bool) (txnId) (file)
    (found : lookup Prod.fst (w.storage.staging.filter fun file => part file.1) txnId = some file) :
    ∃ txn, w.tables.getTransaction txnId = some txn ∧ txn.stagedContentRef = digest.hash file.2 := by
  have kept : part txnId = true := by
    have listed := (mem_filter.mp (lookup_mem found)).2
    rwa [lookup_key found] at listed
  rw [lookup_filter fun other _ here => here ▸ kept] at found
  exact told.filed txnId file found

/-- A transaction is written without another reference. -/
theorem getTransaction_revised (stored : w.tables.getTransaction txn.transactionId = some txn)
    (rewrites : Rewrites txn written) (same : written.stagedContentRef = txn.stagedContentRef)
    (known : w.tables.getTransaction transactionId = some found) :
    ∃ other, (w.tables.upsertTransaction written).getTransaction transactionId = some other ∧
      other.stagedContentRef = found.stagedContentRef := by
  rw [ArtifactTables.upsertTransaction_found stored rewrites]
  unfold ArtifactTables.getTransaction at known stored ⊢
  rw [lookup_upsert, rewrites.key]
  split
  · rename_i here
    rw [here, stored] at known
    cases known
    exact ⟨written, rfl, same⟩
  · exact ⟨found, known, rfl⟩

section
variable (told : Told digest w)
include told

/-- Every effect is told. -/
theorem Told.effect (effect : Effect digest w w') : Told digest w' := by
  have orderly := (told.orderly.effect effect).1
  have sound := told.orderly.sound
  cases effect with
  | kernel grown => exact ⟨orderly, told.replayed, told.filed⟩
  | unlinked transactionId =>
    exact ⟨orderly, told.replayed, filed_of_part told fun named => decide (named ≠ transactionId)⟩
  | cleaned known => exact ⟨orderly, told.replayed, filed_of_part told fun named => decide (named ∈ known)⟩
  | created named unversioned inserted =>
    refine ⟨orderly, told.handled (upsertArtifact_restored inserted), ?_⟩
    obtain ⟨-, rfl⟩ := ArtifactTables.upsertArtifact_new (named ▸ sound.freshArtifact) inserted
    exact told.filed
  | begun named state expecting based =>
    refine ⟨orderly, told.handled rfl, fun transactionId file found => ?_⟩
    obtain ⟨txn, known, ref⟩ := told.filed transactionId file found
    refine ⟨txn, ?_, ref⟩
    rw [ArtifactTables.upsertTransaction_new (named ▸ sound.freshTransaction)]
    exact (lookup_append _ _ _).trans (by rw [show lookup _ _ _ = some txn from known]; rfl)
  | @staged txn content stored pending =>
    have rewrites : Rewrites txn (stagedAs digest txn content) := rfl
    refine ⟨orderly, told.handled rfl, fun transactionId file found => ?_⟩
    have listed : lookup Prod.fst (upsert Prod.fst (txn.transactionId, content) w.storage.staging) transactionId =
        some file := found
    rw [lookup_upsert] at listed
    split at listed
    · rename_i here
      cases listed
      exact ⟨stagedAs digest txn content, here ▸ getTransaction_staged stored, rfl⟩
    rename_i elsewhere
    obtain ⟨other, known, ref⟩ := told.filed transactionId file listed
    refine ⟨other, ?_, ref⟩
    have shape : w.tables.upsertTransaction (stagedAs digest txn content) = _ :=
      ArtifactTables.upsertTransaction_found stored rewrites
    change (w.tables.upsertTransaction (stagedAs digest txn content)).getTransaction transactionId = _
    rw [shape]
    exact (lookup_upsert _).trans ((if_neg elsewhere).trans known)
  | @ended txn state event ends stored pending =>
    refine ⟨orderly, told.handled (by cases ends <;> rfl), fun transactionId file found => ?_⟩
    obtain ⟨other, known, ref⟩ := told.filed transactionId file found
    have rewrites : Rewrites txn { txn with state } := rfl
    obtain ⟨again, now, same⟩ := getTransaction_revised stored rewrites rfl known
    exact ⟨again, now, same.trans ref⟩
  | opened named => exact ⟨orderly, told.handled rfl, told.filed⟩
  | closed stored => exact ⟨orderly, told.handled (handle_closed stored), told.filed⟩
  | watched named => exact ⟨orderly, told.handled rfl, told.filed⟩
  | @deleted artifact canonicalUri tables stored written =>
    have found := lookup_of_mem sound.artifactIds (lookup_mem stored)
    refine ⟨orderly, told.handled (handle_deleted found written), ?_⟩
    rw [ArtifactTables.upsertArtifact_deleted sound.artifactIds (lookup_mem stored)] at written
    cases written
    exact told.filed
  | namespaceCreated ns => exact ⟨orderly, told.handled rfl, told.filed⟩
  | quotaSet quotaBytes stored => exact ⟨orderly, told.handled (handle_quotaSet stored), told.filed⟩
  | mounted named => exact ⟨orderly, told.handled rfl, told.filed⟩
  | unmounted mountId mountPoint => exact ⟨orderly, told.handled rfl, told.filed⟩

theorem Told.effects (effects : Effects digest w w') : Told digest w' := by
  induction effects with
  | refl => exact told
  | tail _ effect ih => exact ih.effect effect

/-- The reference under which a version is recorded is the staged one. -/
theorem Told.ref_staged (stored : w.tables.getTransaction txn.transactionId = some txn) :
    recordedRef digest w txn = txn.stagedContentRef := by
  unfold recordedRef Storage.commit committedRef
  cases staged : lookup Prod.fst w.storage.staging txn.transactionId with
  | none => rfl
  | some file =>
    obtain ⟨known, there, ref⟩ := told.filed txn.transactionId file staged
    rw [stored] at there
    cases there
    dsimp only
    split
    · rfl
    exact ref.symm

/-- So is a recorded version. -/
theorem Told.committed {artifact} {kernel}
    (committable : Committable digest w txn artifact) (grown : Grown w.kernel kernel) :
    Told digest { committedWorld digest w txn artifact with kernel } := by
  have orderly := (told.orderly.commit committable grown).1
  have ref := told.ref_staged committable.stored
  refine ⟨orderly, told.handled (handle_committed committable.found ref), fun transactionId file found => ?_⟩
  have filed : ∃ other, w.tables.getTransaction transactionId = some other ∧
      other.stagedContentRef = digest.hash file.2 := by
    change lookup Prod.fst (w.storage.commit digest txn.transactionId).2.staging transactionId = some file at found
    unfold Storage.commit at found
    split at found
    · exact told.filed transactionId file found
    exact filed_of_part told (fun named => decide (named ≠ txn.transactionId)) transactionId file found
  obtain ⟨other, known, ref⟩ := filed
  have rewrites : Rewrites txn { txn with state := .committed } := rfl
  obtain ⟨again, now, same⟩ := getTransaction_revised committable.stored rewrites rfl known
  exact ⟨again, now, same.trans ref⟩

end

/-! ## Runs -/

/-- The calls of a run: those on files, and the others of the service. -/
inductive ArtifactCall (γ : Type) where
  | file (call : FileCall γ)
  | beginWrite (pid uri idempotencyKey : String) (expectedVersion : Option Int)
  | stage (transactionId : String) (content : γ)
  | commit (transactionId : String)
  | abort (transactionId : String)
  | openHandle (pid uri : String) (mode : HandleMode) (expectedVersion : Option Int)
  | close (handleId : String)
  | closeAllForPid (pid : String)
  | watch (pid uriPrefix : String)
  | unwatch (watchId : String)
  | recover

def ArtifactCall.run (rules : TextRules) (digest : Digest γ) (w : FsWorld γ) : ArtifactCall γ → FsWorld γ
  | .file call => call.run rules digest w
  | .beginWrite pid uri idempotencyKey expectedVersion =>
    ((ArtifactService.beginWrite rules pid uri idempotencyKey expectedVersion).alone w).2
  | .stage transactionId content => ((ArtifactService.stage digest transactionId content).alone w).2
  | .commit transactionId => ((ArtifactService.commit digest transactionId).alone w).2
  | .abort transactionId => ((ArtifactService.abort transactionId).alone w).2
  | .openHandle pid uri mode expectedVersion =>
    ((ArtifactService.openHandle rules pid uri mode expectedVersion).alone w).2
  | .close handleId => ((ArtifactService.close handleId).alone w).2
  | .closeAllForPid pid => ((ArtifactService.closeAllForPid pid).alone w).2
  | .watch pid uriPrefix => ((ArtifactService.watch pid uriPrefix).alone w).2
  | .unwatch watchId => ((ArtifactService.unwatch watchId).alone w).2
  | .recover => (ArtifactService.recover.alone w).2

/-- The calls one after the other, from empty tables. -/
def runArtifacts (rules : TextRules) (digest : Digest γ) (kernel : World) (calls : List (ArtifactCall γ)) :
    FsWorld γ := calls.foldl (ArtifactCall.run rules digest) { kernel }

/-- The call changes nothing that it does not journal: it does not end a watch that is
active, and recovery finds nothing to decide. -/
def Journalled (w : FsWorld γ) : ArtifactCall γ → Prop
  | .unwatch watchId => ∀ watch ∈ w.tables.watches, watch.watchId = watchId → watch.active = false
  | .recover => ∀ txn ∈ w.tables.transactions, txn.state ≠ .uncertain
  | _ => True

/-- What a call that journals its changes does is told. -/
theorem Told.call (rules) (told : Told digest w) {call} (journalled : Journalled w call) :
    Told digest (call.run rules digest w) := by
  cases call with
  | file call =>
    rcases call.run_cases rules digest w with effects | ⟨content, artifact, -, records⟩ | ⟨kernel, drawn, ran⟩
    · exact told.effects effects
    · obtain ⟨before, txn, kernel, effects, committable, -, -, grown, ran⟩ := records
      change Told digest (call.run rules digest w)
      rw [ran]
      exact (told.effects effects).committed committable grown
    · change Told digest (call.run rules digest w)
      rw [ran]
      exact ⟨told.orderly.congr drawn rfl rfl rfl told.orderly.hashed, told.replayed, told.filed⟩
  | beginWrite pid uri idempotencyKey expectedVersion => exact told.effects (idle_beginWrite _ _ _ _).effects
  | stage transactionId content => exact told.effects (effects_stage _ _)
  | commit transactionId =>
    rcases commit_cases digest w transactionId with
      ⟨idle, -⟩ | ⟨txn, artifact, kernel, committable, -, grown, ran⟩
    · exact told.effects idle.effects
    change Told digest ((commit digest transactionId).alone w).2
    rw [ran]
    exact told.committed committable grown
  | abort transactionId => exact told.effects (idle_abort _).effects
  | openHandle pid uri mode expectedVersion => exact told.effects (effects_openHandle _ _ _ _)
  | close handleId => exact told.effects (effects_close _)
  | closeAllForPid pid => exact told.effects (effects_closeAllForPid _)
  | watch pid uriPrefix => exact told.effects (effects_watch _ _)
  | unwatch watchId => exact told.effects (effects_unwatch journalled)
  | recover => exact told.effects (effects_recover journalled)

/-- After a run whose calls journal all their changes, the journal tells the tables. -/
theorem told_run (rules) (kernel) (journalled : ∀ before call later, calls = before ++ call :: later →
      Journalled (runArtifacts rules digest kernel before) call) :
    Told digest (runArtifacts rules digest kernel calls) := by
  induction calls using List.reverseRecOn with
  | nil => exact ⟨(faithful_history rules digest kernel []).orderly, rfl, nofun⟩
  | append_singleton calls call ih =>
    have earlier := ih fun before other later split => journalled before other (later ++ [call]) (by simp [split])
    have last := earlier.call rules (journalled calls call [] rfl)
    unfold runArtifacts at last ⊢
    rw [foldl_append]
    exact last

theorem agrees_restored : Agrees (.ok (restored tables)) tables :=
  ⟨_, rfl, rfl, rfl, rfl, rfl, rfl, rfl⟩

/-- A rebuild without the services of the Artifact FS leaves its tables empty. -/
theorem rebuild_detached : rebuildProjections Wiring.createKernel.handlers journal = .ok {} := by
  induction journal with
  | nil => rfl
  | cons event journal ih => exact ih

theorem agrees_empty : Agrees (.ok {}) tables ↔ Blank tables := by
  constructor
  · rintro ⟨_, ⟨⟩, namespaces, mounts, artifacts, versions, transactions, watches⟩
    exact ⟨namespaces.symm, mounts.symm, artifacts.symm, versions.symm, transactions.symm, watches.symm⟩
  rintro ⟨namespaces, mounts, artifacts, versions, transactions, watches⟩
  exact ⟨_, rfl, namespaces.symm, mounts.symm, artifacts.symm, versions.symm, transactions.symm, watches.symm⟩

/-- After every run whose calls journal all their changes, a rebuild restores the tables
just when the services are attached to the kernel or there is nothing to restore. -/
theorem rebuilt_artifacts_agree (rules : TextRules) (digest : Digest γ) (kernel : World)
    {calls : List (ArtifactCall γ)} (journalled : ∀ before call later, calls = before ++ call :: later →
      Journalled (runArtifacts rules digest kernel before) call) (wiring : Wiring) :
    Agrees (rebuildProjections wiring.handlers (runArtifacts rules digest kernel calls).journal)
        (runArtifacts rules digest kernel calls).tables ↔
      wiring = .createKernelWithArtifacts ∨ Blank (runArtifacts rules digest kernel calls).tables := by
  have told := told_run rules kernel journalled
  cases wiring with
  | createKernel =>
    rw [rebuild_detached, agrees_empty]
    exact ⟨.inr, fun blank => blank.resolve_left nofun⟩
  | createKernelWithArtifacts =>
    rw [told.replayed]
    exact ⟨fun _ => .inl rfl, fun _ => agrees_restored⟩

end

/-! ## Four runs -/

def textRun (calls : List (ArtifactCall String)) : FsWorld String :=
  runArtifacts plainRules plainDigest owner calls

/-- A namespace with a quota, a watch and a file that was written. -/
def writtenRun : List (ArtifactCall String) :=
  [.file (.createNamespace "p" (some 3) none), .watch "p" "artifact://ns-p/",
    .file (.write "p" "workspace:///f" "a" "k" none), .file (.delete "p" "workspace:///f")]

/-- The watch is ended. -/
def unwatchedRun : List (ArtifactCall String) := writtenRun ++ [.unwatch "u"]

/-- The contents of a transaction are replaced by some that are too large, which are lost:
the commit is uncertain, and recovery aborts it. -/
def recoveredRun : List (ArtifactCall String) :=
  [.file (.createNamespace "p" (some 3) none), .beginWrite "p" "workspace:///f" "k" none, .stage "uu" "a",
    .stage "uu" "long", .commit "uu", .recover]

/-- `rebuild_from_journal` restores nothing of the Artifact FS; and a rebuild with its
services activates a watch again that was ended and undoes what recovery has decided. -/
theorem rebuilds_lose_changes :
    ¬ Agrees (rebuildFromJournal (textRun writtenRun).journal) (textRun writtenRun).tables ∧
    ¬ Agrees (rebuildProjections Wiring.createKernelWithArtifacts.handlers (textRun unwatchedRun).journal)
      (textRun unwatchedRun).tables ∧
    ¬ Agrees (rebuildProjections Wiring.createKernelWithArtifacts.handlers (textRun recoveredRun).journal)
      (textRun recoveredRun).tables := by
  decide +kernel

theorem writtenRun_journalled (before) (call) (later) (split : writtenRun = before ++ call :: later) :
    Journalled (runArtifacts plainRules plainDigest owner before) call := by
  have member : call ∈ writtenRun := split ▸ mem_append_right _ mem_cons_self
  simp only [writtenRun, mem_cons, not_mem_nil, or_false] at member
  rcases member with rfl | rfl | rfl | rfl <;> trivial

/-- The run with the file is restored when the services are attached. -/
theorem written_run_is_restored :
    Agrees (rebuildProjections Wiring.createKernelWithArtifacts.handlers (textRun writtenRun).journal)
      (textRun writtenRun).tables ∧ (textRun writtenRun).tables.versions.length = 1 :=
  ⟨(rebuilt_artifacts_agree plainRules plainDigest owner writtenRun_journalled .createKernelWithArtifacts).mpr
    (.inl rfl), by decide +kernel⟩

end LongHorizonOS.ArtifactReplay
