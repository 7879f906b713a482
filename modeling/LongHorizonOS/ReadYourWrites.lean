import LongHorizonOS.ArtifactHistory
import LongHorizonOS.ArtifactRuns

/-! Reading what was written. Between two calls the version tables are consistent and
every version has its bytes in the store, so a write that is reported as committed
is what the next read of the same URI returns, as long as nobody has deleted the
artifact before. -/
namespace LongHorizonOS.ReadYourWrites
open KeyedRows FailFast AtomicPrograms KernelTasks
open List hiding lookup lookup_append
open ArtifactUri ArtifactModels ArtifactService ArtifactHistory ArtifactRuns

section
variable {γ : Type} {digest : Digest γ} {w w' : FsWorld γ}

/-! ## Between two calls -/

variable (digest) in
/-- The tables are consistent and the store is addressed by content. -/
structure Orderly (w : FsWorld γ) : Prop where
  sound : Sound w
  settled : ∀ debt, ¬ Due w debt
  uris : (w.tables.artifacts.map ArtifactRecord.canonicalUri).Nodup
  hashed : ∀ file ∈ w.storage.cas, file.1 = digest.hash file.2

/-- No version and no content comes or goes. -/
structure Steady (w w' : FsWorld γ) : Prop where
  versions : w'.tables.versions = w.tables.versions
  cas : w'.storage.cas = w.storage.cas
  capabilities : w'.kernel.store.capabilitySets = w.kernel.store.capabilitySets

theorem Steady.trans (first : Steady w w') (second : Steady w' w'') : Steady w w'' :=
  ⟨second.versions.trans first.versions, second.cas.trans first.cas, second.capabilities.trans first.capabilities⟩

/-- A step that opens no debt leaves none. -/
theorem settled_of_keeps (keeps : Keeps access w w') (closed : ∀ debt, ¬ opens access debt)
    (settled : ∀ debt, ¬ Due w debt) (debt) : ¬ Due w' debt := fun due =>
  (keeps.settles debt due).elim (fun old => settled debt old.1) (closed debt)

theorem orderly_start (kernel) : Orderly digest { kernel } :=
  ⟨sound_start kernel, by rintro (_ | _) <;> exact nofun, .nil, nofun⟩

section
variable (orderly : Orderly digest w)
include orderly

/-- What the tables do not say does not matter. -/
theorem Orderly.congr (drawn : w.kernel.drawn ≤ w'.kernel.drawn)
    (artifacts : w'.tables.artifacts = w.tables.artifacts) (versions : w'.tables.versions = w.tables.versions)
    (transactions : w'.tables.transactions = w.tables.transactions)
    (hashed : ∀ file ∈ w'.storage.cas, file.1 = digest.hash file.2) : Orderly digest w' := by
  have keeps : Keeps .other w w' := .quiet orderly.sound ⟨calm_other, drawn, artifacts, versions, transactions⟩
  exact ⟨keeps.sound, settled_of_keeps keeps (fun _ => id) orderly.settled, artifacts ▸ orderly.uris, hashed⟩

/-- A step on the tables alone. -/
theorem Orderly.keeps (keeps : Keeps access w w') (closed : ∀ debt, ¬ opens access debt)
    (uris : (w'.tables.artifacts.map ArtifactRecord.canonicalUri).Nodup)
    (cas : w'.storage.cas = w.storage.cas) : Orderly digest w' :=
  ⟨keeps.sound, settled_of_keeps keeps closed orderly.settled, uris, cas ▸ orderly.hashed⟩

/-- Records are changed without their ids, URIs and versions. -/
theorem Orderly.remark (mark : ArtifactRecord → ArtifactRecord)
    (marks : ∀ record, mark record = { record with deleted := (mark record).deleted }) :
    Orderly digest { w with tables := { w.tables with artifacts := w.tables.artifacts.map mark } } := by
  have id : ∀ record, (mark record).artifactId = record.artifactId := fun record => by rw [marks record]
  have version : ∀ record, (mark record).currentVersion = record.currentVersion := fun record => by
    rw [marks record]
  have uri : ∀ record, (mark record).canonicalUri = record.canonicalUri := fun record => by rw [marks record]
  have ids : (w.tables.artifacts.map mark).map ArtifactRecord.artifactId =
      w.tables.artifacts.map ArtifactRecord.artifactId := by
    rw [map_map]
    exact map_congr_left fun record _ => id record
  have sound := orderly.sound
  refine ⟨?_, ?_, ?_, orderly.hashed⟩
  · exact { sound with
      artifactIds := ids ▸ sound.artifactIds
      drawnArtifact := forall_mem_map.mpr fun old stored => by
        rw [id]
        exact sound.drawnArtifact old stored
      counted := forall_mem_map.mpr fun old stored => by
        rw [version]
        exact sound.counted old stored
      covered := forall_mem_map.mpr fun old stored => by
        rw [version, id]
        exact sound.covered old stored
      bounded := fun row listed => by
        obtain ⟨record, stored, named, bounds⟩ := sound.bounded row listed
        refine ⟨mark record, mem_map_of_mem stored, ?_⟩
        rw [version, id]
        exact ⟨named, bounds⟩
      based := fun txn listed => ids ▸ sound.based txn listed }
  · rintro (artifactId | transactionId) due
    · obtain ⟨record, member, named, row, listed, placed⟩ := due
      obtain ⟨old, stored, rfl⟩ := mem_map.mp member
      rw [id] at named
      rw [version] at placed
      exact orderly.settled (.unadvanced artifactId) ⟨old, stored, named, row, listed, placed⟩
    · exact orderly.settled (.unmarked transactionId) due
  · have same : w.tables.artifacts.map (ArtifactRecord.canonicalUri ∘ mark) =
        w.tables.artifacts.map ArtifactRecord.canonicalUri := map_congr_left fun record _ => uri record
    rw [map_map, same]
    exact orderly.uris

/-- Every effect other than a new version leaves the versions and the contents alone. -/
theorem Orderly.effect (effect : Effect digest w w') : Orderly digest w' ∧ Steady w w' := by
  have sound := orderly.sound
  cases effect with
  | kernel grown => exact ⟨orderly.congr grown.drawn rfl rfl rfl orderly.hashed, rfl, rfl, grown.capabilities⟩
  | unlinked transactionId => exact ⟨orderly.congr le_rfl rfl rfl rfl orderly.hashed, rfl, rfl, rfl⟩
  | cleaned known => exact ⟨orderly.congr le_rfl rfl rfl rfl orderly.hashed, rfl, rfl, rfl⟩
  | created named unversioned inserted =>
    obtain ⟨free, rfl⟩ := ArtifactTables.upsertArtifact_new (named ▸ sound.freshArtifact) inserted
    have grown := orderly.keeps (.newArtifact sound named unversioned) (fun _ => id) (by
      change (List.map _ (_ ++ [_])).Nodup
      rw [map_append]
      exact nodup_append_single orderly.uris free) rfl
    exact ⟨grown.congr le_rfl rfl rfl rfl grown.hashed, rfl, rfl, rfl⟩
  | begun named state expecting based =>
    rw [ArtifactTables.upsertTransaction_new (named ▸ sound.freshTransaction)]
    have grown := orderly.keeps (.newTransaction sound named state based expecting) (fun _ => id) orderly.uris rfl
    exact ⟨grown.congr le_rfl rfl rfl rfl grown.hashed, rfl, rfl, rfl⟩
  | @staged txn content stored pending =>
    have rewrites : Rewrites txn (stagedAs digest txn content) := rfl
    have kept := orderly.keeps (.revise sound stored rewrites pending nofun) (fun _ => id) orderly.uris rfl
    exact ⟨kept.congr le_rfl rfl rfl rfl kept.hashed, rfl, rfl, rfl⟩
  | @ended txn state event ends stored pending =>
    have rewrites : Rewrites txn { txn with state } := rfl
    have unmarked : state ≠ .committed := by cases ends <;> exact nofun
    have kept := orderly.keeps (.revise sound stored rewrites pending fun marked => absurd marked unmarked)
      (fun _ => id) orderly.uris rfl
    exact ⟨kept.congr le_rfl rfl rfl rfl kept.hashed, rfl, rfl, rfl⟩
  | opened named => exact ⟨orderly.congr (Nat.le_succ _) rfl rfl rfl orderly.hashed, rfl, rfl, rfl⟩
  | closed stored => exact ⟨orderly.congr le_rfl rfl rfl rfl orderly.hashed, rfl, rfl, rfl⟩
  | watched named => exact ⟨orderly.congr (Nat.le_succ _) rfl rfl rfl orderly.hashed, rfl, rfl, rfl⟩
  | @deleted artifact canonicalUri tables stored written =>
    rw [ArtifactTables.upsertArtifact_deleted sound.artifactIds (lookup_mem stored)] at written
    cases written
    have kept := orderly.remark (fun record =>
      if record.artifactId = artifact.artifactId then { record with deleted := true } else record)
      fun record => by split <;> rfl
    exact ⟨kept.congr le_rfl rfl rfl rfl kept.hashed, rfl, rfl, rfl⟩
  | namespaceCreated ns => exact ⟨orderly.congr le_rfl rfl rfl rfl orderly.hashed, rfl, rfl, rfl⟩
  | quotaSet quotaBytes stored => exact ⟨orderly.congr le_rfl rfl rfl rfl orderly.hashed, rfl, rfl, rfl⟩
  | mounted named => exact ⟨orderly.congr (Nat.le_succ _) rfl rfl rfl orderly.hashed, rfl, rfl, rfl⟩
  | unmounted mountId mountPoint => exact ⟨orderly.congr le_rfl rfl rfl rfl orderly.hashed, rfl, rfl, rfl⟩

/-- So does any number of them. -/
theorem Orderly.effects (effects : Effects digest w w') : Orderly digest w' ∧ Steady w w' := by
  induction effects with
  | refl => exact ⟨orderly, rfl, rfl, rfl⟩
  | tail _ effect ih =>
    obtain ⟨before, steady⟩ := ih
    obtain ⟨after, also⟩ := before.effect effect
    exact ⟨after, steady.trans also⟩

end

/-! ## A new version -/

section
variable {storage : Storage γ}

/-- The file of the transaction is moved to where its hash says. -/
theorem commit_staged (staged : lookup Prod.fst storage.staging transactionId = some (transactionId, content)) :
    storage.commit digest transactionId = ({ contentRef := digest.hash content, committed := true },
      { storage.unlink transactionId with
        cas := upsertWith Prod.fst (fun old _ => old) (digest.hash content, content) storage.cas }) := by
  rw [Storage.commit, staged]

theorem recordedRef_staged (staged : lookup Prod.fst w.storage.staging txn.transactionId =
      some (txn.transactionId, content)) (ref : txn.stagedContentRef = digest.hash content) :
    recordedRef digest w txn = digest.hash content := by
  rw [recordedRef, commit_staged staged, committedRef]
  split
  · exact ref
  rfl

/-- The tables after a commit are consistent again. -/
theorem Orderly.committed (orderly : Orderly digest w) (committable : Committable digest w txn artifact)
    (contentRef) :
    Orderly digest { w with tables := committedTables w.tables artifact txn contentRef } ∧
    (committedTables w.tables artifact txn contentRef).versions =
      w.tables.versions ++ [nextVersion artifact txn contentRef] := by
  have sound := orderly.sound
  have same : artifact.artifactId = txn.artifactId := lookup_key committable.found
  have found : w.tables.getArtifact artifact.artifactId = some artifact := same ▸ committable.found
  have expected := sound.expected committable.stored committable.passed
  have free : w.tables.getVersion artifact.artifactId (artifact.currentVersion + 1) = none := by
    refine lookup_eq_none.mpr fun taken => ?_
    obtain ⟨row, listed, placed⟩ := mem_map.mp taken
    exact orderly.settled (.unadvanced artifact.artifactId) ⟨artifact, lookup_mem found, rfl, row, listed, placed⟩
  have appended : w.tables.insertVersion (nextVersion artifact txn contentRef) =
      { w.tables with versions := w.tables.versions ++ [nextVersion artifact txn contentRef] } :=
    ArtifactTables.insertVersion_new free
  have inserted : Keeps (.insertVersion artifact txn (nextVersion artifact txn contentRef)) w
      { w with tables := w.tables.insertVersion (nextVersion artifact txn contentRef) } :=
    .insertVersion sound same.symm expected ⟨found, committable.stored, fun _ => expected, free⟩
  have listed : nextVersion artifact txn contentRef ∈
      (w.tables.insertVersion (nextVersion artifact txn contentRef)).versions := by
    rw [appended]
    exact mem_append_right _ (mem_singleton_self _)
  have advanced := Keeps.advance inserted.sound found listed
  have concluded := Keeps.conclude advanced.sound committable.stored listed rfl rfl
  have settled : ∀ debt, ¬ Due _ debt := fun debt due => by
    rcases concluded.settles debt due with ⟨due, marked⟩ | ⟨⟨⟩⟩
    rcases advanced.settles debt due with ⟨due, moved⟩ | unmarked
    · rcases inserted.settles debt due with ⟨due, -⟩ | opened
      · exact orderly.settled debt due
      exact moved opened
    · exact marked unmarked
  have uris : (upsert ArtifactRecord.artifactId { artifact with currentVersion := artifact.currentVersion + 1 }
      w.tables.artifacts).map ArtifactRecord.canonicalUri = w.tables.artifacts.map ArtifactRecord.canonicalUri :=
    map_upsert_stored found rfl
  have steady : Orderly digest _ := ⟨concluded.sound, settled, uris ▸ orderly.uris, orderly.hashed⟩
  exact ⟨steady.congr le_rfl rfl rfl rfl orderly.hashed, congrArg ArtifactTables.versions appended⟩

/-- Whatever is moved into the store is under its hash. -/
theorem hashed_commit (hashed : ∀ file ∈ storage.cas, file.1 = digest.hash file.2) (txnId) :
    ∀ file ∈ (storage.commit digest txnId).2.cas, file.1 = digest.hash file.2 := by
  unfold Storage.commit
  split
  · exact hashed
  rw [upsertWith_ignore]
  split
  · exact hashed
  intro file member
  rcases mem_append.mp member with old | new
  · exact hashed file old
  cases mem_singleton.mp new
  rfl

/-- The store after a content was moved into it: nothing else changes, and its hash leads
to it. -/
theorem commit_reads (staged : lookup Prod.fst storage.staging transactionId = some (transactionId, content))
    (hashed : ∀ file ∈ storage.cas, file.1 = digest.hash file.2) :
    (∀ ref bytes, storage.read ref = some bytes → (storage.commit digest transactionId).2.read ref = some bytes) ∧
    (storage.commit digest transactionId).2.read (digest.hash content) = some content := by
  rw [commit_staged staged]
  unfold Storage.read
  rw [upsertWith_ignore]
  split
  · rename_i known
    obtain ⟨file, found⟩ := exists_lookup known
    have same : digest.hash file.2 = digest.hash content := by
      rw [← hashed file (lookup_mem found)]
      exact lookup_key found
    refine ⟨fun _ _ => id, ?_⟩
    rw [found, Option.map_some, digest.injective same]
  rename_i fresh
  refine ⟨fun ref bytes stored => ?_, ?_⟩
  · rw [lookup_append]
    obtain ⟨file, found, rfl⟩ := Option.map_eq_some_iff.mp stored
    rw [found]
    rfl
  · rw [lookup_append_single _ _ fresh, if_pos rfl]
    rfl

/-- After a commit everything is in order again, and there is one more version. -/
theorem Orderly.commit {kernel} (orderly : Orderly digest w)
    (committable : Committable digest w txn artifact) (grown : Grown w.kernel kernel) :
    Orderly digest { committedWorld digest w txn artifact with kernel } ∧
    (committedWorld digest w txn artifact).tables.versions =
    w.tables.versions ++ [nextVersion artifact txn (recordedRef digest w txn)] := by
  obtain ⟨recorded, versions⟩ := orderly.committed committable (recordedRef digest w txn)
  exact ⟨recorded.congr grown.drawn rfl rfl rfl (hashed_commit orderly.hashed txn.transactionId), versions⟩

/-- One version was added, which leads to these contents. -/
structure Extends (w : FsWorld γ) (content : γ) (artifact : ArtifactRecord) (row : ArtifactVersion)
    (w' : FsWorld γ) : Prop where
  versions : w'.tables.versions = w.tables.versions ++ [row]
  placed : row.place = (artifact.artifactId, artifact.currentVersion + 1)
  current : { artifact with currentVersion := artifact.currentVersion + 1 } ∈ w'.tables.artifacts
  stored : w'.storage.read row.contentRef = some content
  kept : ∀ ref bytes, w.storage.read ref = some bytes → w'.storage.read ref = some bytes
  capabilities : w'.kernel.store.capabilitySets = w.kernel.store.capabilitySets

theorem Orderly.records (orderly : Orderly digest w) (records : Records digest w content artifact w') :
    Orderly digest w' ∧ ∃ row, Extends w content artifact row w' := by
  obtain ⟨before, txn, kernel, effects, committable, staged, ref, grown, rfl⟩ := records
  obtain ⟨middle, steady⟩ := orderly.effects effects
  obtain ⟨recorded, versions⟩ := middle.commit committable grown
  obtain ⟨kept, stored⟩ := commit_reads staged middle.hashed
  refine ⟨recorded, nextVersion artifact txn (recordedRef digest before txn), ?_⟩
  constructor
  case versions => exact versions.trans (congrArg (· ++ _) steady.versions)
  case placed => rfl
  case current => exact (mem_upsert_iff middle.sound.artifactIds).mpr (.inl rfl)
  case stored =>
    rw [recordedRef_staged staged ref]
    exact stored
  case kept =>
    intro ref bytes held
    refine kept ref bytes ?_
    unfold Storage.read at held ⊢
    rw [steady.cas]
    exact held
  case capabilities => exact grown.capabilities.trans steady.capabilities

end

/-! ## What a read finds -/

section
variable {pid uri : String}

theorem alone_demandCapability (permitted : permits w.kernel.store pid canonical.namespaceId mode = true) :
    (demandCapability pid canonical mode).alone w = (.ok (), w) := by
  unfold demandCapability
  rw [alone_look, permitted]
  rfl

theorem permits_congr (same : store'.capabilitySets = store.capabilitySets) :
    permits store pid namespaceId mode = permits store' pid namespaceId mode := by
  unfold permits CapabilityService.check CapabilityService.getCapabilitySet
  rw [same]

/-- A read of an artifact that is there and not deleted goes to the artifact. -/
theorem resolveAndCheck_read (resolved : resolveWorkspaceUri rules uri (namespaceOf pid) = .ok canonical)
    (readable : permits w.kernel.store pid canonical.namespaceId .read = true)
    (found : w.tables.getArtifactByUri canonical.canonical = some artifact) (live : artifact.deleted = false) :
    (resolveAndCheck rules pid uri .read).alone w = (.ok canonical, w) := by
  have settled : Task.alone (settle (resolveWorkspaceUri rules uri (namespaceOf pid))) w = (.ok canonical, w) := by
    rw [resolved]
    rfl
  have routed : Task.alone (route pid canonical .read) w = (.ok canonical, w) := by
    unfold route
    split
    · have there : ¬ Missing (some artifact) := fun missing => by simpa [live] using missing artifact rfl
      rw [alone_fetch, found, if_neg there]
      rfl
    · rfl
  have sourced : Task.alone (demandSourceCapability pid canonical .read) w = (.ok (), w) := by
    unfold demandSourceCapability
    split
    · exact alone_demandCapability readable
    rfl
  unfold resolveAndCheck
  rw [alone_bind_ok settled, alone_bind_ok (alone_demandCapability readable), alone_bind_ok routed,
    alone_bind_ok sourced]
  rfl

theorem orCurrent_some (nonzero : version ≠ 0) : orCurrent (some version) current = version := by
  simp [orCurrent, Option.filter, nonzero]

/-- A read returns the contents of the version that it is about. -/
theorem alone_read (resolved : resolveWorkspaceUri rules uri (namespaceOf pid) = .ok canonical)
    (readable : permits w.kernel.store pid canonical.namespaceId .read = true)
    (found : w.tables.getArtifactByUri canonical.canonical = some artifact)
    (live : artifact.deleted = false) (positive : 1 ≤ orCurrent version artifact.currentVersion)
    (known : orCurrent version artifact.currentVersion ≤ artifact.currentVersion)
    (listed : w.tables.getVersion artifact.artifactId (orCurrent version artifact.currentVersion) = some row)
    (stored : w.storage.read row.contentRef = some bytes) : (read rules pid uri version).alone w = (.ok bytes, w) := by
  have versioned : ¬ (artifact.deleted = true ∨ artifact.currentVersion = 0) := by
    rw [live]
    rintro (⟨⟨⟩⟩ | none)
    omega
  have inside : ¬ (orCurrent version artifact.currentVersion < 1 ∨
      artifact.currentVersion < orCurrent version artifact.currentVersion) := by omega
  unfold ArtifactService.read
  rw [alone_bind_ok (resolveAndCheck_read resolved readable found live), alone_fetch, found]
  dsimp only
  rw [if_neg versioned, if_neg inside, alone_fetch, listed]
  rw [alone_look, stored]
  rfl

end

/-! ## Where a write goes -/

section
variable {pid uri : String}

/-- A write goes where the URI says. -/
theorem resolveAndCheck_write (returned : ((resolveAndCheck rules pid uri .write).alone w).1 = .ok resolved) :
    resolveWorkspaceUri rules uri (namespaceOf pid) = .ok resolved := by
  revert returned
  unfold resolveAndCheck
  cases names : resolveWorkspaceUri rules uri (namespaceOf pid) with
  | error failure => exact nofun
  | ok canonical =>
    have settled : Task.alone (settle (.ok canonical)) w = (.ok canonical, w) := rfl
    have routed : Task.alone (route pid canonical .write) w = (.ok canonical, w) := rfl
    rw [alone_bind_ok settled, alone_reads_bind reads_demandCapability]
    split
    · exact nofun
    rw [alone_bind_ok routed, alone_reads_bind reads_demandSourceCapability]
    split
    · exact nofun
    exact id

/-- The record at a URI, or a new one. -/
theorem findOrCreate_returned (sound : Sound w) (pid) (canonical) (record)
    (returned : ((findOrCreate pid canonical (w.tables.getArtifactByUri canonical.canonical) .write).alone w).1 =
      .ok record) : record ∈ ((findOrCreate pid canonical (w.tables.getArtifactByUri canonical.canonical)
        .write).alone w).2.tables.artifacts ∧
    ((findOrCreate pid canonical (w.tables.getArtifactByUri canonical.canonical)
        .write).alone w).2.tables.transactions = w.tables.transactions ∧
    record.canonicalUri = canonical.canonical ∧ (w.tables.getArtifactByUri canonical.canonical = some record ∨
      record.deleted = false ∧ record.artifactId ∉ w.tables.artifacts.map ArtifactRecord.artifactId) := by
  revert returned
  cases found : w.tables.getArtifactByUri canonical.canonical with
  | some artifact =>
    rintro ⟨⟩
    exact ⟨lookup_mem found, rfl, lookup_key found, .inl rfl⟩
  | none =>
    unfold findOrCreate createArtifactRecord
    rw [if_neg nofun, alone_fetch]
    cases w.tables.getNamespace canonical.namespaceId with
    | none => exact nofun
    | some ns =>
      rw [alone_insertNew]
      split
      · exact nofun
      rename_i tables inserted
      rintro ⟨⟩
      obtain ⟨-, rfl⟩ := ArtifactTables.upsertArtifact_new sound.freshArtifact inserted
      exact ⟨mem_append_right _ (mem_singleton_self _), rfl, rfl, .inr ⟨rfl, sound.freshArtifact⟩⟩

/-- With a key that was not used, a write that begins makes a transaction on the artifact
at the URI. -/
theorem beginWrite_returned (orderly : Orderly digest w)
    (resolved : resolveWorkspaceUri rules uri (namespaceOf pid) = .ok canonical)
    (unused : ∀ record ∈ w.tables.getArtifactByUri canonical.canonical,
      w.tables.findTransactionByIdempotency record.artifactId pid idempotencyKey = none)
    (ran : (beginWrite rules pid uri idempotencyKey expectedVersion).alone w = (.ok opened, begun)) :
    opened.state = .begun ∧ begun.tables.getTransaction opened.transactionId = some opened ∧
    ∃ record ∈ begun.tables.artifacts, record.artifactId = opened.artifactId ∧
      record.canonicalUri = canonical.canonical ∧
      (w.tables.getArtifactByUri canonical.canonical = some record ∨ record.deleted = false) := by
  revert ran
  unfold beginWrite
  rw [alone_reads_bind reads_resolveAndCheck]
  split
  · rintro ⟨⟩
  rename_i there checked
  obtain rfl : canonical = there := Except.ok.inj (resolved.symm.trans (resolveAndCheck_write checked))
  rw [alone_fetch, Task.alone_bind, Session.bind]
  have effects : Effects digest w _ := (idle_findOrCreate pid canonical
    (w.tables.getArtifactByUri canonical.canonical) .write).effects
  have finds := findOrCreate_returned orderly.sound pid canonical
  generalize (findOrCreate pid canonical (w.tables.getArtifactByUri canonical.canonical) .write).alone w =
    ended at effects finds ⊢
  obtain ⟨failure | record, middle⟩ := ended
  · rintro ⟨⟩
  obtain ⟨recorded, transactions, named, origin⟩ := finds record rfl
  have sound : Sound middle := (orderly.effects effects).1.sound
  have none : middle.tables.findTransactionByIdempotency record.artifactId pid idempotencyKey = none := by
    unfold ArtifactTables.findTransactionByIdempotency
    rw [transactions]
    rcases origin with found | ⟨-, fresh⟩
    · exact unused record found
    refine find?_eq_none.mpr fun txn listed => ?_
    rw [decide_eq_true_eq]
    exact fun same => fresh (same.1 ▸ orderly.sound.based txn listed)
  dsimp only
  rw [alone_fetch, none]
  dsimp only
  split
  · rintro ⟨⟩
  rw [alone_insertNew]
  rintro ⟨⟩
  refine ⟨rfl, ?_, record, recorded, rfl, named, origin.imp_right And.left⟩
  rw [ArtifactTables.upsertTransaction_new sound.freshTransaction]
  exact (lookup_append_single _ _ sound.freshTransaction _).trans (if_pos rfl)

/-- With a key that was not used, a write that is committed records a version of the
artifact at the URI. -/
theorem write_returned (orderly : Orderly digest w)
    (resolved : resolveWorkspaceUri rules uri (namespaceOf pid) = .ok canonical)
    (unused : ∀ record ∈ w.tables.getArtifactByUri canonical.canonical,
      w.tables.findTransactionByIdempotency record.artifactId pid idempotencyKey = none)
    (returned : ((write rules digest pid uri content idempotencyKey expectedVersion).alone w).1 = .ok result)
    (committed : result.state = .committed) : ∃ artifact, Records digest w content artifact
    ((write rules digest pid uri content idempotencyKey expectedVersion).alone w).2 ∧
      artifact.canonicalUri = canonical.canonical ∧
      (w.tables.getArtifactByUri canonical.canonical = some artifact ∨ artifact.deleted = false) := by
  have effects : Effects digest w ((beginWrite rules pid uri idempotencyKey expectedVersion).alone w).2 :=
    (idle_beginWrite pid uri idempotencyKey expectedVersion).effects
  rcases write_cases digest rules w pid uri content idempotencyKey expectedVersion with
    ⟨-, unmarked⟩ | ⟨opened, begun, txn, artifact, kernel, begins, stored, pending, committable, grown, ran⟩
  · have begins := beginWrite_returned orderly resolved unused (Prod.ext (unmarked result returned committed) rfl)
    exact nomatch committed.symm.trans begins.1
  rw [begins] at effects
  obtain ⟨-, known, record, recorded, named, located, origin⟩ := beginWrite_returned orderly resolved unused begins
  rw [known] at stored
  cases stored
  have sound : Sound begun := (orderly.effects effects).1.sound
  have found : begun.tables.getArtifact opened.artifactId = some artifact := committable.found
  obtain rfl : record = artifact := Option.some.inj
    (((named ▸ lookup_of_mem sound.artifactIds recorded : _ = some record)).symm.trans found)
  rw [ran]
  exact ⟨record, records_of_committed effects known pending committable grown, located, origin⟩

end

/-! ## Histories -/

/-- A world, and the contents that the call which made a version was given. -/
structure Past (γ : Type) where
  world : FsWorld γ
  bytes : List ((String × Int) × γ) := []

def next (rules : TextRules) (digest : Digest γ) (past : Past γ) (call : FileCall γ) : Past γ :=
  let world := call.run rules digest past.world
  let made := world.tables.versions.filter fun row => decide (row ∉ past.world.tables.versions)
  { world
    bytes := past.bytes ++ made.flatMap fun row => call.content.toList.map fun content => (row.place, content) }

/-- The calls one after the other, from empty tables. -/
def history (rules : TextRules) (digest : Digest γ) (kernel : World) (calls : List (FileCall γ)) : Past γ :=
  calls.foldl (next rules digest) { world := { kernel } }

variable (digest) in
/-- Every version has its bytes in the store, under the reference in its row. -/
structure Faithful (past : Past γ) : Prop where
  orderly : Orderly digest past.world
  places : past.bytes.map Prod.fst = past.world.tables.versions.map ArtifactVersion.place
  kept : ∀ row ∈ past.world.tables.versions, ∃ bytes,
    lookup Prod.fst past.bytes row.place = some (row.place, bytes) ∧
      past.world.storage.read row.contentRef = some bytes

variable {past : Past γ}

section
variable (faithful : Faithful digest past)
include faithful

/-- A call that makes no version. -/
theorem Faithful.steady (orderly : Orderly digest (call.run rules digest past.world))
    (versions : (call.run rules digest past.world).tables.versions = past.world.tables.versions)
    (cas : (call.run rules digest past.world).storage.cas = past.world.storage.cas) :
    Faithful digest (next rules digest past call) := by
  have none : (past.world.tables.versions.filter fun row => decide (row ∉ past.world.tables.versions)) = [] :=
    filter_eq_nil_iff.mpr fun row listed => by simpa using listed
  have bytes : (next rules digest past call).bytes = past.bytes := by
    unfold next
    dsimp only
    rw [versions, none]
    exact append_nil _
  constructor
  case orderly => exact orderly
  case places => exact bytes ▸ faithful.places.trans (congrArg (List.map _) versions.symm)
  case kept =>
    intro row listed
    obtain ⟨content, logged, stored⟩ := faithful.kept row (versions ▸ listed)
    refine ⟨content, bytes ▸ logged, ?_⟩
    change Storage.read (call.run rules digest past.world).storage row.contentRef = _
    unfold Storage.read at stored ⊢
    rw [cas]
    exact stored

/-- A call that makes a version with the contents it was given. -/
theorem Faithful.extend (given : call.content = some content)
    (orderly : Orderly digest (call.run rules digest past.world))
    (extended : Extends past.world content artifact row (call.run rules digest past.world)) :
    Faithful digest (next rules digest past call) := by
  have apart : ((past.world.tables.versions ++ [row]).map ArtifactVersion.place).Nodup :=
    extended.versions ▸ orderly.sound.places
  have fresh : row.place ∉ past.world.tables.versions.map ArtifactVersion.place := by
    rw [map_append] at apart
    exact fun taken => (nodup_append.mp apart).2.2 _ taken _ (mem_singleton_self _) rfl
  have made : ((past.world.tables.versions ++ [row]).filter fun row =>
      decide (row ∉ past.world.tables.versions)) = [row] := by
    have new : row ∉ past.world.tables.versions := fun listed => fresh (mem_map_of_mem listed)
    have old : (past.world.tables.versions.filter fun row => decide (row ∉ past.world.tables.versions)) = [] :=
      filter_eq_nil_iff.mpr fun row listed => by simpa using listed
    rw [filter_append, old]
    simp [new]
  have bytes : (next rules digest past call).bytes = past.bytes ++ [(row.place, content)] := by
    unfold next
    dsimp only
    rw [extended.versions, made, given]
    rfl
  have unlogged : row.place ∉ past.bytes.map Prod.fst := faithful.places ▸ fresh
  constructor
  case orderly => exact orderly
  case places =>
    change _ = (call.run rules digest past.world).tables.versions.map _
    rw [bytes, extended.versions, map_append, map_append, faithful.places]
    rfl
  case kept =>
    intro other listed
    rw [bytes]
    rcases mem_append.mp (extended.versions ▸ listed) with old | new
    · obtain ⟨written, logged, stored⟩ := faithful.kept other old
      refine ⟨written, ?_, extended.kept _ _ stored⟩
      rw [lookup_append, logged]
      rfl
    · obtain rfl := mem_singleton.mp new
      exact ⟨content, (lookup_append_single _ _ unlogged _).trans (if_pos rfl), extended.stored⟩

theorem Faithful.effects (effects : Effects digest past.world (call.run rules digest past.world)) :
    Faithful digest (next rules digest past call) := by
  obtain ⟨orderly, steady⟩ := faithful.orderly.effects effects
  exact faithful.steady orderly steady.versions steady.cas

theorem Faithful.next (call) : Faithful digest (next rules digest past call) := by
  rcases call.run_cases rules digest past.world with
    effects | ⟨content, artifact, given, records⟩ | ⟨kernel, drawn, ran⟩
  · exact faithful.effects effects
  · obtain ⟨orderly, row, extended⟩ := faithful.orderly.records records
    exact faithful.extend given orderly extended
  have orderly : Orderly digest { past.world with kernel } :=
    faithful.orderly.congr drawn rfl rfl rfl faithful.orderly.hashed
  refine faithful.steady (ran ▸ orderly) ?_ ?_ <;> rw [ran]

end

/-- After any history every version has its bytes. -/
theorem faithful_history (rules : TextRules) (digest : Digest γ) (kernel : World) (calls : List (FileCall γ)) :
    Faithful digest (history rules digest kernel calls) := by
  have start : Faithful digest ({ world := { kernel } } : Past γ) := by
    constructor
    case orderly => exact orderly_start kernel
    case places => rfl
    case kept => exact nofun
  unfold history
  induction calls using List.reverseRecOn with
  | nil => exact start
  | append_singleton calls call ih =>
    rw [foldl_append]
    exact ih.next call

/-- A history that goes on with a write whose key was not used before for the artifact
and the process: when the transaction is returned as committed and the artifact was
not deleted before, a read of the URI returns the contents, and a read of any version
of the artifact the contents with which that version was written. -/
theorem committed_writes_are_read (rules : TextRules) (digest : Digest γ) (kernel : World)
    (calls : List (FileCall γ)) {pid uri idempotencyKey : String} {content : γ} {expectedVersion : Option Int}
    {canonical : CanonicalUri} {txn : WriteTransaction}
    (resolved : resolveWorkspaceUri rules uri (namespaceOf pid) = .ok canonical)
    (readable : permits (history rules digest kernel calls).world.kernel.store pid canonical.namespaceId
      .read = true)
    (unused : ∀ record ∈ (history rules digest kernel calls).world.tables.getArtifactByUri canonical.canonical,
      (history rules digest kernel calls).world.tables.findTransactionByIdempotency record.artifactId pid
        idempotencyKey = none)
    (live : ∀ record ∈ (history rules digest kernel calls).world.tables.getArtifactByUri canonical.canonical,
      record.deleted = false)
    (returned : ((write rules digest pid uri content idempotencyKey expectedVersion).alone
      (history rules digest kernel calls).world).1 = .ok txn) (committed : txn.state = .committed) :
    let past := history rules digest kernel (calls ++ [.write pid uri content idempotencyKey expectedVersion])
    ((read rules pid uri none).alone past.world).1 = .ok content ∧
    ∃ artifact, past.world.tables.getArtifactByUri canonical.canonical = some artifact ∧
      ∀ version, 1 ≤ version → version ≤ artifact.currentVersion →
        ∃ bytes, lookup Prod.fst past.bytes (artifact.artifactId, version) =
            some ((artifact.artifactId, version), bytes) ∧
          ((read rules pid uri (some version)).alone past.world).1 = .ok bytes := by
  intro past
  have before := faithful_history rules digest kernel calls
  have after : Faithful digest past := faithful_history rules digest kernel _
  obtain ⟨artifact, records, located, origin⟩ :=
    write_returned before.orderly resolved unused returned committed
  have undeleted : artifact.deleted = false := origin.elim (live artifact) id
  obtain ⟨-, row, extended⟩ := before.orderly.records records
  have world : past.world = ((write rules digest pid uri content idempotencyKey expectedVersion).alone
      (history rules digest kernel calls).world).2 := by
    change (history rules digest kernel (calls ++ [_])).world = _
    unfold history
    rw [foldl_append]
    rfl
  rw [← world] at extended
  have sound := after.orderly.sound
  have listed : row ∈ past.world.tables.versions :=
    extended.versions ▸ mem_append_right _ (mem_singleton_self _)
  have found : past.world.tables.getArtifactByUri canonical.canonical =
      some { artifact with currentVersion := artifact.currentVersion + 1 } := by
    rw [← located]
    exact lookup_of_mem after.orderly.uris extended.current
  have permitted : permits past.world.kernel.store pid canonical.namespaceId .read = true :=
    permits_congr extended.capabilities ▸ readable
  have reads : ∀ version target row, orCurrent version (artifact.currentVersion + 1) = target →
      row ∈ past.world.tables.versions → row.place = (artifact.artifactId, target) →
      1 ≤ target → target ≤ artifact.currentVersion + 1 →
      ∀ bytes, past.world.storage.read row.contentRef = some bytes →
        ((read rules pid uri version).alone past.world).1 = .ok bytes := by
    rintro version target row rfl listed placed positive known bytes stored
    have there : past.world.tables.getVersion artifact.artifactId
        (orCurrent version (artifact.currentVersion + 1)) = some row := by
      unfold ArtifactTables.getVersion
      rw [← placed]
      exact lookup_of_mem sound.places listed
    rw [alone_read resolved permitted found undeleted positive known there stored]
  constructor
  · obtain ⟨_, -, -, positive, -⟩ := sound.bounded row listed
    have numbered : row.version = artifact.currentVersion + 1 := congrArg Prod.snd extended.placed
    exact reads none _ row rfl listed extended.placed (numbered ▸ positive) le_rfl content extended.stored
  · refine ⟨_, found, fun version positive known => ?_⟩
    obtain ⟨row, listed, placed⟩ := sound.covered _ extended.current version positive known
    obtain ⟨bytes, logged, stored⟩ := after.kept row listed
    rw [placed] at logged
    exact ⟨bytes, logged, reads (some version) version row (orCurrent_some (by omega)) listed placed positive known
      bytes stored⟩

end

/-! ## Two histories -/

/-- The process holds both capabilities on its namespace. -/
def owner : World := { store := workspace.store }

def textHistory (calls : List (FileCall String)) : Past String := history plainRules plainDigest owner calls

/-- A namespace with a file that was written once. -/
def writtenOnce : List (FileCall String) :=
  [.createNamespace "p" none none, .write "p" "workspace:///f" "a" "k" none]

/-- The file is deleted, and written again. -/
def deletedOnce : List (FileCall String) := writtenOnce ++ [.delete "p" "workspace:///f"]

/-- A write after a deletion is committed, and a read does not find the artifact. -/
theorem write_after_delete_is_not_read :
    permits (textHistory deletedOnce).world.kernel.store "p" "ns-p" .read = true ∧
    permits (textHistory deletedOnce).world.kernel.store "p" "ns-p" .write = true ∧
    (∀ txn ∈ (textHistory deletedOnce).world.tables.transactions, txn.idempotencyKey ≠ "l") ∧
    ((write plainRules plainDigest "p" "workspace:///f" "b" "l" none).alone
      (textHistory deletedOnce).world).1.toOption.map WriteTransaction.state = some .committed ∧
    ((read plainRules "p" "workspace:///f" none).alone
      (textHistory (deletedOnce ++ [.write "p" "workspace:///f" "b" "l" none])).world).1 =
        .error (.artifactNotFound "artifact://ns-p/f") := by
  decide +kernel

/-- A write after a write is read, and so is the version before it. -/
theorem write_after_write_is_read : ((read plainRules "p" "workspace:///f" none).alone
      (textHistory (writtenOnce ++ [.write "p" "workspace:///f" "b" "l" none])).world).1 = .ok "b" ∧
    ((read plainRules "p" "workspace:///f" (some 1)).alone
      (textHistory (writtenOnce ++ [.write "p" "workspace:///f" "b" "l" none])).world).1 = .ok "a" := by
  have resolved : resolveWorkspaceUri plainRules "workspace:///f" (namespaceOf "p") =
      .ok { namespaceId := "ns-p", path := "f", canonical := "artifact://ns-p/f" } := by decide +kernel
  have returned : ((write plainRules plainDigest "p" "workspace:///f" "b" "l" none).alone
      (history plainRules plainDigest owner writtenOnce).world).1 =
        .ok { transactionId := "uuu", artifactId := "u", pid := "p", expectedVersion := some 1
              stagedContentRef := "b", stagedContentHash := "b", stagedSizeBytes := 1, state := .committed
              idempotencyKey := "l" } := by decide +kernel
  obtain ⟨latest, artifact, found, versions⟩ := committed_writes_are_read plainRules plainDigest owner writtenOnce
    resolved (by decide +kernel) (by decide +kernel) (by decide +kernel) returned rfl
  have known : (textHistory (writtenOnce ++
      [.write "p" "workspace:///f" "b" "l" none])).world.tables.getArtifactByUri "artifact://ns-p/f" =
        some { artifactId := "u", namespaceId := "ns-p", canonicalUri := "artifact://ns-p/f"
               currentVersion := 2, createdByPid := "p" } := by decide +kernel
  have logged : lookup Prod.fst (textHistory (writtenOnce ++
      [.write "p" "workspace:///f" "b" "l" none])).bytes ("u", 1) = some (("u", 1), "a") := by decide +kernel
  cases known.symm.trans found
  obtain ⟨bytes, written, first⟩ := versions 1 (by decide) (by decide)
  cases logged.symm.trans written
  exact ⟨latest, first⟩

end LongHorizonOS.ReadYourWrites
