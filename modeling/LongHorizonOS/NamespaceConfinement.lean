import LongHorizonOS.ArtifactPlaces
import LongHorizonOS.TwinRuns

/-! What a process reaches through the Artifact FS. A call is checked against the
namespace that its URI leads to, mounts included, while the record is found by the
text of the canonical URI. Where namespaces have plain names, the artifact that is
found is in the namespace that was checked, and the artifacts of other namespaces
make no difference to what the process is told. -/
namespace LongHorizonOS.NamespaceConfinement
open KeyedRows AtomicPrograms Interleaving KernelTasks TwinRuns List
open ArtifactUri ArtifactModels ArtifactService ArtifactRuns ArtifactReplay ArtifactPlaces

/-! ## Calls and answers -/

/-- The calls by which a process reads or writes one artifact. -/
inductive Access where
  | read (uri : String) (version : Option Int)
  | readMetadata (uri : String) (version : Option Int)
  | listVersions (uri : String)
  | openHandle (uri : String) (mode : HandleMode) (expectedVersion : Option Int)
  | beginWrite (uri idempotencyKey : String) (expectedVersion : Option Int)
  | delete (uri : String)

/-- What the capability has to be for. -/
def Access.mode : Access → HandleMode
  | .read .. | .readMetadata .. | .listVersions .. => .read
  | .openHandle _ mode _ => mode
  | .beginWrite .. | .delete .. => .write

inductive Answer (γ : Type) where
  | content (bytes : γ)
  | metadata (found : ArtifactMetadata)
  | versions (rows : List VersionListing)
  | handle (opened : ArtifactHandle)
  | transaction (txn : WriteTransaction)
  | deleted (done : Bool)
  deriving DecidableEq

section
variable {γ : Type}

def Access.task (rules : TextRules) (pid : String) : Access → FsTask γ (Answer γ)
  | .read uri version => do return .content (← ArtifactService.read rules pid uri version)
  | .readMetadata uri version => do return .metadata (← ArtifactService.readMetadata rules pid uri version)
  | .listVersions uri => do return .versions (← ArtifactService.listVersions rules pid uri)
  | .openHandle uri mode expectedVersion => do
    return .handle (← ArtifactService.openHandle rules pid uri mode expectedVersion)
  | .beginWrite uri idempotencyKey expectedVersion => do
    return .transaction (← ArtifactService.beginWrite rules pid uri idempotencyKey expectedVersion)
  | .delete uri => do return .deleted (← ArtifactService.delete rules pid uri)

/-- The answer tells about the artifact and nothing else. -/
def Answer.About (w : FsWorld γ) (artifact : ArtifactRecord) : Answer γ → Prop
  | .content bytes => ∃ row ∈ w.tables.versions, row.artifactId = artifact.artifactId ∧
      w.storage.read row.contentRef = some bytes
  | .metadata found => found.artifactId = artifact.artifactId ∧ found.namespaceId = artifact.namespaceId ∧
      found.canonicalUri = artifact.canonicalUri
  | .versions rows => ∀ row ∈ rows, row.artifactId = artifact.artifactId
  | .handle opened => opened.artifactId = artifact.artifactId
  | .transaction txn => txn.artifactId = artifact.artifactId
  | .deleted _ => True

/-- The call was about the artifact, and left everything of the others as it was. -/
structure Touches (w s : FsWorld γ) (answer : Answer γ) (artifact : ArtifactRecord) : Prop where
  recorded : ∃ record ∈ s.tables.artifacts,
    record.artifactId = artifact.artifactId ∧ record.namespaceId = artifact.namespaceId
  about : answer.About s artifact
  artifacts : ∀ record, record.artifactId ≠ artifact.artifactId →
    (record ∈ s.tables.artifacts ↔ record ∈ w.tables.artifacts)
  versions : s.tables.versions = w.tables.versions
  contents : s.storage = w.storage
  handles : s.tables.handles = w.tables.handles ∨
    ∃ opened, answer = .handle opened ∧ s.tables.handles = (w.tables.upsertHandle opened).handles
  transactions : s.tables.transactions = w.tables.transactions ∨
    ∃ txn, answer = .transaction txn ∧ s.tables.transactions = (w.tables.upsertTransaction txn).transactions

/-! ## What a process sees -/

/-- The id of an artifact in a namespace that is not seen. -/
def Hidden (sees : String → Bool) (w : FsWorld γ) (artifactId : String) : Prop :=
  ∃ record ∈ w.tables.artifacts, record.artifactId = artifactId ∧ sees record.namespaceId = false

/-- Two worlds that differ only in artifacts of namespaces that the process does not
see: in their records, versions, transactions and contents, and in the handles of
others. -/
structure SameView (sees : String → Bool) (pid : String) (w w' : FsWorld γ) : Prop where
  kernel : w'.kernel = w.kernel
  namespaces : w'.tables.namespaces = w.tables.namespaces
  mounts : w'.tables.mounts = w.tables.mounts
  handles : w'.tables.listOpenHandlesForPid pid = w.tables.listOpenHandlesForPid pid
  artifacts : (w'.tables.artifacts.filter fun record => sees record.namespaceId) =
    w.tables.artifacts.filter fun record => sees record.namespaceId
  versions : ∀ artifactId, ¬ Hidden sees w artifactId → ¬ Hidden sees w' artifactId →
    (w'.tables.versions.filter fun row => decide (row.artifactId = artifactId)) =
      w.tables.versions.filter fun row => decide (row.artifactId = artifactId)
  transactions : ∀ artifactId, ¬ Hidden sees w artifactId → ¬ Hidden sees w' artifactId →
    (w'.tables.transactions.filter fun txn => decide (txn.artifactId = artifactId)) =
      w.tables.transactions.filter fun txn => decide (txn.artifactId = artifactId)
  contents : ∀ row ∈ w.tables.versions, ¬ Hidden sees w row.artifactId →
    w'.storage.read row.contentRef = w.storage.read row.contentRef

/-- Two worlds with records in their places that look the same. -/
structure Alike (sees : String → Bool) (pid : String) (w w' : FsWorld γ) : Prop where
  left : Placed w
  right : Placed w'
  view : SameView sees pid w w'

variable {sees : String → Bool} {w w' s t : FsWorld γ}

theorem Alike.self (placed : Placed w) : Alike sees pid w w :=
  ⟨placed, placed, rfl, rfl, rfl, rfl, rfl, fun _ _ _ => rfl, fun _ _ _ => rfl, fun _ _ _ => rfl⟩

/-- The record at a URI is in the namespace that the URI names. -/
theorem namespace_found (placed : Placed w) (names : Names canonical)
    (listed : record ∈ w.tables.artifacts) (named : record.canonicalUri = canonical.canonical) :
    record.namespaceId = canonical.namespaceId := by
  obtain ⟨⟨plain, path, text⟩, -⟩ := placed.fits record listed
  exact canonicalText_namespace plain names.1 (text.symm.trans (named.trans names.2))

theorem getArtifactByUri_seen (placed : Placed w) (names : Names canonical) (seen : sees canonical.namespaceId = true) :
    w.tables.getArtifactByUri canonical.canonical = lookup ArtifactRecord.canonicalUri
    (w.tables.artifacts.filter fun record => sees record.namespaceId) canonical.canonical := by
  refine (lookup_filter fun record listed named => ?_).symm
  rw [namespace_found placed names listed named]
  exact seen

theorem Alike.byUri (alike : Alike sees pid w w') (names : Names canonical) (seen : sees canonical.namespaceId = true) :
    w.tables.getArtifactByUri canonical.canonical = w'.tables.getArtifactByUri canonical.canonical := by
  rw [getArtifactByUri_seen alike.left names seen, getArtifactByUri_seen alike.right names seen, alike.view.artifacts]

/-- An artifact that is seen is not hidden under its id. -/
theorem seen_not_hidden (placed : Placed w) (listed : record ∈ w.tables.artifacts)
    (seen : sees record.namespaceId = true) : ¬ Hidden sees w record.artifactId := by
  rintro ⟨other, there, same, hidden⟩
  rw [inj_on_of_nodup_map placed.ids there listed same, seen] at hidden
  cases hidden

section
variable (alike : Alike sees pid w w')
include alike

theorem Alike.listed (listed : record ∈ w.tables.artifacts)
    (seen : sees record.namespaceId = true) : record ∈ w'.tables.artifacts := by
  have among : record ∈ w.tables.artifacts.filter fun record => sees record.namespaceId :=
    mem_filter.mpr ⟨listed, seen⟩
  rw [← alike.view.artifacts] at among
  exact (mem_filter.mp among).1

theorem Alike.shown (listed : record ∈ w.tables.artifacts) (seen : sees record.namespaceId = true) :
    ¬ Hidden sees w record.artifactId ∧ ¬ Hidden sees w' record.artifactId :=
  ⟨seen_not_hidden alike.left listed seen, seen_not_hidden alike.right (alike.listed listed seen) seen⟩

theorem Alike.getVersion (version) (shown : ¬ Hidden sees w artifactId ∧ ¬ Hidden sees w' artifactId) :
    w.tables.getVersion artifactId version = w'.tables.getVersion artifactId version := by
  have narrow (w : FsWorld γ) : w.tables.getVersion artifactId version =
      lookup ArtifactVersion.place (w.tables.versions.filter fun row => decide (row.artifactId = artifactId))
        (artifactId, version) :=
    (lookup_filter fun row _ placed => decide_eq_true (congrArg Prod.fst placed)).symm
  rw [narrow w, narrow w', alike.view.versions artifactId shown.1 shown.2]

theorem Alike.listVersions (shown : ¬ Hidden sees w artifactId ∧ ¬ Hidden sees w' artifactId) :
    w.tables.listVersions artifactId = w'.tables.listVersions artifactId := by
  unfold ArtifactTables.listVersions
  rw [alike.view.versions artifactId shown.1 shown.2]

theorem Alike.findTransaction (owner key) (shown : ¬ Hidden sees w artifactId ∧ ¬ Hidden sees w' artifactId) :
    w.tables.findTransactionByIdempotency artifactId owner key =
    w'.tables.findTransactionByIdempotency artifactId owner key := by
  have narrow (w : FsWorld γ) : w.tables.findTransactionByIdempotency artifactId owner key =
      (w.tables.transactions.filter fun txn => decide (txn.artifactId = artifactId)).find? fun txn =>
        decide (txn.artifactId = artifactId ∧ txn.pid = owner ∧ txn.idempotencyKey = key) := by
    rw [find?_filter, ArtifactTables.findTransactionByIdempotency]
    congr 1
    funext txn
    by_cases same : txn.artifactId = artifactId <;> simp [same]
  rw [narrow w, narrow w', alike.view.transactions artifactId shown.1 shown.2]

end

/-! ## Two runs of one call -/

section
variable {α β : Type}

/-- What both runs read alike. -/
theorem twin_look {read} (same : read w = read w') (tail : Twin post (rest (read w)) w w') :
    Twin post (look read >>= rest) w w' := by
  change SameEnd post ((rest (read w)).alone w) ((rest (read w')).alone w')
  rw [← same]
  exact tail

theorem twin_fetch {read} (same : read w.tables = read w'.tables)
    (tail : Twin post (rest (read w.tables)) w w') : Twin post (fetch read >>= rest) w w' := twin_look same tail

/-- Both worlds have come to the same kernel, and are as they were otherwise. -/
def Moved (w w' s t : FsWorld γ) : Prop :=
  ∃ kernel : World, w.kernel.drawn ≤ kernel.drawn ∧ s = { w with kernel } ∧ t = { w' with kernel }

theorem Moved.here (same : w'.kernel = w.kernel) : Moved w w' w w' :=
  ⟨w.kernel, le_rfl, rfl, by rw [← same]⟩

theorem Moved.trans (first : Moved w w' s t) (second : Moved s t u v) : Moved w w' u v := by
  obtain ⟨_, drawn, rfl, rfl⟩ := first
  obtain ⟨kernel, more, rfl, rfl⟩ := second
  exact ⟨kernel, drawn.trans more, rfl, rfl⟩

theorem Moved.kernel (moved : Moved w w' s t) : t.kernel = s.kernel := by
  obtain ⟨_, -, rfl, rfl⟩ := moved
  rfl

/-- Looking alike does not depend on the kernel. -/
theorem Alike.moved (alike : Alike sees pid w w') (moved : Moved w w' s t) : Alike sees pid s t := by
  obtain ⟨kernel, drawn, rfl, rfl⟩ := moved
  have later : w'.kernel.drawn ≤ kernel.drawn := by rw [alike.view.kernel]; exact drawn
  exact ⟨alike.left.leaves ⟨drawn, rfl, fun _ => id⟩, alike.right.leaves ⟨later, rfl, fun _ => id⟩,
    { alike.view with kernel := rfl }⟩

section
variable (same : w'.kernel = w.kernel)
include same

theorem twin_kernel (grows : AlwaysTask (fun _ => Grown) task) :
    Twin (fun _ s t => Moved w w' s t) (kernel task : FsTask γ α) w w' := by
  unfold Twin
  rw [alone_kernel, alone_kernel, same]
  have drawn := (grown_of_always grows w.kernel).drawn
  generalize task.alone w.kernel = ended at drawn ⊢
  obtain ⟨failure | a, kernel⟩ := ended
  · rfl
  exact ⟨rfl, kernel, drawn, rfl, rfl⟩

theorem twin_acquireWriteLease : Twin (fun _ s t => Moved w w' s t) (acquireWriteLease owner artifactId) w w' := by
  refine (twin_kernel same (grows_drawIds 1)).bind fun draw s t moved => ?_
  exact (twin_kernel moved.kernel (grows_atomicAcquire _ _)).mono fun _ _ _ more => moved.trans more

theorem twin_preacquire : Twin (fun _ s t => Moved w w' s t) (preacquire owner found mode) w w' := by
  unfold preacquire
  split
  · have draws : Twin (fun _ s t => Moved w w' s t) (placeholderId : FsTask γ String) w w' :=
      (twin_kernel same (grows_drawIds 1)).bind fun _ s t moved => .pure moved
    refine draws.bind fun artifactId s t moved => ?_
    exact (twin_acquireWriteLease moved.kernel).mono fun _ _ _ more => moved.trans more
  · exact .pure (.here same)

theorem twin_leaseFor : Twin (fun _ s t => Moved w w' s t) (leaseFor owner artifactId preacquired mode) w w' := by
  unfold leaseFor
  split
  · exact .pure (.here same)
  split
  · exact twin_acquireWriteLease same
  exact .pure (.here same)

end

/-! ### Resolution -/

theorem twin_demandCapability (same : w'.kernel = w.kernel) :
    Twin (fun _ s t => w = s ∧ w' = t ∧ permits w.kernel.store pid canonical.namespaceId mode = true)
    (demandCapability pid canonical mode) w w' := by
  refine twin_look (by rw [same]) ?_
  cases permitted : permits w.kernel.store pid canonical.namespaceId mode with
  | true => exact .pure ⟨rfl, rfl, rfl⟩
  | false => exact .throw _

/-- A URI leads both runs to the same place, which the process may use. -/
theorem twin_resolveAndCheck {uri mode} (plain : Plain pid)
    (permitted : ∀ name, sees name = permits w.kernel.store pid name mode) (alike : Alike sees pid w w') :
    Twin (fun canonical s t => w = s ∧ w' = t ∧ Names canonical ∧ sees canonical.namespaceId = true)
    (resolveAndCheck rules pid uri mode) w w' := by
  unfold resolveAndCheck
  cases resolved : resolveWorkspaceUri rules uri (namespaceOf pid) with
  | error failure => exact .throw failure
  | ok canonical =>
    have names := names_resolved plain resolved
    refine (twin_demandCapability alike.view.kernel).bind ?_
    rintro _ _ _ ⟨rfl, rfl, first⟩
    have seen : sees canonical.namespaceId = true := (permitted _).trans first
    have routes : Twin (fun resolved s t => w = s ∧ w' = t ∧ Names resolved ∧
        (resolved = canonical ∨ canonical.namespaceId = namespaceOf pid)) (route pid canonical mode) w w' := by
      unfold route
      split
      · rename_i own
        refine twin_fetch (alike.byUri names seen) ?_
        split
        · refine twin_fetch (by unfold ArtifactTables.listMounts; rw [alike.view.mounts]) ?_
          exact .pure ⟨rfl, rfl, names_throughMounts (alike.left.listed _) names, .inr own.2⟩
        · exact .pure ⟨rfl, rfl, names, .inl rfl⟩
      · exact .pure ⟨rfl, rfl, names, .inl rfl⟩
    refine routes.bind ?_
    rintro resolved _ _ ⟨rfl, rfl, named, origin⟩
    have sources : Twin (fun _ s t => w = s ∧ w' = t ∧ sees resolved.namespaceId = true)
        (demandSourceCapability pid resolved mode) w w' := by
      unfold demandSourceCapability
      split
      · refine (twin_demandCapability alike.view.kernel).mono ?_
        rintro _ _ _ ⟨rfl, rfl, second⟩
        exact ⟨rfl, rfl, (permitted _).trans second⟩
      rename_i own
      refine .pure ⟨rfl, rfl, ?_⟩
      rcases origin with rfl | local_
      · exact seen
      rw [not_not.mp own, ← local_]
      exact seen
    refine sources.bind ?_
    rintro _ _ _ ⟨rfl, rfl, seen⟩
    exact .pure ⟨rfl, rfl, named, seen⟩

/-! ### Records -/

/-- The record at a URI of a namespace that is seen is seen, too. -/
theorem found_seen (names : Names canonical) (seen : sees canonical.namespaceId = true) (placed : Placed w)
    (found : w.tables.getArtifactByUri canonical.canonical = some artifact) :
    artifact ∈ w.tables.artifacts ∧ sees artifact.namespaceId = true := by
  have listed := lookup_mem found
  refine ⟨listed, ?_⟩
  rw [namespace_found placed names listed (lookup_key found)]
  exact seen

/-- A call on an artifact that has to be there. -/
theorem twin_opened {uri mode} {rest : CanonicalUri → Option ArtifactRecord → FsTask γ β}
    (plain : Plain pid) (alike : Alike sees pid w w')
    (permitted : ∀ name, sees name = permits w.kernel.store pid name mode)
    (missing : ∀ canonical, Twin post (rest canonical none) w w')
    (opened : ∀ canonical artifact, artifact ∈ w.tables.artifacts → sees artifact.namespaceId = true →
      Twin post (rest canonical (some artifact)) w w') : Twin post (do
      let canonical ← resolveAndCheck rules pid uri mode
      let found ← fetch fun tables => tables.getArtifactByUri canonical.canonical
      rest canonical found) w w' := by
  refine (twin_resolveAndCheck plain permitted alike).bind ?_
  rintro canonical _ _ ⟨rfl, rfl, names, seen⟩
  refine twin_fetch (alike.byUri names seen) ?_
  cases found : w.tables.getArtifactByUri canonical.canonical with
  | none => exact missing canonical
  | some artifact =>
    obtain ⟨listed, visible⟩ := found_seen names seen alike.left found
    exact opened canonical artifact listed visible

/-- Nothing was written. -/
theorem Touches.reading (listed : artifact ∈ w.tables.artifacts) (about : answer.About w artifact) :
    Touches w w answer artifact :=
  ⟨⟨artifact, listed, rfl, rfl⟩, about, fun _ _ => .rfl, rfl, rfl, .inl rfl, .inl rfl⟩

/-- What was touched is seen. -/
def Confined (sees : String → Bool) (w s : FsWorld γ) (answer : Answer γ) : Prop :=
  ∃ artifact, sees artifact.namespaceId = true ∧ Touches w s answer artifact

section
variable (plain : Plain pid) (alike : Alike sees pid w w')
  (permitted : ∀ name, sees name = permits w.kernel.store pid name .read)
include plain alike permitted

theorem twin_read (uri) :
    Twin (fun bytes s _ => Confined sees w s (.content bytes)) (read rules pid uri version) w w' := by
  refine twin_opened plain alike permitted (fun _ => .throw _) fun _ artifact listed visible => ?_
  have shown := alike.shown listed visible
  dsimp only
  split
  · exact .throw _
  split
  · exact .throw _
  refine twin_fetch (alike.getVersion _ shown) ?_
  cases chosen : w.tables.getVersion artifact.artifactId (orCurrent version artifact.currentVersion) with
  | none => exact .throw _
  | some row =>
    have place : row.artifactId = artifact.artifactId := congrArg Prod.fst (lookup_key chosen)
    have there := lookup_mem chosen
    refine twin_look (alike.view.contents row there (place ▸ shown.1)).symm ?_
    cases found : w.storage.read row.contentRef with
    | none => exact .throw _
    | some bytes => exact .pure ⟨artifact, visible, .reading listed ⟨row, there, place, found⟩⟩

theorem twin_readMetadata (uri) :
    Twin (fun found s _ => Confined sees w s (.metadata found)) (readMetadata rules pid uri version) w w' := by
  refine twin_opened plain alike permitted (fun _ => .throw _) fun _ artifact listed visible => ?_
  dsimp only
  split
  · exact .throw _
  refine twin_fetch (alike.getVersion _ (alike.shown listed visible)) ?_
  cases w.tables.getVersion artifact.artifactId (orCurrent version artifact.currentVersion) with
  | none => exact .throw _
  | some row => exact .pure ⟨artifact, visible, .reading listed ⟨rfl, rfl, rfl⟩⟩

theorem twin_listVersions (uri) :
    Twin (fun rows s _ => Confined sees w s (.versions rows)) (listVersions rules pid uri) w w' := by
  refine twin_opened plain alike permitted (fun _ => .throw _) fun _ artifact listed visible => ?_
  refine twin_fetch (alike.listVersions (alike.shown listed visible)) ?_
  refine .pure ⟨artifact, visible, .reading listed fun row member => ?_⟩
  obtain ⟨version, among, rfl⟩ := mem_map.mp member
  exact of_decide_eq_true (mem_filter.mp ((mem_insertionSort _).mp among)).2

end

/-! ### New records -/

/-- The run has an artifact to write to, and has at most added it. -/
structure Finds (w s : FsWorld γ) (artifact : ArtifactRecord) : Prop where
  listed : artifact ∈ s.tables.artifacts
  others : ∀ record, record.artifactId ≠ artifact.artifactId →
    (record ∈ s.tables.artifacts ↔ record ∈ w.tables.artifacts)
  versions : s.tables.versions = w.tables.versions
  contents : s.storage = w.storage
  handles : s.tables.handles = w.tables.handles
  transactions : s.tables.transactions = w.tables.transactions

theorem twin_tell {event post}
    (holds : post () { w with journal := w.journal ++ [event] } { w' with journal := w'.journal ++ [event] }) :
    Twin post (tell event) w w' := ⟨rfl, holds⟩

/-- A world with one more record. -/
def withRecord (w : FsWorld γ) (record : ArtifactRecord) : FsWorld γ :=
  { withDrawn w with tables := { w.tables with artifacts := w.tables.artifacts ++ [record] } }

theorem upsertArtifact_free {tables : ArtifactTables}
    (fresh : record.artifactId ∉ tables.artifacts.map ArtifactRecord.artifactId)
    (free : record.canonicalUri ∉ tables.artifacts.map ArtifactRecord.canonicalUri) :
    tables.upsertArtifact record = .ok { tables with artifacts := tables.artifacts ++ [record] } := by
  unfold ArtifactTables.upsertArtifact
  rw [if_neg fun taken => free taken.2, upsertWith_new fresh]

theorem placed_withRecord (placed : Placed w) (located : Located record)
    (named : record.artifactId = uuid w.kernel.drawn) : Placed (withRecord w record) where
  ids := by
    have fresh := placed.fresh
    rw [← named] at fresh
    simpa [withRecord] using nodup_append_single placed.ids fresh
  fits other member := by
    rcases mem_append.mp member with old | new
    · exact (placed.fits other old).later (Nat.le_succ _)
    rw [mem_singleton.mp new]
    exact ⟨located, w.kernel.drawn, Nat.lt_succ_self _, named⟩
  sources := placed.sources

/-- A new record that is seen hides nothing. -/
theorem hidden_withRecord (seen : sees record.namespaceId = true) :
    Hidden sees (withRecord w record) artifactId ↔ Hidden sees w artifactId := by
  constructor
  · rintro ⟨other, member, same, hidden⟩
    rcases mem_append.mp member with old | new
    · exact ⟨other, old, same, hidden⟩
    rw [mem_singleton.mp new, seen] at hidden
    cases hidden
  · rintro ⟨other, member, same, hidden⟩
    exact ⟨other, mem_append_left _ member, same, hidden⟩

/-- Worlds that look alike do so with one more record that is seen. -/
theorem Alike.grown (alike : Alike sees pid w w') (record) (located : Located record)
    (named : record.artifactId = uuid w.kernel.drawn) (seen : sees record.namespaceId = true) :
    Alike sees pid (withRecord w record) (withRecord w' record) := by
  have view := alike.view
  have artifacts : ((withRecord w' record).tables.artifacts.filter fun record => sees record.namespaceId) =
      (withRecord w record).tables.artifacts.filter fun record => sees record.namespaceId := by
    change (w'.tables.artifacts ++ [record]).filter _ = (w.tables.artifacts ++ [record]).filter _
    rw [filter_append, filter_append, view.artifacts]
  refine ⟨placed_withRecord alike.left located named, placed_withRecord alike.right located ?_, ?_⟩
  · rw [named, view.kernel]
  refine ⟨?_, view.namespaces, view.mounts, view.handles, artifacts, ?_, ?_, ?_⟩
  · change { w'.kernel with drawn := w'.kernel.drawn + 1 } = { w.kernel with drawn := w.kernel.drawn + 1 }
    rw [view.kernel]
  · intro artifactId left right
    exact view.versions artifactId (mt (hidden_withRecord seen).mpr left) (mt (hidden_withRecord seen).mpr right)
  · intro artifactId left right
    exact view.transactions artifactId (mt (hidden_withRecord seen).mpr left) (mt (hidden_withRecord seen).mpr right)
  · exact fun row member left => view.contents row member (mt (hidden_withRecord seen).mpr left)

/-- The journal is not looked at. -/
theorem Alike.told (alike : Alike sees pid w w') (journal journal') :
    Alike sees pid { w with journal } { w' with journal := journal' } :=
  ⟨⟨alike.left.ids, alike.left.fits, alike.left.sources⟩,
    ⟨alike.right.ids, alike.right.fits, alike.right.sources⟩, { alike.view with }⟩

theorem twin_createArtifactRecord (names : Names canonical)
    (seen : sees canonical.namespaceId = true) (missing : w.tables.getArtifactByUri canonical.canonical = none)
    (alike : Alike sees pid w w') :
    Twin (fun artifact s t => Alike sees pid s t ∧ Finds w s artifact ∧ sees artifact.namespaceId = true)
    (createArtifactRecord canonical owner) w w' := by
  have absent : w'.tables.getArtifactByUri canonical.canonical = none := alike.byUri names seen ▸ missing
  refine twin_fetch (by unfold ArtifactTables.getNamespace; rw [alike.view.namespaces]) ?_
  cases w.tables.getNamespace canonical.namespaceId with
  | none => exact .throw _
  | some ns =>
    let record : ArtifactRecord :=
      { artifactId := uuid w.kernel.drawn, namespaceId := canonical.namespaceId
        canonicalUri := canonical.canonical, createdByPid := owner }
    have inserts : Twin (fun made s t => record = made ∧ withRecord w record = s ∧ withRecord w' record = t)
        (insertNew (fun artifactId =>
            { artifactId, namespaceId := canonical.namespaceId, canonicalUri := canonical.canonical
              createdByPid := owner })
          fun record tables => tables.upsertArtifact record) w w' := by
      refine .step ?_
      have fresh := alike.right.fresh
      rw [alike.view.kernel] at fresh ⊢
      have left : w.tables.upsertArtifact record = .ok _ :=
        upsertArtifact_free alike.left.fresh (lookup_eq_none.mp missing)
      have right : w'.tables.upsertArtifact record = .ok _ := upsertArtifact_free fresh (lookup_eq_none.mp absent)
      dsimp only
      rw [left, right]
      refine ⟨rfl, rfl, rfl, ?_⟩
      unfold withRecord withDrawn
      rw [alike.view.kernel]
    refine inserts.bind ?_
    rintro _ _ _ ⟨rfl, rfl, rfl⟩
    have grown := alike.grown record ⟨names.1, canonical.path, names.2⟩ rfl seen
    have tells : Twin (fun _ s t => Alike sees pid s t ∧ Finds w s record) (tell (.artifactCreated record))
        (withRecord w record) (withRecord w' record) := twin_tell ⟨grown.told _ _, ?_⟩
    · exact tells.bind fun _ s t kept => .pure ⟨kept.1, kept.2, seen⟩
    refine ⟨mem_append_right _ (mem_singleton_self _), fun other apart => ?_, rfl, rfl, rfl, rfl⟩
    refine ⟨fun member => ?_, fun member => mem_append_left _ member⟩
    rcases mem_append.mp member with old | new
    · exact old
    exact absurd (congrArg ArtifactRecord.artifactId (mem_singleton.mp new)) apart

/-- The record that was found, or a new one. -/
theorem twin_findOrCreate (names : Names canonical) (seen : sees canonical.namespaceId = true)
    (alike : Alike sees pid w w') (looked : w.tables.getArtifactByUri canonical.canonical = found) :
    Twin (fun artifact s t => Alike sees pid s t ∧ Finds w s artifact ∧ sees artifact.namespaceId = true)
    (findOrCreate owner canonical found mode) w w' := by
  cases found with
  | some artifact =>
    obtain ⟨listed, visible⟩ := found_seen names seen alike.left looked
    exact .pure ⟨alike, ⟨listed, fun _ _ => .rfl, rfl, rfl, rfl, rfl⟩, visible⟩
  | none =>
    unfold findOrCreate
    dsimp only
    split
    · exact .throw _
    exact twin_createArtifactRecord names seen looked alike

/-! ### Writing -/

/-- Nothing but the record was written. -/
theorem Finds.touches (finds : Finds w s artifact) (about : answer.About s artifact) : Touches w s answer artifact :=
  ⟨⟨artifact, finds.listed, rfl, rfl⟩, about, finds.others, finds.versions, finds.contents,
    .inl finds.handles, .inl finds.transactions⟩

/-- The calls before left the tables alone. -/
theorem Finds.moved (finds : Finds s t artifact) (same : s.tables = w.tables)
    (kept : s.storage = w.storage) : Finds w t artifact := by
  obtain ⟨listed, others, versions, contents, handles, transactions⟩ := finds
  rw [same] at others versions handles transactions
  exact ⟨listed, others, versions, contents.trans kept, handles, transactions⟩

/-- Both runs insert the same row and journal it. -/
theorem twin_insert {make : String → ρ} {insert : ρ → ArtifactTables → ArtifactTables}
    {event : ρ → ArtifactEvent} (same : w'.kernel = w.kernel) :
    Twin (fun row s _ => row = make (uuid w.kernel.drawn) ∧ s = { withDrawn w with
        tables := insert row w.tables, journal := w.journal ++ [event row] })
      (do
        let row ← insertNew make fun row tables => .ok (insert row tables)
        tell (event row)
        return row) w w' := by
  have rows : make (uuid w.kernel.drawn) = make (uuid w'.kernel.drawn) := by rw [same]
  exact ⟨rows, rfl, rfl⟩

theorem twin_beginWrite (plain : Plain pid)
    (alike : Alike sees pid w w') (permitted : ∀ name, sees name = permits w.kernel.store pid name .write) :
    Twin (fun txn s _ => Confined sees w s (.transaction txn)) (beginWrite rules pid uri key expected) w w' := by
  refine (twin_resolveAndCheck plain permitted alike).bind ?_
  rintro canonical _ _ ⟨rfl, rfl, names, seen⟩
  refine twin_fetch (alike.byUri names seen) ?_
  refine (twin_findOrCreate names seen alike rfl).bind ?_
  rintro artifact s t ⟨alike, finds, visible⟩
  have shown := alike.shown finds.listed visible
  refine twin_fetch (alike.findTransaction _ _ shown) ?_
  cases found : s.tables.findTransactionByIdempotency artifact.artifactId pid key with
  | some existing =>
    dsimp only
    split
    · exact .throw _
    have matched := find?_some found
    exact .pure ⟨artifact, visible, finds.touches (of_decide_eq_true matched).1⟩
  | none =>
    dsimp only
    split
    · exact .throw _
    refine (twin_insert alike.view.kernel).mono ?_
    rintro txn u _ ⟨rfl, rfl⟩
    refine ⟨artifact, visible, ⟨artifact, finds.listed, rfl, rfl⟩, rfl, finds.others, finds.versions,
      finds.contents, .inl finds.handles, .inr ⟨_, rfl, ?_⟩⟩
    unfold ArtifactTables.upsertTransaction
    rw [finds.transactions]

theorem twin_openHandle (uri) (expected) (plain : Plain pid)
    (alike : Alike sees pid w w') (permitted : ∀ name, sees name = permits w.kernel.store pid name mode) :
    Twin (fun opened s _ => Confined sees w s (.handle opened)) (openHandle rules pid uri mode expected) w w' := by
  refine (twin_resolveAndCheck plain permitted alike).bind ?_
  rintro canonical _ _ ⟨rfl, rfl, names, seen⟩
  refine twin_fetch (by unfold ArtifactTables.countOpenHandles; rw [alike.view.handles]) ?_
  split
  · exact .throw _
  have looks : Twin (fun found s t => w = s ∧ w' = t ∧
      w.tables.getArtifactByUri canonical.canonical = found) (findForOpen canonical mode) w w' :=
    .step ⟨alike.byUri names seen, rfl, rfl, rfl⟩
  refine looks.bind ?_
  rintro found _ _ ⟨rfl, rfl, looked⟩
  refine (twin_preacquire alike.view.kernel).bind fun preacquired s t moved => ?_
  have looked : s.tables.getArtifactByUri canonical.canonical = found := by
    obtain ⟨_, -, rfl, -⟩ := moved
    exact looked
  refine (twin_findOrCreate names seen (alike.moved moved) looked).bind ?_
  rintro artifact u v ⟨after, finds, visible⟩
  have finds : Finds w u artifact := by
    obtain ⟨_, -, rfl, -⟩ := moved
    exact finds.moved rfl rfl
  refine (twin_leaseFor after.view.kernel).bind fun leases x y leased => ?_
  refine (twin_insert leased.kernel).mono ?_
  rintro opened z _ ⟨rfl, rfl⟩
  obtain ⟨_, -, rfl, -⟩ := leased
  refine ⟨artifact, visible, ⟨artifact, finds.listed, rfl, rfl⟩, rfl, finds.others, finds.versions,
    finds.contents, .inr ⟨_, rfl, ?_⟩, .inl finds.transactions⟩
  unfold ArtifactTables.upsertHandle
  rw [finds.handles]

theorem twin_delete (plain : Plain pid) (alike : Alike sees pid w w')
    (permitted : ∀ name, sees name = permits w.kernel.store pid name .write) :
    Twin (fun done s _ => Confined sees w s (.deleted done)) (delete rules pid uri) w w' := by
  refine twin_opened plain alike permitted (fun _ => .throw _) fun _ artifact listed visible => ?_
  let mark (tables : ArtifactTables) : ArtifactTables := { tables with
    artifacts := modify ArtifactRecord.artifactId artifact.artifactId
      (fun record => { record with deleted := true }) tables.artifacts }
  have marks : Twin (fun _ s _ => s = { w with tables := mark w.tables })
      (attempt .other fun tables => tables.upsertArtifact { artifact with deleted := true }) w w' := by
    refine .step ?_
    dsimp only
    rw [ArtifactTables.upsertArtifact_deleted alike.left.ids listed,
      ArtifactTables.upsertArtifact_deleted alike.right.ids (alike.listed listed visible)]
    exact ⟨rfl, rfl⟩
  refine marks.bind ?_
  rintro _ s t rfl
  refine .bind ⟨rfl, ?_⟩ fun _ u v kept => .pure kept
  refine ⟨artifact, visible, ⟨{ artifact with deleted := true }, ?_, rfl, rfl⟩, trivial, fun other apart => ?_,
    rfl, rfl, .inl rfl, .inl rfl⟩
  · exact mem_map.mpr ⟨artifact, listed, if_pos rfl⟩
  constructor
  · intro member
    obtain ⟨record, among, changed⟩ := mem_map.mp member
    split at changed
    · rename_i same
      exact absurd (changed ▸ same) apart
    · exact changed ▸ among
  · exact fun member => mem_map.mpr ⟨other, member, if_neg apart⟩

/-- Every call does the same in worlds that look alike, and touches what is seen. -/
theorem twin_access (access : Access) (plain : Plain pid) (alike : Alike sees pid w w')
    (permitted : ∀ name, sees name = permits w.kernel.store pid name access.mode) :
    Twin (fun answer s _ => Confined sees w s answer) (access.task rules pid) w w' := by
  cases access with
  | read uri version => exact (twin_read plain alike permitted uri).bind fun _ _ _ kept => .pure kept
  | readMetadata uri version =>
    exact (twin_readMetadata plain alike permitted uri).bind fun _ _ _ kept => .pure kept
  | listVersions uri => exact (twin_listVersions plain alike permitted uri).bind fun _ _ _ kept => .pure kept
  | openHandle uri mode expectedVersion =>
    exact (twin_openHandle uri expectedVersion plain alike permitted).bind fun _ _ _ kept => .pure kept
  | beginWrite uri idempotencyKey expectedVersion =>
    exact (twin_beginWrite plain alike permitted).bind fun _ _ _ kept => .pure kept
  | delete uri => exact (twin_delete plain alike permitted).bind fun _ _ _ kept => .pure kept

end

/-! ## Confinement -/

/-- After any calls with plain names, in any interleaving and with stops anywhere, a
process with a plain pid reaches only artifacts of namespaces for which it has the
capability: one that a call which returns has touched is in such a namespace, and in
every other world that differs only in artifacts of other namespaces the call returns
or raises the same. -/
theorem plain_namespaces_confine (rules : TextRules) (digest : Digest γ) (kernel : World)
    (events : List (Event Empty (PlainCall γ))) (pid : String) (plain : Plain pid) (access : Access)
    (w : FsWorld γ) (reached : w = ((plainCalls rules digest).conduct { kernel } events).shared) :
    (∀ answer s, (access.task rules pid).alone w = (.ok answer, s) → ∃ artifact,
      permits w.kernel.store pid artifact.namespaceId access.mode = true ∧ Touches w s answer artifact) ∧
    ∀ w', Placed w' → SameView (fun name => permits w.kernel.store pid name access.mode) pid w w' →
      ((access.task rules pid).alone w').1 = ((access.task rules pid).alone w).1 := by
  have placed : Placed w := reached ▸ placed_run rules digest kernel events
  constructor
  · intro answer s returned
    have twin : Twin (fun answer s _ =>
        Confined (fun name => permits w.kernel.store pid name access.mode) w s answer)
        (access.task rules pid) w w := twin_access access plain (.self placed) fun _ => rfl
    unfold Twin at twin
    rw [returned] at twin
    exact twin.2
  · intro w' other view
    exact (twin_access access plain ⟨placed, other, view⟩ fun _ => rfl).result.symm

end

/-! ## Names that are not plain -/

/-- Two processes; one may use its own namespace and read what is named like a
directory of the other's. -/
def neighbours : World :=
  { store := { capabilitySets :=
      [("p", [{ resourcePattern := "artifact://ns-p/**", operations := ["read", "write"] },
          { resourcePattern := "artifact://ns-q/secret/**", operations := ["read"] }]),
        ("q", [{ resourcePattern := "artifact://ns-q/**", operations := ["read", "write"] }])] } }

/-- A file of one process, and a mount of the other over it. -/
def mounted (sourceNamespaceId sourcePrefix : String) : List (ArtifactCall String) :=
  [.file (.createNamespace "p" none none), .file (.createNamespace "q" none none),
    .file (.write "q" "workspace:///secret/f" "hidden" "k" none),
    .file (.mount "p" "m" sourceNamespaceId sourcePrefix .sharedReadonly)]

def mountedWorld (sourceNamespaceId sourcePrefix : String) : FsWorld String :=
  runArtifacts plainRules ArtifactHistory.plainDigest neighbours (mounted sourceNamespaceId sourcePrefix)

/-- A mount whose source is a namespace with a directory passes the check on the source,
and the file behind it is in a namespace that the process may not read. -/
theorem mount_of_directory_is_not_confined :
    ((read plainRules "p" "workspace:///m/f" none).alone (mountedWorld "ns-q/secret" "")).1 = .ok "hidden" ∧
    ((mountedWorld "ns-q/secret" "").tables.artifacts.map fun record =>
      (record.canonicalUri, record.namespaceId)) = [("artifact://ns-q/secret/f", "ns-q")] ∧
    permits (mountedWorld "ns-q/secret" "").kernel.store "p" "ns-q" .read = false ∧
    ((read plainRules "p" "artifact://ns-q/secret/f" none).alone (mountedWorld "ns-q/secret" "")).1 =
      .error (.kernel (.capabilityDenied "p" "artifact://ns-q/secret/f" "read")) := by
  decide +kernel

/-- Calls that run from their first steps to their last, one after the other. -/
def inTurn (calls : List (PlainCall String)) : List (Event Empty (PlainCall String)) :=
  calls.zipIdx.flatMap fun (call, index) => .enter call :: List.replicate 24 (.step index)

/-- A process writes a file of its own. -/
def ownFile : List (Event Empty (PlainCall String)) :=
  inTurn [⟨.file (.createNamespace "p" none none), trivial⟩,
    ⟨.file (.write "p" "workspace:///f" "mine" "k" none), (by decide : Plain "p")⟩]

def ownWorld : FsWorld String :=
  ((plainCalls plainRules ArtifactHistory.plainDigest).conduct { kernel := neighbours } ownFile).shared

/-- The file is read, and in the namespace of the process. -/
theorem own_file_is_confined : ∃ artifact, permits ownWorld.kernel.store "p" artifact.namespaceId .read = true ∧
      Touches ownWorld (((Access.read "workspace:///f" none).task plainRules "p").alone ownWorld).2
        (.content "mine") artifact := by
  have returned : (((Access.read "workspace:///f" none).task plainRules "p").alone ownWorld).1 =
      .ok (.content "mine") := by decide +kernel
  have confined := plain_namespaces_confine plainRules ArtifactHistory.plainDigest neighbours ownFile "p"
    (by decide) (.read "workspace:///f" none) ownWorld (by unfold ownWorld; rfl)
  generalize ((Access.read "workspace:///f" none).task plainRules "p").alone ownWorld = ended at returned confined ⊢
  obtain ⟨result, s⟩ := ended
  cases returned
  exact confined.1 _ s rfl

end LongHorizonOS.NamespaceConfinement
