import LongHorizonOS.ContextPager
import LongHorizonOS.KernelTasks

/-! The context VM service: loading a manifest, pins, snapshots and their
restoration. A call that raises has changed nothing yet, so a call is a function to a
result and the next state. The maps by process are one table whose rows carry the pid.
The event sink is read by nothing and is left out. -/
namespace LongHorizonOS.ContextService
open KeyedRows FailFast KernelTasks ContextPager

/-! ## State -/

structure LoadedPage (β δ : Type) extends ContextPage δ where
  mediaType : String
  encoding : String
  content : List β
  deriving DecidableEq

structure OmittedRef where
  refId : String
  reason : String
  requestedTokens : Int
  deriving DecidableEq

structure LoadedContext (β δ : Type) where
  contextId : String
  pid : String
  manifestId : String
  manifestHash : δ
  workingSetId : String
  orderedPages : List (LoadedPage β δ)
  tokenBudget : Int
  tokensUsed : Int
  byteBudget : Option Int
  bytesUsed : Int
  omittedRefs : List OmittedRef
  versionBindings : List (VersionBinding δ)
  materializedHash : δ
  deriving DecidableEq

structure WorkingSet (δ : Type) where
  workingSetId : String
  pid : String
  selectedPageIds : List δ
  omittedPageIds : List String
  tokensUsed : Int
  bytesUsed : Int

structure ContextHandle (δ : Type) where
  handleId : String
  pid : String
  workingSetId : String
  closed : Bool := false
  pinnedPageIds : List δ := []
  deriving DecidableEq

structure HandleRec (β δ : Type) where
  handle : ContextHandle δ
  loaded : LoadedContext β δ
  policyId : String

structure PageBinding (δ : Type) extends VersionBinding δ where
  pageHash : δ
  byteStart : ℕ
  byteEnd : ℕ

structure ContextSnapshot (δ : Type) where
  snapshotId : String
  pid : String
  manifestHash : δ
  materializedHash : δ
  policyId : String
  pageBindings : List (PageBinding δ)
  tokensUsed : Int
  bytesUsed : Int

structure ServiceState (β δ : Type) where
  workingSets : List (WorkingSet δ) := []
  handles : List (HandleRec β δ) := []
  snaps : List (ContextSnapshot δ) := []
  pinCounts : List (δ × ℕ) := []
  idemLoad : List ((String × δ × String) × String) := []
  idemSnapshot : List ((String × String × String) × String) := []
  idemRestore : List ((String × String × String) × String) := []
  drawn : ℕ := 0

def HandleRec.id {β δ : Type} (held : HandleRec β δ) : String := held.handle.handleId

variable {β δ : Type} [DecidableEq δ]

abbrev Call (β δ α : Type) := ServiceState β δ → Except ContextError (α × ServiceState β δ)

/-- The value stored for an idempotency key. The empty key is no key. -/
def replayed {κ : Type} [DecidableEq κ] (entries : List (κ × String)) (k : κ) (idempotencyKey : String) :
    Option String :=
  if idempotencyKey = "" then none else (lookup Prod.fst entries k).map Prod.snd

def recordKey {κ : Type} [DecidableEq κ] (entries : List (κ × String)) (k : κ) (idempotencyKey id : String) :
    List (κ × String) :=
  if idempotencyKey = "" then entries else upsert Prod.fst (k, id) entries

/-- `_get_owning_rec` -/
def getOwningRec (pid handleId : String) (s : ServiceState β δ) : Except ContextError (HandleRec β δ) := do
  let held ← demand (lookup HandleRec.id s.handles handleId)
    (.invalidManifest ("handle " ++ handleId ++ " not found"))
  require (held.handle.pid = pid)
    (.handleNotOwned ("handle " ++ handleId ++ " belongs to " ++ held.handle.pid ++ ", not " ++ pid))
  return held

/-- `_get_owning_rec` and `_require_handle_owned` -/
def getOpenRec (pid handleId : String) (s : ServiceState β δ) : Except ContextError (HandleRec β δ) := do
  let held ← getOwningRec pid handleId s
  require (held.handle.closed = false) (.handleClosed ("handle " ++ handleId ++ " is closed"))
  return held

def putHandle (held : HandleRec β δ) (handle : ContextHandle δ) (s : ServiceState β δ) : ServiceState β δ :=
  { s with handles := upsert HandleRec.id { held with handle := handle } s.handles }

/-! ## Load -/

section
variable (p : Providers β δ) (manifest : ContextManifest δ) (callerPid : String)

def validateManifest : Except ContextError Unit := do
  require (0 < manifest.tokenBudget) (.invalidManifest "token_budget must be > 0")
  require (0 < manifest.pageSizeBytes) (.invalidManifest "page_size_bytes must be > 0")
  require ((manifest.refs.map ContentRef.refId).Nodup) (.duplicateRefId "manifest contains duplicate ref_id")
  require (manifest.ownerPid = callerPid) (.capabilityDenied
    ("manifest.owner_pid " ++ manifest.ownerPid ++ " != caller " ++ callerPid))
  require (p.canContextOperation callerPid "load" = true)
    (.capabilityDenied (callerPid ++ ": context load capability denied"))

variable (ref : ContentRef δ)

/-- `_resolve_and_verify_ref` -/
def resolveAndVerifyRef : Except ContextError (List β) := do
  require (p.canArtifactRead callerPid ref.artifactId ref.version = true) (.capabilityDenied
    (callerPid ++ ": cannot read artifact " ++ ref.artifactId ++ " v" ++ toString ref.version))
  let bytes ← demand (p.readVersion ref.artifactId ref.version ref.canonicalUri)
    (.artifactNotFound (ref.artifactId ++ " v" ++ toString ref.version))
  require (p.hashes.content bytes = ref.contentHash) (.invalidContentHash ("ref " ++ ref.refId ++
    ": expected " ++ p.hashes.hex ref.contentHash ++ ", got " ++ p.hashes.hex (p.hashes.content bytes)))
  return bytes

/-- `_pages_for_manifest`, for one reference. -/
def refPagesOf : Except ContextError (RefPages δ) := do
  let bytes ← resolveAndVerifyRef p callerPid ref
  let pages ← computePagesForRef p ref manifest.pageSizeBytes.toNat bytes
  return ⟨ref, pages⟩

/-- The bytes of a version that was read before. -/
def bytesOf (artifactId : String) (version : Int) (canonicalUri : String) : List β :=
  (p.readVersion artifactId version canonicalUri).getD []

variable (refs : List (ContentRef δ))

/-- `ref_by_artifact.get`: of several references to an artifact the last one wins. -/
def refByArtifact (artifactId : String) : Option (ContentRef δ) :=
  lookup ContentRef.artifactId refs.reverse artifactId

variable (page : ContextPage δ)

def materializePage : LoadedPage β δ :=
  let content := ((bytesOf p page.artifactId page.version page.canonicalUri).take page.byteEnd).drop page.byteStart
  let ref := refByArtifact refs page.artifactId
  { page with
    sizeBytes := content.length
    mediaType := (ref.map ContentRef.mediaType).getD "application/octet-stream"
    encoding := (ref.map ContentRef.encoding).getD "utf-8"
    content := content }

def ContextPage.binding : VersionBinding δ :=
  ⟨page.pageId, page.canonicalUri, page.artifactId, page.version, page.contentHash⟩

/-- What a skipped reference would have cost. Its pages were computed once already. -/
def omittedRef : OmittedRef :=
  let pages := computePagesForRef p ref manifest.pageSizeBytes.toNat
    (bytesOf p ref.artifactId ref.version ref.canonicalUri)
  ⟨ref.refId, "optional_skipped", ((pages.toOption.getD []).map ContextPage.estimatedTokens).sum⟩

/-- `_materialize`, the loaded context -/
def materialize (contextId workingSetId : String) (sel : Selection δ) : LoadedContext β δ :=
  let pages := sel.selected.map (materializePage p manifest.refs)
  let bindings := sel.selected.map ContextPage.binding
  { contextId := contextId
    pid := callerPid
    manifestId := manifest.manifestId
    manifestHash := p.hashes.manifestHash manifest
    workingSetId := workingSetId
    orderedPages := pages
    tokenBudget := manifest.tokenBudget
    tokensUsed := sel.tokensUsed
    byteBudget := manifest.byteBudget
    bytesUsed := sel.bytesUsed
    omittedRefs := (manifest.refs.filter fun ref => decide (ref.refId ∈ sel.omittedRefIds)).map
      (omittedRef p manifest)
    versionBindings := bindings
    materializedHash := p.hashes.materialized bindings (pages.map LoadedPage.content) }

/-- Resolve, cut and select. -/
def selectFor : Except ContextError (Selection δ) := do
  let refPages ← (sortRefsDeterministic manifest.refs).mapM (refPagesOf p manifest callerPid)
  selectPages manifest refPages (readSetFromMetadata manifest)

/-- Register a context under a new handle. -/
def register (loaded : LoadedContext β δ) (policyId : String) (selectedIds : List δ) (omittedIds : List String)
    (s : ServiceState β δ) : HandleRec β δ × ServiceState β δ :=
  let held : HandleRec β δ :=
    ⟨{ handleId := uuid (s.drawn + 1), pid := loaded.pid, workingSetId := loaded.workingSetId }, loaded, policyId⟩
  (held, { s with
    workingSets := s.workingSets ++
      [⟨loaded.workingSetId, loaded.pid, selectedIds, omittedIds, loaded.tokensUsed, loaded.bytesUsed⟩]
    handles := s.handles ++ [held]
    drawn := s.drawn + 3 })

/-- A load that is not a replay draws the ids of the working set, the handle and the context. -/
def loadFresh : Call β δ (HandleRec β δ) := fun s => do
  let sel ← selectFor p manifest callerPid
  let loaded := materialize p manifest callerPid (uuid (s.drawn + 2)) (uuid s.drawn) sel
  return register loaded manifest.policyId (sel.selected.map ContextPage.pageId) sel.omittedRefIds s

def load (idempotencyKey : String) : Call β δ (ContextHandle δ × LoadedContext β δ) := fun s => do
  validateManifest p manifest callerPid
  let key := (callerPid, p.hashes.manifestHash manifest, idempotencyKey)
  match replayed s.idemLoad key idempotencyKey with
  | some handleId =>
    let held ← demand (lookup HandleRec.id s.handles handleId) (.invalidManifest handleId)
    return ((held.handle, held.loaded), s)
  | none =>
    let (held, s') ← loadFresh p manifest callerPid s
    return ((held.handle, held.loaded),
      { s' with idemLoad := recordKey s'.idemLoad key idempotencyKey held.handle.handleId })

end

/-! ## Pins -/

variable (counts : List (δ × ℕ)) (page : δ)

/-- `_pin_counts.get(page, 0)` -/
def countOf : ℕ := ((lookup Prod.fst counts page).map Prod.snd).getD 0

def addPin : List (δ × ℕ) :=
  upsert Prod.fst (page, countOf counts page + 1) counts

/-- Take one pin back, where there is one. -/
def dropPin : List (δ × ℕ) :=
  if 0 < countOf counts page then upsert Prod.fst (page, countOf counts page - 1) counts else counts

/-- The tuple of pins is sorted in the source. Its order is read by nothing here. -/
def pin (pid handleId : String) (pageIds : List δ) : Call β δ (List δ) := fun s => do
  let held ← getOpenRec pid handleId s
  let pins := (held.handle.pinnedPageIds ++ pageIds).dedup
  let s := { s with pinCounts := pageIds.foldl addPin s.pinCounts }
  return (pins, putHandle held { held.handle with pinnedPageIds := pins } s)

def unpin (pid handleId : String) (pageIds : List δ) : Call β δ (List δ) := fun s => do
  let held ← getOpenRec pid handleId s
  let pins := held.handle.pinnedPageIds.filter fun page => decide (page ∉ pageIds)
  let s := { s with pinCounts := pageIds.foldl dropPin s.pinCounts }
  return (pins, putHandle held { held.handle with pinnedPageIds := pins } s)

/-- Release the pins of a record and close its handle. -/
def closeRec (s : ServiceState β δ) (held : HandleRec β δ) : ServiceState β δ :=
  putHandle held { held.handle with closed := true }
    { s with pinCounts := held.handle.pinnedPageIds.foldl dropPin s.pinCounts }

def close (pid handleId : String) : Call β δ Bool := fun s =>
  match lookup HandleRec.id s.handles handleId with
  | none => .ok (true, s)
  | some held =>
    if held.handle.pid ≠ pid ∨ held.handle.closed = true then .ok (true, s) else .ok (true, closeRec s held)

def cleanupProcess (pid : String) (s : ServiceState β δ) : ServiceState β δ :=
  (s.handles.filter fun held => decide (held.handle.pid = pid ∧ held.handle.closed = false)).foldl closeRec s

/-! ## Snapshots -/

def pageBinding (loaded : LoadedContext β δ) (binding : VersionBinding δ) (unhashed : δ) : PageBinding δ :=
  let page := loaded.orderedPages.find? fun page => decide (page.pageId = binding.pageId)
  { binding with
    pageHash := (page.map fun page => page.pageHash).getD unhashed
    byteStart := (page.map fun page => page.byteStart).getD 0
    byteEnd := (page.map fun page => page.byteEnd).getD 0 }

/-- The snapshot of the context of a handle. The hash of a page that is not found is the
empty text, `unhashed`. -/
def snapshotOf (unhashed : δ) (held : HandleRec β δ) (snapshotId pid : String) : ContextSnapshot δ :=
  { snapshotId := snapshotId
    pid := pid
    manifestHash := held.loaded.manifestHash
    materializedHash := held.loaded.materializedHash
    policyId := held.policyId
    pageBindings := held.loaded.versionBindings.map fun binding => pageBinding held.loaded binding unhashed
    tokensUsed := held.loaded.tokensUsed
    bytesUsed := held.loaded.bytesUsed }

def snapshot (unhashed : δ) (pid contextId idempotencyKey : String) : Call β δ (ContextSnapshot δ) := fun s =>
  let key := (pid, contextId, idempotencyKey)
  match replayed s.idemSnapshot key idempotencyKey with
  | some snapshotId => do
    let snap ← demand (lookup ContextSnapshot.snapshotId s.snaps snapshotId) (.invalidManifest snapshotId)
    return (snap, s)
  | none => do
    let held ← demand
      (s.handles.find? fun held => decide (held.handle.pid = pid ∧ held.loaded.contextId = contextId))
      (.invalidManifest ("context " ++ contextId ++ " not found for pid " ++ pid))
    let snap := snapshotOf unhashed held (uuid s.drawn) pid
    return (snap, { s with
      snaps := s.snaps ++ [snap]
      idemSnapshot := recordKey s.idemSnapshot key idempotencyKey snap.snapshotId
      drawn := s.drawn + 1 })

section
variable (p : Providers β δ)

/-- What is known of a page from its binding and its bytes. -/
def boundPage (b : PageBinding δ) (chunk : List β) : LoadedPage β δ :=
  { pageId := b.pageId, canonicalUri := b.canonicalUri, artifactId := b.artifactId, version := b.version
    contentHash := b.contentHash, byteStart := b.byteStart, byteEnd := b.byteEnd, pageHash := b.pageHash
    estimatedTokens := 0, sizeBytes := chunk.length, required := false, priority := 0
    mediaType := "application/octet-stream", encoding := "utf-8", content := chunk }

/-- One page of a snapshot, read and checked again. -/
def restorePage (snapshotId : String) (b : PageBinding δ) : Except ContextError (LoadedPage β δ) := do
  let bytes ← demand (p.readVersion b.artifactId b.version b.canonicalUri) (.snapshotCorrupt
    ("snapshot " ++ snapshotId ++ ": artifact " ++ b.artifactId ++ " v" ++ toString b.version ++ " missing"))
  require (p.hashes.content bytes = b.contentHash) (.snapshotCorrupt
    ("snapshot " ++ snapshotId ++ ": page " ++ p.hashes.hex b.pageId ++ " hash mismatch"))
  let chunk := (bytes.take b.byteEnd).drop b.byteStart
  require (p.hashes.content chunk = b.pageHash) (.snapshotCorrupt
    ("snapshot " ++ snapshotId ++ ": page " ++ p.hashes.hex b.pageId ++ " page-hash mismatch"))
  return boundPage b chunk

/-- The context of a restored snapshot. -/
def rebuilt (snap : ContextSnapshot δ) (pages : List (LoadedPage β δ)) (contextId workingSetId : String) :
    LoadedContext β δ :=
  { contextId := contextId
    pid := snap.pid
    manifestId := ""
    manifestHash := snap.manifestHash
    workingSetId := workingSetId
    orderedPages := pages
    tokenBudget := snap.tokensUsed
    tokensUsed := snap.tokensUsed
    byteBudget := some snap.bytesUsed
    bytesUsed := snap.bytesUsed
    omittedRefs := []
    versionBindings := snap.pageBindings.map PageBinding.toVersionBinding
    materializedHash := snap.materializedHash }

/-- `restore_snapshot` -/
def restoreSnapshot (pid snapshotId idempotencyKey : String) :
    Call β δ (ContextHandle δ × LoadedContext β δ) := fun s => do
  let key := (pid, snapshotId, idempotencyKey)
  match replayed s.idemRestore key idempotencyKey with
  | some handleId =>
    let held ← demand (lookup HandleRec.id s.handles handleId) (.invalidManifest handleId)
    return ((held.handle, held.loaded), s)
  | none =>
    let snap ← demand (lookup ContextSnapshot.snapshotId s.snaps snapshotId)
      (.snapshotCorrupt ("snapshot " ++ snapshotId ++ " not found"))
    require (snap.pid = pid)
      (.capabilityDenied ("snapshot " ++ snapshotId ++ " owned by " ++ snap.pid ++ ", not " ++ pid))
    let pages ← snap.pageBindings.mapM (restorePage p snapshotId)
    let restoredHash := p.hashes.materialized (snap.pageBindings.map PageBinding.toVersionBinding)
      (pages.map LoadedPage.content)
    require (restoredHash = snap.materializedHash) (.snapshotCorrupt
      ("snapshot " ++ snapshotId ++ ": re-materialized hash " ++ p.hashes.hex restoredHash ++
        " != recorded " ++ p.hashes.hex snap.materializedHash))
    let loaded := rebuilt snap pages (uuid (s.drawn + 2)) (uuid s.drawn)
    let (held, s') := register loaded "" (snap.pageBindings.map fun b => b.pageId) [] s
    return ((held.handle, held.loaded),
      { s' with idemRestore := recordKey s'.idemRestore key idempotencyKey held.handle.handleId })

end
end LongHorizonOS.ContextService
