import LongHorizonOS.ArtifactModels
import LongHorizonOS.CapabilityService
import LongHorizonOS.SignalService

/-! The Artifact FS service and the namespace service, wired to the kernel's
services as `create_kernel_with_artifacts` does. A method is a sequence of
queries, transactions, accesses of the storage driver and journal entries; each
is one atomic step, and nothing holds them together. -/
namespace LongHorizonOS.ArtifactService
open AtomicPrograms KernelModels KernelTasks ArtifactUri ArtifactModels

/-! ## Steps -/

/-- The kernel and its database, the tables and the events of the Artifact FS in
the same database, and the files of the storage driver. -/
structure FsWorld (γ : Type) where
  kernel : World := {}
  tables : ArtifactTables := {}
  journal : List ArtifactEvent := []
  storage : Storage γ := {}

/-- What a step is about, where that matters. A method that writes a row says what
it has read before. -/
inductive FsAccess where
  | other
  | kernel (label : Label)
  /-- `open` looks the artifact up. -/
  | lookUp (canonicalUri : String) (mode : HandleMode)
  /-- A version for the transaction and the artifact as they were read. -/
  | insertVersion (artifact : ArtifactRecord) (txn : WriteTransaction) (row : ArtifactVersion)
  /-- The artifact, as it was read, moves to a version that was inserted for the transaction. -/
  | advance (artifact : ArtifactRecord) (txn : WriteTransaction) (row : ArtifactVersion)
  /-- The transaction, as it was read, is written after a version was inserted for it. -/
  | conclude (txn : WriteTransaction) (row : ArtifactVersion)
  /-- The transaction, as it was read, is written. -/
  | revise (found written : WriteTransaction)

abbrev FsTask (γ α : Type) := Task (FsWorld γ) FsAccess FsError α

section
variable {γ α : Type}

/-- A query, or a look at the files. -/
def look (read : FsWorld γ → α) : FsTask γ α :=
  ExceptT.mk (Program.atomic .other fun w => (.ok (read w), w))

def fetch (read : ArtifactTables → α) : FsTask γ α := look fun w => read w.tables

/-- A transaction on the tables. -/
def save (access : FsAccess) (change : ArtifactTables → ArtifactTables) : FsTask γ Unit :=
  ExceptT.mk (Program.atomic access fun w => (.ok (), { w with tables := change w.tables }))

/-- `self._journal.append_event(...)` -/
def tell (event : ArtifactEvent) : FsTask γ Unit :=
  ExceptT.mk (Program.atomic .other fun w => (.ok (), { w with journal := w.journal ++ [event] }))

/-- An access of the storage driver. -/
def drive (access : Storage γ → α × Storage γ) : FsTask γ α :=
  ExceptT.mk (Program.atomic .other fun w =>
    (.ok (access w.storage).1, { w with storage := (access w.storage).2 }))

/-- A transaction on the tables that can raise. -/
def attempt (access : FsAccess) (change : ArtifactTables → Except FsError ArtifactTables) : FsTask γ Unit :=
  ExceptT.mk (Program.atomic access fun w =>
    match change w.tables with
    | .error failure => (.error failure, w)
    | .ok tables => (.ok (), { w with tables }))

/-- Make a record with a new id and insert it. -/
def insertNew {ρ : Type} (make : String → ρ)
    (insert : ρ → ArtifactTables → Except FsError ArtifactTables) : FsTask γ ρ :=
  ExceptT.mk (Program.atomic .other fun w =>
    let row := make (uuid w.kernel.drawn)
    let drawn := { w with kernel := { w.kernel with drawn := w.kernel.drawn + 1 } }
    match insert row w.tables with
    | .error failure => (.error failure, drawn)
    | .ok tables => (.ok row, { drawn with tables }))

/-- A computation without an access of its own. -/
def settle (result : Except FsError α) : FsTask γ α := ExceptT.mk (.ret result)

/-- A method of a service of the kernel. -/
def kernel (task : KernelTask α) : FsTask γ α :=
  ExceptT.mk ((ExceptT.run task).within FsWorld.kernel (fun kernel w => { w with kernel }) .kernel >>=
    fun result => .ret (result.mapError .kernel))

theorem kernel_atomic (label) (access : World → Except KernelError α × World) :
    (kernel (ExceptT.mk (Program.atomic label access)) : FsTask γ α) =
    ExceptT.mk (Program.atomic (.kernel label) fun w =>
        ((access w.kernel).1.mapError .kernel, { w with kernel := (access w.kernel).2 })) := rfl

theorem kernel_bind (first) (rest : α → KernelTask β) :
    (kernel (first >>= rest) : FsTask γ β) = kernel first >>= fun a => kernel (rest a) := by
  have split : (kernel (first >>= rest) : FsTask γ β) = Program.bind (Program.bind
      (Program.within FsWorld.kernel (fun kernel w => { w with kernel }) .kernel (ExceptT.run first))
      fun result => Program.within FsWorld.kernel (fun kernel w => { w with kernel }) .kernel
        (ExceptT.bindCont rest result)) fun result => .ret (result.mapError .kernel) :=
    congrArg (Program.bind · _) (Program.within_bind _ _)
  rw [split, Program.bind_assoc]
  refine .trans ?_ (Program.bind_assoc _ _ _).symm
  congr 1
  funext result
  cases result <;> rfl

end

/-! ## Resolution -/

section
variable {γ : Type} (rules : TextRules) (pid : String)

/-- `f"ns-{pid}"` -/
def namespaceOf : String := "ns-" ++ pid

/-- The process may do this with everything in the namespace. -/
def permits (store : KernelStore) (pid namespaceId : String) (mode : HandleMode) : Bool :=
  CapabilityService.check store pid ("artifact://" ++ namespaceId ++ "/**") mode.operation

def demandCapability (canonical : CanonicalUri) (mode : HandleMode) : FsTask γ Unit := do
  if ← look fun w => permits w.kernel.store pid canonical.namespaceId mode then return ()
  else throw (.kernel (.capabilityDenied pid canonical.canonical mode.value))

/-- The path is the mount point or lies below it. -/
def below (mountPoint path : List Char) : Bool :=
  decide (path = mountPoint) || (mountPoint ++ ['/']).isPrefixOf path

variable (mounts : List NamespaceMount)

/-- The first of the mounts with the longest mount point above the path. -/
def pickMount (path : String) : Option NamespaceMount :=
  mounts.foldl (fun best mount =>
    if below mount.mountPoint.toList path.toList &&
        best.all fun held => decide (held.mountPoint.length < mount.mountPoint.length)
    then some mount else best) none

/-- The path in the source namespace. -/
def sourcePath (mount : NamespaceMount) (path : String) : String :=
  let relative := stripLead (path.toList.drop mount.mountPoint.length)
  if mount.sourcePrefix = "" then String.ofList relative
  else String.ofList (stripSlashes (mount.sourcePrefix.toList ++ '/' :: relative))

/-- Where a read goes that finds nothing in the caller's namespace. -/
def throughMounts (canonical : CanonicalUri) : CanonicalUri :=
  match pickMount mounts canonical.path with
  | none => canonical
  | some mount =>
    if mount.mode = .privateMount then canonical
    else
      let path := sourcePath mount canonical.path
      { namespaceId := mount.sourceNamespaceId, path, canonical := canonicalText mount.sourceNamespaceId path }

/-- Nothing is there that a reader sees. -/
def Missing (found : Option ArtifactRecord) : Prop := ∀ record ∈ found, record.deleted = true

instance (found : Option ArtifactRecord) : Decidable (Missing found) :=
  match found with
  | none => isTrue nofun
  | some record =>
    if deleted : record.deleted = true then isTrue (by rintro _ ⟨⟩; exact deleted)
    else isFalse fun all => deleted (all record rfl)

/-- A read in the caller's own namespace that finds nothing there goes through the mounts. -/
def route (canonical : CanonicalUri) (mode : HandleMode) : FsTask γ CanonicalUri :=
  if mode = .read ∧ canonical.namespaceId = namespaceOf pid then do
    let found ← fetch fun tables => tables.getArtifactByUri canonical.canonical
    if Missing found then do
      let mounts ← fetch fun tables => tables.listMounts (namespaceOf pid)
      return throughMounts mounts canonical
    else return canonical
  else return canonical

/-- In a foreign namespace the caller needs the capability there, too. -/
def demandSourceCapability (resolved : CanonicalUri) (mode : HandleMode) : FsTask γ Unit :=
  if resolved.namespaceId ≠ namespaceOf pid then demandCapability pid resolved mode else return ()

def resolveAndCheck (uri : String) (mode : HandleMode) : FsTask γ CanonicalUri := do
  let canonical ← settle (resolveWorkspaceUri rules uri (namespaceOf pid))
  demandCapability pid canonical mode
  let resolved ← route pid canonical mode
  demandSourceCapability pid resolved mode
  return resolved

end

/-! ## Reading -/

section
variable {γ : Type} (rules : TextRules)

/-- `version or artifact.current_version` -/
def orCurrent (version : Option Int) (current : Int) : Int :=
  (version.filter fun number => decide (number ≠ 0)).getD current

variable (pid uri : String)

def read (version : Option Int) : FsTask γ γ := do
  let canonical ← resolveAndCheck rules pid uri .read
  match ← fetch fun tables => tables.getArtifactByUri canonical.canonical with
  | none => throw (.artifactNotFound canonical.canonical)
  | some artifact =>
    if artifact.deleted ∨ artifact.currentVersion = 0 then throw (.artifactNotFound canonical.canonical)
    else
      let target := orCurrent version artifact.currentVersion
      if target < 1 ∨ artifact.currentVersion < target then
        throw (.versionConflict artifact.artifactId (some target) (some artifact.currentVersion))
      else
        match ← fetch fun tables => tables.getVersion artifact.artifactId target with
        | none => throw (.artifactNotFound (canonical.canonical ++ "@v" ++ toString target))
        | some row =>
          match ← look fun w => w.storage.read row.contentRef with
          | none => throw (.fileNotFound row.contentRef)
          | some content => return content

/-- What `read_metadata` returns, without the time of the commit. -/
structure ArtifactMetadata where
  artifactId : String
  canonicalUri : String
  namespaceId : String
  version : Int
  sizeBytes : ℕ
  contentHash : String
  committedByPid : String
  deriving DecidableEq

def readMetadata (version : Option Int) : FsTask γ ArtifactMetadata := do
  let canonical ← resolveAndCheck rules pid uri .read
  match ← fetch fun tables => tables.getArtifactByUri canonical.canonical with
  | none => throw (.artifactNotFound canonical.canonical)
  | some artifact =>
    if artifact.deleted then throw (.artifactNotFound canonical.canonical)
    else
      let target := orCurrent version artifact.currentVersion
      match ← fetch fun tables => tables.getVersion artifact.artifactId target with
      | none => throw (.artifactNotFound (canonical.canonical ++ "@v" ++ toString target))
      | some row =>
        return { artifactId := artifact.artifactId, canonicalUri := artifact.canonicalUri
                 namespaceId := artifact.namespaceId, version := row.version, sizeBytes := row.sizeBytes
                 contentHash := row.contentHash, committedByPid := row.committedByPid }

/-- A version in what `list_versions` returns, without the time of the commit. -/
structure VersionListing where
  artifactId : String
  version : Int
  sizeBytes : ℕ
  contentHash : String
  parentVersion : Option Int
  deriving DecidableEq

def ArtifactVersion.listing (row : ArtifactVersion) : VersionListing :=
  { artifactId := row.artifactId, version := row.version, sizeBytes := row.sizeBytes
    contentHash := row.contentHash, parentVersion := row.parentVersion }

/-- `list_versions`, also of an artifact that is deleted. -/
def listVersions : FsTask γ (List VersionListing) := do
  let canonical ← resolveAndCheck rules pid uri .read
  match ← fetch fun tables => tables.getArtifactByUri canonical.canonical with
  | none => throw (.artifactNotFound canonical.canonical)
  | some artifact =>
    let rows ← fetch fun tables => tables.listVersions artifact.artifactId
    return rows.map ArtifactVersion.listing

/-! ## Handles -/

variable (canonical : CanonicalUri)

def createArtifactRecord (pid : String) : FsTask γ ArtifactRecord := do
  match ← fetch fun tables => tables.getNamespace canonical.namespaceId with
  | none => throw (.namespaceNotFound canonical.namespaceId)
  | some _ =>
    let record ← insertNew (fun artifactId =>
        { artifactId, namespaceId := canonical.namespaceId, canonicalUri := canonical.canonical
          createdByPid := pid })
      fun record tables => tables.upsertArtifact record
    tell (.artifactCreated record)
    return record

/-- `_DEFAULT_MAX_OPEN_HANDLES` -/
def maxOpenHandles : ℕ := 64

/-- An exclusive lease on an artifact. -/
def acquireWriteLease (artifactId : String) : FsTask γ (List ResourceLease) := do
  let draw ← kernel (drawIds 1)
  kernel (LeaseService.atomicAcquire pid
    [{ resourceId := some ("artifact:" ++ artifactId), mode := some "exclusive" }] draw
    LeaseService.defaultLeaseTtl)

/-- The id of the record that `open` makes up for an artifact that is not there. -/
def placeholderId : FsTask γ String := do
  let draw ← kernel (drawIds 1)
  return draw 0

variable (found : Option ArtifactRecord) (mode : HandleMode)

/-- The lease that `open` takes before it makes the record of a new artifact. -/
def preacquire : FsTask γ (List ResourceLease) :=
  if found = none ∧ mode ≠ .read then do
    let artifactId ← placeholderId
    acquireWriteLease pid artifactId
  else return []

def findOrCreate : FsTask γ ArtifactRecord :=
  match found with
  | some artifact => return artifact
  | none =>
    if mode = .read then throw (.artifactNotFound canonical.canonical)
    else createArtifactRecord canonical pid

/-- The lease for a handle, unless there is one already. -/
def leaseFor (artifactId : String) (preacquired : List ResourceLease) (mode : HandleMode) :
    FsTask γ (List ResourceLease) :=
  if mode = .read then return []
  else if preacquired = [] then acquireWriteLease pid artifactId
  else return preacquired

def insertHandle (artifact : ArtifactRecord) (mode : HandleMode)
    (expectedVersion : Option Int) (leases : List ResourceLease) : FsTask γ ArtifactHandle :=
  insertNew (fun handleId =>
      { handleId, pid, artifactId := artifact.artifactId, mode
        openedVersion := if mode = .write then none else some artifact.currentVersion
        expectedVersion, leaseId := leases.head?.map ResourceLease.leaseId })
    fun handle tables => .ok (tables.upsertHandle handle)

/-- The look-up of `open`. -/
def findForOpen : FsTask γ (Option ArtifactRecord) :=
  ExceptT.mk (Program.atomic (.lookUp canonical.canonical mode) fun w =>
    (.ok (w.tables.getArtifactByUri canonical.canonical), w))

/-- `open` -/
def openHandle (expectedVersion : Option Int) : FsTask γ ArtifactHandle := do
  let canonical ← resolveAndCheck rules pid uri mode
  let count ← fetch fun tables => tables.countOpenHandles pid
  if maxOpenHandles ≤ count then throw (.quotaExceeded ("max_open_handles=" ++ toString maxOpenHandles))
  else
    let found ← findForOpen canonical mode
    let preacquired ← preacquire pid found mode
    let artifact ← findOrCreate pid canonical found mode
    let leases ← leaseFor pid artifact.artifactId preacquired mode
    let handle ← insertHandle pid artifact mode expectedVersion leases
    tell (.handleOpened handle)
    return handle

/-- Release the lease of a handle that has one. -/
def releaseFor (handle : ArtifactHandle) : FsTask γ Unit :=
  match handle.leaseId with
  | none => return ()
  | some leaseId => if leaseId = "" then return () else kernel (LeaseService.release [leaseId])

def close (handleId : String) : FsTask γ Bool := do
  match ← fetch fun tables => tables.getHandle handleId with
  | none => return false
  | some handle =>
    if handle.closed then return false
    else
      save .other fun tables => tables.upsertHandle { handle with closed := true }
      releaseFor handle
      tell (.handleClosed handleId handle.leaseId)
      return true

def closeAllForPid : FsTask γ Unit := do
  let handles ← fetch fun tables => tables.listOpenHandlesForPid pid
  handles.forM fun handle => do
    let _ ← close handle.handleId

/-! ## Write transactions -/

def beginWrite (idempotencyKey : String) (expectedVersion : Option Int) : FsTask γ WriteTransaction := do
  let canonical ← resolveAndCheck rules pid uri .write
  let found ← fetch fun tables => tables.getArtifactByUri canonical.canonical
  let artifact ← findOrCreate pid canonical found .write
  match ← fetch fun tables =>
      tables.findTransactionByIdempotency artifact.artifactId pid idempotencyKey with
  | some existing =>
    if existing.state = .aborted ∨ existing.state = .conflicted then
      throw (.idempotencyConflict existing.transactionId existing.state.value)
    else return existing
  | none =>
    if expectedVersion.any fun expected => decide (artifact.currentVersion ≠ expected) then
      throw (.versionConflict artifact.artifactId expectedVersion (some artifact.currentVersion))
    else
      let txn ← insertNew (fun transactionId =>
          { transactionId, artifactId := artifact.artifactId, pid
            expectedVersion := some (orCurrent expectedVersion artifact.currentVersion), idempotencyKey })
        fun txn tables => .ok (tables.upsertTransaction txn)
      tell (.transactionBegun txn)
      return txn

variable (digest : Digest γ)

/-- The message when a total does not fit, or nothing when it does. -/
def quotaMessage (namespaceId : String) (quotaBytes total : Int) : Option String :=
  if quotaBytes < total then
    some ("namespace " ++ namespaceId ++ " quota: " ++ toString total ++ " > " ++ toString quotaBytes)
  else none

/-- The quota of the namespace of an artifact against what is committed there. -/
def overQuota (artifactId : String) (sizeBytes : ℕ) : FsTask γ (Option String) := do
  match ← fetch fun tables => tables.getArtifact artifactId with
  | none => return none
  | some artifact =>
    let ns ← fetch fun tables => tables.getNamespace artifact.namespaceId
    match ns.bind ArtifactNamespace.quotaBytes with
    | none => return none
    | some quotaBytes =>
      let usage ← fetch fun tables => tables.countCommittedBytes artifact.namespaceId
      return quotaMessage artifact.namespaceId quotaBytes (usage + sizeBytes)

/-- Write the transaction, which was read as `found`, and journal it. -/
def reviseTransaction (found written : WriteTransaction) (event : WriteTransaction → ArtifactEvent) :
    FsTask γ Unit := do
  save (.revise found written) fun tables => tables.upsertTransaction written
  tell (event written)

variable (transactionId : String)

def stage (content : γ) : FsTask γ WriteTransaction := do
  match ← fetch fun tables => tables.getTransaction transactionId with
  | none => throw (.transactionNotFound transactionId)
  | some txn =>
    if txn.state = .committed ∨ txn.state = .aborted ∨ txn.state = .conflicted then
      throw (.idempotencyConflict transactionId txn.state.value)
    else
      drive fun storage => ((), storage.stage transactionId content)
      match ← overQuota txn.artifactId (digest.size content) with
      | some message =>
        drive fun storage => ((), storage.unlink transactionId)
        throw (.quotaExceeded message)
      | none =>
        let staged : WriteTransaction :=
          { txn with
            stagedContentRef := digest.hash content
            stagedContentHash := digest.hash content
            stagedSizeBytes := digest.size content
            state := .staged }
        reviseTransaction txn staged .transactionStaged
        return staged

variable (artifact : ArtifactRecord)

/-- The version that a transaction makes of an artifact. -/
def nextVersion (txn : WriteTransaction) (contentRef : String) : ArtifactVersion :=
  { artifactId := artifact.artifactId
    version := artifact.currentVersion + 1
    contentRef
    contentHash := txn.stagedContentHash
    sizeBytes := txn.stagedSizeBytes
    parentVersion := if 0 < artifact.currentVersion then some artifact.currentVersion else none
    committedByPid := txn.pid
    committedActionId := txn.transactionId }

/-- Insert the version, move the artifact to it and mark the transaction, in three
transactions. -/
def recordCommitted (txn : WriteTransaction) (contentRef : String) : FsTask γ Unit := do
  let row := nextVersion artifact txn contentRef
  save (.insertVersion artifact txn row) fun tables => tables.insertVersion row
  attempt (.advance artifact txn row) fun tables =>
    tables.upsertArtifact { artifact with currentVersion := row.version }
  save (.conclude txn row) fun tables => tables.upsertTransaction { txn with state := .committed }

/-- `_notify_watches`, for everybody but the writer. -/
def notifyWatches (canonicalUri : String) (newVersion : Int) (writerPid : String) : FsTask γ Unit := do
  let watches ← fetch fun tables =>
    tables.watches.filter fun watch => watch.active && decide (watch.pid ≠ writerPid)
  watches.forM fun watch =>
    if watch.uriPrefix.toList <+: canonicalUri.toList then do
      let _ ← kernel (SignalService.send watch.pid "ARTIFACT_CHANGED" (some writerPid)
        [("canonical_uri", .str canonicalUri), ("new_version", .int newVersion),
          ("watch_id", .str watch.watchId), ("uri_prefix", .str watch.uriPrefix)])
    else pure ()

variable (result : StorageCommitResult) (txn : WriteTransaction)

/-- Nothing was staged, and the store has no content with the hash. -/
def contentLost : FsTask γ Bool :=
  if result.committed = false ∧ result.contentRef = "" then do
    let stored ← look fun w => w.storage.existsRef txn.stagedContentRef
    return !stored
  else return false

/-- The reference of the driver, or the one that was staged. The driver returns no
hash of its own, so the staged hash is the one that is recorded. -/
def committedRef : String :=
  if result.contentRef = "" then txn.stagedContentRef else result.contentRef

def commit : FsTask γ WriteTransaction := do
  match ← fetch fun tables => tables.getTransaction transactionId with
  | none => throw (.transactionNotFound transactionId)
  | some txn =>
    if txn.state = .committed then return txn
    else if txn.state = .aborted ∨ txn.state = .conflicted then
      throw (.idempotencyConflict transactionId txn.state.value)
    else if txn.state ≠ .staged then throw (.versionConflict txn.artifactId none (some 0))
    else
      match ← fetch fun tables => tables.getArtifact txn.artifactId with
      | none => throw (.artifactNotFound txn.artifactId)
      | some artifact =>
        if txn.expectedVersion.any fun expected => decide (artifact.currentVersion ≠ expected) then
          let conflicted := { txn with state := .conflicted }
          save (.revise txn conflicted) fun tables => tables.upsertTransaction conflicted
          drive fun storage => ((), storage.unlink transactionId)
          tell (.transactionConflicted conflicted)
          throw (.versionConflict artifact.artifactId txn.expectedVersion (some artifact.currentVersion))
        else
          let result ← drive fun storage => storage.commit digest transactionId
          let lost ← contentLost result txn
          if lost then
            let uncertain := { txn with state := .uncertain }
            reviseTransaction txn uncertain .transactionUncertain
            return uncertain
          else
            recordCommitted artifact txn (committedRef result txn)
            let committed := { txn with state := .committed }
            let newVersion := artifact.currentVersion + 1
            save .other fun tables => tables.insertIdempotency
              { idempotencyKey := txn.idempotencyKey, artifactId := artifact.artifactId, pid := txn.pid
                transactionId, resultState := .committed, resultVersion := some newVersion }
            tell (.transactionCommitted committed newVersion)
            notifyWatches artifact.canonicalUri newVersion txn.pid
            return committed

def abort : FsTask γ WriteTransaction := do
  match ← fetch fun tables => tables.getTransaction transactionId with
  | none => throw (.transactionNotFound transactionId)
  | some txn =>
    if txn.state = .committed ∨ txn.state = .aborted then return txn
    else
      drive fun storage => ((), storage.unlink transactionId)
      let aborted := { txn with state := .aborted }
      reviseTransaction txn aborted .transactionAborted
      return aborted

def write (pid uri : String) (content : γ) (idempotencyKey : String) (expectedVersion : Option Int) :
    FsTask γ WriteTransaction := do
  let txn ← beginWrite rules pid uri idempotencyKey expectedVersion
  if txn.state = .committed then return txn
  else
    let _ ← stage digest txn.transactionId content
    commit digest txn.transactionId

/-! ## Recovery -/

/-- The turn of one uncertain transaction. Its content counts as committed when the
store has any content with its hash. -/
def resolveUncertain : FsTask γ Unit := do
  let committed := { txn with state := .committed }
  if ← look fun w => w.storage.existsRef txn.stagedContentRef then
    match ← fetch fun tables => tables.getArtifact txn.artifactId with
    | none => save (.revise txn committed) fun tables => tables.upsertTransaction committed
    | some artifact =>
      match ← fetch fun tables => tables.versions.find? fun row =>
          decide (row.committedActionId = txn.transactionId) with
      | some _ => save (.revise txn committed) fun tables => tables.upsertTransaction committed
      | none => recordCommitted artifact txn txn.stagedContentRef
  else
    let aborted := { txn with state := .aborted }
    save (.revise txn aborted) fun tables => tables.upsertTransaction aborted

/-- `recover`, which journals nothing. -/
def recover : FsTask γ Unit := do
  let rows ← fetch fun tables => tables.transactions.filter fun txn => decide (txn.state = .uncertain)
  rows.forM resolveUncertain
  let known ← fetch fun tables => tables.transactions.map WriteTransaction.transactionId
  drive fun storage => ((), storage.recover known)

/-! ## Watches and deletion -/

def watch (pid uriPrefix : String) : FsTask γ ArtifactWatch := do
  let watch ← insertNew (fun watchId => { watchId, pid, namespaceId := namespaceOf pid, uriPrefix })
    fun watch tables => .ok (tables.upsertWatch watch)
  tell (.watchRegistered watch)
  return watch

/-- `unwatch`, which journals nothing. -/
def unwatch (watchId : String) : FsTask γ Bool := do
  save .other fun tables => tables.deactivateWatch watchId
  return true

def delete (pid uri : String) : FsTask γ Bool := do
  let canonical ← resolveAndCheck rules pid uri .write
  match ← fetch fun tables => tables.getArtifactByUri canonical.canonical with
  | none => throw (.artifactNotFound canonical.canonical)
  | some artifact =>
    attempt .other fun tables => tables.upsertArtifact { artifact with deleted := true }
    tell (.artifactDeleted artifact.artifactId canonical.canonical)
    return true

/-! ## Namespaces -/

def createNamespace (pid : String) (quotaBytes maxOpenHandles : Option Int) : FsTask γ ArtifactNamespace := do
  match ← fetch fun tables => tables.getNamespace (namespaceOf pid) with
  | some existing => return existing
  | none =>
    let ns : ArtifactNamespace :=
      { namespaceId := namespaceOf pid, ownerPid := pid, rootUri := "artifact://" ++ namespaceOf pid
        quotaBytes, maxOpenHandles }
    save .other fun tables => tables.upsertNamespace ns
    tell (.namespaceCreated ns)
    return ns

def setQuota (namespaceId : String) (quotaBytes : Int) : FsTask γ Unit := do
  match ← fetch fun tables => tables.getNamespace namespaceId with
  | none => throw (.valueError ("Namespace not found: " ++ namespaceId))
  | some ns =>
    save .other fun tables => tables.upsertNamespace { ns with quotaBytes := some quotaBytes }
    tell (.quotaSet namespaceId quotaBytes)

def mount (targetPid mountPoint sourceNamespaceId sourcePrefix : String) (mode : MountMode) :
    FsTask γ NamespaceMount := do
  match ← fetch fun tables => tables.getNamespace (namespaceOf targetPid) with
  | none => throw (.valueError ("Target namespace not found: " ++ namespaceOf targetPid))
  | some _ =>
    let mounted ← insertNew (fun mountId =>
        { mountId, namespaceId := namespaceOf targetPid
          mountPoint := String.ofList (stripSlashes mountPoint.toList)
          sourceNamespaceId, sourcePrefix := String.ofList (stripSlashes sourcePrefix.toList), mode })
      fun mounted tables => .ok (tables.upsertMount mounted)
    tell (.mountCreated mounted)
    return mounted

def unmount (targetPid mountPoint : String) : FsTask γ Bool := do
  let mounts ← fetch fun tables => tables.listMounts (namespaceOf targetPid)
  let point := String.ofList (stripSlashes mountPoint.toList)
  match mounts.find? fun mounted => decide (mounted.mountPoint = point) with
  | none => return false
  | some mounted =>
    save .other fun tables => tables.removeMount mounted.mountId
    tell (.mountRemoved mounted.mountId point)
    return true

end

/-! ## What only reads -/

section
variable {γ α : Type}

/-- The step is a query. -/
def Reads (access : FsAccess) (w w' : FsWorld γ) : Prop := access = .other ∧ w' = w

theorem reads_look {read : FsWorld γ → α} : AlwaysTask Reads (look read) := .step fun _ => ⟨rfl, rfl⟩

theorem reads_fetch {read : ArtifactTables → α} : AlwaysTask Reads (fetch read : FsTask γ α) := reads_look

theorem reads_demandCapability : AlwaysTask Reads (demandCapability pid canonical mode : FsTask γ Unit) := by
  refine reads_look.bind fun permitted => ?_
  cases permitted
  · exact .throw _
  exact .pure _

theorem reads_route : AlwaysTask Reads (route pid canonical mode : FsTask γ CanonicalUri) := by
  unfold route
  split
  · refine reads_fetch.bind fun found => ?_
    split
    · exact reads_fetch.bind fun _ => .pure _
    exact .pure _
  · exact .pure _

theorem reads_demandSourceCapability {resolved} :
    AlwaysTask Reads (demandSourceCapability pid resolved mode : FsTask γ Unit) := by
  unfold demandSourceCapability
  split
  · exact reads_demandCapability
  exact .pure _

theorem reads_resolveAndCheck {rules uri} :
    AlwaysTask Reads (resolveAndCheck rules pid uri mode : FsTask γ CanonicalUri) := by
  have settles : AlwaysTask Reads (settle (resolveWorkspaceUri rules uri (namespaceOf pid)) : FsTask γ _) := trivial
  refine settles.bind fun canonical => ?_
  refine reads_demandCapability.bind fun _ => ?_
  refine reads_route.bind fun resolved => ?_
  exact reads_demandSourceCapability.bind fun _ => .pure _

theorem reads_read {rules uri version} : AlwaysTask Reads (read rules pid uri version : FsTask γ γ) := by
  refine reads_resolveAndCheck.bind fun canonical => ?_
  refine reads_fetch.bind fun found => ?_
  cases found with
  | none => exact .throw _
  | some artifact =>
    dsimp only
    split
    · exact .throw _
    split
    · exact .throw _
    refine reads_fetch.bind fun listed => ?_
    cases listed with
    | none => exact .throw _
    | some row =>
      refine reads_look.bind fun content => ?_
      cases content with
      | none => exact .throw _
      | some content => exact .pure _

theorem reads_overQuota {artifactId} {sizeBytes} :
    AlwaysTask Reads (overQuota artifactId sizeBytes : FsTask γ (Option String)) := by
  refine reads_fetch.bind fun found => ?_
  cases found with
  | none => exact .pure _
  | some artifact =>
    refine reads_fetch.bind fun ns => ?_
    split
    · exact .pure _
    exact reads_fetch.bind fun usage => .pure _

theorem reads_contentLost {result txn} : AlwaysTask Reads (contentLost result txn : FsTask γ Bool) := by
  unfold contentLost
  split
  · exact reads_look.bind fun _ => .pure _
  exact .pure _

end

/-! ## The steps under a discipline -/

section
variable {γ α : Type} {w : FsWorld γ} {held : ℕ}

theorem safe_look {read} (safe : ∀ w', d.rely w w' → d.guarantee .other w' w' ∧ returns (read w') w' held) :
    SafeTask d returns raises (look read) w held :=
  .step fun w' relied _ => ⟨(safe w' relied).1, held, by simp, (safe w' relied).2⟩

theorem safe_fetch {read} (safe : ∀ w', d.rely w w' →
    d.guarantee .other w' w' ∧ returns (read w'.tables) w' held) :
    SafeTask d returns raises (fetch read) w held := safe_look safe

theorem safe_save {returns} {access} {change} (safe : ∀ w', d.rely w w' → d.allowed access w' →
    d.guarantee access w' { w' with tables := change w'.tables } ∧
      ∃ held' : ℕ, (held' : ℤ) - held ≤ d.credit { w' with tables := change w'.tables } - d.credit w' ∧
        returns () { w' with tables := change w'.tables } held') :
    SafeTask d returns raises (save access change) w held := .step safe

/-- Steps of the kernel's services leave the rest alone. -/
theorem always_kernel {task Q} (placed : ∀ label kernel' (w : FsWorld γ), Q label w.kernel kernel' →
    P (.kernel label) w { w with kernel := kernel' }) (always : AlwaysTask Q task) :
    AlwaysTask P (kernel task : FsTask γ α) :=
  Always.bind (Always.within placed always) fun _ => trivial

end
end LongHorizonOS.ArtifactService
