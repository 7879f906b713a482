import LongHorizonOS.ArtifactUri
import Mathlib.Algebra.GroupWithZero.Nat

/-! The records of the Artifact FS, their tables, the events from which the
tables are rebuilt, and the storage driver. Of the times only what decides
something is kept: a handle is closed or not. -/
namespace LongHorizonOS.ArtifactModels
open KeyedRows ArtifactUri

/-! ## Records -/

structure ArtifactRecord where
  artifactId : String
  namespaceId : String
  canonicalUri : String
  currentVersion : Int := 0
  createdByPid : String
  deleted : Bool := false
  deriving DecidableEq

structure ArtifactVersion where
  artifactId : String
  version : Int
  contentRef : String
  contentHash : String
  sizeBytes : ℕ
  parentVersion : Option Int
  committedByPid : String
  committedActionId : String
  deriving DecidableEq

inductive HandleMode where
  | read
  | write
  | append
  deriving DecidableEq

def HandleMode.value : HandleMode → String
  | read => "read"
  | write => "write"
  | append => "append"

/-- `op_map` -/
def HandleMode.operation : HandleMode → String
  | read => "read"
  | write => "write"
  | append => "write"

structure ArtifactHandle where
  handleId : String
  pid : String
  artifactId : String
  mode : HandleMode
  openedVersion : Option Int
  expectedVersion : Option Int
  leaseId : Option String
  closed : Bool := false
  deriving DecidableEq

inductive TransactionState where
  | begun
  | staged
  | committed
  | aborted
  | conflicted
  | uncertain
  deriving DecidableEq

def TransactionState.value : TransactionState → String
  | begun => "open"
  | staged => "staged"
  | committed => "committed"
  | aborted => "aborted"
  | conflicted => "conflicted"
  | uncertain => "uncertain"

structure WriteTransaction where
  transactionId : String
  artifactId : String
  pid : String
  expectedVersion : Option Int
  stagedContentRef : String := ""
  stagedContentHash : String := ""
  stagedSizeBytes : ℕ := 0
  state : TransactionState := .begun
  idempotencyKey : String
  deriving DecidableEq

structure ArtifactNamespace where
  namespaceId : String
  ownerPid : String
  rootUri : String
  quotaBytes : Option Int
  maxOpenHandles : Option Int
  deriving DecidableEq

inductive MountMode where
  | privateMount
  | sharedReadonly
  | sharedReadwrite
  | copyOnWrite
  deriving DecidableEq

structure NamespaceMount where
  mountId : String
  namespaceId : String
  mountPoint : String
  sourceNamespaceId : String
  sourcePrefix : String
  mode : MountMode
  deriving DecidableEq

structure ArtifactWatch where
  watchId : String
  pid : String
  namespaceId : String
  uriPrefix : String
  active : Bool := true
  deriving DecidableEq

/-- A row of `artifact_idempotency`. -/
structure IdempotencyRow where
  idempotencyKey : String
  artifactId : String
  pid : String
  transactionId : String
  resultState : TransactionState
  resultVersion : Option Int
  deriving DecidableEq

/-- The events of the two services, with their payloads. -/
inductive ArtifactEvent where
  | namespaceCreated (ns : ArtifactNamespace)
  | quotaSet (namespaceId : String) (quotaBytes : Int)
  | mountCreated (mount : NamespaceMount)
  | mountRemoved (mountId mountPoint : String)
  | artifactCreated (record : ArtifactRecord)
  /-- Replayed, but written by no method. -/
  | versionCommitted (version : ArtifactVersion)
  | handleOpened (handle : ArtifactHandle)
  | handleClosed (handleId : String) (leaseId : Option String)
  | transactionBegun (txn : WriteTransaction)
  | transactionStaged (txn : WriteTransaction)
  | transactionCommitted (txn : WriteTransaction) (newVersion : Int)
  | transactionAborted (txn : WriteTransaction)
  | transactionConflicted (txn : WriteTransaction)
  | transactionUncertain (txn : WriteTransaction)
  | artifactDeleted (artifactId canonicalUri : String)
  | watchRegistered (watch : ArtifactWatch)
  deriving DecidableEq

/-! ## Tables -/

structure ArtifactTables where
  artifacts : List ArtifactRecord := []
  versions : List ArtifactVersion := []
  handles : List ArtifactHandle := []
  transactions : List WriteTransaction := []
  namespaces : List ArtifactNamespace := []
  mounts : List NamespaceMount := []
  watches : List ArtifactWatch := []
  idempotency : List IdempotencyRow := []
  deriving DecidableEq

/-- The two columns of the primary key. -/
def ArtifactVersion.place (row : ArtifactVersion) : String × Int := (row.artifactId, row.version)

/-- The three columns of the primary key. -/
def IdempotencyRow.place (row : IdempotencyRow) : String × String × String :=
  (row.idempotencyKey, row.artifactId, row.pid)

namespace ArtifactTables
variable (tables : ArtifactTables)

def getArtifact (artifactId : String) : Option ArtifactRecord :=
  lookup ArtifactRecord.artifactId tables.artifacts artifactId

def getArtifactByUri (canonicalUri : String) : Option ArtifactRecord :=
  lookup ArtifactRecord.canonicalUri tables.artifacts canonicalUri

def getVersion (artifactId : String) (version : Int) : Option ArtifactVersion :=
  lookup ArtifactVersion.place tables.versions (artifactId, version)

/-- `ORDER BY version` -/
def listVersions (artifactId : String) : List ArtifactVersion :=
  (tables.versions.filter fun row => decide (row.artifactId = artifactId)).insertionSort
    fun a b => a.version ≤ b.version

def countCommittedBytes (namespaceId : String) : ℕ :=
  ((tables.versions.filter fun row => decide (∃ record ∈ tables.artifacts,
    record.artifactId = row.artifactId ∧ record.namespaceId = namespaceId)).map ArtifactVersion.sizeBytes).sum

def getHandle (handleId : String) : Option ArtifactHandle :=
  lookup ArtifactHandle.handleId tables.handles handleId

def listOpenHandlesForPid (pid : String) : List ArtifactHandle :=
  tables.handles.filter fun handle => decide (handle.pid = pid) && !handle.closed

def countOpenHandles (pid : String) : ℕ := (tables.listOpenHandlesForPid pid).length

def getTransaction (transactionId : String) : Option WriteTransaction :=
  lookup WriteTransaction.transactionId tables.transactions transactionId

def findTransactionByIdempotency (artifactId pid idempotencyKey : String) : Option WriteTransaction :=
  tables.transactions.find? fun txn =>
    decide (txn.artifactId = artifactId ∧ txn.pid = pid ∧ txn.idempotencyKey = idempotencyKey)

def getNamespace (namespaceId : String) : Option ArtifactNamespace :=
  lookup ArtifactNamespace.namespaceId tables.namespaces namespaceId

/-- `ORDER BY mount_point` -/
def listMounts (namespaceId : String) : List NamespaceMount :=
  (tables.mounts.filter fun mount => decide (mount.namespaceId = namespaceId)).insertionSort
    fun a b => a.mountPoint ≤ b.mountPoint

/-- A new record under a URI that is taken violates the unique column. -/
def upsertArtifact (record : ArtifactRecord) : Except FsError ArtifactTables :=
  if tables.getArtifact record.artifactId = none ∧
      record.canonicalUri ∈ tables.artifacts.map ArtifactRecord.canonicalUri then
    .error (.integrityError "artifacts_projection.canonical_uri")
  else
    .ok { tables with
      artifacts := upsertWith ArtifactRecord.artifactId (fun old new =>
        { old with currentVersion := new.currentVersion, deleted := new.deleted }) record tables.artifacts }

/-- `INSERT OR IGNORE` -/
def insertVersion (row : ArtifactVersion) : ArtifactTables :=
  { tables with versions := upsertWith ArtifactVersion.place (fun old _ => old) row tables.versions }

def upsertHandle (handle : ArtifactHandle) : ArtifactTables :=
  { tables with
    handles := upsertWith ArtifactHandle.handleId (fun old new => { old with closed := new.closed })
      handle tables.handles }

def upsertTransaction (txn : WriteTransaction) : ArtifactTables :=
  { tables with
    transactions := upsertWith WriteTransaction.transactionId (fun old new =>
      { old with
        stagedContentRef := new.stagedContentRef
        stagedContentHash := new.stagedContentHash
        stagedSizeBytes := new.stagedSizeBytes
        state := new.state }) txn tables.transactions }

def upsertNamespace (ns : ArtifactNamespace) : ArtifactTables :=
  { tables with
    namespaces := upsertWith ArtifactNamespace.namespaceId (fun old new =>
      { old with quotaBytes := new.quotaBytes, maxOpenHandles := new.maxOpenHandles }) ns
      tables.namespaces }

/-- `ON CONFLICT DO NOTHING` -/
def upsertMount (mount : NamespaceMount) : ArtifactTables :=
  { tables with mounts := upsertWith NamespaceMount.mountId (fun old _ => old) mount tables.mounts }

def removeMount (mountId : String) : ArtifactTables :=
  { tables with mounts := tables.mounts.filter fun mount => decide (mount.mountId ≠ mountId) }

def upsertWatch (watch : ArtifactWatch) : ArtifactTables :=
  { tables with
    watches := upsertWith ArtifactWatch.watchId (fun old new => { old with active := new.active })
      watch tables.watches }

def deactivateWatch (watchId : String) : ArtifactTables :=
  let silence := fun watch : ArtifactWatch => { watch with active := false }
  { tables with watches := modify ArtifactWatch.watchId watchId silence tables.watches }

/-- `INSERT OR IGNORE` -/
def insertIdempotency (row : IdempotencyRow) : ArtifactTables :=
  { tables with idempotency := upsertWith IdempotencyRow.place (fun old _ => old) row tables.idempotency }

/-! ### Writing what was read -/

variable {tables}

/-- A record that is there under its id is replaced. -/
theorem upsertArtifact_found (version : Int) (deleted : Bool)
    (stored : tables.getArtifact found.artifactId = some found) :
    tables.upsertArtifact { found with currentVersion := version, deleted } =
      .ok { tables with
        artifacts := upsert ArtifactRecord.artifactId
          { found with currentVersion := version, deleted } tables.artifacts } := by
  have here : lookup ArtifactRecord.artifactId tables.artifacts found.artifactId = some found := stored
  simp [upsertArtifact, upsertWith, stored, here]

/-- A record that is there is marked as deleted in place. -/
theorem upsertArtifact_deleted
    (distinct : (tables.artifacts.map ArtifactRecord.artifactId).Nodup) (member : found ∈ tables.artifacts) :
    tables.upsertArtifact { found with deleted := true } = .ok { tables with
      artifacts := modify ArtifactRecord.artifactId found.artifactId
        (fun record => { record with deleted := true }) tables.artifacts } := by
  have here : ({ found with deleted := true } : ArtifactRecord).artifactId ∈
      tables.artifacts.map ArtifactRecord.artifactId := List.mem_map.mpr ⟨found, member, rfl⟩
  have stored : ¬ tables.getArtifact ({ found with deleted := true } : ArtifactRecord).artifactId = none :=
    fun missing => lookup_eq_none.mp missing here
  unfold upsertArtifact
  rw [if_neg fun taken => stored taken.1, upsertWith_stored distinct (fun _ same => same) here]
  have same : ∀ record ∈ tables.artifacts, (if record.artifactId = found.artifactId then
      { record with currentVersion := found.currentVersion, deleted := true } else record) =
      if record.artifactId = found.artifactId then { record with deleted := true } else record := by
    intro record listed
    split
    · rename_i named
      rw [List.inj_on_of_nodup_map distinct listed member named]
    · rfl
  exact congrArg (fun artifacts => Except.ok { tables with artifacts }) (List.map_congr_left same)

/-- A record with a new id and a new URI goes to the end. -/
theorem upsertArtifact_new (fresh : record.artifactId ∉ tables.artifacts.map ArtifactRecord.artifactId)
    (ran : tables.upsertArtifact record = .ok tables') :
    record.canonicalUri ∉ tables.artifacts.map ArtifactRecord.canonicalUri ∧
      tables' = { tables with artifacts := tables.artifacts ++ [record] } := by
  have missing : lookup ArtifactRecord.artifactId tables.artifacts record.artifactId = none :=
    lookup_eq_none.mpr fresh
  rw [upsertArtifact] at ran
  split at ran
  · cases ran
  rename_i free
  cases ran
  refine ⟨fun taken => free ⟨missing, taken⟩, ?_⟩
  simp [upsertWith, missing]

theorem upsertTransaction_found {found written}
    (stored : tables.getTransaction found.transactionId = some found) (same : written = { found with
      stagedContentRef := written.stagedContentRef
      stagedContentHash := written.stagedContentHash
      stagedSizeBytes := written.stagedSizeBytes
      state := written.state }) :
    tables.upsertTransaction written =
      { tables with transactions := upsert WriteTransaction.transactionId written tables.transactions } := by
  have key : written.transactionId = found.transactionId := by rw [same]
  have here : lookup WriteTransaction.transactionId tables.transactions written.transactionId = some found :=
    key ▸ stored
  rw [upsertTransaction, upsertWith, here]
  change { tables with transactions := upsert _ _ _ } = _
  rw [← same]

theorem upsertTransaction_new (fresh : txn.transactionId ∉ tables.transactions.map WriteTransaction.transactionId) :
    tables.upsertTransaction txn = { tables with transactions := tables.transactions ++ [txn] } := by
  simp [upsertTransaction, upsertWith, lookup_eq_none.mpr fresh]

theorem insertVersion_new (free : tables.getVersion row.artifactId row.version = none) :
    tables.insertVersion row = { tables with versions := tables.versions ++ [row] } := by
  have missing : lookup ArtifactVersion.place tables.versions row.place = none := free
  simp [insertVersion, upsertWith, missing]

theorem upsertHandle_new (fresh : handle.handleId ∉ tables.handles.map ArtifactHandle.handleId) :
    tables.upsertHandle handle = { tables with handles := tables.handles ++ [handle] } := by
  rw [upsertHandle, upsertWith_new fresh]

/-- Of a handle that is there only the closing is written. -/
theorem upsertHandle_found (distinct : (tables.handles.map ArtifactHandle.handleId).Nodup)
    (stored : handle.handleId ∈ tables.handles.map ArtifactHandle.handleId) :
    tables.upsertHandle handle = { tables with
      handles := modify ArtifactHandle.handleId handle.handleId
        (fun old => { old with closed := handle.closed }) tables.handles } := by
  rw [upsertHandle, upsertWith_stored distinct (fun _ same => same) stored]

end ArtifactTables

/-! ## The storage driver -/

/-- Contents, with SHA-256, which is taken to be free of collisions. -/
structure Digest (γ : Type) where
  hash : γ → String
  size : γ → ℕ
  injective : Function.Injective hash

/-- The files under the two directories of the driver. -/
structure Storage (γ : Type) where
  /-- By transaction. -/
  staging : List (String × γ) := []
  /-- By content hash. -/
  cas : List (String × γ) := []
  deriving DecidableEq

/-- `StorageCommitResult` -/
structure StorageCommitResult where
  contentRef : String
  committed : Bool

namespace Storage
variable {γ : Type} (digest : Digest γ) (storage : Storage γ)

def stage (transactionId : String) (content : γ) : Storage γ :=
  { storage with staging := upsert Prod.fst (transactionId, content) storage.staging }

def unlink (transactionId : String) : Storage γ :=
  { storage with staging := storage.staging.filter fun file => decide (file.1 ≠ transactionId) }

/-- A content that is already stored under its hash is not stored again. -/
def commit (transactionId : String) : StorageCommitResult × Storage γ :=
  match lookup Prod.fst storage.staging transactionId with
  | none => ({ contentRef := "", committed := false }, storage)
  | some (_, content) =>
    ({ contentRef := digest.hash content, committed := true },
      { storage.unlink transactionId with
        cas := upsertWith Prod.fst (fun old _ => old) (digest.hash content, content) storage.cas })

def read (contentRef : String) : Option γ := (lookup Prod.fst storage.cas contentRef).map Prod.snd

/-- The path of an empty reference is the directory itself. -/
def existsRef (contentRef : String) : Bool :=
  decide (contentRef = "" ∨ contentRef ∈ storage.cas.map Prod.fst)

/-- Staged files of unknown transactions are deleted. -/
def recover (known : List String) : Storage γ :=
  { storage with staging := storage.staging.filter fun file => decide (file.1 ∈ known) }

end Storage
end LongHorizonOS.ArtifactModels
