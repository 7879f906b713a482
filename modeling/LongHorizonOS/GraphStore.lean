import LongHorizonOS.CommitGuards
import Mathlib.Data.Fintype.Defs
import Mathlib.Data.String.Basic

/-! The durable store: its tables, the reads, and the commit of one patch
inside one transaction. A row that the source stores as JSON is the value
itself, and the SHA-256 digest of a projection is the content it is computed
from. The in-memory cache of decoded parents changes no result and is left
out, as are generated event ids, which never collide. -/
namespace LongHorizonOS.GraphStore
open KeyedRows PythonValues GraphModels FailFast CommitGuards

/-! ## Tables -/

/-- `compute_projection_hash`, before hashing. -/
structure ProjectionHash where
  graphId : String
  version : Int
  nodes : List VPGNode
  edges : List VPGEdge
  deriving DecidableEq

structure VersionRow where
  graphId : String
  version : Int
  parentVersion : Option Int
  patchId : String
  projectionHash : ProjectionHash
  committedByPid : String
  deriving DecidableEq

structure PatchRow where
  patchId : String
  graphId : String
  committedVersion : Int
  authorPid : String
  idempotencyKey : String
  proposal : GraphPatchProposal
  deriving DecidableEq

structure NodeRow where
  nodeId : String
  graphId : String
  nodeType : NodeType
  payload : VPGNode
  deriving DecidableEq

structure SnapshotRow where
  graphId : String
  version : Int
  projectionHash : ProjectionHash
  deriving DecidableEq

structure NodeHistoryRow where
  graphId : String
  version : Int
  nodeId : String
  nodeType : NodeType
  payload : VPGNode
  deriving DecidableEq

structure EdgeHistoryRow where
  graphId : String
  version : Int
  edge : VPGEdge
  deriving DecidableEq

structure RetentionRow where
  graphId : String
  earliestRecoverableVersion : Int
  checkpointProjectionHash : ProjectionHash
  deriving DecidableEq

structure IdempotencyRow where
  authorPid : String
  graphId : String
  idempotencyKey : String
  patchId : String
  committedVersion : Int
  deriving DecidableEq

/-- The envelope of a D3 record, with the types its producers give the fields. -/
structure D3Record where
  recordId : Option String := none
  baseGraphVersion : Option Int := none
  resultHash : Option String := none
  graphId : Option String := none
  committedGraphVersion : Option Int := none
  payload : Dict := []
  deriving DecidableEq

structure D3Row where
  recordId : String
  graphId : String
  baseGraphVersion : Int
  committedGraphVersion : Int
  resultHash : String
  payload : Dict
  deriving DecidableEq

structure Store where
  graphs : List GraphRecord := []
  versions : List VersionRow := []
  patches : List PatchRow := []
  events : List GraphEvent := []
  nodes : List NodeRow := []
  edges : List VPGEdge := []
  snapshots : List SnapshotRow := []
  nodeHistory : List NodeHistoryRow := []
  edgeHistory : List EdgeHistoryRow := []
  retention : List RetentionRow := []
  idempotency : List IdempotencyRow := []
  d3Results : List D3Row := []
  deriving DecidableEq

/-! Primary keys. -/

def VersionRow.key (row : VersionRow) : String × Int := (row.graphId, row.version)
def NodeRow.key (row : NodeRow) : String × String := (row.graphId, row.nodeId)
def edgeKey (edge : VPGEdge) : String × String := (edge.graphId, edge.edgeId)
def SnapshotRow.key (row : SnapshotRow) : String × Int := (row.graphId, row.version)
def NodeHistoryRow.key (row : NodeHistoryRow) : String × Int × String :=
  (row.graphId, row.version, row.nodeId)
def EdgeHistoryRow.key (row : EdgeHistoryRow) : String × Int × String :=
  (row.graphId, row.version, row.edge.edgeId)
def IdempotencyRow.key (row : IdempotencyRow) : String × String × String :=
  (row.authorPid, row.graphId, row.idempotencyKey)

/-- `INSERT`, which fails when the primary key is taken. -/
def insertRow {α κ : Type} [DecidableEq κ] (key : α → κ) (table : String) (row : α)
    (rows : List α) : Except Failure (List α) := do
  require (key row ∉ rows.map key) (.integrity ("UNIQUE constraint failed: " ++ table))
  return rows ++ [row]

/-- `INSERT INTO` one of the tables. -/
def insertInto {α κ : Type} [DecidableEq κ] (rows : Store → List α) (set : List α → Store → Store)
    (key : α → κ) (table : String) (row : α) : Session Store Failure Unit := fun store =>
  match insertRow key table row (rows store) with
  | .ok rows => (.ok (), set rows store)
  | .error failure => (.error failure, store)

theorem insertInto_ok [DecidableEq κ] {rows set} {key : α → κ} {table} {row : α}
    {store after : Store} {done} : insertInto rows set key table row store = (.ok done, after) ↔
      key row ∉ (rows store).map key ∧ after = set (rows store ++ [row]) store := by
  unfold insertInto insertRow
  by_cases taken : key row ∈ (rows store).map key
  · simp [require, taken, bind, Except.bind]
  simp [require, taken, bind, Except.bind, pure, Except.pure, eq_comm]

/-! ## Reads -/

section
variable (store : Store) (graphId : String)

def getRecord : Option GraphRecord := lookup GraphRecord.graphId store.graphs graphId

def nodeRowsOf : List NodeRow := store.nodes.filter fun row => decide (row.graphId = graphId)

def edgeRowsOf : List VPGEdge := store.edges.filter fun edge => decide (edge.graphId = graphId)

/-- A `SELECT` without `ORDER BY` returns the rows in some order. -/
structure RowOrder where
  nodes : List NodeRow → List NodeRow
  nodes_perm : ∀ rows, (nodes rows).Perm rows
  edges : List VPGEdge → List VPGEdge
  edges_perm : ∀ rows, (edges rows).Perm rows

/-- The order in which the rows were stored. -/
def RowOrder.stored : RowOrder := ⟨id, fun _ => List.Perm.refl _, id, fun _ => List.Perm.refl _⟩

def getAllNodes (order : RowOrder) : Except Failure (List VPGNode) :=
  (order.nodes (nodeRowsOf store graphId)).mapM fun row => do
    require (row.payload.graphId = graphId ∧ row.payload.nodeId = row.nodeId)
      (.vpg .storageError ("node projection key/payload mismatch for (" ++ quoted graphId ++ ", " ++
        quoted row.nodeId ++ ")"))
    return row.payload

def getAllEdges (order : RowOrder) : Except Failure (List VPGEdge) :=
  let edges := order.edges (edgeRowsOf store graphId)
  do
    require (∀ edge ∈ edges, edge.graphId = graphId)
      (.vpg .storageError ("edge projection contains a foreign graph row for " ++ quoted graphId))
    return edges

/-- `compute_projection_hash` -/
def computeProjectionHash (version : Int) (nodes : List VPGNode) (edges : List VPGEdge) : ProjectionHash :=
  { graphId := graphId
    version := version
    nodes := nodes.insertionSort fun a b => a.nodeId ≤ b.nodeId
    edges := edges.insertionSort fun a b => a.edgeId ≤ b.edgeId }

def recoveryFailed (message : String) : Failure := .vpg .graphRecoveryFailed message

/-- `get_history_retention_contract` -/
def getHistoryRetentionContract : Except Failure RetentionRow := do
  let record ← demand (getRecord store graphId) (.vpg .graphNotFound graphId)
  let contract ← demand (lookup RetentionRow.graphId store.retention graphId)
    (recoveryFailed ("history retention metadata is missing for graph " ++ quoted graphId))
  let floor := contract.earliestRecoverableVersion
  require (0 ≤ floor ∧ floor ≤ record.currentVersion)
    (recoveryFailed ("history retention floor " ++ toString floor ++ " is outside graph " ++
      quoted graphId ++ " version range 0.." ++ toString record.currentVersion))
  require ((lookup VersionRow.key store.versions (graphId, floor)).map VersionRow.projectionHash =
        some contract.checkpointProjectionHash ∧
      (lookup SnapshotRow.key store.snapshots (graphId, floor)).map SnapshotRow.projectionHash =
        some contract.checkpointProjectionHash)
    (recoveryFailed ("history retention checkpoint is missing or inconsistent for graph " ++
      quoted graphId ++ " version " ++ toString floor))
  return contract

/-- Each entity's latest revision at or before a version, ordered by id. -/
def latestNodeRevisions (version : Int) : List NodeHistoryRow :=
  let rows := store.nodeHistory.filter fun row => decide (row.graphId = graphId)
  (rows.filter fun row => decide (row.version ≤ version ∧ ∀ other ∈ rows,
    other.nodeId = row.nodeId → other.version ≤ version → other.version ≤ row.version)).insertionSort
      fun a b => a.nodeId ≤ b.nodeId

def latestEdgeRevisions (version : Int) : List EdgeHistoryRow :=
  let rows := store.edgeHistory.filter fun row => decide (row.graphId = graphId)
  (rows.filter fun row => decide (row.version ≤ version ∧ ∀ other ∈ rows,
    other.edge.edgeId = row.edge.edgeId → other.version ≤ version →
      other.version ≤ row.version)).insertionSort fun a b => a.edge.edgeId ≤ b.edge.edgeId

/-- One row of the node loop in `load_projection_snapshot`. -/
def decodeNodeRevision (version : Int) (nodes : List VPGNode) (row : NodeHistoryRow) :
    Except Failure (List VPGNode) := do
  require (row.payload.graphId = graphId ∧ row.payload.nodeId = row.nodeId ∧
      row.payload.nodeType = row.nodeType)
    (recoveryFailed ("snapshot node key/type/payload mismatch for (" ++ quoted graphId ++ ", " ++
      toString version ++ ", " ++ quoted row.nodeId ++ ")"))
  require (row.payload.nodeId ∉ nodes.map VPGNode.nodeId)
    (recoveryFailed ("snapshot contains duplicate node id " ++ quoted row.payload.nodeId))
  return nodes ++ [row.payload]

/-- `load_projection_snapshot` -/
def loadProjectionSnapshot (version : Int) : Except Failure (List VPGNode × List VPGEdge) := do
  let contract ← getHistoryRetentionContract store graphId
  require (contract.earliestRecoverableVersion ≤ version)
    (.vpg .graphHistoryPruned ("graph " ++ quoted graphId ++ " version " ++ toString version ++
      " was pruned; earliest recoverable version is " ++
      toString contract.earliestRecoverableVersion))
  let versionRow ← demand (lookup VersionRow.key store.versions (graphId, version))
    (recoveryFailed ("graph version " ++ toString version ++ " is missing for graph " ++ quoted graphId))
  let header ← demand (lookup SnapshotRow.key store.snapshots (graphId, version))
    (recoveryFailed ("durable projection snapshot is missing for graph " ++ quoted graphId ++
      " version " ++ toString version))
  let nodes ← (latestNodeRevisions store graphId version).foldlM (decodeNodeRevision graphId version) []
  let edges := (latestEdgeRevisions store graphId version).map EdgeHistoryRow.edge
  require (∀ edge ∈ edges, edge.graphId = graphId) (recoveryFailed "snapshot edge contains a foreign graph id")
  require (edges.map VPGEdge.edgeId).Nodup (recoveryFailed "snapshot contains duplicate edge ids")
  require (∀ edge ∈ edges, edge.sourceNodeId ∈ nodes.map VPGNode.nodeId ∧
      edge.targetNodeId ∈ nodes.map VPGNode.nodeId)
    (recoveryFailed "snapshot edge references a missing node")
  require (header.projectionHash = versionRow.projectionHash ∧
      computeProjectionHash graphId version nodes edges = header.projectionHash)
    (recoveryFailed ("projection snapshot hash mismatch for graph " ++ quoted graphId ++
      " version " ++ toString version))
  return (nodes, edges)

def hasIdempotency (key : String × String × String) : Option (String × Int) :=
  (lookup IdempotencyRow.key store.idempotency key).map fun row => (row.patchId, row.committedVersion)

end

/-! ## Writes -/

/-- `idempotent_replay`: the guards are checked only when there is a row. -/
def idempotentReplay (authority : Authority) (key : String × String × String)
    (commitGuard : Option LeaseCommitGuard) (readGuards : Option (List ArtifactVersionBinding)) :
    Session Store Failure (Option (String × Int)) :=
  Session.transaction <| Session.check fun store =>
    match hasIdempotency store key with
    | none => .ok none
    | some found => do
      validateGuards authority commitGuard readGuards
      return some found

def createGraph (record : GraphRecord) : Session Store Failure GraphRecord := do
  Session.check fun store => require (getRecord store record.graphId = none)
    (Failure.vpg .graphAlreadyExists record.graphId)
  let emptyHash := computeProjectionHash record.graphId 0 [] []
  Session.transaction do
    insertInto Store.graphs (fun rows store => { store with graphs := rows })
      GraphRecord.graphId "graphs" record
    insertInto Store.versions (fun rows store => { store with versions := rows })
      VersionRow.key "graph_versions" ⟨record.graphId, 0, none, "init", emptyHash, record.ownerPid⟩
    insertInto Store.snapshots (fun rows store => { store with snapshots := rows })
      SnapshotRow.key "graph_projection_snapshots" ⟨record.graphId, 0, emptyHash⟩
    insertInto Store.retention (fun rows store => { store with retention := rows })
      RetentionRow.graphId "graph_history_retention" ⟨record.graphId, 0, emptyHash⟩
  return record

/-- `UPDATE graphs SET closed = 1`. -/
def closeGraph (graphId : String) : Session Store Failure Unit :=
  Session.write fun store =>
    let graphs := KeyedRows.modify GraphRecord.graphId graphId
      (fun record => { record with closed := true }) store.graphs
    { store with graphs := graphs }

/-! ## Committing a patch -/

/-- The arguments of `commit_patch`. -/
structure CommitRequest where
  patch : GraphPatchProposal
  patchId : String
  committedVersion : Int
  events : List GraphEvent
  nodesToUpsert : List (String × VPGNode)
  edgesToUpsert : List VPGEdge
  projectionNodes : List VPGNode
  projectionEdges : List VPGEdge
  commitGuard : Option LeaseCommitGuard := none
  d3Record : Option D3Record := none
  readGuards : Option (List ArtifactVersionBinding) := none

def rejected (message : String) : Failure := .vpg .patchRejected message

section
variable (r : CommitRequest)

/-- The checks on the arguments, before the transaction. -/
def checkArguments : Except Failure Unit := do
  let graphId := r.patch.graphId
  let nodeIds := r.projectionNodes.map VPGNode.nodeId
  require (r.patchId = r.patch.patchId) (rejected "commit patch id does not match the proposal payload")
  require (r.committedVersion = r.patch.expectedGraphVersion + 1)
    (rejected "committed version must be exactly one greater than the proposal's expected graph version")
  require (∀ entry ∈ r.nodesToUpsert, entry.1 = entry.2.nodeId ∧ entry.2.graphId = graphId)
    (rejected "node projection upsert contains a mismatched node id or graph id")
  require (∀ edge ∈ r.edgesToUpsert, edge.graphId = graphId)
    (rejected "edge projection upsert contains a foreign graph id")
  require (∀ event ∈ r.events, event.graphId = graphId)
    (rejected "graph event batch contains a foreign graph id")
  require nodeIds.Nodup (rejected "full node projection contains duplicate node ids")
  require (r.projectionEdges.map VPGEdge.edgeId).Nodup
    (rejected "full edge projection contains duplicate edge ids")
  require (∀ node ∈ r.projectionNodes, node.graphId = graphId)
    (rejected "full node projection contains a foreign graph id")
  require (∀ edge ∈ r.projectionEdges, edge.graphId = graphId)
    (rejected "full edge projection contains a foreign graph id")
  require (∀ edge ∈ r.projectionEdges, edge.sourceNodeId ∈ nodeIds ∧ edge.targetNodeId ∈ nodeIds)
    (rejected "full edge projection references a missing node")

def versionConflict (expected current : Int) : Failure :=
  .vpg .graphVersionConflict
    ("expected graph version " ++ toString expected ++ ", current is " ++ toString current)

/-- The graph exists, is open, and is at the version the patch was built on. -/
def checkCurrent (store : Store) : Except Failure Unit := do
  let record ← demand (getRecord store r.patch.graphId) (.vpg .graphNotFound r.patch.graphId)
  require (record.closed = false) (.vpg .graphClosed r.patch.graphId)
  require (record.currentVersion = r.committedVersion - 1)
    (versionConflict (r.committedVersion - 1) record.currentVersion)

/-- No history row lies at or after the version about to be written. -/
def checkFutureHistory (store : Store) : Except Failure Unit := do
  let report := fun (kind nodeId : String) (version : Int) =>
    recoveryFailed ("durable history contains a future " ++ kind ++ " revision " ++ quoted nodeId ++
      " at version " ++ toString version ++ "; repair history before committing")
  match store.nodeHistory.find? fun row =>
      decide (row.graphId = r.patch.graphId ∧ r.committedVersion ≤ row.version) with
  | some row => throw (report "node" row.nodeId row.version)
  | none => pure ()
  match store.edgeHistory.find? fun row =>
      decide (row.graphId = r.patch.graphId ∧ r.committedVersion ≤ row.version) with
  | some row => throw (report "edge" row.edge.edgeId row.version)
  | none => pure ()

/-- `_get_materialized_projection_rows` -/
def getMaterializedProjectionRows (store : Store) : Except Failure (List NodeRow × List VPGEdge) := do
  let nodes := nodeRowsOf store r.patch.graphId
  let edges := edgeRowsOf store r.patch.graphId
  require ((nodes.map NodeRow.nodeId).Nodup ∧ (edges.map VPGEdge.edgeId).Nodup)
    (recoveryFailed ("materialized projection contains duplicate ids for graph " ++ quoted r.patch.graphId))
  return (nodes, edges)

/-- Evidence ids that this patch attaches. -/
def attachedEvidenceIds : List String :=
  r.patch.operations.filterMap fun
    | .attachEvidence op => some op.evidenceNodeId
    | _ => none

private def cacheMismatch (kind nodeId : String) : Failure :=
  recoveryFailed ("materialized " ++ kind ++ " cache does not match its durable parent revision for " ++
    kind ++ " " ++ quoted nodeId ++ "; recover before committing another patch")

/-- A cached row that the durable parent does not have is tolerated only if it
is Evidence that the candidate contains unchanged. -/
def isStagedEvidence (row : NodeRow) : Bool :=
  match lookup VPGNode.nodeId r.projectionNodes row.nodeId with
  | some candidate => decide (row.payload.nodeType = .evidence ∧ candidate.nodeType = .evidence ∧
      row.payload = candidate)
  | none => false

/-- The cache agrees with the durable parent. The result is the ids of staged
Evidence: first the attached ones, then the ones that stay out of the commit. -/
def checkMaterialized (parentNodes : List VPGNode) (parentEdges : List VPGEdge)
    (nodeRows : List NodeRow) (edgeRows : List VPGEdge) : Except Failure (List String × List String) := do
  edgeRows.forM fun row => require (∀ parent ∈ lookup VPGEdge.edgeId parentEdges row.edgeId, row = parent)
    (cacheMismatch "edge" row.edgeId)
  parentNodes.forM fun parent => require
    (∃ row ∈ nodeRows, row.nodeId = parent.nodeId ∧ row.graphId = r.patch.graphId ∧
      row.nodeType = parent.nodeType ∧ row.payload = parent)
    (cacheMismatch "node" parent.nodeId)
  parentEdges.forM fun parent => require (parent.edgeId ∈ edgeRows.map VPGEdge.edgeId)
    (cacheMismatch "edge" parent.edgeId)
  let extra := nodeRows.filter fun row => decide (row.nodeId ∉ parentNodes.map VPGNode.nodeId)
  extra.forM fun row => require (isStagedEvidence r row)
    (recoveryFailed ("materialized node cache contains an entity absent from the durable parent: " ++
      quoted row.nodeId ++ "; only an EvidenceNode explicitly referenced by this patch's " ++
      "AttachEvidenceOp may enter through the legacy compatibility path"))
  (edgeRows.filter fun row => decide (row.edgeId ∉ parentEdges.map VPGEdge.edgeId)).forM fun row =>
    throw (recoveryFailed ("materialized edge cache contains an entity absent from the durable parent: " ++
      quoted row.edgeId ++ "; recover before committing"))
  let (attached, staged) := (extra.map NodeRow.nodeId).partition fun nodeId =>
    decide (nodeId ∈ attachedEvidenceIds r)
  return (attached, staged)

/-- The candidate without staged Evidence. -/
def durableNodes (staged : List String) : List VPGNode :=
  r.projectionNodes.filter fun node => decide (node.nodeId ∉ staged)

/-- The delta and the candidate say the same, and nothing durable disappears. -/
def checkDelta (parentNodes : List VPGNode) (parentEdges : List VPGEdge)
    (attached staged : List String) : Except Failure Unit := do
  let durable := durableNodes r staged
  let durableIds := durable.map VPGNode.nodeId
  let edgeIds := r.projectionEdges.map VPGEdge.edgeId
  r.nodesToUpsert.forM fun entry => require (entry.1 ∉ staged)
    (rejected ("a staged EvidenceNode may become durable only through this patch's " ++
      "AttachEvidenceOp: " ++ quoted entry.1))
  require (∀ edge ∈ r.projectionEdges, edge.sourceNodeId ∈ durableIds ∧ edge.targetNodeId ∈ durableIds)
    (rejected "candidate projection references a staged EvidenceNode without attaching it through the current patch")
  r.nodesToUpsert.forM fun entry => require (lookup VPGNode.nodeId durable entry.1 = some entry.2)
    (rejected ("node projection upsert does not match the supplied candidate projection for node " ++
      quoted entry.1))
  r.edgesToUpsert.forM fun edge => require (lookup VPGEdge.edgeId r.projectionEdges edge.edgeId = some edge)
    (rejected ("edge projection upsert does not match the supplied candidate projection for edge " ++
      quoted edge.edgeId))
  require ((∀ node ∈ parentNodes, node.nodeId ∈ r.projectionNodes.map VPGNode.nodeId) ∧
      ∀ edge ∈ parentEdges, edge.edgeId ∈ edgeIds)
    (rejected "candidate projection silently deletes durable entities; deletion requires an explicit tombstone protocol")
  durable.forM fun node => require (node.nodeId ∈ parentNodes.map VPGNode.nodeId ∨
      node.nodeId ∈ r.nodesToUpsert.map Prod.fst ∨ node.nodeId ∈ attached)
    (rejected ("candidate projection contains a new node not supplied by this patch's projection delta: " ++
      quoted node.nodeId))
  r.projectionEdges.forM fun edge => require (edge.edgeId ∈ parentEdges.map VPGEdge.edgeId ∨
      edge.edgeId ∈ r.edgesToUpsert.map VPGEdge.edgeId)
    (rejected ("candidate projection contains a new edge not supplied by this patch's projection delta: " ++
      quoted edge.edgeId))

/-- The D3 row for the envelope, or why there is none. -/
def d3Row (record : D3Record) : Except Failure D3Row := do
  let recordId := record.recordId.getD ""
  let resultHash := record.resultHash.getD ""
  require (record.graphId.getD r.patch.graphId = r.patch.graphId)
    (rejected "d3_record graph_id does not match the patch graph")
  require (record.baseGraphVersion = some r.patch.expectedGraphVersion)
    (rejected "d3_record base_graph_version must equal the patch expected_graph_version")
  require (record.committedGraphVersion.getD r.committedVersion = r.committedVersion)
    (rejected "d3_record committed_graph_version must equal the actual committed graph version")
  require (recordId ≠ "" ∧ resultHash ≠ "")
    (rejected "d3_record requires record_id, base_graph_version, and result_hash")
  require (r.patch.graphId ≠ "") (rejected "D3 result requires non-empty record_id and graph_id")
  require (0 ≤ r.patch.expectedGraphVersion ∧ 0 ≤ r.committedVersion)
    (rejected "D3 graph versions must be non-negative")
  return ⟨recordId, r.patch.graphId, r.patch.expectedGraphVersion, r.committedVersion, resultHash,
    record.payload⟩

def insertD3 : Session Store Failure Unit :=
  match r.d3Record with
  | none => pure ()
  | some record => do
    let row ← Session.check fun _ => d3Row r record
    Session.check fun store => require (row.recordId ∉ store.d3Results.map D3Row.recordId)
      (rejected ("D3 record_id already exists and is immutable: " ++ quoted row.recordId))
    insertInto Store.d3Results (fun rows store => { store with d3Results := rows })
      D3Row.recordId "d3_invalidation_results" row

/-- `UPDATE graphs ... WHERE current_version = ? AND closed = 0` must hit one row. -/
def advanceGraph : Session Store Failure Unit := do
  Session.check fun store => checkCurrent r store
  Session.write fun store =>
    let graphs := KeyedRows.modify GraphRecord.graphId r.patch.graphId
      (fun record => { record with currentVersion := r.committedVersion }) store.graphs
    { store with graphs := graphs }

/-- The projection row of a node. -/
def nodeRow (node : VPGNode) : NodeRow := ⟨node.nodeId, node.graphId, node.nodeType, node⟩

def upsertProjection (store : Store) : Store :=
  { store with
    nodes := r.nodesToUpsert.foldl (fun rows entry => upsert NodeRow.key (nodeRow entry.2) rows) store.nodes
    edges := r.edgesToUpsert.foldl (fun rows edge => upsert edgeKey edge rows) store.edges }

/-- The rows read back after the delta are exactly the durable candidate. -/
def checkMaterializes (staged : List String) (store : Store) : Except Failure Unit := do
  let (nodeRows, edgeRows) ← getMaterializedProjectionRows r store
  let durable := durableNodes r staged
  let kept := nodeRows.filter fun row => decide (row.nodeId ∉ staged)
  require ((∀ row ∈ kept, row.nodeId ∈ durable.map VPGNode.nodeId) ∧
      (∀ node ∈ durable, node.nodeId ∈ kept.map NodeRow.nodeId) ∧
      (∀ edge ∈ edgeRows, edge.edgeId ∈ r.projectionEdges.map VPGEdge.edgeId) ∧
      (∀ edge ∈ r.projectionEdges, edge.edgeId ∈ edgeRows.map VPGEdge.edgeId) ∧
      computeProjectionHash r.patch.graphId r.committedVersion (kept.map NodeRow.payload) edgeRows =
        computeProjectionHash r.patch.graphId r.committedVersion durable r.projectionEdges)
    (rejected "projection delta does not materialize the supplied full snapshot")

def nodeRevisions (parentNodes : List VPGNode) (staged : List String) : List NodeHistoryRow :=
  (((durableNodes r staged).filter fun node => decide
    (lookup VPGNode.nodeId parentNodes node.nodeId ≠ some node)).insertionSort
      fun a b => a.nodeId ≤ b.nodeId).map
    fun node => ⟨r.patch.graphId, r.committedVersion, node.nodeId, node.nodeType, node⟩

def edgeRevisions (parentEdges : List VPGEdge) : List EdgeHistoryRow :=
  ((r.projectionEdges.filter fun edge => decide
    (lookup VPGEdge.edgeId parentEdges edge.edgeId ≠ some edge)).insertionSort
      fun a b => a.edgeId ≤ b.edgeId).map
    fun edge => ⟨r.patch.graphId, r.committedVersion, edge⟩

/-- The rows that identify the commit. -/
def idempotencyRow : IdempotencyRow :=
  ⟨r.patch.authorPid, r.patch.graphId, r.patch.idempotencyKey, r.patchId, r.committedVersion⟩

def patchRow : PatchRow :=
  ⟨r.patchId, r.patch.graphId, r.committedVersion, r.patch.authorPid, r.patch.idempotencyKey, r.patch⟩

def versionRow (projectionHash : ProjectionHash) : VersionRow :=
  { graphId := r.patch.graphId
    version := r.committedVersion
    parentVersion := if 0 < r.committedVersion then some (r.committedVersion - 1) else none
    patchId := r.patchId
    projectionHash := projectionHash
    committedByPid := r.patch.authorPid }

/-- Idempotency, patch, graph version, D3 envelope, events. -/
def writeCommitRows (projectionHash : ProjectionHash) : Session Store Failure Unit := do
  insertInto Store.idempotency (fun rows store => { store with idempotency := rows })
    IdempotencyRow.key "graph_idempotency" (idempotencyRow r)
  insertInto Store.patches (fun rows store => { store with patches := rows })
    PatchRow.patchId "graph_patches" (patchRow r)
  advanceGraph r
  insertInto Store.versions (fun rows store => { store with versions := rows })
    VersionRow.key "graph_versions" (versionRow r projectionHash)
  insertD3 r
  Session.write fun store => { store with events := store.events ++ r.events }

/-- The snapshot header and the revisions of what changed. -/
def writeHistory (projectionHash : ProjectionHash) (parentNodes : List VPGNode)
    (parentEdges : List VPGEdge) (staged : List String) : Session Store Failure Unit := do
  insertInto Store.snapshots (fun rows store => { store with snapshots := rows })
    SnapshotRow.key "graph_projection_snapshots" ⟨r.patch.graphId, r.committedVersion, projectionHash⟩
  (nodeRevisions r parentNodes staged).forM fun row =>
    insertInto Store.nodeHistory (fun rows store => { store with nodeHistory := rows })
      NodeHistoryRow.key "graph_node_history" row
  (edgeRevisions r parentEdges).forM fun row =>
    insertInto Store.edgeHistory (fun rows store => { store with edgeHistory := rows })
      EdgeHistoryRow.key "graph_edge_history" row

def commitPatch (authority : Authority) : Session Store Failure Unit := do
  Session.check fun _ => checkArguments r
  Session.transaction do
    Session.check fun _ => validateGuards authority r.commitGuard r.readGuards
    Session.check (checkCurrent r)
    let (parentNodes, parentEdges) ← Session.check fun store =>
      loadProjectionSnapshot store r.patch.graphId (r.committedVersion - 1)
    Session.check (checkFutureHistory r)
    let (nodeRows, edgeRows) ← Session.check (getMaterializedProjectionRows r)
    let (attached, staged) ← Session.check fun _ =>
      checkMaterialized r parentNodes parentEdges nodeRows edgeRows
    Session.check fun _ => checkDelta r parentNodes parentEdges attached staged
    let projectionHash := computeProjectionHash r.patch.graphId r.committedVersion
      (durableNodes r staged) r.projectionEdges
    writeCommitRows r projectionHash
    Session.write (upsertProjection r)
    Session.check (checkMaterializes r staged)
    writeHistory r projectionHash parentNodes parentEdges staged

end
end LongHorizonOS.GraphStore
