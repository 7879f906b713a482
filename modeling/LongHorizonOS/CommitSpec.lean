import LongHorizonOS.GraphStore

/-! What a commit that returned has checked and written. -/
namespace LongHorizonOS.CommitSpec
open KeyedRows GraphModels FailFast CommitGuards GraphStore List

section
variable {α κ : Type} [DecidableEq κ] (rows : Store → List α) (set : List α → Store → Store)
  (key : α → κ) (table : String)

/-- Inserting rows one after the other appends them all, if no key is taken twice. -/
theorem insertAll_ok (getSet : ∀ new store, rows (set new store) = new)
    (setSet : ∀ new old store, set new (set old store) = set new store)
    (setGet : ∀ store, set (rows store) store = store) {new} {store after done} :
    (new.forM fun row => insertInto rows set key table row) store = (.ok done, after) ↔
      (∀ row ∈ new, key row ∉ (rows store).map key) ∧ (new.map key).Nodup ∧ after = set (rows store ++ new) store := by
  induction new generalizing store with
  | nil =>
    change (Except.ok (), store) = _ ↔ _
    simp [setGet, eq_comm]
  | cons first rest ih =>
    change (insertInto rows set key table first >>= fun _ =>
      rest.forM fun row => insertInto rows set key table row) store = _ ↔ _
    rw [Session.bind_ok]
    constructor
    · rintro ⟨_, middle, inserted, ran⟩
      obtain ⟨free, rfl⟩ := insertInto_ok.mp inserted
      obtain ⟨free', distinct, rfl⟩ := ih.mp ran
      simp only [getSet, setSet, map_append, mem_append, not_or] at free' ⊢
      refine ⟨?_, ?_, by simp⟩
      · intro row member
        rcases mem_cons.mp member with rfl | later
        · exact free
        exact (free' row later).1
      refine nodup_cons.mpr ⟨?_, distinct⟩
      intro taken
      obtain ⟨row, member, same⟩ := mem_map.mp taken
      exact (free' row member).2 (by simp [same])
    · rintro ⟨free, distinct, rfl⟩
      rw [map_cons, nodup_cons] at distinct
      refine ⟨(), _, insertInto_ok.mpr ⟨free first mem_cons_self, rfl⟩, ih.mpr ⟨?_, distinct.2, ?_⟩⟩
      · intro row member
        simp only [getSet, map_append, mem_append, not_or, map_cons, map_nil, mem_singleton]
        exact ⟨free row (mem_cons_of_mem _ member), fun same =>
          distinct.1 (same ▸ mem_map_of_mem member)⟩
      · simp [getSet, setSet]

end

/-- Appending revisions to the history of the nodes. -/
theorem insertNodeRevisions_ok {new} {store after : Store} {done} :
    (new.forM fun row => insertInto Store.nodeHistory (fun rows store => { store with nodeHistory := rows })
        NodeHistoryRow.key "graph_node_history" row) store = (.ok done, after) ↔
      (∀ row ∈ new, row.key ∉ store.nodeHistory.map NodeHistoryRow.key) ∧ (new.map NodeHistoryRow.key).Nodup ∧
        after = { store with nodeHistory := store.nodeHistory ++ new } :=
  insertAll_ok Store.nodeHistory (fun rows store => { store with nodeHistory := rows }) _ _
    (fun _ _ => rfl) (fun _ _ _ => rfl) (fun _ => rfl)

theorem insertEdgeRevisions_ok {new} {store after : Store} {done} :
    (new.forM fun row => insertInto Store.edgeHistory (fun rows store => { store with edgeHistory := rows })
        EdgeHistoryRow.key "graph_edge_history" row) store = (.ok done, after) ↔
      (∀ row ∈ new, row.key ∉ store.edgeHistory.map EdgeHistoryRow.key) ∧ (new.map EdgeHistoryRow.key).Nodup ∧
        after = { store with edgeHistory := store.edgeHistory ++ new } :=
  insertAll_ok Store.edgeHistory (fun rows store => { store with edgeHistory := rows }) _ _
    (fun _ _ => rfl) (fun _ _ _ => rfl) (fun _ => rfl)

/-! ## The written store -/

/-- The table of D3 results after the commit. -/
def D3Written (r : CommitRequest) (before after : List D3Row) : Prop :=
  match r.d3Record with
  | none => after = before
  | some record => ∃ row, d3Row r record = .ok row ∧ row.recordId ∉ before.map D3Row.recordId ∧
      after = before ++ [row]

/-- The projection hash that the commit records. -/
def commitHash (r : CommitRequest) (staged : List String) : ProjectionHash :=
  computeProjectionHash r.patch.graphId r.committedVersion (durableNodes r staged) r.projectionEdges

def advanced (r : CommitRequest) (graphs : List GraphRecord) : List GraphRecord :=
  KeyedRows.modify GraphRecord.graphId r.patch.graphId
    (fun record => { record with currentVersion := r.committedVersion }) graphs

/-- The store after the commit, table by table. -/
def written (r : CommitRequest) (store : Store) (parentNodes : List VPGNode)
    (parentEdges : List VPGEdge) (staged : List String) (d3Results : List D3Row) : Store :=
  { graphs := advanced r store.graphs
    versions := store.versions ++ [versionRow r (commitHash r staged)]
    patches := store.patches ++ [patchRow r]
    events := store.events ++ r.events
    nodes := (upsertProjection r store).nodes
    edges := (upsertProjection r store).edges
    snapshots := store.snapshots ++ [⟨r.patch.graphId, r.committedVersion, commitHash r staged⟩]
    nodeHistory := store.nodeHistory ++ nodeRevisions r parentNodes staged
    edgeHistory := store.edgeHistory ++ edgeRevisions r parentEdges
    retention := store.retention
    idempotency := store.idempotency ++ [idempotencyRow r]
    d3Results := d3Results }

section
variable {store after : Store} {hash : ProjectionHash}

theorem insertD3_ok : insertD3 r store = (.ok done, after) ↔
    ∃ rows, D3Written r store.d3Results rows ∧ after = { store with d3Results := rows } := by
  unfold insertD3 D3Written
  cases r.d3Record with
  | none =>
    change (Except.ok (), store) = _ ↔ _
    constructor
    · rintro ⟨⟩
      exact ⟨_, rfl, rfl⟩
    rintro ⟨_, rfl, rfl⟩
    rfl
  | some record =>
    simp only [Session.bind_ok, Session.check_ok, insertInto_ok, require_ok]
    constructor
    · rintro ⟨row, _, ⟨built, rfl⟩, _, _, ⟨free, rfl⟩, _, rfl⟩
      exact ⟨_, ⟨row, built, free, rfl⟩, rfl⟩
    rintro ⟨_, ⟨row, built, free, rfl⟩, rfl⟩
    exact ⟨row, store, ⟨built, rfl⟩, (), store, ⟨free, rfl⟩, free, rfl⟩

/-- What the rows read back must look like. -/
structure Materializes (r : CommitRequest) (staged : List String) (nodeRows : List NodeRow)
    (edgeRows : List VPGEdge) : Prop where
  distinctNodes : (nodeRows.map NodeRow.nodeId).Nodup
  distinctEdges : (edgeRows.map VPGEdge.edgeId).Nodup
  nodes : ((nodeRows.filter fun row => decide (row.nodeId ∉ staged)).map NodeRow.payload).Perm
    (durableNodes r staged)
  edges : edgeRows.Perm r.projectionEdges

theorem checkMaterializes_ok (ran : checkMaterializes r staged store = .ok ()) :
    Materializes r staged (nodeRowsOf store r.patch.graphId) (edgeRowsOf store r.patch.graphId) := by
  obtain ⟨⟨nodeRows, edgeRows⟩, read, ran⟩ := bind_ok.mp ran
  obtain ⟨distinct, read⟩ := require_bind_ok.mp read
  cases read
  obtain ⟨_, _, _, _, hash⟩ := require_ok.mp ran
  simp only [computeProjectionHash, ProjectionHash.mk.injEq, true_and] at hash
  exact ⟨distinct.1, distinct.2, perm_of_sortByKey_eq hash.1, perm_of_sortByKey_eq hash.2⟩

theorem writeCommitRows_ok : writeCommitRows r hash store = (.ok done, after) ↔
    r.patch.compositeKey ∉ store.idempotency.map IdempotencyRow.key ∧
      r.patchId ∉ store.patches.map PatchRow.patchId ∧ checkCurrent r store = .ok () ∧
      (r.patch.graphId, r.committedVersion) ∉ store.versions.map VersionRow.key ∧
      ∃ rows, D3Written r store.d3Results rows ∧ after = { store with
          idempotency := store.idempotency ++ [idempotencyRow r]
          patches := store.patches ++ [patchRow r]
          graphs := advanced r store.graphs
          versions := store.versions ++ [versionRow r hash]
          d3Results := rows
          events := store.events ++ r.events } := by
  simp only [writeCommitRows, advanceGraph, Session.bind_ok, insertInto_ok, Session.check_ok,
    Session.write_ok, insertD3_ok]
  constructor
  · rintro ⟨_, _, ⟨key, rfl⟩, _, _, ⟨patch, rfl⟩, _, _, ⟨_, _, ⟨current, rfl⟩, rfl⟩, _, _, ⟨version, rfl⟩,
      _, _, ⟨rows, d3, rfl⟩, rfl⟩
    exact ⟨key, patch, current, version, rows, d3, rfl⟩
  rintro ⟨key, patch, current, version, rows, d3, rfl⟩
  exact ⟨(), _, ⟨key, rfl⟩, (), _, ⟨patch, rfl⟩, (), _, ⟨(), _, ⟨current, rfl⟩, rfl⟩, (), _,
    ⟨version, rfl⟩, (), _, ⟨rows, d3, rfl⟩, rfl⟩

theorem writeHistory_ok : writeHistory r hash parentNodes parentEdges staged store = (.ok done, after) ↔
      (r.patch.graphId, r.committedVersion) ∉ store.snapshots.map SnapshotRow.key ∧
        ((∀ row ∈ nodeRevisions r parentNodes staged, row.key ∉ store.nodeHistory.map NodeHistoryRow.key) ∧
          ((nodeRevisions r parentNodes staged).map NodeHistoryRow.key).Nodup) ∧
        ((∀ row ∈ edgeRevisions r parentEdges, row.key ∉ store.edgeHistory.map EdgeHistoryRow.key) ∧
          ((edgeRevisions r parentEdges).map EdgeHistoryRow.key).Nodup) ∧ after = { store with
            snapshots := store.snapshots ++ [⟨r.patch.graphId, r.committedVersion, hash⟩]
            nodeHistory := store.nodeHistory ++ nodeRevisions r parentNodes staged
            edgeHistory := store.edgeHistory ++ edgeRevisions r parentEdges } := by
  simp only [writeHistory, Session.bind_ok, insertInto_ok, insertNodeRevisions_ok, insertEdgeRevisions_ok]
  constructor
  · rintro ⟨_, _, ⟨snapshot, rfl⟩, _, _, ⟨free, distinct, rfl⟩, free', distinct', rfl⟩
    exact ⟨snapshot, ⟨free, distinct⟩, ⟨free', distinct'⟩, rfl⟩
  rintro ⟨snapshot, ⟨free, distinct⟩, ⟨free', distinct'⟩, rfl⟩
  exact ⟨(), _, ⟨snapshot, rfl⟩, (), _, ⟨free, distinct, rfl⟩, free', distinct', rfl⟩

/-! ## What the checks say -/

/-- A well-formed request. -/
structure Arguments (r : CommitRequest) : Prop where
  patchId : r.patchId = r.patch.patchId
  version : r.committedVersion = r.patch.expectedGraphVersion + 1
  nodesToUpsert : ∀ entry ∈ r.nodesToUpsert, entry.1 = entry.2.nodeId ∧ entry.2.graphId = r.patch.graphId
  edgesToUpsert : ∀ edge ∈ r.edgesToUpsert, edge.graphId = r.patch.graphId
  events : ∀ event ∈ r.events, event.graphId = r.patch.graphId
  distinctNodes : (r.projectionNodes.map VPGNode.nodeId).Nodup
  distinctEdges : (r.projectionEdges.map VPGEdge.edgeId).Nodup
  nodes : ∀ node ∈ r.projectionNodes, node.graphId = r.patch.graphId
  edges : ∀ edge ∈ r.projectionEdges, edge.graphId = r.patch.graphId
  endpoints : ∀ edge ∈ r.projectionEdges, edge.sourceNodeId ∈ r.projectionNodes.map VPGNode.nodeId ∧
    edge.targetNodeId ∈ r.projectionNodes.map VPGNode.nodeId

theorem checkArguments_ok : checkArguments r = .ok () ↔ Arguments r := by
  simp only [checkArguments, require_bind_ok, require_ok]
  constructor
  · rintro ⟨patchId, version, nodesUp, edgesUp, events, nodeIds, edgeIds, nodes, edges, endpoints⟩
    exact ⟨patchId, version, nodesUp, edgesUp, events, nodeIds, edgeIds, nodes, edges, endpoints⟩
  intro a
  exact ⟨a.patchId, a.version, a.nodesToUpsert, a.edgesToUpsert, a.events, a.distinctNodes,
    a.distinctEdges, a.nodes, a.edges, a.endpoints⟩

theorem checkCurrent_ok : checkCurrent r store = .ok () ↔ ∃ record,
    getRecord store r.patch.graphId = some record ∧ record.closed = false ∧
      record.currentVersion = r.committedVersion - 1 := by
  simp only [checkCurrent, bind_ok, demand_ok, require_ok]
  constructor
  · rintro ⟨record, found, _, isOpen, version⟩
    exact ⟨record, found, isOpen, version⟩
  rintro ⟨record, found, isOpen, version⟩
  exact ⟨record, found, (), isOpen, version⟩

theorem checkFutureHistory_ok : checkFutureHistory r store = .ok () ↔
    (∀ row ∈ store.nodeHistory, row.graphId = r.patch.graphId → row.version < r.committedVersion) ∧
      ∀ row ∈ store.edgeHistory, row.graphId = r.patch.graphId → row.version < r.committedVersion := by
  have none_iff : ∀ {α : Type} (graph : α → String) (version : α → Int) (rows : List α),
      (rows.find? fun row => decide (graph row = r.patch.graphId ∧ r.committedVersion ≤ version row)) = none ↔
        ∀ row ∈ rows, graph row = r.patch.graphId → version row < r.committedVersion := by
    intro α graph version rows
    simp [find?_eq_none]
  rw [← none_iff NodeHistoryRow.graphId NodeHistoryRow.version,
    ← none_iff EdgeHistoryRow.graphId EdgeHistoryRow.version]
  unfold checkFutureHistory
  dsimp only
  cases store.nodeHistory.find? fun row =>
      decide (row.graphId = r.patch.graphId ∧ r.committedVersion ≤ row.version) with
  | some row => simp [bind, Except.bind, throw, throwThe, MonadExceptOf.throw]
  | none =>
    cases store.edgeHistory.find? fun row =>
        decide (row.graphId = r.patch.graphId ∧ r.committedVersion ≤ row.version) with
    | some row => simp [throw, throwThe, MonadExceptOf.throw]
    | none => simp [pure, Except.pure]

/-- The delta leads from the parent to the durable candidate. -/
structure Delta (r : CommitRequest) (parentNodes : List VPGNode) (parentEdges : List VPGEdge)
    (attached staged : List String) : Prop where
  unstaged : ∀ entry ∈ r.nodesToUpsert, entry.1 ∉ staged
  endpoints : ∀ edge ∈ r.projectionEdges, edge.sourceNodeId ∈ (durableNodes r staged).map VPGNode.nodeId ∧
      edge.targetNodeId ∈ (durableNodes r staged).map VPGNode.nodeId
  nodesToUpsert : ∀ entry ∈ r.nodesToUpsert,
    lookup VPGNode.nodeId (durableNodes r staged) entry.1 = some entry.2
  edgesToUpsert : ∀ edge ∈ r.edgesToUpsert, lookup VPGEdge.edgeId r.projectionEdges edge.edgeId = some edge
  nodesKept : ∀ node ∈ parentNodes, node.nodeId ∈ r.projectionNodes.map VPGNode.nodeId
  edgesKept : ∀ edge ∈ parentEdges, edge.edgeId ∈ r.projectionEdges.map VPGEdge.edgeId
  nodesSupplied : ∀ node ∈ durableNodes r staged, node.nodeId ∈ parentNodes.map VPGNode.nodeId ∨
    node.nodeId ∈ r.nodesToUpsert.map Prod.fst ∨ node.nodeId ∈ attached
  edgesSupplied : ∀ edge ∈ r.projectionEdges, edge.edgeId ∈ parentEdges.map VPGEdge.edgeId ∨
    edge.edgeId ∈ r.edgesToUpsert.map VPGEdge.edgeId

theorem checkDelta_ok : checkDelta r parentNodes parentEdges attached staged = .ok () ↔
    Delta r parentNodes parentEdges attached staged := by
  simp only [checkDelta, bind_ok, require_ok, forM_ok]
  constructor
  · rintro ⟨_, unstaged, _, endpoints, _, nodesUp, _, edgesUp, _, ⟨nodesKept, edgesKept⟩, _, nodes, edges⟩
    exact ⟨unstaged, endpoints, nodesUp, edgesUp, nodesKept, edgesKept, nodes, edges⟩
  intro t
  exact ⟨(), t.unstaged, (), t.endpoints, (), t.nodesToUpsert, (), t.edgesToUpsert, (),
    ⟨t.nodesKept, t.edgesKept⟩, (), t.nodesSupplied, t.edgesSupplied⟩

/-- Everything that held when the commit went through. -/
structure CommitTrace (r : CommitRequest) (authority : Authority) (store : Store)
    (parentNodes : List VPGNode) (parentEdges : List VPGEdge) (attached staged : List String)
    (d3Results : List D3Row) : Prop where
  arguments : checkArguments r = .ok ()
  guards : validateGuards authority r.commitGuard r.readGuards = .ok ()
  current : checkCurrent r store = .ok ()
  parent : loadProjectionSnapshot store r.patch.graphId (r.committedVersion - 1) =
    .ok (parentNodes, parentEdges)
  future : checkFutureHistory r store = .ok ()
  rows : getMaterializedProjectionRows r store =
    .ok (nodeRowsOf store r.patch.graphId, edgeRowsOf store r.patch.graphId)
  materialized : checkMaterialized r parentNodes parentEdges (nodeRowsOf store r.patch.graphId)
    (edgeRowsOf store r.patch.graphId) = .ok (attached, staged)
  delta : checkDelta r parentNodes parentEdges attached staged = .ok ()
  newKey : r.patch.compositeKey ∉ store.idempotency.map IdempotencyRow.key
  newPatch : r.patchId ∉ store.patches.map PatchRow.patchId
  newVersion : (r.patch.graphId, r.committedVersion) ∉ store.versions.map VersionRow.key
  d3 : D3Written r store.d3Results d3Results
  materializes : checkMaterializes r staged (upsertProjection r store) = .ok ()
  newSnapshot : (r.patch.graphId, r.committedVersion) ∉ store.snapshots.map SnapshotRow.key
  nodeRevisions : (∀ row ∈ nodeRevisions r parentNodes staged,
      row.key ∉ store.nodeHistory.map NodeHistoryRow.key) ∧
    ((nodeRevisions r parentNodes staged).map NodeHistoryRow.key).Nodup
  edgeRevisions : (∀ row ∈ edgeRevisions r parentEdges, row.key ∉ store.edgeHistory.map EdgeHistoryRow.key) ∧
    ((edgeRevisions r parentEdges).map EdgeHistoryRow.key).Nodup

theorem getMaterializedProjectionRows_ok (read : getMaterializedProjectionRows r store = .ok (nodeRows, edgeRows)) :
    nodeRows = nodeRowsOf store r.patch.graphId ∧ edgeRows = edgeRowsOf store r.patch.graphId := by
  obtain ⟨_, read⟩ := require_bind_ok.mp read
  cases read
  exact ⟨rfl, rfl⟩

theorem checkMaterializes_tables (nodes : other.nodes = store.nodes) (edges : other.edges = store.edges) :
    checkMaterializes r staged other = checkMaterializes r staged store := by
  unfold checkMaterializes getMaterializedProjectionRows nodeRowsOf edgeRowsOf
  rw [nodes, edges]

/-- A commit returns exactly if every check passes, and then it has written
these rows. -/
theorem commitPatch_ok : commitPatch r authority store = (.ok (), after) ↔
    ∃ parentNodes parentEdges attached staged d3Results,
    CommitTrace r authority store parentNodes parentEdges attached staged d3Results ∧
        after = written r store parentNodes parentEdges staged d3Results := by
  simp only [commitPatch, Session.check_bind_ok, Session.transaction_ok]
  constructor
  · rintro ⟨_, arguments, _, guards, _, current, ⟨parentNodes, parentEdges⟩, parent, _, future,
      ⟨nodeRows, edgeRows⟩, rows, ⟨attached, staged⟩, materialized, _, delta, ran⟩
    obtain ⟨rfl, rfl⟩ := getMaterializedProjectionRows_ok rows
    obtain ⟨_, _, recorded, ran⟩ := Session.bind_ok.mp ran
    obtain ⟨key, patch, _, version, d3Results, d3, rfl⟩ := writeCommitRows_ok.mp recorded
    obtain ⟨_, materializes, ran⟩ := Session.check_bind_ok.mp (Session.write_bind_ok.mp ran)
    obtain ⟨snapshot, nodes, edges, rfl⟩ := writeHistory_ok.mp ran
    exact ⟨parentNodes, parentEdges, attached, staged, d3Results,
      ⟨arguments, guards, current, parent, future, rows, materialized, delta, key, patch, version, d3,
        (checkMaterializes_tables rfl rfl).symm.trans materializes, snapshot, nodes, edges⟩, rfl⟩
  · rintro ⟨parentNodes, parentEdges, attached, staged, d3Results, t, rfl⟩
    refine ⟨(), t.arguments, (), t.guards, (), t.current, (parentNodes, parentEdges), t.parent, (),
      t.future, _, t.rows, (attached, staged), t.materialized, (), t.delta, ?_⟩
    refine Session.bind_ok.mpr ⟨(), _, writeCommitRows_ok.mpr ⟨t.newKey, t.newPatch, t.current,
      t.newVersion, d3Results, t.d3, rfl⟩, ?_⟩
    refine Session.write_bind_ok.mpr (Session.check_bind_ok.mpr ⟨(), ?_, ?_⟩)
    · exact (checkMaterializes_tables rfl rfl).trans t.materializes
    exact writeHistory_ok.mpr ⟨t.newSnapshot, t.nodeRevisions, t.edgeRevisions, rfl⟩

end
end LongHorizonOS.CommitSpec
