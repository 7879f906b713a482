import LongHorizonOS.CommitSpec
import LongHorizonOS.PatchSubmission
import LongHorizonOS.RevisionLog

/-! The invariant of the durable store. For every graph the projection tables,
the recorded hashes and the revision history say the same about its current
version, so the version can be recovered and no Evidence is ever staged. -/
namespace LongHorizonOS.StoreConsistency
open KeyedRows GraphModels FailFast CommitGuards GraphStore CommitSpec PatchSubmission
open Option hiding map map_map mem_map
open List hiding lookup
open RevisionLog

/-! ## The invariant -/

def nodeHistoryOf (store : Store) (graphId : String) : List NodeHistoryRow :=
  store.nodeHistory.filter fun row => decide (row.graphId = graphId)

def edgeHistoryOf (store : Store) (graphId : String) : List EdgeHistoryRow :=
  store.edgeHistory.filter fun row => decide (row.graphId = graphId)

/-- The hash recorded for a version. -/
def versionHash (store : Store) (graphId : String) (version : Int) : Option ProjectionHash :=
  (lookup VersionRow.key store.versions (graphId, version)).map VersionRow.projectionHash

def snapshotHash (store : Store) (graphId : String) (version : Int) : Option ProjectionHash :=
  (lookup SnapshotRow.key store.snapshots (graphId, version)).map SnapshotRow.projectionHash

/-- The revisions that make up a version. -/
def nodesAt (store : Store) (graphId : String) (version : Int) : List NodeHistoryRow :=
  latest NodeHistoryRow.nodeId NodeHistoryRow.version (nodeHistoryOf store graphId) version

def edgesAt (store : Store) (graphId : String) (version : Int) : List EdgeHistoryRow :=
  latest (fun row => row.edge.edgeId) EdgeHistoryRow.version (edgeHistoryOf store graphId) version

/-- The versions of the graph are kept from the floor on. -/
structure RetainedFrom (store : Store) (graphId : String) (floor : Int) : Prop where
  nonneg : 0 ≤ floor
  contract : ∃ hash, lookup RetentionRow.graphId store.retention graphId = some ⟨graphId, floor, hash⟩ ∧
    versionHash store graphId floor = some hash ∧ snapshotHash store graphId floor = some hash

/-- What the store knows about a graph at its current version. -/
structure Recoverable (store : Store) (graphId : String) (version : Int) : Prop where
  floor : ∃ floor ≤ version, RetainedFrom store graphId floor
  versionHash : versionHash store graphId version = some (computeProjectionHash graphId version
    (committedNodes store graphId) (committedEdges store graphId))
  snapshotHash : snapshotHash store graphId version = some (computeProjectionHash graphId version
    (committedNodes store graphId) (committedEdges store graphId))
  nodes : ∀ node, node ∈ committedNodes store graphId ↔
    ∃ row ∈ nodesAt store graphId version, row.payload = node
  edges : ∀ edge, edge ∈ committedEdges store graphId ↔ ∃ row ∈ edgesAt store graphId version, row.edge = edge
  endpoints : ∀ edge ∈ committedEdges store graphId,
    edge.sourceNodeId ∈ (committedNodes store graphId).map VPGNode.nodeId ∧
      edge.targetNodeId ∈ (committedNodes store graphId).map VPGNode.nodeId

theorem Recoverable.nonneg (recoverable : Recoverable store graphId version) : 0 ≤ version := by
  obtain ⟨floor, below, retained⟩ := recoverable.floor
  exact retained.nonneg.trans below

/-- The graph exists and has reached the version. -/
def Reached (store : Store) (graphId : String) (version : Int) : Prop :=
  ∃ record, getRecord store graphId = some record ∧ version ≤ record.currentVersion

def revision (version : Int) (node : VPGNode) : NodeHistoryRow :=
  ⟨node.graphId, version, node.nodeId, node.nodeType, node⟩

structure Consistent (store : Store) : Prop where
  graphs : (store.graphs.map GraphRecord.graphId).Nodup
  nodeKeys : (store.nodes.map NodeRow.key).Nodup
  edgeKeys : (store.edges.map edgeKey).Nodup
  nodeHistoryKeys : (store.nodeHistory.map NodeHistoryRow.key).Nodup
  edgeHistoryKeys : (store.edgeHistory.map EdgeHistoryRow.key).Nodup
  nodes : ∀ row ∈ store.nodes, row = nodeRow row.payload ∧ ∃ version, Reached store row.graphId version
  edges : ∀ edge ∈ store.edges, ∃ version, Reached store edge.graphId version
  versions : ∀ row ∈ store.versions, Reached store row.graphId row.version
  snapshots : ∀ row ∈ store.snapshots, Reached store row.graphId row.version
  nodeHistory : ∀ row ∈ store.nodeHistory, row = revision row.version row.payload ∧
    Reached store row.graphId row.version
  edgeHistory : ∀ row ∈ store.edgeHistory, row.graphId = row.edge.graphId ∧
    Reached store row.graphId row.version
  retention : ∀ row ∈ store.retention, ∃ version, Reached store row.graphId version
  graph : ∀ graphId record, getRecord store graphId = some record →
    Recoverable store graphId record.currentVersion

/-! ## Reading a consistent store -/

section
theorem mem_nodeRowsOf : row ∈ nodeRowsOf store graphId ↔ row ∈ store.nodes ∧ row.graphId = graphId := by
  simp [nodeRowsOf]

theorem mem_committedEdges : edge ∈ committedEdges store graphId ↔ edge ∈ store.edges ∧ edge.graphId = graphId := by
  simp [committedEdges, edgeRowsOf]

/-- The rows of a graph are the rows of its nodes. -/
theorem Consistent.nodeRowsOf_eq (sound : Consistent store) :
    nodeRowsOf store graphId = (committedNodes store graphId).map nodeRow := by
  rw [committedNodes, map_map]
  conv_lhs => rw [← map_id (nodeRowsOf store graphId)]
  apply map_congr_left
  intro row member
  exact (sound.nodes row (mem_nodeRowsOf.mp member).1).1

theorem Consistent.nodeIds (sound : Consistent store) : (nodeRowsOf store graphId).map NodeRow.nodeId =
    (committedNodes store graphId).map VPGNode.nodeId := by
  rw [sound.nodeRowsOf_eq, map_map]
  rfl

theorem Consistent.graphId_of_mem (sound : Consistent store)
    (member : node ∈ committedNodes store graphId) : node.graphId = graphId := by
  obtain ⟨row, stored, rfl⟩ := mem_map.mp member
  obtain ⟨inTable, here⟩ := mem_nodeRowsOf.mp stored
  rw [← here, (sound.nodes row inTable).1]
  rfl

/-- The primary key tells apart the nodes of one graph by their ids. -/
theorem nodeIds_distinct (keys : (store.nodes.map NodeRow.key).Nodup) (graphId) :
    ((nodeRowsOf store graphId).map NodeRow.nodeId).Nodup := nodup_snd keys graphId

theorem edgeIds_distinct (keys : (store.edges.map edgeKey).Nodup) (graphId) :
    ((committedEdges store graphId).map VPGEdge.edgeId).Nodup := nodup_snd keys graphId

/-- The node ids of one graph are distinct. -/
theorem Consistent.distinctNodes (sound : Consistent store) :
    ((committedNodes store graphId).map VPGNode.nodeId).Nodup := by
  rw [← sound.nodeIds]
  exact nodeIds_distinct sound.nodeKeys graphId

theorem Consistent.distinctEdges (sound : Consistent store) :
    ((committedEdges store graphId).map VPGEdge.edgeId).Nodup :=
  edgeIds_distinct sound.edgeKeys graphId

/-! ### Revisions -/

theorem mem_nodesAt (member : row ∈ nodesAt store graphId version) :
    row ∈ store.nodeHistory ∧ row.graphId = graphId := by
  simpa [nodeHistoryOf] using (mem_latest.mp member).1

theorem mem_edgesAt (member : row ∈ edgesAt store graphId version) :
    row ∈ store.edgeHistory ∧ row.graphId = graphId := by
  simpa [edgeHistoryOf] using (mem_latest.mp member).1

section
variable (sound : Consistent store)
include sound

/-- Revisions of one graph are told apart by version and entity. -/
theorem Consistent.nodeRevisions_distinct :
    ((nodeHistoryOf store graphId).map fun row => (row.version, row.nodeId)).Nodup :=
  nodup_snd sound.nodeHistoryKeys graphId

theorem Consistent.edgeRevisions_distinct :
    ((edgeHistoryOf store graphId).map fun row => (row.version, row.edge.edgeId)).Nodup :=
  nodup_snd sound.edgeHistoryKeys graphId

theorem Consistent.nodesAt_ids :
    (((nodesAt store graphId version).map NodeHistoryRow.payload).map VPGNode.nodeId).Nodup := by
  have ids : ((nodesAt store graphId version).map NodeHistoryRow.payload).map VPGNode.nodeId =
      (nodesAt store graphId version).map NodeHistoryRow.nodeId := by
    rw [map_map]
    apply map_congr_left
    intro row member
    rw [(sound.nodeHistory row (mem_nodesAt member).1).1]
    rfl
  rw [ids]
  exact latest_distinct sound.nodeRevisions_distinct

theorem Consistent.edgesAt_ids :
    (((edgesAt store graphId version).map EdgeHistoryRow.edge).map VPGEdge.edgeId).Nodup := by
  rw [map_map]
  exact latest_distinct sound.edgeRevisions_distinct

end

/-! ### Versions that the history holds -/

/-- What one version of a graph contains. -/
structure Projection where
  nodes : List VPGNode
  edges : List VPGEdge
  deriving DecidableEq

/-- The nodes and the edges ordered by their ids, as a snapshot returns them. -/
def Projection.sorted (content : Projection) : List VPGNode × List VPGEdge :=
  (content.nodes.insertionSort fun a b => a.nodeId ≤ b.nodeId,
    content.edges.insertionSort fun a b => a.edgeId ≤ b.edgeId)

/-- The current version. -/
def committed (store : Store) (graphId : String) : Projection :=
  ⟨committedNodes store graphId, committedEdges store graphId⟩

/-- The history has the version, with this content. -/
structure Held (store : Store) (graphId : String) (version : Int) (content : Projection) : Prop where
  versionHash : versionHash store graphId version =
    some (computeProjectionHash graphId version content.nodes content.edges)
  snapshotHash : snapshotHash store graphId version =
    some (computeProjectionHash graphId version content.nodes content.edges)
  nodes : ∀ node, node ∈ content.nodes ↔ ∃ row ∈ nodesAt store graphId version, row.payload = node
  edges : ∀ edge, edge ∈ content.edges ↔ ∃ row ∈ edgesAt store graphId version, row.edge = edge
  endpoints : ∀ edge ∈ content.edges, edge.sourceNodeId ∈ content.nodes.map VPGNode.nodeId ∧
    edge.targetNodeId ∈ content.nodes.map VPGNode.nodeId
  distinctNodes : (content.nodes.map VPGNode.nodeId).Nodup
  distinctEdges : (content.edges.map VPGEdge.edgeId).Nodup

theorem Recoverable.held (recoverable : Recoverable store graphId version)
    (sound : Consistent store) : Held store graphId version (committed store graphId) :=
  ⟨recoverable.versionHash, recoverable.snapshotHash, recoverable.nodes, recoverable.edges,
    recoverable.endpoints, sound.distinctNodes, sound.distinctEdges⟩

section
variable {content : Projection} (consistent : Consistent store)
  (held : Held store graphId version content)
include consistent held

/-- The latest revisions are the nodes of the version. -/
theorem nodesAt_perm : ((nodesAt store graphId version).map NodeHistoryRow.payload).Perm content.nodes := by
  rw [perm_ext_iff_of_nodup (List.Nodup.of_map _ consistent.nodesAt_ids) (List.Nodup.of_map _ held.distinctNodes)]
  intro node
  rw [held.nodes, mem_map]

theorem edgesAt_perm : ((edgesAt store graphId version).map EdgeHistoryRow.edge).Perm content.edges := by
  rw [perm_ext_iff_of_nodup (List.Nodup.of_map _ consistent.edgesAt_ids) (List.Nodup.of_map _ held.distinctEdges)]
  intro edge
  rw [held.edges, mem_map]

/-- Read in the order of their ids, they are the sorted content. -/
theorem latestNodeRevisions_eq :
    (latestNodeRevisions store graphId version).map NodeHistoryRow.payload = content.sorted.1 := by
  have sameIds : ∀ row ∈ nodesAt store graphId version, row.nodeId = row.payload.nodeId :=
    fun row member => congrArg NodeHistoryRow.nodeId (consistent.nodeHistory row (mem_nodesAt member).1).1
  change ((nodesAt store graphId version).insertionSort _).map _ = _
  rw [map_insertionSort (fun a b : NodeHistoryRow => a.nodeId ≤ b.nodeId)
    (fun a b : VPGNode => a.nodeId ≤ b.nodeId) NodeHistoryRow.payload _ fun a first b second => by
      rw [sameIds a first, sameIds b second]]
  exact sortByKey_perm held.distinctNodes (nodesAt_perm consistent held)

theorem latestEdgeRevisions_eq :
    (latestEdgeRevisions store graphId version).map EdgeHistoryRow.edge = content.sorted.2 := by
  change ((edgesAt store graphId version).insertionSort _).map _ = _
  rw [map_insertionSort (fun a b : EdgeHistoryRow => a.edge.edgeId ≤ b.edge.edgeId)
    (fun a b : VPGEdge => a.edgeId ≤ b.edgeId) EdgeHistoryRow.edge _ fun _ _ _ _ => Iff.rfl]
  exact sortByKey_perm held.distinctEdges (edgesAt_perm consistent held)

end

/-! ### Loading the current version -/

/-- Decoding well-formed revisions of distinct nodes collects their payloads. -/
theorem decode_all (rows : List NodeHistoryRow) (seen : List VPGNode)
    (formed : ∀ row ∈ rows, row = revision row.version row.payload ∧ row.graphId = graphId)
    (distinct : ((seen ++ rows.map NodeHistoryRow.payload).map VPGNode.nodeId).Nodup) :
    rows.foldlM (decodeNodeRevision graphId version) seen = .ok (seen ++ rows.map NodeHistoryRow.payload) := by
  induction rows generalizing seen with
  | nil => simp [pure, Except.pure]
  | cons row rest ih =>
    obtain ⟨shape, here⟩ := formed row mem_cons_self
    have fresh : row.payload.nodeId ∉ seen.map VPGNode.nodeId := by
      intro taken
      rw [map_append, nodup_append] at distinct
      exact distinct.2.2 _ taken _ (by simp) rfl
    have fields : row.payload.graphId = graphId ∧ row.payload.nodeId = row.nodeId ∧
        row.payload.nodeType = row.nodeType := by
      rw [shape] at here
      exact ⟨here, by rw [shape]; rfl, by rw [shape]; rfl⟩
    rw [foldlM_cons, bind_ok]
    refine ⟨seen ++ [row.payload], ?_, ?_⟩
    · exact require_bind_ok.mpr ⟨fields, require_bind_ok.mpr ⟨fresh, rfl⟩⟩
    rw [ih _ (fun other member => formed other (mem_cons_of_mem _ member)) (by simpa using distinct)]
    simp

variable {content : Projection}

theorem retentionContract_ok (found : getRecord store graphId = some record)
    (below : floor ≤ record.currentVersion) (retained : RetainedFrom store graphId floor) : ∃ hash,
    getHistoryRetentionContract store graphId = .ok ⟨graphId, floor, hash⟩ := by
  obtain ⟨hash, contract, versioned, snapshot⟩ := retained.contract
  refine ⟨hash, bind_ok.mpr ⟨record, demand_ok.mpr found, bind_ok.mpr ⟨_, demand_ok.mpr contract, ?_⟩⟩⟩
  exact require_bind_ok.mpr ⟨⟨retained.nonneg, below⟩, require_bind_ok.mpr ⟨⟨versioned, snapshot⟩, rfl⟩⟩

theorem Projection.sorted_perm (content : Projection) :
    content.sorted.1.Perm content.nodes ∧ content.sorted.2.Perm content.edges :=
  ⟨perm_insertionSort _ _, perm_insertionSort _ _⟩

/-- The sorted content does not depend on the order of the rows. -/
theorem Projection.sorted_eq {other : Projection} (nodesPerm : content.nodes.Perm other.nodes)
    (edgesPerm : content.edges.Perm other.edges) (distinctNodes : DistinctIds content.nodes)
    (distinctEdges : (content.edges.map VPGEdge.edgeId).Nodup) : content.sorted = other.sorted :=
  Prod.ext (sortByKey_perm distinctNodes nodesPerm.symm).symm (sortByKey_perm distinctEdges edgesPerm.symm).symm

/-- A version that the history holds can be loaded from the floor on. -/
theorem load_held (sound : Consistent store) (held : Held store graphId version content)
    (found : getRecord store graphId = some record) (below : floor ≤ record.currentVersion)
    (retained : RetainedFrom store graphId floor) (above : floor ≤ version) :
    loadProjectionSnapshot store graphId version = .ok content.sorted := by
  obtain ⟨hash, contract⟩ := retentionContract_ok found below retained
  obtain ⟨versionRow, versionFound, versionEq⟩ := map_eq_some_iff.mp held.versionHash
  obtain ⟨header, headerFound, headerEq⟩ := map_eq_some_iff.mp held.snapshotHash
  obtain ⟨nodesPerm, edgesPerm⟩ := content.sorted_perm
  have nodesEq := latestNodeRevisions_eq sound held
  have edgesEq := latestEdgeRevisions_eq sound held
  have stored : ∀ row ∈ latestNodeRevisions store graphId version, row ∈ nodesAt store graphId version :=
    fun row => (mem_insertionSort _).mp
  have decoded : (latestNodeRevisions store graphId version).foldlM (decodeNodeRevision graphId version) [] =
      .ok content.sorted.1 := by
    rw [← nodesEq]
    refine decode_all _ [] (fun row member => ?_) ?_
    · obtain ⟨inTable, here⟩ := mem_nodesAt (stored row member)
      exact ⟨(sound.nodeHistory row inTable).1, here⟩
    rw [nil_append, nodesEq]
    exact (nodesPerm.map VPGNode.nodeId).nodup_iff.mpr held.distinctNodes
  refine bind_ok.mpr ⟨_, contract, require_bind_ok.mpr ⟨above, bind_ok.mpr ⟨versionRow,
    demand_ok.mpr versionFound, bind_ok.mpr ⟨header, demand_ok.mpr headerFound, bind_ok.mpr ⟨_, decoded,
      require_bind_ok.mpr ⟨?_, require_bind_ok.mpr ⟨?_, require_bind_ok.mpr ⟨?_,
        require_bind_ok.mpr ⟨⟨?_, ?_⟩, by rw [edgesEq]; rfl⟩⟩⟩⟩⟩⟩⟩⟩⟩
  · intro edge member
    obtain ⟨row, listed, rfl⟩ := mem_map.mp member
    obtain ⟨inTable, here⟩ := mem_edgesAt ((mem_insertionSort _).mp listed)
    rw [← here, (sound.edgeHistory row inTable).1]
  · rw [edgesEq]
    exact (edgesPerm.map VPGEdge.edgeId).nodup_iff.mpr held.distinctEdges
  · intro edge member
    rw [edgesEq] at member
    rw [(nodesPerm.map VPGNode.nodeId).mem_iff, (nodesPerm.map VPGNode.nodeId).mem_iff]
    exact held.endpoints edge (edgesPerm.mem_iff.mp member)
  · rw [headerEq, versionEq]
  · rw [headerEq, edgesEq, computeProjectionHash, computeProjectionHash,
      sortByKey_perm held.distinctNodes nodesPerm, sortByKey_perm held.distinctEdges edgesPerm]

/-- The current version of a graph can be loaded, and it is what the tables hold. -/
theorem load_current (sound : Consistent store) (found : getRecord store graphId = some record) : ∃ nodes edges,
    loadProjectionSnapshot store graphId record.currentVersion = .ok (nodes, edges) ∧
      nodes.Perm (committedNodes store graphId) ∧ edges.Perm (committedEdges store graphId) := by
  have recoverable := sound.graph graphId record found
  obtain ⟨floor, below, retained⟩ := recoverable.floor
  obtain ⟨nodesPerm, edgesPerm⟩ := (committed store graphId).sorted_perm
  exact ⟨_, _, load_held sound (recoverable.held sound) found below retained below, nodesPerm, edgesPerm⟩

end

/-! ## What recovery of one graph depends on -/

/-- The stores have the same rows of a graph. -/
structure SameGraph (store after : Store) (graphId : String) : Prop where
  nodes : nodeRowsOf after graphId = nodeRowsOf store graphId
  edges : edgeRowsOf after graphId = edgeRowsOf store graphId
  versions : ∀ version, versionHash after graphId version = versionHash store graphId version
  snapshots : ∀ version, snapshotHash after graphId version = snapshotHash store graphId version
  nodeHistory : nodeHistoryOf after graphId = nodeHistoryOf store graphId
  edgeHistory : edgeHistoryOf after graphId = edgeHistoryOf store graphId
  retention : lookup RetentionRow.graphId after.retention graphId =
    lookup RetentionRow.graphId store.retention graphId

theorem SameGraph.committedNodes {store after} {graphId} (same : SameGraph store after graphId) :
    committedNodes after graphId = committedNodes store graphId := by
  rw [PatchSubmission.committedNodes, PatchSubmission.committedNodes, same.nodes]

section
variable {store after : Store} {version floor : Int} (same : SameGraph store after graphId)

theorem RetainedFrom.unique (first : RetainedFrom store graphId floor)
    (second : RetainedFrom store graphId floor') : floor = floor' := by
  obtain ⟨_, found, _⟩ := first.contract
  obtain ⟨_, found', _⟩ := second.contract
  rw [found, some.injEq, RetentionRow.mk.injEq] at found'
  exact found'.2.1

include same

theorem RetainedFrom.frame (retained : RetainedFrom store graphId floor) : RetainedFrom after graphId floor := by
  refine ⟨retained.nonneg, ?_⟩
  simp only [same.retention, same.versions, same.snapshots]
  exact retained.contract

theorem Held.frame (held : Held store graphId version content) : Held after graphId version content := by
  refine ⟨(same.versions version).trans held.versionHash, (same.snapshots version).trans held.snapshotHash,
    ?_, ?_, held.endpoints, held.distinctNodes, held.distinctEdges⟩
  · rw [nodesAt, same.nodeHistory]
    exact held.nodes
  rw [edgesAt, same.edgeHistory]
  exact held.edges

theorem Recoverable.frame (recoverable : Recoverable store graphId version) : Recoverable after graphId version := by
  have nodes := same.committedNodes
  have edges : committedEdges after graphId = committedEdges store graphId := same.edges
  refine ⟨recoverable.floor.imp fun _ => And.imp_right (RetainedFrom.frame same), ?_, ?_, ?_, ?_, ?_⟩
  · rw [same.versions, nodes, edges]
    exact recoverable.versionHash
  · rw [same.snapshots, nodes, edges]
    exact recoverable.snapshotHash
  · rw [nodes, nodesAt, same.nodeHistory]
    exact recoverable.nodes
  · rw [edges, edgesAt, same.edgeHistory]
    exact recoverable.edges
  rw [nodes, edges]
  exact recoverable.endpoints

end

/-! ## Committing on a consistent store -/

section
variable {store after : Store}

/-- On a consistent store nothing is staged: every cached row belongs to the parent. -/
theorem checkMaterialized_clean (sound : Consistent store)
    (nodes : parentNodes.Perm (committedNodes store r.patch.graphId))
    (edges : parentEdges.Perm (committedEdges store r.patch.graphId)) :
    checkMaterialized r parentNodes parentEdges (nodeRowsOf store r.patch.graphId)
    (edgeRowsOf store r.patch.graphId) = .ok ([], []) := by
  have distinct : (parentEdges.map VPGEdge.edgeId).Nodup :=
    (edges.map VPGEdge.edgeId).nodup_iff.mpr sound.distinctEdges
  have noExtraNodes : (nodeRowsOf store r.patch.graphId).filter (fun row =>
      decide (row.nodeId ∉ parentNodes.map VPGNode.nodeId)) = [] := by
    rw [filter_eq_nil_iff]
    intro row member
    simp only [decide_eq_true_eq, not_not]
    rw [(nodes.map VPGNode.nodeId).mem_iff, ← sound.nodeIds]
    exact mem_map_of_mem member
  have noExtraEdges : (edgeRowsOf store r.patch.graphId).filter (fun row =>
      decide (row.edgeId ∉ parentEdges.map VPGEdge.edgeId)) = [] := by
    rw [filter_eq_nil_iff]
    intro row member
    simp only [decide_eq_true_eq, not_not]
    exact mem_map_of_mem (edges.mem_iff.mpr member)
  simp only [checkMaterialized, noExtraNodes, noExtraEdges]
  refine bind_ok.mpr ⟨(), forM_ok.mpr fun row member => require_ok.mpr ?_, bind_ok.mpr ⟨(),
    forM_ok.mpr fun parent member => require_ok.mpr ?_, bind_ok.mpr ⟨(),
    forM_ok.mpr fun parent member => require_ok.mpr ?_, rfl⟩⟩⟩
  · intro parent found
    exact some.inj ((lookup_of_mem distinct (edges.mem_iff.mpr member)).symm.trans found)
  · have inTable : parent ∈ committedNodes store r.patch.graphId := nodes.mem_iff.mp member
    refine ⟨nodeRow parent, ?_, rfl, sound.graphId_of_mem inTable, rfl, rfl⟩
    rw [sound.nodeRowsOf_eq]
    exact mem_map_of_mem inTable
  · exact mem_map_of_mem (edges.mem_iff.mp member)

theorem durableNodes_nil : durableNodes r [] = r.projectionNodes := by
  simp [durableNodes]

/-- What a commit that went through on a consistent store has done. -/
structure CleanCommit (r : CommitRequest) (authority : Authority) (store after : Store)
    (record : GraphRecord) (parentNodes : List VPGNode) (parentEdges : List VPGEdge)
    (d3Results : List D3Row) : Prop where
  found : getRecord store r.patch.graphId = some record
  isOpen : record.closed = false
  version : r.committedVersion = record.currentVersion + 1
  nodesPerm : parentNodes.Perm (committedNodes store r.patch.graphId)
  edgesPerm : parentEdges.Perm (committedEdges store r.patch.graphId)
  arguments : Arguments r
  trace : CommitTrace r authority store parentNodes parentEdges [] [] d3Results
  written : after = written r store parentNodes parentEdges [] d3Results

theorem commit_clean (sound : Consistent store) (committed : commitPatch r authority store = (.ok (), after)) :
    ∃ record parentNodes parentEdges d3Results,
    CleanCommit r authority store after record parentNodes parentEdges d3Results := by
  obtain ⟨parentNodes, parentEdges, attached, staged, d3Results, trace, rfl⟩ := commitPatch_ok.mp committed
  obtain ⟨record, found, isOpen, version⟩ := checkCurrent_ok.mp trace.current
  obtain ⟨nodes, edges, loaded, nodesPerm, edgesPerm⟩ := load_current sound found
  have parent := trace.parent
  rw [← version, loaded, Except.ok.injEq, Prod.mk.injEq] at parent
  obtain ⟨rfl, rfl⟩ := parent
  have clean := trace.materialized
  rw [checkMaterialized_clean sound nodesPerm edgesPerm, Except.ok.injEq, Prod.mk.injEq] at clean
  obtain ⟨rfl, rfl⟩ := clean
  exact ⟨record, nodes, edges, d3Results, found, isOpen, by omega, nodesPerm, edgesPerm,
    checkArguments_ok.mp trace.arguments, trace, rfl⟩

/-- The rows that the delta writes. -/
def upsertedRows (r : CommitRequest) : List NodeRow := r.nodesToUpsert.map fun entry => nodeRow entry.2

theorem upsertProjection_nodes :
    (upsertProjection r store).nodes = upsertAll NodeRow.key (upsertedRows r) store.nodes := by
  rw [upsertAll, upsertedRows, foldl_map]
  rfl

theorem upsertProjection_edges :
    (upsertProjection r store).edges = upsertAll edgeKey r.edgesToUpsert store.edges := rfl

/-- The revisions written under the new version are those of the changed nodes. -/
theorem mem_nodeRevisions : row ∈ nodeRevisions r parentNodes [] ↔
    ∃ node ∈ changed VPGNode.nodeId parentNodes r.projectionNodes,
    row = ⟨r.patch.graphId, r.committedVersion, node.nodeId, node.nodeType, node⟩ := by
  rw [nodeRevisions, durableNodes_nil, mem_map]
  simp only [mem_insertionSort, changed]
  exact exists_congr fun node => and_congr_right fun _ => eq_comm

theorem mem_edgeRevisions : row ∈ edgeRevisions r parentEdges ↔
    ∃ edge ∈ changed VPGEdge.edgeId parentEdges r.projectionEdges,
    row = ⟨r.patch.graphId, r.committedVersion, edge⟩ := by
  rw [edgeRevisions, mem_map]
  simp only [mem_insertionSort, changed]
  exact exists_congr fun edge => and_congr_right fun _ => eq_comm

section
variable (clean : CleanCommit r authority store after record parentNodes parentEdges d3Results)
include clean

theorem CleanCommit.materializes : Materializes r [] (nodeRowsOf after r.patch.graphId)
    (edgeRowsOf after r.patch.graphId) := by
  have materializes := checkMaterializes_ok clean.trace.materializes
  rw [clean.written]
  exact materializes

/-- The candidate is the new current version. -/
theorem CleanCommit.committedNodes : (committedNodes after r.patch.graphId).Perm r.projectionNodes := by
  have perm := clean.materializes.nodes
  simp only [not_mem_nil, not_false_eq_true, decide_true, durableNodes_nil] at perm
  rwa [filter_true] at perm

theorem CleanCommit.committedEdges : (committedEdges after r.patch.graphId).Perm r.projectionEdges :=
  clean.materializes.edges

theorem CleanCommit.getRecord (graphId) : getRecord after graphId =
    if graphId = r.patch.graphId then some { record with currentVersion := r.committedVersion }
    else getRecord store graphId := by
  have graphs : after.graphs = advanced r store.graphs := by
    rw [clean.written]
    rfl
  rw [GraphStore.getRecord, graphs, advanced, lookup_modify (by intros; rfl)]
  by_cases here : graphId = r.patch.graphId
  · rw [if_pos here, if_pos here, here, ← GraphStore.getRecord, clean.found]
    rfl
  · rw [if_neg here, if_neg here, GraphStore.getRecord]

theorem CleanCommit.reached {version} (was : Reached store graphId version) : Reached after graphId version := by
  obtain ⟨old, found, bound⟩ := was
  unfold Reached
  rw [clean.getRecord]
  by_cases here : graphId = r.patch.graphId
  · rw [if_pos here]
    rw [here, clean.found, some.injEq] at found
    subst found
    refine ⟨_, rfl, ?_⟩
    have next := clean.version
    change version ≤ r.committedVersion
    omega
  · rw [if_neg here]
    exact ⟨old, found, bound⟩

theorem CleanCommit.reached_new : Reached after r.patch.graphId r.committedVersion := by
  unfold Reached
  rw [clean.getRecord, if_pos rfl]
  exact ⟨_, rfl, le_refl _⟩

theorem CleanCommit.upsertedRows_shape (member : row ∈ upsertedRows r) :
    row = nodeRow row.payload ∧ row.graphId = r.patch.graphId := by
  obtain ⟨entry, listed, rfl⟩ := mem_map.mp member
  exact ⟨rfl, (clean.arguments.nodesToUpsert entry listed).2⟩

/-- The other graphs keep their rows. -/
theorem CleanCommit.sameGraph (other : graphId ≠ r.patch.graphId) : SameGraph store after graphId := by
  rw [clean.written]
  refine ⟨?_, ?_, fun version => ?_, fun version => ?_, ?_, ?_, rfl⟩
  · change (upsertProjection r store).nodes.filter _ = store.nodes.filter _
    rw [upsertProjection_nodes]
    refine filter_upsertAll fun row member candidate same => ?_
    have here := (clean.upsertedRows_shape member).2
    have sameGraph : candidate.graphId = row.graphId := congrArg Prod.fst same
    simp [sameGraph, here, other.symm]
  · change (upsertProjection r store).edges.filter _ = store.edges.filter _
    rw [upsertProjection_edges]
    refine filter_upsertAll fun edge member candidate same => ?_
    have here := clean.arguments.edgesToUpsert edge member
    have sameGraph : candidate.graphId = edge.graphId := congrArg Prod.fst same
    simp [sameGraph, here, other.symm]
  · exact (map_lookup_append_single _ clean.trace.newVersion _).trans
      (if_neg fun same => other (congrArg Prod.fst same))
  · exact (map_lookup_append_single _ clean.trace.newSnapshot _).trans
      (if_neg fun same => other (congrArg Prod.fst same))
  · exact filter_append_other (fun row member => by obtain ⟨_, _, rfl⟩ := mem_nodeRevisions.mp member; rfl) other
  · exact filter_append_other (fun row member => by obtain ⟨_, _, rfl⟩ := mem_edgeRevisions.mp member; rfl) other

theorem CleanCommit.later : record.currentVersion < r.committedVersion := by
  have next := clean.version
  omega

theorem CleanCommit.nodeHistory : nodeHistoryOf after r.patch.graphId =
    nodeHistoryOf store r.patch.graphId ++ nodeRevisions r parentNodes [] := by
  rw [nodeHistoryOf, clean.written]
  refine filter_append_here fun row member => ?_
  obtain ⟨_, _, rfl⟩ := mem_nodeRevisions.mp member
  rfl

theorem CleanCommit.edgeHistory : edgeHistoryOf after r.patch.graphId =
    edgeHistoryOf store r.patch.graphId ++ edgeRevisions r parentEdges := by
  rw [edgeHistoryOf, clean.written]
  refine filter_append_here fun row member => ?_
  obtain ⟨_, _, rfl⟩ := mem_edgeRevisions.mp member
  rfl

/-- The history has the candidate under the new version. -/
theorem CleanCommit.nodesAt_new (sound : Consistent store) (node) :
    (∃ row ∈ nodesAt after r.patch.graphId r.committedVersion, row.payload = node) ↔ node ∈ r.projectionNodes := by
  have recoverable := sound.graph _ _ clean.found
  have old : ∀ row ∈ nodeHistoryOf store r.patch.graphId, row.version ≤ record.currentVersion ∧
      row.nodeId = row.payload.nodeId := by
    intro row member
    rw [nodeHistoryOf, mem_filter, decide_eq_true_eq] at member
    obtain ⟨shape, _, found, bound⟩ := sound.nodeHistory row member.1
    rw [member.2, clean.found, some.injEq] at found
    exact ⟨found ▸ bound, congrArg NodeHistoryRow.nodeId shape⟩
  rw [nodesAt, clean.nodeHistory]
  exact mem_latest_revised VPGNode.nodeId NodeHistoryRow.payload clean.later (fun row member => (old row member).1)
    (fun row member => (old row member).2)
    (fun a => clean.nodesPerm.mem_iff.trans (recoverable.nodes a))
    ((clean.nodesPerm.map VPGNode.nodeId).nodup_iff.mpr sound.distinctNodes)
    clean.arguments.distinctNodes (checkDelta_ok.mp clean.trace.delta).nodesKept
    (fun row => mem_nodeRevisions) (fun a => ⟨rfl, rfl, rfl⟩) node

theorem CleanCommit.edgesAt_new (sound : Consistent store) (edge) :
    (∃ row ∈ edgesAt after r.patch.graphId r.committedVersion, row.edge = edge) ↔ edge ∈ r.projectionEdges := by
  have recoverable := sound.graph _ _ clean.found
  have old : ∀ row ∈ edgeHistoryOf store r.patch.graphId, row.version ≤ record.currentVersion := by
    intro row member
    rw [edgeHistoryOf, mem_filter, decide_eq_true_eq] at member
    obtain ⟨_, _, found, bound⟩ := sound.edgeHistory row member.1
    rw [member.2, clean.found, some.injEq] at found
    exact found ▸ bound
  rw [edgesAt, clean.edgeHistory]
  exact mem_latest_revised VPGEdge.edgeId EdgeHistoryRow.edge clean.later old (fun row _ => rfl)
    (fun a => clean.edgesPerm.mem_iff.trans (recoverable.edges a))
    ((clean.edgesPerm.map VPGEdge.edgeId).nodup_iff.mpr sound.distinctEdges)
    clean.arguments.distinctEdges (checkDelta_ok.mp clean.trace.delta).edgesKept
    (fun row => mem_edgeRevisions) (fun a => ⟨rfl, rfl, rfl⟩) edge

/-- The recorded hash is the hash of what the tables then hold. -/
theorem CleanCommit.hash : commitHash r [] = computeProjectionHash r.patch.graphId r.committedVersion
    (PatchSubmission.committedNodes after r.patch.graphId) (PatchSubmission.committedEdges after r.patch.graphId) := by
  rw [commitHash, durableNodes_nil, computeProjectionHash, computeProjectionHash,
    sortByKey_perm clean.arguments.distinctNodes clean.committedNodes,
    sortByKey_perm clean.arguments.distinctEdges clean.committedEdges]

theorem CleanCommit.versionHash (version) : StoreConsistency.versionHash after r.patch.graphId version =
    if version = r.committedVersion then some (commitHash r [])
    else StoreConsistency.versionHash store r.patch.graphId version := by
  rw [StoreConsistency.versionHash, clean.written]
  refine (map_lookup_append_single _ clean.trace.newVersion _).trans (if_congr ?_ rfl rfl)
  simp [versionRow, VersionRow.key]

theorem CleanCommit.snapshotHash (version) : StoreConsistency.snapshotHash after r.patch.graphId version =
    if version = r.committedVersion then some (commitHash r [])
    else StoreConsistency.snapshotHash store r.patch.graphId version := by
  rw [StoreConsistency.snapshotHash, clean.written]
  refine (map_lookup_append_single _ clean.trace.newSnapshot _).trans (if_congr ?_ rfl rfl)
  simp [SnapshotRow.key]

theorem CleanCommit.recoverable (sound : Consistent store) : Recoverable after r.patch.graphId r.committedVersion := by
  have before := sound.graph _ _ clean.found
  have later := clean.later
  obtain ⟨floor, below, retained⟩ := before.floor
  have first : floor ≠ r.committedVersion := by omega
  refine ⟨⟨floor, by omega, retained.nonneg, ?_⟩, ?_, ?_, fun node => ?_, fun edge => ?_, fun edge member => ?_⟩
  · have retention : after.retention = store.retention := by
      rw [clean.written]
      rfl
    simp only [retention, clean.versionHash, clean.snapshotHash, if_neg first]
    exact retained.contract
  · rw [clean.versionHash, if_pos rfl, clean.hash]
  · rw [clean.snapshotHash, if_pos rfl, clean.hash]
  · rw [clean.nodesAt_new sound, clean.committedNodes.mem_iff]
  · rw [clean.edgesAt_new sound, clean.committedEdges.mem_iff]
  · rw [(clean.committedNodes.map VPGNode.nodeId).mem_iff, (clean.committedNodes.map VPGNode.nodeId).mem_iff]
    exact clean.arguments.endpoints edge (clean.committedEdges.mem_iff.mp member)

/-- A commit keeps the store consistent. -/
theorem CleanCommit.consistent (sound : Consistent store) : Consistent after := by
  have reachedNow := clean.reached_new
  obtain rfl := clean.written
  refine
    { graphs := ?_
      nodeKeys := ?_
      edgeKeys := upsertAll_distinct sound.edgeKeys
      nodeHistoryKeys := ?_
      edgeHistoryKeys := ?_
      nodes := fun row member => ?_
      edges := fun edge member => ?_
      versions := forall_append_single (fun row stored => clean.reached (sound.versions row stored)) reachedNow
      snapshots := forall_append_single (fun row stored => clean.reached (sound.snapshots row stored)) reachedNow
      nodeHistory := fun row member => ?_
      edgeHistory := fun row member => ?_
      retention := fun row member => (sound.retention row member).imp fun _ => clean.reached
      graph := fun graphId found hit => ?_ }
  · have keys : (advanced r store.graphs).map GraphRecord.graphId = store.graphs.map GraphRecord.graphId :=
      map_key_modify (by intros; rfl)
    exact keys ▸ sound.graphs
  · exact upsertProjection_nodes ▸ upsertAll_distinct sound.nodeKeys
  · exact nodup_append_free sound.nodeHistoryKeys clean.trace.nodeRevisions
  · exact nodup_append_free sound.edgeHistoryKeys clean.trace.edgeRevisions
  · replace member : row ∈ upsertAll NodeRow.key (upsertedRows r) store.nodes := upsertProjection_nodes ▸ member
    rcases mem_upsertAll_or member with new | stored
    · obtain ⟨shape, here⟩ := clean.upsertedRows_shape new
      exact ⟨shape, _, here ▸ reachedNow⟩
    obtain ⟨shape, version, reached⟩ := sound.nodes row stored
    exact ⟨shape, version, clean.reached reached⟩
  · rcases mem_upsertAll_or member with new | stored
    · exact ⟨_, clean.arguments.edgesToUpsert edge new ▸ reachedNow⟩
    obtain ⟨version, reached⟩ := sound.edges edge stored
    exact ⟨version, clean.reached reached⟩
  · rcases mem_append.mp member with stored | new
    · obtain ⟨shape, reached⟩ := sound.nodeHistory row stored
      exact ⟨shape, clean.reached reached⟩
    obtain ⟨node, change, rfl⟩ := mem_nodeRevisions.mp new
    have here := clean.arguments.nodes node (mem_changed.mp change).1
    exact ⟨by rw [revision, here], reachedNow⟩
  · rcases mem_append.mp member with stored | new
    · obtain ⟨shape, reached⟩ := sound.edgeHistory row stored
      exact ⟨shape, clean.reached reached⟩
    obtain ⟨edge, change, rfl⟩ := mem_edgeRevisions.mp new
    exact ⟨(clean.arguments.edges edge (mem_changed.mp change).1).symm, reachedNow⟩
  rw [clean.getRecord] at hit
  by_cases here : graphId = r.patch.graphId
  · rw [if_pos here, some.injEq] at hit
    subst hit here
    exact clean.recoverable sound
  · rw [if_neg here] at hit
    exact (sound.graph graphId found hit).frame (clean.sameGraph here)

end
end

/-! ## The other requests -/

section
variable {store after : Store}

theorem empty_consistent : Consistent {} where
  graphs := by simp
  nodeKeys := by simp
  edgeKeys := by simp
  nodeHistoryKeys := by simp
  edgeHistoryKeys := by simp
  nodes := by simp
  edges := by simp
  versions := by simp
  snapshots := by simp
  nodeHistory := by simp
  edgeHistory := by simp
  retention := by simp
  graph := by simp [getRecord, lookup]

theorem close_getRecord : getRecord (closeGraph graphId store).2 other =
    if other = graphId then (getRecord store other).map fun record => { record with closed := true }
    else getRecord store other :=
  lookup_modify (by intros; rfl) other

/-- Closing a graph changes its record only, and not its version. -/
theorem close_consistent (sound : Consistent store) : Consistent (closeGraph graphId store).2 := by
  have reached : ∀ other version, Reached store other version →
      Reached (closeGraph graphId store).2 other version := by
    rintro other version ⟨record, found, bound⟩
    unfold Reached
    rw [close_getRecord, found]
    split
    · exact ⟨_, rfl, bound⟩
    exact ⟨_, rfl, bound⟩
  have sameGraph : ∀ other, SameGraph store (closeGraph graphId store).2 other :=
    fun other => ⟨rfl, rfl, fun _ => rfl, fun _ => rfl, rfl, rfl, rfl⟩
  refine
    { sound with
      graphs := ?_
      nodes := fun row member => (sound.nodes row member).imp_right fun ⟨version, was⟩ => ⟨version, reached _ _ was⟩
      edges := fun edge member => (sound.edges edge member).imp fun version => reached _ version
      versions := fun row member => reached _ _ (sound.versions row member)
      snapshots := fun row member => reached _ _ (sound.snapshots row member)
      nodeHistory := fun row member => (sound.nodeHistory row member).imp_right (reached _ _)
      edgeHistory := fun row member => (sound.edgeHistory row member).imp_right (reached _ _)
      retention := fun row member => (sound.retention row member).imp fun version => reached _ version
      graph := fun other record hit => ?_ }
  · have keys : (closeGraph graphId store).2.graphs.map GraphRecord.graphId =
        store.graphs.map GraphRecord.graphId := map_key_modify (by intros; rfl)
    exact keys ▸ sound.graphs
  rw [close_getRecord] at hit
  split at hit
  · obtain ⟨old, found, rfl⟩ := map_eq_some_iff.mp hit
    exact (sound.graph other old found).frame (sameGraph other)
  · exact (sound.graph other record hit).frame (sameGraph other)

/-- The store after a graph was created. -/
def created (record : GraphRecord) (store : Store) : Store :=
  let emptyHash := computeProjectionHash record.graphId 0 [] []
  { store with
    graphs := store.graphs ++ [record]
    versions := store.versions ++ [⟨record.graphId, 0, none, "init", emptyHash, record.ownerPid⟩]
    snapshots := store.snapshots ++ [⟨record.graphId, 0, emptyHash⟩]
    retention := store.retention ++ [⟨record.graphId, 0, emptyHash⟩] }

/-- No table has a row under the keys of the new graph. -/
structure Unused (record : GraphRecord) (store : Store) : Prop where
  graph : record.graphId ∉ store.graphs.map GraphRecord.graphId
  version : (record.graphId, 0) ∉ store.versions.map VersionRow.key
  snapshot : (record.graphId, 0) ∉ store.snapshots.map SnapshotRow.key
  retention : record.graphId ∉ store.retention.map RetentionRow.graphId

theorem createGraph_cases : (createGraph record store).2 = store ∨
    Unused record store ∧ (createGraph record store).2 = created record store := by
  have guarded : Session.AllOrNothing (createGraph record) :=
    (Session.check_readOnly _).bind fun _ => (Session.transaction_allOrNothing _).map _
  rcases result : createGraph record store with ⟨outcome, after⟩
  cases outcome with
  | error failure => exact Or.inl (guarded _ _ _ result)
  | ok value =>
    right
    simp only [createGraph, Session.check_bind_ok] at result
    obtain ⟨_, _, result⟩ := result
    obtain ⟨_, _, ran, returned⟩ := Session.bind_ok.mp result
    cases returned
    rw [Session.transaction_ok] at ran
    obtain ⟨_, _, graphs, ran⟩ := Session.bind_ok.mp ran
    obtain ⟨freshGraph, rfl⟩ := insertInto_ok.mp graphs
    obtain ⟨_, _, versions, ran⟩ := Session.bind_ok.mp ran
    obtain ⟨freshVersion, rfl⟩ := insertInto_ok.mp versions
    obtain ⟨_, _, snapshots, ran⟩ := Session.bind_ok.mp ran
    obtain ⟨freshSnapshot, rfl⟩ := insertInto_ok.mp snapshots
    obtain ⟨freshRetention, rfl⟩ := insertInto_ok.mp ran
    exact ⟨⟨freshGraph, freshVersion, freshSnapshot, freshRetention⟩, rfl⟩

/-- A graph without a record has no rows. -/
theorem no_rows (sound : Consistent store) (missing : getRecord store graphId = none) :
    committedNodes store graphId = [] ∧ committedEdges store graphId = [] ∧ nodeHistoryOf store graphId = [] ∧
      edgeHistoryOf store graphId = [] := by
  have unreached : ∀ {α : Type} {rows : List α} {graphOf : α → String},
      (∀ row ∈ rows, ∃ version, Reached store (graphOf row) version) →
        rows.filter (fun row => decide (graphOf row = graphId)) = [] := by
    intro α rows graphOf reached
    refine filter_eq_nil_iff.mpr fun row member same => ?_
    obtain ⟨_, _, found, _⟩ := reached row member
    rw [of_decide_eq_true same, missing] at found
    cases found
  refine ⟨map_eq_nil_iff.mpr (unreached fun row member => (sound.nodes row member).2),
    unreached sound.edges, unreached fun row member => ⟨_, (sound.nodeHistory row member).2⟩,
    unreached fun row member => ⟨_, (sound.edgeHistory row member).2⟩⟩

section
section
variable {graphId : String} (unused : Unused record store)
include unused

theorem Unused.missing : getRecord store record.graphId = none := lookup_eq_none.mpr unused.graph

theorem created_getRecord (graphId) : getRecord (created record store) graphId =
    if graphId = record.graphId then some record else getRecord store graphId :=
  lookup_append_single _ _ unused.graph graphId

/-- The graphs that were there keep their records. -/
theorem created_getRecord_old (found : getRecord store graphId = some old) :
    getRecord (created record store) graphId = some old := by
  rw [created_getRecord unused, if_neg, found]
  rintro rfl
  rw [unused.missing] at found
  cases found

theorem created_versionHash (graphId) (version) : versionHash (created record store) graphId version =
    if (graphId, version) = (record.graphId, 0) then some (computeProjectionHash record.graphId 0 [] [])
    else versionHash store graphId version := map_lookup_append_single _ unused.version _

theorem created_snapshotHash (graphId) (version) : snapshotHash (created record store) graphId version =
    if (graphId, version) = (record.graphId, 0) then some (computeProjectionHash record.graphId 0 [] [])
    else snapshotHash store graphId version := map_lookup_append_single _ unused.snapshot _

/-- The other graphs keep their rows. -/
theorem created_sameGraph (other : graphId ≠ record.graphId) : SameGraph store (created record store) graphId := by
  refine ⟨rfl, rfl, fun version => ?_, fun version => ?_, rfl, rfl, ?_⟩
  · rw [created_versionHash unused, if_neg fun same => other (congrArg Prod.fst same)]
  · rw [created_snapshotHash unused, if_neg fun same => other (congrArg Prod.fst same)]
  exact (lookup_append_single _ _ unused.retention _).trans (if_neg other)

theorem created_recoverable (sound : Consistent store) : Recoverable (created record store) record.graphId 0 := by
  obtain ⟨nodes, edges, nodeHistory, edgeHistory⟩ := no_rows sound unused.missing
  have nodes' : committedNodes (created record store) record.graphId = [] := nodes
  have edges' : committedEdges (created record store) record.graphId = [] := edges
  have nodeHistory' : nodeHistoryOf (created record store) record.graphId = [] := nodeHistory
  have edgeHistory' : edgeHistoryOf (created record store) record.graphId = [] := edgeHistory
  have versioned := created_versionHash unused record.graphId 0
  have snapshot := created_snapshotHash unused record.graphId 0
  rw [if_pos rfl] at versioned snapshot
  refine ⟨⟨0, le_refl 0, le_refl 0, _, ?_, versioned, snapshot⟩, ?_, ?_, ?_, ?_, ?_⟩
  · exact (lookup_append_single _ _ unused.retention _).trans (if_pos rfl)
  · rw [nodes', edges', versioned]
  · rw [nodes', edges', snapshot]
  · simp [nodes', nodesAt, nodeHistory', latest]
  · simp [edges', edgesAt, edgeHistory', latest]
  simp [edges']

theorem created_consistent (start : record.currentVersion = 0) (sound : Consistent store) :
    Consistent (created record store) := by
  have records := created_getRecord unused
  have reached : ∀ graphId version, Reached store graphId version →
      Reached (created record store) graphId version := by
    rintro graphId version ⟨old, found, bound⟩
    exact ⟨old, created_getRecord_old unused found, bound⟩
  have reachedNow : Reached (created record store) record.graphId 0 :=
    ⟨record, by rw [records, if_pos rfl], Int.le_of_eq start.symm⟩
  refine
    { sound with
      graphs := ?_
      nodes := fun row member => (sound.nodes row member).imp_right fun ⟨version, was⟩ => ⟨version, reached _ _ was⟩
      edges := fun edge member => (sound.edges edge member).imp fun version => reached _ version
      versions := forall_append_single (fun row stored => reached _ _ (sound.versions row stored)) reachedNow
      snapshots := forall_append_single (fun row stored => reached _ _ (sound.snapshots row stored)) reachedNow
      nodeHistory := fun row member => (sound.nodeHistory row member).imp_right (reached _ _)
      edgeHistory := fun row member => (sound.edgeHistory row member).imp_right (reached _ _)
      retention := forall_append_single
        (fun row stored => (sound.retention row stored).imp fun version => reached _ version) ⟨0, reachedNow⟩
      graph := fun graphId found hit => ?_ }
  · change ((store.graphs ++ [record]).map GraphRecord.graphId).Nodup
    rw [map_append]
    exact nodup_append_single sound.graphs unused.graph
  rw [records] at hit
  by_cases here : graphId = record.graphId
  · rw [if_pos here, some.injEq] at hit
    subst hit here
    rw [start]
    exact created_recoverable unused sound
  · rw [if_neg here] at hit
    exact (sound.graph graphId found hit).frame (created_sameGraph unused here)

end

theorem create_consistent (start : record.currentVersion = 0) (sound : Consistent store) :
    Consistent (createGraph record store).2 := by
  rcases createGraph_cases with same | ⟨unused, eq⟩
  · rw [same]
    exact sound
  rw [eq]
  exact created_consistent unused start sound

end
end
end LongHorizonOS.StoreConsistency
