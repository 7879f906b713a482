import LongHorizonOS.StoreConsistency

/-! `compact_projection_history`: the revisions below a new floor are deleted
and a complete checkpoint is written at the floor. The compaction loads every
version it keeps before and after the change. The audit row that records who
compacted and why is read by nothing here and is left out. -/
namespace LongHorizonOS.HistoryCompaction
open KeyedRows PythonValues GraphModels FailFast GraphStore CommitSpec StoreConsistency List
open RevisionLog

/-! ## The transaction -/

structure HistoryCompactionResult where
  graphId : String
  previousEarliestVersion : Int
  earliestRecoverableVersion : Int
  currentVersion : Int
  checkpointProjectionHash : ProjectionHash
  deletedSnapshotHeaders : Nat
  deletedNodeRevisions : Nat
  deletedEdgeRevisions : Nat
  deriving DecidableEq

/-- `range(start, stop)` -/
def versionRange (start stop : Int) : List Int :=
  (List.range (stop - start).toNat).map fun offset : Nat => start + (offset : Int)

section
variable (graphId : String) (retainFromVersion : Int)

/-- Load every version from the floor on. -/
def loadRetained (currentVersion : Int) (store : Store) : Except Failure Unit :=
  (versionRange retainFromVersion (currentVersion + 1)).forM fun version => do
    let _ ← loadProjectionSnapshot store graphId version

/-- `_reject_future_history` -/
def rejectFutureHistory (currentVersion : Int) (store : Store) : Except Failure Unit :=
  let snapshots := store.snapshots.filter fun row =>
    decide (row.graphId = graphId ∧ currentVersion < row.version)
  let nodes := store.nodeHistory.filter fun row =>
    decide (row.graphId = graphId ∧ currentVersion < row.version)
  let edges := store.edgeHistory.filter fun row =>
    decide (row.graphId = graphId ∧ currentVersion < row.version)
  let future := snapshots.map (fun row => ("snapshot", row.version)) ++
    nodes.map (fun row => ("node", row.version)) ++ edges.map fun row => ("edge", row.version)
  match future.head? with
  | some (kind, version) => .error (recoveryFailed ("graph " ++ quoted graphId ++ " contains future " ++
      kind ++ " history at version " ++ toString version))
  | none => .ok ()

/-- What a compaction reads before it changes anything. -/
structure Checkpoint where
  previousFloor : Int
  currentVersion : Int
  nodes : List VPGNode
  edges : List VPGEdge
  hash : ProjectionHash

def readCheckpoint (store : Store) : Except Failure Checkpoint := do
  let record ← demand (getRecord store graphId) (.vpg .graphNotFound graphId)
  let contract ← getHistoryRetentionContract store graphId
  let previousFloor := contract.earliestRecoverableVersion
  require (previousFloor ≤ retainFromVersion)
    (.value ("cannot lower history floor from " ++ toString previousFloor ++ " to " ++
      toString retainFromVersion ++ "; pruned history cannot be recovered"))
  require (retainFromVersion ≤ record.currentVersion)
    (.value ("retain_from_version " ++ toString retainFromVersion ++ " exceeds current graph version " ++
      toString record.currentVersion))
  let (nodes, edges) ← loadProjectionSnapshot store graphId retainFromVersion
  let checkpointVersion ← demand (lookup VersionRow.key store.versions (graphId, retainFromVersion))
    (recoveryFailed ("checkpoint GraphVersion " ++ toString retainFromVersion ++ " is missing"))
  loadRetained graphId retainFromVersion record.currentVersion store
  rejectFutureHistory graphId record.currentVersion store
  return ⟨previousFloor, record.currentVersion, nodes, edges, checkpointVersion.projectionHash⟩

/-- How many headers, node revisions and edge revisions lie below the floor. -/
def countPruned (store : Store) : Nat × Nat × Nat :=
  (store.snapshots.countP fun row => decide (row.graphId = graphId ∧ row.version < retainFromVersion),
    store.nodeHistory.countP fun row => decide (row.graphId = graphId ∧ row.version < retainFromVersion),
    store.edgeHistory.countP fun row => decide (row.graphId = graphId ∧ row.version < retainFromVersion))

/-- Delete the headers below the floor, and the revisions below and at the floor. -/
def pruneHistory (store : Store) : Store :=
  { store with
    snapshots := store.snapshots.filter fun row =>
      decide ¬(row.graphId = graphId ∧ row.version < retainFromVersion)
    nodeHistory := store.nodeHistory.filter fun row =>
      decide ¬(row.graphId = graphId ∧ row.version ≤ retainFromVersion)
    edgeHistory := store.edgeHistory.filter fun row =>
      decide ¬(row.graphId = graphId ∧ row.version ≤ retainFromVersion) }

def checkpointNodes (nodes : List VPGNode) : List NodeHistoryRow :=
  (nodes.insertionSort fun a b => a.nodeId ≤ b.nodeId).map fun node =>
    ⟨graphId, retainFromVersion, node.nodeId, node.nodeType, node⟩

def checkpointEdges (edges : List VPGEdge) : List EdgeHistoryRow :=
  (edges.insertionSort fun a b => a.edgeId ≤ b.edgeId).map fun edge => ⟨graphId, retainFromVersion, edge⟩

/-- `UPDATE graph_history_retention` -/
def setFloor (hash : ProjectionHash) (store : Store) : Store :=
  let retention := KeyedRows.modify RetentionRow.graphId graphId (fun row =>
    { row with earliestRecoverableVersion := retainFromVersion, checkpointProjectionHash := hash })
    store.retention
  { store with retention := retention }

/-- Replace the history up to the floor by the checkpoint. -/
def installCheckpoint (checkpoint : Checkpoint) : Session Store Failure Unit := do
  Session.write (pruneHistory graphId retainFromVersion)
  (checkpointNodes graphId retainFromVersion checkpoint.nodes).forM fun row =>
    insertInto Store.nodeHistory (fun rows store => { store with nodeHistory := rows })
      NodeHistoryRow.key "graph_node_history" row
  (checkpointEdges graphId retainFromVersion checkpoint.edges).forM fun row =>
    insertInto Store.edgeHistory (fun rows store => { store with edgeHistory := rows })
      EdgeHistoryRow.key "graph_edge_history" row
  Session.write (setFloor graphId retainFromVersion checkpoint.hash)
  Session.check (loadRetained graphId retainFromVersion checkpoint.currentVersion)

def compactionResult (checkpoint : Checkpoint) (deleted : Nat × Nat × Nat) : HistoryCompactionResult :=
  { graphId := graphId
    previousEarliestVersion := checkpoint.previousFloor
    earliestRecoverableVersion := retainFromVersion
    currentVersion := checkpoint.currentVersion
    checkpointProjectionHash := checkpoint.hash
    deletedSnapshotHeaders := deleted.1
    deletedNodeRevisions := deleted.2.1
    deletedEdgeRevisions := deleted.2.2 }

/-- `compact_projection_history` -/
def compactProjectionHistory (compactedBy reason : String) : Session Store Failure HistoryCompactionResult := do
  Session.check fun _ => require (strip compactedBy ≠ "")
    (Failure.value "compacted_by must identify the operator")
  Session.check fun _ => require (strip reason ≠ "")
    (Failure.value "reason must explain the retention decision")
  Session.transaction do
    let checkpoint ← Session.check (readCheckpoint graphId retainFromVersion)
    if retainFromVersion = checkpoint.previousFloor then
      return compactionResult graphId retainFromVersion checkpoint (0, 0, 0)
    else do
      let deleted ← Session.check fun store => .ok (countPruned graphId retainFromVersion store)
      installCheckpoint graphId retainFromVersion checkpoint
      return compactionResult graphId retainFromVersion checkpoint deleted

end

/-! ## What the transaction does -/

section
variable {store after : Store}

theorem mem_versionRange : version ∈ versionRange start stop ↔ start ≤ version ∧ version < stop := by
  simp only [versionRange, mem_map, mem_range]
  constructor
  · rintro ⟨offset, bound, rfl⟩
    omega
  rintro ⟨above, below⟩
  exact ⟨(version - start).toNat, by omega, by omega⟩

theorem loadRetained_ok : loadRetained graphId retainFromVersion currentVersion store = .ok () ↔
    ∀ version, retainFromVersion ≤ version → version ≤ currentVersion →
      ∃ content, loadProjectionSnapshot store graphId version = .ok content := by
  simp only [loadRetained, forM_ok, mem_versionRange, bind_ok]
  constructor
  · intro loads version above below
    obtain ⟨content, loaded, _⟩ := loads version ⟨above, by omega⟩
    exact ⟨content, loaded⟩
  intro loads version bounds
  obtain ⟨content, loaded⟩ := loads version bounds.1 (by omega)
  exact ⟨content, loaded, rfl⟩

/-- The store with the history cut at the floor. -/
def compacted (graphId : String) (retainFromVersion : Int) (checkpoint : Checkpoint) (store : Store) : Store :=
  let pruned := pruneHistory graphId retainFromVersion store
  setFloor graphId retainFromVersion checkpoint.hash
    { pruned with
      nodeHistory := pruned.nodeHistory ++ checkpointNodes graphId retainFromVersion checkpoint.nodes
      edgeHistory := pruned.edgeHistory ++ checkpointEdges graphId retainFromVersion checkpoint.edges }

/-- No key of the checkpoint is taken. -/
structure Fresh (graphId : String) (retainFromVersion : Int) (checkpoint : Checkpoint) (store : Store) :
    Prop where
  nodes : ∀ row ∈ checkpointNodes graphId retainFromVersion checkpoint.nodes,
    row.key ∉ (pruneHistory graphId retainFromVersion store).nodeHistory.map NodeHistoryRow.key
  distinctNodes : ((checkpointNodes graphId retainFromVersion checkpoint.nodes).map NodeHistoryRow.key).Nodup
  edges : ∀ row ∈ checkpointEdges graphId retainFromVersion checkpoint.edges,
    row.key ∉ (pruneHistory graphId retainFromVersion store).edgeHistory.map EdgeHistoryRow.key
  distinctEdges : ((checkpointEdges graphId retainFromVersion checkpoint.edges).map EdgeHistoryRow.key).Nodup

theorem installCheckpoint_ok : installCheckpoint graphId retainFromVersion checkpoint store = (.ok done, after) ↔
    Fresh graphId retainFromVersion checkpoint store ∧ after = compacted graphId retainFromVersion checkpoint store ∧
      loadRetained graphId retainFromVersion checkpoint.currentVersion after = .ok () := by
  rw [installCheckpoint, Session.write_bind_ok]
  constructor
  · intro ran
    obtain ⟨_, _, nodes, ran⟩ := Session.bind_ok.mp ran
    obtain ⟨free, distinct, rfl⟩ := insertNodeRevisions_ok.mp nodes
    obtain ⟨_, _, edges, ran⟩ := Session.bind_ok.mp ran
    obtain ⟨free', distinct', rfl⟩ := insertEdgeRevisions_ok.mp edges
    obtain ⟨loaded, rfl⟩ := Session.check_ok.mp (Session.write_bind_ok.mp ran)
    exact ⟨⟨free, distinct, free', distinct'⟩, rfl, loaded⟩
  · rintro ⟨fresh, rfl, loaded⟩
    exact Session.bind_ok.mpr ⟨(), _, insertNodeRevisions_ok.mpr ⟨fresh.nodes, fresh.distinctNodes, rfl⟩,
      Session.bind_ok.mpr ⟨(), _, insertEdgeRevisions_ok.mpr ⟨fresh.edges, fresh.distinctEdges, rfl⟩,
        Session.write_bind_ok.mpr (Session.check_ok.mpr ⟨loaded, rfl⟩)⟩⟩

/-- A compaction that returned left everything alone, because the floor is the
old one, or it installed the checkpoint. -/
theorem compactProjectionHistory_ok :
    compactProjectionHistory graphId retainFromVersion compactedBy reason store = (.ok result, after) ↔
      strip compactedBy ≠ "" ∧ strip reason ≠ "" ∧ ∃ checkpoint,
        readCheckpoint graphId retainFromVersion store = .ok checkpoint ∧
        (retainFromVersion = checkpoint.previousFloor ∧ after = store ∧
            result = compactionResult graphId retainFromVersion checkpoint (0, 0, 0) ∨
          retainFromVersion ≠ checkpoint.previousFloor ∧ Fresh graphId retainFromVersion checkpoint store ∧
            after = compacted graphId retainFromVersion checkpoint store ∧
            loadRetained graphId retainFromVersion checkpoint.currentVersion after = .ok () ∧
            result = compactionResult graphId retainFromVersion checkpoint
              (countPruned graphId retainFromVersion store)) := by
  simp only [compactProjectionHistory, Session.check_bind_ok, require_ok, Session.transaction_ok]
  constructor
  · rintro ⟨_, named, _, explained, checkpoint, read, ran⟩
    refine ⟨named, explained, checkpoint, read, ?_⟩
    split at ran
    · rename_i same
      cases ran
      exact Or.inl ⟨same, rfl, rfl⟩
    rename_i moved
    obtain ⟨deleted, counted, ran⟩ := Session.check_bind_ok.mp ran
    cases counted
    obtain ⟨_, _, installed, ran⟩ := Session.bind_ok.mp ran
    cases ran
    obtain ⟨fresh, written, loaded⟩ := installCheckpoint_ok.mp installed
    exact Or.inr ⟨moved, fresh, written, loaded, rfl⟩
  · rintro ⟨named, explained, checkpoint, read, ⟨same, rfl, rfl⟩ | ⟨moved, fresh, written, loaded, rfl⟩⟩
    · refine ⟨(), named, (), explained, checkpoint, read, ?_⟩
      rw [if_pos same]
      rfl
    refine ⟨(), named, (), explained, checkpoint, read, ?_⟩
    rw [if_neg moved]
    exact Session.check_bind_ok.mpr ⟨_, rfl, Session.bind_ok.mpr
      ⟨(), after, installCheckpoint_ok.mpr ⟨fresh, written, loaded⟩, rfl⟩⟩

theorem compactProjectionHistory_allOrNothing (compactedBy reason : String) :
    Session.AllOrNothing (compactProjectionHistory graphId retainFromVersion compactedBy reason) :=
  (Session.check_readOnly _).bind fun _ => (Session.check_readOnly _).bind fun _ =>
    Session.transaction_allOrNothing _

end
/-! ## Compacting a complete history -/

def versionOf (store : Store) (graphId : String) : Option Int :=
  (getRecord store graphId).map GraphRecord.currentVersion

theorem versionOf_some : versionOf store graphId = some version ↔
    ∃ record, getRecord store graphId = some record ∧ record.currentVersion = version :=
  Option.map_eq_some_iff

/-- Every version from the floor to the current one is in the history. -/
def Archived (store : Store) : Prop :=
  ∀ graphId current floor, versionOf store graphId = some current → RetainedFrom store graphId floor →
    ∀ version, floor ≤ version → version ≤ current → ∃ content, Held store graphId version content

section
theorem reached_le (reached : Reached store graphId version)
    (found : versionOf store graphId = some current) : version ≤ current := by
  obtain ⟨record, hit, bound⟩ := reached
  obtain ⟨_, hit', rfl⟩ := versionOf_some.mp found
  rw [hit, Option.some.injEq] at hit'
  exact hit' ▸ bound

/-- The floor of a graph with a record lies at or below the current version. -/
theorem floor_exists (sound : Consistent store) (found : versionOf store graphId = some current) :
    ∃ floor ≤ current, RetainedFrom store graphId floor := by
  obtain ⟨record, hit, rfl⟩ := versionOf_some.mp found
  exact (sound.graph graphId record hit).floor

theorem held_current (sound : Consistent store) (found : versionOf store graphId = some current) :
    Held store graphId current (committed store graphId) := by
  obtain ⟨record, hit, rfl⟩ := versionOf_some.mp found
  exact (sound.graph graphId record hit).held sound

end


section
theorem rejectFutureHistory_ok (sound : Consistent store) (found : versionOf store graphId = some current) :
    rejectFutureHistory graphId current store = .ok () := by
  have none_later : ∀ {α : Type} {rows : List α} {graphOf : α → String} {versionOf : α → Int},
      (∀ row ∈ rows, Reached store (graphOf row) (versionOf row)) →
        rows.filter (fun row => decide (graphOf row = graphId ∧ current < versionOf row)) = [] := by
    intro α rows graphOf versionOf reached
    refine filter_eq_nil_iff.mpr fun row member holds => ?_
    obtain ⟨rfl, later⟩ := of_decide_eq_true holds
    exact Int.not_lt.mpr (reached_le (reached row member) found) later
  have snapshots := none_later sound.snapshots
  have nodes := none_later fun row member => (sound.nodeHistory row member).2
  have edges := none_later fun row member => (sound.edgeHistory row member).2
  simp only [rejectFutureHistory, snapshots, nodes, edges, map_nil, append_nil, head?_nil]

/-- The checkpoint that a compaction at this version writes. -/
def checkpointAt (graphId : String) (version floor current : Int) (content : Projection) : Checkpoint :=
  ⟨floor, current, content.sorted.1, content.sorted.2,
    computeProjectionHash graphId version content.nodes content.edges⟩

/-- On a complete history a compaction reads the version at the new floor, which
must be one that is kept. -/
theorem readCheckpoint_iff (sound : Consistent store) (archived : Archived store) :
    readCheckpoint graphId version store = .ok checkpoint ↔
      ∃ floor current content, versionOf store graphId = some current ∧
        RetainedFrom store graphId floor ∧ floor ≤ version ∧ version ≤ current ∧
        Held store graphId version content ∧ checkpoint = checkpointAt graphId version floor current content := by
  have reads : ∀ {floor current content}, versionOf store graphId = some current →
      RetainedFrom store graphId floor → floor ≤ version → version ≤ current →
      Held store graphId version content → readCheckpoint graphId version store =
        .ok (checkpointAt graphId version floor current content) := by
    intro floor current content found retained above below held
    obtain ⟨record, hit, rfl⟩ := versionOf_some.mp found
    have floorBelow : floor ≤ record.currentVersion := above.trans below
    obtain ⟨hash, contract⟩ := retentionContract_ok hit floorBelow retained
    obtain ⟨versionRow, versionFound, versionEq⟩ := Option.map_eq_some_iff.mp held.versionHash
    have loaded := load_held sound held hit floorBelow retained above
    have loads : loadRetained graphId version record.currentVersion store = .ok () := by
      refine loadRetained_ok.mpr fun other otherAbove otherBelow => ?_
      have kept := above.trans otherAbove
      obtain ⟨otherContent, otherHeld⟩ := archived graphId _ floor found retained other kept otherBelow
      exact ⟨_, load_held sound otherHeld hit floorBelow retained kept⟩
    rw [checkpointAt, ← versionEq]
    exact bind_ok.mpr ⟨record, demand_ok.mpr hit, bind_ok.mpr ⟨_, contract, require_bind_ok.mpr ⟨above,
      require_bind_ok.mpr ⟨below, bind_ok.mpr ⟨_, loaded, bind_ok.mpr ⟨versionRow,
        demand_ok.mpr versionFound, bind_ok.mpr ⟨(), loads, bind_ok.mpr
          ⟨(), rejectFutureHistory_ok sound found, rfl⟩⟩⟩⟩⟩⟩⟩⟩
  constructor
  · intro read
    obtain ⟨record, hit, rest⟩ := bind_ok.mp read
    obtain ⟨contract, contracted, rest⟩ := bind_ok.mp rest
    obtain ⟨above, rest⟩ := require_bind_ok.mp rest
    obtain ⟨below, _⟩ := require_bind_ok.mp rest
    have found : versionOf store graphId = some record.currentVersion :=
      versionOf_some.mpr ⟨record, demand_ok.mp hit, rfl⟩
    obtain ⟨floor, floorBelow, retained⟩ := floor_exists sound found
    obtain ⟨hash, contracted'⟩ := retentionContract_ok (demand_ok.mp hit) floorBelow retained
    rw [contracted', Except.ok.injEq] at contracted
    subst contracted
    obtain ⟨content, held⟩ := archived graphId _ floor found retained version above below
    rw [reads found retained above below held, Except.ok.injEq] at read
    exact ⟨floor, _, content, found, retained, above, below, held, read.symm⟩
  · rintro ⟨floor, current, content, found, retained, above, below, held, rfl⟩
    exact reads found retained above below held

section
variable (consistent : Consistent store) (held : Held store graphId version content)

/-- The headers from the floor on stay. -/
theorem compacted_snapshotHash (above : version ≤ later) :
    snapshotHash (compacted graphId version checkpoint store) graphId later = snapshotHash store graphId later := by
  refine congrArg (Option.map SnapshotRow.projectionHash) (lookup_filter fun row _ same => ?_)
  obtain rfl : row.version = later := congrArg Prod.snd same
  simp only [decide_eq_true_eq, not_and]
  intro _
  omega

theorem mem_checkpointNodes : row ∈ checkpointNodes graphId version content.sorted.1 ↔
    ∃ node ∈ content.nodes, row = ⟨graphId, version, node.nodeId, node.nodeType, node⟩ := by
  simp only [checkpointNodes, Projection.sorted, mem_map, mem_insertionSort]
  exact exists_congr fun node => and_congr_right fun _ => eq_comm

theorem mem_checkpointEdges : row ∈ checkpointEdges graphId version content.sorted.2 ↔
    ∃ edge ∈ content.edges, row = ⟨graphId, version, edge⟩ := by
  simp only [checkpointEdges, Projection.sorted, mem_map, mem_insertionSort]
  exact exists_congr fun edge => and_congr_right fun _ => eq_comm

/-- The log of the graph is rebased at the floor. -/
theorem compacted_nodeHistory :
    nodeHistoryOf (compacted graphId version (checkpointAt graphId version floor current content) store)
    graphId = rebased NodeHistoryRow.version (nodeHistoryOf store graphId)
    (checkpointNodes graphId version content.sorted.1) version := by
  refine filter_cut_here fun row member => ?_
  obtain ⟨node, _, rfl⟩ := mem_checkpointNodes.mp member
  rfl

theorem compacted_edgeHistory :
    edgeHistoryOf (compacted graphId version (checkpointAt graphId version floor current content) store)
    graphId = rebased EdgeHistoryRow.version (edgeHistoryOf store graphId)
    (checkpointEdges graphId version content.sorted.2) version := by
  refine filter_cut_here fun row member => ?_
  obtain ⟨edge, _, rfl⟩ := mem_checkpointEdges.mp member
  rfl

/-- The other graphs keep their rows. -/
theorem compacted_sameGraph (elsewhere : other ≠ graphId) :
    SameGraph store (compacted graphId version checkpoint store) other := by
  refine ⟨rfl, rfl, fun _ => rfl, fun at_ => ?_, ?_, ?_, ?_⟩
  · refine congrArg (Option.map SnapshotRow.projectionHash) (lookup_filter fun row _ same => ?_)
    obtain rfl : row.graphId = other := congrArg Prod.fst same
    simp [elsewhere]
  · exact filter_cut_other (fun row member => by obtain ⟨_, _, rfl⟩ := mem_map.mp member; rfl) elsewhere
  · exact filter_cut_other (fun row member => by obtain ⟨_, _, rfl⟩ := mem_map.mp member; rfl) elsewhere
  · exact (lookup_modify (by intros; rfl) other).trans (if_neg elsewhere)

/-- Once the rows of a graph up to the floor are deleted, no key at the floor is left. -/
theorem not_mem_above_floor {key} {rows : List α} {id : κ} : (graphId, version, id) ∉
    (rows.filter fun row => decide (¬ ((key row).1 = graphId ∧ (key row).2.1 ≤ version))).map key := by
  intro taken
  obtain ⟨old, kept, same⟩ := mem_map.mp taken
  have deleted := of_decide_eq_true (mem_filter.mp kept).2
  rw [same] at deleted
  exact deleted ⟨rfl, le_rfl⟩

include held

theorem compacted_retained (retained : RetainedFrom store graphId floor) (above : floor ≤ version) :
    RetainedFrom (compacted graphId version (checkpointAt graphId version floor current content) store)
    graphId version := by
  obtain ⟨hash, found, _⟩ := retained.contract
  refine ⟨retained.nonneg.trans above, _, ?_, held.versionHash,
    (compacted_snapshotHash (le_refl version)).trans held.snapshotHash⟩
  refine (lookup_modify (by intros; rfl) graphId).trans ?_
  rw [if_pos rfl]
  exact congrArg (Option.map _) found

/-- The keys of the checkpoint are free, since everything at the floor was deleted. -/
theorem checkpoint_fresh : Fresh graphId version (checkpointAt graphId version floor current content) store := by
  refine ⟨fun row member taken => ?_, ?_, fun row member taken => ?_, ?_⟩
  · obtain ⟨node, _, rfl⟩ := mem_checkpointNodes.mp member
    exact not_mem_above_floor taken
  · have perm := (perm_insertionSort (fun a b : VPGNode => a.nodeId ≤ b.nodeId)
      content.sorted.1).trans content.sorted_perm.1
    refine List.Nodup.of_map (·.2.2) ?_
    rw [checkpointNodes, map_map, map_map]
    exact (perm.map VPGNode.nodeId).nodup_iff.mpr held.distinctNodes
  · obtain ⟨edge, _, rfl⟩ := mem_checkpointEdges.mp member
    exact not_mem_above_floor taken
  have perm := (perm_insertionSort (fun a b : VPGEdge => a.edgeId ≤ b.edgeId)
    content.sorted.2).trans content.sorted_perm.2
  refine List.Nodup.of_map (·.2.2) ?_
  rw [checkpointEdges, map_map, map_map]
  exact (perm.map VPGEdge.edgeId).nodup_iff.mpr held.distinctEdges

include consistent

/-- What the history holds from the new floor on, it still holds. -/
theorem compacted_held (above : version ≤ later) (kept : Held store graphId later other) :
    Held (compacted graphId version (checkpointAt graphId version floor current content) store)
    graphId later other := by
  refine ⟨kept.versionHash, (compacted_snapshotHash above).trans kept.snapshotHash, fun node => ?_,
    fun edge => ?_, kept.endpoints, kept.distinctNodes, kept.distinctEdges⟩
  · rw [kept.nodes, nodesAt, nodesAt, compacted_nodeHistory]
    refine (mem_latest_rebased NodeHistoryRow.payload (fun old =>
      ⟨graphId, version, old.payload.nodeId, old.payload.nodeType, old.payload⟩) above ?_ ?_ node).symm
    · intro row
      simp only [mem_checkpointNodes, held.nodes, exists_exists_and_eq_and]
      rfl
    intro old member
    have inTable : old ∈ store.nodeHistory := mem_of_mem_filter member
    exact ⟨rfl, rfl, (congrArg NodeHistoryRow.nodeId (consistent.nodeHistory old inTable).1).symm⟩
  · rw [kept.edges, edgesAt, edgesAt, compacted_edgeHistory]
    refine (mem_latest_rebased EdgeHistoryRow.edge (fun old =>
      ⟨graphId, version, old.edge⟩) above ?_ (fun _ _ => ⟨rfl, rfl, rfl⟩) edge).symm
    intro row
    simp only [mem_checkpointEdges, held.edges, exists_exists_and_eq_and]
    rfl

/-- A compaction keeps the store consistent. -/
theorem compacted_consistent (found : versionOf store graphId = some current)
    (retained : RetainedFrom store graphId floor) (above : floor ≤ version) (below : version ≤ current) :
    Consistent (compacted graphId version (checkpointAt graphId version floor current content) store) := by
  have fresh : Fresh graphId version (checkpointAt graphId version floor current content) store :=
    checkpoint_fresh held
  obtain ⟨record, hit, rfl⟩ := versionOf_some.mp found
  have reached : Reached store graphId version := ⟨record, hit, below⟩
  have graphOf : ∀ node ∈ content.nodes, node.graphId = graphId := by
    intro node member
    obtain ⟨row, last, rfl⟩ := (held.nodes node).mp member
    obtain ⟨inTable, here⟩ := mem_nodesAt last
    exact (congrArg NodeHistoryRow.graphId (consistent.nodeHistory row inTable).1).symm.trans here
  have graphOfEdge : ∀ edge ∈ content.edges, edge.graphId = graphId := by
    intro edge member
    obtain ⟨row, last, rfl⟩ := (held.edges edge).mp member
    obtain ⟨inTable, here⟩ := mem_edgesAt last
    exact (consistent.edgeHistory row inTable).1.symm.trans here
  refine
    { consistent with
      nodeHistoryKeys := ?_
      edgeHistoryKeys := ?_
      snapshots := fun row member => consistent.snapshots row (mem_of_mem_filter member)
      nodeHistory := fun row member => ?_
      edgeHistory := fun row member => ?_
      retention := fun row member => ?_
      graph := fun other found' hit' => ?_ }
  · exact nodup_append_free (consistent.nodeHistoryKeys.sublist (filter_sublist.map _))
      ⟨fresh.nodes, fresh.distinctNodes⟩
  · exact nodup_append_free (consistent.edgeHistoryKeys.sublist (filter_sublist.map _))
      ⟨fresh.edges, fresh.distinctEdges⟩
  · rcases mem_append.mp member with stored | new
    · exact consistent.nodeHistory row (mem_of_mem_filter stored)
    obtain ⟨node, listed, rfl⟩ := mem_checkpointNodes.mp new
    exact ⟨by rw [revision, graphOf node listed], reached⟩
  · rcases mem_append.mp member with stored | new
    · exact consistent.edgeHistory row (mem_of_mem_filter stored)
    obtain ⟨edge, listed, rfl⟩ := mem_checkpointEdges.mp new
    exact ⟨(graphOfEdge edge listed).symm, reached⟩
  · obtain ⟨old, stored, rfl⟩ := mem_map.mp member
    obtain ⟨bound, was⟩ := consistent.retention old stored
    refine ⟨bound, ?_⟩
    split
    · exact was
    exact was
  by_cases here : other = graphId
  · subst here
    obtain rfl : record = found' := Option.some.inj (hit.symm.trans hit')
    have now : Held (compacted other version
        (checkpointAt other version floor record.currentVersion content) store) other
        record.currentVersion (committed store other) :=
      compacted_held consistent held below (held_current consistent found)
    exact ⟨⟨version, below, compacted_retained held retained above⟩, now.versionHash,
      now.snapshotHash, now.nodes, now.edges, now.endpoints⟩
  · exact (consistent.graph other found' hit').frame (compacted_sameGraph here)

end
end
end LongHorizonOS.HistoryCompaction
