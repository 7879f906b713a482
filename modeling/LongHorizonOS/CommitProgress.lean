import LongHorizonOS.CommittedRuns

/-! When a commit goes through. The commit repeats most of what validation has
established, and on a consistent store these checks cannot fail: a patch that
was validated on the current version of its graph commits, provided that the
guards hold, its key and its id are unused, and its D3 envelope can be
recorded. -/
namespace LongHorizonOS.CommitProgress
open KeyedRows GraphModels FailFast PatchValidation DerivedState List
open CommitGuards GraphStore CommitSpec PatchSubmission StoreConsistency DerivationFrame PatchSpec
open CommittedRuns RevisionLog

/-- A request that supplies exactly what its candidate adds to a projection. -/
structure Prepared (r : CommitRequest) (nodes : List VPGNode) (edges : List VPGEdge) : Prop where
  arguments : Arguments r
  nodesToUpsert : r.nodesToUpsert = (changed VPGNode.nodeId nodes r.projectionNodes).map
    fun node => (node.nodeId, node)
  projectionEdges : r.projectionEdges = edges ++ r.edgesToUpsert
  kept : ∀ node ∈ nodes, node.nodeId ∈ r.projectionNodes.map VPGNode.nodeId

/-! ## A prepared request -/

section
variable {r : CommitRequest}

theorem upsertedRows_eq (prepared : Prepared r nodes edges) :
    upsertedRows r = (changed VPGNode.nodeId nodes r.projectionNodes).map nodeRow := by
  rw [upsertedRows, prepared.nodesToUpsert, map_map]
  rfl

theorem Prepared.delta (prepared : Prepared r nodes edges) (sameNodes : parentNodes.Perm nodes)
    (sameEdges : parentEdges.Perm edges) : Delta r parentNodes parentEdges [] [] := by
  have arguments := prepared.arguments
  refine ⟨by simp, ?_, ?_, ?_, ?_, ?_, ?_, ?_⟩
  · rw [durableNodes_nil]
    exact arguments.endpoints
  · intro entry member
    rw [prepared.nodesToUpsert] at member
    obtain ⟨node, change, rfl⟩ := mem_map.mp member
    rw [durableNodes_nil]
    exact lookup_of_mem arguments.distinctNodes (mem_changed.mp change).1
  · intro edge member
    refine lookup_of_mem arguments.distinctEdges ?_
    rw [prepared.projectionEdges]
    exact mem_append_right _ member
  · exact fun node member => prepared.kept node (sameNodes.mem_iff.mp member)
  · intro edge member
    rw [prepared.projectionEdges, map_append]
    exact mem_append_left _ (mem_map_of_mem (sameEdges.mem_iff.mp member))
  · intro node member
    rw [durableNodes_nil] at member
    by_cases same : lookup VPGNode.nodeId nodes node.nodeId = some node
    · left
      rw [(sameNodes.map VPGNode.nodeId).mem_iff]
      exact mem_map_of_mem (lookup_mem same)
    right; left
    rw [prepared.nodesToUpsert, map_map]
    exact mem_map.mpr ⟨node, mem_changed.mpr ⟨member, same⟩, rfl⟩
  · intro edge member
    rw [prepared.projectionEdges, mem_append] at member
    rcases member with old | new
    · left
      rw [(sameEdges.map VPGEdge.edgeId).mem_iff]
      exact mem_map_of_mem old
    · exact Or.inr (mem_map_of_mem new)

section
variable (consistent : Consistent store) (prepared : Prepared r nodes edges)
  (nodesPerm : nodes.Perm (committedNodes store r.patch.graphId))
  (edgesPerm : edges.Perm (committedEdges store r.patch.graphId))
include consistent prepared

/-! ### The rows read back -/

omit consistent in
theorem upsertedRows_keys : ((upsertedRows r).map NodeRow.key).Nodup := by
  rw [upsertedRows_eq prepared]
  refine List.Nodup.of_map Prod.snd ?_
  rw [map_map, map_map]
  exact changed_distinct prepared.arguments.distinctNodes

omit consistent in
/-- A row of the graph is overwritten exactly if its node has changed. -/
theorem mem_upsertedRows_keys (here : node.graphId = r.patch.graphId) :
    (nodeRow node).key ∈ (upsertedRows r).map NodeRow.key ↔
      node.nodeId ∈ (changed VPGNode.nodeId nodes r.projectionNodes).map VPGNode.nodeId := by
  rw [upsertedRows_eq prepared, map_map, mem_map, mem_map]
  constructor
  · rintro ⟨other, change, same⟩
    exact ⟨other, change, congrArg Prod.snd same⟩
  rintro ⟨other, change, same⟩
  refine ⟨other, change, ?_⟩
  change (other.graphId, other.nodeId) = (node.graphId, node.nodeId)
  rw [prepared.arguments.nodes other (mem_changed.mp change).1, here, same]

include nodesPerm in
/-- Writing the changed nodes over the table leaves the candidate. -/
theorem mem_upserted_nodes : row ∈ nodeRowsOf (upsertProjection r store) r.patch.graphId ↔
    ∃ node ∈ r.projectionNodes, row = nodeRow node := by
  have arguments := prepared.arguments
  have distinct : DistinctIds nodes := (nodesPerm.map VPGNode.nodeId).nodup_iff.mpr consistent.distinctNodes
  have split : ∀ node, node ∈ r.projectionNodes ↔ _ := fun node =>
    mem_changed_or_kept distinct arguments.distinctNodes prepared.kept
  rw [mem_nodeRowsOf, upsertProjection_nodes, mem_upsertAll consistent.nodeKeys (upsertedRows_keys prepared)]
  constructor
  · rintro ⟨new | ⟨stored, untouched⟩, here⟩
    · rw [upsertedRows_eq prepared] at new
      obtain ⟨node, change, rfl⟩ := mem_map.mp new
      exact ⟨node, (mem_changed.mp change).1, rfl⟩
    obtain ⟨shape, _⟩ := consistent.nodes row stored
    rw [shape] at here untouched
    rw [mem_upsertedRows_keys prepared here] at untouched
    refine ⟨row.payload, (split _).mpr (Or.inr ⟨?_, untouched⟩), shape⟩
    exact nodesPerm.mem_iff.mpr (mem_map_of_mem (mem_nodeRowsOf.mpr ⟨stored, shape ▸ here⟩))
  rintro ⟨node, member, rfl⟩
  have here : node.graphId = r.patch.graphId := arguments.nodes node member
  refine ⟨?_, here⟩
  rcases (split node).mp member with change | ⟨old, untouched⟩
  · left
    rw [upsertedRows_eq prepared]
    exact mem_map_of_mem change
  right
  refine ⟨?_, fun taken => untouched ((mem_upsertedRows_keys prepared here).mp taken)⟩
  have listed := mem_map_of_mem (f := nodeRow) (nodesPerm.mem_iff.mp old)
  rw [← consistent.nodeRowsOf_eq] at listed
  exact (mem_nodeRowsOf.mp listed).1

include edgesPerm in
theorem mem_upserted_edges :
    edge ∈ committedEdges (upsertProjection r store) r.patch.graphId ↔ edge ∈ r.projectionEdges := by
  have arguments := prepared.arguments
  have distinct := arguments.distinctEdges
  rw [prepared.projectionEdges, map_append, nodup_append] at distinct
  obtain ⟨_, distinctNew, apart⟩ := distinct
  have newKeys : (r.edgesToUpsert.map edgeKey).Nodup :=
    List.Nodup.of_map Prod.snd (by rw [map_map]; exact distinctNew)
  rw [mem_committedEdges, upsertProjection_edges, mem_upsertAll consistent.edgeKeys newKeys,
    prepared.projectionEdges, mem_append, edgesPerm.mem_iff, mem_committedEdges]
  constructor
  · rintro ⟨new | ⟨stored, _⟩, here⟩
    · exact Or.inr new
    exact Or.inl ⟨stored, here⟩
  rintro (⟨stored, here⟩ | new)
  · refine ⟨Or.inr ⟨stored, fun taken => ?_⟩, here⟩
    obtain ⟨other, member, same⟩ := mem_map.mp taken
    have old : edge ∈ edges := edgesPerm.mem_iff.mpr (mem_committedEdges.mpr ⟨stored, here⟩)
    exact apart _ (mem_map_of_mem old) _ (mem_map_of_mem member) (congrArg Prod.snd same).symm
  · exact ⟨Or.inl new, arguments.edgesToUpsert edge new⟩

include nodesPerm in
theorem upserted_nodes_perm : (nodeRowsOf (upsertProjection r store) r.patch.graphId).Perm
    (r.projectionNodes.map nodeRow) := by
  have keys : ((upsertProjection r store).nodes.map NodeRow.key).Nodup := by
    rw [upsertProjection_nodes]
    exact upsertAll_distinct consistent.nodeKeys
  have ids := nodeIds_distinct keys r.patch.graphId
  have candidate : (r.projectionNodes.map nodeRow).Nodup :=
    (List.Nodup.of_map _ prepared.arguments.distinctNodes).map fun _ _ => congrArg NodeRow.payload
  rw [perm_ext_iff_of_nodup (List.Nodup.of_map _ ids) candidate]
  intro row
  rw [mem_upserted_nodes consistent prepared nodesPerm, mem_map]
  exact exists_congr fun node => and_congr_right fun _ => eq_comm

include edgesPerm in
theorem upserted_edges_perm : (committedEdges (upsertProjection r store) r.patch.graphId).Perm r.projectionEdges := by
  have keys : ((upsertProjection r store).edges.map edgeKey).Nodup := by
    rw [upsertProjection_edges]
    exact upsertAll_distinct consistent.edgeKeys
  have ids := edgeIds_distinct keys r.patch.graphId
  rw [perm_ext_iff_of_nodup (List.Nodup.of_map _ ids) (List.Nodup.of_map _ prepared.arguments.distinctEdges)]
  exact fun edge => mem_upserted_edges consistent prepared edgesPerm

include nodesPerm edgesPerm in
/-- The rows read back are the candidate. -/
theorem materializes : checkMaterializes r [] (upsertProjection r store) = .ok () := by
  have arguments := prepared.arguments
  have nodeRows := upserted_nodes_perm consistent prepared nodesPerm
  have edgeRows : (edgeRowsOf (upsertProjection r store) r.patch.graphId).Perm r.projectionEdges :=
    upserted_edges_perm consistent prepared edgesPerm
  have nodeIds : ((nodeRowsOf (upsertProjection r store) r.patch.graphId).map NodeRow.nodeId).Perm
      (r.projectionNodes.map VPGNode.nodeId) := by
    have ids := nodeRows.map NodeRow.nodeId
    rwa [map_map] at ids
  have payloads : ((nodeRowsOf (upsertProjection r store) r.patch.graphId).map NodeRow.payload).Perm
      r.projectionNodes := by
    have payloads := nodeRows.map NodeRow.payload
    rw [map_map] at payloads
    exact payloads.trans (List.Perm.of_eq (map_id _))
  have edgeIds := edgeRows.map VPGEdge.edgeId
  refine bind_ok.mpr ⟨(nodeRowsOf (upsertProjection r store) r.patch.graphId,
    edgeRowsOf (upsertProjection r store) r.patch.graphId), ?_, ?_⟩
  · exact require_bind_ok.mpr ⟨⟨nodeIds.nodup_iff.mpr arguments.distinctNodes,
      edgeIds.nodup_iff.mpr arguments.distinctEdges⟩, rfl⟩
  simp only [not_mem_nil, not_false_eq_true, decide_true, filter_true, durableNodes_nil]
  refine require_ok.mpr ⟨?_, ?_, ?_, ?_, ?_⟩
  · exact fun row member => nodeIds.mem_iff.mp (mem_map_of_mem member)
  · exact fun node member => nodeIds.mem_iff.mpr (mem_map_of_mem member)
  · exact fun edge member => edgeIds.mem_iff.mp (mem_map_of_mem member)
  · exact fun edge member => edgeIds.mem_iff.mpr (mem_map_of_mem member)
  rw [computeProjectionHash, computeProjectionHash,
    sortByKey_perm arguments.distinctNodes payloads, sortByKey_perm arguments.distinctEdges edgeRows]

end

/-! ### The history -/

section
variable (consistent : Consistent store) (found : getRecord store r.patch.graphId = some record)
  (version : r.committedVersion = record.currentVersion + 1)
include found version

/-- Every version that the tables know of is an earlier one. -/
theorem reached_before (reached : Reached store r.patch.graphId known) : known < r.committedVersion := by
  obtain ⟨current, hit, bound⟩ := reached
  rw [found, Option.some.injEq] at hit
  rw [version, hit]
  omega

include consistent

theorem newVersion : (r.patch.graphId, r.committedVersion) ∉ store.versions.map VersionRow.key := by
  intro taken
  obtain ⟨row, member, same⟩ := mem_map.mp taken
  obtain ⟨graph, known⟩ := Prod.mk.inj same
  exact (reached_before found version (graph ▸ consistent.versions row member)).ne known

theorem newSnapshot : (r.patch.graphId, r.committedVersion) ∉ store.snapshots.map SnapshotRow.key := by
  intro taken
  obtain ⟨row, member, same⟩ := mem_map.mp taken
  obtain ⟨graph, known⟩ := Prod.mk.inj same
  exact (reached_before found version (graph ▸ consistent.snapshots row member)).ne known

theorem nodeHistory_before (member : row ∈ store.nodeHistory) (here : row.graphId = r.patch.graphId) : row.version < r.committedVersion :=
  reached_before found version (here ▸ (consistent.nodeHistory row member).2)

theorem edgeHistory_before (member : row ∈ store.edgeHistory) (here : row.graphId = r.patch.graphId) : row.version < r.committedVersion :=
  reached_before found version (here ▸ (consistent.edgeHistory row member).2)

theorem nodeRevisions_new (distinct : DistinctIds r.projectionNodes) :
    (∀ row ∈ nodeRevisions r parentNodes [], row.key ∉ store.nodeHistory.map NodeHistoryRow.key) ∧
      ((nodeRevisions r parentNodes []).map NodeHistoryRow.key).Nodup := by
  constructor
  · intro row member taken
    obtain ⟨node, _, rfl⟩ := mem_nodeRevisions.mp member
    obtain ⟨old, stored, same⟩ := mem_map.mp taken
    obtain ⟨graph, rest⟩ := Prod.mk.inj same
    exact (nodeHistory_before consistent found version stored graph).ne (Prod.mk.inj rest).1
  have sorted := perm_insertionSort (fun a b : VPGNode => a.nodeId ≤ b.nodeId)
    (changed VPGNode.nodeId parentNodes r.projectionNodes)
  refine List.Nodup.of_map (·.2.2) ?_
  rw [nodeRevisions, durableNodes_nil, map_map, map_map]
  exact (sorted.map VPGNode.nodeId).nodup_iff.mpr (changed_distinct distinct)

theorem edgeRevisions_new (distinct : (r.projectionEdges.map VPGEdge.edgeId).Nodup) :
    (∀ row ∈ edgeRevisions r parentEdges, row.key ∉ store.edgeHistory.map EdgeHistoryRow.key) ∧
      ((edgeRevisions r parentEdges).map EdgeHistoryRow.key).Nodup := by
  constructor
  · intro row member taken
    obtain ⟨edge, _, rfl⟩ := mem_edgeRevisions.mp member
    obtain ⟨old, stored, same⟩ := mem_map.mp taken
    obtain ⟨graph, rest⟩ := Prod.mk.inj same
    exact (edgeHistory_before consistent found version stored graph).ne (Prod.mk.inj rest).1
  have sorted := perm_insertionSort (fun a b : VPGEdge => a.edgeId ≤ b.edgeId)
    (changed VPGEdge.edgeId parentEdges r.projectionEdges)
  refine List.Nodup.of_map (·.2.2) ?_
  rw [edgeRevisions, map_map, map_map]
  exact (sorted.map VPGEdge.edgeId).nodup_iff.mpr (changed_distinct distinct)

end

/-- A prepared request on the current version of an open graph commits. -/
theorem prepared_commits (sound : Consistent store)
    (found : getRecord store r.patch.graphId = some record) (isOpen : record.closed = false)
    (version : r.committedVersion = record.currentVersion + 1) (prepared : Prepared r nodes edges)
    (nodesPerm : nodes.Perm (committedNodes store r.patch.graphId))
    (edgesPerm : edges.Perm (committedEdges store r.patch.graphId))
    (guards : validateGuards authority r.commitGuard r.readGuards = .ok ())
    (newKey : r.patch.compositeKey ∉ store.idempotency.map IdempotencyRow.key)
    (newPatch : r.patchId ∉ store.patches.map PatchRow.patchId) (d3 : D3Written r store.d3Results d3Results) :
    ∃ after, commitPatch r authority store = (.ok (), after) := by
  obtain ⟨parentNodes, parentEdges, loaded, parentPerm, parentEdgesPerm⟩ := load_current sound found
  have arguments := prepared.arguments
  have current : r.committedVersion - 1 = record.currentVersion := by omega
  have delta := prepared.delta (parentPerm.trans nodesPerm.symm) (parentEdgesPerm.trans edgesPerm.symm)
  refine ⟨_, commitPatch_ok.mpr ⟨parentNodes, parentEdges, [], [], d3Results, ?_, rfl⟩⟩
  exact
    { arguments := checkArguments_ok.mpr arguments
      guards := guards
      current := checkCurrent_ok.mpr ⟨record, found, isOpen, current.symm⟩
      parent := current ▸ loaded
      future := checkFutureHistory_ok.mpr ⟨fun _ => nodeHistory_before sound found version,
        fun _ => edgeHistory_before sound found version⟩
      rows := require_bind_ok.mpr ⟨⟨nodeIds_distinct sound.nodeKeys _, sound.distinctEdges⟩, rfl⟩
      materialized := checkMaterialized_clean sound parentPerm parentEdgesPerm
      delta := checkDelta_ok.mpr delta
      newKey := newKey
      newPatch := newPatch
      newVersion := newVersion sound found version
      d3 := d3
      materializes := materializes sound prepared nodesPerm edgesPerm
      newSnapshot := newSnapshot sound found version
      nodeRevisions := nodeRevisions_new sound found version arguments.distinctNodes
      edgeRevisions := edgeRevisions_new sound found version arguments.distinctEdges }

end

/-! ## Refused commits -/

section
variable {failure : Failure}

/-- The guards are checked first in the transaction. -/
theorem commitPatch_refused (arguments : Arguments r)
    (refused : validateGuards authority r.commitGuard r.readGuards = .error failure) :
    commitPatch r authority store = (.error failure, store) := by
  simp only [commitPatch, bind, Session.bind, Session.check, Session.transaction,
    checkArguments_ok.mpr arguments, refused]

end

/-! ## Snapshots -/

section
/-- Rows that are filed under their own ids decode. -/
theorem getAllNodes_succeeds (sound : Consistent store) : ∃ nodes, getAllNodes store graphId order = .ok nodes := by
  have formed : ∀ row ∈ order.nodes (nodeRowsOf store graphId),
      row.payload.graphId = graphId ∧ row.payload.nodeId = row.nodeId := by
    intro row member
    obtain ⟨stored, here⟩ := mem_nodeRowsOf.mp ((order.nodes_perm _).mem_iff.mp member)
    have shape := (sound.nodes row stored).1
    exact ⟨(congrArg NodeRow.graphId shape).symm.trans here, (congrArg NodeRow.nodeId shape).symm⟩
  unfold getAllNodes
  generalize order.nodes (nodeRowsOf store graphId) = rows at formed
  induction rows with
  | nil => exact ⟨[], rfl⟩
  | cons row rest ih =>
    obtain ⟨others, decoded⟩ := ih fun other member => formed other (mem_cons_of_mem _ member)
    refine ⟨row.payload :: others, ?_⟩
    rw [mapM_cons, bind_ok]
    refine ⟨row.payload, require_bind_ok.mpr ⟨formed row mem_cons_self, rfl⟩, ?_⟩
    exact bind_ok.mpr ⟨others, decoded, rfl⟩

/-- A snapshot fails only on the version check. -/
theorem snapshotStep_succeeds (order : RowOrder) (sound : Consistent store)
    (found : getRecord store sub.patch.graphId = some now)
    (expected : sub.patch.expectedGraphVersion = record.currentVersion) :
    ∃ rows, snapshotStep sub record order store = .ok rows := by
  obtain ⟨nodes, read⟩ := getAllNodes_succeeds sound
  refine ⟨(nodes, order.edges (edgeRowsOf store sub.patch.graphId)), require_bind_ok.mpr ⟨expected,
    bind_ok.mpr ⟨now, demand_ok.mpr found, bind_ok.mpr ⟨nodes, read, bind_ok.mpr ⟨_,
      require_bind_ok.mpr ⟨fun edge member => ?_, rfl⟩, rfl⟩⟩⟩⟩⟩
  exact (mem_committedEdges.mp ((order.edges_perm _).mem_iff.mp member)).2

end

/-! ## A validated patch -/

section
theorem snapshot_coherent (sound : Consistent store) (found : getRecord store graphId = some record)
    (nodesPerm : nodes.Perm (committedNodes store graphId))
    (edgesPerm : edges.Perm (committedEdges store graphId)) : Coherent graphId nodes edges where
  distinctNodes := (nodesPerm.map VPGNode.nodeId).nodup_iff.mpr sound.distinctNodes
  distinctEdges := (edgesPerm.map VPGEdge.edgeId).nodup_iff.mpr sound.distinctEdges
  nodesHere := fun _ member => sound.graphId_of_mem (nodesPerm.mem_iff.mp member)
  edgesHere := fun _ member => (mem_committedEdges.mp (edgesPerm.mem_iff.mp member)).2
  endpoints := by
    intro edge member
    rw [(nodesPerm.map VPGNode.nodeId).mem_iff, (nodesPerm.map VPGNode.nodeId).mem_iff]
    exact (sound.graph graphId record found).endpoints edge (edgesPerm.mem_iff.mp member)

/-- A derivation keeps the ids and the graph of the nodes. -/
theorem Coherent.framed {graphId} {before after} (frame : Frame before after)
    (coherent : Coherent graphId before edges) : Coherent graphId after edges := by
  have distinct : DistinctIds after := by
    rw [DistinctIds, frame.keys]
    exact coherent.distinctNodes
  refine ⟨distinct, coherent.distinctEdges, fun node member => ?_, coherent.edgesHere, ?_⟩
  · obtain ⟨old, found, same⟩ := frame.backward (lookup_of_mem distinct member)
    rw [same.graphId]
    exact coherent.nodesHere old (lookup_mem found)
  · rw [frame.keys]
    exact coherent.endpoints

/-- The candidate that a request supplies is the derived one. -/
theorem commitRequest_nodes : (commitRequest sub facts record nodes cand).projectionNodes =
    (closed (derivationFor sub facts record cand.edges) cand.nodes).rows := by
  dsimp only [commitRequest, recomputeDerivedState]

theorem commitRequest_changes : (commitRequest sub facts record nodes cand).nodesToUpsert =
    (changed VPGNode.nodeId nodes (commitRequest sub facts record nodes cand).projectionNodes).map
    fun node => (node.nodeId, node) := by
  dsimp only [commitRequest, changedNodes, changed, getNode]
  rfl

/-- A patch that was validated on a coherent projection is prepared for it. -/
theorem validated_prepared (coherent : Coherent sub.patch.graphId nodes edges)
    (expected : sub.patch.expectedGraphVersion = record.currentVersion)
    (validated : validatePatch (requestFor sub facts nodes edges) = .ok cand) :
    Prepared (commitRequest sub facts record nodes cand) nodes edges := by
  have frame := closed_frame (d := derivationFor sub facts record cand.edges) cand.nodes
  have derived := Coherent.framed frame (validatePatch_coherent validated coherent)
  have keys := frame.keys
  rw [← commitRequest_nodes] at derived keys
  have added : cand.edges = edges ++ cand.newEdges := validatePatch_newEdges validated
  refine ⟨⟨rfl, ?_, ?_, ?_, ?_, derived.distinctNodes, derived.distinctEdges, derived.nodesHere,
    derived.edgesHere, derived.endpoints⟩, commitRequest_changes, added, fun node member => ?_⟩
  · change record.currentVersion + 1 = _
    rw [← expected]
    rfl
  · intro entry member
    rw [commitRequest_changes] at member
    obtain ⟨node, change, rfl⟩ := mem_map.mp member
    exact ⟨rfl, derived.nodesHere node (mem_changed.mp change).1⟩
  · intro edge member
    exact derived.edgesHere edge (added ▸ mem_append_right _ member)
  · intro event member
    rcases mem_append.mp member with validation | derivation
    · exact validatePatch_events validated event validation
    exact recomputeDerivedState_events event derivation
  · rw [keys]
    exact validatePatch_known validated (mem_map_of_mem member)

/-- A patch that is validated on the version it commits on commits, unless a
guard refuses it, its key or its id is taken, or its D3 envelope is refused. -/
theorem validated_commits (sound : Consistent store) (read : readRecord sub store = .ok record)
    (snapshot : snapshotStep sub record order store = .ok (nodes, edges))
    (validated : validatePatch (requestFor sub facts nodes edges) = .ok cand)
    (guards : validateGuards authority sub.commitGuard sub.readGuards = .ok ())
    (newKey : sub.patch.compositeKey ∉ store.idempotency.map IdempotencyRow.key)
    (newPatch : sub.patch.patchId ∉ store.patches.map PatchRow.patchId)
    (d3 : D3Written (commitRequest sub facts record nodes cand) store.d3Results d3Results) :
    ∃ after, commitPatch (commitRequest sub facts record nodes cand) authority store = (.ok (), after) := by
  obtain ⟨found, isOpen⟩ := readRecord_ok read
  obtain ⟨expected, nodesPerm, edgesPerm⟩ := snapshotStep_ok snapshot
  have coherent := snapshot_coherent sound found nodesPerm edgesPerm
  exact prepared_commits sound found isOpen rfl (validated_prepared coherent expected validated)
    nodesPerm edgesPerm guards newKey newPatch d3

end
end LongHorizonOS.CommitProgress
