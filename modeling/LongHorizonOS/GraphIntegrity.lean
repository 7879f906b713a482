import LongHorizonOS.RunMonitor

/-! Structure of the committed graphs: distinct ids, endpoints in the graph,
no dependency cycle, and commits that happen whole or not at all. Node
identity and edge typing hold as long as no AttachArtifact operation takes
the place of a node. -/
namespace LongHorizonOS.GraphIntegrity
open KeyedRows GraphModels EvidenceVerification PatchValidation List
open GraphStore PatchSubmission StoreConsistency DerivationFrame PatchSpec CommittedRuns
open RunMonitor ThreeColourSearch

/-! ## Acyclic dependencies -/

/-- A DEPENDS_ON edge leads from the source to the target. -/
def DependsOn (edges : List VPGEdge) (source target : String) : Prop :=
  target ∈ targetsOf edges .dependsOn source

def Acyclic (edges : List VPGEdge) : Prop :=
  ∀ nodeId, ¬ Relation.TransGen (DependsOn edges) nodeId nodeId

/-- A search that finds nothing rules out every cycle, whatever the order of the nodes. -/
theorem search_acyclic {order} (all : ∀ nodeId, nodeId ∈ order ↔ nodeId ∈ dependsOnNodes (existing ++ new))
    (searched : search (dependsOnAdj existing new) order = none) : Acyclic (existing ++ new) := by
  intro nodeId cycle
  have member : nodeId ∈ order := by
    obtain ⟨next, edge, _⟩ := Relation.TransGen.head'_iff.mp cycle
    exact (all nodeId).mpr (dependsOn_nodes edge).1
  have verdict := (search_spec (dependsOn_closed all)).1
  rw [searched] at verdict
  exact acyclic_of_accessible (verdict nodeId (.inl member)) cycle

theorem detectCycle_none : detectCycle existing new = none → Acyclic (existing ++ new) :=
  search_acyclic fun _ => .rfl

theorem Acyclic.mono (acyclic : Acyclic edges)
    (sub : ∀ source target, DependsOn new source target → DependsOn edges source target) : Acyclic new :=
  fun nodeId cycle => acyclic nodeId (.mono sub _ _ cycle)

/-- The candidate has only the old dependencies and the pending ones. -/
theorem validatePatch_acyclic (validated : validatePatch req = .ok cand) : Acyclic cand.edges := by
  have collected : ∀ source target, DependsOn cand.edges source target →
      DependsOn (req.currentEdges ++ cand.pendingDepEdges) source target := by
    refine validatePatch_invariant (P := fun cand => ∀ source target, DependsOn cand.edges source target →
        DependsOn (req.currentEdges ++ cand.pendingDepEdges) source target) ?_ ?_ validated
    · intro source target edge
      simpa [baseline, DependsOn] using edge
    intro cand next op _ kept applied
    have adds : ∀ {edge : VPGEdge}, AddsEdge cand next edge → ∀ source target,
        DependsOn next.edges source target →
          DependsOn (req.currentEdges ++ next.pendingDepEdges) source target := by
      intro edge adds source target dependency
      obtain ⟨other, member, kind, from_, to_⟩ := mem_targetsOf.mp dependency
      rw [adds.edges, mem_append, mem_singleton] at member
      rcases member with old | rfl
      · obtain ⟨stored, found, rest⟩ := mem_targetsOf.mp
          (kept source target (mem_targetsOf.mpr ⟨other, old, kind, from_, to_⟩))
        refine mem_targetsOf.mpr ⟨stored, ?_, rest⟩
        rw [adds.pending, ← append_assoc]
        exact mem_append_left _ found
      · refine mem_targetsOf.mpr ⟨other, ?_, kind, from_, to_⟩
        simp [adds.pending, kind]
    cases applied with
    | node _ _ _ _ edges _ pending =>
      rw [edges, pending]
      exact kept
    | edge _ _ added _ => exact adds added
    | artifact _ _ _ _ _ _ _ _ added _ => exact adds added
  exact (detectCycle_none (validatePatch_ok validated).2).mono collected

/-! ## Well-formed versions -/

structure WellFormed (graphId : String) (nodes : List VPGNode) (edges : List VPGEdge) : Prop where
  distinctNodes : (nodes.map VPGNode.nodeId).Nodup
  distinctEdges : (edges.map VPGEdge.edgeId).Nodup
  sameGraph : (∀ node ∈ nodes, node.graphId = graphId) ∧ ∀ edge ∈ edges, edge.graphId = graphId
  endpoints : ∀ edge ∈ edges, (∃ node ∈ nodes, node.nodeId = edge.sourceNodeId) ∧
    ∃ node ∈ nodes, node.nodeId = edge.targetNodeId
  acyclic : Acyclic edges

theorem acyclic_perm (perm : edges'.Perm edges) (acyclic : Acyclic edges) : Acyclic edges' :=
  acyclic.mono fun _ _ edge => (targetsOf_perm perm).mem_iff.mp edge

theorem execute_acyclic : Acyclic (committedEdges (execute requests) graphId) := by
  refine execute_projection (Q := fun _ edges => Acyclic edges) ?_ ?_ ?_ graphId
  · intro nodeId cycle
    obtain ⟨next, edge, _⟩ := Relation.TransGen.head'_iff.mp cycle
    simp [DependsOn, targetsOf] at edge
  · exact fun _ _ perm acyclic => acyclic_perm perm acyclic
  · exact fun c _ _ => validatePatch_acyclic c.validated

theorem committed_endpoints (sound : Consistent store) (member : edge ∈ committedEdges store graphId) :
    edge.sourceNodeId ∈ (committedNodes store graphId).map VPGNode.nodeId ∧
      edge.targetNodeId ∈ (committedNodes store graphId).map VPGNode.nodeId := by
  cases found : getRecord store graphId with
  | none =>
    rw [(no_rows sound found).2.1] at member
    cases member
  | some record => exact (sound.graph graphId record found).endpoints edge member

theorem execute_wellFormed (requests) (graphId) : WellFormed graphId (committedNodes (execute requests) graphId)
    (committedEdges (execute requests) graphId) := by
  have consistent := execute_consistent requests
  refine ⟨consistent.distinctNodes, consistent.distinctEdges, ⟨fun node => consistent.graphId_of_mem,
    fun edge member => (mem_committedEdges.mp member).2⟩, fun edge member => ?_,
    execute_acyclic⟩
  obtain ⟨source, target⟩ := committed_endpoints consistent member
  exact ⟨mem_map.mp source, mem_map.mp target⟩

/-- Every committed version is well-formed, a submission that raises leaves
every table as it was, and one that returns without replaying has advanced
the version of its graph by one. -/
theorem committed_versions_are_wellFormed_and_atomic (requests : List Request) :
    (∀ graphId, WellFormed graphId (committedNodes (execute requests) graphId)
      (committedEdges (execute requests) graphId)) ∧
    (∀ sub env failure after, submitPatch sub env (execute requests) = (.error failure, after) →
      after = execute requests) ∧
    ∀ sub env result after, submitPatch sub env (execute requests) = (.ok result, after) →
      result.idempotentReplay = false → ∃ record,
        getRecord (execute requests) sub.patch.graphId = some record ∧ getRecord after sub.patch.graphId =
          some { record with currentVersion := record.currentVersion + 1 } ∧
        result.committedGraphVersion = record.currentVersion + 1 := by
  refine ⟨execute_wellFormed requests, fun sub env failure after raised => ?_,
    fun sub env result after returned fresh => ?_⟩
  · exact submitPatch_allOrNothing _ _ _ raised
  · rcases submitPatch_cases sub env (execute requests) with
      ⟨_, eq⟩ | ⟨_, eq⟩ | ⟨c, reached, rfl, rfl, eq⟩
    · rw [eq] at returned
      cases returned
    · rw [eq] at returned
      cases returned
      cases fresh
    · rw [eq] at returned
      cases returned
      have consistent : Consistent c.store := reached ▸ execute_consistent requests
      refine ⟨c.record, reached ▸ c.found, ?_, rfl⟩
      exact (Commit.after_record consistent c.graphId).trans (if_pos rfl)

/-- Two Tasks, one of which depends on the other. -/
def plannedTasks : List Request :=
  [.create "P" "G" [], .submit committedAction (patchOf "p1" 0 [addTask "T" 1, addTask "T::u@1" 1,
    addEdge "e1" "depends_on" "T" "T::u@1"])]

/-- On the planned Tasks, a patch for an outdated version raises, and one for
the current version creates the next. -/
theorem planned_tasks_wellFormed_and_atomic :
    WellFormed "G" (committedNodes (execute plannedTasks) "G") (committedEdges (execute plannedTasks) "G") ∧
    (submitPatch (patchOf "p2" 0 [addTask "U" 1]) committedAction (execute plannedTasks)).2 =
      execute plannedTasks ∧ ∃ record, getRecord (execute plannedTasks) "G" = some record ∧
      getRecord (submitPatch (patchOf "p2" 1 [addTask "U" 1]) committedAction (execute plannedTasks)).2
        "G" = some { record with currentVersion := record.currentVersion + 1 } := by
  have holds := committed_versions_are_wellFormed_and_atomic plannedTasks
  refine ⟨holds.1 "G", ?_, ?_⟩
  · have raised : (submitPatch (patchOf "p2" 0 [addTask "U" 1]) committedAction (execute plannedTasks)).1 =
          .error (.vpg .graphVersionConflict "expected graph version 0, current is 1") := by
      decide +kernel
    exact holds.2.1 _ _ _ _ (submitPatch_outcome raised)
  · have returned : (submitPatch (patchOf "p2" 1 [addTask "U" 1]) committedAction (execute plannedTasks)).1 =
          .ok { graphId := "G", patchId := "p2", committedGraphVersion := 2, patchApplied := true } := by
      decide +kernel
    obtain ⟨record, before, after, _⟩ := holds.2.2 _ _ _ _ (submitPatch_outcome returned) rfl
    exact ⟨record, before, after⟩

/-! ## Node identity and edge typing -/

/-- Every edge is one of the type table. -/
def Typed (nodes : List VPGNode) (edges : List VPGEdge) : Prop :=
  ∀ edge ∈ edges, edgeTypeAllowed edge.edgeType (typeAt nodes edge.sourceNodeId)
    (typeAt nodes edge.targetNodeId) = true

/-- The operation takes no node's place: the id that AttachArtifact synthesises
belongs to no committed node, and to no other kind of node of the candidate. -/
def Unoccupied (committed : List VPGNode) (cand : Candidate) : PatchOperation → Prop
  | .attachArtifact op =>
    attachedNodeId op.taskNodeId op.artifact ∉ committed.map VPGNode.nodeId ∧
      ∀ kind ∈ typeAt cand.nodes (attachedNodeId op.taskNodeId op.artifact), kind = .artifactRef
  | _ => True

section
/-- Storing a node under an id that is new, or that has its type, keeps edges typed. -/
theorem Typed.upsert (typed : Typed nodes edges) (same : ∀ kind ∈ typeAt nodes node.nodeId, kind = node.nodeType) :
    Typed (upsert VPGNode.nodeId node nodes) edges := by
  have kept : ∀ nodeId, typeAt nodes nodeId ≠ none →
      typeAt (KeyedRows.upsert VPGNode.nodeId node nodes) nodeId = typeAt nodes nodeId := by
    intro nodeId present
    rw [typeAt_upsert]
    split
    · rename_i here
      obtain ⟨kind, known⟩ := Option.ne_none_iff_exists'.mp present
      rw [known, same kind (here ▸ known)]
    · rfl
  intro edge member
  obtain ⟨source, target⟩ := edgeTypeAllowed_endpoints (typed edge member)
  rw [kept _ source, kept _ target]
  exact typed edge member

theorem Typed.add (typed : Typed nodes edges) (allowed : edgeTypeAllowed edge.edgeType (typeAt nodes edge.sourceNodeId)
      (typeAt nodes edge.targetNodeId) = true) : Typed nodes (edges ++ [edge]) := by
  intro other member
  rcases mem_append.mp member with old | new
  · exact typed other old
  rw [mem_singleton.mp new]
  exact allowed

end

/-- What an accepted patch leaves of the projection it started from. -/
structure Preserved (current : List VPGNode) (cand : Candidate) : Prop where
  kept : ∀ nodeId ∈ current.map VPGNode.nodeId, getNode cand.nodes nodeId = getNode current nodeId
  typed : Typed cand.nodes cand.edges

theorem applied_preserved {next} (unoccupied : Unoccupied current cand op)
    (before : Preserved current cand) (applied : Applied patch cand next op) : Preserved current next := by
  have known : ∀ nodeId ∈ current.map VPGNode.nodeId, nodeId ∈ cand.nodes.map VPGNode.nodeId := by
    intro nodeId member
    apply lookup_isSome.mp
    rw [← getNode, before.kept nodeId member]
    exact lookup_isSome.mpr member
  cases applied with
  | node fresh _ newId nodes edges _ _ =>
    refine ⟨fun nodeId member => ?_, ?_⟩
    · rw [nodes, getNode, lookup_upsert, if_neg, ← before.kept nodeId member, getNode]
      rintro rfl
      exact newId (known _ member)
    rw [nodes, edges]
    refine before.typed.upsert fun kind there => ?_
    rw [typeAt_none.mpr newId] at there
    cases there
  | edge _ fresh adds nodes =>
    refine ⟨nodes ▸ before.kept, ?_⟩
    rw [nodes, adds.edges]
    exact before.typed.add fresh.typed
  | artifact fresh named payload _ _ _ _ freshEdge adds nodes =>
    obtain ⟨uncommitted, otherKind⟩ := unoccupied
    refine ⟨fun nodeId member => ?_, ?_⟩
    · rw [nodes, getNode, lookup_upsert, if_neg, ← before.kept nodeId member, getNode]
      rintro rfl
      exact uncommitted (named ▸ member)
    have allowed := freshEdge.typed
    rw [nodes] at allowed
    rw [nodes, adds.edges]
    refine .add (before.typed.upsert fun kind there => ?_) allowed
    rw [otherKind kind (named ▸ there), VPGNode.nodeType, payload]
    rfl

theorem typed_perm (distinct : DistinctIds nodes) (nodesPerm : nodes'.Perm nodes)
    (edgesPerm : edges'.Perm edges) (typed : Typed nodes edges) : Typed nodes' edges' := by
  intro edge member
  have same := typeAt_frame (sameRecords_perm distinct nodesPerm)
  rw [same, same]
  exact typed edge (edgesPerm.mem_iff.mp member)

/-- A commit that takes no node's place keeps every node and types every edge. -/
theorem commit_preserved {c : Commit} (unoccupied : c.EachOperation (Unoccupied c.nodes))
    (typed : Typed c.nodes c.edges) : Preserved c.nodes c.cand :=
  validatePatch_conditional unoccupied ⟨fun _ _ => rfl, typed⟩
    (fun _ _ _ _ unoccupied before applied => applied_preserved unoccupied before applied) c.validated

theorem typed_derived {c : Commit} (typed : Typed c.cand.nodes c.cand.edges) : Typed c.derived c.cand.edges := by
  have frame := closed_frame (d := c.derivation) c.cand.nodes
  intro edge member
  rw [c.derived_eq, typeAt, typeAt, frame.payload, frame.payload]
  exact typed edge member

/-- The later node is the earlier one, with derived fields changed at most. -/
structure SameNode (before after : VPGNode) : Prop where
  nodeId : after.nodeId = before.nodeId
  nodeType : after.nodeType = before.nodeType
  createdInVersion : after.createdInVersion = before.createdInVersion
  payload : before.nodeType = .artifactRef ∨ before.nodeType = .evidence → after.payload = before.payload

/-- Every node committed by then is still there, and every edge is typed. -/
def IdentityAndTyping (earlier later : List Request) (graphId : String) : Prop :=
  (∀ node ∈ committedNodes (execute earlier) graphId,
    ∃ after ∈ committedNodes (execute (earlier ++ later)) graphId, SameNode node after) ∧
  Typed (committedNodes (execute (earlier ++ later)) graphId)
    (committedEdges (execute (earlier ++ later)) graphId)

instance (before after : VPGNode) : Decidable (SameNode before after) :=
  decidable_of_iff (after.nodeId = before.nodeId ∧ after.nodeType = before.nodeType ∧
      after.createdInVersion = before.createdInVersion ∧
      (before.nodeType = .artifactRef ∨ before.nodeType = .evidence → after.payload = before.payload))
    ⟨fun ⟨nodeId, nodeType, created, payload⟩ => ⟨nodeId, nodeType, created, payload⟩,
      fun same => ⟨same.nodeId, same.nodeType, same.createdInVersion, same.payload⟩⟩

instance (nodes : List VPGNode) (edges : List VPGEdge) : Decidable (Typed nodes edges) :=
  inferInstanceAs (Decidable (∀ edge ∈ edges, _))

instance (earlier later : List Request) (graphId : String) :
    Decidable (IdentityAndTyping earlier later graphId) :=
  inferInstanceAs (Decidable (_ ∧ _))

instance (committed : List VPGNode) (cand : Candidate) (op : PatchOperation) :
    Decidable (Unoccupied committed cand op) :=
  match op with
  | .attachArtifact _ => inferInstanceAs (Decidable (_ ∧ _))
  | .addNode _ | .addEdge _ | .attachEvidence _ => isTrue trivial

section
variable {earlier later : List Request}
  (unoccupied : ∀ c : Commit, c.In (earlier ++ later) → c.EachOperation (Unoccupied c.nodes))
include unoccupied

theorem execute_typed (graphId : String) : Typed (committedNodes (execute (earlier ++ later)) graphId)
    (committedEdges (execute (earlier ++ later)) graphId) := by
  refine execute_projection (fun _ member => nomatch member) typed_perm ?_ graphId
  exact fun c member typed => typed_derived (commit_preserved (unoccupied c member) typed).typed

/-- One commit keeps the identity of every node of its graph. -/
theorem commit_identity {c : Commit} (member : c.In (earlier ++ later))
    (stored : node ∈ committedNodes c.store c.graphId) :
    ∃ after ∈ committedNodes c.after c.graphId, DerivedFields node after := by
  have consistent := member.consistent
  obtain ⟨before, rest, split, reached⟩ := member
  have typed : Typed c.nodes c.edges := by
    have committed : Typed (committedNodes c.store c.graphId) (committedEdges c.store c.graphId) := by
      rw [reached]
      have prefixed : ∀ other : Commit, other.In ([] ++ before) →
          other.EachOperation (Unoccupied other.nodes) := fun other inside =>
        unoccupied other (split ▸ inside.append _)
      exact execute_typed prefixed c.graphId
    exact typed_perm consistent.distinctNodes c.nodes_perm c.edges_perm committed
  have preserved := commit_preserved (unoccupied c ⟨before, rest, split, reached⟩) typed
  have inSnapshot : node ∈ c.nodes := c.nodes_perm.mem_iff.mpr stored
  have found : getNode c.cand.nodes node.nodeId = some node := by
    rw [preserved.kept _ (mem_map_of_mem inSnapshot), getNode]
    exact lookup_of_mem (Commit.nodes_distinct consistent) inSnapshot
  obtain ⟨after, hit, same⟩ := (closed_frame c.cand.nodes).forward found
  exact ⟨after, (Commit.after_nodes consistent).mem_iff.mpr (lookup_mem hit), same⟩

/-- As long as AttachArtifact takes no node's place, a committed node keeps its
identity in every later version, and every edge is typed. -/
theorem node_identity_and_edge_typing (graphId : String) : IdentityAndTyping earlier later graphId := by
  refine ⟨fun node stored => ?_, execute_typed unoccupied graphId⟩
  have kept : ∃ after ∈ committedNodes (execute (earlier ++ later)) graphId,
      DerivedFields node after := by
    apply execute_invariant_from (P := fun store =>
      ∃ after ∈ committedNodes store graphId, DerivedFields node after) earlier
    · exact ⟨node, stored, .refl node⟩
    · intro store after same before
      rw [(same graphId).1]
      exact before
    · rintro c member ⟨current, found, same⟩
      by_cases here : graphId = c.graphId
      · subst here
        obtain ⟨after, hit, next⟩ := commit_identity unoccupied member found
        exact ⟨after, hit, same.trans next⟩
      · rw [(Commit.after_other member.consistent here).1]
        exact ⟨current, found, same⟩
  obtain ⟨after, found, same⟩ := kept
  refine ⟨after, found, same.nodeId, ?_, same.createdInVersion, fun _ => same.payload⟩
  rw [VPGNode.nodeType, VPGNode.nodeType, same.payload]

end

def attached (canonicalUri : String) : List Request :=
  [.submit committedAction (patchOf "p2" 1 [attachArtifact "e2" "T" (artifactAt canonicalUri 1)])]

/-- Attaching `u@1` to the Task `T` replaces the Task `T::u@1` by an artifact,
and leaves a dependency on it. -/
theorem attaching_replaces_planned_task : ¬ IdentityAndTyping plannedTasks (attached "u") "G" := by
  decide +kernel

/-- Attaching `v@1` takes no node's place. -/
theorem attaching_beside_planned_tasks :
    (committedNodes (execute (plannedTasks ++ attached "v")) "G").map VPGNode.nodeId =
      ["T", "T::u@1", "T::v@1"] ∧ IdentityAndTyping plannedTasks (attached "v") "G" := by
  refine ⟨by decide +kernel, node_identity_and_edge_typing (fun c member => ?_) "G"⟩
  exact eachOperation_commit (monitor_commit (eachOperation Unoccupied) (by decide +kernel) member)

end LongHorizonOS.GraphIntegrity
