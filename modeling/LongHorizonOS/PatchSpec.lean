import LongHorizonOS.PatchValidation
import Mathlib.Data.List.Dedup

/-! What an accepted patch does to the projection. Each operation adds an
admitted node under a new id, adds a typed edge under a new id, or attaches
an artifact, which stores a synthesised node and adds its edge. -/
namespace LongHorizonOS.PatchSpec
open KeyedRows GraphModels FailFast EvidenceVerification PatchValidation List

/-- A node as an accepted operation stores it. -/
structure FreshNode (patch : GraphPatchProposal) (node : VPGNode) : Prop where
  graphId : node.graphId = patch.graphId
  lifecycle : node.lifecycle = .admitted
  validity : node.validity = .unverified
  created : node.createdInVersion = proposedVersion patch
  updated : node.updatedInVersion = proposedVersion patch

/-- An edge as an accepted operation adds it to a candidate whose nodes are
then the given ones. -/
structure FreshEdge (patch : GraphPatchProposal) (cand : Candidate) (nodes : List VPGNode)
    (edge : VPGEdge) : Prop where
  newId : edge.edgeId ∉ cand.edges.map VPGEdge.edgeId
  graphId : edge.graphId = patch.graphId
  created : edge.createdInVersion = proposedVersion patch
  typed : edgeTypeAllowed edge.edgeType (typeAt nodes edge.sourceNodeId) (typeAt nodes edge.targetNodeId) = true

/-- The edge goes to the end of the edge list, and to the pending dependencies
if it is one. -/
structure AddsEdge (cand next : Candidate) (edge : VPGEdge) : Prop where
  edges : next.edges = cand.edges ++ [edge]
  newEdges : next.newEdges = cand.newEdges ++ [edge]
  pending : next.pendingDepEdges = cand.pendingDepEdges ++ if edge.edgeType = .dependsOn then [edge] else []

/-- Everything one accepted operation can do. -/
inductive Applied (patch : GraphPatchProposal) (cand next : Candidate) : PatchOperation → Prop
  | node {op : AddNodeOp} {node : VPGNode} (fresh : FreshNode patch node)
      (named : node.nodeId = op.nodeId) (newId : node.nodeId ∉ cand.nodes.map VPGNode.nodeId)
      (nodes : next.nodes = upsert VPGNode.nodeId node cand.nodes) (edges : next.edges = cand.edges)
      (newEdges : next.newEdges = cand.newEdges)
      (pending : next.pendingDepEdges = cand.pendingDepEdges) : Applied patch cand next (.addNode op)
  | edge {op : PatchOperation} {edge : VPGEdge} (notAttach : ∀ attach, op ≠ .attachArtifact attach)
      (fresh : FreshEdge patch cand cand.nodes edge) (adds : AddsEdge cand next edge)
      (nodes : next.nodes = cand.nodes) : Applied patch cand next op
  | artifact {op : AttachArtifactOp} {art : VPGNode} {edge : VPGEdge} (fresh : FreshNode patch art)
      (named : art.nodeId = attachedNodeId op.taskNodeId op.artifact)
      (payload : art.payload = .artifactRef op.artifact)
      (task : isTaskAt cand.nodes op.taskNodeId = true)
      (source : edge.sourceNodeId = op.taskNodeId) (target : edge.targetNodeId = art.nodeId)
      (kind : edge.edgeType = .produces)
      (freshEdge : FreshEdge patch cand next.nodes edge) (adds : AddsEdge cand next edge)
      (nodes : next.nodes = upsert VPGNode.nodeId art cand.nodes) :
      Applied patch cand next (.attachArtifact op)

section
variable {cand next : Candidate}

theorem checkEdgeTypeCombination_ok : checkEdgeTypeCombination edge nodes = .ok () ↔ edgeTypeAllowed edge.edgeType
    (typeAt nodes edge.sourceNodeId) (typeAt nodes edge.targetNodeId) = true := by
  unfold checkEdgeTypeCombination edgeTypeAllowed typeAt
  cases edge.edgeType <;> simp

/-- An edge of the type table has both endpoints. -/
theorem edgeTypeAllowed_endpoints (allowed : edgeTypeAllowed edgeType source target = true) :
    source ≠ none ∧ target ≠ none := by
  cases edgeType with
  | dependsOn =>
    simp only [edgeTypeAllowed, decide_eq_true_eq] at allowed
    obtain ⟨rfl | rfl, rfl⟩ := allowed <;> simp
  | produces =>
    simp only [edgeTypeAllowed, decide_eq_true_eq] at allowed
    obtain ⟨rfl, rfl⟩ | ⟨rfl, rfl⟩ := allowed <;> simp
  | verifies =>
    simp only [edgeTypeAllowed, decide_eq_true_eq] at allowed
    obtain ⟨rfl, rfl⟩ := allowed
    simp

/-- An admitted node is the built node with its lifecycle set. -/
theorem admitNode_admitted (admitted : (admitNode node graphId).admitted = true) :
    (admitNode node graphId).node = { node with lifecycle := .admitted, validity := .unverified } := by
  unfold admitNode at admitted ⊢
  dsimp only at admitted ⊢
  split at admitted
  · rename_i clean
    rw [if_pos clean]
  · cases admitted

theorem buildAddNode_ok (built : buildAddNode op graphId version = .ok node) :
    node.nodeId = op.nodeId ∧ node.graphId = graphId ∧ node.createdInVersion = version ∧
      node.updatedInVersion = version := by
  obtain ⟨payload, _, rest⟩ := bind_ok.mp built
  cases rest
  exact ⟨rfl, rfl, rfl, rfl⟩

theorem applyAddNode_ok (ran : applyAddNode patch cand op = .ok next) : Applied patch cand next (.addNode op) := by
  simp only [applyAddNode, require_bind_ok] at ran
  obtain ⟨_, newId, ran⟩ := ran
  obtain ⟨built, building, ran⟩ := bind_ok.mp ran
  obtain ⟨admitted, ran⟩ := require_bind_ok.mp ran
  cases ran
  obtain ⟨named, graph, created, updated⟩ := buildAddNode_ok building
  have shape := admitNode_admitted admitted
  refine .node ⟨?_, ?_, ?_, ?_, ?_⟩ ?_ ?_ rfl rfl rfl rfl
  all_goals rw [shape]
  · exact graph
  · exact created
  · exact updated
  · exact named
  rw [named]
  exact newId

theorem applyAddEdge_ok (ran : applyAddEdge patch cand op = .ok next) : Applied patch cand next (.addEdge op) := by
  obtain ⟨src, _, ran⟩ := bind_ok.mp ran
  obtain ⟨tgt, _, ran⟩ := bind_ok.mp ran
  obtain ⟨_, ran⟩ := require_bind_ok.mp ran
  obtain ⟨newId, ran⟩ := require_bind_ok.mp ran
  obtain ⟨edgeType, _, ran⟩ := bind_ok.mp ran
  obtain ⟨_, ran⟩ := require_bind_ok.mp ran
  obtain ⟨_, typed, ran⟩ := bind_ok.mp ran
  cases ran
  refine .edge (by simp) ⟨newId, rfl, rfl, checkEdgeTypeCombination_ok.mp typed⟩ ⟨rfl, rfl, ?_⟩ rfl
  by_cases kind : edgeType = .dependsOn <;> simp [kind]

/-- The synthesised id is longer than the id of its Task. -/
theorem attachedNodeId_ne (taskId) (binding) : attachedNodeId taskId binding ≠ taskId := by
  intro same
  have lengths := congrArg String.length same
  simp only [attachedNodeId, String.length_append] at lengths
  have separator : "::".length = 2 := rfl
  omega

theorem isTaskAt_iff_typeAt : isTaskAt nodes nodeId = true ↔ typeAt nodes nodeId = some .task := by
  simp [isTaskAt, typeAt]

theorem typeAt_upsert (node) (nodes) (nodeId) : typeAt (upsert VPGNode.nodeId node nodes) nodeId =
    if nodeId = node.nodeId then some node.nodeType else typeAt nodes nodeId := by
  rw [typeAt, payloadOf, getNode, lookup_upsert]
  split
  · rfl
  rfl

theorem typeAt_none : typeAt nodes nodeId = none ↔ nodeId ∉ nodes.map VPGNode.nodeId := by
  rw [typeAt, payloadOf, Option.map_eq_none_iff, Option.map_eq_none_iff, getNode, lookup_eq_none]

theorem applyAttachArtifact_ok (ran : applyAttachArtifact facts patch cand op = .ok next) :
    Applied patch cand next (.attachArtifact op) := by
  obtain ⟨task, ran⟩ := require_bind_ok.mp ran
  obtain ⟨_, _, ran⟩ := bind_ok.mp ran
  obtain ⟨newId, ran⟩ := require_bind_ok.mp ran
  cases ran
  have source := isTaskAt_iff_typeAt.mp task
  refine .artifact ⟨rfl, rfl, rfl, rfl, rfl⟩ rfl rfl task rfl rfl rfl ⟨newId, rfl, rfl, ?_⟩ ⟨rfl, rfl, by simp⟩ rfl
  simp only [typeAt_upsert]
  rw [if_neg (Ne.symm (attachedNodeId_ne _ _)), source]
  simp [edgeTypeAllowed, VPGNode.nodeType, Payload.nodeType]

theorem typeAt_evidence (hit : evidenceAt nodes nodeId = some found) : typeAt nodes nodeId = some .evidence := by
  obtain ⟨stored, kind⟩ := evidenceAt_some.mp hit
  simp [typeAt, payloadOf, stored, kind, Payload.nodeType]

theorem applyAttachEvidence_ok (ran : applyAttachEvidence patch cand op = .ok next) :
    Applied patch cand next (.attachEvidence op) := by
  obtain ⟨verification, ran⟩ := require_bind_ok.mp ran
  obtain ⟨found, evidence, ran⟩ := bind_ok.mp ran
  obtain ⟨newId, ran⟩ := require_bind_ok.mp ran
  cases ran
  have source : typeAt cand.nodes op.verificationNodeId = some .verification := by
    simpa [isVerificationAt, typeAt] using verification
  refine .edge (by simp) ⟨newId, rfl, rfl, ?_⟩ ⟨rfl, rfl, by simp⟩ rfl
  simp [edgeTypeAllowed, source, typeAt_evidence (demand_ok.mp evidence)]

theorem applyOperation_ok (ran : applyOperation facts patch cand op = .ok next) : Applied patch cand next op := by
  cases op with
  | addNode op => exact applyAddNode_ok ran
  | addEdge op => exact applyAddEdge_ok ran
  | attachArtifact op => exact applyAttachArtifact_ok ran
  | attachEvidence op => exact applyAttachEvidence_ok ran

/-- An operation appends events, all of which name the graph of the patch. -/
theorem applyOperation_events (ran : applyOperation facts patch cand op = .ok next) :
    ∃ new, next.events = cand.events ++ new ∧ ∀ event ∈ new, event.graphId = patch.graphId := by
  cases op with
  | addNode op =>
    obtain ⟨_, ran⟩ := require_bind_ok.mp ran
    obtain ⟨_, ran⟩ := require_bind_ok.mp ran
    obtain ⟨_, _, ran⟩ := bind_ok.mp ran
    obtain ⟨_, ran⟩ := require_bind_ok.mp ran
    cases ran
    exact ⟨_, rfl, by simp⟩
  | addEdge op =>
    obtain ⟨_, _, ran⟩ := bind_ok.mp ran
    obtain ⟨_, _, ran⟩ := bind_ok.mp ran
    obtain ⟨_, ran⟩ := require_bind_ok.mp ran
    obtain ⟨_, ran⟩ := require_bind_ok.mp ran
    obtain ⟨_, _, ran⟩ := bind_ok.mp ran
    obtain ⟨_, ran⟩ := require_bind_ok.mp ran
    obtain ⟨_, _, ran⟩ := bind_ok.mp ran
    cases ran
    exact ⟨_, rfl, by simp⟩
  | attachArtifact op | attachEvidence op =>
    obtain ⟨_, ran⟩ := require_bind_ok.mp ran
    obtain ⟨_, _, ran⟩ := bind_ok.mp ran
    obtain ⟨_, ran⟩ := require_bind_ok.mp ran
    cases ran
    exact ⟨_, rfl, by simp⟩

theorem mem_ids_upsert (member : nodeId ∈ nodes.map VPGNode.nodeId) :
    nodeId ∈ (upsert VPGNode.nodeId node nodes).map VPGNode.nodeId := by
  rw [map_key_upsert]
  split
  · exact member
  exact mem_append_left _ member

/-- No operation takes a node away. -/
theorem Applied.known (applied : Applied patch cand next op)
    (member : nodeId ∈ cand.nodes.map VPGNode.nodeId) : nodeId ∈ next.nodes.map VPGNode.nodeId := by
  cases applied with
  | node _ _ _ nodes _ _ _ => rw [nodes]; exact mem_ids_upsert member
  | edge _ _ _ nodes => rw [nodes]; exact member
  | artifact _ _ _ _ _ _ _ _ _ nodes => rw [nodes]; exact mem_ids_upsert member

end

/-! ## Coherent projections -/

/-- Distinct ids, one graph, and edges between its nodes. -/
structure Coherent (graphId : String) (nodes : List VPGNode) (edges : List VPGEdge) : Prop where
  distinctNodes : (nodes.map VPGNode.nodeId).Nodup
  distinctEdges : (edges.map VPGEdge.edgeId).Nodup
  nodesHere : ∀ node ∈ nodes, node.graphId = graphId
  edgesHere : ∀ edge ∈ edges, edge.graphId = graphId
  endpoints : ∀ edge ∈ edges, edge.sourceNodeId ∈ nodes.map VPGNode.nodeId ∧
    edge.targetNodeId ∈ nodes.map VPGNode.nodeId

section
theorem Coherent.storeNode (coherent : Coherent graphId nodes edges) (here : node.graphId = graphId) :
    Coherent graphId (upsert VPGNode.nodeId node nodes) edges := by
  refine ⟨nodup_upsert coherent.distinctNodes, coherent.distinctEdges, fun other member => ?_,
    coherent.edgesHere, fun edge member => ?_⟩
  · rcases mem_upsert member with rfl | old
    · exact here
    exact coherent.nodesHere other old
  · obtain ⟨source, target⟩ := coherent.endpoints edge member
    exact ⟨mem_ids_upsert source, mem_ids_upsert target⟩

theorem Coherent.addEdge (coherent : Coherent graphId nodes edges)
    (newId : edge.edgeId ∉ edges.map VPGEdge.edgeId) (here : edge.graphId = graphId)
    (typed : edgeTypeAllowed edge.edgeType (typeAt nodes edge.sourceNodeId)
      (typeAt nodes edge.targetNodeId) = true) : Coherent graphId nodes (edges ++ [edge]) := by
  have ends := edgeTypeAllowed_endpoints typed
  simp only [ne_eq, typeAt_none, not_not] at ends
  refine ⟨coherent.distinctNodes, ?_, coherent.nodesHere, fun other member => ?_, fun other member => ?_⟩
  · rw [map_append]
    exact nodup_append_single coherent.distinctEdges newId
  · rcases mem_append.mp member with old | new
    · exact coherent.edgesHere other old
    rw [mem_singleton.mp new]
    exact here
  rcases mem_append.mp member with old | new
  · exact coherent.endpoints other old
  rw [mem_singleton.mp new]
  exact ends

end

/-! ## Whole patches -/

theorem dependsOn_nodes (depends : target ∈ targetsOf edges .dependsOn source) :
    source ∈ dependsOnNodes edges ∧ target ∈ dependsOnNodes edges := by
  obtain ⟨edge, member, kind, rfl, rfl⟩ := mem_targetsOf.mp depends
  simp only [dependsOnNodes, mem_dedup, mem_flatMap]
  exact ⟨⟨edge, member, by simp [kind]⟩, ⟨edge, member, by simp [kind]⟩⟩

section
variable {order : List String}
  (all : ∀ nodeId, nodeId ∈ order ↔ nodeId ∈ dependsOnNodes (existing ++ new))
include all

theorem dependsOn_closed : ∀ node ∈ order, ∀ child ∈ dependsOnAdj existing new node, child ∈ order :=
  fun _ _ child edge => (all child).mpr (dependsOn_nodes edge).2

/-- A reported cycle is one, whatever the order of the nodes. -/
theorem search_walk (found : ThreeColourSearch.search (dependsOnAdj existing new) order = some cycle) :
    ThreeColourSearch.ClosedWalk (dependsOnAdj existing new) cycle := by
  have verdict := (ThreeColourSearch.search_spec (dependsOn_closed all)).1
  rwa [found] at verdict

end

section
/-- The candidate before any operation. -/
def baseline (req : PatchValidationRequest) : Candidate :=
  { nodes := req.currentNodes, edges := req.currentEdges }

/-- An accepted patch has run all its operations, and no dependency cycle was found. -/
theorem validatePatch_ok (ran : validatePatch req = .ok cand) :
    req.patch.operations.foldlM (applyOperation req.facts req.patch) (baseline req) = .ok cand ∧
      detectCycle req.currentEdges cand.pendingDepEdges = none := by
  obtain ⟨_, ran⟩ := require_bind_ok.mp ran
  obtain ⟨_, ran⟩ := require_bind_ok.mp ran
  obtain ⟨next, folded, ran⟩ := bind_ok.mp ran
  split at ran
  · rename_i cycle found
    obtain ⟨short, _⟩ := require_bind_ok.mp ran
    have long := (search_walk (fun _ => .rfl) found).1
    omega
  · rename_i none
    cases ran
    exact ⟨folded, none⟩

/-- Each operation meets the condition on the candidate that it finds. -/
def EachOperation (req : PatchValidationRequest) (condition : Candidate → PatchOperation → Prop) : Prop :=
  ∀ earlier op later cand, req.patch.operations = earlier ++ op :: later →
    earlier.foldlM (applyOperation req.facts req.patch) (baseline req) = .ok cand → condition cand op

variable {P : Candidate → Prop} {node : VPGNode}

/-- The rule for a fact about the candidate: it holds of the projection and
every applied operation that meets the condition keeps it. -/
theorem validatePatch_conditional (each : EachOperation req condition) (holds : P (baseline req))
    (step : ∀ cand next op, op ∈ req.patch.operations → condition cand op → P cand →
      Applied req.patch cand next op → P next) (ran : validatePatch req = .ok cand) : P cand := by
  refine foldlM_invariant (fun earlier op later cand next split reached kept applied => ?_) holds
    (validatePatch_ok ran).1
  exact step cand next op (by simp [split]) (each earlier op later cand split reached) kept
    (applyOperation_ok applied)

theorem validatePatch_invariant (holds : P (baseline req))
    (step : ∀ cand next op, op ∈ req.patch.operations → P cand → Applied req.patch cand next op → P next)
    (ran : validatePatch req = .ok cand) : P cand :=
  validatePatch_conditional (fun _ _ _ _ _ _ => trivial : EachOperation req fun _ _ => True) holds
    (fun cand next op member _ => step cand next op member) ran

/-- What the candidate holds under an id: the node of the projection, or a node
that the patch has stored, which is an artifact if it took another's place. -/
def CandidateNode (patch : GraphPatchProposal) (current : List VPGNode) (nodeId : String)
    (node : VPGNode) : Prop :=
  getNode current nodeId = some node ∨
    FreshNode patch node ∧ (nodeId ∈ current.map VPGNode.nodeId → node.nodeType = .artifactRef)

theorem validatePatch_node (ran : validatePatch req = .ok cand)
    (found : getNode cand.nodes nodeId = some node) : CandidateNode req.patch req.currentNodes nodeId node := by
  have holds : (∀ nodeId node, getNode cand.nodes nodeId = some node →
      CandidateNode req.patch req.currentNodes nodeId node) ∧
      ∀ nodeId ∈ req.currentNodes.map VPGNode.nodeId, nodeId ∈ cand.nodes.map VPGNode.nodeId := by
    refine validatePatch_invariant (P := fun cand => (∀ nodeId node,
      getNode cand.nodes nodeId = some node → CandidateNode req.patch req.currentNodes nodeId node) ∧
      ∀ nodeId ∈ req.currentNodes.map VPGNode.nodeId, nodeId ∈ cand.nodes.map VPGNode.nodeId)
      ⟨fun _ _ => .inl, fun _ => id⟩ ?_ ran
    rintro cand next op _ ⟨kept, known⟩ applied
    refine ⟨fun nodeId node hit => ?_, fun nodeId member => applied.known (known nodeId member)⟩
    have stored : ∀ {new : VPGNode}, FreshNode req.patch new →
        (new.nodeId ∈ req.currentNodes.map VPGNode.nodeId → new.nodeType = .artifactRef) →
        next.nodes = upsert VPGNode.nodeId new cand.nodes →
        CandidateNode req.patch req.currentNodes nodeId node := by
      intro new fresh replaces nodes
      rw [nodes, getNode, lookup_upsert] at hit
      split at hit
      · rename_i here
        cases hit
        exact .inr ⟨fresh, here ▸ replaces⟩
      · exact kept nodeId node hit
    cases applied with
    | node fresh _ newId nodes _ _ _ =>
      exact stored fresh (fun member => absurd (known _ member) newId) nodes
    | edge _ _ _ nodes =>
      rw [nodes] at hit
      exact kept nodeId node hit
    | artifact fresh _ payload _ _ _ _ _ _ nodes =>
      exact stored fresh (fun _ => by rw [VPGNode.nodeType, payload]; rfl) nodes
  exact holds.1 nodeId node found

/-- The operation takes the place of no node of these types. -/
def Spares (kinds : NodeType → Prop) (cand : Candidate) : PatchOperation → Prop
  | .attachArtifact op => ∀ kind ∈ typeAt cand.nodes (attachedNodeId op.taskNodeId op.artifact), ¬ kinds kind
  | _ => True

instance (kinds : NodeType → Prop) [DecidablePred kinds] (cand : Candidate) (op : PatchOperation) :
    Decidable (Spares kinds cand op) :=
  match op with
  | .attachArtifact op =>
    match found : typeAt cand.nodes (attachedNodeId op.taskNodeId op.artifact) with
    | some kind => decidable_of_iff (¬ kinds kind) (by simp [Spares, found])
    | none => isTrue (by simp [Spares, found])
  | .addNode _ | .addEdge _ | .attachEvidence _ => isTrue trivial

/-- An operation keeps every node whose place it does not take. -/
theorem Applied.keeps {next} (applied : Applied patch cand next op)
    (kept : getNode cand.nodes nodeId = some node) (free : ∀ attach, op = .attachArtifact attach →
      attachedNodeId attach.taskNodeId attach.artifact ≠ nodeId) : getNode next.nodes nodeId = some node := by
  have present : nodeId ∈ cand.nodes.map VPGNode.nodeId :=
    lookup_isSome.mp (Option.isSome_iff_exists.mpr ⟨node, kept⟩)
  cases applied with
  | node _ _ newId nodes _ _ _ =>
    rw [nodes, getNode, lookup_upsert, if_neg, ← getNode, kept]
    rintro rfl
    exact newId present
  | edge _ _ _ nodes =>
    rw [nodes]
    exact kept
  | artifact _ named _ _ _ _ _ _ _ nodes =>
    rw [nodes, getNode, lookup_upsert, if_neg, ← getNode, kept]
    rintro rfl
    exact free _ rfl named.symm

/-- Nodes of spared types are in the candidate as they were. -/
theorem validatePatch_spared (spares : EachOperation req (Spares kinds))
    (ran : validatePatch req = .ok cand) (found : getNode req.currentNodes nodeId = some node)
    (spared : kinds node.nodeType) : getNode cand.nodes nodeId = some node := by
  refine validatePatch_conditional (P := fun cand => getNode cand.nodes nodeId = some node) spares found ?_ ran
  intro cand next op _ spares kept applied
  refine applied.keeps kept ?_
  rintro attach rfl rfl
  refine spares node.nodeType ?_ spared
  rw [typeAt, payloadOf, kept]
  rfl

section
variable (ran : validatePatch req = .ok cand)
include ran

/-- A node is in the candidate as it was, if no AttachArtifact takes its place. -/
theorem validatePatch_keeps (found : getNode req.currentNodes nodeId = some node)
    (free : ∀ attach, .attachArtifact attach ∈ req.patch.operations →
      attachedNodeId attach.taskNodeId attach.artifact ≠ nodeId) : getNode cand.nodes nodeId = some node := by
  refine validatePatch_invariant (P := fun cand => getNode cand.nodes nodeId = some node) found ?_ ran
  intro cand next op member kept applied
  refine applied.keeps kept ?_
  rintro attach rfl
  exact free attach member

/-- Edges are only added. -/
theorem validatePatch_edges (member : edge ∈ req.currentEdges) : edge ∈ cand.edges := by
  refine validatePatch_invariant (P := fun cand => edge ∈ cand.edges) member ?_ ran
  intro cand next op _ kept applied
  cases applied with
  | node _ _ _ _ edges _ _ => rw [edges]; exact kept
  | edge _ _ adds _ => rw [adds.edges]; exact mem_append_left _ kept
  | artifact _ _ _ _ _ _ _ _ adds _ => rw [adds.edges]; exact mem_append_left _ kept

theorem validatePatch_known (member : nodeId ∈ req.currentNodes.map VPGNode.nodeId) :
    nodeId ∈ cand.nodes.map VPGNode.nodeId := by
  refine validatePatch_invariant (P := fun cand => nodeId ∈ cand.nodes.map VPGNode.nodeId) member ?_ ran
  exact fun cand next op _ kept applied => applied.known kept

theorem validatePatch_newEdges : cand.edges = req.currentEdges ++ cand.newEdges := by
  refine validatePatch_invariant (P := fun cand => cand.edges = req.currentEdges ++ cand.newEdges)
    (by simp [baseline]) ?_ ran
  intro cand next op _ kept applied
  cases applied with
  | node _ _ _ _ edges newEdges _ => rw [edges, newEdges, kept]
  | edge _ _ adds _ => rw [adds.edges, adds.newEdges, kept, append_assoc]
  | artifact _ _ _ _ _ _ _ _ adds _ => rw [adds.edges, adds.newEdges, kept, append_assoc]

/-- The candidate of a coherent projection is coherent. -/
theorem validatePatch_coherent (coherent : Coherent req.patch.graphId req.currentNodes req.currentEdges) :
    Coherent req.patch.graphId cand.nodes cand.edges := by
  refine validatePatch_invariant (P := fun cand => Coherent req.patch.graphId cand.nodes cand.edges) coherent ?_ ran
  intro cand next op _ kept applied
  cases applied with
  | node fresh _ _ nodes edges _ _ =>
    rw [nodes, edges]
    exact kept.storeNode fresh.graphId
  | edge _ fresh adds nodes =>
    rw [nodes, adds.edges]
    exact kept.addEdge fresh.newId fresh.graphId fresh.typed
  | artifact fresh _ _ _ _ _ _ freshEdge adds nodes =>
    have typed := freshEdge.typed
    rw [nodes] at typed
    rw [nodes, adds.edges]
    exact (kept.storeNode fresh.graphId).addEdge freshEdge.newId freshEdge.graphId typed

theorem validatePatch_events : ∀ event ∈ cand.events, event.graphId = req.patch.graphId := by
  refine foldlM_invariant (P := fun cand : Candidate =>
    ∀ event ∈ cand.events, event.graphId = req.patch.graphId) ?_ ?_ (validatePatch_ok ran).1
  · intro _ op _ cand next _ _ kept applied event member
    obtain ⟨new, events, named⟩ := applyOperation_events applied
    rw [events] at member
    exact (mem_append.mp member).elim (kept event) (named event)
  · intro event member
    cases member

end

end
end LongHorizonOS.PatchSpec
