import LongHorizonOS.EvidenceVerification
import LongHorizonOS.ThreeColourSearch

/-! Patch validation: admission of new nodes, the edge type table, the cycle
check, and the pass over the operations of a patch that builds the candidate
projection or raises. -/
namespace LongHorizonOS.PatchValidation
open KeyedRows PythonValues GraphModels FailFast EvidenceVerification

/-! ## Admission -/

structure AdmissionResult where
  node : VPGNode
  admitted : Bool
  messages : List String

/-- `_check_task_execution_spec`: the first forbidden entry. -/
def checkTaskExecutionSpec (spec : Dict) : Option String :=
  spec.findSome? fun (key, value) =>
    if lower key ∈ ["callback", "callable", "fn", "function", "lambda_code", "exec"] then
      some ("execution_spec key '" ++ key ++ "' forbidden")
    else match value with
      | .str text => if (strip text).toList.head? = some '/' then
          some ("execution_spec contains host path: " ++ text) else none
      | _ => none

/-- A message when the condition holds. -/
def complain (condition : Prop) [Decidable condition] (message : String) : List String :=
  if condition then [message] else []

/-- What is wrong with the fields of one node type. -/
def payloadMessages : Payload → List String
  | .goal fields => complain (fields.title = "") "GoalNode.title required"
  | .task fields => (checkTaskExecutionSpec fields.executionSpec).toList ++
      complain (fields.requiredVerificationCount < 1) "TaskNode.required_verification_count must be >= 1"
  | .artifactRef fields =>
      complain (fields.canonicalUri = "" ∨ fields.artifactId = "" ∨ fields.contentHash = "")
        "ArtifactRefNode requires canonical_uri/artifact_id/content_hash" ++
      complain (fields.version < 0) "ArtifactRefNode.version must be set"
  | .verification fields =>
      complain (fields.verificationKind = "") "VerificationNode.verification_kind required"
  | .evidence fields =>
      complain (fields.sourceActionId.getD "" = "") "EvidenceNode.source_action_id required"

def admitNode (node : VPGNode) (graphId : String) : AdmissionResult :=
  let messages := complain (node.graphId ≠ graphId)
      ("node.graph_id=" ++ node.graphId ++ " != graph_id=" ++ graphId) ++
    complain (node.lifecycle ≠ .proposed) ("fresh nodes must be PROPOSED, got " ++ node.lifecycle.value) ++
    complain (node.validity ≠ .unverified) ("fresh nodes must be UNVERIFIED, got " ++ node.validity.value) ++
    payloadMessages node.payload
  if messages = [] then
    ⟨{ node with lifecycle := .admitted, validity := .unverified }, true, messages⟩
  else ⟨{ node with validity := .invalid }, false, messages⟩

/-! ## Nodes and edges built from operations -/

/-- `EvidenceResult(text)` -/
def parseResult (text : String) : Except Failure EvidenceResult :=
  match text with
  | "pass" => .ok .pass
  | "fail" => .ok .fail
  | "inconclusive" => .ok .inconclusive
  | _ => .error (.value (quoted text ++ " is not a valid EvidenceResult"))

/-- `EdgeType(text)` -/
def parseEdgeType (text : String) : Except Failure EdgeType :=
  match text with
  | "depends_on" => .ok .dependsOn
  | "produces" => .ok .produces
  | "verifies" => .ok .verifies
  | _ => .error (.value (quoted text ++ " is not a valid EdgeType"))

/-- The validator of `provenance_digest`. -/
def provenanceDigestIsSha256 : Option String → Except Failure (Option String)
  | none => .ok none
  | some text => do
    let normalized := lower (strip text)
    require (normalized.toList.length = 64 ∧
        normalized.toList.all fun c => decide (c ∈ "0123456789abcdef".toList))
      (.value "provenance_digest must be a 64-character SHA-256 hex digest")
    return some normalized

/-- The typed fields of `_build_add_node`. -/
def buildPayload (op : AddNodeOp) : Except Failure Payload :=
  match op.nodeType with
  | "goal" => .ok (.goal ⟨op.title, op.description⟩)
  | "task" => .ok (.task ⟨op.title, op.description, op.taskKind, op.executionSpec,
      op.requiredVerificationCount⟩)
  | "artifact_ref" => .ok (.artifactRef ⟨op.canonicalUri, op.artifactId, op.version.getD (-1),
      op.contentHash, op.mediaType⟩)
  | "verification" => .ok (.verification ⟨op.verificationKind, op.obligation, op.sourceActionId⟩)
  | "evidence" => do
    let result ← parseResult op.result
    let provenanceDigest ← provenanceDigestIsSha256 op.provenanceDigest
    return .evidence
      { evidenceKind := op.evidenceKind
        result := result
        sourceVerificationId := op.sourceVerificationId
        sourceActionId := op.evidenceSourceActionId
        sourceEventIds := op.sourceEventIds
        artifactBindings := op.artifactBindings
        evidenceContentRef := op.evidenceContentRef
        evidenceHash := op.evidenceHash
        producedByPid := op.producedByPid
        claimId := op.claimId
        attemptId := op.attemptId
        semanticEpoch := op.semanticEpoch
        leaseFencingToken := op.leaseFencingToken
        provenanceDigest := provenanceDigest
        contextSnapshotId := op.contextSnapshotId
        contextManifestId := op.contextManifestId
        contextManifestHash := op.contextManifestHash
        contextWorkingSetHash := op.contextWorkingSetHash
        contextMaterializedHash := op.contextMaterializedHash }
  | other => .error (.vpg .invalidNodeType ("unknown node_type: " ++ other))

/-- `_build_add_node` -/
def buildAddNode (op : AddNodeOp) (graphId : String) (version : Int) : Except Failure VPGNode := do
  let payload ← buildPayload op
  return { nodeId := op.nodeId, graphId := graphId, lifecycle := .proposed, validity := .unverified,
           createdInVersion := version, updatedInVersion := version,
           createdByPid := op.createdByPid, metadata := op.metadata, payload := payload }

/-- `type(node).__name__` -/
def className : Option Payload → String
  | none => "NoneType"
  | some (.goal _) => "GoalNode"
  | some (.task _) => "TaskNode"
  | some (.artifactRef _) => "ArtifactRefNode"
  | some (.verification _) => "VerificationNode"
  | some (.evidence _) => "EvidenceNode"

/-- `type(node).__name__ if node else None` -/
def classNameOrNone (payload : Option Payload) : String :=
  if payload = none then "None" else className payload

def typeAt (nodes : List VPGNode) (nodeId : String) : Option NodeType :=
  (payloadOf nodes nodeId).map Payload.nodeType

theorem typeAt_frame (same : SameRecords before after) (nodeId : String) :
    typeAt after nodeId = typeAt before nodeId := by
  rw [typeAt, typeAt, same.payload]

/-- The edge type table. -/
def edgeTypeAllowed (edgeType : EdgeType) (source target : Option NodeType) : Bool :=
  match edgeType with
  | .dependsOn => decide ((source = some .goal ∨ source = some .task) ∧ target = some .task)
  | .produces => decide (source = some .task ∧ target = some .artifactRef ∨
      source = some .verification ∧ target = some .evidence)
  | .verifies => decide (source = some .verification ∧ target = some .task)

/-- `_check_edge_type_combination` -/
def checkEdgeTypeCombination (edge : VPGEdge) (nodes : List VPGNode) : Except Failure Unit :=
  let src := payloadOf nodes edge.sourceNodeId
  let tgt := payloadOf nodes edge.targetNodeId
  let reject := fun message : String => Failure.vpg .invalidEdgeTypeCombination message
  match edge.edgeType with
  | .dependsOn => do
    require (src.map Payload.nodeType = some .goal ∨ src.map Payload.nodeType = some .task)
      (reject ("depends_on source must be Goal|Task, got " ++ classNameOrNone src))
    require (tgt.map Payload.nodeType = some .task)
      (reject ("depends_on target must be Task, got " ++ classNameOrNone tgt))
  | .produces =>
    require (src.map Payload.nodeType = some .task ∧ tgt.map Payload.nodeType = some .artifactRef ∨
        src.map Payload.nodeType = some .verification ∧ tgt.map Payload.nodeType = some .evidence)
      (reject ("produces edge must be Task->ArtifactRef or Verification->Evidence, got " ++
        className src ++ "->" ++ className tgt))
  | .verifies => do
    require (src.map Payload.nodeType = some .verification)
      (reject ("verifies source must be Verification, got " ++ classNameOrNone src))
    require (tgt.map Payload.nodeType = some .task)
      (reject ("verifies target must be Task, got " ++ classNameOrNone tgt))

/-- `f"{task_id}::{binding.canonical_uri}@{binding.version}"` -/
def attachedNodeId (taskId : String) (binding : ArtifactVersionBinding) : String :=
  taskId ++ "::" ++ binding.canonicalUri ++ "@" ++ toString binding.version

/-- `_attach_artifact_produces` -/
def attachArtifactProduces (taskId taskPid : String) (binding : ArtifactVersionBinding)
    (graphId : String) (version : Int) (edgeId : String) : VPGNode × VPGEdge :=
  let nodeId := attachedNodeId taskId binding
  ({ nodeId := nodeId, graphId := graphId, lifecycle := .admitted, validity := .unverified,
     createdInVersion := version, updatedInVersion := version, createdByPid := taskPid,
     metadata := [], payload := .artifactRef binding },
   { edgeId := edgeId, graphId := graphId, edgeType := .produces, sourceNodeId := taskId,
     targetNodeId := nodeId, createdInVersion := version, createdByPid := taskPid })

/-- `_validate_artifact_binding_against_sdk` -/
def validateArtifactBindingAgainstSdk (binding : ArtifactVersionBinding) (pid : String)
    (provider : Option ArtifactFactProvider) : Except Failure Unit :=
  match provider with
  | none => pure ()
  | some facts => do
    require (facts.artifactExists pid binding.canonicalUri binding.version) (.vpg .artifactNotFound
        (binding.canonicalUri ++ "@" ++ toString binding.version ++ " not found"))
    require (facts.verifyBinding pid binding) (.vpg .artifactHashMismatch
        (binding.canonicalUri ++ "@" ++ toString binding.version ++ " hash mismatch"))

/-! ## Cycle detection -/

/-- `_depends_on_adj` -/
def dependsOnAdj (existing new : List VPGEdge) (source : String) : List String :=
  targetsOf (existing ++ new) .dependsOn source

/-- Every endpoint of a DEPENDS_ON edge, once. Python iterates over a set here;
which cycle is reported depends on that order, whether one is found does not. -/
def dependsOnNodes (edges : List VPGEdge) : List String :=
  (edges.flatMap fun edge =>
    if edge.edgeType = .dependsOn then [edge.sourceNodeId, edge.targetNodeId] else []).dedup

def detectCycle (existing new : List VPGEdge) : Option (List String) :=
  ThreeColourSearch.search (dependsOnAdj existing new) (dependsOnNodes (existing ++ new))

def isSelfLoop (edge : VPGEdge) : Bool :=
  decide (edge.edgeType = .dependsOn ∧ edge.sourceNodeId = edge.targetNodeId)

def executionCycle (path : List String) : Failure :=
  .vpg .graphExecutionCycle ("execution cycle detected: " ++ " -> ".intercalate path)

/-! ## The pass over the operations -/

/-- Max operations per patch. -/
def maxPatchOps : ℕ := 500

structure PatchValidationRequest where
  patch : GraphPatchProposal
  currentNodes : List VPGNode
  currentEdges : List VPGEdge
  facts : Facts := {}
  allowEmptyOperations : Bool := false
  allowLargeOperations : Bool := false

/-- The projection under construction. `cand_edge_ids` is the set of the ids of
`edges` throughout, so membership is tested on `edges` itself. -/
structure Candidate where
  nodes : List VPGNode
  edges : List VPGEdge
  newEdges : List VPGEdge := []
  pendingDepEdges : List VPGEdge := []
  events : List GraphEvent := []

section
variable (facts : Facts) (patch : GraphPatchProposal)

def proposedVersion : Int := patch.expectedGraphVersion + 1

def applyAddNode (cand : Candidate) (op : AddNodeOp) : Except Failure Candidate := do
  require (op.graphId = patch.graphId)
    (.vpg .edgeCrossGraph ("node " ++ quoted op.nodeId ++ " declares graph " ++ quoted op.graphId ++
      ", but patch targets " ++ quoted patch.graphId))
  require (op.nodeId ∉ cand.nodes.map VPGNode.nodeId)
    (.vpg .nodeAlreadyExists ("node already exists: " ++ op.nodeId))
  let built ← buildAddNode op patch.graphId (proposedVersion patch)
  let admission := admitNode built patch.graphId
  require (admission.admitted) (.vpg .patchRejected ("node " ++ op.nodeId ++ " failed admission: " ++
      quotedTuple admission.messages))
  let node := admission.node
  let event := fun eventType : GraphEventType =>
    { graphId := patch.graphId, eventType := eventType, causationPatchId := some patch.patchId,
      subjectId := some node.nodeId, subjectKind := some "node", nodeId := some node.nodeId,
      toLifecycle := some node.lifecycle.value, toValidity := some node.validity.value,
      graphVersion := some (proposedVersion patch) : GraphEvent }
  return { cand with nodes := upsert VPGNode.nodeId node cand.nodes
                     events := cand.events ++ [event .nodeAdded, event .nodeAdmitted] }

def applyAddEdge (cand : Candidate) (op : AddEdgeOp) : Except Failure Candidate := do
  let src ← demand (getNode cand.nodes op.sourceNodeId)
    (.vpg .edgeSourceNotFound ("edge source not found: " ++ op.sourceNodeId))
  let tgt ← demand (getNode cand.nodes op.targetNodeId)
    (.vpg .edgeTargetNotFound ("edge target not found: " ++ op.targetNodeId))
  require (src.graphId = patch.graphId ∧ tgt.graphId = patch.graphId)
    (.vpg .edgeCrossGraph "edge crosses graph")
  require (op.edgeId ∉ cand.edges.map VPGEdge.edgeId)
    (.vpg .edgeAlreadyExists ("edge already exists: " ++ op.edgeId))
  let edgeType ← parseEdgeType op.edgeType
  let newEdge : VPGEdge :=
    { edgeId := op.edgeId, graphId := patch.graphId, edgeType := edgeType,
      sourceNodeId := op.sourceNodeId, targetNodeId := op.targetNodeId,
      createdInVersion := proposedVersion patch, createdByPid := op.createdByPid }
  require (isSelfLoop newEdge = false) (executionCycle [newEdge.sourceNodeId, newEdge.targetNodeId])
  checkEdgeTypeCombination newEdge cand.nodes
  return { cand with
    edges := cand.edges ++ [newEdge]
    newEdges := cand.newEdges ++ [newEdge]
    pendingDepEdges := if newEdge.edgeType = .dependsOn then cand.pendingDepEdges ++ [newEdge]
      else cand.pendingDepEdges
    events := cand.events ++ [
      { graphId := patch.graphId, eventType := .edgeAdded, causationPatchId := some patch.patchId,
        subjectId := some newEdge.edgeId, subjectKind := some "edge",
        graphVersion := some (proposedVersion patch) }] }

/-- The synthesised artifact node is stored under its id whether or not a node
with that id exists. -/
def applyAttachArtifact (cand : Candidate) (op : AttachArtifactOp) : Except Failure Candidate := do
  require (isTaskAt cand.nodes op.taskNodeId)
    (.vpg .nodeNotFound ("attach_artifact: task_node_id " ++ op.taskNodeId ++ " not found"))
  validateArtifactBindingAgainstSdk op.artifact op.createdByPid facts.artifact
  let (art, edge) := attachArtifactProduces op.taskNodeId op.createdByPid op.artifact patch.graphId
    (proposedVersion patch) op.edgeId
  require (op.edgeId ∉ cand.edges.map VPGEdge.edgeId)
    (.vpg .edgeAlreadyExists ("edge already exists: " ++ op.edgeId))
  return { cand with
    nodes := upsert VPGNode.nodeId art cand.nodes
    edges := cand.edges ++ [edge]
    newEdges := cand.newEdges ++ [edge]
    events := cand.events ++ [
      { graphId := patch.graphId, eventType := .artifactAttached,
        causationPatchId := some patch.patchId, subjectId := some art.nodeId,
        subjectKind := some "artifact", nodeId := some art.nodeId,
        toLifecycle := some art.lifecycle.value, graphVersion := some (proposedVersion patch) }] }

/-- The Evidence is not required to be valid, nor to name this Verification;
the result of `validate_evidence` is discarded here. -/
def applyAttachEvidence (cand : Candidate) (op : AttachEvidenceOp) : Except Failure Candidate := do
  require (isVerificationAt cand.nodes op.verificationNodeId)
    (.vpg .nodeNotFound ("verification node " ++ op.verificationNodeId ++ " not found"))
  let _ ← demand (evidenceAt cand.nodes op.evidenceNodeId)
    (.vpg .nodeNotFound ("evidence node " ++ op.evidenceNodeId ++ " not found"))
  let edge : VPGEdge :=
    { edgeId := op.edgeId, graphId := patch.graphId, edgeType := .produces,
      sourceNodeId := op.verificationNodeId, targetNodeId := op.evidenceNodeId,
      createdInVersion := proposedVersion patch, createdByPid := op.createdByPid }
  require (op.edgeId ∉ cand.edges.map VPGEdge.edgeId)
    (.vpg .edgeAlreadyExists ("edge already exists: " ++ op.edgeId))
  return { cand with
    edges := cand.edges ++ [edge]
    newEdges := cand.newEdges ++ [edge]
    events := cand.events ++ [
      { graphId := patch.graphId, eventType := .evidenceAttached,
        causationPatchId := some patch.patchId, subjectId := some op.evidenceNodeId,
        subjectKind := some "evidence", graphVersion := some (proposedVersion patch) }] }

def applyOperation (cand : Candidate) : PatchOperation → Except Failure Candidate
  | .addNode op => applyAddNode patch cand op
  | .addEdge op => applyAddEdge patch cand op
  | .attachArtifact op => applyAttachArtifact facts patch cand op
  | .attachEvidence op => applyAttachEvidence patch cand op

end

def validatePatch (req : PatchValidationRequest) : Except Failure Candidate := do
  let patch := req.patch
  require (patch.operations ≠ [] ∨ req.allowEmptyOperations) (.vpg .patchEmpty "patch has no operations")
  require (patch.operations.length ≤ maxPatchOps ∨ req.allowLargeOperations)
    (.vpg .patchTooLarge ("patch has " ++ toString patch.operations.length ++ " ops, max " ++
      toString maxPatchOps))
  let cand ← patch.operations.foldlM (applyOperation req.facts patch)
    { nodes := req.currentNodes, edges := req.currentEdges }
  match detectCycle req.currentEdges cand.pendingDepEdges with
  | some cycle => do
    require (cycle.length ≤ 1) (executionCycle cycle)
    return cand
  | none => return cand

end LongHorizonOS.PatchValidation
