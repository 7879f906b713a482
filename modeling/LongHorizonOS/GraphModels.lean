import LongHorizonOS.PythonValues

/-! Data model of the Verified Progress Graph: the typed nodes and edges, the
patch proposals that are the only way to change them, the events and the
errors. Wall-clock fields (`created_at`, `produced_at`, `recorded_at`) take
part in no decision and are left out. -/
namespace LongHorizonOS.GraphModels
open KeyedRows PythonValues

inductive NodeType where
  | goal
  | task
  | artifactRef
  | verification
  | evidence
  deriving DecidableEq

inductive EdgeType where
  | dependsOn
  | produces
  | verifies
  deriving DecidableEq

inductive NodeLifecycle where
  | proposed
  | admitted
  | active
  | closed
  deriving DecidableEq

inductive NodeValidity where
  | unverified
  | verified
  | stale
  | invalid
  deriving DecidableEq

inductive EvidenceResult where
  | pass
  | fail
  | inconclusive
  deriving DecidableEq

/-- The text of a string enumeration member. -/
def NodeLifecycle.value : NodeLifecycle → String
  | .proposed => "proposed"
  | .admitted => "admitted"
  | .active => "active"
  | .closed => "closed"

def NodeValidity.value : NodeValidity → String
  | .unverified => "unverified"
  | .verified => "verified"
  | .stale => "stale"
  | .invalid => "invalid"

def EvidenceResult.value : EvidenceResult → String
  | .pass => "pass"
  | .fail => "fail"
  | .inconclusive => "inconclusive"

/-- `lifecycle in {ADMITTED, ACTIVE, CLOSED}` -/
def NodeLifecycle.admittedOrLater : NodeLifecycle → Bool
  | .proposed => false
  | .admitted => true
  | .active => true
  | .closed => true

/-! ## Errors -/

/-- The `VPGCode`s that creating a graph and committing a patch can raise. -/
inductive VPGCode where
  | graphNotFound
  | graphAlreadyExists
  | graphClosed
  | graphVersionConflict
  | patchRejected
  | patchEmpty
  | patchTooLarge
  | leaseFenceLost
  | staleCognition
  | readSetUnavailable
  | nodeNotFound
  | nodeAlreadyExists
  | invalidNodeType
  | edgeAlreadyExists
  | invalidEdgeTypeCombination
  | edgeSourceNotFound
  | edgeTargetNotFound
  | edgeCrossGraph
  | graphExecutionCycle
  | artifactNotFound
  | artifactHashMismatch
  | evidenceSourceActionNotFound
  | evidenceSourceActionNotTerminal
  | evidenceSourceActionWrongPid
  | evidenceVerificationEdgeMissing
  | evidenceProducesEdgeMissing
  | evidenceArtifactHashMismatch
  | evidenceProvenanceDigestMismatch
  | evidenceFailRejected
  | evidenceInconclusiveRejected
  | storageError
  | graphRecoveryFailed
  | graphHistoryPruned
  deriving DecidableEq

/-- What a call can raise: a coded error, a failed UNIQUE or PRIMARY KEY
constraint, or a value that no model accepts. -/
inductive Failure where
  | vpg (code : VPGCode) (message : String)
  | integrity (constraint : String)
  | value (message : String)
  deriving DecidableEq

/-! ## Nodes and edges -/

/-- Pin to an exact committed artifact version. -/
structure ArtifactVersionBinding where
  canonicalUri : String
  artifactId : String
  version : Int
  contentHash : String
  mediaType : String := "application/octet-stream"
  deriving DecidableEq

structure GoalFields where
  title : String := ""
  description : String := ""
  deriving DecidableEq

structure TaskFields where
  title : String := ""
  description : String := ""
  taskKind : String := ""
  executionSpec : Dict := []
  requiredVerificationCount : Int := 1
  deriving DecidableEq

structure VerificationFields where
  verificationKind : String := "command_result"
  obligation : Dict := []
  sourceActionId : Option String := none
  deriving DecidableEq

structure EvidenceFields where
  evidenceKind : String := "command_result"
  result : EvidenceResult := .inconclusive
  sourceVerificationId : Option String := none
  sourceActionId : Option String := none
  sourceEventIds : List String := []
  artifactBindings : List ArtifactVersionBinding := []
  evidenceContentRef : Option ArtifactVersionBinding := none
  evidenceHash : String := ""
  producedByPid : String := ""
  claimId : Option String := none
  attemptId : Option String := none
  semanticEpoch : Option Int := none
  leaseFencingToken : Option Int := none
  provenanceDigest : Option String := none
  contextSnapshotId : Option String := none
  contextManifestId : Option String := none
  contextManifestHash : Option String := none
  contextWorkingSetHash : Option String := none
  contextMaterializedHash : Option String := none
  deriving DecidableEq

/-- The part of a node that depends on its type; `isinstance` tests are matches
on it. An artifact reference carries exactly the fields of a binding. -/
inductive Payload where
  | goal (fields : GoalFields)
  | task (fields : TaskFields)
  | artifactRef (fields : ArtifactVersionBinding)
  | verification (fields : VerificationFields)
  | evidence (fields : EvidenceFields)
  deriving DecidableEq

def Payload.nodeType : Payload → NodeType
  | .goal _ => .goal
  | .task _ => .task
  | .artifactRef _ => .artifactRef
  | .verification _ => .verification
  | .evidence _ => .evidence

structure VPGNode where
  nodeId : String
  graphId : String
  lifecycle : NodeLifecycle := .proposed
  validity : NodeValidity := .unverified
  createdInVersion : Int
  updatedInVersion : Int
  createdByPid : String
  metadata : Dict := []
  payload : Payload
  deriving DecidableEq

def VPGNode.nodeType (node : VPGNode) : NodeType := node.payload.nodeType

/-- `isinstance(node, TaskNode)` -/
def VPGNode.isTask (node : VPGNode) : Bool := decide (node.nodeType = .task)

/-- `isinstance(node, GoalNode)` -/
def VPGNode.isGoal (node : VPGNode) : Bool := decide (node.nodeType = .goal)

structure VPGEdge where
  edgeId : String
  graphId : String
  edgeType : EdgeType
  sourceNodeId : String
  targetNodeId : String
  createdInVersion : Int
  createdByPid : String
  deriving DecidableEq

/-- `nodes.get(node_id)` -/
def getNode (nodes : List VPGNode) (nodeId : String) : Option VPGNode :=
  lookup VPGNode.nodeId nodes nodeId

/-- Each id has one node, as in a dictionary. -/
abbrev DistinctIds (nodes : List VPGNode) : Prop := (nodes.map VPGNode.nodeId).Nodup

theorem getNode_perm (distinct : DistinctIds nodes) (perm : nodes'.Perm nodes) (nodeId : String) :
    getNode nodes' nodeId = getNode nodes nodeId :=
  lookup_perm distinct perm

/-- What `isinstance` tests and typed fields of `nodes.get(node_id)` read. -/
def payloadOf (nodes : List VPGNode) (nodeId : String) : Option Payload :=
  (getNode nodes nodeId).map VPGNode.payload

structure GraphRecord where
  graphId : String
  ownerPid : String
  currentVersion : Int := 0
  closed : Bool := false
  metadata : Dict := []
  deriving DecidableEq

/-- A point in time, which may lack a time zone. -/
inductive Timestamp where
  | naive (ticks : Int)
  | aware (ticks : Int)
  deriving DecidableEq

def Timestamp.isAware : Timestamp → Bool
  | .naive _ => false
  | .aware _ => true

def Timestamp.ticks : Timestamp → Int
  | .naive ticks => ticks
  | .aware ticks => ticks

/-- Exact Kernel lease generation that must authorize one graph commit. -/
structure LeaseCommitGuard where
  leaseId : String
  resourceId : String
  ownerPid : String
  fencingToken : Int
  expiresAt : Timestamp
  deriving DecidableEq

/-! ## Events -/

inductive GraphEventType where
  | nodeAdded
  | nodeAdmitted
  | edgeAdded
  | artifactAttached
  | evidenceAttached
  | taskVerifiedDerived
  | taskStaleDerived
  | taskClosedDerived
  | taskReopenedDerived
  | goalClosedDerived
  | goalReopenedDerived
  | readyFrontierUpdated
  deriving DecidableEq

/-- The frontier's stored count and digest are functions of the frontier. -/
structure GraphEvent where
  graphId : String
  eventType : GraphEventType
  causationPatchId : Option String := none
  subjectId : Option String := none
  subjectKind : Option String := none
  nodeId : Option String := none
  toLifecycle : Option String := none
  toValidity : Option String := none
  readyFrontier : List String := []
  graphVersion : Option Int := none
  deriving DecidableEq

/-! ## Patches -/

structure AddNodeOp where
  nodeId : String
  graphId : String
  nodeType : String
  createdByPid : String
  metadata : Dict := []
  title : String := ""
  description : String := ""
  taskKind : String := ""
  executionSpec : Dict := []
  requiredVerificationCount : Int := 1
  canonicalUri : String := ""
  artifactId : String := ""
  version : Option Int := none
  contentHash : String := ""
  mediaType : String := "application/octet-stream"
  verificationKind : String := "command_result"
  obligation : Dict := []
  sourceActionId : Option String := none
  evidenceKind : String := "command_result"
  result : String := "inconclusive"
  sourceVerificationId : Option String := none
  evidenceSourceActionId : Option String := none
  sourceEventIds : List String := []
  artifactBindings : List ArtifactVersionBinding := []
  evidenceContentRef : Option ArtifactVersionBinding := none
  evidenceHash : String := ""
  producedByPid : String := ""
  claimId : Option String := none
  attemptId : Option String := none
  semanticEpoch : Option Int := none
  leaseFencingToken : Option Int := none
  provenanceDigest : Option String := none
  contextSnapshotId : Option String := none
  contextManifestId : Option String := none
  contextManifestHash : Option String := none
  contextWorkingSetHash : Option String := none
  contextMaterializedHash : Option String := none
  deriving DecidableEq

structure AddEdgeOp where
  edgeId : String
  edgeType : String
  sourceNodeId : String
  targetNodeId : String
  createdByPid : String
  deriving DecidableEq

/-- Bind an existing committed artifact version to a Task. -/
structure AttachArtifactOp where
  taskNodeId : String
  artifact : ArtifactVersionBinding
  createdByPid : String
  edgeId : String
  deriving DecidableEq

/-- Attach an existing Evidence node to a Verification. -/
structure AttachEvidenceOp where
  verificationNodeId : String
  evidenceNodeId : String
  createdByPid : String
  edgeId : String
  deriving DecidableEq

inductive PatchOperation where
  | addNode (op : AddNodeOp)
  | addEdge (op : AddEdgeOp)
  | attachArtifact (op : AttachArtifactOp)
  | attachEvidence (op : AttachEvidenceOp)
  deriving DecidableEq

structure GraphPatchProposal where
  patchId : String
  graphId : String
  expectedGraphVersion : Int
  authorPid : String
  operations : List PatchOperation := []
  reason : String := ""
  causationIds : List String := []
  idempotencyKey : String
  deriving DecidableEq

/-- The idempotency identity of a submission. -/
def GraphPatchProposal.compositeKey (patch : GraphPatchProposal) : String × String × String :=
  (patch.authorPid, patch.graphId, patch.idempotencyKey)

structure PatchCommitResult where
  graphId : String
  patchId : String
  committedGraphVersion : Int
  patchApplied : Bool
  idempotentReplay : Bool := false
  deriving DecidableEq

end LongHorizonOS.GraphModels
