import LongHorizonOS.DerivedState
import LongHorizonOS.GraphStore
import LongHorizonOS.PatchValidation

/-! Submitting a patch: read the record, replay an earlier commit under the
same key, snapshot the projection, validate and derive, commit. The steps are
separate functions, because other clients may act between them. A run is a
sequence of graph creations, closings and submissions on one store. -/
namespace LongHorizonOS.PatchSubmission
open PythonValues GraphModels FailFast EvidenceVerification PatchValidation DerivedState
open CommitGuards GraphStore

/-- The arguments of `submit_patch`. -/
structure Submission where
  patch : GraphPatchProposal
  allowEmptyOperations : Bool := false
  allowLargeOperations : Bool := false
  allowRepairFrontier : Bool := false
  invalidationSeedTaskIds : List String := []
  commitGuard : Option LeaseCommitGuard := none
  d3Record : Option D3Record := none
  readGuards : Option (List ArtifactVersionBinding) := none

/-- What a submission meets outside the store: the facts while it is evaluated,
the row order of its snapshot, and the authority tables at each transaction. -/
structure Environment where
  facts : Facts := {}
  order : RowOrder := RowOrder.stored
  replayAuthority : Authority := {}
  commitAuthority : Authority := {}
  convergeAuthority : Authority := {}

/-! ## The steps -/

section
variable (sub : Submission)

def readRecord (store : Store) : Except Failure GraphRecord := do
  let record ← demand (getRecord store sub.patch.graphId)
    (.vpg .graphNotFound ("graph not found: " ++ sub.patch.graphId))
  require (record.closed = false) (.vpg .graphClosed sub.patch.graphId)
  return record

def replayStep (authority : Authority) : Session Store Failure (Option (String × Int)) :=
  idempotentReplay authority sub.patch.compositeKey sub.commitGuard sub.readGuards

/-- `snapshot_projection`, after the optimistic version check. -/
def snapshotStep (record : GraphRecord) (order : RowOrder) (store : Store) :
    Except Failure (List VPGNode × List VPGEdge) := do
  require (sub.patch.expectedGraphVersion = record.currentVersion)
    (versionConflict sub.patch.expectedGraphVersion record.currentVersion)
  let _ ← demand (getRecord store sub.patch.graphId)
    (.vpg .graphNotFound ("graph not found: " ++ sub.patch.graphId))
  let nodes ← getAllNodes store sub.patch.graphId order
  let edges ← getAllEdges store sub.patch.graphId order
  return (nodes, edges)

/-- The derivation that a submission runs on its candidate. -/
def derivationFor (facts : Facts) (record : GraphRecord) (edges : List VPGEdge) : Derivation :=
  { graphId := sub.patch.graphId
    graphVersion := record.currentVersion + 1
    causationPatch := sub.patch.patchId
    edges := edges
    facts := facts
    allowRepairFrontier := sub.allowRepairFrontier
    invalidationSeedTaskIds := sub.invalidationSeedTaskIds }

/-- Every node whose representation changed. -/
def changedNodes (current candidate : List VPGNode) : List (String × VPGNode) :=
  (candidate.filter fun node => decide (getNode current node.nodeId ≠ some node)).map
    fun node => (node.nodeId, node)

def requestFor (facts : Facts) (nodes : List VPGNode) (edges : List VPGEdge) : PatchValidationRequest :=
  { patch := sub.patch
    currentNodes := nodes
    currentEdges := edges
    facts := facts
    allowEmptyOperations := sub.allowEmptyOperations
    allowLargeOperations := sub.allowLargeOperations }

/-- What the store is asked to commit, from a validated candidate. -/
def commitRequest (facts : Facts) (record : GraphRecord) (nodes : List VPGNode) (cand : Candidate) :
    CommitRequest :=
  { patch := sub.patch
    patchId := sub.patch.patchId
    committedVersion := record.currentVersion + 1
    events := cand.events ++ (recomputeDerivedState (derivationFor sub facts record cand.edges) cand.nodes).2
    nodesToUpsert := changedNodes nodes
      (recomputeDerivedState (derivationFor sub facts record cand.edges) cand.nodes).1
    edgesToUpsert := cand.newEdges
    projectionNodes := (recomputeDerivedState (derivationFor sub facts record cand.edges) cand.nodes).1
    projectionEdges := cand.edges
    commitGuard := sub.commitGuard
    d3Record := sub.d3Record
    readGuards := sub.readGuards }

/-- Validate the patch on the snapshot, derive, and collect what to write. -/
def prepareStep (facts : Facts) (record : GraphRecord) (nodes : List VPGNode)
    (edges : List VPGEdge) : Except Failure CommitRequest := do
  let cand ← validatePatch (requestFor sub facts nodes edges)
  return commitRequest sub facts record nodes cand

def replayedResult (found : String × Int) : PatchCommitResult :=
  { graphId := sub.patch.graphId, patchId := found.1, committedGraphVersion := found.2,
    patchApplied := false, idempotentReplay := true }

def appliedResult (request : CommitRequest) : PatchCommitResult :=
  { graphId := sub.patch.graphId, patchId := sub.patch.patchId,
    committedGraphVersion := request.committedVersion, patchApplied := true,
    idempotentReplay := false }

/-- A violated constraint is taken for a lost race: the durable row of the key
is replayed, and without one the violation is raised again. -/
def convergeStep (authority : Authority) (constraint : String) : Session Store Failure PatchCommitResult := do
  match ← replayStep sub authority with
  | some found => return replayedResult sub found
  | none => Session.check fun _ => .error (.integrity constraint)

def commitStep (env : Environment) (request : CommitRequest) :
    Session Store Failure PatchCommitResult := fun store =>
  match commitPatch request env.commitAuthority store with
  | (.ok (), after) => (.ok (appliedResult sub request), after)
  | (.error (.integrity constraint), after) => convergeStep sub env.convergeAuthority constraint after
  | (.error failure, after) => (.error failure, after)

def submitPatch (env : Environment) : Session Store Failure PatchCommitResult := do
  let record ← Session.check (readRecord sub)
  match ← replayStep sub env.replayAuthority with
  | some found => return replayedResult sub found
  | none =>
    let (nodes, edges) ← Session.check (snapshotStep sub record env.order)
    let request ← Session.check fun _ => prepareStep sub env.facts record nodes edges
    commitStep sub env request

end

/-- The submission of `refresh_derived_state`: a controlled empty patch. The
generated patch id and default key are inputs. -/
def refreshSubmission (graphId authorPid reason patchId idempotencyKey : String)
    (expectedGraphVersion : Int) (seeds : List String) (d3Record : Option D3Record)
    (readGuards : List ArtifactVersionBinding) : Submission :=
  { patch := { patchId := patchId, graphId := graphId, authorPid := authorPid, reason := reason,
               expectedGraphVersion := expectedGraphVersion, idempotencyKey := idempotencyKey }
    allowEmptyOperations := true
    allowRepairFrontier := true
    invalidationSeedTaskIds := seeds
    d3Record := d3Record
    readGuards := some readGuards }

/-! ## Runs -/

/-- A request to the runtime. A refresh is a submission. -/
inductive Request where
  | create (ownerPid graphId : String) (metadata : Dict)
  | close (graphId : String)
  | submit (env : Environment) (sub : Submission)

/-- The store after a request, whether it returned or raised. -/
def perform (store : Store) : Request → Store
  | .create ownerPid graphId metadata =>
    (createGraph { graphId := graphId, ownerPid := ownerPid, metadata := metadata } store).2
  | .close graphId => (closeGraph graphId store).2
  | .submit env sub => (submitPatch sub env store).2

/-- The store after a sequence of requests to an empty one. -/
def execute (requests : List Request) : Store := requests.foldl perform {}

/-- The nodes of a graph's current version. -/
def committedNodes (store : Store) (graphId : String) : List VPGNode :=
  (nodeRowsOf store graphId).map NodeRow.payload

/-- The edges of a graph's current version. -/
def committedEdges (store : Store) (graphId : String) : List VPGEdge := edgeRowsOf store graphId

end LongHorizonOS.PatchSubmission
