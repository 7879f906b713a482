import LongHorizonOS.ReadyFrontier
import LongHorizonOS.RowSweep

/-! The derivation that runs inside every commit: invalidation, promotion to
VERIFIED, Goal closure, ready frontier. Each loop of the source is a pass of
visits over the candidate nodes, in the order in which the source makes it. -/
namespace LongHorizonOS.DerivedState
open KeyedRows PythonValues GraphModels EvidenceVerification ReadyFrontier RowSweep

/-- What stays fixed during one derivation. -/
structure Derivation where
  graphId : String
  graphVersion : Int
  causationPatch : String
  edges : List VPGEdge
  facts : Facts := {}
  allowRepairFrontier : Bool := false
  invalidationSeedTaskIds : List String := []

/-- The edge adjacency built once for the whole pass. -/
def Derivation.indices (d : Derivation) : VerificationIndices := buildVerificationIndices d.edges

/-- `depends_index` -/
def Derivation.dependsIndex (d : Derivation) : Adjacency String String := dependsOnIndex d.edges

/-! ## Predicates -/

/-- `_pinned_versions` -/
def pinnedVersions (taskId : String) (nodes : List VPGNode) (index : VerificationIndices) :
    List (String × Int) :=
  latestPins ((index.produces.get taskId).filterMap (artifactPin nodes))

/-- One entry of the recorded snapshot. -/
def encodePin (pin : String × Int) : Json :=
  .obj (.cons "canonical_uri" (.str pin.1) (.cons "version" (.int pin.2) .nil))

def decodePin (entry : Json) : Option (String × Int) := do
  let uri ← (← entry.field "canonical_uri").asStr
  let version ← (← entry.field "version").asInt
  return (uri, version)

/-- `_verified_versions`: an empty snapshot is read as no snapshot. Only the
derivation writes the snapshot of a VERIFIED Task, so every entry decodes. -/
def verifiedVersions (task : VPGNode) : Option (List (String × Int)) :=
  match task.metadata.get "__verified_artifact_versions" with
  | some (.arr items) =>
    if Json.itemList items = [] then none else some ((Json.itemList items).filterMap decodePin)
  | _ => none

/-- `_has_superseded_artifact`: a provider that cannot answer counts as a newer version. -/
def hasSupersededArtifact (pinned : List (String × Int)) (provider : Option ArtifactFactProvider) : Bool :=
  match provider.bind ArtifactFactProvider.latest with
  | none => false
  | some latest => pinned.any fun (canonicalUri, version) =>
    match latest (removeLead canonicalUri "vpg://") with
    | .error _ => true
    | .ok none => false
    | .ok (some current) => decide (current > version)

/-- `_has_unverified_dependency` -/
def hasUnverifiedDependency (taskId : String) (nodes : List VPGNode)
    (dependsIndex : Adjacency String String) : Bool :=
  (dependsIndex.get taskId).any fun target =>
    match getNode nodes target with
    | some dep => dep.isTask && decide (dep.validity ≠ .verified)
    | none => false

/-- `_has_fresh_evidence_since_stale`: some produced node of some Verification
of the Task was attached at or after the recorded version. -/
def hasFreshEvidenceSinceStale (task : VPGNode) (edges : List VPGEdge) : Bool :=
  if !((task.metadata.get "__stale_requires_fresh_evidence").getD (.bool false)).truthy then true
  else match (task.metadata.get "__stale_at_version").bind Json.asInt with
    | none => true
    | some staleAt => edges.any fun edge =>
      decide (edge.edgeType = .produces) &&
        decide (edge.sourceNodeId ∈ sourcesOf edges .verifies task.nodeId) &&
        decide (staleAt ≤ edge.createdInVersion)

/-- `task_should_be_closed` -/
def taskShouldBeClosed (task : VPGNode) : Bool :=
  decide (task.validity = .verified) && decide (task.lifecycle = .admitted ∨ task.lifecycle = .active)

def goalIsClosed (goalId : String) (nodes : List VPGNode) (edges : List VPGEdge) : Bool :=
  let dependentTaskIds := (targetsOf edges .dependsOn goalId).filter (isTaskAt nodes)
  !dependentTaskIds.isEmpty && dependentTaskIds.all fun taskId =>
    match getNode nodes taskId with
    | some dep => dep.isTask && decide (dep.validity = .verified) && dep.lifecycle.admittedOrLater
    | none => false

/-! ## Changes to one node -/

section
variable (d : Derivation)

def Derivation.event (eventType : GraphEventType) (nodeId : String) : GraphEvent :=
  { graphId := d.graphId, eventType := eventType, causationPatchId := some d.causationPatch,
    nodeId := some nodeId, graphVersion := some d.graphVersion }

/-- `_mark_task_stale` with `requires_fresh_evidence=True`, as every caller passes it. -/
def markTaskStale (task : VPGNode) : VPGNode × List GraphEvent :=
  let metadata := (((task.metadata.pop "__verified_artifact_versions").set
    "__stale_at_version" (.int d.graphVersion)).set
    "__repair_ready" (.bool d.allowRepairFrontier)).set
    "__stale_requires_fresh_evidence" (.bool true)
  let reopened := decide (task.lifecycle = .closed)
  ({ task with validity := .stale, updatedInVersion := d.graphVersion, metadata := metadata,
               lifecycle := if reopened then .admitted else task.lifecycle },
   d.event .taskStaleDerived task.nodeId ::
     if reopened then [d.event .taskReopenedDerived task.nodeId] else [])

variable (nodes : List VPGNode)

/-- Write the pinned versions under `__verified_artifact_versions`. -/
def recordSnapshot (task : VPGNode) : VPGNode :=
  let entries := (pinnedVersions task.nodeId nodes d.indices).map encodePin
  { task with
    metadata := task.metadata.set "__verified_artifact_versions" (.arr (Json.ofList entries)) }

/-- The lifecycle step at the end of both promotion branches. -/
def closeVerified (task : VPGNode) : VPGNode × List GraphEvent :=
  let verified := d.event .taskVerifiedDerived task.nodeId
  if taskShouldBeClosed task then
    ({ task with lifecycle := .closed }, [verified, d.event .taskClosedDerived task.nodeId])
  else (task, [verified])

/-- The UNVERIFIED branch of the promotion pass. -/
def promoteUnverified (task : VPGNode) : VPGNode × List GraphEvent :=
  closeVerified d (recordSnapshot d nodes
    { task with validity := .verified, updatedInVersion := d.graphVersion })

/-- The STALE branch, which also clears the stale markers. -/
def promoteStale (task : VPGNode) : VPGNode × List GraphEvent :=
  closeVerified d (recordSnapshot d nodes
    { task with validity := .verified, updatedInVersion := d.graphVersion, lifecycle := .admitted,
                metadata := ((task.metadata.pop "__stale_at_version").pop "__repair_ready").pop
                  "__stale_requires_fresh_evidence" })

/-! ## The loops -/

def seedVisit : Visit VPGNode GraphEvent := fun _ task =>
  if task.isTask && decide (task.validity = .verified) then some (markTaskStale d task) else none

/-- The recorded snapshot, when there is one, differs from the pins now. -/
def pinsChanged (task : VPGNode) : Bool :=
  match verifiedVersions task with
  | none => false
  | some verifiedAt => !sameSet (pinnedVersions task.nodeId nodes d.indices) verifiedAt

def superseded (taskId : String) : Bool :=
  hasSupersededArtifact (pinnedVersions taskId nodes d.indices) d.facts.artifact

def invalidateVisit : Visit VPGNode GraphEvent := fun nodes task =>
  if task.isTask && decide (task.validity = .verified) &&
      (pinsChanged d nodes task || superseded d nodes task.nodeId ||
        hasUnverifiedDependency task.nodeId nodes d.dependsIndex) then
    some (markTaskStale d task)
  else none

def propagateVisit : Visit VPGNode GraphEvent := fun nodes task =>
  if task.isTask && decide (task.validity = .verified) &&
      hasUnverifiedDependency task.nodeId nodes d.dependsIndex then
    some (markTaskStale d task)
  else none

def promoteVisit : Visit VPGNode GraphEvent := fun nodes task =>
  match task.payload with
  | .task fields =>
    match task.validity with
    | .verified => some (recordSnapshot d nodes task, [])
    | .stale =>
      if superseded d nodes task.nodeId then none
      else if !hasFreshEvidenceSinceStale task d.edges then none
      else if taskIsVerified d.facts task fields nodes d.edges d.indices then
        some (promoteStale d nodes task)
      else none
    | .invalid => none
    | .unverified =>
      if taskIsVerified d.facts task fields nodes d.edges d.indices then
        some (promoteUnverified d nodes task)
      else none
  | _ => none

def closeGoalVisit : Visit VPGNode GraphEvent := fun nodes goal =>
  if !goal.isGoal then none
  else
    let closed := goalIsClosed goal.nodeId nodes d.edges
    let wasClosed := decide (goal.lifecycle = .closed)
    if closed && !wasClosed then
      some ({ goal with lifecycle := .closed, updatedInVersion := d.graphVersion },
        [d.event .goalClosedDerived goal.nodeId])
    else if !closed && wasClosed then
      some ({ goal with lifecycle := .active, updatedInVersion := d.graphVersion },
        [d.event .goalReopenedDerived goal.nodeId])
    else none

/-- `sorted(set(invalidation_seed_task_ids))` -/
def sortedSeeds : List String := d.invalidationSeedTaskIds.dedup.insertionSort (· ≤ ·)

/-- The candidate after the seeds and the task-local tests. -/
def invalidated : Pass VPGNode GraphEvent :=
  sweep VPGNode.nodeId (invalidateVisit d)
    (visitKeys VPGNode.nodeId (seedVisit d) (sortedSeeds d) { rows := nodes })

/-- After the `while changed` loop. Every sweep that changes something takes one
Task out of VERIFIED, so the loop ends within the fuel. -/
def propagated : Pass VPGNode GraphEvent :=
  untilStable VPGNode.nodeId (propagateVisit d) (nodes.length + 1) (invalidated d nodes)

def promoted : Pass VPGNode GraphEvent :=
  sweep VPGNode.nodeId (promoteVisit d) (propagated d nodes)

def closed : Pass VPGNode GraphEvent :=
  sweep VPGNode.nodeId (closeGoalVisit d) (promoted d nodes)

/-- `_recompute_derived_state`: the nodes as the passes leave them, and the events. -/
def recomputeDerivedState : List VPGNode × List GraphEvent :=
  let pass := closed d nodes
  (pass.rows, pass.log ++ [
    { graphId := d.graphId, eventType := .readyFrontierUpdated,
      causationPatchId := some d.causationPatch,
      readyFrontier := computeReadyTaskIds pass.rows d.edges, graphVersion := some d.graphVersion }])

end
end LongHorizonOS.DerivedState
