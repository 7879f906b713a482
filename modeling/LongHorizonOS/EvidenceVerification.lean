import LongHorizonOS.FailFast
import LongHorizonOS.GraphModels

/-! Evidence validation and the Task VERIFIED predicate. Facts about Kernel
actions and committed artifacts come from outside; a provider answers every
question and its answers are fixed while one patch is evaluated. -/
namespace LongHorizonOS.EvidenceVerification
open KeyedRows PythonValues GraphModels FailFast
open Option hiding all all_eq_true
open List hiding lookup

/-! ## Facts -/

/-- The part of a Kernel Action that Evidence validation reads. -/
structure KernelActionInfo where
  pid : String
  state : String

/-- `latest` is optional on a provider, and calling it may raise. -/
structure ArtifactFactProvider where
  artifactExists : String → String → Int → Bool
  verifyBinding : String → ArtifactVersionBinding → Bool
  latest : Option (String → Except Unit (Option Int)) := none

structure Facts where
  artifact : Option ArtifactFactProvider := none
  kernel : Option (String → Option KernelActionInfo) := none

/-- `facts_kernel.get_action(action_id)`, with no action when there is no provider. -/
def Facts.getAction (facts : Facts) (actionId : String) : Option KernelActionInfo :=
  facts.kernel.bind fun getAction => getAction actionId

/-! ## Pinned artifact versions -/

/-- Two lists that stand for the same Python set. -/
def sameSet {α : Type} [DecidableEq α] (left right : List α) : Bool :=
  left.all (fun a => decide (a ∈ right)) && right.all fun a => decide (a ∈ left)

theorem sameSet_iff [DecidableEq α] {left right : List α} :
    sameSet left right = true ↔ ∀ a, a ∈ left ↔ a ∈ right := by
  simp only [sameSet, Bool.and_eq_true, all_eq_true, decide_eq_true_eq]
  exact ⟨fun ⟨forth, back⟩ a => ⟨forth a, back a⟩, fun same => ⟨fun a => (same a).mp, fun a => (same a).mpr⟩⟩

/-- Keep the greater version of a URI. -/
def recordLatest (latest : List (String × Int)) (pin : String × Int) : List (String × Int) :=
  match lookup Prod.fst latest pin.1 with
  | none => upsert Prod.fst pin latest
  | some current => if pin.2 > current.2 then upsert Prod.fst pin latest else latest

/-- The latest version of each URI among the given pins. -/
def latestPins (pins : List (String × Int)) : List (String × Int) :=
  pins.foldl recordLatest []

/-- What the recorded entries say about the pins seen so far. -/
private structure Records (latest pins : List (String × Int)) : Prop where
  distinct : (latest.map Prod.fst).Nodup
  absent : ∀ uri, lookup Prod.fst latest uri = none → ∀ version, (uri, version) ∉ pins
  greatest : ∀ uri pin, lookup Prod.fst latest uri = some pin →
    pin ∈ pins ∧ ∀ version, (uri, version) ∈ pins → version ≤ pin.2

/-- Writing a pin that no seen pin exceeds records it. -/
private theorem records_upsert
    (records : Records latest pins) (exceeds : ∀ version, (pin.1, version) ∈ pins → version ≤ pin.2) :
    Records (upsert Prod.fst pin latest) (pins ++ [pin]) := by
  refine ⟨nodup_upsert records.distinct, fun uri missing version member => ?_, fun uri found hit => ?_⟩
  · rw [lookup_upsert] at missing
    by_cases same : uri = pin.1
    · simp [same] at missing
    rw [if_neg same] at missing
    rcases mem_append.mp member with old | new
    · exact records.absent uri missing version old
    exact same (congrArg Prod.fst (mem_singleton.mp new))
  rw [lookup_upsert] at hit
  by_cases same : uri = pin.1
  · rw [if_pos same, some.injEq] at hit
    subst hit same
    refine ⟨by simp, fun version member => ?_⟩
    rcases mem_append.mp member with old | new
    · exact exceeds version old
    exact Int.le_of_eq (congrArg Prod.snd (mem_singleton.mp new))
  · rw [if_neg same] at hit
    refine ⟨mem_append_left _ (records.greatest uri found hit).1, fun version member => ?_⟩
    rcases mem_append.mp member with old | new
    · exact (records.greatest uri found hit).2 version old
    exact absurd (congrArg Prod.fst (mem_singleton.mp new)) same

private theorem records_step (records : Records latest pins) : Records (recordLatest latest pin) (pins ++ [pin]) := by
  unfold recordLatest
  split
  · rename_i missing
    exact records_upsert records fun version member =>
      absurd member (records.absent pin.1 missing version)
  rename_i current found
  have top := records.greatest pin.1 current found
  split
  · rename_i newer
    exact records_upsert records fun version member =>
      Int.le_trans (top.2 version member) (Int.le_of_lt newer)
  rename_i older
  refine ⟨records.distinct, fun uri missing version member => ?_, fun uri other hit => ?_⟩
  · rcases mem_append.mp member with old | new
    · exact records.absent uri missing version old
    have here : uri = pin.1 := congrArg Prod.fst (mem_singleton.mp new)
    rw [here, found] at missing
    cases missing
  refine ⟨mem_append_left _ (records.greatest uri other hit).1, fun version member => ?_⟩
  rcases mem_append.mp member with old | new
  · exact (records.greatest uri other hit).2 version old
  rw [mem_singleton] at new
  subst new
  rw [found, some.injEq] at hit
  exact hit ▸ Int.not_lt.mp older

/-- A pin is among the latest ones exactly when it occurs and no pin of its
URI has a greater version, so the order in which pins are met is immaterial. -/
theorem mem_latestPins : pin ∈ latestPins pins ↔ pin ∈ pins ∧ ∀ version, (pin.1, version) ∈ pins → version ≤ pin.2 := by
  have run : ∀ (rest seen latest : List (String × Int)), Records latest seen →
      Records (rest.foldl recordLatest latest) (seen ++ rest) := by
    intro rest
    induction rest with
    | nil => intro seen latest records; simpa using records
    | cons first rest ih =>
      intro seen latest records
      have stepped : Records (recordLatest latest first) (seen ++ [first]) := records_step records
      simpa using ih (seen ++ [first]) _ stepped
  have records : Records (latestPins pins) pins := run pins [] [] ⟨by simp, by simp, by simp [lookup]⟩
  constructor
  · intro member
    exact records.greatest pin.1 pin (lookup_of_mem records.distinct member)
  rintro ⟨member, top⟩
  cases found : lookup Prod.fst (latestPins pins) pin.1 with
  | none => exact absurd member (records.absent pin.1 found pin.2)
  | some other =>
    have best := records.greatest pin.1 other found
    have same : other.1 = pin.1 := lookup_key found
    have atMost : other.2 ≤ pin.2 := top other.2 (by rw [← same]; exact best.1)
    have equal : other = pin := Prod.ext same (Int.le_antisymm atMost (best.2 pin.2 member))
    exact equal ▸ lookup_mem found

/-- The pin that a produced node stands for, if it is an artifact reference. -/
def artifactPin (nodes : List VPGNode) (nodeId : String) : Option (String × Int) :=
  match payloadOf nodes nodeId with
  | some (.artifactRef binding) => some (binding.canonicalUri, binding.version)
  | _ => none

/-- The targets of one kind of edge from one source, in edge order. -/
def targetsOf (edges : List VPGEdge) (edgeType : EdgeType) (source : String) : List String :=
  edges.filterMap fun edge =>
    if edge.edgeType = edgeType ∧ edge.sourceNodeId = source then some edge.targetNodeId else none

/-- The sources of one kind of edge into one target, in edge order. -/
def sourcesOf (edges : List VPGEdge) (edgeType : EdgeType) (target : String) : List String :=
  edges.filterMap fun edge =>
    if edge.edgeType = edgeType ∧ edge.targetNodeId = target then some edge.sourceNodeId else none

theorem mem_targetsOf : target ∈ targetsOf edges edgeType source ↔ ∃ edge ∈ edges,
    edge.edgeType = edgeType ∧ edge.sourceNodeId = source ∧ edge.targetNodeId = target := by
  simp only [targetsOf, mem_filterMap, ite_none_right_eq_some, some.injEq, and_assoc]

theorem mem_sourcesOf : source ∈ sourcesOf edges edgeType target ↔ ∃ edge ∈ edges,
    edge.edgeType = edgeType ∧ edge.targetNodeId = target ∧ edge.sourceNodeId = source := by
  simp only [sourcesOf, mem_filterMap, ite_none_right_eq_some, some.injEq, and_assoc]

theorem targetsOf_perm (perm : edges.Perm edges') :
    (targetsOf edges edgeType source).Perm (targetsOf edges' edgeType source) :=
  perm.filterMap _

theorem sourcesOf_perm (perm : edges.Perm edges') :
    (sourcesOf edges edgeType target).Perm (sourcesOf edges' edgeType target) :=
  perm.filterMap _

/-- `_task_current_artifact_versions` -/
def taskCurrentArtifactVersions (taskId : String) (nodes : List VPGNode) (edges : List VPGEdge) :
    List (String × Int) :=
  latestPins ((targetsOf edges .produces taskId).filterMap (artifactPin nodes))

/-! ## Evidence -/

structure EvidenceCheckResult where
  valid : Bool
  code : Option VPGCode
  message : String
  deriving DecidableEq

/-- `_verifies_target`: the target of the first VERIFIES edge. -/
def verifiesTarget (verificationId : String) (edges : List VPGEdge) : Option String :=
  (targetsOf edges .verifies verificationId).head?

/-- The report hash in the node's metadata agrees with the typed digest. -/
def reportHashMatches (metadata : Dict) (digest : String) : Bool :=
  match (metadata.get "provenance").bind fun provenance => provenance.field "report_hash" with
  | some (.str hash) => decide (lower (strip hash) = digest)
  | _ => false

/-- Every bound artifact version and the content reference verify. The loop
stops at the first binding that does not. -/
def checkArtifacts (provider : ArtifactFactProvider) (producerPid : String)
    (fields : EvidenceFields) : Except (VPGCode × String) Unit := do
  match fields.artifactBindings.find? fun b => !provider.verifyBinding producerPid b with
  | some b => throw (VPGCode.evidenceArtifactHashMismatch,
      "artifact binding " ++ b.canonicalUri ++ "@" ++ toString b.version ++ " failed")
  | none => pure ()
  require (∀ content ∈ fields.evidenceContentRef, provider.verifyBinding producerPid content)
    (VPGCode.evidenceArtifactHashMismatch, "evidence_content_ref failed")

/-- The checks of `validate_evidence` on the Evidence and the outside facts. -/
def checkSource (facts : Facts) (evidence : VPGNode) (fields : EvidenceFields) :
    Except (VPGCode × String) Unit := do
  require (fields.result = .pass) (if fields.result = .fail then VPGCode.evidenceFailRejected
      else VPGCode.evidenceInconclusiveRejected,
      "evidence.result is '" ++ fields.result.value ++ "'")
  require (∀ digest ∈ fields.provenanceDigest, reportHashMatches evidence.metadata digest)
    (VPGCode.evidenceProvenanceDigestMismatch,
      "evidence.provenance_digest does not match metadata provenance report_hash")
  let actionId := fields.sourceActionId.getD ""
  require (actionId ≠ "") (VPGCode.evidenceSourceActionNotFound, "evidence.source_action_id is empty")
  let action ← demand (facts.getAction actionId)
    (VPGCode.evidenceSourceActionNotFound, "action " ++ actionId ++ " not in kernel journal")
  require (action.pid = fields.producedByPid) (VPGCode.evidenceSourceActionWrongPid,
      "action.pid=" ++ quoted action.pid ++ " != produced_by_pid=" ++ quoted fields.producedByPid)
  require (action.state = "committed") (VPGCode.evidenceSourceActionNotTerminal,
      "action state " ++ action.state ++ " not terminal-pass")
  let producerPid := if fields.producedByPid ≠ "" then fields.producedByPid else action.pid
  match facts.artifact with
  | none => pure ()
  | some provider => checkArtifacts provider producerPid fields

/-- `{(b.canonical_uri, b.version) for b in evidence.artifact_bindings}` -/
def boundVersions (fields : EvidenceFields) : List (String × Int) :=
  fields.artifactBindings.map fun b => (b.canonicalUri, b.version)

/-- `isinstance(nodes.get(node_id), TaskNode)` -/
def isTaskAt (nodes : List VPGNode) (nodeId : String) : Bool :=
  decide ((payloadOf nodes nodeId).map Payload.nodeType = some .task)

/-- `isinstance(nodes.get(node_id), VerificationNode)` -/
def isVerificationAt (nodes : List VPGNode) (nodeId : String) : Bool :=
  decide ((payloadOf nodes nodeId).map Payload.nodeType = some .verification)

/-- The checks of `validate_evidence` on the graph around the Evidence. -/
def checkBinding (nodes : List VPGNode) (edges : List VPGEdge) (evidence : VPGNode)
    (fields : EvidenceFields) : Except (VPGCode × String) Unit := do
  let verificationId ← demand fields.sourceVerificationId
    (VPGCode.evidenceVerificationEdgeMissing, "evidence.source_verification_id is None")
  require (evidence.nodeId ∈ targetsOf edges .produces verificationId)
    (VPGCode.evidenceProducesEdgeMissing, "no produces edge Verification -> Evidence")
  require (isVerificationAt nodes verificationId) (VPGCode.evidenceVerificationEdgeMissing,
      "verification " ++ verificationId ++ " missing/invalid")
  let targetTaskId ← demand (verifiesTarget verificationId edges)
    (VPGCode.evidenceVerificationEdgeMissing, "no verifies edge Verification -> Task")
  require (isTaskAt nodes targetTaskId → sameSet (boundVersions fields)
      (taskCurrentArtifactVersions targetTaskId nodes edges))
    (VPGCode.evidenceArtifactHashMismatch, "evidence artifact versions no longer match task pins")

def validateEvidence (facts : Facts) (nodes : List VPGNode) (edges : List VPGEdge)
    (evidence : VPGNode) (fields : EvidenceFields) : EvidenceCheckResult :=
  match (do checkSource facts evidence fields; checkBinding nodes edges evidence fields) with
  | .ok () => ⟨true, none, "ok"⟩
  | .error (code, message) => ⟨false, some code, message⟩

/-! ## The Task predicate -/

/-- `verifies_index` files Verifications under the Task they verify,
`produces_index` files produced nodes under their producer. -/
structure VerificationIndices where
  verifies : Adjacency String String
  produces : Adjacency String String

def buildVerificationIndices (edges : List VPGEdge) : VerificationIndices where
  verifies := Adjacency.collect (fun edge =>
    if edge.edgeType = .verifies then some (edge.targetNodeId, edge.sourceNodeId) else none) edges
  produces := Adjacency.collect (fun edge =>
    if edge.edgeType = .produces then some (edge.sourceNodeId, edge.targetNodeId) else none) edges

/-- `_find_verifications` -/
def findVerifications (taskId : String) (nodes : List VPGNode) (index : VerificationIndices) : List String :=
  (index.verifies.get taskId).filter (isVerificationAt nodes)

/-- The Evidence stored under an id. -/
def evidenceAt (nodes : List VPGNode) (nodeId : String) : Option (VPGNode × EvidenceFields) :=
  (getNode nodes nodeId).bind fun node =>
    match node.payload with
    | .evidence fields => some (node, fields)
    | _ => none

/-- `_find_evidence_for_verification` -/
def findEvidenceForVerification (verificationId : String) (nodes : List VPGNode)
    (index : VerificationIndices) : List (VPGNode × EvidenceFields) :=
  (index.produces.get verificationId).filterMap (evidenceAt nodes)

/-- `_task_deps_verified` -/
def taskDepsVerified (taskId : String) (nodes : List VPGNode) (edges : List VPGEdge) : Bool :=
  (targetsOf edges .dependsOn taskId).all fun target =>
    match getNode nodes target with
    | none => true
    | some dep => dep.isTask && decide (dep.validity = .verified) && dep.lifecycle.admittedOrLater

/-- How many of the Task's Verifications have Evidence that is valid now. -/
def validVerificationCount (facts : Facts) (taskId : String) (nodes : List VPGNode)
    (edges : List VPGEdge) (index : VerificationIndices) : ℕ :=
  (findVerifications taskId nodes index).countP fun verificationId =>
    (findEvidenceForVerification verificationId nodes index).any fun (evidence, fields) =>
      (validateEvidence facts nodes edges evidence fields).valid

def taskIsVerified (facts : Facts) (task : VPGNode) (fields : TaskFields) (nodes : List VPGNode)
    (edges : List VPGEdge) (index : VerificationIndices) : Bool :=
  task.lifecycle.admittedOrLater && decide (task.validity ≠ .invalid) &&
    decide (max 1 fields.requiredVerificationCount ≤
      (validVerificationCount facts task.nodeId nodes edges index : Int)) &&
    taskDepsVerified task.nodeId nodes edges

/-! ## What the checks accept -/

section
theorem validateEvidence_valid : (validateEvidence facts nodes edges evidence fields).valid = true ↔
    checkSource facts evidence fields = .ok () ∧ checkBinding nodes edges evidence fields = .ok () := by
  unfold validateEvidence
  cases source : checkSource facts evidence fields with
  | error failure => simp [bind, Except.bind]
  | ok done =>
    cases binding : checkBinding nodes edges evidence fields with
    | error failure => simp [bind, Except.bind]
    | ok done => simp [bind, Except.bind]

/-- Only a passing result gets past the first check. -/
theorem checkSource_pass (accepted : checkSource facts evidence fields = .ok ()) : fields.result = .pass := by
  unfold checkSource at accepted
  exact (require_bind_ok.mp accepted).1

/-- Evidence is bound to the graph by its own Verification: that Verification
produces it, and the first Task the Verification verifies has exactly the
pins the Evidence names. -/
theorem checkBinding_ok : checkBinding nodes edges evidence fields = .ok () ↔
    ∃ verificationId, fields.sourceVerificationId = some verificationId ∧
      evidence.nodeId ∈ targetsOf edges .produces verificationId ∧ isVerificationAt nodes verificationId = true ∧
      ∃ taskId, verifiesTarget verificationId edges = some taskId ∧
        (isTaskAt nodes taskId = true → sameSet (boundVersions fields)
          (taskCurrentArtifactVersions taskId nodes edges) = true) := by
  simp only [checkBinding, bind_ok, demand_ok, require_ok, exists_const]

/-- The Evidence under an id is valid. -/
def evidenceValidAt (facts : Facts) (nodes : List VPGNode) (edges : List VPGEdge)
    (evidenceId : String) : Bool :=
  match evidenceAt nodes evidenceId with
  | some (evidence, fields) => (validateEvidence facts nodes edges evidence fields).valid
  | none => false

/-- A Verification to which some valid Evidence is attached. -/
def passingVerification (facts : Facts) (nodes : List VPGNode) (edges : List VPGEdge)
    (verificationId : String) : Bool :=
  isVerificationAt nodes verificationId &&
    (targetsOf edges .produces verificationId).any (evidenceValidAt facts nodes edges)

theorem evidenceAt_some : evidenceAt nodes evidenceId = some (evidence, fields) ↔
    getNode nodes evidenceId = some evidence ∧ evidence.payload = .evidence fields := by
  unfold evidenceAt
  cases found : getNode nodes evidenceId with
  | none => simp
  | some node =>
    rw [bind_some, some.injEq]
    constructor
    · split
      · rintro ⟨⟩
        exact ⟨rfl, ‹_›⟩
      · rintro ⟨⟩
    · rintro ⟨rfl, kind⟩
      rw [kind]

theorem verifies_get : (buildVerificationIndices edges).verifies.get taskId = sourcesOf edges .verifies taskId := by
  simp only [buildVerificationIndices, Adjacency.get_collect, sourcesOf]
  congr 1
  funext edge
  by_cases kind : edge.edgeType = .verifies <;> simp [kind]

theorem produces_get (nodeId) :
    (buildVerificationIndices edges).produces.get nodeId = targetsOf edges .produces nodeId := by
  simp only [buildVerificationIndices, Adjacency.get_collect, targetsOf]
  congr 1
  funext edge
  by_cases kind : edge.edgeType = .produces <;> simp [kind]

/-- The count runs over VERIFIES edges, not over Verifications. -/
theorem validVerificationCount_eq : validVerificationCount facts taskId nodes edges (buildVerificationIndices edges) =
    (sourcesOf edges .verifies taskId).countP (passingVerification facts nodes edges) := by
  rw [validVerificationCount, findVerifications, verifies_get, countP_filter]
  congr 1
  funext verificationId
  rw [passingVerification, findEvidenceForVerification, produces_get, any_filterMap, Bool.and_comm]
  congr 2
  funext evidenceId
  unfold evidenceValidAt
  cases evidenceAt nodes evidenceId <;> rfl

theorem taskIsVerified_iff : taskIsVerified facts task taskFields nodes edges (buildVerificationIndices edges) = true ↔
      task.lifecycle.admittedOrLater = true ∧ task.validity ≠ .invalid ∧
        max 1 taskFields.requiredVerificationCount ≤ ((sourcesOf edges .verifies task.nodeId).countP
            (passingVerification facts nodes edges) : Int) ∧ taskDepsVerified task.nodeId nodes edges = true := by
  simp only [taskIsVerified, validVerificationCount_eq, Bool.and_eq_true, decide_eq_true_eq, and_assoc]

end

/-! ## What the checks read -/

/-- Evidence validation reads the payloads of the nodes and nothing else but
the whole of an Evidence node. -/
structure SameRecords (before after : List VPGNode) : Prop where
  payload : ∀ nodeId, payloadOf after nodeId = payloadOf before nodeId
  evidence : ∀ nodeId, evidenceAt after nodeId = evidenceAt before nodeId

/-- The order of the rows is immaterial. -/
theorem sameRecords_perm (distinct : DistinctIds nodes) (perm : nodes'.Perm nodes) : SameRecords nodes nodes' := by
  constructor
  · intro nodeId
    rw [payloadOf, payloadOf, getNode_perm distinct perm]
  intro nodeId
  rw [evidenceAt, evidenceAt, getNode_perm distinct perm]

namespace SameRecords
variable {facts : Facts} {before after : List VPGNode} (same : SameRecords before after)
include same

theorem trans (next : SameRecords after last) : SameRecords before last :=
  ⟨fun nodeId => (next.payload nodeId).trans (same.payload nodeId),
    fun nodeId => (next.evidence nodeId).trans (same.evidence nodeId)⟩

theorem isTaskAt (nodeId) : isTaskAt after nodeId = isTaskAt before nodeId := by
  rw [EvidenceVerification.isTaskAt, EvidenceVerification.isTaskAt, same.payload]

theorem isVerificationAt (nodeId) : isVerificationAt after nodeId = isVerificationAt before nodeId := by
  rw [EvidenceVerification.isVerificationAt, EvidenceVerification.isVerificationAt, same.payload]

theorem artifactPin : artifactPin after = artifactPin before := by
  funext nodeId
  rw [EvidenceVerification.artifactPin, EvidenceVerification.artifactPin, same.payload]

theorem taskCurrentArtifactVersions (taskId) :
    taskCurrentArtifactVersions taskId after edges = taskCurrentArtifactVersions taskId before edges := by
  rw [EvidenceVerification.taskCurrentArtifactVersions, same.artifactPin,
    EvidenceVerification.taskCurrentArtifactVersions]

theorem validateEvidence (evidence) (fields) : (validateEvidence facts after edges evidence fields).valid =
    (validateEvidence facts before edges evidence fields).valid := by
  rw [Bool.eq_iff_iff, validateEvidence_valid, validateEvidence_valid, checkBinding_ok, checkBinding_ok]
  simp only [same.isTaskAt, same.isVerificationAt, same.taskCurrentArtifactVersions]

theorem evidenceValidAt : evidenceValidAt facts after edges = evidenceValidAt facts before edges := by
  funext evidenceId
  unfold EvidenceVerification.evidenceValidAt
  rw [same.evidence]
  cases EvidenceVerification.evidenceAt before evidenceId with
  | none => rfl
  | some found => exact same.validateEvidence found.1 found.2

theorem passingVerification : passingVerification facts after edges = passingVerification facts before edges := by
  funext verificationId
  rw [EvidenceVerification.passingVerification, same.evidenceValidAt, same.isVerificationAt,
    EvidenceVerification.passingVerification]

end SameRecords

/-- The order of the edges is immaterial for the set of pins. -/
theorem mem_pins_perm (perm : edges'.Perm edges) : pin ∈ taskCurrentArtifactVersions taskId nodes edges' ↔
    pin ∈ taskCurrentArtifactVersions taskId nodes edges := by
  have same : ∀ pin, pin ∈ (targetsOf edges' .produces taskId).filterMap (artifactPin nodes) ↔
      pin ∈ (targetsOf edges .produces taskId).filterMap (artifactPin nodes) := fun pin =>
    ((targetsOf_perm perm).filterMap _).mem_iff
  simp only [taskCurrentArtifactVersions, mem_latestPins, same]

end LongHorizonOS.EvidenceVerification
