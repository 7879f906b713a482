import LongHorizonOS.EvidenceVerification
import LongHorizonOS.WorkList
import Mathlib.Data.List.Dedup

/-! The D3 invalidation engine: from the causes it is given, or from the Evidence
that no longer applies, it derives which Tasks turn STALE, which Goals reopen
and which Tasks may be re-executed first. It reads one snapshot and writes
nothing. The hashes and the event history of a result are left out. -/
namespace LongHorizonOS.InvalidationEngine
open Prod (fst snd)
open KeyedRows GraphModels EvidenceVerification WorkList List

/-- Ids in lexicographic order. -/
def sortedIds (ids : List String) : List String := ids.insertionSort (· ≤ ·)

@[simp] theorem mem_sortedIds : nodeId ∈ sortedIds ids ↔ nodeId ∈ ids := mem_insertionSort _

/-- Append unless it is there. -/
def addNew (ids : List String) (nodeId : String) : List String :=
  if nodeId ∈ ids then ids else ids ++ [nodeId]

theorem mem_addNew : other ∈ addNew ids nodeId ↔ other ∈ ids ∨ other = nodeId := by
  unfold addNew
  split
  · rename_i known
    exact ⟨Or.inl, fun member => member.elim id fun same => same ▸ known⟩
  · simp

theorem mem_foldl_addNew {added : List String} : other ∈ added.foldl addNew ids ↔ other ∈ ids ∨ other ∈ added := by
  induction added generalizing ids with
  | nil => simp
  | cons nodeId added ih => rw [foldl_cons, ih, mem_addNew, mem_cons, or_assoc]

/-! ## Causes -/

inductive InvalidationCauseType where
  | artifactVersionSuperseded
  | evidenceArtifactInvalid
  | sourceActionInvalid
  | sourceEventInvalid
  deriving DecidableEq

/-- An authoritative fact that makes some Evidence inapplicable. -/
structure InvalidationCause where
  causeId : String
  graphId : String
  graphVersion : Int
  causeType : InvalidationCauseType
  sourceNodeId : Option String := none
  artifactId : Option String := none
  oldVersion : Option Int := none
  newVersion : Option Int := none
  evidenceId : Option String := none
  actionId : Option String := none
  reason : String
  deriving DecidableEq

structure EvidenceApplicability where
  graphId : String
  graphVersion : Int
  evidenceId : String
  applies : Bool
  reason : String
  causeId : Option String
  derivedAtVersion : Int
  deriving DecidableEq

/-- The provider callables. Without one its test is not made. -/
structure ApplicabilityFacts where
  verifyBinding : Option (String → Int → String → Bool) := none
  actionValid : Option (String → Bool) := none
  eventValid : Option (String → Bool) := none
  currentOutputVersions : Option (List (String × Int)) := none

section
variable (graphId : String) (graphVersion : Int) (facts : ApplicabilityFacts)

/-- `f"cause:{graph_id}:v{graph_version}:{kind}:{name}"` -/
def causeIdFor (kind name : String) : String :=
  "cause:" ++ graphId ++ ":v" ++ toString graphVersion ++ ":" ++ kind ++ ":" ++ name

/-- The reason and cause id for which one binding no longer applies. -/
def bindingLoss (binding : ArtifactVersionBinding) : Option (String × String) :=
  let newer := (facts.currentOutputVersions.bind fun versions =>
    (lookup fst versions binding.artifactId).map snd).filter (binding.version < ·)
  match newer with
  | some current => some ("artifact " ++ binding.artifactId ++ " version " ++ toString binding.version ++
      " superseded by " ++ toString current, causeIdFor graphId graphVersion "out" binding.artifactId)
  | none =>
    if (facts.verifyBinding.map fun verify =>
        verify binding.artifactId binding.version binding.contentHash) = some false then
      some ("backing artifact " ++ binding.artifactId ++ "@" ++ toString binding.version ++ " invalid",
        causeIdFor graphId graphVersion "art" binding.artifactId)
    else none

def actionLoss (fields : EvidenceFields) : Option (String × String) := do
  let action ← fields.sourceActionId
  let valid ← facts.actionValid
  if action ≠ "" ∧ valid action = false then
    some ("source action " ++ action ++ " no longer valid", causeIdFor graphId graphVersion "act" action)
  else none

def eventLoss (fields : EvidenceFields) : Option (String × String) := do
  let valid ← facts.eventValid
  let event ← fields.sourceEventIds.find? fun event => !valid event
  return ("source event " ++ event ++ " no longer valid", causeIdFor graphId graphVersion "evt" event)

/-- The first of the tests that fails: bindings, source action, source events. -/
def applicabilityLoss (fields : EvidenceFields) : Option (String × String) :=
  ((fields.artifactBindings.findSome? (bindingLoss graphId graphVersion facts)).or
    (actionLoss graphId graphVersion facts fields)).or (eventLoss graphId graphVersion facts fields)

def evidenceApplicabilityForGraph (evidenceNodes : List VPGNode) : List EvidenceApplicability :=
  (sortedIds (evidenceNodes.map VPGNode.nodeId)).filterMap fun evidenceId =>
    (evidenceAt evidenceNodes evidenceId).map fun (_, fields) =>
      let loss := applicabilityLoss graphId graphVersion facts fields
      { graphId := graphId, graphVersion := graphVersion, evidenceId := evidenceId,
        applies := loss.isNone, reason := (loss.map fst).getD "", causeId := loss.map snd,
        derivedAtVersion := graphVersion }

/-- `part in text` -/
def occursIn (part text : String) : Bool :=
  text.toList.tails.any part.toList.isPrefixOf

def causeTypeOf (causeId : Option String) : InvalidationCauseType :=
  let names := fun part => (causeId.map (occursIn part)).getD false
  if names ":art:" then .evidenceArtifactInvalid
  else if names ":act:" then .sourceActionInvalid
  else if names ":evt:" then .sourceEventInvalid
  else .artifactVersionSuperseded

def causesFromApplicability (verdicts : List EvidenceApplicability) : List InvalidationCause :=
  let causes := (verdicts.filter fun verdict => !verdict.applies).map fun verdict =>
    { causeId := (verdict.causeId.filter (· ≠ "")).getD
        ("cause:" ++ graphId ++ ":v" ++ toString graphVersion ++ ":" ++ verdict.evidenceId)
      graphId := graphId
      graphVersion := graphVersion
      causeType := causeTypeOf verdict.causeId
      evidenceId := some verdict.evidenceId
      reason := verdict.reason : InvalidationCause }
  causes.insertionSort fun first second => first.causeId ≤ second.causeId

end

/-! ## The cone -/

section
variable (taskNodes : List VPGNode) (edges : List VPGEdge)

/-- The keys of `task_nodes`. -/
def taskIds : List String := taskNodes.map VPGNode.nodeId

/-- A DEPENDS_ON edge with both ends in `task_nodes`. -/
def dependsBetweenTasks (edge : VPGEdge) : Bool :=
  decide (edge.edgeType = .dependsOn) && decide (edge.sourceNodeId ∈ taskIds taskNodes) &&
    decide (edge.targetNodeId ∈ taskIds taskNodes)

/-- Collect the edges between Tasks under one end, each row sorted. -/
def dependencyRows (entry : VPGEdge → String × String) : Adjacency String String :=
  (Adjacency.collect (fun edge =>
    if dependsBetweenTasks taskNodes edge then some (entry edge) else none) edges).map
      fun row => (row.1, sortedIds row.2)

/-- The two relations of `_build_view`. -/
def forwardDeps : Adjacency String String :=
  dependencyRows taskNodes edges fun edge => (edge.sourceNodeId, edge.targetNodeId)

def reverseDeps : Adjacency String String :=
  dependencyRows taskNodes edges fun edge => (edge.targetNodeId, edge.sourceNodeId)

def isVerifiedIn (taskId : String) : Bool :=
  decide ((getNode taskNodes taskId).map VPGNode.validity = some .verified)

/-- The dependents that a STALE Task makes STALE. -/
def verifiedDependents (taskId : String) : List String :=
  ((reverseDeps taskNodes edges).get taskId).filter (isVerifiedIn taskNodes)

/-- The Tasks the causes name. An empty id is read as no id. -/
def causeSeeds (causes : List InvalidationCause) : List String :=
  (causes.filterMap InvalidationCause.sourceNodeId).filter fun source =>
    decide (source ≠ "") && decide (source ∈ taskIds taskNodes)

/-- The Tasks of `evidence_of` with an Evidence whose last verdict is that it does not apply. -/
def evidenceSeeds (verdicts : List EvidenceApplicability) (evidenceOf : List (String × List String)) :
    List String :=
  let applicMap := verdicts.foldl (fun map verdict =>
    upsert fst (verdict.evidenceId, verdict.applies) map) []
  (evidenceOf.filter fun (taskId, evidenceIds) => decide (taskId ∈ taskIds taskNodes) &&
    evidenceIds.any fun evidenceId =>
      decide ((lookup fst applicMap evidenceId).map snd = some false)).map fst

structure InvalidationCone where
  graphId : String
  baseGraphVersion : Int
  causes : List InvalidationCause
  seedNodeIds : List String
  affectedNodeIds : List String
  preservedNodeIds : List String
  propagationEdges : List String
  deriving DecidableEq

def computeInvalidationCone (graphId : String) (baseGraphVersion : Int)
    (causes : List InvalidationCause) (verdicts : List EvidenceApplicability := [])
    (evidenceOf : List (String × List String) := []) : InvalidationCone :=
  let seedIds := sortedIds ((evidenceSeeds taskNodes verdicts evidenceOf).foldl addNew
    ((causeSeeds taskNodes causes).foldl addNew []))
  let work := search (taskIds taskNodes) (verifiedDependents taskNodes edges) seedIds
  { graphId := graphId
    baseGraphVersion := baseGraphVersion
    causes := causes
    seedNodeIds := seedIds
    affectedNodeIds := sortedIds work.seen
    preservedNodeIds := sortedIds ((taskIds taskNodes).filter fun taskId => decide (taskId ∉ work.seen))
    propagationEdges := sortedIds (work.steps.map fun step => step.1 ++ "->" ++ step.2) }

/-! ## Proofs -/

structure InvalidationProof where
  graphId : String
  graphVersion : Int
  taskId : String
  rootCauses : List String
  causalPath : List String
  previousValidity : String
  resultingValidity : String
  deriving DecidableEq

/-- The climb from a Task along its dependencies to the nearest root cause: that
cause and the path down from it. The ids visited are distinct Tasks, so the
fuel bounds the loop. -/
def climb (rootCauses : List (String × String)) (forward : Adjacency String String) :
    ℕ → List (String × List String) → List String → Option (String × List String)
  | 0, _, _ => none
  | _ + 1, [], _ => none
  | fuel + 1, (current, path) :: fringe, visited =>
    match lookup fst rootCauses current with
    | some (_, causeId) => some (causeId, path)
    | none =>
      let (fringe, visited) := (forward.get current).foldl (fun (fringe, visited) parent =>
        if parent ∈ visited then (fringe, visited)
        else (fringe ++ [(parent, parent :: path)], visited ++ [parent])) (fringe, visited)
      climb rootCauses forward fuel fringe visited

def buildProofs (cone : InvalidationCone) : List InvalidationProof :=
  let rootCauses := (cone.causes.filterMap fun cause =>
    cause.sourceNodeId.map fun source => (source, cause.causeId)).foldl
      (fun map entry => upsert fst entry map) []
  let forward := forwardDeps taskNodes edges
  let proofs := cone.affectedNodeIds.filterMap fun taskId => (getNode taskNodes taskId).map fun task =>
    let found := climb rootCauses forward (taskNodes.length + 1) [(taskId, [taskId])] [taskId]
    { graphId := cone.graphId
      graphVersion := cone.baseGraphVersion
      taskId := taskId
      rootCauses := (found.map fst).toList
      causalPath := (found.map snd).getD [taskId]
      previousValidity := task.validity.value
      resultingValidity := NodeValidity.stale.value : InvalidationProof }
  proofs.insertionSort fun first second => first.taskId ≤ second.taskId

end

/-! ## Goals and the repair frontier -/

/-- `_derive_goal_reopen`. A `GoalNode` has no `closed` attribute, so its lifecycle decides. -/
def deriveGoalReopen (goalNodes : List VPGNode) (cone : InvalidationCone)
    (goalDirectTasks : List (String × List String)) : List String :=
  (sortedIds (goalNodes.map VPGNode.nodeId)).filter fun goalId =>
    decide ((getNode goalNodes goalId).map VPGNode.lifecycle = some .closed) &&
      (((lookup fst goalDirectTasks goalId).map snd).getD []).any fun taskId =>
        decide (taskId ∈ cone.affectedNodeIds)

structure RepairCandidate where
  taskId : String
  causes : List String := []
  invalidatedBy : List String := []
  dependencyProof : List String
  deriving DecidableEq

structure RepairFrontier where
  graphId : String
  graphVersion : Int
  candidates : List RepairCandidate
  deriving DecidableEq

section
variable (taskNodes : List VPGNode) (edges : List VPGEdge)
  (derivedValidity : Option (List (String × NodeValidity)))

/-- `_validity`; nothing stands for "missing". -/
def effectiveValidity (taskId : String) : Option NodeValidity :=
  ((derivedValidity.bind fun derived => (lookup fst derived taskId).map snd)).or
    ((getNode taskNodes taskId).map VPGNode.validity)

def needsRepair (validity : Option NodeValidity) : Bool :=
  decide (validity = some .stale) || decide (validity = some .unverified)

def computeRepairFrontier (graphId : String) (graphVersion : Int)
    (staleOrUnverified : Option (List String)) (hasActiveClaim : Option (String → Bool)) : RepairFrontier :=
  let validity := effectiveValidity taskNodes derivedValidity
  let eligible := staleOrUnverified.getD
    ((taskIds taskNodes).filter fun taskId => needsRepair (validity taskId))
  let ready := fun taskId => ((forwardDeps taskNodes edges).get taskId).all fun dependency =>
    decide (validity dependency = some .verified)
  let claimed := fun taskId => (hasActiveClaim.map fun claim => claim taskId).getD false
  { graphId := graphId
    graphVersion := graphVersion
    candidates := ((sortedIds eligible.dedup).filter fun taskId => ready taskId && !claimed taskId).map
      fun taskId => { taskId := taskId
                      dependencyProof := ((forwardDeps taskNodes edges).get taskId).map (· ++ ":verified") } }

end

/-! ## The engine -/

structure EngineInputs where
  graphId : String
  currentVersion : Int
  taskNodes : List VPGNode
  goalNodes : List VPGNode
  evidenceNodes : List VPGNode
  edges : List VPGEdge
  facts : ApplicabilityFacts := {}
  explicitCauses : Option (List InvalidationCause) := none
  hasActiveClaim : Option (String → Bool) := none
  goalDirectTasks : List (String × List String) := []
  evidenceOf : List (String × List String) := []

structure EngineResult where
  applicability : List EvidenceApplicability
  causes : List InvalidationCause
  cone : InvalidationCone
  proofs : List InvalidationProof
  frontier : RepairFrontier
  reopenedGoals : List String

section
variable (inp : EngineInputs)

/-- The validities once the cone is applied. -/
def validityAfter (cone : InvalidationCone) : List (String × NodeValidity) :=
  inp.taskNodes.map fun task =>
    (task.nodeId, if task.nodeId ∈ cone.affectedNodeIds then .stale else task.validity)

def runInvalidationEngine : EngineResult :=
  let verdicts := evidenceApplicabilityForGraph inp.graphId inp.currentVersion inp.facts inp.evidenceNodes
  let causes := inp.explicitCauses.getD (causesFromApplicability inp.graphId inp.currentVersion verdicts)
  if causes = [] then
    { applicability := verdicts
      causes := []
      cone :=
        { graphId := inp.graphId, baseGraphVersion := inp.currentVersion, causes := [],
          seedNodeIds := [], affectedNodeIds := [],
          preservedNodeIds := sortedIds (taskIds inp.taskNodes), propagationEdges := [] }
      proofs := []
      frontier := computeRepairFrontier inp.taskNodes inp.edges none inp.graphId inp.currentVersion none
        inp.hasActiveClaim
      reopenedGoals := [] }
  else
    let cone := computeInvalidationCone inp.taskNodes inp.edges inp.graphId inp.currentVersion causes
      verdicts inp.evidenceOf
    { applicability := verdicts
      causes := causes
      cone := cone
      proofs := buildProofs inp.taskNodes inp.edges cone
      frontier := computeRepairFrontier inp.taskNodes inp.edges (some (validityAfter inp cone))
        inp.graphId inp.currentVersion (some cone.affectedNodeIds) inp.hasActiveClaim
      reopenedGoals := deriveGoalReopen inp.goalNodes cone inp.goalDirectTasks }

end

/-! ## What the engine derives -/

section
theorem mem_dependencyRows : to_ ∈ (dependencyRows taskNodes edges entry).get from_ ↔
    ∃ edge ∈ edges, dependsBetweenTasks taskNodes edge = true ∧ entry edge = (from_, to_) := by
  have sorted : ∀ rows : Adjacency String String,
      Adjacency.get (rows.map fun row => (row.1, sortedIds row.2)) from_ =
        sortedIds (rows.get from_) := fun rows => by
    have keeps : ∀ row ∈ rows, ((row.1, sortedIds row.2) : String × List String).1 = row.1 := fun _ _ => rfl
    rw [Adjacency.get, Adjacency.get, lookup_map keeps]
    cases lookup fst rows from_ <;> rfl
  rw [dependencyRows, sorted, mem_sortedIds, Adjacency.get_collect, mem_filterMap]
  refine exists_congr fun edge => and_congr_right fun _ => ?_
  cases dependsBetweenTasks taskNodes edge with
  | false => simp
  | true =>
    obtain ⟨first, second⟩ := entry edge
    by_cases same : first = from_ <;> simp [same]

theorem dependsBetweenTasks_iff : dependsBetweenTasks taskNodes edge = true ↔
    edge.edgeType = .dependsOn ∧ edge.sourceNodeId ∈ taskIds taskNodes ∧ edge.targetNodeId ∈ taskIds taskNodes := by
  simp [dependsBetweenTasks, and_assoc]

theorem mem_forwardDeps : target ∈ (forwardDeps taskNodes edges).get source ↔
    target ∈ targetsOf edges .dependsOn source ∧ source ∈ taskIds taskNodes ∧ target ∈ taskIds taskNodes := by
  rw [forwardDeps, mem_dependencyRows, mem_targetsOf]
  simp only [dependsBetweenTasks_iff, Prod.mk.injEq]
  constructor
  · rintro ⟨edge, member, ⟨kind, inside⟩, rfl, rfl⟩
    exact ⟨⟨edge, member, kind, rfl, rfl⟩, inside⟩
  rintro ⟨⟨edge, member, kind, rfl, rfl⟩, inside⟩
  exact ⟨edge, member, ⟨kind, inside⟩, rfl, rfl⟩

theorem mem_reverseDeps : source ∈ (reverseDeps taskNodes edges).get target ↔
    target ∈ (forwardDeps taskNodes edges).get source := by
  simp only [reverseDeps, forwardDeps, mem_dependencyRows, Prod.mk.injEq]
  exact exists_congr fun edge => and_congr_right fun _ => and_congr_right fun _ => and_comm

theorem mem_verifiedDependents : source ∈ verifiedDependents taskNodes edges target ↔
    target ∈ (forwardDeps taskNodes edges).get source ∧ isVerifiedIn taskNodes source = true := by
  rw [verifiedDependents, mem_filter, mem_reverseDeps]

theorem mem_causeSeeds : source ∈ causeSeeds taskNodes causes ↔
    (∃ cause ∈ causes, cause.sourceNodeId = some source) ∧ source ≠ "" ∧ source ∈ taskIds taskNodes := by
  simp [causeSeeds]

/-- Explicit causes affect the Tasks they name and the VERIFIED dependents of an affected Task. -/
theorem mem_affected {version : Int} :
    taskId ∈ (computeInvalidationCone taskNodes edges graphId version causes verdicts).affectedNodeIds ↔
      ∃ seed ∈ causeSeeds taskNodes causes,
        Relation.ReflTransGen (fun a b => b ∈ verifiedDependents taskNodes edges a) seed taskId := by
  have seeds : ∀ seed, seed ∈ sortedIds ((evidenceSeeds taskNodes verdicts []).foldl addNew
      ((causeSeeds taskNodes causes).foldl addNew [])) ↔ seed ∈ causeSeeds taskNodes causes := by
    simp [mem_foldl_addNew, evidenceSeeds]
  refine mem_sortedIds.trans (Iff.trans (mem_search ?_ ?_) ?_)
  · intro node _ successor follows
    exact (mem_forwardDeps.mp (mem_verifiedDependents.mp follows).1).2.1
  · exact fun seed member => (mem_causeSeeds.mp ((seeds seed).mp member)).2.2
  · exact exists_congr fun seed => and_congr_left fun _ => seeds seed

/-- With explicit causes the frontier is computed on the validities after the cone. -/
theorem frontier_explicit (inp) (given : inp.explicitCauses = some causes) (explicit : causes ≠ []) :
    ∃ cone, cone = computeInvalidationCone inp.taskNodes inp.edges inp.graphId inp.currentVersion causes
    (evidenceApplicabilityForGraph inp.graphId inp.currentVersion inp.facts inp.evidenceNodes)
    inp.evidenceOf ∧ (runInvalidationEngine inp).frontier = computeRepairFrontier inp.taskNodes inp.edges
    (some (validityAfter inp cone)) inp.graphId inp.currentVersion (some cone.affectedNodeIds)
    inp.hasActiveClaim := by
  refine ⟨_, rfl, ?_⟩
  simp only [runInvalidationEngine, given, Option.getD_some, if_neg explicit]

theorem mem_computeRepairFrontier (member : candidate ∈ (computeRepairFrontier taskNodes edges derived
      graphId version (some eligible) hasActiveClaim).candidates) :
    candidate.taskId ∈ eligible ∧ ∀ dependency ∈ (forwardDeps taskNodes edges).get candidate.taskId,
    effectiveValidity taskNodes derived dependency = some .verified := by
  obtain ⟨taskId, listed, rfl⟩ := mem_map.mp member
  rw [mem_filter, mem_sortedIds, mem_dedup, Bool.and_eq_true, all_eq_true] at listed
  exact ⟨listed.1, fun dependency depends => of_decide_eq_true (listed.2.1 dependency depends)⟩

end
end LongHorizonOS.InvalidationEngine
