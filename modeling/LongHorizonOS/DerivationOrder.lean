import LongHorizonOS.FrontierSpec
import LongHorizonOS.GraphIntegrity
import LongHorizonOS.PromotionOrder

/-! How a derivation depends on the order of the rows. Invalidation does not:
the survivors are described without an order. Promotion does, in two ways. It
is one pass in row order, so a Task can be visited before a dependency that
the same pass would promote; and Evidence is judged on the first VERIFIES
target of its Verification, so the order of the edges can decide which Tasks
pass the tests. The outcome is the same for all enumerations exactly if
neither happens. -/
namespace LongHorizonOS.DerivationOrder
open KeyedRows PythonValues GraphModels EvidenceVerification ReadyFrontier DerivedState List
open Option hiding any any_eq_true map map_map
open DerivationFrame InvalidationSpec PromotionSpec OnePass PromotionOrder FrontierSpec GraphIntegrity

/-- The derivation with its edges in another order. -/
def reordered (d : Derivation) (edges : List VPGEdge) : Derivation := { d with edges := edges }

/-! ## What no order changes -/

section
variable {d : Derivation} {nodes nodes' : List VPGNode} {edges' : List VPGEdge}
  (distinct : DistinctIds nodes) (perm : nodes'.Perm nodes)
  (edgesPerm : edges'.Perm d.edges)

theorem hasSupersededArtifact_congr (same : ∀ pin, pin ∈ pins' ↔ pin ∈ pins) (provider) :
    hasSupersededArtifact pins' provider = hasSupersededArtifact pins provider := by
  unfold hasSupersededArtifact
  split
  · rfl
  rw [Bool.eq_iff_iff, any_eq_true, any_eq_true]
  exact exists_congr fun pin => and_congr_left' (same pin)

include distinct perm edgesPerm

variable (taskId : String)

theorem mem_pinnedVersions_perm (pin) : pin ∈ pinnedVersions taskId nodes' (reordered d edges').indices ↔
    pin ∈ pinnedVersions taskId nodes d.indices := by
  rw [pinnedVersions_eq, pinnedVersions_eq]
  have same : pin ∈ taskCurrentArtifactVersions taskId nodes edges' ↔
      pin ∈ taskCurrentArtifactVersions taskId nodes d.edges := mem_pins_perm edgesPerm
  rw [← (sameRecords_perm distinct perm).taskCurrentArtifactVersions] at same
  exact same

theorem superseded_perm : superseded (reordered d edges') nodes' taskId = superseded d nodes taskId :=
  hasSupersededArtifact_congr (mem_pinnedVersions_perm distinct perm edgesPerm taskId) _

theorem pinsChanged_perm (task) : pinsChanged (reordered d edges') nodes' task = pinsChanged d nodes task := by
  unfold pinsChanged
  split
  · rfl
  congr 1
  rw [Bool.eq_iff_iff, sameSet_iff, sameSet_iff]
  simp only [mem_pinnedVersions_perm distinct perm edgesPerm]

theorem survives_perm : Survives (reordered d edges') nodes' taskId ↔ Survives d nodes taskId := by
  have relation : TaskDependency nodes' (reordered d edges').edges = TaskDependency nodes d.edges := by
    funext task dependency
    exact propext (taskDependency_perm distinct perm edgesPerm)
  have sound : ∀ other, LocallySound (reordered d edges') nodes' other ↔ LocallySound d nodes other := by
    intro other
    simp only [LocallySound, getNode_perm distinct perm, superseded_perm distinct perm edgesPerm,
      pinsChanged_perm distinct perm edgesPerm]
    rfl
  simp only [Survives, relation, sound]

end

/-- The order of the nodes does not change the rule. -/
theorem promotionRule_perm (distinct : DistinctIds nodes) (perm : nodes'.Perm nodes) :
    promotionRule d nodes' = promotionRule d nodes := by
  have survives : ∀ taskId, Survives d nodes' taskId ↔ Survives d nodes taskId :=
    survives_perm distinct perm (List.Perm.refl d.edges)
  have same := sameRecords_perm distinct perm
  simp only [promotionRule, getNode_perm distinct perm, survives, promotable_frame same,
    (perm.map VPGNode.nodeId).mem_iff]

/-! ## The same outcome -/

/-- What a node's validity and lifecycle are. -/
def stateAt (rows : List VPGNode) (nodeId : String) : Option (NodeValidity × NodeLifecycle) :=
  (getNode rows nodeId).map fun node => (node.validity, node.lifecycle)

theorem stateAt_of_views (same : SameViews rows rows') (nodeId) : stateAt rows' nodeId = stateAt rows nodeId := by
  have fields := congrArg (Option.map fun view : ReadyView => (view.validity, view.lifecycle)) (same nodeId)
  rw [Option.map_map, Option.map_map] at fields
  exact fields

theorem verifiedTask_iff_stateAt : VerifiedTask rows taskId ↔
    isTaskAt rows taskId = true ∧ (stateAt rows taskId).map Prod.fst = some .verified := by
  rw [isTaskAt_iff, stateAt, VerifiedTask]
  cases getNode rows taskId <;> simp

variable (d : Derivation)

theorem readyView_recordSnapshot (nodes) (task) : readyView (recordSnapshot d nodes task) = readyView task := by
  simp only [readyView, recordSnapshot, Dict.get_set, VPGNode.isTask, VPGNode.nodeType]
  rfl

/-- The closing step, on what the frontier reads. -/
theorem readyView_closeVerified : readyView (closeVerified d task).1 = if taskShouldBeClosed task = true then
    { readyView task with lifecycle := .closed } else readyView task := by
  unfold closeVerified
  split
  · rfl
  rfl

/-- Promotion does not depend on the order of the rows, up to the order in
which the snapshot lists the pins. -/
theorem readyView_promote (nodes nodes') (edges') (task) : readyView (promote (reordered d edges') nodes' task).1 =
    readyView (promote d nodes task).1 := by
  unfold promote
  split
  · simp only [promoteStale, readyView_closeVerified, readyView_recordSnapshot]
    rfl
  simp only [promoteUnverified, readyView_closeVerified, readyView_recordSnapshot]
  rfl

theorem readyView_settleGoal :
    readyView (settleGoal (reordered d edges') closes goal) = readyView (settleGoal d closes goal) := by
  unfold settleGoal
  split
  · rfl
  split
  · rfl
  rfl

/-- The closure test reads the Tasks as the frontier does. -/
theorem goalIsClosed_views (perm : edges'.Perm edges)
    (sameTypes : ∀ nodeId, isTaskAt rows' nodeId = isTaskAt rows nodeId)
    (tasks : ∀ nodeId, isTaskAt rows nodeId = true →
      (getNode rows' nodeId).map readyView = (getNode rows nodeId).map readyView) (goalId) :
    goalIsClosed goalId rows' edges' = goalIsClosed goalId rows edges := by
  have dependency : ∀ taskId, TaskDependency rows' edges' goalId taskId ↔
      TaskDependency rows edges goalId taskId := fun taskId => by
    rw [TaskDependency, TaskDependency, (targetsOf_perm perm).mem_iff, sameTypes]
  rw [Bool.eq_iff_iff, goalIsClosed_iff, goalIsClosed_iff]
  simp only [dependency]
  refine and_congr Iff.rfl (forall₂_congr fun taskId edge => ?_)
  have view := tasks taskId edge.2
  obtain ⟨task, found, _⟩ := isTaskAt_iff.mp edge.2
  rw [found] at view ⊢
  obtain ⟨task', found', fields⟩ := map_eq_some_iff.mp view
  simp only [readyView, ReadyView.mk.injEq] at fields
  simp only [found', some.injEq, exists_eq_left', fields]

section
variable {d : Derivation} {nodes nodes' : List VPGNode} {edges' : List VPGEdge}
  (distinct : DistinctIds nodes) (perm : nodes'.Perm nodes)
  (edgesPerm : edges'.Perm d.edges)
include distinct perm edgesPerm

section
variable (promoted : ∀ taskId, Promoted (reordered d edges') nodes' taskId ↔ Promoted d nodes taskId)
include promoted

/-- Two enumerations that promote the same Tasks derive the same Tasks. -/
theorem derived_sameTask (found : getNode nodes taskId = some task) (isTask : task.isTask = true) :
    (getNode (closed (reordered d edges') nodes').rows taskId).map readyView =
    (getNode (closed d nodes).rows taskId).map readyView := by
  have distinct' : DistinctIds nodes' := (perm.map _).nodup_iff.mpr distinct
  have found' : getNode nodes' taskId = some task := (getNode_perm distinct perm taskId).trans found
  have sameSurvivor := survives_perm distinct perm edgesPerm taskId
  rcases derived_outcome (d := d) distinct found isTask with ⟨survives, eq⟩ | ⟨gone, added, eq⟩ | ⟨gone, left, eq⟩
  · rcases derived_outcome (d := reordered d edges') distinct' found' isTask with
      ⟨_, eq'⟩ | ⟨gone, _⟩ | ⟨gone, _⟩
    · rw [eq, eq', map_some, map_some, readyView_recordSnapshot, readyView_recordSnapshot]
    · exact absurd (sameSurvivor.mpr survives) gone
    exact absurd (sameSurvivor.mpr survives) gone
  · rcases derived_outcome (d := reordered d edges') distinct' found' isTask with
      ⟨survives, _⟩ | ⟨_, _, eq'⟩ | ⟨_, left, _⟩
    · exact absurd (sameSurvivor.mp survives) gone
    · rw [eq, eq', map_some, map_some]
      exact congrArg some (readyView_promote d nodes nodes' edges' (lost d task))
    · exact absurd ((promoted taskId).mpr added) left
  rcases derived_outcome (d := reordered d edges') distinct' found' isTask with
    ⟨survives, _⟩ | ⟨_, added, _⟩ | ⟨_, _, eq'⟩
  · exact absurd (sameSurvivor.mp survives) gone
  · exact absurd ((promoted taskId).mp added) left
  rw [eq, eq']
  rfl

/-- Two enumerations that promote the same Tasks derive the same nodes, as far
as states and the frontier are concerned. -/
theorem derived_sameViews : SameViews (closed d nodes).rows (closed (reordered d edges') nodes').rows := by
  have distinct' : DistinctIds nodes' := (perm.map _).nodup_iff.mpr distinct
  have frame := closed_frame (d := d) nodes
  have frame' := closed_frame (d := reordered d edges') nodes'
  have types : ∀ nodeId, isTaskAt (closed (reordered d edges') nodes').rows nodeId =
      isTaskAt (closed d nodes).rows nodeId := fun nodeId => by
    rw [frame'.sameRecords.isTaskAt, (sameRecords_perm distinct perm).isTaskAt, frame.sameRecords.isTaskAt]
  have tasks : ∀ nodeId, isTaskAt (closed d nodes).rows nodeId = true →
      (getNode (closed (reordered d edges') nodes').rows nodeId).map readyView =
        (getNode (closed d nodes).rows nodeId).map readyView := by
    intro nodeId isTask
    rw [frame.sameRecords.isTaskAt] at isTask
    obtain ⟨task, found, taskType⟩ := isTaskAt_iff.mp isTask
    exact derived_sameTask distinct perm edgesPerm promoted found taskType
  intro nodeId
  have sameNode := getNode_perm distinct perm nodeId
  cases found : getNode nodes nodeId with
  | none => rw [frame.missing found, frame'.missing (sameNode.trans found)]
  | some node =>
    have found' := sameNode.trans found
    by_cases isTask : node.isTask = true
    · exact derived_sameTask distinct perm edgesPerm promoted found isTask
    by_cases isGoal : node.isGoal = true
    · rw [derived_goal distinct found isGoal, derived_goal distinct' found' isGoal, map_some,
        map_some, readyView_settleGoal]
      exact congrArg (fun closes => some (readyView (settleGoal d closes node)))
        (goalIsClosed_views edgesPerm types tasks nodeId)
    obtain ⟨after, hit, same⟩ := frame.forward found
    obtain ⟨after', hit', same'⟩ := frame'.forward found'
    rw [Bool.not_eq_true] at isTask isGoal
    rw [hit, hit', same.other isTask isGoal, same'.other isTask isGoal]

end

end

/-! ## All enumerations -/

/-- All enumerations of the nodes and of the edges lead to the same validity and
lifecycle of every node, and to the same ready frontier. -/
def OrderIndependent (d : Derivation) (nodes : List VPGNode) : Prop :=
  ∀ nodes' edges', nodes'.Perm nodes → edges'.Perm d.edges →
    (∀ nodeId, stateAt (recomputeDerivedState (reordered d edges') nodes').1 nodeId =
      stateAt (recomputeDerivedState d nodes).1 nodeId) ∧
    computeReadyTaskIds (recomputeDerivedState (reordered d edges') nodes').1 edges' =
      computeReadyTaskIds (recomputeDerivedState d nodes).1 d.edges

/-- Whichever VERIFIES edge of each Verification is found first, the same Tasks
pass the promotion tests above nothing but VERIFIED Tasks, and no further Task
passes them above some of these. -/
structure OrderFree (d : Derivation) (nodes : List VPGNode) : Prop where
  sameStart : ∀ edges', edges'.Perm d.edges → ∀ taskId,
    (promotionRule (reordered d edges') nodes).Initial taskId ↔ (promotionRule d nodes).Initial taskId
  settled : ∀ edges', edges'.Perm d.edges → ∀ taskId, (promotionRule (reordered d edges') nodes).Enabled
      (promotionRule (reordered d edges') nodes).Initial taskId →
    (promotionRule (reordered d edges') nodes).Initial taskId

section
variable {d : Derivation} {nodes nodes' : List VPGNode}

theorem ready_stored (ready : (promotionRule d nodes).ready taskId) : taskId ∈ nodes.map VPGNode.nodeId := by
  obtain ⟨task, found, _⟩ := ready
  exact lookup_isSome.mp (isSome_iff_exists.mpr ⟨task, found⟩)

/-- Without a Task that is enabled late, the promoted Tasks are the initial ones. -/
theorem promoted_iff_initial (distinct : DistinctIds nodes) (perm : nodes'.Perm nodes)
    (settled : ∀ taskId, (promotionRule d nodes).Enabled (promotionRule d nodes).Initial taskId →
      (promotionRule d nodes).Initial taskId) : Promoted d nodes' taskId ↔ (promotionRule d nodes).Initial taskId := by
  have distinct' : DistinctIds nodes' := (perm.map _).nodup_iff.mpr distinct
  rw [Promoted, promotionRule_perm distinct perm, Rule.pass_iff_initial distinct' fun other _ => settled other]
  exact ⟨And.right, fun initial => ⟨(perm.map _).mem_iff.mpr (ready_stored initial.1), initial⟩⟩

/-- If all orders of the nodes promote the same Tasks, none is enabled late. -/
theorem settled_of_promoted (distinct : DistinctIds nodes)
    (same : ∀ nodes', nodes'.Perm nodes → ∀ taskId, Promoted d nodes' taskId ↔ Promoted d nodes taskId)
    (enabled : (promotionRule d nodes).Enabled (promotionRule d nodes).Initial taskId) :
    (promotionRule d nodes).Initial taskId := by
  by_contra late
  obtain ⟨task, found, _⟩ := enabled.1
  obtain ⟨before, after, rfl⟩ := append_of_mem (lookup_mem found)
  have named : task.nodeId = taskId := lookup_key found
  have first : (task :: (before ++ after)).Perm (before ++ task :: after) := perm_middle.symm
  have last := (perm_append_singleton task _).trans first
  have unique : (taskId :: (before ++ after).map VPGNode.nodeId).Nodup := by
    rw [← named]
    exact (first.map _).nodup_iff.mpr distinct
  rw [nodup_cons] at unique
  have outcome := Rule.pass_unsettled unique.2 unique.1 enabled late fun other initial differs => by
    have stored := (first.map _).mem_iff.mpr (ready_stored initial.1)
    rw [map_cons, named] at stored
    exact (mem_cons.mp stored).resolve_left differs
  have promotedLast : Promoted d (before ++ after ++ [task]) taskId := by
    rw [Promoted, promotionRule_perm distinct last, map_append, map_singleton, named]
    exact outcome.1
  have promotedFirst := (same _ first taskId).mpr ((same _ last taskId).mp promotedLast)
  rw [Promoted, promotionRule_perm distinct first, map_cons, named] at promotedFirst
  exact outcome.2 promotedFirst

/-- Equal states mean that the same Tasks were promoted. -/
theorem promoted_of_states (distinct : DistinctIds nodes) (perm : nodes'.Perm nodes)
    (edgesPerm : edges'.Perm d.edges) (states : ∀ nodeId, stateAt (closed (reordered d edges') nodes').rows nodeId =
      stateAt (closed d nodes).rows nodeId) (taskId) :
    Promoted (reordered d edges') nodes' taskId ↔ Promoted d nodes taskId := by
  have distinct' : DistinctIds nodes' := (perm.map _).nodup_iff.mpr distinct
  have types : isTaskAt (closed (reordered d edges') nodes').rows taskId =
      isTaskAt (closed d nodes).rows taskId := by
    rw [(closed_frame nodes').sameRecords.isTaskAt, (sameRecords_perm distinct perm).isTaskAt,
      (closed_frame nodes).sameRecords.isTaskAt]
  have verified : VerifiedTask (closed (reordered d edges') nodes').rows taskId ↔
      VerifiedTask (closed d nodes).rows taskId := by
    rw [verifiedTask_iff_stateAt, verifiedTask_iff_stateAt, types, states]
  rw [derived_verified_iff distinct', derived_verified_iff distinct,
    survives_perm distinct perm edgesPerm] at verified
  have gone : ∀ {d : Derivation} {nodes : List VPGNode}, Promoted d nodes taskId →
      ¬ Survives d nodes taskId := fun added => by
    obtain ⟨_, _, gone, _⟩ := ready_of_pass added
    exact gone
  constructor
  · intro added
    refine (verified.mp (Or.inr added)).resolve_left fun survives => ?_
    exact gone added ((survives_perm distinct perm edgesPerm taskId).mpr survives)
  · intro added
    exact (verified.mpr (Or.inr added)).resolve_left (gone added)

end

/-- The Tasks that one Verification verifies have the same pins. -/
def TargetsAgree (nodes : List VPGNode) (edges : List VPGEdge) : Prop :=
  ∀ first ∈ edges, ∀ second ∈ edges, first.edgeType = .verifies → second.edgeType = .verifies →
    first.sourceNodeId = second.sourceNodeId →
      isTaskAt nodes first.targetNodeId = isTaskAt nodes second.targetNodeId ∧
        sameSet (taskCurrentArtifactVersions first.targetNodeId nodes edges)
          (taskCurrentArtifactVersions second.targetNodeId nodes edges) = true

section
variable {edges' : List VPGEdge}

section
variable (agree : TargetsAgree nodes edges)
include agree

theorem TargetsAgree.perm (perm : edges'.Perm edges) : TargetsAgree nodes edges' := by
  intro first member second member' kind kind' source
  obtain ⟨types, pins⟩ := agree first (perm.mem_iff.mp member) second (perm.mem_iff.mp member') kind kind' source
  refine ⟨types, ?_⟩
  simpa only [sameSet_iff, mem_pins_perm perm] using pins

/-- Which of the targets comes first does not matter for the judgement. -/
theorem judged_perm (perm : edges'.Perm edges) (judged : ∃ taskId, verifiesTarget verificationId edges' = some taskId ∧
      (isTaskAt nodes taskId = true → sameSet bound (taskCurrentArtifactVersions taskId nodes edges') = true)) :
    ∃ taskId, verifiesTarget verificationId edges = some taskId ∧
      (isTaskAt nodes taskId = true → sameSet bound (taskCurrentArtifactVersions taskId nodes edges) = true) := by
  obtain ⟨first, target, matched⟩ := judged
  have there := (targetsOf_perm perm).mem_iff.mp (mem_of_mem_head? target)
  obtain ⟨second, head⟩ : ∃ second, verifiesTarget verificationId edges = some second :=
    isSome_iff_exists.mp (isSome_head?.mpr (ne_nil_of_mem there))
  obtain ⟨edge, member, kind, source, rfl⟩ := mem_targetsOf.mp there
  obtain ⟨edge', member', kind', source', rfl⟩ := mem_targetsOf.mp (mem_of_mem_head? head)
  obtain ⟨types, pins⟩ := agree edge member edge' member' kind kind' (source.trans source'.symm)
  refine ⟨edge'.targetNodeId, head, fun isTask => ?_⟩
  have matched' := matched (types.trans isTask)
  simp only [sameSet_iff, mem_pins_perm perm] at matched' pins ⊢
  exact fun pin => (matched' pin).trans (pins pin)

theorem evidenceValidAt_perm (perm : edges'.Perm edges) :
    evidenceValidAt facts nodes edges' = evidenceValidAt facts nodes edges := by
  funext evidenceId
  unfold evidenceValidAt
  cases evidenceAt nodes evidenceId with
  | none => rfl
  | some found =>
    rw [Bool.eq_iff_iff, validateEvidence_valid, validateEvidence_valid, checkBinding_ok, checkBinding_ok]
    refine and_congr Iff.rfl (exists_congr fun verificationId => and_congr Iff.rfl
      (and_congr (targetsOf_perm perm).mem_iff (and_congr Iff.rfl ⟨judged_perm agree perm, ?_⟩)))
    exact judged_perm (agree.perm perm) perm.symm

theorem passingVerification_perm (perm : edges'.Perm edges) :
    passingVerification facts nodes edges' = passingVerification facts nodes edges := by
  funext verificationId
  rw [passingVerification, passingVerification, evidenceValidAt_perm agree perm]
  congr 1
  rw [Bool.eq_iff_iff, any_eq_true, any_eq_true]
  simp only [(targetsOf_perm perm).mem_iff]

end

theorem hasFreshEvidence_perm (perm : edges'.Perm edges) (task) :
    hasFreshEvidenceSinceStale task edges' = hasFreshEvidenceSinceStale task edges := by
  unfold hasFreshEvidenceSinceStale
  split
  · rfl
  split
  · rfl
  rw [Bool.eq_iff_iff, any_eq_true, any_eq_true]
  simp only [perm.mem_iff, (sourcesOf_perm perm).mem_iff]

variable {d : Derivation} (distinct : DistinctIds nodes)
  (agree : TargetsAgree nodes d.edges) (edgesPerm : edges'.Perm d.edges)
include distinct agree edgesPerm

theorem promotable_perm (task) : Promotable (reordered d edges') nodes task ↔ Promotable d nodes task := by
  have counts : ∀ taskId, (sourcesOf edges' .verifies taskId).countP
      (passingVerification d.facts nodes edges') = (sourcesOf d.edges .verifies taskId).countP
      (passingVerification d.facts nodes d.edges) := fun taskId => by
    rw [passingVerification_perm agree edgesPerm, (sourcesOf_perm edgesPerm).countP_eq]
  simp only [Promotable, superseded_perm distinct (List.Perm.refl nodes) edgesPerm]
  simp only [reordered, counts, hasFreshEvidence_perm edgesPerm]

theorem promotionRule_edges : promotionRule (reordered d edges') nodes = promotionRule d nodes := by
  have survives := survives_perm distinct (List.Perm.refl nodes) edgesPerm
  simp only [promotionRule, survives, promotable_perm distinct agree edgesPerm]
  simp only [reordered, (targetsOf_perm edgesPerm).mem_iff, lost]
  rfl

omit edgesPerm in
/-- When the targets agree, only the order of the nodes can matter. -/
theorem orderFree_of_agree (settled : ∀ taskId ∈ nodes.map VPGNode.nodeId,
    (promotionRule d nodes).Enabled (promotionRule d nodes).Initial taskId →
      (promotionRule d nodes).Initial taskId) : OrderFree d nodes := by
  constructor
  · intro edges' edgesPerm taskId
    rw [promotionRule_edges distinct agree edgesPerm]
  intro edges' edgesPerm taskId
  rw [promotionRule_edges distinct agree edgesPerm]
  exact fun enabled => settled taskId (ready_stored enabled.1) enabled

end

/-! ## Two Tasks in two orders -/

section
variable (d : Derivation) (nodes : List VPGNode)

instance : DecidablePred (promotionRule d nodes).ready := fun taskId =>
  inferInstanceAs (Decidable (∃ task ∈ getNode nodes taskId, ¬ Survives d nodes taskId ∧ _))

instance : DecidablePred (promotionRule d nodes).given := fun taskId =>
  inferInstanceAs (Decidable (∃ task ∈ getNode nodes taskId, Survives d nodes taskId ∧ _))

instance (added : String → Prop) [DecidablePred added] :
    DecidablePred ((promotionRule d nodes).Enabled added) := fun taskId =>
  decidable_of_iff ((promotionRule d nodes).ready taskId ∧
      ∀ target ∈ targetsOf d.edges .dependsOn taskId, target ∈ nodes.map VPGNode.nodeId →
        (promotionRule d nodes).given target ∨ added target)
    (and_congr Iff.rfl ⟨fun holds target needed => holds target needed.1 needed.2,
      fun holds target edge stored => holds target ⟨edge, stored⟩⟩)

instance : DecidablePred (promotionRule d nodes).Initial :=
  inferInstanceAs (DecidablePred ((promotionRule d nodes).Enabled fun _ => False))

instance (edges : List VPGEdge) : Decidable (TargetsAgree nodes edges) :=
  inferInstanceAs (Decidable (∀ first ∈ edges, _))

end

/-- A node of the graph `G` as a commit has stored it. -/
def storedNode (nodeId : String) (payload : Payload) : VPGNode :=
  { nodeId := nodeId, graphId := "G", lifecycle := .admitted, createdInVersion := 1,
    updatedInVersion := 1, createdByPid := "P", payload := payload }

def storedEdge (edgeId : String) (edgeType : EdgeType) (source target : String) : VPGEdge :=
  ⟨edgeId, "G", edgeType, source, target, 1, "P"⟩

/-- Passing Evidence of a Verification. -/
def passingEvidence (nodeId verificationId : String) : VPGNode :=
  storedNode nodeId (.evidence { result := .pass, sourceVerificationId := some verificationId,
                                 sourceActionId := some "A", producedByPid := "P" })

/-- The Task `T` depends on the Task `U`; both have passing Evidence. -/
def chainNodes (u : VPGNode) : List VPGNode :=
  [storedNode "T" (.task {}), u, storedNode "V" (.verification {}), storedNode "W" (.verification {}),
    passingEvidence "E" "V", passingEvidence "F" "W"]

def chainDerivation : Derivation :=
  { graphId := "G", graphVersion := 2, causationPatch := "p", facts := RunMonitor.committedAction.facts
    edges := [storedEdge "e1" .dependsOn "T" "U", storedEdge "e2" .verifies "V" "T",
      storedEdge "e3" .verifies "W" "U", storedEdge "e4" .produces "V" "E",
      storedEdge "e5" .produces "W" "F"] }

/-- The Verification `V` verifies the Task `S`, which has no pins, and the Task
`T`, which has one; its Evidence names no artifact. -/
def sharedNodes : List VPGNode :=
  [storedNode "S" (.task {}), storedNode "T" (.task {}),
    storedNode "T::u@1" (.artifactRef (RunMonitor.artifactAt "u" 1)),
    storedNode "V" (.verification {}), passingEvidence "E" "V"]

def sharedDerivation : Derivation :=
  { chainDerivation with
    edges := [storedEdge "e1" .verifies "V" "S", storedEdge "e2" .verifies "V" "T",
      storedEdge "e3" .produces "T" "T::u@1", storedEdge "e4" .produces "V" "E"] }

theorem acyclic_of_search (searched : PatchValidation.detectCycle [] edges = none) : Acyclic edges :=
  detectCycle_none searched

end LongHorizonOS.DerivationOrder
