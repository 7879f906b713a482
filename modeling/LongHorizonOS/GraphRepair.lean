import LongHorizonOS.EvidenceGrounds
import LongHorizonOS.FrontierSpec
import LongHorizonOS.InvalidationEngine
import LongHorizonOS.LifecycleInvariants
import LongHorizonOS.PromotionOrder
import LongHorizonOS.StoreEvolution

/-! A repair derives staleness twice: the D3 engine computes a cone from the
causes, and a refresh with the same seeds runs the derivation of a commit. On
every reachable graph the two agree on the Tasks that turn STALE and on the
Goals that reopen. The frontier that the engine reports is ready in the
committed version unless a seed was STALE before without the repair flag. -/
namespace LongHorizonOS.GraphRepair
open KeyedRows PythonValues GraphModels EvidenceVerification ReadyFrontier PatchValidation DerivedState
  List
open GraphStore PatchSubmission StoreConsistency DerivationFrame InvalidationSpec PromotionSpec PatchSpec
open CommittedRuns RunMonitor StoreEvolution EvidenceGrounds LifecycleInvariants FrontierSpec
open InvalidationEngine

/-! ## What a repair hands to the engine -/

def taskNodesOf (nodes : List VPGNode) : List VPGNode := nodes.filter VPGNode.isTask

def goalNodesOf (nodes : List VPGNode) : List VPGNode := nodes.filter VPGNode.isGoal

def evidenceNodesOf (nodes : List VPGNode) : List VPGNode :=
  nodes.filter fun node => decide (node.nodeType = .evidence)

/-- `goal_direct_tasks` -/
def goalDirectTasks (nodes : List VPGNode) (edges : List VPGEdge) : List (String × List String) :=
  (sortedIds ((goalNodesOf nodes).map VPGNode.nodeId)).map fun goalId =>
    (goalId, sortedIds ((targetsOf edges .dependsOn goalId).filter fun target =>
      decide (target ∈ taskIds (taskNodesOf nodes))).dedup)

/-- The engine inputs that `AgentOS.repair` builds from its snapshot. It passes no claim hook. -/
def repairInputs (graphId : String) (version : Int) (nodes : List VPGNode) (edges : List VPGEdge)
    (causes : List InvalidationCause) (hasActiveClaim : Option (String → Bool) := none) : EngineInputs :=
  { graphId := graphId
    currentVersion := version
    taskNodes := taskNodesOf nodes
    goalNodes := goalNodesOf nodes
    evidenceNodes := evidenceNodesOf nodes
    edges := edges
    explicitCauses := some causes
    hasActiveClaim := hasActiveClaim
    goalDirectTasks := goalDirectTasks nodes edges }

section
variable {nodes : List VPGNode} {edges : List VPGEdge} {taskId dependency : String}
  (distinct : DistinctIds nodes)
include distinct

theorem getNode_part : getNode (nodes.filter part) taskId = some node ↔
    getNode nodes taskId = some node ∧ part node = true := by
  have distinctPart : ((nodes.filter part).map VPGNode.nodeId).Nodup := distinct.sublist (filter_sublist.map _)
  rw [getNode, getNode, lookup_eq_some distinctPart, lookup_eq_some distinct, mem_filter]
  exact and_right_comm

theorem mem_taskIds : taskId ∈ taskIds (taskNodesOf nodes) ↔ isTaskAt nodes taskId = true := by
  rw [isTaskAt_iff, taskIds, ← lookup_isSome, Option.isSome_iff_exists]
  exact exists_congr fun task => getNode_part distinct

theorem isVerifiedIn_iff : isVerifiedIn (taskNodesOf nodes) taskId = true ↔ VerifiedTask nodes taskId := by
  rw [isVerifiedIn, decide_eq_true_eq, Option.map_eq_some_iff]
  refine exists_congr fun task => ?_
  rw [taskNodesOf, getNode_part distinct, and_assoc]

theorem mem_taskForwardDeps : dependency ∈ (forwardDeps (taskNodesOf nodes) edges).get taskId ↔
    TaskDependency nodes edges taskId dependency ∧ isTaskAt nodes taskId = true := by
  rw [mem_forwardDeps, mem_taskIds distinct, mem_taskIds distinct, TaskDependency, and_assoc]
  exact and_congr_right fun _ => and_comm

theorem mem_deriveGoalReopen : goalId ∈ deriveGoalReopen (goalNodesOf nodes) cone (goalDirectTasks nodes edges) ↔
    ∃ goal, getNode nodes goalId = some goal ∧ goal.isGoal = true ∧ goal.lifecycle = .closed ∧
      ∃ taskId, TaskDependency nodes edges goalId taskId ∧ taskId ∈ cone.affectedNodeIds := by
  rw [deriveGoalReopen, mem_filter, mem_sortedIds, Bool.and_eq_true, decide_eq_true_eq,
    Option.map_eq_some_iff, any_eq_true]
  constructor
  · rintro ⟨member, ⟨goal, found, lifecycle⟩, taskId, direct, affected⟩
    rw [goalDirectTasks, lookup_tabulate _ (mem_sortedIds.mpr member)] at direct
    obtain ⟨hit, isGoal⟩ := (getNode_part distinct).mp found
    simp only [Option.map_some, Option.getD_some, mem_sortedIds, mem_dedup, mem_filter,
      decide_eq_true_eq, mem_taskIds distinct] at direct
    exact ⟨goal, hit, isGoal, lifecycle, taskId, direct, of_decide_eq_true affected⟩
  rintro ⟨goal, hit, isGoal, lifecycle, taskId, direct, affected⟩
  have found : getNode (goalNodesOf nodes) goalId = some goal := (getNode_part distinct).mpr ⟨hit, isGoal⟩
  have member : goalId ∈ (goalNodesOf nodes).map VPGNode.nodeId :=
    lookup_isSome.mp (Option.isSome_iff_exists.mpr ⟨goal, found⟩)
  refine ⟨member, ⟨goal, found, lifecycle⟩, taskId, ?_, decide_eq_true affected⟩
  rw [goalDirectTasks, lookup_tabulate _ (mem_sortedIds.mpr member)]
  simp only [Option.map_some, Option.getD_some, mem_sortedIds, mem_dedup, mem_filter,
    decide_eq_true_eq, mem_taskIds distinct]
  exact direct

end

/-! ## The cone and the survivors -/

/-- No VERIFIED Task outside the seeds has a changed pin or a superseded artifact. -/
def PinsHold (d : Derivation) (nodes : List VPGNode) : Prop :=
  ∀ task ∈ nodes, task.isTask = true → task.validity = .verified → task.nodeId ∉ d.invalidationSeedTaskIds →
    pinsChanged d nodes task = false ∧ superseded d nodes task.nodeId = false

instance (d : Derivation) (nodes : List VPGNode) : Decidable (PinsHold d nodes) :=
  inferInstanceAs (Decidable (∀ task ∈ nodes, _))

/-- The causes name exactly the given Tasks. -/
def CausesFor (causes : List InvalidationCause) (seeds : List String) : Prop :=
  ∀ taskId, (∃ cause ∈ causes, cause.sourceNodeId = some taskId) ↔ taskId ∈ seeds

section
/-- A VERIFIED Task is affected exactly if it depends, at some distance, on a named Task. -/
theorem verified_affected (distinct : DistinctIds nodes) (closed : Closed nodes edges)
    (verified : VerifiedTask nodes taskId) :
    taskId ∈ (computeInvalidationCone (taskNodesOf nodes) edges graphId version causes
        verdicts).affectedNodeIds ↔ ∃ seed ∈ causeSeeds (taskNodesOf nodes) causes,
        Relation.ReflTransGen (TaskDependency nodes edges) taskId seed := by
  have isTask : ∀ {other}, VerifiedTask nodes other → isTaskAt nodes other = true :=
    fun ⟨task, found, isTask, _⟩ => isTaskAt_iff.mpr ⟨task, found, isTask⟩
  rw [mem_affected]
  refine exists_congr fun seed => and_congr_right fun _ => ⟨fun path => ?_, fun path => ?_⟩
  · clear verified
    induction path with
    | refl => exact .refl
    | tail _ follows below =>
      exact below.head ((mem_taskForwardDeps distinct).mp (mem_verifiedDependents.mp follows).1).1
  -- Every Task on the way down is VERIFIED, so the cone climbs back along it.
  induction path using Relation.ReflTransGen.head_induction_on with
  | refl => exact .refl
  | head edge _ climbs =>
    refine (climbs (closed _ _ verified edge)).tail (mem_verifiedDependents.mpr ⟨?_, ?_⟩)
    · exact (mem_taskForwardDeps distinct).mpr ⟨edge, isTask verified⟩
    exact (isVerifiedIn_iff distinct).mpr verified

/-- The row order of the snapshot does not matter. -/
theorem verified_affected_perm (distinct : DistinctIds nodes) (perm : nodes'.Perm nodes)
    (edgesPerm : edges'.Perm edges) (closed : Closed nodes edges)
    (verified : VerifiedTask nodes taskId) (verdicts verdicts') :
    taskId ∈ (computeInvalidationCone (taskNodesOf nodes') edges' graphId version causes verdicts').affectedNodeIds ↔
      taskId ∈ (computeInvalidationCone (taskNodesOf nodes) edges graphId version causes verdicts).affectedNodeIds := by
  have distinct' : DistinctIds nodes' := (perm.map _).nodup_iff.mpr distinct
  have sameRelation : TaskDependency nodes' edges' = TaskDependency nodes edges := by
    funext task dependency
    exact propext (taskDependency_perm distinct perm edgesPerm)
  rw [verified_affected distinct closed verified, verified_affected distinct'
    (closed_perm distinct perm edgesPerm closed) ((verifiedTask_perm distinct perm).mpr verified)]
  simp only [sameRelation, mem_causeSeeds, mem_taskIds distinct', mem_taskIds distinct,
    (sameRecords_perm distinct perm).isTaskAt]

/-- What survives the derivation is what the cone spares. -/
theorem affected_iff_lost (distinct : DistinctIds nodes) (closed : Closed nodes d.edges)
    (pins : PinsHold d nodes) (caused : CausesFor causes d.invalidationSeedTaskIds)
    (named : "" ∉ d.invalidationSeedTaskIds) (verified : VerifiedTask nodes taskId) :
    taskId ∈ (computeInvalidationCone (taskNodesOf nodes) d.edges graphId version causes
      verdicts).affectedNodeIds ↔ ¬ Survives d nodes taskId := by
  rw [verified_affected distinct closed verified]
  constructor
  · rintro ⟨seed, member, path⟩ survives
    obtain ⟨_, _, _, _, unseeded, _⟩ := survives seed path
    exact unseeded ((caused seed).mp (mem_causeSeeds.mp member).1)
  intro lost
  by_contra spared
  refine lost fun other path => ?_
  have reached : VerifiedTask nodes other := by
    induction path with
    | refl => exact verified
    | tail _ edge above => exact closed _ _ above edge
  obtain ⟨task, found, isTask, valid⟩ := reached
  have unseeded : other ∉ d.invalidationSeedTaskIds := fun seeded => by
    refine spared ⟨other, mem_causeSeeds.mpr ⟨(caused other).mpr seeded, ?_, ?_⟩, path⟩
    · exact fun empty => named (empty ▸ seeded)
    exact (mem_taskIds distinct).mpr (isTaskAt_iff.mpr ⟨task, found, isTask⟩)
  obtain rfl : task.nodeId = other := lookup_key found
  exact ⟨task, found, isTask, valid, unseeded, pins task (lookup_mem found) isTask valid unseeded⟩

end

/-! ## Refresh commits -/

theorem perform_reached (sound : Consistent store)
    (reached : Reached store graphId version) : Reached (perform store request) graphId version := by
  obtain ⟨record, found, le⟩ := reached
  obtain ⟨now, foundNow, grown⟩ := (perform_evolves sound).graph graphId record found
  exact ⟨now, foundNow, by omega⟩

/-- An edge of a candidate was there before or is dated with the proposed version. -/
theorem validatePatch_dated (ran : validatePatch req = .ok cand) (member : edge ∈ cand.edges) :
    edge ∈ req.currentEdges ∨ edge.createdInVersion = proposedVersion req.patch := by
  refine validatePatch_invariant (P := fun cand => ∀ edge ∈ cand.edges, edge ∈ req.currentEdges ∨
    edge.createdInVersion = proposedVersion req.patch) (fun _ old => .inl old) ?_ ran edge member
  intro cand next op _ dated applied edge member
  cases applied with
  | node _ _ _ _ edges => exact dated edge (edges ▸ member)
  | edge _ fresh adds =>
    rw [adds.edges] at member
    rcases mem_append.mp member with old | new
    · exact dated edge old
    exact .inr (mem_singleton.mp new ▸ fresh.created)
  | artifact _ _ _ _ _ _ _ freshEdge adds =>
    rw [adds.edges] at member
    rcases mem_append.mp member with old | new
    · exact dated edge old
    exact .inr (mem_singleton.mp new ▸ freshEdge.created)

/-- No committed edge is dated after the current version. -/
theorem execute_dated (requests) (graphId) : ∀ edge ∈ committedEdges (execute requests) graphId,
    Reached (execute requests) graphId edge.createdInVersion := by
  induction requests using List.reverseRecOn with
  | nil => exact fun _ member => nomatch member
  | append_singleton requests request dated =>
    have consistent := execute_consistent requests
    rw [execute_append]
    intro edge member
    rcases perform_cases (execute requests) request with same | ⟨c, here, rfl, performed⟩
    · rw [(same graphId).2] at member
      exact perform_reached consistent (dated edge member)
    by_cases same : graphId = c.graphId
    · subst same
      rw [performed] at member ⊢
      rw [← here] at consistent dated
      rcases validatePatch_dated c.validated ((c.after_edges consistent).mem_iff.mp member) with old | new
      · rw [← performed, ← here]
        exact perform_reached consistent (dated edge (c.edges_perm.mem_iff.mp old))
      refine ⟨_, (Commit.after_record consistent c.graphId).trans (if_pos rfl), ?_⟩
      exact (new.trans c.proposedVersion).le
    · refine perform_reached consistent (dated edge ?_)
      rw [performed] at member
      rw [← here] at consistent ⊢
      rwa [(c.after_other consistent same).2] at member

/-- The commit of a refresh at the current version of a reached graph. -/
def Refreshes (c : Commit) (requests : List Request) (seeds : List String) : Prop :=
  c.store = execute requests ∧ ∃ authorPid reason patchId idempotencyKey d3Record readGuards,
    c.sub = refreshSubmission c.graphId authorPid reason patchId idempotencyKey
      c.record.currentVersion seeds d3Record readGuards

section
variable {c : Commit} {requests : List Request} {seeds : List String}
  (refreshes : Refreshes c requests seeds)
include refreshes

theorem refresh_consistent : Consistent c.store := refreshes.1 ▸ execute_consistent requests

theorem refresh_seeds : c.derivation.invalidationSeedTaskIds = seeds := by
  obtain ⟨_, _, _, _, _, _, _, submitted⟩ := refreshes
  rw [Commit.derivation, submitted]
  rfl

theorem refresh_repairs : c.derivation.allowRepairFrontier = true := by
  obtain ⟨_, _, _, _, _, _, _, submitted⟩ := refreshes
  rw [Commit.derivation, submitted]
  rfl

/-- The candidate of the empty patch is the snapshot. -/
theorem refresh_cand : c.cand.nodes = c.nodes ∧ c.cand.edges = c.edges := by
  have empty : (requestFor c.sub c.env.facts c.nodes c.edges).patch.operations = [] := by
    obtain ⟨_, _, _, _, _, _, _, submitted⟩ := refreshes
    rw [submitted]
    rfl
  have folded := (validatePatch_ok c.validated).1
  rw [empty] at folded
  have same := Except.ok.inj folded
  exact ⟨congrArg Candidate.nodes same.symm, congrArg Candidate.edges same.symm⟩

theorem refresh_edges : c.derivation.edges = c.edges := (refresh_cand refreshes).2

theorem refresh_closed : Closed c.nodes c.derivation.edges := by
  have closed := execute_closed requests c.graphId
  rw [← refreshes.1] at closed
  rw [refresh_edges refreshes]
  exact closed_perm (refresh_consistent refreshes).distinctNodes c.nodes_perm c.edges_perm closed

theorem refresh_before : getNode (committedNodes c.store c.graphId) nodeId = getNode c.nodes nodeId :=
  getNode_perm (c.nodes_distinct (refresh_consistent refreshes)) c.nodes_perm.symm nodeId

theorem refresh_after : getNode (committedNodes c.after c.graphId) nodeId =
    getNode (closed c.derivation c.nodes).rows nodeId := by
  have consistent := refresh_consistent refreshes
  rw [getNode_perm (c.derived_distinct consistent) (c.after_nodes consistent), c.derived_eq,
    (refresh_cand refreshes).1]

/-- Every edge is older than the version that the refresh commits. -/
theorem refresh_dated (member : edge ∈ c.derivation.edges) : edge.createdInVersion < c.derivation.graphVersion := by
  rw [refresh_edges refreshes] at member
  have dated := execute_dated requests c.graphId
  rw [← refreshes.1] at dated
  obtain ⟨record, found, le⟩ := dated edge (c.edges_perm.mem_iff.mp member)
  cases found.symm.trans c.found
  exact Int.lt_add_one_of_le le

/-- A Task that the refresh marks STALE finds no fresh Evidence in the same commit. -/
theorem marked_not_promotable : ¬ Promotable c.derivation c.nodes (markTaskStale c.derivation task).1 := by
  rintro ⟨_, _, _, _, unverified | ⟨_, _, fresh⟩⟩
  · cases unverified
  have stamp := staleStamp_marked c.derivation task
  unfold staleStamp at stamp
  split at stamp
  · rename_i required
    rw [hasFreshEvidenceSinceStale, required, stamp] at fresh
    simp only [Bool.not_true, Bool.false_eq_true, if_false, any_eq_true, Bool.and_eq_true, decide_eq_true_eq] at fresh
    obtain ⟨edge, member, _, later⟩ := fresh
    exact absurd (refresh_dated refreshes member) (not_lt.mpr later)
  · cases stamp

/-- A VERIFIED Task keeps its validity or is marked STALE. -/
theorem refresh_verified (found : getNode c.nodes taskId = some task) (isTask : task.isTask = true)
    (verified : task.validity = .verified) :
    (Survives c.derivation c.nodes taskId ∧ getNode (closed c.derivation c.nodes).rows taskId =
      some (recordSnapshot c.derivation c.nodes task)) ∨
    (¬ Survives c.derivation c.nodes taskId ∧ getNode (closed c.derivation c.nodes).rows taskId =
      some (markTaskStale c.derivation task).1) := by
  have marked : lost c.derivation task = (markTaskStale c.derivation task).1 := if_pos verified
  rcases derived_task (c.nodes_distinct (refresh_consistent refreshes)) found isTask
    with ⟨survives, _, after⟩ | ⟨_, ready, _⟩ | ⟨gone, after⟩
  · exact .inl ⟨survives, after⟩
  · exact absurd (marked ▸ ready) (marked_not_promotable refreshes)
  exact .inr ⟨gone, marked ▸ after⟩

/-- Any other Task is promoted or left as it is. -/
theorem refresh_unverified (found : getNode c.nodes taskId = some task)
    (isTask : task.isTask = true) (unverified : task.validity ≠ .verified) :
    (Promotable c.derivation c.nodes task ∧ getNode (closed c.derivation c.nodes).rows taskId =
      some (promote c.derivation c.nodes task).1) ∨ getNode (closed c.derivation c.nodes).rows taskId = some task := by
  have unmarked : lost c.derivation task = task := if_neg unverified
  rcases derived_task (c.nodes_distinct (refresh_consistent refreshes)) found isTask
    with ⟨_, verified, _⟩ | ⟨_, ready, after⟩ | ⟨_, after⟩
  · exact absurd verified unverified
  · rw [unmarked] at ready after
    exact .inl ⟨ready, after⟩
  rw [unmarked] at after
  exact .inr after

end

/-! ## Agreement -/

/-- VERIFIED before and STALE after. -/
def TurnsStale (before after : List VPGNode) (taskId : String) : Prop :=
  VerifiedTask before taskId ∧ ∃ task, getNode after taskId = some task ∧ task.validity = .stale

/-- A CLOSED Goal that is no longer CLOSED after. -/
def Reopens (before after : List VPGNode) (goalId : String) : Prop :=
  ∃ goal settled, getNode before goalId = some goal ∧ goal.isGoal = true ∧
    goal.lifecycle = .closed ∧ getNode after goalId = some settled ∧ settled.lifecycle ≠ .closed

/-- A derivation does what the engine reports: the VERIFIED Tasks of the cone turn
STALE, the reported Goals reopen, and every other Task keeps its validity
unless it may be promoted. -/
structure Agrees (before after : List VPGNode) (cone : InvalidationCone) (reopened : List String)
    (mayPromote : VPGNode → Prop) : Prop where
  stale : ∀ taskId, TurnsStale before after taskId ↔ VerifiedTask before taskId ∧ taskId ∈ cone.affectedNodeIds
  kept : ∀ taskId task, getNode before taskId = some task → task.isTask = true →
    ¬ TurnsStale before after taskId → ∃ now, getNode after taskId = some now ∧
      (now.validity = task.validity ∨ now.validity = .verified ∧ mayPromote task)
  goals : ∀ goalId, goalId ∈ reopened ↔ Reopens before after goalId

/-- `compute_invalidation_cone` on a snapshot with explicit causes. -/
def coneOn (c : Commit) (nodes : List VPGNode) (edges : List VPGEdge)
    (causes : List InvalidationCause) : InvalidationCone :=
  computeInvalidationCone (taskNodesOf nodes) edges c.graphId c.record.currentVersion causes

theorem refresh_kept (refreshes : Refreshes c requests seeds)
    (found : getNode (committedNodes c.store c.graphId) taskId = some task) (isTask : task.isTask = true)
    (kept : ¬ TurnsStale (committedNodes c.store c.graphId) (committedNodes c.after c.graphId) taskId) :
    ∃ now, getNode (committedNodes c.after c.graphId) taskId = some now ∧ (now.validity = task.validity ∨
        now.validity = .verified ∧ Promotable c.derivation c.nodes task) := by
  rw [refresh_before refreshes] at found
  rw [refresh_after refreshes]
  by_cases verified : task.validity = .verified
  · rcases refresh_verified refreshes found isTask verified with ⟨_, after⟩ | ⟨_, after⟩
    · exact ⟨_, after, .inl rfl⟩
    refine absurd ⟨⟨task, ?_, isTask, verified⟩, (markTaskStale c.derivation task).1, ?_, rfl⟩ kept
    · rw [refresh_before refreshes, found]
    rw [refresh_after refreshes, after]
  · rcases refresh_unverified refreshes found isTask verified with ⟨ready, after⟩ | after
    · exact ⟨_, after, .inr ⟨promote_validity task, ready⟩⟩
    exact ⟨_, after, .inl rfl⟩

/-- The Tasks below a CLOSED Goal are VERIFIED, and it stays CLOSED exactly if all survive. -/
theorem refresh_goal (refreshes : Refreshes c requests seeds)
    (found : getNode c.nodes goalId = some goal) (isGoal : goal.isGoal = true) (lifecycle : goal.lifecycle = .closed) :
    (∀ taskId, TaskDependency c.nodes c.derivation.edges goalId taskId → VerifiedTask c.nodes taskId) ∧
    (goalIsClosed goalId (closed c.derivation c.nodes).rows c.derivation.edges = true ↔
      ∀ taskId, TaskDependency c.nodes c.derivation.edges goalId taskId → Survives c.derivation c.nodes taskId) := by
  have consistent := refresh_consistent refreshes
  have goals := execute_goals requests c.graphId
  rw [← refreshes.1] at goals
  have settled : GoalsSettled c.nodes c.derivation.edges := by
    rw [refresh_edges refreshes]
    exact goalsSettled_perm consistent.distinctNodes c.nodes_perm c.edges_perm goals
  obtain ⟨nonempty, verified⟩ := goalIsClosed_iff.mp ((settled goalId goal found isGoal).mp lifecycle)
  refine ⟨fun taskId direct => ?_, ?_⟩
  · obtain ⟨task, hit, isTask, valid, _⟩ := verified taskId direct
    exact ⟨task, hit, isTask, valid⟩
  rw [goalIsClosed_iff]
  simp only [taskDependency_frame (closed_frame c.nodes).sameRecords, nonempty, true_and]
  refine forall₂_congr fun taskId direct => ?_
  obtain ⟨task, hit, isTask, valid, admitted⟩ := verified taskId direct
  rcases refresh_verified refreshes hit isTask valid with ⟨survives, after⟩ | ⟨gone, after⟩
  · simp only [survives, iff_true]
    exact ⟨_, after, (recordSnapshot_derived isTask).isTask.trans isTask, valid, admitted⟩
  simp only [gone, iff_false]
  rintro ⟨now, hitNow, _, still, _⟩
  cases after.symm.trans hitNow
  cases still

section
variable {c : Commit} {requests : List Request} {seeds : List String} {causes : List InvalidationCause}
  {nodes : List VPGNode} {edges : List VPGEdge} (refreshes : Refreshes c requests seeds)
  (nodesRead : nodes.Perm c.nodes) (edgesRead : edges.Perm c.edges) (caused : CausesFor causes seeds)
  (named : "" ∉ seeds) (pins : PinsHold c.derivation c.nodes)
include refreshes nodesRead edgesRead caused named pins

theorem refresh_affected (verified : VerifiedTask c.nodes taskId) :
    taskId ∈ (computeInvalidationCone (taskNodesOf nodes) edges c.graphId c.record.currentVersion causes
      verdicts).affectedNodeIds ↔ ¬ Survives c.derivation c.nodes taskId := by
  have distinct := c.nodes_distinct (refresh_consistent refreshes)
  have closed := refresh_closed refreshes
  rw [← refresh_edges refreshes] at edgesRead
  rw [← refresh_seeds refreshes] at caused named
  rw [verified_affected_perm distinct nodesRead edgesRead closed verified []]
  exact affected_iff_lost distinct closed pins caused named verified

theorem refresh_turnsStale (taskId) :
    TurnsStale (committedNodes c.store c.graphId) (committedNodes c.after c.graphId) taskId ↔
      VerifiedTask (committedNodes c.store c.graphId) taskId ∧
        taskId ∈ (coneOn c nodes edges causes).affectedNodeIds := by
  simp only [TurnsStale, VerifiedTask, refresh_before refreshes, refresh_after refreshes]
  refine and_congr_right fun verified => ?_
  rw [coneOn, refresh_affected refreshes nodesRead edgesRead caused named pins verified]
  obtain ⟨task, found, isTask, valid⟩ := verified
  rcases refresh_verified refreshes found isTask valid with ⟨survives, after⟩ | ⟨gone, after⟩
  · simp [after, survives, valid]
  simp [after, gone]

/-- The Goals that reopen are the ones the engine reports. -/
theorem refresh_reopens (goalId) :
    goalId ∈ deriveGoalReopen (goalNodesOf nodes) (coneOn c nodes edges causes) (goalDirectTasks nodes edges) ↔
      Reopens (committedNodes c.store c.graphId) (committedNodes c.after c.graphId) goalId := by
  have distinct := c.nodes_distinct (refresh_consistent refreshes)
  have affected : ∀ {taskId}, VerifiedTask c.nodes taskId →
      (taskId ∈ (coneOn c nodes edges causes).affectedNodeIds ↔ ¬ Survives c.derivation c.nodes taskId) :=
    fun verified => refresh_affected refreshes nodesRead edgesRead caused named pins verified
  rw [mem_deriveGoalReopen ((nodesRead.map _).nodup_iff.mpr distinct)]
  simp only [Reopens, refresh_before refreshes, refresh_after refreshes, getNode_perm distinct nodesRead,
    taskDependency_perm distinct nodesRead edgesRead, ← refresh_edges refreshes]
  constructor
  · rintro ⟨goal, found, isGoal, lifecycle, taskId, direct, inCone⟩
    obtain ⟨settled, after, fields⟩ := (closed_frame c.nodes).forward found
    refine ⟨goal, settled, found, isGoal, lifecycle, after, fun still => ?_⟩
    obtain ⟨verified, survive⟩ := refresh_goal refreshes found isGoal lifecycle
    have closes := (closed_goal after (fields.isGoal.trans isGoal)).mp still
    exact (affected (verified taskId direct)).mp inCone (survive.mp closes taskId direct)
  rintro ⟨goal, settled, found, isGoal, lifecycle, after, reopened⟩
  obtain ⟨hit, hitAfter, fields⟩ := (closed_frame c.nodes).forward found
  cases hitAfter.symm.trans after
  obtain ⟨verified, survive⟩ := refresh_goal refreshes found isGoal lifecycle
  rw [ne_eq, closed_goal after (fields.isGoal.trans isGoal), survive] at reopened
  simp only [not_forall] at reopened
  obtain ⟨taskId, direct, gone⟩ := reopened
  exact ⟨goal, found, isGoal, lifecycle, taskId, direct, (affected (verified taskId direct)).mpr gone⟩

end

/-- On every reachable graph, a refresh turns STALE exactly the VERIFIED Tasks of
the cone that its seeds cause and reopens exactly the Goals the engine reports.
Any other Task keeps its validity, unless it meets the promotion rule. -/
theorem refresh_agrees_with_cone (requests : List Request) (seeds : List String) (c : Commit)
    (refreshes : Refreshes c requests seeds) {nodes : List VPGNode} {edges : List VPGEdge}
    (nodesRead : nodes.Perm (committedNodes c.store c.graphId))
    (edgesRead : edges.Perm (committedEdges c.store c.graphId)) {causes : List InvalidationCause}
    (caused : CausesFor causes seeds) (named : "" ∉ seeds) (pins : PinsHold c.derivation c.nodes) :
    Agrees (committedNodes c.store c.graphId) (committedNodes c.after c.graphId) (coneOn c nodes edges causes)
      (deriveGoalReopen (goalNodesOf nodes) (coneOn c nodes edges causes) (goalDirectTasks nodes edges))
      (Promotable c.derivation c.nodes) := by
  have nodesSame : nodes.Perm c.nodes := nodesRead.trans c.nodes_perm.symm
  have edgesSame : edges.Perm c.edges := edgesRead.trans c.edges_perm.symm
  exact ⟨refresh_turnsStale refreshes nodesSame edgesSame caused named pins,
    fun _ _ found isTask kept => refresh_kept refreshes found isTask kept,
    refresh_reopens refreshes nodesSame edgesSame caused named pins⟩

/-- The refresh of graph `G` with the given seeds. -/
def refreshOf (version : Int) (seeds : List String) : Submission :=
  refreshSubmission "G" "P" "refresh" "r" "k" version seeds none []

/-- A cause that names the Task. -/
def causeFor (taskId : String) : InvalidationCause :=
  { causeId := "c:" ++ taskId, graphId := "G", graphVersion := 1
    causeType := .artifactVersionSuperseded, sourceNodeId := some taskId, reason := "superseded" }

theorem causesFor_map (seeds) : CausesFor (seeds.map causeFor) seeds := by
  intro taskId
  simp [causeFor]

theorem refreshes_of_commit (store : c.store = execute requests)
    (sub : c.sub = refreshOf version seeds) : Refreshes c requests seeds := by
  have graph : c.graphId = "G" := congrArg (fun sub => sub.patch.graphId) sub
  have current : version = c.record.currentVersion := by
    rw [← c.expected, sub]
    rfl
  refine ⟨store, "P", "refresh", "r", "k", none, [], ?_⟩
  rw [sub, graph, current]
  rfl

/-- The action behind the Evidence is not committed yet. -/
def runningAction : Environment :=
  { facts := { kernel := some fun actionId =>
                 if actionId = "A" then some ⟨"P", "running"⟩ else none } }

/-- A Task whose Evidence does not count yet. -/
def pendingTask : List Request :=
  [.create "P" "G" [], .submit runningAction (patchOf "p1" 0 [addTask "T" 1, addVerification "V",
    addEdge "e1" "verifies" "V" "T", addEvidence "E" "V" "pass" [], attachEvidence "e2" "V" "E"])]

/-- The refresh after the action is committed promotes a Task that no cause touches. -/
theorem refresh_promotes_pending_task : ∃ c : Commit, Refreshes c pendingTask [] ∧
    PinsHold c.derivation c.nodes ∧
    ¬ Agrees (committedNodes c.store c.graphId) (committedNodes c.after c.graphId)
      (coneOn c c.nodes c.edges []) (deriveGoalReopen (goalNodesOf c.nodes) (coneOn c c.nodes c.edges [])
        (goalDirectTasks c.nodes c.edges)) (fun _ => False) := by
  obtain ⟨c, store, _, sub, tested⟩ := exists_commit_at (fun env sub found =>
      decide (PinsHold (found.derivation env sub) found.nodes) &&
      decide ((getNode found.nodes "T").map (fun task => (task.isTask, task.validity)) =
        some (true, .unverified)) &&
      decide ((getNode (closed (found.derivation env sub) found.nodes).rows "T").map VPGNode.validity =
        some .verified))
    (show commitsWith _ (execute pendingTask) committedAction (refreshOf 1 []) = true by decide +kernel)
  simp only [Bool.and_eq_true, decide_eq_true_eq, Option.map_eq_some_iff, Prod.mk.injEq] at tested
  obtain ⟨⟨pins, task, found, isTask, unverified⟩, now, after, verified⟩ := tested
  have refreshes := refreshes_of_commit store sub
  refine ⟨c, refreshes, pins, fun agrees => ?_⟩
  have kept : ¬ TurnsStale (committedNodes c.store c.graphId) (committedNodes c.after c.graphId) "T" := by
    rintro ⟨⟨other, hit, _, valid⟩, _⟩
    rw [refresh_before refreshes] at hit
    cases found.symm.trans hit
    cases unverified.symm.trans valid
  obtain ⟨other, hit, same | ⟨_, never⟩⟩ := agrees.kept "T" task
    (by rw [refresh_before refreshes, found]) isTask kept
  · rw [refresh_after refreshes] at hit
    cases after.symm.trans hit
    cases (verified.symm.trans same).trans unverified
  · exact never

/-- A VERIFIED Task whose id is empty, which a patch may choose. -/
def unnamedTask : List Request :=
  runOf committedAction (patchOf "p1" 0 [addTask "" 1, addVerification "V", addEdge "e1" "verifies" "V" "",
    addEvidence "E" "V" "pass" [], attachEvidence "e2" "V" "E"])

/-- The refresh that seeds it marks it, and the engine drops a cause that names it. -/
theorem refresh_marks_unnamed_task :
    ((getNode (committedNodes (execute unnamedTask) "G") "").map VPGNode.validity = some .verified ∧
      (getNode (committedNodes (execute (unnamedTask ++ [.submit committedAction (refreshOf 1 [""])])) "G") "").map
        VPGNode.validity = some .stale) ∧
    (computeInvalidationCone (taskNodesOf (committedNodes (execute unnamedTask) "G"))
      (committedEdges (execute unnamedTask) "G") "G" 1 [causeFor ""]).affectedNodeIds = [] := by
  decide +kernel

/-- Seeding the lower of two VERIFIED Tasks turns both STALE. -/
theorem refresh_of_chain_agrees : ∃ c : Commit, Refreshes c verifiedChain ["U"] ∧
    "T" ∈ (coneOn c c.nodes c.edges [causeFor "U"]).affectedNodeIds ∧
    Agrees (committedNodes c.store c.graphId) (committedNodes c.after c.graphId)
      (coneOn c c.nodes c.edges [causeFor "U"])
      (deriveGoalReopen (goalNodesOf c.nodes) (coneOn c c.nodes c.edges [causeFor "U"])
        (goalDirectTasks c.nodes c.edges)) (Promotable c.derivation c.nodes) := by
  obtain ⟨c, store, _, sub, tested⟩ := exists_commit_at (fun env sub found =>
      decide (PinsHold (found.derivation env sub) found.nodes) &&
      decide ("T" ∈ (computeInvalidationCone (taskNodesOf found.nodes) found.edges sub.patch.graphId
        found.record.currentVersion [causeFor "U"]).affectedNodeIds))
    (show commitsWith _ (execute verifiedChain) committedAction (refreshOf 1 ["U"]) = true by
      decide +kernel)
  simp only [Bool.and_eq_true, decide_eq_true_eq] at tested
  have refreshes := refreshes_of_commit store sub
  exact ⟨c, refreshes, tested.2, refresh_agrees_with_cone verifiedChain ["U"] c refreshes c.nodes_perm
    c.edges_perm (causesFor_map ["U"]) (by decide) tested.1⟩

/-! ## The repair frontier -/

/-- The cone of a repair, with the verdicts that the engine derives on the way. -/
def repairCone (graphId : String) (version : Int) (nodes : List VPGNode) (edges : List VPGEdge)
    (causes : List InvalidationCause) : InvalidationCone :=
  computeInvalidationCone (taskNodesOf nodes) edges graphId version causes
    (evidenceApplicabilityForGraph graphId version {} (evidenceNodesOf nodes))

section
variable {graphId : String} {version : Int} {nodes : List VPGNode} {edges : List VPGEdge}
  {causes : List InvalidationCause} {taskId : String} (distinct : DistinctIds nodes)
include distinct

theorem affected_task (affected : taskId ∈ (repairCone graphId version nodes edges causes).affectedNodeIds) :
    isTaskAt nodes taskId = true := by
  obtain ⟨seed, member, path⟩ := mem_affected.mp affected
  cases path with
  | refl => exact (mem_taskIds distinct).mp (mem_causeSeeds.mp member).2.2
  | tail _ follows => exact ((mem_taskForwardDeps distinct).mp (mem_verifiedDependents.mp follows).1).2

/-- The validity once the cone is applied is VERIFIED only for a VERIFIED Task. -/
theorem effectiveValidity_verified (tasks : inp.taskNodes = taskNodesOf nodes)
    (verified : effectiveValidity inp.taskNodes (some (validityAfter inp cone)) taskId =
      some .verified) : VerifiedTask nodes taskId := by
  have derived : lookup Prod.fst (validityAfter inp cone) taskId =
      (getNode (taskNodesOf nodes) taskId).map fun task => (task.nodeId,
        if task.nodeId ∈ cone.affectedNodeIds then NodeValidity.stale else task.validity) := by
    rw [validityAfter, tasks]
    exact lookup_map fun _ _ => rfl
  rw [effectiveValidity, Option.bind_some, derived, tasks] at verified
  cases found : getNode (taskNodesOf nodes) taskId with
  | none => simp [found] at verified
  | some task =>
    obtain ⟨hit, isTask⟩ := (getNode_part distinct).mp found
    rw [found] at verified
    by_cases inCone : task.nodeId ∈ cone.affectedNodeIds
    · simp [inCone] at verified
    simp only [Option.map_some, inCone, if_false, Option.some_or, Option.some.injEq] at verified
    exact ⟨task, hit, isTask, verified⟩

/-- A frontier Task is a Task, and what it depends on is VERIFIED. -/
theorem mem_repairFrontier (explicit : causes ≠ []) (member : candidate ∈ (runInvalidationEngine
      (repairInputs graphId version nodes edges causes hasActiveClaim)).frontier.candidates) :
    isTaskAt nodes candidate.taskId = true ∧
      ∀ dependency, TaskDependency nodes edges candidate.taskId dependency → VerifiedTask nodes dependency := by
  obtain ⟨cone, rfl, frontier⟩ := frontier_explicit
    (repairInputs graphId version nodes edges causes hasActiveClaim) rfl explicit
  rw [frontier] at member
  obtain ⟨affected, verified⟩ := mem_computeRepairFrontier member
  have isTask := affected_task distinct affected
  exact ⟨isTask, fun dependency depends => effectiveValidity_verified distinct rfl
    (verified dependency ((mem_taskForwardDeps distinct).mpr ⟨depends, isTask⟩))⟩

end

/-- The Task carries the flag that lets a STALE Task be scheduled. -/
def repairReady (task : VPGNode) : Bool :=
  ((task.metadata.get "__repair_ready").getD (.bool false)).truthy

/-- What the Task depends on, as far as the graph has it, survives the refresh. -/
def Served (d : Derivation) (nodes : List VPGNode) (edges : List VPGEdge) (taskId : String) : Prop :=
  ∀ target ∈ targetsOf edges .dependsOn taskId, (getNode nodes target).isSome = true → Survives d nodes target

/-- The Task waits for its repair once the step is made. It is served, and if it was
VERIFIED the refresh takes that away; if not, it is not promoted now, and carries the
flag if it was STALE already. -/
def Waits (d : Derivation) (nodes : List VPGNode) (edges : List VPGEdge) (task : VPGNode) : Prop :=
  Served d nodes edges task.nodeId ∧
    if task.validity = .verified then ¬ Survives d nodes task.nodeId
    else ¬ Promotable d nodes task ∧ (task.validity = .stale → repairReady task = true)

instance (d : Derivation) (nodes : List VPGNode) (edges : List VPGEdge) (task : VPGNode) :
    Decidable (Waits d nodes edges task) :=
  inferInstanceAs (Decidable ((∀ target ∈ targetsOf edges .dependsOn task.nodeId, _) ∧ ite _ _ _))

/-- The Task is open, waits for verification, and is flagged if it is STALE. -/
def OpenForWork (task : VPGNode) : Prop :=
  task.lifecycle = .admitted ∧ (task.validity = .unverified ∨ task.validity = .stale ∧ repairReady task = true)

theorem taskIsReady_iff : taskIsReady task nodes (dependsOnIndex edges) = true ↔ OpenForWork task ∧
    taskDepsAllVerified task.nodeId nodes (dependsOnIndex edges) = true := by
  unfold taskIsReady OpenForWork repairReady
  cases task.validity <;> simp [and_assoc]

section
variable {c : Commit} {requests : List Request} {seeds : List String}
  (refreshes : Refreshes c requests seeds)
include refreshes

theorem refresh_taskState (found : getNode c.nodes taskId = some task)
    (isTask : task.isTask = true) : TaskState task := by
  have states := execute_taskStates requests c.graphId
  rw [← refreshes.1] at states
  exact states task (c.nodes_perm.mem_iff.mp (lookup_mem found)) isTask

/-- A VERIFIED Task that the refresh marks is open for repair. -/
theorem marked_open (state : TaskState task) (verified : task.validity = .verified) :
    (markTaskStale c.derivation task).1.lifecycle = .admitted ∧
      repairReady (markTaskStale c.derivation task).1 = true := by
  have closed : task.lifecycle = .closed := by
    rcases state with ⟨_, valid⟩ | ⟨_, valid⟩ | ⟨closed, _⟩
    · cases valid.symm.trans verified
    · cases valid.symm.trans verified
    exact closed
  refine ⟨by simp [markTaskStale, closed], ?_⟩
  simp [repairReady, markTaskStale, Dict.get_set, refresh_repairs refreshes, Json.truthy]

/-- A Task that survives serves as a VERIFIED dependency. -/
theorem survivor_serves (verified : VerifiedTask c.nodes taskId) (survives : Survives c.derivation c.nodes taskId) :
    ∃ dep, getNode (committedNodes c.after c.graphId) taskId = some dep ∧ dep.isTask = true ∧
      dep.validity = .verified ∧ dep.lifecycle.admittedOrLater = true := by
  obtain ⟨task, found, isTask, valid⟩ := verified
  rw [refresh_after refreshes]
  rcases refresh_verified refreshes found isTask valid with ⟨_, after⟩ | ⟨gone, _⟩
  · refine ⟨_, after, (recordSnapshot_derived isTask).isTask.trans isTask, valid, ?_⟩
    rw [recordSnapshot_lifecycle]
    rcases refresh_taskState refreshes found isTask with ⟨lifecycle, _⟩ | ⟨lifecycle, _⟩ | ⟨lifecycle, _⟩ <;>
      rw [lifecycle] <;> rfl
  · exact absurd survives gone

section
variable (below : ∀ dependency, TaskDependency c.nodes c.edges taskId dependency → VerifiedTask c.nodes dependency)
include below

/-- VERIFIED dependencies are counted after the refresh exactly if they survive it. -/
theorem depsAllVerified_iff_served : taskDepsAllVerified taskId (committedNodes c.after c.graphId)
    (dependsOnIndex (committedEdges c.after c.graphId)) = true ↔ Served c.derivation c.nodes c.edges taskId := by
  have consistent := refresh_consistent refreshes
  simp only [taskDepsAllVerified, dependsOnIndex_get, all_eq_true,
    (targetsOf_perm (c.after_edges consistent)).mem_iff, (refresh_cand refreshes).2, refresh_after refreshes]
  refine forall₂_congr fun target depends => ?_
  cases found : getNode c.nodes target with
  | none => simp [(closed_frame c.nodes).missing found]
  | some dep =>
    obtain ⟨now, after, _⟩ := (closed_frame (d := c.derivation) c.nodes).forward found
    simp only [after, Option.isSome_some, forall_const, Bool.and_eq_true, decide_eq_true_eq]
    constructor
    · rintro ⟨⟨isTask, valid⟩, _⟩
      obtain ⟨_, hit, isTask, survives | ⟨_, ready⟩⟩ := derived_verified
        (c.nodes_distinct consistent) ⟨now, after, isTask, valid⟩
      · exact survives
      obtain ⟨_, again, _, verified⟩ := below target ⟨depends, isTaskAt_iff.mpr ⟨_, hit, isTask⟩⟩
      cases hit.symm.trans again
      rw [lost, if_pos verified] at ready
      exact absurd ready (marked_not_promotable refreshes)
    · intro survives
      obtain ⟨task, hit, isTask, valid, _⟩ := survives.sound
      obtain ⟨dep, served, fields⟩ := survivor_serves refreshes ⟨task, hit, isTask, valid⟩ survives
      rw [refresh_after refreshes, after] at served
      cases served
      exact ⟨⟨fields.1, fields.2.1⟩, fields.2.2⟩

/-- A Task is ready exactly if it is served and open. -/
theorem ready_iff_open :
    taskId ∈ computeReadyTaskIds (committedNodes c.after c.graphId) (committedEdges c.after c.graphId) ↔
      Served c.derivation c.nodes c.edges taskId ∧
      ∃ now, getNode (closed c.derivation c.nodes).rows taskId = some now ∧ now.isTask = true ∧ OpenForWork now := by
  rw [mem_computeReadyTaskIds, mem_readyIds (Commit.after_consistent (refresh_consistent refreshes)).distinctNodes,
    ← exists_and_left]
  simp only [refresh_after refreshes]
  refine exists_congr fun now => ?_
  rw [@and_comm (Served c.derivation c.nodes c.edges taskId), and_assoc, and_assoc]
  refine and_congr_right fun found => and_congr_right fun _ => ?_
  rw [taskIsReady_iff, (lookup_key found : now.nodeId = taskId), depsAllVerified_iff_served refreshes below]

end

/-- With its dependencies served, a Task that meets the promotion rule is promoted. -/
theorem promotable_promoted (found : getNode c.nodes taskId = some task) (unverified : task.validity ≠ .verified)
    (ready : Promotable c.derivation c.nodes task) (served : Served c.derivation c.nodes c.edges taskId) :
    VerifiedTask (closed c.derivation c.nodes).rows taskId := by
  have distinct := c.nodes_distinct (refresh_consistent refreshes)
  refine (PromotionOrder.derived_verified_iff distinct).mpr (Or.inr ?_)
  have member : taskId ∈ c.nodes.map VPGNode.nodeId := lookup_isSome.mp (Option.isSome_iff_exists.mpr ⟨task, found⟩)
  refine OnePass.Rule.pass_of_initial distinct member ⟨⟨task, found, ?_, ?_⟩, ?_⟩
  · intro survives
    obtain ⟨other, hit, _, verified, _⟩ := survives.sound
    cases found.symm.trans hit
    exact unverified verified
  · rw [lost, if_neg unverified]
    exact ready
  rintro target ⟨depends, present⟩
  rw [refresh_edges refreshes] at depends
  have survives := served target depends (lookup_isSome.mpr present)
  obtain ⟨dep, hit, isTask, _⟩ := survives.sound
  refine .inl ⟨dep, hit, survives, ?_⟩
  rcases refresh_taskState refreshes hit isTask with ⟨lifecycle, _⟩ | ⟨lifecycle, _⟩ | ⟨lifecycle, _⟩ <;>
    rw [lifecycle] <;> rfl

/-- A Task whose dependencies were VERIFIED is ready exactly if it waits. -/
theorem ready_iff_waits (found : getNode c.nodes taskId = some task) (isTask : task.isTask = true)
    (below : ∀ dependency, TaskDependency c.nodes c.edges taskId dependency → VerifiedTask c.nodes dependency) :
    taskId ∈ computeReadyTaskIds (committedNodes c.after c.graphId) (committedEdges c.after c.graphId) ↔
      Waits c.derivation c.nodes c.edges task := by
  have state := refresh_taskState refreshes found isTask
  rw [ready_iff_open refreshes below, Waits, (lookup_key found : task.nodeId = taskId)]
  refine and_congr_right fun served => ?_
  by_cases verified : task.validity = .verified
  · rw [if_pos verified]
    rcases refresh_verified refreshes found isTask verified with ⟨survives, after⟩ | ⟨gone, after⟩
    · refine iff_of_false ?_ (not_not.mpr survives)
      rintro ⟨now, hit, _, _, unverified | ⟨stale, _⟩⟩ <;> cases after.symm.trans hit
      · cases verified.symm.trans unverified
      cases verified.symm.trans stale
    obtain ⟨lifecycle, flag⟩ := marked_open refreshes state verified
    exact iff_of_true ⟨_, after, isTask, lifecycle, .inr ⟨markTaskStale_validity task, flag⟩⟩ gone
  rw [if_neg verified]
  by_cases ready : Promotable c.derivation c.nodes task
  · -- The refresh verifies the Task itself, so nothing is left to schedule.
    obtain ⟨now, after, _, valid⟩ := promotable_promoted refreshes found verified ready served
    refine iff_of_false ?_ fun waits => waits.1 ready
    rintro ⟨other, hit, _, _, unverified | ⟨stale, _⟩⟩ <;> cases after.symm.trans hit
    · cases valid.symm.trans unverified
    cases valid.symm.trans stale
  have after : getNode (closed c.derivation c.nodes).rows taskId = some task :=
    (refresh_unverified refreshes found isTask verified).resolve_left fun promoted => ready promoted.1
  rw [after]
  constructor
  · rintro ⟨now, hit, _, _, waits⟩
    cases hit
    refine ⟨ready, fun stale => ?_⟩
    rcases waits with unverified | ⟨_, flag⟩
    · cases stale.symm.trans unverified
    exact flag
  rintro ⟨_, flag⟩
  refine ⟨task, rfl, isTask, ?_⟩
  rcases state with ⟨lifecycle, valid⟩ | ⟨lifecycle, valid⟩ | ⟨_, valid⟩
  · exact ⟨lifecycle, .inl valid⟩
  · exact ⟨lifecycle, .inr ⟨valid, flag valid⟩⟩
  exact absurd valid verified

end

/-- In a repair step on a reachable graph, whatever its causes and its seeds, a Task of
the reported frontier is ready in the version the step commits exactly if it waits: a
Task that was STALE before without the repair flag is reported and not ready. -/
theorem repair_frontier_ready_iff (requests : List Request) (seeds : List String) (c : Commit)
    (refreshes : Refreshes c requests seeds) {nodes : List VPGNode} {edges : List VPGEdge}
    (nodesRead : nodes.Perm (committedNodes c.store c.graphId))
    (edgesRead : edges.Perm (committedEdges c.store c.graphId)) {causes : List InvalidationCause}
    (explicit : causes ≠ []) {hasActiveClaim : Option (String → Bool)} {candidate : RepairCandidate}
    (reported : candidate ∈ (runInvalidationEngine (repairInputs c.graphId c.record.currentVersion
      nodes edges causes hasActiveClaim)).frontier.candidates) {task : VPGNode}
    (found : getNode (committedNodes c.store c.graphId) candidate.taskId = some task) :
    candidate.taskId ∈ computeReadyTaskIds (committedNodes c.after c.graphId)
      (committedEdges c.after c.graphId) ↔ Waits c.derivation c.nodes c.edges task := by
  have nodesSame : nodes.Perm c.nodes := nodesRead.trans c.nodes_perm.symm
  have edgesSame : edges.Perm c.edges := edgesRead.trans c.edges_perm.symm
  have distinct := c.nodes_distinct (refresh_consistent refreshes)
  have distinctRead : (nodes.map VPGNode.nodeId).Nodup := (nodesSame.map _).nodup_iff.mpr distinct
  obtain ⟨known, below⟩ := mem_repairFrontier distinctRead explicit reported
  have isTask : task.isTask = true := by
    obtain ⟨other, hit, isTask⟩ := isTaskAt_iff.mp known
    rw [getNode_perm (refresh_consistent refreshes).distinctNodes nodesRead] at hit
    cases found.symm.trans hit
    exact isTask
  rw [refresh_before refreshes] at found
  refine ready_iff_waits refreshes found isTask fun dependency depends => ?_
  have verified := below dependency ((taskDependency_perm distinct nodesSame edgesSame).mpr depends)
  rwa [verifiedTask_perm distinct nodesSame] at verified

/-- The Tasks of the frontier that a repair of graph `G` reports. -/
def reportedFrontier (store : Store) (version : Int) (seeds : List String) : List String :=
  (runInvalidationEngine (repairInputs "G" version (committedNodes store "G") (committedEdges store "G")
    (seeds.map causeFor))).frontier.candidates.map RepairCandidate.taskId

/-- A Task that an ordinary patch made STALE is reported as the frontier of the
repair that seeds it, and the version that the repair commits does not offer it. -/
theorem unflagged_seed_is_not_ready : reportedFrontier (execute staleTask) 3 ["T"] = ["T"] ∧
      ((submitPatch (refreshOf 3 ["T"]) committedAction (execute staleTask)).1.toOption.map
        PatchCommitResult.committedGraphVersion) = some 4 ∧
      let after := execute (staleTask ++ [.submit committedAction (refreshOf 3 ["T"])])
      computeReadyTaskIds (committedNodes after "G") (committedEdges after "G") = [] := by
  decide +kernel

/-- A seed that was VERIFIED is reported and ready. -/
theorem verified_seed_is_ready : ∃ c : Commit, Refreshes c verifiedChain ["U"] ∧
    "U" ∈ computeReadyTaskIds (committedNodes c.after c.graphId) (committedEdges c.after c.graphId) := by
  obtain ⟨c, store, _, sub, tested⟩ := exists_commit_at (fun env sub found =>
      (getNode found.nodes "U").any fun task =>
        decide (Waits (found.derivation env sub) found.nodes found.edges task ∧
          "U" ∈ (runInvalidationEngine (repairInputs sub.patch.graphId found.record.currentVersion
            found.nodes found.edges [causeFor "U"])).frontier.candidates.map RepairCandidate.taskId))
    (show commitsWith _ (execute verifiedChain) committedAction (refreshOf 1 ["U"]) = true by
      decide +kernel)
  simp only [decide_eq_true_eq, Option.any_eq_true] at tested
  obtain ⟨task, found, waits, reported⟩ := tested
  obtain ⟨candidate, member, named⟩ := mem_map.mp reported
  have refreshes := refreshes_of_commit store sub
  have found : getNode (committedNodes c.store c.graphId) candidate.taskId = some task := by
    rw [refresh_before refreshes, named, found]
  have ready := repair_frontier_ready_iff verifiedChain ["U"] c refreshes c.nodes_perm c.edges_perm
    (cons_ne_nil _ _) member found
  exact ⟨c, refreshes, named ▸ ready.mpr waits⟩

end LongHorizonOS.GraphRepair
