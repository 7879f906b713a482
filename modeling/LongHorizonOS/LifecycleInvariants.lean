import LongHorizonOS.PromotionSpec
import LongHorizonOS.RunMonitor

/-! Validity and lifecycle in committed versions. VERIFIED is closed under
dependencies in every run. Each Task is in one of three states, and a Goal is
CLOSED exactly if it depends on something and all of it is VERIFIED, as long
as no dependency of a Goal is replaced by an artifact. -/
namespace LongHorizonOS.LifecycleInvariants
open KeyedRows GraphModels EvidenceVerification PatchValidation DerivedState List Option
open PatchSubmission DerivationFrame InvalidationSpec PromotionSpec PatchSpec
open CommittedRuns RunMonitor

/-! ## Closure under dependencies -/

theorem closed_perm (distinct : DistinctIds nodes) (perm : nodes'.Perm nodes)
    (edgesPerm : edges'.Perm edges) (closed : Closed nodes edges) : Closed nodes' edges' := by
  intro taskId dependency
  rw [verifiedTask_perm distinct perm, verifiedTask_perm distinct perm, taskDependency_perm distinct perm edgesPerm]
  exact closed taskId dependency

variable (requests : List Request) (graphId : String)

theorem execute_closed :
    Closed (committedNodes (execute requests) graphId) (committedEdges (execute requests) graphId) := by
  refine execute_projection ?_ closed_perm ?_ graphId
  · rintro taskId dependency ⟨task, found, _⟩
    cases found
  intro c _ _
  rw [c.derived_eq]
  exact derived_closed

/-- In every committed version, every Task that a VERIFIED Task depends on,
directly or through other Tasks, is VERIFIED. -/
theorem verified_reaches_only_verified (requests : List Request) (graphId : String) {taskId dependency : String}
    (verified : VerifiedTask (committedNodes (execute requests) graphId) taskId)
    (reached : Relation.ReflTransGen (TaskDependency (committedNodes (execute requests) graphId)
      (committedEdges (execute requests) graphId)) taskId dependency) :
    VerifiedTask (committedNodes (execute requests) graphId) dependency := by
  induction reached with
  | refl => exact verified
  | tail _ edge ih => exact execute_closed requests graphId _ _ ih edge

/-- A Task that depends on another, both with passing Evidence. -/
def verifiedChain : List Request :=
  [.create "P" "G" [], .submit committedAction (patchOf "p1" 0 [addTask "U" 1, addTask "T" 1,
    addEdge "e1" "depends_on" "T" "U", addVerification "V", addVerification "W",
    addEdge "e2" "verifies" "V" "T", addEdge "e3" "verifies" "W" "U", addEvidence "E" "V" "pass" [],
    addEvidence "F" "W" "pass" [], attachEvidence "e4" "V" "E", attachEvidence "e5" "W" "F"])]

theorem verifiedChain_closed : VerifiedTask (committedNodes (execute verifiedChain) "G") "U" := by
  have found : (getNode (committedNodes (execute verifiedChain) "G") "T").map
      (fun task => (task.isTask, task.validity)) = some (true, .verified) := by decide +kernel
  obtain ⟨task, hit, fields⟩ := map_eq_some_iff.mp found
  rw [Prod.mk.injEq] at fields
  have edge : TaskDependency (committedNodes (execute verifiedChain) "G")
      (committedEdges (execute verifiedChain) "G") "T" "U" :=
    ⟨by decide +kernel, by decide +kernel⟩
  exact verified_reaches_only_verified verifiedChain "G" ⟨task, hit, fields.1, fields.2⟩ (.single edge)

/-! ## States of Tasks and Goals -/

/-- The three states of a Task. They exclude each other by their validity. -/
def TaskState (task : VPGNode) : Prop :=
  (task.lifecycle = .admitted ∧ task.validity = .unverified) ∨
  (task.lifecycle = .admitted ∧ task.validity = .stale) ∨
  (task.lifecycle = .closed ∧ task.validity = .verified)

/-- The Goal is CLOSED exactly if it has dependencies and all of them are
VERIFIED Tasks. -/
def GoalState (nodes : List VPGNode) (edges : List VPGEdge) (goal : VPGNode) : Prop :=
  goal.lifecycle = .closed ↔ (∃ target, target ∈ targetsOf edges .dependsOn goal.nodeId) ∧
    ∀ target ∈ targetsOf edges .dependsOn goal.nodeId, VerifiedTask nodes target

def LifecycleInvariant (nodes : List VPGNode) (edges : List VPGEdge) : Prop :=
  (∀ task ∈ nodes, task.isTask = true → TaskState task) ∧
    ∀ goal ∈ nodes, goal.isGoal = true → GoalState nodes edges goal

/-- The operation replaces no dependency of a Goal: no DEPENDS_ON edge leads
from a Goal to the id that AttachArtifact synthesises. -/
def SparesGoalTargets (cand : Candidate) : PatchOperation → Prop
  | .attachArtifact op => ∀ edge ∈ cand.edges, edge.edgeType = .dependsOn →
      typeAt cand.nodes edge.sourceNodeId = some .goal →
      edge.targetNodeId ≠ attachedNodeId op.taskNodeId op.artifact
  | _ => True

/-! ### Tasks -/

theorem lost_state (state : TaskState task) : TaskState (lost d task) := by
  unfold lost
  split
  · rename_i verified
    rcases state with ⟨_, other⟩ | ⟨_, other⟩ | ⟨life, _⟩
    · rw [verified] at other
      cases other
    · rw [verified] at other
      cases other
    · exact .inr (.inl ⟨by simp [markTaskStale, life], rfl⟩)
  · exact state

/-- A derivation keeps every Task in one of its states. -/
theorem derived_taskState (distinct : DistinctIds nodes)
    (states : ∀ task ∈ nodes, task.isTask = true → TaskState task) {after}
    (member : after ∈ (closed d nodes).rows) (isTask : after.isTask = true) : TaskState after := by
  have frame := closed_frame (d := d) nodes
  have hit : getNode (closed d nodes).rows after.nodeId = some after := lookup_of_mem (frame.keys ▸ distinct) member
  obtain ⟨task, found, same⟩ := frame.backward hit
  have isTask' : task.isTask = true := same.isTask ▸ isTask
  have state := states task (lookup_mem found) isTask'
  rcases derived_task distinct found isTask' with ⟨_, _, eq⟩ | ⟨_, ready, eq⟩ | ⟨_, eq⟩
  · rw [hit, some.injEq] at eq
    rw [eq]
    exact state
  · rw [hit, some.injEq] at eq
    rw [eq]
    exact .inr (.inr ⟨promote_lifecycle ready, promote_validity _⟩)
  rw [hit, some.injEq] at eq
  rw [eq]
  exact lost_state state

/-! ### Goals -/

/-- Edges have both endpoints, and a Goal depends on Tasks only. -/
def GoalTargets (nodes : List VPGNode) (edges : List VPGEdge) : Prop :=
  ∀ edge ∈ edges, typeAt nodes edge.sourceNodeId ≠ none ∧ typeAt nodes edge.targetNodeId ≠ none ∧
    (edge.edgeType = .dependsOn → typeAt nodes edge.sourceNodeId = some .goal →
      typeAt nodes edge.targetNodeId = some .task)

theorem typeAt_upsert_some (present : typeAt nodes nodeId ≠ none) :
    typeAt (upsert VPGNode.nodeId node nodes) nodeId ≠ none := by
  rw [typeAt_upsert]
  split
  · exact some_ne_none _
  exact present

/-- An edge that passes the type check has endpoints, and from a Goal it leads
to a Task. -/
theorem allowed_goalTarget (allowed : edgeTypeAllowed edgeType source target = true) :
    source ≠ none ∧ target ≠ none ∧ (edgeType = .dependsOn → source = some .goal → target = some .task) := by
  obtain ⟨source, target⟩ := edgeTypeAllowed_endpoints allowed
  refine ⟨source, target, fun kind _ => ?_⟩
  rw [kind, edgeTypeAllowed, decide_eq_true_eq] at allowed
  exact allowed.2

theorem applied_goalTargets {next} (spares : SparesGoalTargets cand op)
    (before : GoalTargets cand.nodes cand.edges) (applied : Applied patch cand next op) :
    GoalTargets next.nodes next.edges := by
  cases applied with
  | @node op node _ _ newId nodes edges _ _ =>
    rw [nodes, edges]
    intro edge member
    obtain ⟨source, target, goal⟩ := before edge member
    have untouched : ∀ nodeId, typeAt cand.nodes nodeId ≠ none →
        typeAt (upsert VPGNode.nodeId node cand.nodes) nodeId = typeAt cand.nodes nodeId := by
      intro nodeId present
      rw [typeAt_upsert, if_neg]
      rintro rfl
      apply present
      rw [typeAt, payloadOf, getNode, lookup_eq_none.mpr newId]
      rfl
    rw [untouched _ source, untouched _ target]
    exact ⟨source, target, goal⟩
  | edge _ fresh adds nodes =>
    rw [nodes, adds.edges]
    intro edge member
    rcases mem_append.mp member with old | new
    · exact before edge old
    rw [mem_singleton.mp new]
    exact allowed_goalTarget fresh.typed
  | @artifact op art edge fresh named payload _ _ _ _ freshEdge adds nodes =>
    have allowed := freshEdge.typed
    rw [nodes] at allowed
    rw [nodes, adds.edges]
    intro other member
    rcases mem_append.mp member with old | new
    · obtain ⟨source, target, goal⟩ := before other old
      refine ⟨typeAt_upsert_some source, typeAt_upsert_some target, fun kind isGoal => ?_⟩
      have isArtifact : art.nodeType = .artifactRef := by rw [VPGNode.nodeType, payload]; rfl
      rw [typeAt_upsert] at isGoal
      split at isGoal
      · rw [isArtifact] at isGoal
        cases isGoal
      rw [typeAt_upsert, if_neg (named ▸ spares other old kind isGoal)]
      exact goal kind isGoal
    · rw [mem_singleton.mp new]
      exact allowed_goalTarget allowed

theorem applied_taskStates {next} (before : ∀ task ∈ cand.nodes, task.isTask = true → TaskState task)
    (applied : Applied patch cand next op) : ∀ task ∈ next.nodes, task.isTask = true → TaskState task := by
  have stored : ∀ {node : VPGNode}, FreshNode patch node → next.nodes = upsert VPGNode.nodeId node cand.nodes →
      ∀ task ∈ next.nodes, task.isTask = true → TaskState task := by
    intro node fresh nodes task member isTask
    rw [nodes] at member
    rcases mem_upsert member with rfl | old
    · exact .inl ⟨fresh.lifecycle, fresh.validity⟩
    exact before task old isTask
  cases applied with
  | node fresh _ _ nodes _ _ _ => exact stored fresh nodes
  | edge _ _ _ nodes => rw [nodes]; exact before
  | artifact fresh _ _ _ _ _ _ _ _ nodes => exact stored fresh nodes

/-- With Tasks in their states and Goals above Tasks only, the closure test is
the condition on the Goal's dependencies. -/
theorem derived_goalState (states : ∀ task ∈ (closed d nodes).rows, task.isTask = true → TaskState task)
    (targets : GoalTargets (closed d nodes).rows d.edges)
    (found : getNode (closed d nodes).rows goal.nodeId = some goal) (isGoal : goal.isGoal = true) :
    GoalState (closed d nodes).rows d.edges goal := by
  have dependency : ∀ target ∈ targetsOf d.edges .dependsOn goal.nodeId,
      TaskDependency (closed d nodes).rows d.edges goal.nodeId target := by
    intro target member
    obtain ⟨edge, stored, kind, source, rfl⟩ := mem_targetsOf.mp member
    refine ⟨member, isTaskAt_iff_typeAt.mpr ((targets edge stored).2.2 kind ?_)⟩
    rw [source, typeAt, payloadOf, found]
    exact congrArg some (of_decide_eq_true isGoal)
  rw [GoalState, closed_goal found isGoal, goalIsClosed_iff]
  refine and_congr ?_ ?_
  · exact exists_congr fun target => ⟨And.left, dependency target⟩
  refine forall_congr' fun target => ⟨fun closes member => ?_, fun closes edge => ?_⟩
  · obtain ⟨dep, hit, isTask, verified, _⟩ := closes (dependency target member)
    exact ⟨dep, hit, isTask, verified⟩
  obtain ⟨dep, hit, isTask, verified⟩ := closes edge.1
  refine ⟨dep, hit, isTask, verified, ?_⟩
  rcases states dep (lookup_mem hit) isTask with ⟨_, other⟩ | ⟨_, other⟩ | ⟨life, _⟩
  · rw [verified] at other
    cases other
  · rw [verified] at other
    cases other
  rw [life]
  rfl

/-! ### Runs -/

/-- The invariant together with what it needs to be kept. -/
structure Lifecycles (nodes : List VPGNode) (edges : List VPGEdge) : Prop where
  tasks : ∀ task ∈ nodes, task.isTask = true → TaskState task
  targets : GoalTargets nodes edges
  goals : ∀ goal ∈ nodes, goal.isGoal = true → GoalState nodes edges goal

theorem lifecycles_perm (distinct : DistinctIds nodes) (perm : nodes'.Perm nodes)
    (edgesPerm : edges'.Perm edges) (before : Lifecycles nodes edges) : Lifecycles nodes' edges' := by
  refine ⟨fun task member => before.tasks task (perm.mem_iff.mp member), fun edge member => ?_,
    fun goal member isGoal => ?_⟩
  · have same := typeAt_frame (sameRecords_perm distinct perm)
    rw [same, same]
    exact before.targets edge (edgesPerm.mem_iff.mp member)
  have state := before.goals goal (perm.mem_iff.mp member) isGoal
  simp only [GoalState, verifiedTask_perm distinct perm, (targetsOf_perm edgesPerm).mem_iff] at state ⊢
  exact state

/-- Whatever is attached, every Task stays in one of its states. -/
theorem commit_taskStates {c : Commit} (sound : StoreConsistency.Consistent c.store)
    (before : ∀ task ∈ c.nodes, task.isTask = true → TaskState task) :
    ∀ task ∈ (closed c.derivation c.cand.nodes).rows, task.isTask = true → TaskState task := by
  have tasks : ∀ task ∈ c.cand.nodes, task.isTask = true → TaskState task := by
    refine validatePatch_invariant ?_ (fun _ _ _ _ kept applied => applied_taskStates kept applied) c.validated
    exact before
  exact fun task => derived_taskState (Commit.cand_distinct sound) tasks

theorem execute_taskStates :
    ∀ task ∈ committedNodes (execute requests) graphId, task.isTask = true → TaskState task := by
  refine execute_projection (Q := fun nodes _ => ∀ task ∈ nodes, task.isTask = true → TaskState task)
    (fun _ member => (nomatch member)) ?_ ?_ graphId
  · exact fun _ perm _ states task member => states task (perm.mem_iff.mp member)
  intro c member before
  rw [c.derived_eq]
  exact commit_taskStates member.consistent before

/-- The last pass of a commit leaves every Goal CLOSED exactly if its closure test holds. -/
def GoalsSettled (nodes : List VPGNode) (edges : List VPGEdge) : Prop :=
  ∀ goalId goal, getNode nodes goalId = some goal → goal.isGoal = true →
    (goal.lifecycle = .closed ↔ goalIsClosed goalId nodes edges = true)

theorem goalsSettled_perm (distinct : DistinctIds nodes) (perm : nodes'.Perm nodes)
    (edgesPerm : edges'.Perm edges) (settled : GoalsSettled nodes edges) : GoalsSettled nodes' edges' := by
  intro goalId goal found isGoal
  rw [getNode_perm distinct perm] at found
  rw [settled goalId goal found isGoal, goalIsClosed_iff, goalIsClosed_iff]
  simp only [taskDependency_perm distinct perm edgesPerm, getNode_perm distinct perm]

theorem execute_goals : GoalsSettled (committedNodes (execute requests) graphId)
    (committedEdges (execute requests) graphId) := by
  refine execute_projection (fun _ _ found => nomatch found) goalsSettled_perm ?_ graphId
  intro c _ _ goalId goal found isGoal
  rw [c.derived_eq] at found ⊢
  exact closed_goal found isGoal

theorem commit_lifecycles {c : Commit} (sound : StoreConsistency.Consistent c.store)
    (spares : c.EachOperation SparesGoalTargets) (before : Lifecycles c.nodes c.edges) :
    Lifecycles c.derived c.cand.edges := by
  have targets : GoalTargets c.cand.nodes c.cand.edges := by
    refine validatePatch_conditional spares ?_
      (fun _ _ _ _ spares kept applied => applied_goalTargets spares kept applied) c.validated
    exact before.targets
  have frame := closed_frame (d := c.derivation) c.cand.nodes
  have derivedTargets : GoalTargets (closed c.derivation c.cand.nodes).rows c.cand.edges := by
    intro edge member
    simp only [typeAt, frame.payload]
    exact targets edge member
  have derivedTasks := commit_taskStates sound before.tasks
  rw [c.derived_eq]
  refine ⟨derivedTasks, derivedTargets, fun goal member isGoal => ?_⟩
  refine derived_goalState derivedTasks derivedTargets ?_ isGoal
  exact lookup_of_mem (frame.keys ▸ Commit.cand_distinct sound) member

/-- As long as no dependency of a Goal is replaced, each Task is in one of its
states and each Goal is CLOSED exactly if its dependencies say so. -/
theorem committed_lifecycles (requests : List Request)
    (spares : ∀ c : Commit, c.In requests → c.EachOperation SparesGoalTargets) (graphId : String) :
    LifecycleInvariant (committedNodes (execute requests) graphId)
      (committedEdges (execute requests) graphId) := by
  have kept : Lifecycles (committedNodes (execute requests) graphId)
      (committedEdges (execute requests) graphId) := by
    refine execute_projection ?_ lifecycles_perm ?_ graphId
    · exact ⟨fun _ member => (nomatch member), fun _ member => (nomatch member),
        fun _ member => (nomatch member)⟩
    · exact fun c member before => commit_lifecycles member.consistent (spares c member) before
  exact ⟨kept.tasks, kept.goals⟩

/-! ### A Goal that loses a dependency -/

instance (task : VPGNode) : Decidable (TaskState task) := inferInstanceAs (Decidable (_ ∨ _))

instance (cand : Candidate) (op : PatchOperation) : Decidable (SparesGoalTargets cand op) :=
  match op with
  | .attachArtifact _ => inferInstanceAs (Decidable (∀ edge ∈ cand.edges, _))
  | .addNode _ | .addEdge _ | .attachEvidence _ => isTrue trivial

/-- A Goal above the Tasks `T` and `T::u@1`, of which `T` then gets an artifact
and passing Evidence. -/
def goalAboveTwoTasks (artifact : ArtifactVersionBinding) : List Request :=
  [.create "P" "G" [], .submit committedAction (patchOf "p1" 0 [addGoal "A", addTask "T" 1,
    addTask "T::u@1" 1, addEdge "e1" "depends_on" "A" "T", addEdge "e2" "depends_on" "A" "T::u@1"]),
   .submit committedAction (patchOf "p2" 1 [attachArtifact "e3" "T" artifact, addVerification "V",
    addEdge "e4" "verifies" "V" "T", addEvidence "E" "V" "pass" [artifact], attachEvidence "e5" "V" "E"])]

/-- With the artifact `u@1` the Goal is CLOSED, although one of its dependencies
is not a VERIFIED Task. -/
theorem replaced_dependency_closes_goal :
    ¬ LifecycleInvariant (committedNodes (execute (goalAboveTwoTasks (artifactAt "u" 1))) "G")
      (committedEdges (execute (goalAboveTwoTasks (artifactAt "u" 1))) "G") := by
  intro ⟨_, goals⟩
  have stored : ∃ goal ∈ committedNodes (execute (goalAboveTwoTasks (artifactAt "u" 1))) "G",
      goal.nodeId = "A" ∧ goal.isGoal = true ∧ goal.lifecycle = .closed := by decide +kernel
  obtain ⟨goal, member, named, isGoal, life⟩ := stored
  have verified := ((goals goal member isGoal).mp life).2 "T::u@1" (by rw [named]; decide +kernel)
  exact absurd verified (by decide +kernel)

theorem goal_above_open_task_stays_open :
    LifecycleInvariant (committedNodes (execute (goalAboveTwoTasks (artifactAt "v" 1))) "G")
      (committedEdges (execute (goalAboveTwoTasks (artifactAt "v" 1))) "G") := by
  refine committed_lifecycles _ (fun c member => ?_) "G"
  exact eachOperation_commit
    (monitor_commit (eachOperation fun _ => SparesGoalTargets) (by decide +kernel) member)

end LongHorizonOS.LifecycleInvariants
