import LongHorizonOS.ConcurrentSubmission
import LongHorizonOS.FrontierSpec
import LongHorizonOS.GraphIntegrity
import LongHorizonOS.LifecycleInvariants

/-! The graphs that concurrent submissions leave. The store is always one that whole
requests leave, so its graphs are sound, and open work goes on at the ready frontier
unless something blocks it. -/
namespace LongHorizonOS.ConcurrentGraphs
open GraphModels EvidenceVerification ReadyFrontier PatchSubmission ConcurrentSubmission InvalidationSpec PromotionSpec
  FrontierSpec GraphIntegrity LifecycleInvariants Relation

/-- The Task is STALE and not marked for repair, or what it depends on is no Task. -/
def Blocked (nodes : List VPGNode) (edges : List VPGEdge) (taskId : String) : Prop :=
  (∃ task, getNode nodes taskId = some task ∧ task.validity = .stale ∧
    ((task.metadata.get "__repair_ready").getD (.bool false)).truthy = false) ∨
  ∃ target ∈ targetsOf edges .dependsOn taskId, isTaskAt nodes target = false

/-- The Task is VERIFIED, or leads along its dependencies to one that is ready or blocked. -/
def GoesOn (nodes : List VPGNode) (edges : List VPGEdge) (taskId : String) : Prop :=
  VerifiedTask nodes taskId ∨ ∃ other, ReflTransGen (TaskDependency nodes edges) taskId other ∧
    (other ∈ computeReadyTaskIds nodes edges ∨ Blocked nodes edges other)

section
variable (edges : List VPGEdge) (distinct : DistinctIds nodes) (isTask : isTaskAt nodes taskId = true)
  (states : ∀ task ∈ nodes, task.isTask = true → TaskState task)
include distinct states isTask

/-- An open Task is ready, blocked or waits for another open one. -/
theorem open_cases : VerifiedTask nodes taskId ∨ taskId ∈ computeReadyTaskIds nodes edges ∨ Blocked nodes edges taskId ∨
    ∃ dependency, TaskDependency nodes edges taskId dependency ∧ ¬ VerifiedTask nodes dependency := by
  obtain ⟨task, found, isTask⟩ := isTaskAt_iff.mp isTask
  have state := states task (KeyedRows.lookup_mem found) isTask
  rw [mem_computeReadyTaskIds, mem_readyIds_iff_ready distinct]
  by_contra! ⟨unverified, waits, free, served⟩
  refine waits ⟨task, found, isTask, ?_, ?_, fun target member dep hit => ?_⟩
  · grind [TaskState, VerifiedTask]
  · grind [TaskState, VerifiedTask, Blocked]
  · have isDep : isTaskAt nodes target = true := by grind [Blocked]
    obtain ⟨_, stored, depTask, verified⟩ := served target ⟨member, isDep⟩
    cases hit.symm.trans stored
    have := states dep (KeyedRows.lookup_mem hit) depTask
    grind [TaskState]

theorem goesOn_of_acyclic (acyclic : Acyclic edges) : GoesOn nodes edges taskId := by
  have noCycle : ∀ taskId, ¬ TransGen (TaskDependency nodes edges) taskId taskId :=
    fun taskId cycle => acyclic taskId (TransGen.mono (fun _ _ edge => edge.1) _ _ cycle)
  have depths := depthOf_isDepth noCycle
  -- a Task that it waits for has a smaller depth
  induction deep : depthOf taskId nodes (dependsOnIndex edges) using Nat.strongRecOn generalizing taskId with
  | ind depth ih =>
    rcases open_cases edges distinct isTask states with verified | ready | blocked | ⟨next, edge, waiting⟩
    · exact .inl verified
    · exact .inr ⟨taskId, .refl, .inl ready⟩
    · exact .inr ⟨taskId, .refl, .inr blocked⟩
    · have below := (depths taskId).2 _ (.step edge (depths next).1)
      obtain ⟨other, path, ends⟩ := (ih _ (deep ▸ below) edge.2 rfl).resolve_left waiting
      exact .inr ⟨other, .head edge path, ends⟩

end

/-- Well formed and settled, and no work on it is lost. -/
structure SoundGraph (graphId : String) (nodes : List VPGNode) (edges : List VPGEdge) : Prop where
  formed : WellFormed graphId nodes edges
  states : ∀ task ∈ nodes, task.isTask = true → TaskState task
  closed : Closed nodes edges
  goals : GoalsSettled nodes edges
  goesOn : ∀ taskId, isTaskAt nodes taskId = true → GoesOn nodes edges taskId

/-- In every interleaving of submissions, every committed graph is sound. -/
theorem concurrent_graphs_sound (schedule : Schedule) (graphId : String) : SoundGraph graphId
    (committedNodes (conduct schedule).shared graphId) (committedEdges (conduct schedule).shared graphId) := by
  obtain ⟨requests, serial⟩ := (conduct_knows schedule).1
  rw [serial]
  have formed := execute_wellFormed requests graphId
  have states := execute_taskStates requests graphId
  exact ⟨formed, states, execute_closed requests graphId, execute_goals requests graphId,
    fun _ isTask => goesOn_of_acyclic _ formed.distinctNodes isTask states formed.acyclic⟩

end LongHorizonOS.ConcurrentGraphs
