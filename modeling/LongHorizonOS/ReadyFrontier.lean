import LongHorizonOS.EvidenceVerification

/-! The ready frontier: which Tasks may be dispatched, and the scheduler order
in which they are listed. -/
namespace LongHorizonOS.ReadyFrontier
open KeyedRows GraphModels EvidenceVerification

/-- `_depends_on_index` -/
def dependsOnIndex (edges : List VPGEdge) : Adjacency String String :=
  Adjacency.collect (fun edge =>
    if edge.edgeType = .dependsOn then some (edge.sourceNodeId, edge.targetNodeId) else none) edges

theorem dependsOnIndex_get (edges : List VPGEdge) (nodeId : String) :
    (dependsOnIndex edges).get nodeId = targetsOf edges .dependsOn nodeId := by
  simp only [dependsOnIndex, Adjacency.get_collect, targetsOf]
  congr 1
  funext edge
  by_cases kind : edge.edgeType = .dependsOn <;> simp [kind]

/-- `_task_deps_all_verified` -/
def taskDepsAllVerified (taskId : String) (nodes : List VPGNode) (depIndex : Adjacency String String) : Bool :=
  (depIndex.get taskId).all fun target =>
    match getNode nodes target with
    | none => true
    | some dep => dep.isTask && decide (dep.validity = .verified) && dep.lifecycle.admittedOrLater

def taskIsReady (task : VPGNode) (nodes : List VPGNode) (depIndex : Adjacency String String) : Bool :=
  decide (task.lifecycle = .admitted) && !(decide (task.validity = .stale) &&
      !((task.metadata.get "__repair_ready").getD (.bool false)).truthy) &&
    decide (task.validity = .unverified ∨ task.validity = .stale) &&
    taskDepsAllVerified task.nodeId nodes depIndex

/-- `memo`, a dictionary from Task ids to depths. -/
abbrev DepthMemo := List (String × ℕ)

/-- `_compute_topo_depth`. Each call takes one of the frames that the interpreter's
stack has left, and without one it raises `RecursionError`. -/
def computeTopoDepth (nodes : List VPGNode) (depIndex : Adjacency String String) :
    ℕ → String → DepthMemo → List String → Option (ℕ × DepthMemo)
  | 0, _, _, _ => none
  | frames + 1, taskId, memo, visiting =>
    match lookup Prod.fst memo taskId with
    | some (_, depth) => some (depth, memo)
    | none =>
      if taskId ∈ visiting then some (0, memo) else do
        let (maxChild, memo) ← (depIndex.get taskId).foldlM (fun (best, memo) target =>
          if isTaskAt nodes target then do
            let (childDepth, memo) ← computeTopoDepth nodes depIndex frames target memo (taskId :: visiting)
            return (max best (1 + childDepth), memo)
          else return (best, memo)) (0, memo)
        return (maxChild, upsert Prod.fst (taskId, maxChild) memo)

/-- `_depth_of` on a stack that is long enough: the ids being visited are distinct
Tasks after the first. -/
def depthOf (taskId : String) (nodes : List VPGNode) (depIndex : Adjacency String String) : ℕ :=
  ((computeTopoDepth nodes depIndex (nodes.length + 2) taskId [] []).getD (0, [])).1

/-- `_priority_of` -/
def priorityOf (taskId : String) (nodes : List VPGNode) : Option Int :=
  match getNode nodes taskId with
  | some node => if node.isTask then ((node.metadata.get "priority").getD (.int 0)).truncate else some 0
  | none => some 0

/-- `_created_of` -/
def createdOf (taskId : String) (nodes : List VPGNode) : Int :=
  ((getNode nodes taskId).map VPGNode.createdInVersion).getD 0

/-- The sort key `(-priority, depth, created_in_version, task_id)`. -/
structure ReadyKey where
  rank : Int
  depth : ℕ
  created : Int
  taskId : String
  deriving DecidableEq

/-- Tuples are compared field by field. -/
def ReadyKey.le (a b : ReadyKey) : Prop :=
  a.rank < b.rank ∨ a.rank = b.rank ∧ (a.depth < b.depth ∨ a.depth = b.depth ∧
    (a.created < b.created ∨ a.created = b.created ∧ a.taskId ≤ b.taskId))

instance : DecidableRel ReadyKey.le := fun _ _ => inferInstanceAs (Decidable (_ ∨ _))

/-- The ids of the ready Tasks, in row order. -/
def readyIds (nodes : List VPGNode) (edges : List VPGEdge) : List String :=
  (nodes.filter fun node => node.isTask && taskIsReady node nodes (dependsOnIndex edges)).map VPGNode.nodeId

/-- The ids in the order of their keys. -/
def sortedIds (keys : List ReadyKey) : List String := (keys.insertionSort ReadyKey.le).map ReadyKey.taskId

/-- What `compute_ready_task_ids` returns if nothing is raised: a Task has its key
whatever the memo holds. -/
def computeReadyTaskIds (nodes : List VPGNode) (edges : List VPGEdge) : List String :=
  sortedIds ((readyIds nodes edges).map fun taskId =>
    ⟨-(priorityOf taskId nodes).getD 0, depthOf taskId nodes (dependsOnIndex edges), createdOf taskId nodes, taskId⟩)

/-- The keys of the listed Tasks, computed in list order over one memo. The recursion
may raise, and so may `int`. -/
def readyKeysWithin (frames : ℕ) (nodes : List VPGNode) (depIndex : Adjacency String String) :
    List String → DepthMemo → Option (List ReadyKey)
  | [], _ => some []
  | taskId :: rest, memo => do
    let priority ← priorityOf taskId nodes
    let (depth, memo) ← computeTopoDepth nodes depIndex frames taskId memo []
    let keys ← readyKeysWithin frames nodes depIndex rest memo
    return ⟨-priority, depth, createdOf taskId nodes, taskId⟩ :: keys

/-- `compute_ready_task_ids` with so many frames left for `_compute_topo_depth`. -/
def computeReadyTaskIdsWithin (frames : ℕ) (nodes : List VPGNode) (edges : List VPGEdge) : Option (List String) :=
  (readyKeysWithin frames nodes (dependsOnIndex edges) (readyIds nodes edges) []).map sortedIds

end LongHorizonOS.ReadyFrontier
