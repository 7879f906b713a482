import LongHorizonOS.InvalidationSpec
import LongHorizonOS.LongestWalk
import Mathlib.Data.Prod.Lex
import Mathlib.Data.String.Basic

/-! The ready frontier without its order of evaluation. The depth of a Task is
the longest walk along its dependencies, whatever the memo holds, and the
frontier is the one sorted list of the ready Tasks. It is therefore the same for
every order of the rows and of the edges, as long as nothing is raised: a walk
may be longer than the stack, and a priority may be no number. -/
namespace LongHorizonOS.FrontierSpec
open KeyedRows PythonValues GraphModels EvidenceVerification ReadyFrontier InvalidationSpec LongestWalk
  List Relation

/-! ## Depths -/

section
/-- Every remembered depth is right. -/
def GoodMemo (nodes : List VPGNode) (edges : List VPGEdge) (memo : DepthMemo) : Prop :=
  ∀ entry ∈ memo, IsDepth (TaskDependency nodes edges) entry.1 entry.2

theorem goodMemo_nil : GoodMemo nodes edges [] := fun _ member => nomatch member

/-- One turn of the loop over the dependencies of a Task. -/
def depthTurn (nodes : List VPGNode) (visit : String → DepthMemo → Option (ℕ × DepthMemo)) :
    ℕ × DepthMemo → String → Option (ℕ × DepthMemo) := fun (best, memo) target =>
  if isTaskAt nodes target then do
    let (childDepth, memo) ← visit target memo
    return (max best (1 + childDepth), memo)
  else return (best, memo)

/-- What the loop has found when it has gone through the listed targets. -/
structure DepthLoop (nodes : List VPGNode) (edges : List VPGEdge) (taskId : String)
    (start : ℕ) (targets : List String) (out : ℕ × DepthMemo) : Prop where
  memo : GoodMemo nodes edges out.2
  grows : start ≤ out.1
  attained : out.1 = start ∨ ∃ j m, TaskDependency nodes edges taskId j ∧
    IsDepth (TaskDependency nodes edges) j m ∧ out.1 = m + 1
  bound : ∀ j ∈ targets, isTaskAt nodes j = true → ∃ m, IsDepth (TaskDependency nodes edges) j m ∧ m + 1 ≤ out.1

/-- The loop raises only if it is not sure that its visits do not. -/
theorem depthLoop (sure : Prop) (visit : String → DepthMemo → Option (ℕ × DepthMemo)) {targets : List String}
    (visits : ∀ j memo, TaskDependency nodes edges taskId j → GoodMemo nodes edges memo →
      (visit j memo).elim (¬ sure) fun out =>
        IsDepth (TaskDependency nodes edges) j out.1 ∧ GoodMemo nodes edges out.2)
    (edgesTo : ∀ j ∈ targets, j ∈ targetsOf edges .dependsOn taskId) (start : ℕ)
    (good : GoodMemo nodes edges memo) : (targets.foldlM (depthTurn nodes visit) (start, memo)).elim (¬ sure)
      (DepthLoop nodes edges taskId start targets) := by
  induction targets generalizing start memo with
  | nil => exact ⟨good, Nat.le_refl _, .inl rfl, fun _ member => nomatch member⟩
  | cons target targets ih =>
    have rest : ∀ j ∈ targets, j ∈ targetsOf edges .dependsOn taskId :=
      fun j member => edgesTo j (mem_cons_of_mem _ member)
    rw [foldlM_cons]
    by_cases isTask : isTaskAt nodes target = true
    · have edge : TaskDependency nodes edges taskId target := ⟨edgesTo target mem_cons_self, isTask⟩
      have spec := visits target memo edge good
      rw [depthTurn, if_pos isTask]
      revert spec
      cases visit target memo with
      | none => exact id
      | some out =>
        rintro ⟨depth, kept⟩
        have loop := ih rest (max start (1 + out.1)) kept
        simp only [Option.bind_eq_bind, Option.bind_some, Option.pure_def]
        revert loop
        cases targets.foldlM (depthTurn nodes visit) (max start (1 + out.1), out.2) with
        | none => exact id
        | some last =>
          intro loop
          have grows := loop.grows
          refine ⟨loop.memo, by omega, ?_, fun j member task => ?_⟩
          · rcases loop.attained with same | found
            · rcases Nat.le_total start (1 + out.1) with below | above
              · exact .inr ⟨target, _, edge, depth, by omega⟩
              exact .inl (by omega)
            · exact .inr found
          · rcases mem_cons.mp member with rfl | later
            · exact ⟨_, depth, by omega⟩
            exact loop.bound j later task
    · have loop := ih rest start good
      simp only [depthTurn, if_neg isTask, Option.bind_eq_bind, Option.bind_some, Option.pure_def]
      revert loop
      cases targets.foldlM (depthTurn nodes visit) (start, memo) with
      | none => exact id
      | some last =>
        intro loop
        refine ⟨loop.memo, loop.grows, loop.attained, fun j member task => ?_⟩
        rcases mem_cons.mp member with rfl | later
        · exact absurd task isTask
        exact loop.bound j later task

section
variable (acyclic : ∀ taskId, ¬ Relation.TransGen (TaskDependency nodes edges) taskId taskId)
include acyclic

/-- The recursion computes the depth of a Task that it reached along dependencies,
and raises only if some walk has as many steps as there are frames. -/
theorem computeTopoDepth_isDepth (frames taskId visiting) (good : GoodMemo nodes edges memo)
    (above : ∀ other ∈ visiting, TransGen (TaskDependency nodes edges) other taskId) :
    (computeTopoDepth nodes (dependsOnIndex edges) frames taskId memo visiting).elim
      (¬ ∀ n, Walk (TaskDependency nodes edges) taskId n → n < frames) fun out =>
        IsDepth (TaskDependency nodes edges) taskId out.1 ∧ GoodMemo nodes edges out.2 := by
  induction frames generalizing taskId memo visiting with
  | zero => exact fun enough => absurd (enough 0 (.stay taskId)) (Nat.lt_irrefl 0)
  | succ frames ih =>
    rw [computeTopoDepth]
    split
    · rename_i known depth found
      have remembered := good _ (lookup_mem found)
      rw [show known = taskId from lookup_key found] at remembered
      exact ⟨remembered, good⟩
    split
    · rename_i again
      exact absurd (above taskId again) (acyclic taskId)
    have targets : ∀ j ∈ (dependsOnIndex edges).get taskId, j ∈ targetsOf edges .dependsOn taskId :=
      fun j member => by rwa [dependsOnIndex_get] at member
    have loop := depthLoop (∀ n, Walk (TaskDependency nodes edges) taskId n → n < frames + 1)
      (fun j memo => computeTopoDepth nodes (dependsOnIndex edges) frames j memo (taskId :: visiting))
      (fun j memo edge kept => by
        have spec := ih j (taskId :: visiting) kept fun other member => by
          rcases mem_cons.mp member with rfl | later
          · exact .single edge
          exact .tail (above other later) edge
        revert spec
        cases computeTopoDepth nodes (dependsOnIndex edges) frames j memo (taskId :: visiting) with
        | none =>
          exact fun short enough => short fun n walk => Nat.lt_of_succ_lt_succ (enough (n + 1) (.step edge walk))
        | some out => exact id)
      targets 0 good
    revert loop
    change _ → ((((dependsOnIndex edges).get taskId).foldlM (depthTurn nodes fun j memo =>
      computeTopoDepth nodes (dependsOnIndex edges) frames j memo (taskId :: visiting)) (0, memo)).bind _).elim _ _
    cases ((dependsOnIndex edges).get taskId).foldlM (depthTurn nodes fun j memo =>
      computeTopoDepth nodes (dependsOnIndex edges) frames j memo (taskId :: visiting)) (0, memo) with
    | none => exact id
    | some out =>
      intro loop
      have depth : IsDepth (TaskDependency nodes edges) taskId out.1 :=
        .of_successors loop.attained fun j edge =>
          loop.bound j (by rw [dependsOnIndex_get]; exact edge.1) edge.2
      refine ⟨depth, fun entry member => ?_⟩
      rcases mem_upsert member with rfl | old
      · exact depth
      exact loop.memo entry old

theorem depthOf_isDepth (taskId) :
    IsDepth (TaskDependency nodes edges) taskId (depthOf taskId nodes (dependsOnIndex edges)) := by
  have spec := computeTopoDepth_isDepth acyclic (nodes.length + 2) taskId [] goodMemo_nil
    (fun _ member => nomatch member)
  rw [depthOf]
  revert spec
  cases computeTopoDepth nodes (dependsOnIndex edges) (nodes.length + 2) taskId [] [] with
  | some out => exact And.left
  | none =>
    refine fun short => absurd (fun n walk => ?_) short
    have inside : ∀ k j, TaskDependency nodes edges k j → j ∈ nodes.map VPGNode.nodeId := by
      intro k j edge
      obtain ⟨task, found, _⟩ := isTaskAt_iff.mp edge.2
      exact lookup_isSome.mp (Option.isSome_iff_exists.mpr ⟨task, found⟩)
    have bounded := walk.length_le acyclic inside
    rw [length_map] at bounded
    omega

variable {depth : String → ℕ} (depths : ∀ taskId, IsDepth (TaskDependency nodes edges) taskId (depth taskId))
include depths

/-- Where the deepest Task comes first among the targets, nothing is remembered on
the way down, so the recursion needs a frame for each step of the longest walk. -/
theorem computeTopoDepth_none
    (deepest : ∀ taskId, (targetsOf edges .dependsOn taskId).Pairwise fun a b =>
      isTaskAt nodes b = true → isTaskAt nodes a = true ∧ depth b ≤ depth a)
    (deep : frames ≤ depth taskId)
    (above : ∀ other ∈ visiting, TransGen (TaskDependency nodes edges) other taskId) :
    computeTopoDepth nodes (dependsOnIndex edges) frames taskId [] visiting = none := by
  induction frames generalizing taskId visiting with
  | zero => rfl
  | succ frames ih =>
    obtain ⟨steps, succ⟩ := Nat.exists_eq_succ_of_ne_zero (Nat.ne_of_gt (Nat.lt_of_lt_of_le frames.succ_pos deep))
    have longest := succ ▸ (depths taskId).1
    cases longest with
    | @step _ j _ edge rest =>
      have below := (depths j).2 _ rest
      have sorted := deepest taskId
      have member := edge.1
      rw [computeTopoDepth, dependsOnIndex_get]
      simp only [KeyedRows.lookup, find?_nil]
      rw [if_neg fun again => acyclic taskId (above taskId again)]
      cases split : targetsOf edges .dependsOn taskId with
      | nil => exact absurd (split ▸ member) not_mem_nil
      | cons head others =>
        rw [split] at sorted member
        have first : isTaskAt nodes head = true ∧ depth j ≤ depth head := by
          rcases mem_cons.mp member with rfl | later
          · exact ⟨edge.2, Nat.le_refl _⟩
          exact (pairwise_cons.mp sorted).1 j later edge.2
        have down : TaskDependency nodes edges taskId head := ⟨split ▸ mem_cons_self, first.1⟩
        rw [foldlM_cons, if_pos first.1, ih (by omega) fun other inside => ?_]
        · rfl
        rcases mem_cons.mp inside with rfl | later
        · exact .single down
        exact .tail (above other later) down

end

/-- The key of a Task, up to the way its depth is computed. -/
def KeyOf (nodes : List VPGNode) (edges : List VPGEdge) (key : ReadyKey) : Prop :=
  key.rank = -(priorityOf key.taskId nodes).getD 0 ∧ key.created = createdOf key.taskId nodes ∧
    IsDepth (TaskDependency nodes edges) key.taskId key.depth

/-- The keys are right whatever the memo holds, and there are any if no walk is too
long for the stack and every priority is a number. -/
theorem readyKeysWithin_spec (frames) (acyclic : ∀ taskId, ¬ TransGen (TaskDependency nodes edges) taskId taskId)
    (taskIds) (good : GoodMemo nodes edges memo) :
    (readyKeysWithin frames nodes (dependsOnIndex edges) taskIds memo).elim
      (¬ ∀ taskId ∈ taskIds, (priorityOf taskId nodes).isSome ∧
        ∀ n, Walk (TaskDependency nodes edges) taskId n → n < frames)
      fun keys => keys.map ReadyKey.taskId = taskIds ∧ ∀ key ∈ keys, KeyOf nodes edges key := by
  induction taskIds generalizing memo with
  | nil => exact ⟨rfl, fun _ member => nomatch member⟩
  | cons taskId taskIds ih =>
    rw [readyKeysWithin]
    cases number : priorityOf taskId nodes with
    | none => exact fun fine => absurd (fine taskId mem_cons_self).1 (by simp [number])
    | some priority =>
      have spec := computeTopoDepth_isDepth acyclic frames taskId [] good (fun _ member => nomatch member)
      simp only [Option.bind_eq_bind, Option.bind_some]
      revert spec
      cases computeTopoDepth nodes (dependsOnIndex edges) frames taskId memo [] with
      | none => exact fun short fine => short (fine taskId mem_cons_self).2
      | some out =>
        rintro ⟨depth, kept⟩
        have later := ih kept
        simp only [Option.bind_some]
        revert later
        cases readyKeysWithin frames nodes (dependsOnIndex edges) taskIds out.2 with
        | none => exact fun short fine => short fun other member => fine other (mem_cons_of_mem _ member)
        | some keys =>
          rintro ⟨ids, right⟩
          refine ⟨congrArg (taskId :: ·) ids, fun key member => ?_⟩
          rcases mem_cons.mp member with rfl | old
          · exact ⟨by rw [number, Option.getD_some], rfl, depth⟩
          exact right key old

end

/-! ## The sorted list -/

/-- The key as a tuple, which Python compares lexicographically. -/
def sortKey (key : ReadyKey) : Int ×ₗ ℕ ×ₗ Int ×ₗ String :=
  toLex (key.rank, toLex (key.depth, toLex (key.created, key.taskId)))

theorem le_iff_sortKey : a.le b ↔ sortKey a ≤ sortKey b := by
  simp only [ReadyKey.le, sortKey, Prod.Lex.le_iff, ofLex_toLex]

instance : Std.Total ReadyKey.le := ⟨fun a b => by
  rw [le_iff_sortKey, le_iff_sortKey]
  exact le_total _ _⟩

instance : IsTrans ReadyKey ReadyKey.le := ⟨fun a b c => by
  rw [le_iff_sortKey, le_iff_sortKey, le_iff_sortKey]
  exact le_trans⟩

/-- The rank of a Task at the given depth: the greater priority first, then the
smaller depth, the older version and the smaller id. -/
def rank (rows : List VPGNode) (depth : String → ℕ) (taskId : String) : Int ×ₗ ℕ ×ₗ Int ×ₗ String :=
  toLex (-(priorityOf taskId rows).getD 0, toLex (depth taskId, toLex (createdOf taskId rows, taskId)))

/-- The sort loses no Task and adds none. -/
theorem perm_sortedIds (keys) : (sortedIds keys).Perm (keys.map ReadyKey.taskId) :=
  (perm_insertionSort ReadyKey.le keys).map _

theorem sorted_sortedIds {keys : List ReadyKey} (right : ∀ key ∈ keys, KeyOf rows edges key)
    (depths : ∀ taskId, IsDepth (TaskDependency rows edges) taskId (depth taskId)) :
    (sortedIds keys).Pairwise fun a b => rank rows depth a ≤ rank rows depth b := by
  have ranked : ∀ key, KeyOf rows edges key → sortKey key = rank rows depth key.taskId := by
    rintro key ⟨byPriority, created, deep⟩
    rw [sortKey, byPriority, created, deep.unique (depths key.taskId), rank]
  refine pairwise_map.mpr ((pairwise_insertionSort ReadyKey.le _).imp_of_mem ?_)
  intro a b first second below
  rw [← ranked a (right a ((mem_insertionSort _).mp first)), ← ranked b (right b ((mem_insertionSort _).mp second))]
  exact le_iff_sortKey.mp below

/-- There is one list of the same Tasks by rank. -/
theorem sorted_unique {ids ids' : List String} (perm : ids'.Perm ids)
    (sorted : ids.Pairwise fun a b => rank rows depth a ≤ rank rows depth b)
    (sorted' : ids'.Pairwise fun a b => rank rows depth a ≤ rank rows depth b) : ids' = ids := by
  refine perm.eq_of_pairwise (fun a b _ _ below above => ?_) sorted' sorted
  have equal := le_antisymm below above
  simp only [rank, toLex_inj, Prod.mk.injEq] at equal
  exact equal.2.2.2

/-! ## What the frontier reads -/

/-- The fields of a node that the frontier depends on. -/
structure ReadyView where
  isTask : Bool
  lifecycle : NodeLifecycle
  validity : NodeValidity
  repairReady : Option Json
  priority : Option Json
  created : Int

def readyView (node : VPGNode) : ReadyView :=
  ⟨node.isTask, node.lifecycle, node.validity, node.metadata.get "__repair_ready",
    node.metadata.get "priority", node.createdInVersion⟩

/-- The same nodes, as far as the frontier reads them. -/
def SameViews (rows rows' : List VPGNode) : Prop :=
  ∀ nodeId, (getNode rows' nodeId).map readyView = (getNode rows nodeId).map readyView

section
variable {rows rows' : List VPGNode} {edges edges' : List VPGEdge} (same : SameViews rows rows')
include same

theorem SameViews.symm : SameViews rows' rows := fun nodeId => (same nodeId).symm

theorem SameViews.found (found : getNode rows nodeId = some node) :
    ∃ node', getNode rows' nodeId = some node' ∧ readyView node' = readyView node := by
  have view := same nodeId
  rw [found] at view
  exact Option.map_eq_some_iff.mp view

theorem SameViews.isTaskAt (nodeId) : isTaskAt rows' nodeId = isTaskAt rows nodeId := by
  rw [Bool.eq_iff_iff, isTaskAt_iff, isTaskAt_iff]
  constructor
  · rintro ⟨task, found, isTask⟩
    obtain ⟨other, hit, view⟩ := same.symm.found found
    exact ⟨other, hit, (congrArg ReadyView.isTask view).trans isTask⟩
  rintro ⟨task, found, isTask⟩
  obtain ⟨other, hit, view⟩ := same.found found
  exact ⟨other, hit, (congrArg ReadyView.isTask view).trans isTask⟩

theorem SameViews.priorityOf (taskId) : priorityOf taskId rows' = priorityOf taskId rows := by
  have view := same taskId
  unfold ReadyFrontier.priorityOf
  cases found : getNode rows taskId with
  | none =>
    rw [found, Option.map_none, Option.map_eq_none_iff] at view
    rw [view]
  | some node =>
    obtain ⟨other, hit, fields⟩ := same.found found
    have isTask : other.isTask = node.isTask := congrArg ReadyView.isTask fields
    have priority : other.metadata.get "priority" = node.metadata.get "priority" := congrArg ReadyView.priority fields
    simp only [hit, isTask, priority]

theorem SameViews.createdOf (taskId) : createdOf taskId rows' = createdOf taskId rows := by
  have created := congrArg (Option.map ReadyView.created) (same taskId)
  rw [Option.map_map, Option.map_map] at created
  exact congrArg (Option.getD · 0) created

variable (perm : edges'.Perm edges)
include perm

theorem SameViews.taskDependency : TaskDependency rows' edges' = TaskDependency rows edges := by
  funext task dependency
  rw [TaskDependency, TaskDependency, (targetsOf_perm perm).mem_iff, same.isTaskAt]

theorem SameViews.depsAllVerified (taskId) : taskDepsAllVerified taskId rows' (dependsOnIndex edges') =
    taskDepsAllVerified taskId rows (dependsOnIndex edges) := by
  rw [Bool.eq_iff_iff]
  simp only [taskDepsAllVerified, dependsOnIndex_get, all_eq_true, (targetsOf_perm perm).mem_iff]
  refine forall₂_congr fun target _ => ?_
  have view := same target
  cases found : getNode rows target with
  | none =>
    rw [found, Option.map_none, Option.map_eq_none_iff] at view
    rw [view]
  | some node =>
    obtain ⟨other, hit, fields⟩ := same.found found
    simp only [readyView, ReadyView.mk.injEq] at fields
    simp only [hit, fields]

theorem SameViews.taskIsReady (named : node'.nodeId = node.nodeId) (view : readyView node' = readyView node) :
    taskIsReady node' rows' (dependsOnIndex edges') = taskIsReady node rows (dependsOnIndex edges) := by
  simp only [readyView, ReadyView.mk.injEq] at view
  simp only [ReadyFrontier.taskIsReady, named, view, same.depsAllVerified perm]

end

/-! ## The frontier -/

section
theorem readyIds_distinct (distinct : DistinctIds rows) : (readyIds rows edges).Nodup :=
  distinct.sublist (filter_sublist.map _)

theorem mem_readyIds (distinct : DistinctIds rows) :
    taskId ∈ readyIds rows edges ↔ ∃ task, getNode rows taskId = some task ∧
      task.isTask = true ∧ taskIsReady task rows (dependsOnIndex edges) = true := by
  simp only [readyIds, mem_map, mem_filter, Bool.and_eq_true]
  constructor
  · rintro ⟨task, ⟨member, ready⟩, rfl⟩
    exact ⟨task, lookup_of_mem distinct member, ready⟩
  rintro ⟨task, found, ready⟩
  exact ⟨task, ⟨lookup_mem found, ready⟩, lookup_key found⟩

theorem SameViews.mem_readyIds (same : SameViews rows rows') (perm : edges'.Perm edges)
    (distinct : DistinctIds rows) (distinct' : DistinctIds rows')
    (ready : taskId ∈ readyIds rows edges) : taskId ∈ readyIds rows' edges' := by
  obtain ⟨task, found, isTask, holds⟩ := (FrontierSpec.mem_readyIds distinct).mp ready
  obtain ⟨other, hit, view⟩ := same.found found
  refine (FrontierSpec.mem_readyIds distinct').mpr ⟨other, hit, (congrArg ReadyView.isTask view).trans isTask, ?_⟩
  rw [same.taskIsReady perm ((lookup_key hit).trans (lookup_key found).symm) view, holds]

theorem SameViews.perm_readyIds (same : SameViews rows rows') (perm : edges'.Perm edges)
    (distinct : DistinctIds rows) (distinct' : DistinctIds rows') :
    (readyIds rows' edges').Perm (readyIds rows edges) :=
  (perm_ext_iff_of_nodup (readyIds_distinct distinct') (readyIds_distinct distinct)).mpr fun _ =>
    ⟨same.symm.mem_readyIds perm.symm distinct' distinct, same.mem_readyIds perm distinct distinct'⟩

theorem perm_computeReadyTaskIds : (computeReadyTaskIds rows edges).Perm (readyIds rows edges) := by
  have perm := perm_sortedIds ((readyIds rows edges).map fun taskId => ⟨-(priorityOf taskId rows).getD 0,
    depthOf taskId rows (dependsOnIndex edges), createdOf taskId rows, taskId⟩)
  rwa [List.map_map, show ReadyKey.taskId ∘ _ = id from rfl, map_id] at perm

theorem mem_computeReadyTaskIds : taskId ∈ computeReadyTaskIds rows edges ↔ taskId ∈ readyIds rows edges :=
  perm_computeReadyTaskIds.mem_iff

theorem sorted_computeReadyTaskIds (acyclic : ∀ taskId, ¬ TransGen (TaskDependency rows edges) taskId taskId)
    (depths : ∀ taskId, IsDepth (TaskDependency rows edges) taskId (depth taskId)) :
    (computeReadyTaskIds rows edges).Pairwise fun a b => rank rows depth a ≤ rank rows depth b := by
  refine sorted_sortedIds (fun key member => ?_) depths
  obtain ⟨taskId, _, rfl⟩ := mem_map.mp member
  exact ⟨rfl, rfl, depthOf_isDepth acyclic taskId⟩

/-- The frontier depends on the nodes as it reads them and on the set of edges. -/
theorem computeReadyTaskIds_congr (same : SameViews rows rows') (perm : edges'.Perm edges)
    (distinct : DistinctIds rows) (distinct' : DistinctIds rows')
    (acyclic : ∀ taskId, ¬ TransGen (TaskDependency rows edges) taskId taskId) :
    computeReadyTaskIds rows' edges' = computeReadyTaskIds rows edges := by
  have depths := depthOf_isDepth acyclic
  have dependency := same.taskDependency perm
  have ranks : rank rows' = rank rows := by
    funext depth taskId
    rw [rank, rank, same.priorityOf, same.createdOf]
  have sorted' := sorted_computeReadyTaskIds (dependency.symm ▸ acyclic) (dependency.symm ▸ depths)
  rw [ranks] at sorted'
  exact sorted_unique (perm_computeReadyTaskIds.trans
    ((same.perm_readyIds perm distinct distinct').trans perm_computeReadyTaskIds.symm))
    (sorted_computeReadyTaskIds acyclic depths) sorted'

/-- The predicate of the scheduler: an admitted Task that is unverified, or stale
and marked for repair, and whose dependencies, as far as the graph has them, are
verified Tasks that were admitted and not withdrawn. -/
def Ready (rows : List VPGNode) (edges : List VPGEdge) (taskId : String) : Prop :=
  ∃ task, getNode rows taskId = some task ∧ task.isTask = true ∧ task.lifecycle = .admitted ∧
    (task.validity = .unverified ∨ task.validity = .stale ∧
      ((task.metadata.get "__repair_ready").getD (.bool false)).truthy = true) ∧
    ∀ target ∈ targetsOf edges .dependsOn taskId, ∀ dep, getNode rows target = some dep →
      dep.isTask = true ∧ dep.validity = .verified ∧ dep.lifecycle ∈ [.admitted, .active, .closed]

theorem mem_readyIds_iff_ready (distinct : DistinctIds rows) :
    taskId ∈ readyIds rows edges ↔ Ready rows edges taskId := by
  have late : ∀ lifecycle : NodeLifecycle,
      lifecycle ∈ [.admitted, .active, .closed] ↔ lifecycle.admittedOrLater = true := by
    rintro ⟨⟩ <;> decide
  rw [mem_readyIds distinct]
  refine exists_congr fun task => and_congr_right fun found => and_congr_right fun _ => ?_
  have served : taskDepsAllVerified task.nodeId rows (dependsOnIndex edges) = true ↔
      ∀ target ∈ targetsOf edges .dependsOn taskId, ∀ dep, getNode rows target = some dep →
        dep.isTask = true ∧ dep.validity = .verified ∧ dep.lifecycle ∈ [.admitted, .active, .closed] := by
    rw [lookup_key found, taskDepsAllVerified, dependsOnIndex_get, all_eq_true]
    refine forall₂_congr fun target _ => ?_
    cases getNode rows target <;> simp [late, and_assoc]
  simp only [taskIsReady, Bool.and_eq_true, served, decide_eq_true_eq, and_assoc]
  refine and_congr_right fun _ => ?_
  cases task.validity <;> simp

/-- If every priority is a number and no walk is too long for the stack, the frontier is
returned. -/
theorem computeReadyTaskIdsWithin_some (distinct : DistinctIds rows)
    (acyclic : ∀ taskId, ¬ TransGen (TaskDependency rows edges) taskId taskId)
    (fine : ∀ taskId, Ready rows edges taskId → (priorityOf taskId rows).isSome ∧
      ∀ n, Walk (TaskDependency rows edges) taskId n → n < frames) :
    computeReadyTaskIdsWithin frames rows edges = some (computeReadyTaskIds rows edges) := by
  have spec := readyKeysWithin_spec frames acyclic (readyIds rows edges) goodMemo_nil
  rw [computeReadyTaskIdsWithin]
  revert spec
  cases readyKeysWithin frames rows (dependsOnIndex edges) (readyIds rows edges) [] with
  | none => exact absurd fun taskId ready => fine taskId ((mem_readyIds_iff_ready distinct).mp ready)
  | some keys =>
    rintro ⟨ids, right⟩
    have depths := depthOf_isDepth acyclic
    have perm := perm_sortedIds keys
    rw [ids] at perm
    exact congrArg some (sorted_unique (perm.trans perm_computeReadyTaskIds.symm)
      (sorted_computeReadyTaskIds acyclic depths) (sorted_sortedIds right depths))

/-- The edges may come with the deepest Tasks first. -/
theorem exists_deepest_first (nodes) (edges : List VPGEdge) (depth : String → ℕ) : ∃ edges', edges'.Perm edges ∧
    ∀ taskId, (targetsOf edges' .dependsOn taskId).Pairwise fun a b =>
      isTaskAt nodes b = true → isTaskAt nodes a = true ∧ depth b ≤ depth a := by
  refine ⟨_, mergeSort_perm edges fun a b => decide (isTaskAt nodes b.targetNodeId = true →
    isTaskAt nodes a.targetNodeId = true ∧ depth b.targetNodeId ≤ depth a.targetNodeId), fun taskId => ?_⟩
  refine pairwise_filterMap.mpr ((pairwise_mergeSort ?_ ?_ edges).imp fun below b found b' found' => ?_) <;> grind

/-- What a returned frontier says of the first row, if it is ready: its depth was
computed with nothing remembered. -/
theorem fine_of_front {depth : String → ℕ} (distinct : DistinctIds (task :: rest))
    (acyclic : ∀ taskId, ¬ TransGen (TaskDependency (task :: rest) edges) taskId taskId)
    (depths : ∀ taskId, IsDepth (TaskDependency (task :: rest) edges) taskId (depth taskId))
    (deepest : ∀ taskId, (targetsOf edges .dependsOn taskId).Pairwise fun a b =>
      isTaskAt (task :: rest) b = true → isTaskAt (task :: rest) a = true ∧ depth b ≤ depth a)
    (ready : task.nodeId ∈ readyIds (task :: rest) edges)
    (returned : computeReadyTaskIdsWithin frames (task :: rest) edges = some ids) :
    (priorityOf task.nodeId (task :: rest)).isSome ∧
      ∀ n, Walk (TaskDependency (task :: rest) edges) task.nodeId n → n < frames := by
  obtain ⟨other, found, kind⟩ := (mem_readyIds distinct).mp ready
  cases found.symm.trans (lookup_of_mem distinct mem_cons_self)
  rw [computeReadyTaskIdsWithin, readyIds, filter_cons_of_pos (by simp [kind]), map_cons, readyKeysWithin] at returned
  cases number : priorityOf task.nodeId (task :: rest) with
  | none =>
    rw [number] at returned
    cases returned
  | some priority =>
    refine ⟨rfl, fun n walk => Nat.lt_of_not_le fun long => ?_⟩
    rw [number, computeTopoDepth_none acyclic depths deepest (long.trans ((depths _).2 n walk))
      (fun _ member => absurd member not_mem_nil)] at returned
    cases returned

/-- Over dependencies without cycles, the frontier lists each ready Task once, by rank
at the longest walk along its dependencies, the same list for every order of the rows
and of the edges, exactly if the priority of every ready Task is a number and no walk
from one has as many steps as the stack has frames. -/
theorem ready_frontier_is_sorted (frames : ℕ) (rows : List VPGNode) (edges : List VPGEdge)
    (distinct : (rows.map VPGNode.nodeId).Nodup)
    (acyclic : ∀ taskId, ¬ Relation.TransGen (TaskDependency rows edges) taskId taskId) :
    (∃ ids : List String, ids.Nodup ∧ (∀ taskId, taskId ∈ ids ↔ Ready rows edges taskId) ∧
      (∃ depth : String → ℕ, (∀ taskId, IsDepth (TaskDependency rows edges) taskId (depth taskId)) ∧
        ids.Pairwise fun a b => rank rows depth a ≤ rank rows depth b) ∧
      ∀ rows' edges', rows'.Perm rows → edges'.Perm edges →
        computeReadyTaskIdsWithin frames rows' edges' = some ids) ↔
    ∀ taskId, Ready rows edges taskId → (priorityOf taskId rows).isSome ∧
      ∀ n, Walk (TaskDependency rows edges) taskId n → n < frames := by
  have depths := depthOf_isDepth acyclic
  have views : ∀ {rows'}, rows'.Perm rows → SameViews rows rows' := fun perm nodeId => by
    rw [getNode_perm distinct perm]
  constructor
  · rintro ⟨ids, -, -, -, all⟩ taskId ready
    -- the Task is listed first, so nothing is remembered when its depth is computed
    have listed := (mem_readyIds_iff_ready distinct).mpr ready
    obtain ⟨task, found, -⟩ := id ready
    cases lookup_key found
    obtain ⟨before, behind, rfl⟩ := append_of_mem (lookup_mem found)
    have front : (task :: (before ++ behind)).Perm (before ++ task :: behind) := perm_middle.symm
    have same := views front
    obtain ⟨edges', edgesPerm, deepest⟩ := exists_deepest_first (task :: (before ++ behind)) edges fun taskId =>
      depthOf taskId (before ++ task :: behind) (dependsOnIndex edges)
    have dependency := same.taskDependency edgesPerm
    have distinct' : DistinctIds (task :: (before ++ behind)) := (front.map _).nodup_iff.mpr distinct
    have fine := fine_of_front distinct' (dependency ▸ acyclic) (dependency ▸ depths) deepest
      (same.mem_readyIds edgesPerm distinct distinct' listed) (all _ _ front edgesPerm)
    rwa [dependency, same.priorityOf] at fine
  · intro fine
    refine ⟨computeReadyTaskIds rows edges, perm_computeReadyTaskIds.nodup_iff.mpr (readyIds_distinct distinct),
      fun taskId => ?_, ⟨_, depths, sorted_computeReadyTaskIds acyclic depths⟩, fun rows' edges' perm edgesPerm => ?_⟩
    · rw [mem_computeReadyTaskIds, mem_readyIds_iff_ready distinct]
    have same := views perm
    have dependency := same.taskDependency edgesPerm
    have distinct' : DistinctIds rows' := (perm.map _).nodup_iff.mpr distinct
    rw [← computeReadyTaskIds_congr same edgesPerm distinct distinct' acyclic]
    refine computeReadyTaskIdsWithin_some distinct' (by rwa [dependency]) fun taskId ready => ?_
    rw [dependency, same.priorityOf]
    refine fine taskId ((mem_readyIds_iff_ready distinct).mp ?_)
    exact same.symm.mem_readyIds edgesPerm.symm distinct' distinct ((mem_readyIds_iff_ready distinct').mpr ready)

/-- A Task that depends on a VERIFIED one, with the given priority. -/
def chainRows (priority : Json) : List VPGNode :=
  [("T", NodeValidity.unverified), ("U", .verified)].map fun (nodeId, validity) =>
    { nodeId, graphId := "G", lifecycle := .admitted, validity, createdInVersion := 1, updatedInVersion := 1,
      createdByPid := "P", metadata := [("priority", priority)], payload := .task {} }

def chainEdges : List VPGEdge := [⟨"e", "G", .dependsOn, "T", "U", 1, "P"⟩]

/-- A walk of one step needs two frames, and an infinite priority is no integer. -/
theorem ready_frontier_raises : Ready (chainRows (.int 0)) chainEdges "T" ∧
    computeReadyTaskIdsWithin 1 (chainRows (.int 0)) chainEdges = none ∧
    computeReadyTaskIdsWithin 1000 (chainRows (.infinity false)) chainEdges = none ∧
    computeReadyTaskIdsWithin 1000 (chainRows (.int 0)) chainEdges = some ["T"] := by
  refine ⟨(mem_readyIds_iff_ready (by decide)).mp (by decide), by decide +kernel⟩

theorem ready_chain_is_sorted : ((chainRows (.int 0)).map VPGNode.nodeId).Nodup ∧
    ∃ ids, computeReadyTaskIdsWithin 2 (chainRows (.int 0)).reverse chainEdges = some ids ∧ "T" ∈ ids := by
  have step : ∀ {taskId other}, TaskDependency (chainRows (.int 0)) chainEdges taskId other →
      taskId = "T" ∧ other = "U" := by
    intro taskId other edge
    simp [TaskDependency, targetsOf, chainEdges] at edge
    exact ⟨edge.1.1.symm, edge.1.2.symm⟩
  have acyclic : ∀ taskId, ¬ Relation.TransGen (TaskDependency (chainRows (.int 0)) chainEdges) taskId taskId := by
    intro taskId cycle
    obtain ⟨_, first, _⟩ := Relation.TransGen.head'_iff.mp cycle
    obtain ⟨_, _, last⟩ := Relation.TransGen.tail'_iff.mp cycle
    exact absurd ((step first).1.symm.trans (step last).2) (by decide)
  obtain ⟨ids, -, listed, -, all⟩ := (ready_frontier_is_sorted 2 (chainRows (.int 0)) chainEdges (by decide)
    acyclic).mpr fun taskId ready => by
      have ids : readyIds (chainRows (.int 0)) chainEdges = ["T"] := by decide
      have listed := (mem_readyIds_iff_ready (by decide)).mpr ready
      cases mem_singleton.mp (ids ▸ listed)
      refine ⟨by decide, fun n walk => ?_⟩
      rcases walk with _ | ⟨first, _ | ⟨second, _⟩⟩
      · decide
      · decide
      exact absurd ((step first).2.symm.trans (step second).1) (by decide)
  exact ⟨by decide, ids, all _ _ (reverse_perm _) (.refl _),
    (listed "T").mpr ((mem_readyIds_iff_ready (by decide)).mp (by decide))⟩

end
end LongHorizonOS.FrontierSpec
