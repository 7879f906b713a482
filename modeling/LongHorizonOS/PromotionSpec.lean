import LongHorizonOS.InvalidationSpec

/-! What the promotion pass and the Goal pass make of each node. Promotion
visits every Task once, in row order; a visit reads the payloads, which no
pass changes, and the validity that earlier visits have left. -/
namespace LongHorizonOS.PromotionSpec
open KeyedRows GraphModels EvidenceVerification RowSweep DerivedState List
open Option hiding all all_eq_true
open DerivationFrame InvalidationSpec

section
variable {before after : List VPGNode}

section
variable (same : SameRecords before after)
include same

theorem recordSnapshot_frame : recordSnapshot d after task = recordSnapshot d before task := by
  simp only [recordSnapshot, pinnedVersions_frame same]

theorem promote_frame : promote d after task = promote d before task := by
  simp only [promote, promoteStale, promoteUnverified, recordSnapshot_frame same]

theorem promotable_frame : Promotable d after task ↔ Promotable d before task := by
  simp only [Promotable, same.passingVerification, superseded_frame same]

end

@[simp] theorem recordSnapshot_validity (task) :
    (recordSnapshot d nodes task).validity = task.validity := rfl

@[simp] theorem recordSnapshot_lifecycle (task) :
    (recordSnapshot d nodes task).lifecycle = task.lifecycle := rfl

@[simp] theorem promote_validity (task) : (promote d nodes task).1.validity = .verified := by
  unfold promote promoteStale promoteUnverified closeVerified
  split <;> split <;> rfl

section
variable (ready : Promotable d nodes task)
include ready

theorem promotable_isTask : task.isTask = true := by
  obtain ⟨fields, kind, _⟩ := ready
  simp [VPGNode.isTask, VPGNode.nodeType, kind, Payload.nodeType]

/-- A Task that can be promoted is not VERIFIED yet. -/
theorem promotable_validity : task.validity ≠ .verified := by
  obtain ⟨_, _, _, _, fresh | ⟨stale, _⟩⟩ := ready
  · simp [fresh]
  simp [stale]

/-- A promoted Task is CLOSED: both branches start from a lifecycle that the
closing policy accepts or that is CLOSED already. -/
theorem promote_lifecycle : (promote d nodes task).1.lifecycle = .closed := by
  obtain ⟨_, _, admitted, _, fresh | ⟨stale, _⟩⟩ := ready
  · cases life : task.lifecycle with
    | proposed => simp [life, NodeLifecycle.admittedOrLater] at admitted
    | _ => simp [promote, promoteUnverified, closeVerified, taskShouldBeClosed, recordSnapshot, fresh, life]
  · simp [promote, promoteStale, closeVerified, taskShouldBeClosed, recordSnapshot, stale]

end

/-- What a promotion visit makes of a Task. -/
theorem promoteVisit_effect (nodes) (isTask : task.isTask = true) :
    (task.validity = .verified ∧ effect (promoteVisit d) nodes task = recordSnapshot d nodes task) ∨
    (Promotable d nodes task ∧ taskDepsVerified task.nodeId nodes d.edges = true ∧
      effect (promoteVisit d) nodes task = (promote d nodes task).1) ∨ (task.validity ≠ .verified ∧
      ¬ (Promotable d nodes task ∧ taskDepsVerified task.nodeId nodes d.edges = true) ∧
      effect (promoteVisit d) nodes task = task) := by
  by_cases verified : task.validity = .verified
  · exact .inl ⟨verified, by simp [effect, promoteVisit_verified isTask verified]⟩
  by_cases ready : Promotable d nodes task ∧ taskDepsVerified task.nodeId nodes d.edges = true
  · exact .inr (.inl ⟨ready.1, ready.2, by simp [effect, promoteVisit_promotable ready.1 ready.2]⟩)
  refine .inr (.inr ⟨verified, ready, ?_⟩)
  cases fired : promoteVisit d nodes task with
  | none => simp [effect, fired]
  | some result =>
    obtain ⟨_, ⟨valid, _⟩ | ⟨promotable, deps, _⟩⟩ := promoteVisit_some fired
    · exact absurd valid verified
    exact absurd ⟨promotable, deps⟩ ready

end

/-! ## The promotion pass -/

section
/-- The rows when the promotion pass has visited these keys. -/
def promotedAfter (d : Derivation) (nodes : List VPGNode) (earlier : List String) : List VPGNode :=
  (visitKeys VPGNode.nodeId (promoteVisit d) earlier (propagated d nodes)).rows

theorem promotedAfter_frame (nodes) (earlier) : Frame nodes (promotedAfter d nodes earlier) :=
  (propagated_frame nodes).trans (visitKeys_frame promoteVisit_derives _ _)

theorem promoted_eq : (promoted d nodes).rows = promotedAfter d nodes (nodes.map VPGNode.nodeId) := by
  rw [promoted, sweep, (propagated_frame nodes).keys, promotedAfter]

/-- The row of a node after the pass is what its one visit made of it. -/
theorem promoted_at (distinct : DistinctIds nodes) (split : nodes.map VPGNode.nodeId = earlier ++ taskId :: later)
    (found : getNode (propagated d nodes).rows taskId = some task) : getNode (promoted d nodes).rows taskId =
    some (effect (promoteVisit d) (promotedAfter d nodes earlier) task) := by
  rw [DistinctIds, split, nodup_append, nodup_cons] at distinct
  obtain ⟨_, ⟨notLater, _⟩, apart⟩ := distinct
  have notEarlier : taskId ∉ earlier := fun member => apart taskId member taskId mem_cons_self rfl
  rw [promoted_eq, promotedAfter, split, getNode,
    visitKeys_lookup_at promoteVisit_derives.keepsKey notEarlier notLater, ← promotedAfter]
  rw [show lookup VPGNode.nodeId (propagated d nodes).rows taskId = some task from found, map_some]

theorem exists_split (found : getNode (propagated d nodes).rows taskId = some task) :
    ∃ earlier later, nodes.map VPGNode.nodeId = earlier ++ taskId :: later := by
  apply append_of_mem
  rw [← (propagated_frame nodes).keys]
  exact lookup_isSome.mp (isSome_iff_exists.mpr ⟨task, found⟩)

/-- Everything the promotion pass can do to a Task. -/
theorem promoted_task (distinct : DistinctIds nodes) (isTask : task.isTask = true)
    (found : getNode (propagated d nodes).rows taskId = some task) : (task.validity = .verified ∧
      getNode (promoted d nodes).rows taskId = some (recordSnapshot d nodes task)) ∨
    (Promotable d nodes task ∧ getNode (promoted d nodes).rows taskId = some (promote d nodes task).1) ∨
    (task.validity ≠ .verified ∧ getNode (promoted d nodes).rows taskId = some task) := by
  obtain ⟨earlier, later, split⟩ := exists_split found
  have same := (promotedAfter_frame (d := d) nodes earlier).sameRecords
  rw [promoted_at distinct split found]
  rcases promoteVisit_effect _ isTask with ⟨verified, eq⟩ | ⟨ready, _, eq⟩ | ⟨unverified, _, eq⟩
  · exact .inl ⟨verified, by rw [eq, recordSnapshot_frame same]⟩
  · exact .inr (.inl ⟨(promotable_frame same).mp ready, by rw [eq, promote_frame same]⟩)
  exact .inr (.inr ⟨unverified, by rw [eq]⟩)

/-- Nodes that are not Tasks are left alone. -/
theorem promoted_other (noTask : ∀ node, getNode (propagated d nodes).rows taskId = some node →
    node.isTask = false) : getNode (promoted d nodes).rows taskId = getNode (propagated d nodes).rows taskId := by
  apply visitKeys_lookup_skipped (fun node => node.isTask = true) promoteVisit_derives.keepsKey
  · exact fun rows row replaced entries fired => (promoteVisit_some fired).1
  intro row found isTask
  rw [noTask row found] at isTask
  cases isTask

/-- Every dependency of a VERIFIED Task that is a Task is VERIFIED. -/
def Closed (nodes : List VPGNode) (edges : List VPGEdge) : Prop :=
  ∀ taskId dependency, VerifiedTask nodes taskId → TaskDependency nodes edges taskId dependency →
    VerifiedTask nodes dependency

theorem propagated_closed : Closed (propagated d nodes).rows d.edges := by
  intro taskId dependency verified edge
  have same := (propagated_marked (d := d) nodes).sameRecords
  have survives := propagated_verified_iff.mp verified
  exact propagated_verified_iff.mpr (survives.below ((taskDependency_frame same).mp edge))

theorem taskDepsVerified_iff : taskDepsVerified taskId nodes edges = true ↔
    ∀ target ∈ targetsOf edges .dependsOn taskId, ∀ dep, getNode nodes target = some dep →
      dep.isTask = true ∧ dep.validity = .verified ∧ dep.lifecycle.admittedOrLater = true := by
  simp only [taskDepsVerified, all_eq_true]
  refine forall₂_congr fun target _ => ?_
  cases getNode nodes target with
  | none => simp
  | some dep => simp [and_assoc]

/-- A promotion visit keeps VERIFIED closed under dependencies. -/
private theorem promote_step_closed (closed : Closed rows d.edges) (found : getNode rows taskId = some task)
    (fired : promoteVisit d rows task = some (replaced, entries)) :
    Closed (KeyedRows.modify VPGNode.nodeId taskId (fun _ => replaced) rows) d.edges := by
  have derived := promoteVisit_derives _ _ _ _ fired
  have frame := Frame.modify found derived
  have here : getNode (KeyedRows.modify VPGNode.nodeId taskId (fun _ => replaced) rows) taskId =
      some replaced := by
    rw [getNode, lookup_replace found derived.nodeId, if_pos rfl]
  have elsewhere : ∀ other ≠ taskId,
      getNode (KeyedRows.modify VPGNode.nodeId taskId (fun _ => replaced) rows) other =
        getNode rows other := fun other differs => by
    rw [getNode, lookup_replace found derived.nodeId, if_neg differs, getNode]
  obtain ⟨isTask, outcome⟩ := promoteVisit_some fired
  have verified : replaced.validity = .verified := by
    rcases outcome with ⟨valid, rfl⟩ | ⟨_, _, rfl⟩
    · exact valid
    exact promote_validity task
  have kept : ∀ other, VerifiedTask rows other → VerifiedTask
      (KeyedRows.modify VPGNode.nodeId taskId (fun _ => replaced) rows) other := by
    rintro other ⟨node, hit, isTask', valid⟩
    by_cases same : other = taskId
    · subst same
      exact ⟨replaced, here, derived.isTask.trans isTask, verified⟩
    · exact ⟨node, (elsewhere other same).trans hit, isTask', valid⟩
  intro source dependency verifiedSource edge
  have edge' := (taskDependency_frame frame.sameRecords).mp edge
  apply kept
  by_cases same : source = taskId
  · subst same
    rcases outcome with ⟨valid, _⟩ | ⟨_, deps, _⟩
    · exact closed source dependency ⟨task, found, isTask, valid⟩ edge'
    obtain ⟨dep, hit, depTask⟩ := isTaskAt_iff.mp edge'.2
    rw [lookup_key found] at deps
    have met := taskDepsVerified_iff.mp deps dependency edge'.1 dep hit
    exact ⟨dep, hit, met.1, met.2.1⟩
  · obtain ⟨node, hit, rest⟩ := verifiedSource
    exact closed source dependency ⟨node, (elsewhere source same).symm.trans hit, rest⟩ edge'

theorem promoted_closed : Closed (promoted d nodes).rows d.edges :=
  visitKeys_invariant (fun _ _ _ _ _ closed found fired => promote_step_closed closed found fired) propagated_closed

end

/-! ## The Goal pass -/

section
/-- A Goal is closed when it depends on some Task and every Task it depends on
is VERIFIED; targets of other types are not looked at. -/
theorem goalIsClosed_iff : goalIsClosed nodeId nodes edges = true ↔
    (∃ taskId, TaskDependency nodes edges nodeId taskId) ∧
      ∀ taskId, TaskDependency nodes edges nodeId taskId → ∃ dep, getNode nodes taskId = some dep ∧
        dep.isTask = true ∧ dep.validity = .verified ∧ dep.lifecycle.admittedOrLater = true := by
  simp only [goalIsClosed, Bool.and_eq_true, Bool.not_eq_true', all_eq_true, mem_filter]
  refine and_congr ?_ (forall_congr' fun taskId => imp_congr Iff.rfl ?_)
  · rw [isEmpty_eq_false_iff_exists_mem]
    exact exists_congr fun taskId => mem_filter
  cases getNode nodes taskId with
  | none => simp
  | some dep => simp [and_assoc]

/-- The same payloads and the same Tasks. -/
def SameTasks (before after : List VPGNode) : Prop :=
  SameRecords before after ∧
    ∀ nodeId, isTaskAt before nodeId = true → getNode after nodeId = getNode before nodeId

theorem goalIsClosed_sameTasks {before after} (same : SameTasks before after) :
    goalIsClosed goalId after edges = goalIsClosed goalId before edges := by
  rw [Bool.eq_iff_iff, goalIsClosed_iff, goalIsClosed_iff]
  have edges_iff : ∀ taskId, TaskDependency after edges goalId taskId ↔
      TaskDependency before edges goalId taskId := fun taskId => by
    rw [TaskDependency, TaskDependency, same.1.isTaskAt]
  simp only [edges_iff]
  refine and_congr Iff.rfl (forall₂_congr fun taskId edge => ?_)
  rw [same.2 taskId edge.2]

private theorem closeGoal_sameTasks (pass) :
    SameTasks pass.rows (visitKey VPGNode.nodeId (closeGoalVisit d) pass k).rows := by
  refine ⟨(visitKeys_frame closeGoalVisit_derives [k] pass).sameRecords, fun nodeId isTask => ?_⟩
  change lookup VPGNode.nodeId (visitKeys VPGNode.nodeId (closeGoalVisit d) [k] pass).rows nodeId =
    lookup VPGNode.nodeId pass.rows nodeId
  refine visitKeys_lookup_skipped (fun node => node.isGoal = true) closeGoalVisit_derives.keepsKey
    (fun _ _ _ _ fired => (closeGoalVisit_some fired).1) fun row found isGoal => ?_
  obtain ⟨task, hit, isTask'⟩ := isTaskAt_iff.mp isTask
  obtain rfl : task = row := some.inj (hit.symm.trans found)
  simp only [VPGNode.isTask, VPGNode.isGoal, decide_eq_true_eq] at isTask' isGoal
  rw [isTask'] at isGoal
  cases isGoal

theorem SameTasks.trans (first : SameTasks a b) (second : SameTasks b c) : SameTasks a c := by
  refine ⟨first.1.trans second.1, fun nodeId isTask => ?_⟩
  rw [second.2 nodeId (by rw [first.1.isTaskAt, isTask]), first.2 nodeId isTask]

theorem SameTasks.refl (nodes) : SameTasks nodes nodes :=
  ⟨⟨fun _ => rfl, fun _ => rfl⟩, fun _ _ => rfl⟩

/-- Visiting a Goal makes its lifecycle agree with the closure test. -/
private theorem closeGoal_agrees (pass)
    (found : getNode (visitKey VPGNode.nodeId (closeGoalVisit d) pass nodeId).rows nodeId = some goal)
    (isGoal : goal.isGoal = true) : goal.lifecycle = .closed ↔ goalIsClosed nodeId pass.rows d.edges = true := by
  rcases visitKey_cases VPGNode.nodeId (closeGoalVisit d) pass with
    ⟨same, skips⟩ | ⟨row, replaced, entries, hit, fired, eq⟩
  · rw [same] at found
    have agrees := closeGoalVisit_none isGoal (skips goal found)
    rwa [show goal.nodeId = nodeId from lookup_key found] at agrees
  have derived := closeGoalVisit_derives _ _ _ _ fired
  rw [eq, getNode, lookup_replace hit derived.nodeId, if_pos rfl, some.injEq] at found
  obtain ⟨_, shape⟩ := closeGoalVisit_some fired
  rw [← found, shape, show row.nodeId = nodeId from lookup_key hit]
  cases goalIsClosed nodeId pass.rows d.edges <;> simp

theorem goalPass_sameTasks {keys} (pass) :
    SameTasks pass.rows (visitKeys VPGNode.nodeId (closeGoalVisit d) keys pass).rows := by
  induction keys generalizing pass with
  | nil => exact .refl _
  | cons k keys ih => exact (closeGoal_sameTasks pass).trans (ih _)

/-- The Goal pass changes no Task. -/
theorem closed_sameTasks (d) (nodes) : SameTasks (promoted d nodes).rows (closed d nodes).rows :=
  goalPass_sameTasks _

/-- VERIFIED is closed under dependencies, since the Goal pass does not touch Tasks. -/
theorem derived_closed : Closed (closed d nodes).rows d.edges := by
  have same := closed_sameTasks d nodes
  have verified : ∀ taskId, VerifiedTask (closed d nodes).rows taskId ↔
      VerifiedTask (promoted d nodes).rows taskId := by
    intro taskId
    constructor
    · rintro ⟨task, found, isTask, valid⟩
      have there : isTaskAt (promoted d nodes).rows taskId = true := by
        rw [← same.1.isTaskAt]
        exact isTaskAt_iff.mpr ⟨task, found, isTask⟩
      exact ⟨task, same.2 taskId there ▸ found, isTask, valid⟩
    · rintro ⟨task, found, isTask, valid⟩
      exact ⟨task, (same.2 taskId (isTaskAt_iff.mpr ⟨task, found, isTask⟩)).trans found, isTask, valid⟩
  intro taskId dependency valid edge
  rw [verified] at valid ⊢
  exact promoted_closed taskId dependency valid ((taskDependency_frame same.1).mp edge)

/-- After the pass a Goal is CLOSED exactly if the closure test says so. -/
theorem closed_goal (found : getNode (closed d nodes).rows nodeId = some goal) (isGoal : goal.isGoal = true) :
    goal.lifecycle = .closed ↔ goalIsClosed nodeId (closed d nodes).rows d.edges = true := by
  have agrees : ∀ k ∈ (promoted d nodes).rows.map VPGNode.nodeId, ∀ goal,
      getNode (closed d nodes).rows k = some goal → goal.isGoal = true →
        (goal.lifecycle = .closed ↔ goalIsClosed k (promoted d nodes).rows d.edges = true) := by
    apply visitKeys_establish (P := fun rows => SameTasks (promoted d nodes).rows rows)
      (Q := fun k rows => ∀ goal, getNode rows k = some goal → goal.isGoal = true →
        (goal.lifecycle = .closed ↔ goalIsClosed k (promoted d nodes).rows d.edges = true))
    · exact fun pass k same => same.trans (closeGoal_sameTasks pass)
    · intro pass k same goal found isGoal
      rw [← goalIsClosed_sameTasks same]
      exact closeGoal_agrees pass found isGoal
    · intro pass j k same done goal found isGoal
      by_cases here : k = j
      · subst here
        rw [← goalIsClosed_sameTasks same]
        exact closeGoal_agrees pass found isGoal
      · rw [getNode, visitKey_lookup closeGoalVisit_derives.keepsKey, if_neg here] at found
        exact done goal found isGoal
    · exact .refl _
  have member : nodeId ∈ (promoted d nodes).rows.map VPGNode.nodeId := by
    have keys : (closed d nodes).rows.map VPGNode.nodeId = (promoted d nodes).rows.map VPGNode.nodeId :=
      visitKeys_keys closeGoalVisit_derives.keepsKey
    rw [← keys]
    exact lookup_isSome.mp (isSome_iff_exists.mpr ⟨goal, found⟩)
  rw [goalIsClosed_sameTasks (closed_sameTasks d nodes)]
  exact agrees nodeId member goal found isGoal

/-- A Goal as its visit leaves it. -/
def settleGoal (d : Derivation) (closes : Bool) (goal : VPGNode) : VPGNode :=
  if closes = true ∧ goal.lifecycle ≠ .closed then
    { goal with lifecycle := .closed, updatedInVersion := d.graphVersion }
  else if closes = false ∧ goal.lifecycle = .closed then
    { goal with lifecycle := .active, updatedInVersion := d.graphVersion }
  else goal

theorem closeGoalVisit_effect (isGoal : goal.isGoal = true) :
    effect (closeGoalVisit d) nodes goal = settleGoal d (goalIsClosed goal.nodeId nodes d.edges) goal := by
  unfold effect closeGoalVisit settleGoal
  rw [isGoal]
  cases goalIsClosed goal.nodeId nodes d.edges <;> by_cases was : goal.lifecycle = .closed <;> simp [was]

theorem isGoal_not_isTask {node : VPGNode} (isGoal : node.isGoal = true) : node.isTask = false := by
  simp only [VPGNode.isGoal, decide_eq_true_eq] at isGoal
  simp [VPGNode.isTask, isGoal]

/-- What a derivation makes of a Goal. -/
theorem derived_goal (distinct : DistinctIds nodes)
    (found : getNode nodes nodeId = some goal) (isGoal : goal.isGoal = true) : getNode (closed d nodes).rows nodeId =
    some (settleGoal d (goalIsClosed nodeId (closed d nodes).rows d.edges) goal) := by
  have noTask := isGoal_not_isTask isGoal
  have propagatedGoal : getNode (propagated d nodes).rows nodeId = some goal := by
    rw [propagated_other, found]
    rintro ⟨task, hit, isTask, _⟩
    rw [found, some.injEq] at hit
    rw [← hit, noTask] at isTask
    cases isTask
  have promotedGoal : getNode (promoted d nodes).rows nodeId = some goal := by
    rw [promoted_other, propagatedGoal]
    intro node hit
    rw [propagatedGoal, some.injEq] at hit
    rw [← hit, noTask]
  obtain ⟨earlier, later, split⟩ : ∃ earlier later,
      (promoted d nodes).rows.map VPGNode.nodeId = earlier ++ nodeId :: later :=
    append_of_mem (lookup_isSome.mp (isSome_iff_exists.mpr ⟨goal, promotedGoal⟩))
  have once : nodeId ∉ earlier ∧ nodeId ∉ later := by
    rw [DistinctIds, ← (promoted_frame nodes).keys, split, nodup_append, nodup_cons] at distinct
    exact ⟨fun member => distinct.2.2 nodeId member nodeId mem_cons_self rfl, distinct.2.1.1⟩
  have visited : lookup VPGNode.nodeId (visitKeys VPGNode.nodeId (closeGoalVisit d)
      (earlier ++ nodeId :: later) (promoted d nodes)).rows nodeId = _ :=
    visitKeys_lookup_at closeGoalVisit_derives.keepsKey once.1 once.2
  rw [← split] at visited
  rw [getNode, closed, sweep, visited, ← getNode, promotedGoal, map_some,
    closeGoalVisit_effect isGoal, lookup_key promotedGoal, goalIsClosed_sameTasks (goalPass_sameTasks _),
    ← goalIsClosed_sameTasks (closed_sameTasks d nodes)]
  rfl

end

/-! ## The whole derivation -/

section
/-- A Task as the promotion pass meets it when it does not survive. -/
def lost (d : Derivation) (task : VPGNode) : VPGNode :=
  if task.validity = .verified then (markTaskStale d task).1 else task

theorem lost_validity : (lost d task).validity ≠ .verified := by
  unfold lost
  split
  · simp
  assumption

theorem lost_isTask (task) : (lost d task).isTask = task.isTask := by
  unfold lost
  split
  · exact markTaskStale_isTask task
  rfl

theorem lost_nodeId (task) : (lost d task).nodeId = task.nodeId := by
  unfold lost
  split
  · rfl
  rfl

theorem lost_payload (task) : (lost d task).payload = task.payload := by
  unfold lost
  split
  · rfl
  rfl

/-- What the invalidation passes make of a Task. -/
theorem propagated_task (found : getNode nodes taskId = some task) (isTask : task.isTask = true) :
    (Survives d nodes taskId ∧ task.validity = .verified ∧ getNode (propagated d nodes).rows taskId = some task) ∨
    (¬ Survives d nodes taskId ∧ getNode (propagated d nodes).rows taskId = some (lost d task)) := by
  by_cases survives : Survives d nodes taskId
  · obtain ⟨same, hit, _, verified, _⟩ := survives.sound
    rw [found, some.injEq] at hit
    exact .inl ⟨survives, hit ▸ verified, (survivor_unchanged survives).trans found⟩
  refine .inr ⟨survives, ?_⟩
  unfold lost
  split
  · rename_i verified
    exact propagated_stale found isTask verified survives
  rename_i unverified
  rw [propagated_other, found]
  rintro ⟨same, hit, _, verified⟩
  rw [found, some.injEq] at hit
  exact unverified (hit ▸ verified)

theorem closed_task (isTask : isTaskAt nodes taskId = true) :
    getNode (closed d nodes).rows taskId = getNode (promoted d nodes).rows taskId :=
  (closed_sameTasks d nodes).2 taskId (by rw [(promoted_frame nodes).sameRecords.isTaskAt, isTask])

/-- What a derivation makes of a Task: a survivor gets a new snapshot, any
other Task is promoted or left as the invalidation made it. -/
theorem derived_task (distinct : DistinctIds nodes)
    (found : getNode nodes taskId = some task) (isTask : task.isTask = true) :
    (Survives d nodes taskId ∧ task.validity = .verified ∧
      getNode (closed d nodes).rows taskId = some (recordSnapshot d nodes task)) ∨
    (¬ Survives d nodes taskId ∧ Promotable d nodes (lost d task) ∧
      getNode (closed d nodes).rows taskId = some (promote d nodes (lost d task)).1) ∨
    (¬ Survives d nodes taskId ∧ getNode (closed d nodes).rows taskId = some (lost d task)) := by
  rw [closed_task (isTaskAt_iff.mpr ⟨task, found, isTask⟩)]
  rcases propagated_task found isTask with ⟨survives, verified, hit⟩ | ⟨gone, hit⟩
  · rcases promoted_task distinct isTask hit with ⟨_, eq⟩ | ⟨ready, _⟩ | ⟨unverified, _⟩
    · exact .inl ⟨survives, verified, eq⟩
    · exact absurd verified (promotable_validity ready)
    exact absurd verified unverified
  right
  rcases promoted_task distinct (lost_isTask task ▸ isTask) hit with ⟨verified, _⟩ | ⟨ready, eq⟩ | ⟨_, eq⟩
  · exact absurd verified lost_validity
  · exact .inl ⟨gone, ready, eq⟩
  exact .inr ⟨gone, eq⟩

/-- The Tasks that are VERIFIED afterwards survived or were promoted. -/
theorem derived_verified (distinct : DistinctIds nodes)
    (verified : VerifiedTask (closed d nodes).rows taskId) : ∃ task, getNode nodes taskId = some task ∧
      task.isTask = true ∧ (Survives d nodes taskId ∨
        ¬ Survives d nodes taskId ∧ Promotable d nodes (lost d task)) := by
  obtain ⟨after, hit, isTask, valid⟩ := verified
  obtain ⟨task, found, same⟩ := (closed_frame nodes).backward hit
  have isTask' : task.isTask = true := same.isTask ▸ isTask
  refine ⟨task, found, isTask', ?_⟩
  rcases derived_task distinct found isTask' with ⟨survives, _⟩ | ⟨gone, ready, _⟩ | ⟨_, eq⟩
  · exact .inl survives
  · exact .inr ⟨gone, ready⟩
  rw [hit, some.injEq] at eq
  exact absurd (eq ▸ valid) lost_validity

/-- A Task that the promotion pass met unverified and left VERIFIED. -/
theorem promoted_met (distinct : DistinctIds nodes)
    (met : getNode (propagated d nodes).rows taskId = some task) (unverified : task.validity ≠ .verified)
    (verified : VerifiedTask (closed d nodes).rows taskId) : ∃ before,
    getNode nodes taskId = some before ∧ before.isTask = true ∧ ¬ Survives d nodes taskId ∧
        task = lost d before ∧ Promotable d nodes task := by
  obtain ⟨before, found, isTask, outcome⟩ := derived_verified distinct verified
  rcases propagated_task found isTask with ⟨_, valid, hit⟩ | ⟨gone, hit⟩
  · rw [met, some.injEq] at hit
    exact absurd (hit ▸ valid) unverified
  rw [met, some.injEq] at hit
  rcases outcome with survives | ⟨_, ready⟩
  · exact absurd survives gone
  exact ⟨before, found, isTask, gone, hit, hit ▸ ready⟩

end

/-! ## Deciding the conditions -/

section
variable (d : Derivation) (nodes : List VPGNode)

instance (taskId : String) : Decidable (VerifiedTask nodes taskId) :=
  inferInstanceAs (Decidable (∃ task ∈ getNode nodes taskId, _ ∧ _))

/-- Run the invalidation passes. -/
instance (taskId : String) : Decidable (Survives d nodes taskId) :=
  decidable_of_iff (VerifiedTask (propagated d nodes).rows taskId) propagated_verified_iff

instance (task : VPGNode) : Decidable (Promotable d nodes task) :=
  match kind : task.payload with
  | .task fields => decidable_of_iff (task.lifecycle.admittedOrLater = true ∧
        max 1 fields.requiredVerificationCount ≤ ((sourcesOf d.edges .verifies task.nodeId).countP
          (passingVerification d.facts nodes d.edges) : Int) ∧
        (task.validity = .unverified ∨ task.validity = .stale ∧ superseded d nodes task.nodeId = false ∧
          hasFreshEvidenceSinceStale task d.edges = true))
      ⟨fun holds => ⟨fields, kind, holds⟩, fun ⟨_, same, holds⟩ => by
        cases Payload.task.inj (kind.symm.trans same); exact holds⟩
  | .goal _ | .artifactRef _ | .verification _ | .evidence _ =>
    isFalse fun ⟨_, same, _⟩ => nomatch kind.symm.trans same

end
end LongHorizonOS.PromotionSpec
