import LongHorizonOS.DerivationFrame
import Mathlib.Data.List.Dedup

/-! Which VERIFIED Tasks survive the invalidation passes. The answer is stated
without passes or orders: a Task keeps VERIFIED exactly when nothing it
depends on, at any distance, is unverified, seeded, re-pinned or superseded. -/
namespace LongHorizonOS.InvalidationSpec
open KeyedRows GraphModels EvidenceVerification ReadyFrontier RowSweep DerivedState List
open Option hiding any any_eq_true
open DerivationFrame

/-- A DEPENDS_ON edge between two Tasks. -/
def TaskDependency (nodes : List VPGNode) (edges : List VPGEdge) (task dependency : String) : Prop :=
  dependency ∈ targetsOf edges .dependsOn task ∧ isTaskAt nodes dependency = true

/-- A VERIFIED Task is stored under the id. -/
def VerifiedTask (nodes : List VPGNode) (taskId : String) : Prop :=
  ∃ task, getNode nodes taskId = some task ∧ task.isTask = true ∧ task.validity = .verified

/-- A VERIFIED Task against which the tests on the Task itself have nothing. -/
def LocallySound (d : Derivation) (nodes : List VPGNode) (taskId : String) : Prop :=
  ∃ task, getNode nodes taskId = some task ∧ task.isTask = true ∧ task.validity = .verified ∧
    taskId ∉ d.invalidationSeedTaskIds ∧ pinsChanged d nodes task = false ∧
    superseded d nodes taskId = false

/-- Everything the Task depends on, itself included, is locally sound. -/
def Survives (d : Derivation) (nodes : List VPGNode) (taskId : String) : Prop :=
  ∀ other, Relation.ReflTransGen (TaskDependency nodes d.edges) taskId other → LocallySound d nodes other

section
variable {d : Derivation} {nodes before after : List VPGNode}

theorem isTaskAt_iff : isTaskAt nodes taskId = true ↔
    ∃ task, getNode nodes taskId = some task ∧ task.isTask = true := by
  unfold isTaskAt payloadOf VPGNode.isTask VPGNode.nodeType
  cases getNode nodes taskId <;> simp

theorem Survives.sound (survives : Survives d nodes taskId) : LocallySound d nodes taskId :=
  survives taskId Relation.ReflTransGen.refl

theorem Survives.below (survives : Survives d nodes taskId)
    (edge : TaskDependency nodes d.edges taskId dependency) : Survives d nodes dependency :=
  fun other path => survives other (.head edge path)

theorem hasUnverifiedDependency_iff : hasUnverifiedDependency taskId nodes d.dependsIndex = true ↔
    ∃ dependency, TaskDependency nodes d.edges taskId dependency ∧ ¬ VerifiedTask nodes dependency := by
  simp only [hasUnverifiedDependency, Derivation.dependsIndex, dependsOnIndex_get, any_eq_true]
  refine exists_congr fun dependency => ?_
  rw [TaskDependency, and_assoc]
  refine and_congr_right fun _ => ?_
  rw [isTaskAt_iff]
  unfold VerifiedTask
  cases getNode nodes dependency with
  | none => simp
  | some node =>
    simp only [Bool.and_eq_true, decide_eq_true_eq, some.injEq, exists_eq_left', not_and]
    exact and_congr_right fun isTask => ⟨fun stale _ => stale, fun stale => stale isTask⟩

theorem pinnedVersions_eq : pinnedVersions taskId nodes d.indices =
    latestPins ((targetsOf d.edges .produces taskId).filterMap (artifactPin nodes)) := by
  rw [pinnedVersions, Derivation.indices, produces_get]

section
variable (same : SameRecords before after)
include same

theorem pinnedVersions_frame : pinnedVersions taskId after d.indices = pinnedVersions taskId before d.indices := by
  rw [pinnedVersions, pinnedVersions, same.artifactPin]

theorem superseded_frame : superseded d after taskId = superseded d before taskId := by
  rw [superseded, superseded, pinnedVersions_frame same]

theorem pinsChanged_frame : pinsChanged d after task = pinsChanged d before task := by
  simp only [pinsChanged, pinnedVersions_frame same]

theorem taskDependency_frame :
    TaskDependency after d.edges task dependency ↔ TaskDependency before d.edges task dependency := by
  rw [TaskDependency, TaskDependency, same.isTaskAt]

end

theorem verifiedTask_perm (distinct : DistinctIds nodes) (perm : nodes'.Perm nodes) :
    VerifiedTask nodes' taskId ↔ VerifiedTask nodes taskId := by
  simp only [VerifiedTask, getNode_perm distinct perm]

theorem taskDependency_perm (distinct : DistinctIds nodes) (perm : nodes'.Perm nodes) (edgesPerm : edges'.Perm edges) :
    TaskDependency nodes' edges' taskId dependency ↔ TaskDependency nodes edges taskId dependency := by
  rw [TaskDependency, TaskDependency, (targetsOf_perm edgesPerm).mem_iff, (sameRecords_perm distinct perm).isTaskAt]

end

/-! ## Rows with some VERIFIED Tasks marked stale -/

/-- Every node is as before, or was a VERIFIED Task and is now marked stale. -/
def Marked (d : Derivation) (before after : List VPGNode) : Prop :=
  ∀ nodeId, getNode after nodeId = getNode before nodeId ∨
    ∃ task, getNode before nodeId = some task ∧ task.isTask = true ∧ task.validity = .verified ∧
      getNode after nodeId = some (markTaskStale d task).1

/-- A visit that marks a VERIFIED Task stale or skips. -/
def MarksStale (d : Derivation) (visit : Visit VPGNode GraphEvent) : Prop :=
  ∀ rows row replaced entries, visit rows row = some (replaced, entries) →
    row.isTask = true ∧ row.validity = .verified ∧ replaced = (markTaskStale d row).1

section
variable {nodes before after : List VPGNode} {pass : Pass VPGNode GraphEvent}

@[simp] theorem markTaskStale_validity (task) : (markTaskStale d task).1.validity = .stale := rfl

theorem markTaskStale_nodeId : (markTaskStale d task).1.nodeId = task.nodeId := rfl

@[simp] theorem markTaskStale_isTask (task) : (markTaskStale d task).1.isTask = task.isTask := rfl

theorem Marked.refl (nodes) : Marked d nodes nodes := fun _ => .inl rfl

/-- A Task that is still VERIFIED has not been touched. -/
theorem Marked.unchanged (marked : Marked d before after) (verified : VerifiedTask after taskId) :
    getNode after taskId = getNode before taskId := by
  rcases marked taskId with same | ⟨task, _, _, _, stale⟩
  · exact same
  obtain ⟨found, hit, _, valid⟩ := verified
  rw [stale, some.injEq] at hit
  rw [← hit, markTaskStale_validity] at valid
  cases valid

theorem Marked.verified (marked : Marked d before after) (verified : VerifiedTask after taskId) :
    VerifiedTask before taskId := by
  obtain ⟨task, found, rest⟩ := verified
  exact ⟨task, marked.unchanged ⟨task, found, rest⟩ ▸ found, rest⟩

theorem Marked.trans (first : Marked d a b) (second : Marked d b c) : Marked d a c := by
  intro nodeId
  rcases second nodeId with same | ⟨task, found, isTask, verified, stale⟩
  · rw [same]
    exact first nodeId
  have unchanged := first.unchanged ⟨task, found, isTask, verified⟩
  exact .inr ⟨task, unchanged ▸ found, isTask, verified, stale⟩

theorem Marked.payload (marked : Marked d before after) (nodeId) :
    payloadOf after nodeId = payloadOf before nodeId := by
  unfold payloadOf
  rcases marked nodeId with same | ⟨task, found, _, _, stale⟩
  · rw [same]
  rw [found, stale]
  rfl

theorem Marked.sameRecords (marked : Marked d before after) : SameRecords before after := by
  refine ⟨marked.payload, fun nodeId => ?_⟩
  unfold evidenceAt
  rcases marked nodeId with same | ⟨task, found, isTask, _, stale⟩
  · rw [same]
  rw [found, stale, bind_some, bind_some]
  cases kind : task.payload with
  | task fields => simp [markTaskStale, kind]
  | _ => simp [VPGNode.isTask, VPGNode.nodeType, kind, Payload.nodeType] at isTask

/-- A marking visit either skips its row or marks it stale. -/
theorem visitKey_marked (marks : MarksStale d visit) (pass) (k) :
    Marked d pass.rows (visitKey VPGNode.nodeId visit pass k).rows := by
  rcases visitKey_cases VPGNode.nodeId visit pass with
    ⟨same, _⟩ | ⟨row, replaced, entries, found, fired, eq⟩
  · rw [same]
    exact .refl _
  obtain ⟨isTask, verified, rfl⟩ := marks _ _ _ _ fired
  intro nodeId
  rw [eq, getNode, lookup_replace found markTaskStale_nodeId]
  by_cases here : nodeId = k
  · subst here
    exact .inr ⟨row, found, isTask, verified, if_pos rfl⟩
  rw [if_neg here]
  exact .inl rfl

theorem visitKeys_marked (marks : MarksStale d visit) (keys) (pass) :
    Marked d pass.rows (visitKeys VPGNode.nodeId visit keys pass).rows := by
  induction keys generalizing pass with
  | nil => exact .refl _
  | cons k keys ih => exact (visitKey_marked marks pass k).trans (ih _)

theorem untilStable_marked (marks : MarksStale d visit) (pass) :
    Marked d pass.rows (untilStable VPGNode.nodeId visit fuel pass).rows := by
  induction fuel generalizing pass with
  | zero => exact .refl _
  | succ fuel ih =>
    have swept : Marked d pass.rows (sweep VPGNode.nodeId visit { pass with changed := false }).rows :=
      visitKeys_marked marks _ _
    rw [untilStable]
    split
    · exact swept.trans (ih _)
    exact swept

theorem seedVisit_marks : MarksStale d (seedVisit d) :=
  fun _ _ _ _ fired => seedVisit_some fired

theorem invalidateVisit_marks : MarksStale d (invalidateVisit d) := fun _ _ _ _ fired => by
  obtain ⟨isTask, verified, _, eq⟩ := invalidateVisit_some fired
  exact ⟨isTask, verified, eq⟩

theorem propagateVisit_marks : MarksStale d (propagateVisit d) := fun _ _ _ _ fired => by
  obtain ⟨isTask, verified, _, eq⟩ := propagateVisit_some fired
  exact ⟨isTask, verified, eq⟩

/-- Visiting a VERIFIED Task and leaving it VERIFIED means that the visit skipped. -/
theorem skipped_of_verified (marks : MarksStale d visit)
    (verified : VerifiedTask (visitKey VPGNode.nodeId visit pass k).rows k) :
    ∃ task, getNode pass.rows k = some task ∧ task.isTask = true ∧ task.validity = .verified ∧
      visit pass.rows task = none := by
  have marked := visitKey_marked marks pass k
  obtain ⟨task, found, isTask, valid⟩ := marked.verified verified
  refine ⟨task, found, isTask, valid, ?_⟩
  rcases visitKey_cases VPGNode.nodeId visit pass with
    ⟨_, skips⟩ | ⟨row, replaced, entries, hit, fired, eq⟩
  · exact skips task found
  obtain ⟨_, _, rfl⟩ := marks _ _ _ _ fired
  obtain ⟨after, hit', _, valid'⟩ := verified
  rw [eq, getNode, lookup_replace hit markTaskStale_nodeId, if_pos rfl, some.injEq] at hit'
  rw [← hit', markTaskStale_validity] at valid'
  cases valid'

/-- A visited key is no longer VERIFIED, or its visit skipped in a table that
differs from the first one only by marks. -/
theorem visitKeys_verified (marks : MarksStale d visit) {keys} (member : k ∈ keys)
    (verified : VerifiedTask (visitKeys VPGNode.nodeId visit keys pass).rows k) :
    ∃ rows task, Marked d pass.rows rows ∧ getNode pass.rows k = some task ∧ visit rows task = none := by
  have done : ∀ k ∈ keys, VerifiedTask (visitKeys VPGNode.nodeId visit keys pass).rows k →
      ∃ rows task, Marked d pass.rows rows ∧ getNode pass.rows k = some task ∧
        visit rows task = none := visitKeys_establish
    (P := fun rows => Marked d pass.rows rows)
    (Q := fun k rows => VerifiedTask rows k → ∃ rows task, Marked d pass.rows rows ∧
      getNode pass.rows k = some task ∧ visit rows task = none)
    (fun p k holds => holds.trans (visitKey_marked marks p k))
    (fun p k holds verified => by
      obtain ⟨task, found, isTask, valid, skipped⟩ := skipped_of_verified marks verified
      have unchanged := holds.unchanged ⟨task, found, isTask, valid⟩
      exact ⟨p.rows, task, holds, unchanged ▸ found, skipped⟩)
    (fun p j k _ done verified => done ((visitKey_marked marks p j).verified verified))
    (.refl _)
  exact done k member verified

end

/-! ## The survivors -/

section
theorem invalidated_marked : Marked d nodes (invalidated d nodes).rows :=
  (visitKeys_marked seedVisit_marks (sortedSeeds d) { rows := nodes }).trans
    (visitKeys_marked invalidateVisit_marks _ _)

theorem propagated_marked (nodes) : Marked d nodes (propagated d nodes).rows :=
  invalidated_marked.trans (untilStable_marked propagateVisit_marks _)

theorem mem_sortedSeeds : taskId ∈ sortedSeeds d ↔ taskId ∈ d.invalidationSeedTaskIds := by
  rw [sortedSeeds, mem_insertionSort, mem_dedup]

/-- A Task that the invalidation passes leave VERIFIED is locally sound. -/
theorem locallySound_of_invalidated (verified : VerifiedTask (invalidated d nodes).rows taskId) :
    LocallySound d nodes taskId := by
  have seededMarked := visitKeys_marked (seedVisit_marks (d := d)) (sortedSeeds d)
    ({ rows := nodes } : Pass VPGNode GraphEvent)
  have verifiedSeeded := (visitKeys_marked invalidateVisit_marks _ _).verified verified
  obtain ⟨task, found, isTask, valid⟩ := seededMarked.verified verifiedSeeded
  have unseeded : taskId ∉ d.invalidationSeedTaskIds := by
    intro seeded
    obtain ⟨rows, row, _, hit, skipped⟩ :=
      visitKeys_verified seedVisit_marks (mem_sortedSeeds.mpr seeded) verifiedSeeded
    obtain rfl : task = row := some.inj (found.symm.trans hit)
    simp [seedVisit, isTask, valid] at skipped
  have member : taskId ∈ (visitKeys VPGNode.nodeId (seedVisit d) (sortedSeeds d)
      { rows := nodes }).rows.map VPGNode.nodeId := by
    obtain ⟨row, hit, _⟩ := verifiedSeeded
    exact lookup_isSome.mp (isSome_iff_exists.mpr ⟨row, hit⟩)
  obtain ⟨rows, row, marked, hit, skipped⟩ := visitKeys_verified invalidateVisit_marks member verified
  rw [seededMarked.unchanged verifiedSeeded] at hit
  obtain rfl : task = row := some.inj (found.symm.trans hit)
  have same := (seededMarked.trans marked).sameRecords
  simp only [invalidateVisit, isTask, valid, decide_true, Bool.and_self, Bool.true_and,
    pinsChanged_frame same, superseded_frame same, lookup_key found] at skipped
  have clean : ¬ (pinsChanged d nodes task = true ∨ superseded d nodes taskId = true) := by
    intro reason
    rcases reason with changed | newer
    · simp [changed] at skipped
    simp [newer] at skipped
  simp only [not_or, Bool.not_eq_true] at clean
  exact ⟨task, found, isTask, valid, unseeded, clean.1, clean.2⟩

/-- What the `while changed` loop counts down: the VERIFIED Tasks. -/
def verifiedCount (nodes : List VPGNode) : ℕ :=
  nodes.countP fun task => task.isTask && decide (task.validity = .verified)

/-- The loop ends with no VERIFIED Task above one that is not. -/
theorem propagated_stable : Stable VPGNode.nodeId (propagateVisit d) (propagated d nodes).rows := by
  apply untilStable_stable verifiedCount
  · intro rows k row replaced entries found fired
    obtain ⟨isTask, verified, _, rfl⟩ := propagateVisit_some fired
    exact countP_modify_lt found (by simp [isTask, verified]) (by simp)
  have length : (invalidated d nodes).rows.length = nodes.length := by
    simpa using congrArg List.length (invalidated_frame nodes).keys
  exact Nat.lt_succ_of_le (length ▸ countP_le_length)

/-- The rows in which every survivor is as it was. -/
private def Spared (d : Derivation) (nodes rows : List VPGNode) : Prop :=
  SameRecords nodes rows ∧ ∀ taskId, Survives d nodes taskId → getNode rows taskId = getNode nodes taskId

/-- Marking a node that does not survive spares the survivors. -/
private theorem spared_step (spared : Spared d nodes rows) (found : getNode rows taskId = some task)
    (isTask : task.isTask = true) (lost : ¬ Survives d nodes taskId) :
    Spared d nodes (KeyedRows.modify VPGNode.nodeId taskId (fun _ => (markTaskStale d task).1) rows) := by
  have frame := Frame.modify found (markTaskStale_derived (d := d) isTask)
  refine ⟨spared.1.trans frame.sameRecords, fun other survives => ?_⟩
  have elsewhere : other ≠ taskId := by
    rintro rfl
    exact lost survives
  rw [getNode, lookup_replace found markTaskStale_nodeId, if_neg elsewhere]
  exact spared.2 other survives

/-- An unverified dependency in spared rows is no survivor's dependency. -/
private theorem spared_dependency (spared : Spared d nodes rows) (survives : Survives d nodes taskId) :
    hasUnverifiedDependency taskId rows d.dependsIndex = false := by
  rw [← Bool.not_eq_true, hasUnverifiedDependency_iff]
  rintro ⟨dependency, edge, unverified⟩
  have below := survives.below ((taskDependency_frame spared.1).mp edge)
  obtain ⟨task, found, isTask, valid, _⟩ := below.sound
  exact unverified ⟨task, (spared.2 dependency below).trans found, isTask, valid⟩

/-- The survivors are untouched by every pass. -/
theorem survivor_unchanged (survives : Survives d nodes taskId) :
    getNode (propagated d nodes).rows taskId = getNode nodes taskId := by
  have seeded : Spared d nodes
      (visitKeys VPGNode.nodeId (seedVisit d) (sortedSeeds d) { rows := nodes }).rows := by
    refine ⟨(visitKeys_marked seedVisit_marks _ { rows := nodes }).sameRecords, fun other alive => ?_⟩
    obtain ⟨_, _, _, _, unseeded, _⟩ := alive.sound
    exact visitKeys_lookup_other seedVisit_derives.keepsKey fun member => unseeded (mem_sortedSeeds.mp member)
  have swept : Spared d nodes (invalidated d nodes).rows := by
    apply visitKeys_invariant _ seeded
    intro rows k row replaced entries spared found fired
    obtain ⟨isTask, _, reason, rfl⟩ := invalidateVisit_some fired
    refine spared_step spared found isTask fun alive => ?_
    have here : row.nodeId = k := lookup_key found
    obtain ⟨task, hit, _, _, _, pins, current⟩ := alive.sound
    obtain rfl : row = task := some.inj (found.symm.trans ((spared.2 k alive).trans hit))
    rw [here, pinsChanged_frame spared.1, superseded_frame spared.1, pins, current,
      spared_dependency spared alive] at reason
    simp at reason
  have final : Spared d nodes (propagated d nodes).rows := by
    apply untilStable_invariant _ _ swept
    intro rows k row replaced entries spared found fired
    obtain ⟨isTask, _, reason, rfl⟩ := propagateVisit_some fired
    refine spared_step spared found isTask fun alive => ?_
    rw [lookup_key found, spared_dependency spared alive] at reason
    cases reason
  exact final.2 taskId survives

/-- A Task is VERIFIED after the invalidation passes exactly if it survives. -/
theorem propagated_verified_iff : VerifiedTask (propagated d nodes).rows taskId ↔ Survives d nodes taskId := by
  constructor
  · intro verified other path
    have same := (propagated_marked (d := d) nodes).sameRecords
    have closed : VerifiedTask (propagated d nodes).rows other := by
      induction path with
      | refl => exact verified
      | tail _ edge ih =>
        rename_i middle last _
        obtain ⟨task, found, isTask, valid⟩ := ih
        have calm := propagated_stable middle task found
        by_contra lost
        have unverified : hasUnverifiedDependency middle (propagated d nodes).rows d.dependsIndex = true :=
          hasUnverifiedDependency_iff.mpr ⟨last, (taskDependency_frame same).mpr edge, lost⟩
        simp [propagateVisit, isTask, valid, show task.nodeId = middle from lookup_key found, unverified] at calm
    have loop : Marked d (invalidated d nodes).rows (propagated d nodes).rows :=
      untilStable_marked propagateVisit_marks _
    exact locallySound_of_invalidated (loop.verified closed)
  · intro survives
    obtain ⟨task, found, isTask, valid, _⟩ := survives.sound
    exact ⟨task, (survivor_unchanged survives).trans found, isTask, valid⟩

/-- A VERIFIED Task that does not survive is marked stale. -/
theorem propagated_stale (found : getNode nodes taskId = some task) (isTask : task.isTask = true)
    (verified : task.validity = .verified) (lost : ¬ Survives d nodes taskId) :
    getNode (propagated d nodes).rows taskId = some (markTaskStale d task).1 := by
  rcases propagated_marked nodes taskId with same | ⟨other, hit, _, _, stale⟩
  · exact absurd (propagated_verified_iff.mp ⟨task, same.trans found, isTask, verified⟩) lost
  obtain rfl : task = other := some.inj (found.symm.trans hit)
  exact stale

/-- Every other node is left as it is. -/
theorem propagated_other (unverified : ¬ VerifiedTask nodes taskId) :
    getNode (propagated d nodes).rows taskId = getNode nodes taskId := by
  rcases propagated_marked nodes taskId with same | ⟨task, hit, isTask, verified, _⟩
  · exact same
  exact absurd ⟨task, hit, isTask, verified⟩ unverified

end
end LongHorizonOS.InvalidationSpec
