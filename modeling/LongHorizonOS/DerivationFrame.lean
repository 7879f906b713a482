import LongHorizonOS.DerivedState

/-! What a derivation leaves alone. The passes write the derived fields of
Tasks and Goals and nothing else, so every predicate that reads payloads and
edges has the same value at each moment of a derivation. -/
namespace LongHorizonOS.DerivationFrame
open Prod (fst snd)
open KeyedRows GraphModels EvidenceVerification RowSweep DerivedState List
open Option hiding or or_assoc

/-! ## What one visit can do -/

section
theorem seedVisit_some (fired : seedVisit d nodes task = some (replaced, events)) :
    task.isTask = true ∧ task.validity = .verified ∧ replaced = (markTaskStale d task).1 := by
  unfold seedVisit at fired
  split at fired
  · rename_i guard
    simp only [Bool.and_eq_true, decide_eq_true_eq] at guard
    exact ⟨guard.1, guard.2, (congrArg fst (some.inj fired)).symm⟩
  · cases fired

theorem invalidateVisit_some (fired : invalidateVisit d nodes task = some (replaced, events)) :
    task.isTask = true ∧ task.validity = .verified ∧
      (pinsChanged d nodes task = true ∨ superseded d nodes task.nodeId = true ∨
        hasUnverifiedDependency task.nodeId nodes d.dependsIndex = true) ∧ replaced = (markTaskStale d task).1 := by
  unfold invalidateVisit at fired
  split at fired
  · rename_i guard
    simp only [Bool.and_eq_true, Bool.or_eq_true, decide_eq_true_eq, or_assoc] at guard
    exact ⟨guard.1.1, guard.1.2, guard.2, (congrArg fst (some.inj fired)).symm⟩
  · cases fired

theorem propagateVisit_some (fired : propagateVisit d nodes task = some (replaced, events)) :
    task.isTask = true ∧ task.validity = .verified ∧
      hasUnverifiedDependency task.nodeId nodes d.dependsIndex = true ∧ replaced = (markTaskStale d task).1 := by
  unfold propagateVisit at fired
  split at fired
  · rename_i guard
    simp only [Bool.and_eq_true, decide_eq_true_eq] at guard
    exact ⟨guard.1.1, guard.1.2, guard.2, (congrArg fst (some.inj fired)).symm⟩
  · cases fired

/-- A Task that is not VERIFIED passes every test of its branch except the one
on its dependencies. -/
def Promotable (d : Derivation) (nodes : List VPGNode) (task : VPGNode) : Prop :=
  ∃ fields, task.payload = .task fields ∧ task.lifecycle.admittedOrLater = true ∧
    max 1 fields.requiredVerificationCount ≤ ((sourcesOf d.edges .verifies task.nodeId).countP
      (passingVerification d.facts nodes d.edges) : Int) ∧
    (task.validity = .unverified ∨ task.validity = .stale ∧ superseded d nodes task.nodeId = false ∧
      hasFreshEvidenceSinceStale task d.edges = true)

/-- The promotion of either branch. -/
def promote (d : Derivation) (nodes : List VPGNode) (task : VPGNode) : VPGNode × List GraphEvent :=
  if task.validity = .stale then promoteStale d nodes task else promoteUnverified d nodes task

/-- The two ways in which the promotion pass rewrites a node. -/
theorem promoteVisit_some (fired : promoteVisit d nodes task = some (replaced, events)) :
    task.isTask = true ∧ (task.validity = .verified ∧ replaced = recordSnapshot d nodes task ∨
        Promotable d nodes task ∧ taskDepsVerified task.nodeId nodes d.edges = true ∧
          replaced = (promote d nodes task).1) := by
  unfold promoteVisit at fired
  split at fired
  · rename_i fields kind
    have isTask : task.isTask = true := by simp [VPGNode.isTask, VPGNode.nodeType, kind, Payload.nodeType]
    refine ⟨isTask, ?_⟩
    split at fired
    · rename_i validity
      exact .inl ⟨validity, (congrArg fst (some.inj fired)).symm⟩
    · rename_i validity
      split at fired
      · cases fired
      rename_i current
      split at fired
      · cases fired
      rename_i fresh
      split at fired
      · rename_i accepted
        obtain ⟨admitted, _, enough, deps⟩ := taskIsVerified_iff.mp accepted
        simp only [Bool.not_eq_true, Bool.not_eq_true', Bool.not_eq_false] at current fresh
        refine .inr ⟨⟨fields, kind, admitted, enough, .inr ⟨validity, current, fresh⟩⟩, deps, ?_⟩
        rw [promote, if_pos validity]
        exact (congrArg fst (some.inj fired)).symm
      · cases fired
    · cases fired
    · rename_i validity
      split at fired
      · rename_i accepted
        obtain ⟨admitted, _, enough, deps⟩ := taskIsVerified_iff.mp accepted
        refine .inr ⟨⟨fields, kind, admitted, enough, .inl validity⟩, deps, ?_⟩
        rw [promote, if_neg (by simp [validity])]
        exact (congrArg fst (some.inj fired)).symm
      · cases fired
  · cases fired

theorem promoteVisit_verified (isTask : task.isTask = true) (verified : task.validity = .verified) :
    promoteVisit d nodes task = some (recordSnapshot d nodes task, []) := by
  unfold promoteVisit
  split
  · rw [verified]
  rename_i other
  cases kind : task.payload with
  | task fields => exact absurd kind (other fields)
  | _ => simp [VPGNode.isTask, VPGNode.nodeType, kind, Payload.nodeType] at isTask

theorem promoteVisit_promotable (ready : Promotable d nodes task)
    (deps : taskDepsVerified task.nodeId nodes d.edges = true) :
    promoteVisit d nodes task = some (promote d nodes task) := by
  obtain ⟨fields, kind, admitted, enough, branch⟩ := ready
  have accepted : task.validity ≠ .invalid →
      taskIsVerified d.facts task fields nodes d.edges d.indices = true := fun valid =>
    taskIsVerified_iff.mpr ⟨admitted, valid, enough, deps⟩
  unfold promoteVisit promote
  rcases branch with fresh | ⟨stale, current, fresh⟩
  · simp [kind, fresh, accepted]
  simp [kind, stale, current, fresh, accepted]

theorem closeGoalVisit_some (fired : closeGoalVisit d nodes goal = some (replaced, events)) :
    goal.isGoal = true ∧ replaced = { goal with
        lifecycle := if goalIsClosed goal.nodeId nodes d.edges then .closed else .active
        updatedInVersion := d.graphVersion } := by
  unfold closeGoalVisit at fired
  split at fired
  · cases fired
  rename_i isGoal
  refine ⟨by simpa using isGoal, ?_⟩
  dsimp only at fired
  split at fired
  · rename_i guard
    simp only [Bool.and_eq_true] at guard
    rw [guard.1]
    exact (congrArg fst (some.inj fired)).symm
  split at fired
  · rename_i guard
    simp only [Bool.and_eq_true, Bool.not_eq_true'] at guard
    rw [guard.1]
    exact (congrArg fst (some.inj fired)).symm
  · cases fired

theorem closeGoalVisit_none (isGoal : goal.isGoal = true) (skipped : closeGoalVisit d nodes goal = none) :
    goal.lifecycle = .closed ↔ goalIsClosed goal.nodeId nodes d.edges = true := by
  unfold closeGoalVisit at skipped
  rw [isGoal] at skipped
  cases closed : goalIsClosed goal.nodeId nodes d.edges <;>
    by_cases was : goal.lifecycle = .closed <;> simp [closed, was] at skipped ⊢

end

/-! ## The frame -/

/-- The two nodes differ at most in the fields a derivation may write. -/
structure DerivedFields (before after : VPGNode) : Prop where
  nodeId : after.nodeId = before.nodeId
  graphId : after.graphId = before.graphId
  createdInVersion : after.createdInVersion = before.createdInVersion
  createdByPid : after.createdByPid = before.createdByPid
  payload : after.payload = before.payload
  other : before.isTask = false → before.isGoal = false → after = before

theorem DerivedFields.refl (node) : DerivedFields node node :=
  ⟨rfl, rfl, rfl, rfl, rfl, fun _ _ => rfl⟩

theorem DerivedFields.isTask {before after} (same : DerivedFields before after) : after.isTask = before.isTask := by
  unfold VPGNode.isTask VPGNode.nodeType
  rw [same.payload]

theorem DerivedFields.isGoal {before after} (same : DerivedFields before after) : after.isGoal = before.isGoal := by
  unfold VPGNode.isGoal VPGNode.nodeType
  rw [same.payload]

theorem DerivedFields.trans (first : DerivedFields a b) (second : DerivedFields b c) : DerivedFields a c where
  nodeId := second.nodeId.trans first.nodeId
  graphId := second.graphId.trans first.graphId
  createdInVersion := second.createdInVersion.trans first.createdInVersion
  createdByPid := second.createdByPid.trans first.createdByPid
  payload := second.payload.trans first.payload
  other := fun noTask noGoal =>
    (second.other (first.isTask.trans noTask) (first.isGoal.trans noGoal)).trans (first.other noTask noGoal)

/-- Rewriting the derived fields of a Task or a Goal. -/
theorem DerivedFields.of_update (validity) (updated) (metadata)
    (derived : node.isTask = true ∨ node.isGoal = true) :
    DerivedFields node { node with lifecycle := lifecycle, validity := validity,
                                   updatedInVersion := updated, metadata := metadata } where
  nodeId := rfl
  graphId := rfl
  createdInVersion := rfl
  createdByPid := rfl
  payload := rfl
  other := fun noTask noGoal => by simp [noTask, noGoal] at derived

theorem markTaskStale_derived (isTask : task.isTask = true) : DerivedFields task (markTaskStale d task).1 :=
  .of_update _ _ _ (.inl isTask)

theorem recordSnapshot_derived (isTask : task.isTask = true) : DerivedFields task (recordSnapshot d nodes task) :=
  .of_update _ _ _ (.inl isTask)

theorem promote_derived (isTask : task.isTask = true) : DerivedFields task (promote d nodes task).1 := by
  unfold promote promoteStale promoteUnverified closeVerified
  split <;> split <;> exact .of_update _ _ _ (.inl isTask)

/-- The same ids in the same order, with derived fields rewritten. -/
structure Frame (before after : List VPGNode) : Prop where
  keys : after.map VPGNode.nodeId = before.map VPGNode.nodeId
  node : ∀ nodeId, Option.Rel DerivedFields (getNode before nodeId) (getNode after nodeId)

namespace Frame
variable {before after : List VPGNode} {node : VPGNode}

theorem forward (frame : Frame before after) (found : getNode before nodeId = some node) :
    ∃ node', getNode after nodeId = some node' ∧ DerivedFields node node' := by
  have related := frame.node nodeId
  rw [found] at related
  cases hit : getNode after nodeId with
  | none => rw [hit] at related; cases related
  | some node' =>
    rw [hit] at related
    cases related with
    | some same => exact ⟨node', rfl, same⟩

theorem backward (frame : Frame before after) (found : getNode after nodeId = some node) :
    ∃ node', getNode before nodeId = some node' ∧ DerivedFields node' node := by
  cases hit : getNode before nodeId with
  | none =>
    have related := frame.node nodeId
    rw [hit, found] at related
    cases related
  | some node' =>
    obtain ⟨found', hit', same⟩ := frame.forward hit
    rw [found, some.injEq] at hit'
    exact ⟨node', rfl, hit' ▸ same⟩

theorem missing (frame : Frame before after) (absent : getNode before nodeId = none) : getNode after nodeId = none := by
  apply lookup_eq_none.mpr
  rw [frame.keys]
  exact lookup_eq_none.mp absent

theorem refl (nodes) : Frame nodes nodes := by
  refine ⟨rfl, fun nodeId => ?_⟩
  cases getNode nodes nodeId with
  | none => exact Option.Rel.none
  | some node => exact Option.Rel.some (.refl node)

theorem trans (first : Frame a b) (second : Frame b c) : Frame a c := by
  refine ⟨second.keys.trans first.keys, fun nodeId => ?_⟩
  cases found : getNode a nodeId with
  | none =>
    rw [second.missing (first.missing found)]
    exact Option.Rel.none
  | some node =>
    obtain ⟨middle, hit, same⟩ := first.forward found
    obtain ⟨last, hit', same'⟩ := second.forward hit
    rw [hit']
    exact Option.Rel.some (same.trans same')

theorem payload (frame : Frame before after) (nodeId) : payloadOf after nodeId = payloadOf before nodeId := by
  cases found : getNode before nodeId with
  | none => rw [payloadOf, payloadOf, found, frame.missing found]
  | some node =>
    obtain ⟨node', hit, same⟩ := frame.forward found
    rw [payloadOf, payloadOf, found, hit, map_some, map_some, same.payload]

theorem sameRecords (frame : Frame before after) : SameRecords before after := by
  refine ⟨frame.payload, fun nodeId => ?_⟩
  apply Option.ext
  rintro ⟨evidence, fields⟩
  rw [evidenceAt_some, evidenceAt_some]
  constructor
  · rintro ⟨found, kind⟩
    obtain ⟨node, hit, same⟩ := frame.backward found
    have kind' : node.payload = .evidence fields := same.payload ▸ kind
    have unchanged := same.other (by simp [VPGNode.isTask, VPGNode.nodeType, kind', Payload.nodeType])
      (by simp [VPGNode.isGoal, VPGNode.nodeType, kind', Payload.nodeType])
    exact ⟨unchanged ▸ hit, kind⟩
  · rintro ⟨found, kind⟩
    obtain ⟨node, hit, same⟩ := frame.forward found
    have unchanged := same.other (by simp [VPGNode.isTask, VPGNode.nodeType, kind, Payload.nodeType])
      (by simp [VPGNode.isGoal, VPGNode.nodeType, kind, Payload.nodeType])
    exact ⟨unchanged ▸ hit, kind⟩

/-- Replacing one node within its derived fields. -/
theorem modify (found : getNode before nodeId = some node) (same : DerivedFields node replaced) :
    Frame before (modify VPGNode.nodeId nodeId (fun _ => replaced) before) := by
  have keeps : ∀ other ∈ before, other.nodeId = nodeId → replaced.nodeId = other.nodeId := by
    intro other _ here
    rw [same.nodeId, lookup_key found, here]
  refine ⟨map_key_modify keeps, fun other => ?_⟩
  rw [getNode, getNode, lookup_replace found same.nodeId]
  by_cases here : other = nodeId
  · subst here
    rw [if_pos rfl, show lookup VPGNode.nodeId before other = some node from found]
    exact Option.Rel.some same
  · rw [if_neg here]
    exact (refl before).node other

end Frame

/-! ## The frame of the passes -/

/-- A visit that stays within the derived fields. -/
def Derives (visit : Visit VPGNode GraphEvent) : Prop :=
  ∀ rows row replaced entries, visit rows row = some (replaced, entries) → DerivedFields row replaced

section
theorem Derives.keepsKey (derives : Derives visit) : KeepsKey VPGNode.nodeId visit :=
  fun rows row replaced entries fired => (derives rows row replaced entries fired).nodeId

theorem visitKeys_frame (derives : Derives visit) (keys)
    (pass) : Frame pass.rows (visitKeys VPGNode.nodeId visit keys pass).rows :=
  visitKeys_invariant (P := Frame pass.rows)
    (fun rows _ row replaced entries frame found fired =>
      frame.trans (.modify found (derives rows row replaced entries fired)))
    (.refl _)

theorem untilStable_frame (derives : Derives visit) (pass) :
    Frame pass.rows (untilStable VPGNode.nodeId visit fuel pass).rows :=
  untilStable_invariant (P := Frame pass.rows)
    (fun rows _ row replaced entries frame found fired =>
      frame.trans (.modify found (derives rows row replaced entries fired)))
    fuel (.refl _)

theorem seedVisit_derives : Derives (seedVisit d) := fun _ _ _ _ fired => by
  obtain ⟨isTask, _, rfl⟩ := seedVisit_some fired
  exact markTaskStale_derived isTask

theorem invalidateVisit_derives : Derives (invalidateVisit d) := fun _ _ _ _ fired => by
  obtain ⟨isTask, _, _, rfl⟩ := invalidateVisit_some fired
  exact markTaskStale_derived isTask

theorem propagateVisit_derives : Derives (propagateVisit d) := fun _ _ _ _ fired => by
  obtain ⟨isTask, _, _, rfl⟩ := propagateVisit_some fired
  exact markTaskStale_derived isTask

theorem promoteVisit_derives : Derives (promoteVisit d) := fun _ _ _ _ fired => by
  obtain ⟨isTask, ⟨_, rfl⟩ | ⟨_, _, rfl⟩⟩ := promoteVisit_some fired
  · exact recordSnapshot_derived isTask
  exact promote_derived isTask

theorem closeGoalVisit_derives : Derives (closeGoalVisit d) := fun _ _ _ _ fired => by
  obtain ⟨isGoal, rfl⟩ := closeGoalVisit_some fired
  exact .of_update _ _ _ (.inr isGoal)

variable (nodes : List VPGNode)

theorem invalidated_frame : Frame nodes (invalidated d nodes).rows :=
  (visitKeys_frame seedVisit_derives (sortedSeeds d) { rows := nodes }).trans
    (visitKeys_frame invalidateVisit_derives _ _)

theorem propagated_frame : Frame nodes (propagated d nodes).rows :=
  (invalidated_frame nodes).trans (untilStable_frame propagateVisit_derives _)

theorem promoted_frame : Frame nodes (promoted d nodes).rows :=
  (propagated_frame nodes).trans (visitKeys_frame promoteVisit_derives _ _)

theorem closed_frame : Frame nodes (closed d nodes).rows :=
  (promoted_frame nodes).trans (visitKeys_frame closeGoalVisit_derives _ _)

end

/-! ## Events -/

section
/-- The visit logs events of the derivation's graph only. -/
def LogsHere (d : Derivation) (visit : Visit VPGNode GraphEvent) : Prop :=
  ∀ nodes node replaced events, visit nodes node = some (replaced, events) →
    ∀ event ∈ events, event.graphId = d.graphId

theorem markTaskStale_events : ∀ event ∈ (markTaskStale d task).2, event.graphId = d.graphId := by
  intro event member
  simp only [markTaskStale, mem_cons] at member
  rcases member with rfl | reopened
  · rfl
  split at reopened
  · rw [mem_singleton.mp reopened]
    rfl
  · cases reopened

theorem closeVerified_events : ∀ event ∈ (closeVerified d task).2, event.graphId = d.graphId := by
  intro event member
  unfold closeVerified at member
  split at member
  · simp only [mem_cons, not_mem_nil, or_false] at member
    rcases member with rfl | rfl <;> rfl
  rw [mem_singleton.mp member]
  rfl

/-- The invalidating visits differ only in their guard. -/
theorem marking_logs {guard : List VPGNode → VPGNode → Bool} :
    LogsHere d fun nodes task => if guard nodes task then some (markTaskStale d task) else none := by
  intro nodes task replaced events fired
  dsimp only at fired
  split at fired
  · obtain rfl : (markTaskStale d task).2 = events := congrArg snd (some.inj fired)
    exact markTaskStale_events
  · cases fired

theorem promoteVisit_logs : LogsHere d (promoteVisit d) := by
  intro nodes task replaced events fired
  unfold promoteVisit at fired
  split at fired
  · split at fired
    · cases fired
      simp
    · split at fired
      · cases fired
      split at fired
      · cases fired
      split at fired
      · obtain rfl : (promoteStale d nodes task).2 = events := congrArg snd (some.inj fired)
        exact closeVerified_events
      · cases fired
    · cases fired
    · split at fired
      · obtain rfl : (promoteUnverified d nodes task).2 = events := congrArg snd (some.inj fired)
        exact closeVerified_events
      · cases fired
  · cases fired

theorem closeGoalVisit_logs : LogsHere d (closeGoalVisit d) := by
  intro nodes goal replaced events fired
  unfold closeGoalVisit at fired
  split at fired
  · cases fired
  dsimp only at fired
  split at fired
  · cases fired
    simp [Derivation.event]
  split at fired
  · cases fired
    simp [Derivation.event]
  · cases fired

/-- Every event of a derivation names its graph. -/
theorem recomputeDerivedState_events : ∀ event ∈ (recomputeDerivedState d nodes).2, event.graphId = d.graphId := by
  have invalidated : ∀ event ∈ (invalidated d nodes).log, event.graphId = d.graphId :=
    visitKeys_log marking_logs (visitKeys_log marking_logs (by simp))
  have propagated : ∀ event ∈ (propagated d nodes).log, event.graphId = d.graphId :=
    untilStable_log marking_logs _ invalidated
  have logged : ∀ event ∈ (closed d nodes).log, event.graphId = d.graphId :=
    visitKeys_log closeGoalVisit_logs (visitKeys_log promoteVisit_logs propagated)
  intro event member
  rw [recomputeDerivedState, mem_append] at member
  rcases member with derived | frontier
  · exact logged event derived
  rw [mem_singleton.mp frontier]

end
end LongHorizonOS.DerivationFrame
