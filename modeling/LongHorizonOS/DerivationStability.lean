import LongHorizonOS.ArtifactBinding
import LongHorizonOS.DerivationOrder

/-! Deriving again from the result of a derivation. The second derivation
finds the VERIFIED Tasks of the first as survivors, unless one of them was
promoted with superseded pins. It promotes nothing new, unless the first pass
met a Task before a dependency that it promoted later, or the first VERIFIES
target of a Verification is another one this time. Without these, a refresh
directly after a commit changes nothing. -/
namespace LongHorizonOS.DerivationStability
open KeyedRows GraphModels EvidenceVerification ReadyFrontier DerivedState List
open Option hiding any any_eq_true
open PatchSubmission StoreConsistency DerivationFrame InvalidationSpec PromotionSpec OnePass
open PromotionOrder FrontierSpec GraphIntegrity CommittedRuns RunMonitor ArtifactBinding DerivationOrder PatchSpec

/-- The conditions under which one derivation is enough. -/
structure Settles (d : Derivation) (nodes : List VPGNode) : Prop where
  /-- The Tasks that one Verification verifies have the same pins. -/
  agree : TargetsAgree nodes d.edges
  /-- No Task that repeated promotion would verify has superseded pins. -/
  current : ∀ taskId, (promotionRule d nodes).Derivable taskId → superseded d nodes taskId = false
  /-- Every such Task is listed after the dependencies that it waits for. -/
  placed : ∀ taskId, (promotionRule d nodes).Derivable taskId →
    (promotionRule d nodes).Placed (nodes.map VPGNode.nodeId) taskId

/-- The second derivation starts from the result of the first, in any order,
with the same facts and without seeds. -/
structure Again (d : Derivation) (nodes : List VPGNode) (d' : Derivation) (nodes' : List VPGNode) :
    Prop where
  facts : d'.facts = d.facts
  edges : d'.edges.Perm d.edges
  nodes : nodes'.Perm (closed d nodes).rows
  seeds : d'.invalidationSeedTaskIds = []

section
variable {d d' : Derivation} {nodes nodes' : List VPGNode} (distinct : DistinctIds nodes)
  (again : Again d nodes d' nodes')

theorem derived_distinct (distinct : DistinctIds nodes) : ((closed d nodes).rows.map VPGNode.nodeId).Nodup := by
  rw [(closed_frame nodes).keys]
  exact distinct

/-! ## What the second derivation reads -/

include distinct again

theorem Again.getNode (nodeId) : getNode nodes' nodeId = getNode (closed d nodes).rows nodeId :=
  getNode_perm (derived_distinct distinct) again.nodes nodeId

theorem Again.distinctIds : DistinctIds nodes' :=
  (again.nodes.map _).nodup_iff.mpr (derived_distinct distinct)

theorem Again.sameRecords : SameRecords nodes nodes' :=
  (closed_frame nodes).sameRecords.trans (sameRecords_perm (derived_distinct distinct) again.nodes)

theorem Again.pins (taskId) (pin) :
    pin ∈ pinnedVersions taskId nodes' d'.indices ↔ pin ∈ pinnedVersions taskId nodes d.indices := by
  have same : pin ∈ taskCurrentArtifactVersions taskId nodes d'.edges ↔
      pin ∈ taskCurrentArtifactVersions taskId nodes d.edges := mem_pins_perm again.edges
  rw [← (again.sameRecords distinct).taskCurrentArtifactVersions] at same
  rw [pinnedVersions_eq, pinnedVersions_eq]
  exact same

theorem Again.superseded (taskId) : superseded d' nodes' taskId = superseded d nodes taskId := by
  rw [DerivedState.superseded, DerivedState.superseded, again.facts]
  exact hasSupersededArtifact_congr (again.pins distinct taskId) _

theorem Again.promotable (agree : TargetsAgree nodes d.edges) (task) :
    Promotable d' nodes' task ↔ Promotable d nodes task := by
  have passing : passingVerification d'.facts nodes' d'.edges = passingVerification d.facts nodes d.edges := by
    rw [(again.sameRecords distinct).passingVerification, again.facts, passingVerification_perm agree again.edges]
  simp only [Promotable, passing, (sourcesOf_perm again.edges).countP_eq, again.superseded distinct,
    hasFreshEvidence_perm again.edges]

/-! ## The survivors of the second derivation -/

/-- A VERIFIED Task of the first result is locally sound in the second derivation. -/
theorem Again.sound (settles : Settles d nodes) (verified : VerifiedTask (closed d nodes).rows taskId) :
    LocallySound d' nodes' taskId := by
  have current : DerivedState.superseded d nodes taskId = false := by
    rcases (derived_verified_iff distinct).mp verified with survives | promoted
    · obtain ⟨_, _, _, _, _, _, current⟩ := survives.sound
      exact current
    · exact settles.current taskId (Rule.derivable_of_pass promoted)
  obtain ⟨task, found, isTask, valid⟩ := verified
  have recorded := derived_snapshots distinct taskId task found isTask valid
  refine ⟨task, (again.getNode distinct taskId).trans found, isTask, valid, ?_, ?_, ?_⟩
  · rw [again.seeds]
    exact not_mem_nil
  · unfold pinsChanged
    split
    · rfl
    rename_i versions snapshot
    rw [Bool.not_eq_false', sameSet_iff]
    intro pin
    rw [again.pins distinct, lookup_key found, pinnedVersions_eq]
    rw [snapshot, getD_some, (closed_frame nodes).sameRecords.taskCurrentArtifactVersions] at recorded
    exact (recorded pin).symm
  · rw [again.superseded distinct, current]

theorem Again.survives_iff (settles : Settles d nodes) :
    Survives d' nodes' taskId ↔ VerifiedTask (closed d nodes).rows taskId := by
  constructor
  · intro survives
    obtain ⟨task, found, isTask, valid, _⟩ := survives.sound
    exact ⟨task, (again.getNode distinct taskId).symm.trans found, isTask, valid⟩
  intro verified other path
  -- VERIFIED is closed under dependencies, so it reaches everything on the path
  have reached : VerifiedTask (closed d nodes).rows other := by
    induction path with
    | refl => exact verified
    | tail _ edge ih =>
      refine derived_closed _ _ ih ?_
      exact (taskDependency_perm (derived_distinct distinct) again.nodes again.edges).mp edge
  exact again.sound distinct settles reached

/-! ## Nothing is left to promote -/

omit again in
/-- A dependency that the first result satisfies was given or promoted. -/
theorem given_or_promoted (found : GraphModels.getNode (closed d nodes).rows taskId = some task)
    (isTask : task.isTask = true) (verified : task.validity = .verified)
    (admitted : task.lifecycle.admittedOrLater = true) :
    (promotionRule d nodes).given taskId ∨ Promoted d nodes taskId := by
  obtain ⟨before, hit, same⟩ := (closed_frame (d := d) nodes).backward found
  rcases derived_outcome (d := d) distinct hit (same.isTask ▸ isTask) with
    ⟨survives, eq⟩ | ⟨_, promoted, _⟩ | ⟨_, _, eq⟩
  · rw [found, some.injEq] at eq
    exact .inl ⟨before, hit, survives, by rw [eq] at admitted; exact admitted⟩
  · exact .inr promoted
  rw [found, some.injEq] at eq
  exact absurd (eq ▸ verified) lost_validity

omit again in
/-- A Task that passes the tests above satisfied dependencies has been promoted. -/
theorem promoted_of_supplied (settles : Settles d nodes) (ready : (promotionRule d nodes).ready taskId)
    (supplied : ∀ target, (promotionRule d nodes).needs taskId target →
      (promotionRule d nodes).given target ∨ Promoted d nodes target) : Promoted d nodes taskId := by
  apply Rule.pass_of_derivable distinct settles.placed
  refine Rule.derivable_of_enabled ⟨ready, fun target needed => ?_⟩
  exact (supplied target needed).imp_right Rule.derivable_of_pass

/-- The Task as the second derivation finds it, when it is not VERIFIED. -/
theorem Again.unverified (settles : Settles d nodes) (found : GraphModels.getNode nodes' taskId = some task)
    (isTask : task.isTask = true) (gone : ¬ Survives d' nodes' taskId) :
    task.validity ≠ .verified ∧ lost d' task = task ∧ ¬ Promoted d nodes taskId ∧
      ∃ before, GraphModels.getNode nodes taskId = some before ∧ ¬ Survives d nodes taskId ∧ task = lost d before := by
  rw [again.survives_iff distinct settles] at gone
  have stored := (again.getNode distinct taskId).symm.trans found
  have unverified : task.validity ≠ .verified := fun valid => gone ⟨task, stored, isTask, valid⟩
  obtain ⟨before, hit, same⟩ := (closed_frame (d := d) nodes).backward stored
  rw [derived_verified_iff distinct, not_or] at gone
  refine ⟨unverified, if_neg unverified, gone.2, before, hit, gone.1, ?_⟩
  rcases derived_outcome (d := d) distinct hit (same.isTask ▸ isTask) with
    ⟨survives, _⟩ | ⟨_, promoted, _⟩ | ⟨_, _, eq⟩
  · exact absurd survives gone.1
  · exact absurd promoted gone.2
  exact some.inj (stored.symm.trans eq)

omit distinct in
theorem Again.needs (needed : (promotionRule d nodes).needs taskId target) :
    (promotionRule d' nodes').needs taskId target := by
  refine ⟨(targetsOf_perm again.edges).mem_iff.mpr needed.1, (again.nodes.map _).mem_iff.mpr ?_⟩
  rw [(closed_frame nodes).keys]
  exact needed.2

/-- The second derivation promotes nothing. -/
theorem Again.not_promoted (settles : Settles d nodes) : ¬ Promoted d' nodes' taskId := by
  intro promoted
  have derivable := Rule.derivable_of_pass promoted
  clear promoted
  induction derivable with
  | @intro taskId ready _ none =>
    obtain ⟨task, found, gone, passes⟩ := ready
    obtain ⟨_, unmarked, left, before, hit, lostBefore, eq⟩ :=
      again.unverified distinct settles found (ready_isTask passes) gone
    rw [unmarked, again.promotable distinct settles.agree, eq] at passes
    refine left (promoted_of_supplied distinct settles ⟨before, hit, lostBefore, passes⟩ ?_)
    intro target needed
    have given : (promotionRule d' nodes').given target := by
      by_contra missing
      exact none target (again.needs needed) missing
    obtain ⟨dep, stored, survives, admitted⟩ := given
    obtain ⟨row, there, isTask, valid, _⟩ := survives.sound
    obtain rfl : dep = row := some.inj (stored.symm.trans there)
    exact given_or_promoted distinct ((again.getNode distinct target).symm.trans stored) isTask valid admitted

/-! ## The same outcome -/

omit distinct again in
/-- A Goal that agrees with the closure test is left alone. -/
theorem settleGoal_agrees (agrees : goal.lifecycle = .closed ↔ closes = true) : settleGoal d closes goal = goal := by
  unfold settleGoal
  cases closes <;> by_cases was : goal.lifecycle = .closed <;> simp_all

theorem Again.sameTask (settles : Settles d nodes)
    (found : GraphModels.getNode (closed d nodes).rows taskId = some task) (isTask : task.isTask = true) :
    (GraphModels.getNode (closed d' nodes').rows taskId).map readyView = some (readyView task) := by
  have stored := (again.getNode distinct taskId).trans found
  rcases derived_outcome (d := d') (again.distinctIds distinct) stored isTask with
    ⟨_, eq⟩ | ⟨_, promoted, _⟩ | ⟨gone, _, eq⟩
  · rw [eq, map_some, readyView_recordSnapshot]
  · exact absurd promoted (again.not_promoted distinct settles)
  obtain ⟨_, unmarked, _⟩ := again.unverified distinct settles stored isTask gone
  rw [eq, unmarked, map_some]

/-- The second derivation changes no state and nothing that the frontier reads. -/
theorem Again.sameViews (settles : Settles d nodes) : SameViews (closed d nodes).rows (closed d' nodes').rows := by
  have frame := closed_frame (d := d') nodes'
  have types : ∀ nodeId, isTaskAt (closed d' nodes').rows nodeId = isTaskAt (closed d nodes).rows nodeId := by
    intro nodeId
    rw [frame.sameRecords.isTaskAt, (sameRecords_perm (derived_distinct distinct) again.nodes).isTaskAt]
  have tasks : ∀ nodeId, isTaskAt (closed d nodes).rows nodeId = true →
      (GraphModels.getNode (closed d' nodes').rows nodeId).map readyView =
        (GraphModels.getNode (closed d nodes).rows nodeId).map readyView := by
    intro nodeId isTask
    obtain ⟨task, found, taskType⟩ := isTaskAt_iff.mp isTask
    rw [again.sameTask distinct settles found taskType, found, map_some]
  intro nodeId
  have sameNode := again.getNode distinct nodeId
  cases found : GraphModels.getNode (closed d nodes).rows nodeId with
  | none => rw [frame.missing (sameNode.trans found)]
  | some node =>
    have found' := sameNode.trans found
    by_cases isTask : node.isTask = true
    · exact again.sameTask distinct settles found isTask
    by_cases isGoal : node.isGoal = true
    · rw [derived_goal (again.distinctIds distinct) found' isGoal,
        goalIsClosed_views again.edges types tasks nodeId, settleGoal_agrees (closed_goal found isGoal)]
    obtain ⟨after, hit, same⟩ := frame.forward found'
    rw [Bool.not_eq_true] at isTask isGoal
    rw [hit, same.other isTask isGoal]

/-! ## Nothing is pending -/

omit distinct again in
/-- The first derivation, without its seeds, on its own result. -/
theorem again_self : Again d nodes { d with invalidationSeedTaskIds := [] } (closed d nodes).rows :=
  ⟨rfl, List.Perm.refl _, List.Perm.refl _, rfl⟩

omit again in
theorem unverified_rejected (settles : Settles d nodes)
    (found : GraphModels.getNode (closed d nodes).rows taskId = some task)
    (kind : task.payload = .task fields) (unverified : task.validity = .unverified) :
    taskIsVerified d.facts task fields (closed d nodes).rows d.edges (buildVerificationIndices d.edges) = false := by
  by_contra accepted
  rw [Bool.not_eq_false, taskIsVerified_iff] at accepted
  obtain ⟨admitted, _, enough, deps⟩ := accepted
  have isTask : task.isTask = true := by rw [VPGNode.isTask, VPGNode.nodeType, kind]; rfl
  have gone : ¬ Survives { d with invalidationSeedTaskIds := [] } (closed d nodes).rows taskId := by
    rw [again_self.survives_iff distinct settles]
    rintro ⟨other, hit, _, verified⟩
    rw [found, some.injEq] at hit
    rw [← hit, unverified] at verified
    cases verified
  obtain ⟨_, _, left, before, hit, lostBefore, eq⟩ := again_self.unverified distinct settles found isTask gone
  have passes : Promotable d nodes (lost d before) := by
    rw [← eq, ← again_self.promotable distinct settles.agree]
    exact ⟨fields, kind, admitted, enough, .inl unverified⟩
  refine left (promoted_of_supplied distinct settles ⟨before, hit, lostBefore, passes⟩ ?_)
  rintro target ⟨edge, stored⟩
  rw [← (closed_frame (d := d) nodes).keys] at stored
  obtain ⟨dep, there⟩ := isSome_iff_exists.mp (lookup_isSome.mpr stored)
  rw [lookup_key found] at deps
  obtain ⟨depTask, verified, depAdmitted⟩ := taskDepsVerified_iff.mp deps target edge dep there
  exact given_or_promoted distinct there depTask verified depAdmitted

omit again in
theorem verified_kept (settles : Settles d nodes) (found : GraphModels.getNode (closed d nodes).rows taskId = some task)
    (verified : task.validity = .verified) : invalidateVisit d (closed d nodes).rows task = none := by
  by_cases isTask : task.isTask = true
  · have valid : VerifiedTask (closed d nodes).rows taskId := ⟨task, found, isTask, verified⟩
    obtain ⟨other, hit, _, _, _, pins, current⟩ := again_self.sound distinct settles valid
    obtain rfl : task = other := some.inj (found.symm.trans hit)
    have pins' : pinsChanged d (closed d nodes).rows task = false := pins
    have current' : DerivedState.superseded d (closed d nodes).rows taskId = false := current
    have deps : hasUnverifiedDependency taskId (closed d nodes).rows d.dependsIndex = false := by
      rw [← Bool.not_eq_true, hasUnverifiedDependency_iff]
      rintro ⟨dependency, edge, missing⟩
      exact missing (derived_closed taskId dependency valid edge)
    unfold invalidateVisit
    rw [pins', lookup_key found, current', deps]
    simp
  · unfold invalidateVisit
    simp [isTask]

end

/-! ## After a commit -/

/-- A refresh directly after a commit, with the same facts and without seeds. -/
structure RefreshAfter (c refresh : Commit) : Prop where
  store : refresh.store = c.after
  graphId : refresh.graphId = c.graphId
  facts : refresh.env.facts = c.env.facts
  operations : refresh.sub.patch.operations = []
  seeds : refresh.sub.invalidationSeedTaskIds = []

/-- The refresh leaves every validity, every lifecycle and the frontier alone. -/
def Unchanged (c refresh : Commit) : Prop :=
  (∀ nodeId, stateAt refresh.derived nodeId = stateAt c.derived nodeId) ∧
    computeReadyTaskIds refresh.derived refresh.cand.edges = computeReadyTaskIds c.derived c.cand.edges

/-- No UNVERIFIED Task of the new version passes the Task predicate, and no
VERIFIED one fails an invalidation test. -/
def NothingPending (c : Commit) : Prop :=
  (∀ task ∈ c.derived, ∀ fields, task.payload = .task fields → task.validity = .unverified →
    taskIsVerified c.env.facts task fields c.derived c.cand.edges
      (buildVerificationIndices c.cand.edges) = false) ∧
  ∀ task ∈ c.derived, task.validity = .verified → invalidateVisit c.derivation c.derived task = none

/-- No commit of the run leaves anything for a refresh to do. -/
def FixedPoint (requests : List Request) : Prop :=
  ∀ c : Commit, c.In requests → NothingPending c ∧ ∀ refresh, RefreshAfter c refresh → Unchanged c refresh

section
variable {c refresh : Commit} (consistent : Consistent c.store)
  (settles : Settles c.derivation c.cand.nodes)
include consistent

/-- A refresh derives again from the version that the commit created. -/
theorem refresh_again (after : RefreshAfter c refresh) :
    Again c.derivation c.cand.nodes refresh.derivation refresh.cand.nodes := by
  have unchanged : refresh.cand = baseline (requestFor refresh.sub refresh.env.facts refresh.nodes refresh.edges) := by
    have folded := (validatePatch_ok refresh.validated).1
    rw [show (requestFor refresh.sub refresh.env.facts refresh.nodes refresh.edges).patch.operations = []
      from after.operations] at folded
    exact (Except.ok.inj folded).symm
  have nodes := refresh.nodes_perm
  have edges := refresh.edges_perm
  rw [after.store, after.graphId] at nodes edges
  refine ⟨after.facts, ?_, ?_, after.seeds⟩
  · change refresh.cand.edges.Perm c.cand.edges
    rw [unchanged]
    exact edges.trans (Commit.after_edges consistent)
  · rw [unchanged, ← c.derived_eq]
    exact nodes.trans (Commit.after_nodes consistent)

include settles

theorem refresh_unchanged (after : RefreshAfter c refresh) : Unchanged c refresh := by
  have again := refresh_again consistent after
  have distinct := Commit.cand_distinct consistent
  have views := again.sameViews distinct settles
  rw [Unchanged, refresh.derived_eq, c.derived_eq]
  refine ⟨stateAt_of_views views, computeReadyTaskIds_congr views again.edges (derived_distinct distinct)
    (derived_distinct (again.distinctIds distinct)) fun taskId cycle => ?_⟩
  exact validatePatch_acyclic c.validated taskId (Relation.TransGen.mono (fun _ _ edge => edge.1) _ _ cycle)

theorem commit_nothingPending : NothingPending c := by
  have distinct := Commit.cand_distinct consistent
  rw [NothingPending, c.derived_eq]
  constructor
  · intro task member fields kind unverified
    exact unverified_rejected distinct settles (lookup_of_mem (derived_distinct distinct) member) kind unverified
  intro task member verified
  exact verified_kept distinct settles (lookup_of_mem (derived_distinct distinct) member) verified

end

/-- In a run whose commits all settle, no commit leaves anything for a refresh
to do. -/
theorem settled_commits_are_fixed_points (requests : List Request)
    (settles : ∀ c : Commit, c.In requests → Settles c.derivation c.cand.nodes) : FixedPoint requests := by
  intro c member
  refine ⟨commit_nothingPending member.consistent (settles c member), fun refresh after => ?_⟩
  exact refresh_unchanged member.consistent (settles c member) after

/-! ## Refreshes that change something -/

/-- What a run has to show of each submission to settle: every Task that passes
the promotion tests has current pins and comes after what it waits for. -/
def ReadyInOrder (d : Derivation) (nodes : List VPGNode) : Prop :=
  ∀ taskId ∈ nodes.map VPGNode.nodeId, (promotionRule d nodes).ready taskId →
    superseded d nodes taskId = false ∧
      ∀ target ∈ targetsOf d.edges .dependsOn taskId, target ∈ nodes.map VPGNode.nodeId →
        ¬ (promotionRule d nodes).given target →
          target ∈ (nodes.map VPGNode.nodeId).takeWhile (fun other => decide (other ≠ taskId))

instance (d : Derivation) (nodes : List VPGNode) : Decidable (ReadyInOrder d nodes) :=
  inferInstanceAs (Decidable (∀ taskId ∈ nodes.map VPGNode.nodeId, _))

theorem settles_of_ready (agree : TargetsAgree nodes d.edges) (ordered : ReadyInOrder d nodes) : Settles d nodes := by
  refine ⟨agree, fun taskId derivable => ?_, fun taskId derivable => ?_⟩
  · cases derivable with
    | intro ready _ => exact (ordered taskId (ready_stored ready) ready).1
  cases derivable with
  | intro ready _ =>
    have stored := ready_stored ready
    have waits := (ordered taskId stored ready).2
    generalize order : nodes.map VPGNode.nodeId = ids at stored waits
    obtain ⟨later, split⟩ : ∃ later,
        ids = ids.takeWhile (fun other => decide (other ≠ taskId)) ++ taskId :: later := by
      clear waits order
      induction ids with
      | nil => cases stored
      | cons first ids ih =>
        by_cases here : first = taskId
        · exact ⟨ids, by simp [here]⟩
        obtain ⟨later, split⟩ := ih ((mem_cons.mp stored).resolve_left (Ne.symm here))
        refine ⟨later, ?_⟩
        rw [takeWhile_cons_of_pos (by simpa using here), cons_append, ← split]
    exact ⟨_, later, split, fun target needed missing =>
      waits target needed.1 (order ▸ needed.2) missing⟩

def testSettles (env : Environment) (sub : Submission) (found : Evaluation) : Bool :=
  decide (TargetsAgree found.cand.nodes found.cand.edges ∧
    ReadyInOrder (found.derivation env sub) found.cand.nodes)

/-- The submission leaves a Task that a refresh would change. -/
def leavesPending (env : Environment) (sub : Submission) (found : Evaluation) : Bool :=
  let after := found.derived env sub
  after.any fun task =>
    match task.payload with
    | .task fields => decide (task.validity = .unverified ∧ taskIsVerified env.facts task fields after
          found.cand.edges (buildVerificationIndices found.cand.edges) = true ∨
        task.validity = .verified ∧ (invalidateVisit (found.derivation env sub) after task).isSome = true)
    | _ => false

theorem leavesPending_refutes (found : commitsWith leavesPending (execute before) env sub = true) :
    ¬ FixedPoint (before ++ [.submit env sub]) := by
  intro claimed
  obtain ⟨c, member, tested⟩ := exists_commit leavesPending found
  rw [leavesPending, derived_commit, any_eq_true] at tested
  obtain ⟨task, inside, holds⟩ := tested
  obtain ⟨rejected, kept⟩ := (claimed c member).1
  split at holds
  · rename_i fields kind
    rcases of_decide_eq_true holds with ⟨unverified, accepted⟩ | ⟨verified, marked⟩
    · rw [rejected task inside fields kind unverified] at accepted
      cases accepted
    have calm := kept task inside verified
    rw [show invalidateVisit (Evaluation.derivation c.env c.sub ⟨c.record, c.nodes, c.edges, c.cand⟩)
      c.derived task = none from calm] at marked
    cases marked
  · cases holds

/-- A Kernel whose one action has committed, and an artifact store in which
every artifact has a second version. -/
def secondVersions : Environment :=
  { facts := { committedAction.facts with
      artifact := some { artifactExists := fun _ _ _ => true, verifyBinding := fun _ _ => true
                         latest := some fun _ => .ok (some 2) } } }

/-- The Tasks `T` and `U` in the given order, `T` above `U`, both with passing
Evidence. -/
def dependentTasks (tasks : List PatchOperation) : Submission :=
  patchOf "p1" 0 (tasks ++ [addEdge "e1" "depends_on" "T" "U", addVerification "V",
    addVerification "W", addEdge "e2" "verifies" "V" "T", addEdge "e3" "verifies" "W" "U",
    addEvidence "E" "V" "pass" [], addEvidence "F" "W" "pass" [], attachEvidence "e4" "V" "E",
    attachEvidence "e5" "W" "F"])

/-- The Task `T` with the first version of an artifact, and Evidence for it. -/
def outdatedTask : Submission :=
  patchOf "p1" 0 [addTask "T" 1, attachArtifact "e1" "T" (artifactAt "u" 1), addVerification "V",
    addEdge "e2" "verifies" "V" "T", addEvidence "E" "V" "pass" [artifactAt "u" 1],
    attachEvidence "e3" "V" "E"]

def refreshOf (version : Int) : Submission :=
  refreshSubmission "G" "P" "system derived-state refresh" "r" "r" version [] none []

def committedStates (requests : List Request) (nodeId : String) : Option (NodeValidity × NodeLifecycle) :=
  stateAt (committedNodes (execute requests) "G") nodeId

/-- Listed before `U`, the Task `T` is promoted by the refresh only; and a Task
promoted with an outdated artifact is marked by the refresh. -/
theorem refresh_changes_committed_states :
    (¬ FixedPoint (runOf committedAction (dependentTasks [addTask "T" 1, addTask "U" 1])) ∧
      committedStates (runOf committedAction (dependentTasks [addTask "T" 1, addTask "U" 1])) "T" =
        some (.unverified, .admitted) ∧
      committedStates (runOf committedAction (dependentTasks [addTask "T" 1, addTask "U" 1]) ++
        [.submit committedAction (refreshOf 1)]) "T" = some (.verified, .closed)) ∧
    ¬ FixedPoint (runOf secondVersions outdatedTask) ∧
      committedStates (runOf secondVersions outdatedTask) "T" = some (.verified, .closed) ∧
      committedStates (runOf secondVersions outdatedTask ++ [.submit secondVersions (refreshOf 1)]) "T" =
        some (.stale, .admitted) := by
  have start : ∀ env sub, commitsWith leavesPending (execute [.create "P" "G" []]) env sub = true →
      ¬ FixedPoint (runOf env sub) := fun _ _ found => leavesPending_refutes found
  refine ⟨⟨start _ _ ?_, ?_, ?_⟩, start _ _ ?_, ?_, ?_⟩
  all_goals decide +kernel

/-- Listed after `U`, the Task `T` is promoted at once. -/
theorem dependencies_first_is_fixed_point :
    FixedPoint (runOf committedAction (dependentTasks [addTask "U" 1, addTask "T" 1])) ∧
      committedStates (runOf committedAction (dependentTasks [addTask "U" 1, addTask "T" 1])) "T" =
        some (.verified, .closed) := by
  refine ⟨settled_commits_are_fixed_points _ fun c member => ?_, by decide +kernel⟩
  obtain ⟨agree, ordered⟩ := of_decide_eq_true (monitor_commit testSettles (by decide +kernel) member)
  exact settles_of_ready agree ordered

end LongHorizonOS.DerivationStability
