import LongHorizonOS.ConcurrentSubmission
import LongHorizonOS.ProjectionHistory
import LongHorizonOS.RunMonitor

/-! Concurrent submissions and the versions they leave. Each version of a graph
is the patch and the derivation of one call applied to the version before it,
whatever the interleaving. What was committed earlier stays, except that an
AttachArtifact operation can take the place of a node. -/
namespace LongHorizonOS.LostUpdates
open KeyedRows GraphModels PatchValidation DerivedState List
open GraphStore PatchSubmission StoreConsistency DerivationFrame PatchSpec
open CommittedRuns RunMonitor Interleaving ConcurrentSubmission HistoryCompaction
open ProjectionHistory

/-! ## The history of a schedule -/

theorem step_prepared {call : Call} {store} {record request} (prepared : call.stage = .prepared record request) :
    (call.step store).2 = (commitPatch request call.env.commitAuthority store).2 := by
  rw [Call.step, prepared]

/-- A step of a call changes the store only if it commits. -/
theorem step_store (call : Call) : (call.step store).2 = store ∨
    ∃ record request, call.stage = .prepared record request ∧
      commitPatch request call.env.commitAuthority store = (.ok (), (call.step store).2) := by
  cases stage : call.stage with
  | called =>
    left
    rw [Call.step, stage]
  | read record =>
    left
    rw [Call.step, stage]
    exact replayStep_readOnly call.sub call.env.replayAuthority store
  | missed record =>
    left
    rw [Call.step, stage]
  | snapshot record nodes edges =>
    left
    rw [Call.step, stage]
  | prepared record request =>
    rw [step_prepared stage]
    rcases ran : commitPatch request call.env.commitAuthority store with ⟨failure | _, after⟩
    · exact .inl (commitPatch_allOrNothing _ _ _ ran)
    exact .inr ⟨record, request, rfl, ran⟩
  | violated constraint =>
    left
    rw [Call.step, stage]
    exact convergeStep_readOnly call.sub call.env.convergeAuthority constraint store
  | returned outcome =>
    left
    rw [Call.step, stage]

theorem administer_complete (action : Administration) (complete : Complete store) :
    Complete (perform store action.request) ∧ ∀ graphId, Advances store (perform store action.request) graphId := by
  cases action with
  | create ownerPid graphId metadata =>
    exact complete.next (create_consistent rfl complete.consistent) (create_advances _ rfl)
  | close graphId =>
    exact complete.next (close_consistent complete.consistent) (close_advances graphId)

/-- The store after a schedule. -/
def storeOf (schedule : Schedule) : Store := (conduct schedule).shared

theorem storeOf_nil : storeOf [] = {} := rfl

variable (schedule : Schedule) (event : Event Administration (Environment × Submission))

/-- One event of a schedule, as a step of the store. -/
theorem storeOf_append : (∃ action, event = .act action ∧
      storeOf (schedule ++ [event]) = perform (storeOf schedule) action.request) ∨
    storeOf (schedule ++ [event]) = storeOf schedule ∨ ∃ index call record request, event = .step index ∧
      (conduct schedule).clients[index]? = some call ∧ call.stage = .prepared record request ∧
      commitPatch request call.env.commitAuthority (storeOf schedule) = (.ok (), storeOf (schedule ++ [event])) := by
  have next : storeOf (schedule ++ [event]) = (machine.next (conduct schedule) event).shared := by
    rw [storeOf, conduct, Machine.conduct_append, conduct]
  rw [next]
  cases event with
  | act action => exact .inl ⟨action, rfl, rfl⟩
  | enter argument => exact .inr (.inl rfl)
  | step index =>
    rw [Machine.next]
    cases found : (conduct schedule).clients[index]? with
    | none => exact .inr (.inl rfl)
    | some call =>
      rcases step_store call with same | ⟨record, request, prepared, committed⟩
      · exact .inr (.inl same)
      exact .inr (.inr ⟨index, call, record, request, rfl, found, prepared, committed⟩)

theorem storeOf_steps (complete : Complete (storeOf schedule)) : Complete (storeOf (schedule ++ [event])) ∧
    ∀ graphId, Advances (storeOf schedule) (storeOf (schedule ++ [event])) graphId := by
  rcases storeOf_append schedule event with
    ⟨action, _, eq⟩ | eq | ⟨_, _, _, _, _, _, _, committed⟩
  · rw [eq]
    exact administer_complete action complete
  · rw [eq]
    exact complete.unchanged
  · exact commit_complete complete committed

/-- Without compactions, every graph keeps its history from the first version on. -/
theorem storeOf_retention : ∀ row ∈ (storeOf schedule).retention, row.earliestRecoverableVersion = 0 := by
  induction schedule using List.reverseRecOn with
  | nil => exact fun row member => nomatch member
  | append_singleton schedule event ih =>
    rcases storeOf_append schedule event with
      ⟨action, _, eq⟩ | eq | ⟨_, _, _, _, _, _, _, committed⟩
    · rw [eq]
      cases action with
      | create ownerPid graphId metadata =>
        change ∀ row ∈ (createGraph _ (storeOf schedule)).2.retention, _
        rcases createGraph_cases with same | ⟨_, new⟩
        · rw [same]
          exact ih
        rw [new]
        intro row member
        rcases mem_append.mp member with stored | fresh
        · exact ih row stored
        rw [mem_singleton.mp fresh]
      | close graphId => exact ih
    · rw [eq]
      exact ih
    · have complete := run_complete storeOf_nil storeOf_steps schedule
      obtain ⟨_, _, _, _, clean⟩ := commit_clean complete.consistent committed
      have same : (storeOf (schedule ++ [event])).retention = (storeOf schedule).retention := by
        rw [clean.written]
        rfl
      rw [same]
      exact ih

theorem storeOf_floor {schedule graphId} {current} (found : versionOf (storeOf schedule) graphId = some current) :
    0 ≤ current ∧ RetainedFrom (storeOf schedule) graphId 0 := by
  have complete := run_complete storeOf_nil storeOf_steps schedule
  obtain ⟨floor, below, retained⟩ := floor_exists complete.consistent found
  obtain ⟨_, row, _⟩ := id retained.contract
  obtain rfl : floor = 0 := storeOf_retention schedule _ (lookup_mem row)
  exact ⟨below, retained⟩

/-! ## Updates -/

/-- The call took the step of the schedule that committed the version. -/
def Wrote (schedule : Schedule) (call : Call) (graphId : String) (version : Int) : Prop :=
  ∃ before index later, schedule = before ++ .step index :: later ∧
    (conduct before).clients[index]? = some call ∧
    versionOf (storeOf before) graphId = some (version - 1) ∧
    versionOf (call.step (storeOf before)).2 graphId = some version

/-- Validating and deriving on the content of a version, read in some order of
the rows, gives the content of the next. -/
def Derives (env : Environment) (sub : Submission) (version : Int)
    (old new : List VPGNode × List VPGEdge) : Prop :=
  ∃ record nodes edges cand, record.currentVersion = version ∧ nodes.Perm old.1 ∧ edges.Perm old.2 ∧
    validatePatch (requestFor sub env.facts nodes edges) = .ok cand ∧
    new = Projection.sorted
      ⟨(recomputeDerivedState (derivationFor sub env.facts record cand.edges) cand.nodes).1, cand.edges⟩

/-- Nothing is dropped, reverted or overwritten: the nodes change in derived
fields at most, and the edges not at all. -/
def Keeps (old new : List VPGNode × List VPGEdge) : Prop :=
  (∀ node ∈ old.1, ∃ after ∈ new.1, DerivedFields node after) ∧ ∀ edge ∈ old.2, edge ∈ new.2

/-- Every version after the first is an update of the one before it by the call
that wrote it. -/
def NoLostUpdate (schedule : Schedule) : Prop :=
  ∀ graphId current version, versionOf (storeOf schedule) graphId = some current →
    0 ≤ version → version < current → ∃ call old new,
      Wrote schedule call graphId (version + 1) ∧ call.sub.patch.graphId = graphId ∧
      loadProjectionSnapshot (storeOf schedule) graphId version = .ok old ∧
      loadProjectionSnapshot (storeOf schedule) graphId (version + 1) = .ok new ∧
      Derives call.env call.sub version old new ∧ Keeps old new

/-- The operation takes the place of no committed node. -/
def TakesNoPlace (committed : List VPGNode) : PatchOperation → Prop
  | .attachArtifact op => attachedNodeId op.taskNodeId op.artifact ∉ committed.map VPGNode.nodeId
  | _ => True

/-- A call that is about to commit takes the place of no committed node. -/
def Sparing (store : Store) (sub : Submission) : Stage → Prop
  | .prepared _ _ => ∀ op ∈ sub.patch.operations, TakesNoPlace (committedNodes store sub.patch.graphId) op
  | _ => True

instance (committed : List VPGNode) (op : PatchOperation) : Decidable (TakesNoPlace committed op) :=
  match op with
  | .attachArtifact _ => inferInstanceAs (Decidable (_ ∉ _))
  | .addNode _ | .addEdge _ | .attachEvidence _ => isTrue trivial

instance (store : Store) (sub : Submission) (stage : Stage) : Decidable (Sparing store sub stage) :=
  match stage with
  | .prepared _ _ => inferInstanceAs (Decidable (∀ op ∈ sub.patch.operations, _))
  | .called | .read _ | .missed _ | .snapshot .. | .violated _ | .returned _ => isTrue trivial

section
variable {schedule : Schedule}

theorem administer_version (action : Administration) (found : versionOf store graphId = some version) :
    versionOf (perform store action.request) graphId = some version := by
  cases action with
  | create ownerPid newId metadata =>
    change versionOf (createGraph _ store).2 graphId = _
    rcases createGraph_cases with same | ⟨unused, eq⟩
    · rw [same]
      exact found
    obtain ⟨record, hit, current⟩ := versionOf_some.mp found
    rw [eq]
    exact versionOf_some.mpr ⟨record, created_getRecord_old unused hit, current⟩
  | close closing =>
    change versionOf (closeGraph closing store).2 graphId = _
    rw [versionOf, close_getRecord]
    split
    · rw [Option.map_map]
      exact found
    · exact found

/-- The event that advances a graph is the commit of a call, and it takes effect
as if the call had run alone. -/
theorem advance_is_commit {event} (left : versionOf (storeOf schedule) graphId = some version)
    (entered : versionOf (storeOf (schedule ++ [event])) graphId = some (version + 1)) :
    ∃ index call, ∃ c : Commit, event = .step index ∧
      (conduct schedule).clients[index]? = some call ∧ (∃ record request, call.stage = .prepared record request) ∧
      (call.step (storeOf schedule)).2 = storeOf (schedule ++ [event]) ∧
      c.store = storeOf schedule ∧ c.sub = call.sub ∧ c.env = call.env ∧ c.after = storeOf (schedule ++ [event]) := by
  have moved : ∀ {after}, versionOf after graphId = some version →
      versionOf after graphId ≠ some (version + 1) := by
    intro after same now
    have equal := Option.some.inj (same.symm.trans now)
    omega
  rcases storeOf_append schedule event with
    ⟨action, _, eq⟩ | eq | ⟨index, call, record, request, rfl, found, prepared, committed⟩
  · exact absurd (eq ▸ entered) (moved (administer_version action left))
  · exact absurd (eq ▸ entered) (moved left)
  have knows := (conduct_knows schedule).2 call (mem_of_getElem? found)
  rw [prepared] at knows
  obtain ⟨c, reached, own, world, after, _⟩ := commit_as_alone knows committed
  refine ⟨index, call, c, rfl, found, ⟨record, request, prepared⟩, ?_, reached, own, world, after⟩
  rw [step_prepared prepared, committed]

variable {c : Commit}

section
variable (sound : Consistent c.store)
include sound

theorem commit_graph (left : versionOf c.store graphId = some version)
    (entered : versionOf c.after graphId = some (version + 1)) :
    graphId = c.graphId ∧ c.record.currentVersion = version := by
  have records := Commit.after_record sound graphId
  by_cases here : graphId = c.graphId
  · refine ⟨here, ?_⟩
    obtain ⟨record, hit, rfl⟩ := versionOf_some.mp left
    rw [here, c.found, Option.some.injEq] at hit
    rw [hit]
  rw [if_neg here] at records
  rw [versionOf, records] at entered
  have equal := Option.some.inj (left.symm.trans entered)
  omega

/-- The new version is the derived candidate. -/
theorem commit_sorted : (committed c.after c.graphId).sorted = Projection.sorted ⟨c.derived, c.cand.edges⟩ := by
  have next := Commit.after_consistent sound
  have nodes := Commit.after_nodes sound
  generalize c.derived = derived at nodes ⊢
  exact Projection.sorted_eq nodes (Commit.after_edges sound) next.distinctNodes next.distinctEdges

theorem commit_derives : Derives c.env c.sub c.record.currentVersion (committed c.store c.graphId).sorted
    (committed c.after c.graphId).sorted := by
  obtain ⟨nodesPerm, edgesPerm⟩ := (committed c.store c.graphId).sorted_perm
  refine ⟨c.record, c.nodes, c.edges, c.cand, rfl, c.nodes_perm.trans nodesPerm.symm,
    c.edges_perm.trans edgesPerm.symm, c.validated, ?_⟩
  rw [commit_sorted sound, Commit.derived]

/-- A commit that takes no node's place keeps what was committed. -/
theorem commit_keeps (sparing : ∀ op ∈ c.sub.patch.operations, TakesNoPlace (committedNodes c.store c.graphId) op) :
    Keeps (committed c.store c.graphId).sorted (committed c.after c.graphId).sorted := by
  obtain ⟨nodesPerm, edgesPerm⟩ := (committed c.store c.graphId).sorted_perm
  obtain ⟨nodesPerm', edgesPerm'⟩ := (committed c.after c.graphId).sorted_perm
  constructor
  · intro node member
    have stored : node ∈ committedNodes c.store c.graphId := nodesPerm.mem_iff.mp member
    have found : getNode c.nodes node.nodeId = some node :=
      lookup_of_mem (Commit.nodes_distinct sound) (c.nodes_perm.mem_iff.mpr stored)
    have kept : getNode c.cand.nodes node.nodeId = some node := by
      refine validatePatch_keeps c.validated found fun attach listed taken => ?_
      exact sparing _ listed (taken ▸ mem_map_of_mem stored)
    obtain ⟨after, hit, same⟩ := (closed_frame (d := c.derivation) c.cand.nodes).forward kept
    rw [← c.derived_eq] at hit
    exact ⟨after, nodesPerm'.mem_iff.mpr ((Commit.after_nodes sound).mem_iff.mpr (lookup_mem hit)), same⟩
  · intro edge member
    have read : edge ∈ c.edges := c.edges_perm.mem_iff.mpr (edgesPerm.mem_iff.mp member)
    refine edgesPerm'.mem_iff.mpr ((Commit.after_edges sound).mem_iff.mpr ?_)
    rw [validatePatch_newEdges c.validated]
    exact mem_append_left _ read

end

/-- What a schedule left as a version loads with the content it had then. -/
theorem load_left {before later} (split : schedule = before ++ later)
    (left : versionOf (storeOf before) graphId = some version) {current}
    (found : versionOf (storeOf schedule) graphId = some current) (nonneg : 0 ≤ version) :
    loadProjectionSnapshot (storeOf schedule) graphId version = .ok (committed (storeOf before) graphId).sorted := by
  have complete := run_complete storeOf_nil storeOf_steps schedule
  obtain ⟨bound, retained⟩ := storeOf_floor found
  subst split
  exact load_kept complete found retained ((run_held storeOf_nil storeOf_steps left).2 0 retained nonneg) nonneg bound

end

/-- In every schedule whose commits take no node's place, no update is lost. -/
theorem sparing_schedules_lose_no_update (schedule : Schedule)
    (sparing : machine.Meets (fun _ store call => Sparing store call.sub call.stage) {} schedule) :
    NoLostUpdate schedule := by
  intro graphId current version found nonneg below
  obtain ⟨before, event, later, split, left, entered⟩ :=
    run_advance storeOf_nil storeOf_steps found nonneg below
  obtain ⟨index, call, c, rfl, client, ⟨record, request, prepared⟩, stepped, reached, own, world, after⟩ :=
    advance_is_commit left entered
  have consistent : Consistent c.store := reached ▸ (run_complete storeOf_nil storeOf_steps before).consistent
  obtain ⟨rfl, rfl⟩ := commit_graph consistent (reached ▸ left) (after ▸ entered)
  have condition : Sparing (storeOf before) call.sub call.stage := sparing before index later call split client
  rw [prepared] at condition
  refine ⟨call, _, _, ⟨before, index, later, split, client, ?_, ?_⟩, ?_, load_left split left found nonneg,
    load_left (split.trans (append_cons _ _ _)) entered found (by omega), ?_, ?_⟩
  · rw [left, Int.add_sub_cancel]
  · rw [stepped, entered]
  · rw [← own]
    rfl
  · rw [← reached, ← after, ← own, ← world]
    exact commit_derives consistent
  · rw [← reached, ← after]
    refine commit_keeps consistent ?_
    rw [own, reached, Commit.graphId, own]
    exact condition

/-- One call plans two Tasks and a dependency. A second call that attaches an
artifact is overtaken by it and raises; a third one attaches the artifact. -/
def attachingLater (canonicalUri : String) : Schedule :=
  [.act (.create "P" "G" []), .enter (committedAction, patchOf "p1" 0 [addTask "T" 1, addTask "T::u@1" 1,
      addEdge "e1" "depends_on" "T" "T::u@1"]),
    .enter (committedAction, patchOf "p2" 0 [attachArtifact "e2" "T" (artifactAt canonicalUri 1)]),
    .enter (committedAction, patchOf "p3" 1 [attachArtifact "e2" "T" (artifactAt canonicalUri 1)])] ++
    [0, 1, 0, 1, 0, 0, 0, 1, 1, 1, 2, 2, 2, 2, 2].map .step

/-- A node of the version has no successor in the next. -/
def losesNode (store : Store) (graphId nodeId : String) (version : Int) : Bool :=
  match loadProjectionSnapshot store graphId version,
    loadProjectionSnapshot store graphId (version + 1) with
  | .ok old, .ok new =>
    match getNode old.1 nodeId with
    | some node => new.1.all fun after => decide (after.nodeId = nodeId → after.payload ≠ node.payload)
    | none => false
  | _, _ => false

theorem losesNode_lost {schedule} (graphId nodeId) (current version)
    (found : versionOf (storeOf schedule) graphId = some current) (nonneg : 0 ≤ version)
    (below : version < current) (loses : losesNode (storeOf schedule) graphId nodeId version = true) :
    ¬ NoLostUpdate schedule := by
  intro none_lost
  obtain ⟨_, old, new, _, _, loaded, loaded', _, kept, _⟩ := none_lost graphId current version found nonneg below
  rw [losesNode, loaded, loaded'] at loses
  dsimp only at loses
  split at loses
  · rename_i node hit
    obtain ⟨after, member, same⟩ := kept node (lookup_mem hit)
    have differs := of_decide_eq_true (all_eq_true.mp loses after member)
    exact differs (same.nodeId.trans (lookup_key hit)) same.payload
  · cases loses

/-- Attaching `u@1` to the Task `T` overwrites the Task `T::u@1` of another call. -/
theorem attaching_overwrites_task : ¬ NoLostUpdate (attachingLater "u") ∧
    versionOf (storeOf (attachingLater "u")) "G" = some 2 := by
  refine ⟨losesNode_lost "G" "T::u@1" 2 1 ?_ ?_ ?_ ?_, ?_⟩
  all_goals decide +kernel

/-- Attaching `v@1` overwrites nothing. -/
theorem attaching_beside_loses_nothing : NoLostUpdate (attachingLater "v") ∧
    versionOf (storeOf (attachingLater "v")) "G" = some 2 := by
  refine ⟨sparing_schedules_lose_no_update _ fun before index later call split found => ?_, by decide +kernel⟩
  have passed : machine.Meets (fun _ store call =>
      decide (Sparing store call.sub call.stage) = true) {} (attachingLater "v") :=
    Machine.meets_of_tests (by decide +kernel)
  exact of_decide_eq_true (passed before index later call split found)

end LongHorizonOS.LostUpdates
