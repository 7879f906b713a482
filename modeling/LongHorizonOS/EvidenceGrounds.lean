import LongHorizonOS.PromotionSpec
import LongHorizonOS.RunMonitor

/-! What a VERIFIED Task rests on. The promotion test counts VERIFIES edges
whose Verification has some valid Evidence attached. It neither relates the
freshness test to the counted Evidence nor counts Verifications, so the
results on fresh Evidence and on distinct Verifications hold under conditions
on what is counted. -/
namespace LongHorizonOS.EvidenceGrounds
open KeyedRows PythonValues GraphModels EvidenceVerification DerivedState List
open PatchSubmission StoreConsistency DerivationFrame InvalidationSpec PromotionSpec PatchSpec
open CommittedRuns RunMonitor

/-- The nodes as the promotion pass of the commit meets them. -/
def met (c : Commit) : List VPGNode := (propagated c.derivation c.cand.nodes).rows

/-- How many Verifications a Task asks for. -/
def requiredCount (task : VPGNode) : Int :=
  match task.payload with
  | .task fields => max 1 fields.requiredVerificationCount
  | _ => 1

/-- The Verifications that the promotion test counts for a Task, once for each
VERIFIES edge. -/
def counted (facts : Facts) (nodes : List VPGNode) (edges : List VPGEdge) (taskId : String) : List String :=
  (sourcesOf edges .verifies taskId).filter (passingVerification facts nodes edges)

variable {task : VPGNode} {c : Commit}

theorem requiredCount_le (ready : Promotable d nodes task) :
    requiredCount task ≤ ((counted d.facts nodes d.edges task.nodeId).length : Int) := by
  obtain ⟨fields, kind, _, enough, _⟩ := ready
  rw [requiredCount, kind, counted, ← countP_eq_length_filter]
  exact enough

section
variable {c : Commit} (consistent : Consistent c.store)
include consistent

theorem met_distinct : ((met c).map VPGNode.nodeId).Nodup := by
  rw [met, (propagated_frame c.cand.nodes).keys]
  exact Commit.cand_distinct consistent

/-- A Task that the commit promoted. -/
theorem met_promoted (member : task ∈ met c) (unverified : task.validity ≠ .verified)
    (verified : VerifiedTask c.derived task.nodeId) : ∃ before ∈ c.cand.nodes,
    before.isTask = true ∧ ¬ Survives c.derivation c.cand.nodes before.nodeId ∧
        task = lost c.derivation before ∧ Promotable c.derivation c.cand.nodes task := by
  have found : getNode (met c) task.nodeId = some task := lookup_of_mem (met_distinct consistent) member
  obtain ⟨before, hit, isTask, gone, rfl, ready⟩ :=
    promoted_met (Commit.cand_distinct consistent) found unverified verified
  rw [← lookup_key hit] at gone
  exact ⟨before, lookup_mem hit, isTask, gone, rfl, ready⟩

end

/-! ## Stale stamps -/

/-- The version at which the Task was marked STALE with fresh Evidence required. -/
def staleStamp (task : VPGNode) : Option Int :=
  if ((task.metadata.get "__stale_requires_fresh_evidence").getD (.bool false)).truthy then
    (task.metadata.get "__stale_at_version").bind Json.asInt
  else none

theorem staleStamp_marked (d) (task) : staleStamp (markTaskStale d task).1 = some d.graphVersion := by
  simp [staleStamp, markTaskStale, Dict.get_set, Json.truthy, Json.asInt]

/-- Every STALE Task carries the stamp of the commit that marked it. -/
def Stamped (nodes : List VPGNode) : Prop :=
  ∀ task ∈ nodes, task.isTask = true → task.validity = .stale → staleStamp task = some task.updatedInVersion

theorem commit_stamped (sound : Consistent c.store) (before : Stamped c.nodes) : Stamped c.derived := by
  have candidate : Stamped c.cand.nodes := by
    intro task member isTask stale
    have found := lookup_of_mem (Commit.cand_distinct sound) member
    rcases validatePatch_node c.validated found with old | ⟨fresh, _⟩
    · exact before task (lookup_mem old) isTask stale
    rw [fresh.validity] at stale
    cases stale
  have frame := closed_frame (d := c.derivation) c.cand.nodes
  intro after member isTask stale
  rw [c.derived_eq] at member
  have hit : getNode (closed c.derivation c.cand.nodes).rows after.nodeId = some after :=
    lookup_of_mem (frame.keys ▸ Commit.cand_distinct sound) member
  obtain ⟨task, found, same⟩ := frame.backward hit
  have isTask' : task.isTask = true := same.isTask ▸ isTask
  rcases derived_task (Commit.cand_distinct sound) found isTask' with
    ⟨_, verified, eq⟩ | ⟨_, ready, eq⟩ | ⟨_, eq⟩
  · rw [hit, Option.some.injEq] at eq
    rw [eq, recordSnapshot_validity, verified] at stale
    cases stale
  · rw [hit, Option.some.injEq] at eq
    rw [eq, promote_validity] at stale
    cases stale
  rw [hit, Option.some.injEq] at eq
  rw [eq] at stale ⊢
  unfold lost at stale ⊢
  split
  · exact staleStamp_marked c.derivation task
  rename_i unverified
  rw [if_neg unverified] at stale
  exact candidate task (lookup_mem found) isTask' stale

theorem execute_stamped (requests) (graphId) : Stamped (committedNodes (execute requests) graphId) := by
  refine execute_projection (Q := fun nodes _ => Stamped nodes) (fun _ member => nomatch member) ?_
    (fun c member before => commit_stamped member.consistent before) graphId
  exact fun _ perm _ before task member => before task (perm.mem_iff.mp member)

/-! ## Fresh Evidence -/

/-- Valid Evidence was attached to the Verification at or after a version. -/
def passingSince (facts : Facts) (nodes : List VPGNode) (edges : List VPGEdge) (since : Int)
    (verificationId : String) : Bool :=
  isVerificationAt nodes verificationId && edges.any fun edge =>
    decide (edge.edgeType = .produces ∧ edge.sourceNodeId = verificationId ∧
      since ≤ edge.createdInVersion) && evidenceValidAt facts nodes edges edge.targetNodeId

/-- The commit makes VERIFIED a Task that its promotion pass met STALE since a version. -/
structure Reverifies (c : Commit) (task : VPGNode) (since : Int) : Prop where
  met : task ∈ met c
  isTask : task.isTask = true
  stale : task.validity = .stale
  stamp : staleStamp task = some since
  verified : VerifiedTask c.derived task.nodeId

/-- As many Verifications as the Task asks for have valid Evidence attached
since the version. -/
def GroundedSince (c : Commit) (task : VPGNode) (since : Int) : Prop :=
  requiredCount task ≤ ((sourcesOf c.cand.edges .verifies task.nodeId).dedup.countP
    (passingSince c.env.facts c.derived c.cand.edges since) : Int)

/-- Whatever a commit makes VERIFIED after it was STALE rests on Evidence
attached since then. A Task that was STALE in the version before is one such,
with the version at which it was marked. -/
def ReverifiedOnFreshEvidence (requests : List Request) : Prop :=
  ∀ c : Commit, c.In requests → (∀ task ∈ c.nodes, task.isTask = true → task.validity = .stale →
      VerifiedTask c.derived task.nodeId → Reverifies c task task.updatedInVersion) ∧
    ∀ task since, Reverifies c task since → GroundedSince c task since

/-- For a STALE Task that passes the tests of the promotion pass, every counted
Verification has valid Evidence attached since the Task was marked, and none
is counted twice. -/
def FreshGrounds (d : Derivation) (nodes : List VPGNode) : Prop :=
  ∀ task ∈ nodes, task.isTask = true → ¬ Survives d nodes task.nodeId →
    (lost d task).validity = .stale → Promotable d nodes (lost d task) →
    ∀ since ∈ staleStamp (lost d task), (counted d.facts nodes d.edges task.nodeId).Nodup ∧
      ∀ verificationId ∈ counted d.facts nodes d.edges task.nodeId,
        passingSince d.facts nodes d.edges since verificationId = true

theorem passingSince_frame {facts} {before after} (same : SameRecords before after) :
    passingSince facts after edges since = passingSince facts before edges since := by
  funext verificationId
  rw [passingSince, passingSince, same.isVerificationAt, same.evidenceValidAt]

/-- Distinct members of a list that pass a test are no more than the distinct
members that pass. -/
theorem length_le_countP_dedup {items selected : List String} (distinct : selected.Nodup)
    (inside : ∀ item ∈ selected, item ∈ items ∧ passes item = true) : selected.length ≤ items.dedup.countP passes := by
  rw [countP_eq_length_filter]
  apply (subperm_of_subset distinct _).length_le
  intro item member
  rw [mem_filter, mem_dedup]
  exact inside item member

theorem reverifies_grounded (sound : Consistent c.store)
    (grounds : FreshGrounds c.derivation c.cand.nodes) (reverifies : Reverifies c task since) :
    GroundedSince c task since := by
  have unverified : task.validity ≠ .verified := by
    rw [reverifies.stale]
    decide
  obtain ⟨before, member, isTask, gone, rfl, ready⟩ :=
    met_promoted sound reverifies.met unverified reverifies.verified
  obtain ⟨once, fresh⟩ := grounds before member isTask gone reverifies.stale ready since reverifies.stamp
  rw [← lost_nodeId before] at once fresh
  refine Int.le_trans (requiredCount_le ready) (Int.ofNat_le.mpr ?_)
  rw [passingSince_frame c.sameRecords]
  refine length_le_countP_dedup once fun verificationId counts => ⟨?_, fresh verificationId counts⟩
  exact (mem_filter.mp counts).1

/-- A Task of the snapshot that is still a Task in the candidate is unchanged there. -/
theorem snapshot_task_kept (sound : Consistent c.store)
    (member : task ∈ c.nodes) (isTask : isTaskAt c.cand.nodes task.nodeId = true) :
    getNode c.cand.nodes task.nodeId = some task := by
  obtain ⟨node, found, nodeIsTask⟩ := isTaskAt_iff.mp isTask
  rcases validatePatch_node c.validated found with old | ⟨_, replaced⟩
  · have stored := lookup_of_mem (Commit.nodes_distinct sound) member
    rw [found]
    exact old.symm.trans stored
  have kind := replaced (mem_map_of_mem member)
  rw [VPGNode.isTask, kind] at nodeIsTask
  cases nodeIsTask

/-- The snapshot that a commit of a run read is a committed version of the run. -/
theorem snapshot_stamped (member : c.In requests) : Stamped c.nodes := by
  obtain ⟨before, _, _, reached⟩ := member
  have stamped := execute_stamped before c.graphId
  rw [← reached] at stamped
  exact fun task inside => stamped task (c.nodes_perm.mem_iff.mp inside)

/-- As long as stale Tasks that pass the promotion tests are counted on fresh
Evidence, no run verifies a STALE Task on old Evidence. -/
theorem reverified_on_fresh_evidence (requests : List Request)
    (grounds : ∀ c : Commit, c.In requests → FreshGrounds c.derivation c.cand.nodes) :
    ReverifiedOnFreshEvidence requests := by
  intro c member
  have consistent := member.consistent
  refine ⟨fun task inside isTask stale verified => ?_,
    fun task since => reverifies_grounded consistent (grounds c member)⟩
  have isTaskAfter : isTaskAt c.cand.nodes task.nodeId = true := by
    rw [← c.sameRecords.isTaskAt]
    obtain ⟨after, found, afterTask, _⟩ := verified
    exact isTaskAt_iff.mpr ⟨after, found, afterTask⟩
  have kept := snapshot_task_kept consistent inside isTaskAfter
  have unmarked : getNode (met c) task.nodeId = some task := by
    rw [met, propagated_other, kept]
    rintro ⟨other, hit, _, valid⟩
    rw [kept, Option.some.injEq] at hit
    rw [← hit, stale] at valid
    cases valid
  exact ⟨lookup_mem unmarked, isTask, stale, snapshot_stamped member task inside isTask stale, verified⟩

instance (d : Derivation) (nodes : List VPGNode) : Decidable (FreshGrounds d nodes) :=
  inferInstanceAs (Decidable (∀ task ∈ nodes, _))

/-- A Task `T` with passing Evidence `E` of its Verification `V`, which then
comes to depend on a Task `U` and so becomes STALE, until `U` is VERIFIED. -/
def staleTask : List Request :=
  [.create "P" "G" [], .submit committedAction (patchOf "p1" 0 [addTask "T" 1, addVerification "V",
    addEdge "e1" "verifies" "V" "T", addEvidence "E" "V" "pass" [], attachEvidence "e2" "V" "E"]),
   .submit committedAction (patchOf "p2" 1 [addTask "U" 1, addEdge "e3" "depends_on" "T" "U"]),
   .submit committedAction (patchOf "p3" 2 [addVerification "W", addEdge "e4" "verifies" "W" "U",
    addEvidence "F" "W" "pass" [], attachEvidence "e5" "W" "F"])]

/-- New Evidence of `V` with the given result. -/
def newEvidence (result : String) : Submission :=
  patchOf "p4" 3 [addEvidence "X" "V" result [], attachEvidence "e6" "V" "X"]

/-- The submission makes a Task VERIFIED that was STALE since version 2, with
fewer Verifications on Evidence from since then than it asks for. -/
def reverifiesOnOld (env : Environment) (sub : Submission) (found : Evaluation) : Bool :=
  let after := found.derived env sub
  (propagated (found.derivation env sub) found.cand.nodes).rows.any fun task =>
    decide (task.isTask = true ∧ task.validity = .stale ∧ staleStamp task = some 2 ∧
      VerifiedTask after task.nodeId ∧
      ¬ requiredCount task ≤ ((sourcesOf found.cand.edges .verifies task.nodeId).dedup.countP
        (passingSince env.facts after found.cand.edges 2) : Int))

/-- Failing Evidence, attached after `T` became STALE, makes `T` VERIFIED on the
Evidence from before. -/
theorem failing_evidence_reverifies :
    ¬ ReverifiedOnFreshEvidence (staleTask ++ [.submit committedAction (newEvidence "fail")]) := by
  intro claimed
  obtain ⟨c, member, tested⟩ := exists_commit reverifiesOnOld
    (show commitsWith _ (execute staleTask) committedAction (newEvidence "fail") = true by
      decide +kernel)
  rw [reverifiesOnOld, derived_commit, any_eq_true] at tested
  obtain ⟨task, inside, holds⟩ := tested
  obtain ⟨isTask, stale, stamp, verified, lacking⟩ := of_decide_eq_true holds
  exact lacking ((claimed c member).2 task 2 ⟨inside, isTask, stale, stamp, verified⟩)

/-- With passing Evidence the same run rests on fresh Evidence. -/
theorem passing_evidence_reverifies :
    ReverifiedOnFreshEvidence (staleTask ++ [.submit committedAction (newEvidence "pass")]) ∧
      VerifiedTask (committedNodes
        (execute (staleTask ++ [.submit committedAction (newEvidence "pass")])) "G") "T" := by
  refine ⟨reverified_on_fresh_evidence _ fun c member => ?_, by decide +kernel⟩
  exact of_decide_eq_true (monitor_commit (fun env sub found =>
    decide (FreshGrounds (found.derivation env sub) found.cand.nodes)) (by decide +kernel) member)

/-! ## Distinct Verifications -/

/-- The Verification that the Evidence under an id names as its source. -/
def namedVerification (nodes : List VPGNode) (evidenceId : String) : Option String :=
  (evidenceAt nodes evidenceId).bind fun found => found.2.sourceVerificationId

/-- Valid Evidence that names the Verification it is attached to. -/
def hasOwnEvidence (facts : Facts) (nodes : List VPGNode) (edges : List VPGEdge)
    (verificationId : String) : Bool :=
  (targetsOf edges .produces verificationId).any fun evidenceId =>
    evidenceValidAt facts nodes edges evidenceId &&
      decide (namedVerification nodes evidenceId = some verificationId)

/-- The commit makes the Task VERIFIED: it was not in the version before, or it
was invalidated first. -/
def BecomesVerified (c : Commit) (taskId : String) : Prop :=
  VerifiedTask c.derived taskId ∧ (¬ VerifiedTask c.nodes taskId ∨ ¬ VerifiedTask (met c) taskId)

/-- The Task became VERIFIED in a commit of the run, with the payload it has now. -/
def BecameVerified (requests : List Request) (graphId : String) (task : VPGNode) : Prop :=
  ∃ c : Commit, c.In requests ∧ c.graphId = graphId ∧ BecomesVerified c task.nodeId ∧
    ∃ promotedTask ∈ c.derived, promotedTask.nodeId = task.nodeId ∧ promotedTask.payload = task.payload

/-- As many distinct Verifications of the Task as it asks for, each with valid
Evidence of its own. -/
def DistinctGrounds (c : Commit) (task : VPGNode) : Prop :=
  ∃ pairs : List (String × String), (pairs.map Prod.fst).Nodup ∧ (pairs.map Prod.snd).Nodup ∧
    requiredCount task ≤ (pairs.length : Int) ∧ ∀ pair ∈ pairs,
      pair.1 ∈ sourcesOf c.cand.edges .verifies task.nodeId ∧ isVerificationAt c.derived pair.1 = true ∧
      evidenceValidAt c.env.facts c.derived c.cand.edges pair.2 = true ∧
      namedVerification c.derived pair.2 = some pair.1

/-- Every VERIFIED Task became so in a commit of the run, and every such commit
had distinct Verifications with Evidence of their own. -/
def VerifiedOnDistinctVerifications (requests : List Request) : Prop :=
  (∀ graphId, ∀ task ∈ committedNodes (execute requests) graphId, task.isTask = true →
    task.validity = .verified → BecameVerified requests graphId task) ∧
  ∀ c : Commit, c.In requests → ∀ task ∈ c.derived, BecomesVerified c task.nodeId → DistinctGrounds c task

/-- For a Task that passes the tests of the promotion pass, no Verification is
counted twice, and each is counted on Evidence that names it. -/
def DistinctlyCounted (d : Derivation) (nodes : List VPGNode) : Prop :=
  ∀ task ∈ nodes, task.isTask = true → ¬ Survives d nodes task.nodeId →
    Promotable d nodes (lost d task) → (counted d.facts nodes d.edges task.nodeId).Nodup ∧
      ∀ verificationId ∈ counted d.facts nodes d.edges task.nodeId,
        hasOwnEvidence d.facts nodes d.edges verificationId = true

/-- A Task that the commit made VERIFIED passed the promotion tests. -/
theorem becomesVerified_promoted (consistent : Consistent c.store)
    (becomes : BecomesVerified c taskId) : ∃ before ∈ c.cand.nodes, before.nodeId = taskId ∧
      before.isTask = true ∧ ¬ Survives c.derivation c.cand.nodes taskId ∧
        Promotable c.derivation c.cand.nodes (lost c.derivation before) := by
  obtain ⟨verified, fresh⟩ := becomes
  obtain ⟨before, found, isTask, outcome⟩ := derived_verified (Commit.cand_distinct consistent) verified
  have gone : ¬ Survives c.derivation c.cand.nodes taskId := by
    intro survives
    rcases fresh with unverified | unverified
    · obtain ⟨task, hit, _, valid, _⟩ := survives.sound
      rcases validatePatch_node c.validated hit with old | ⟨new, _⟩
      · exact unverified ⟨task, old, by assumption, valid⟩
      rw [new.validity] at valid
      cases valid
    · exact unverified (propagated_verified_iff.mpr survives)
  rcases outcome with survives | ⟨_, ready⟩
  · exact absurd survives gone
  exact ⟨before, lookup_mem found, lookup_key found, isTask, gone, ready⟩

theorem becomesVerified_distinct (sound : Consistent c.store)
    (distinct : DistinctlyCounted c.derivation c.cand.nodes) (member : task ∈ c.derived)
    (becomes : BecomesVerified c task.nodeId) : DistinctGrounds c task := by
  obtain ⟨before, inside, named, isTask, gone, ready⟩ := becomesVerified_promoted sound becomes
  rw [← named] at gone
  obtain ⟨once, own⟩ := distinct before inside isTask gone ready
  have frame := closed_frame (d := c.derivation) c.cand.nodes
  have samePayload : task.payload = before.payload := by
    have found := lookup_of_mem (Commit.cand_distinct sound) inside
    obtain ⟨after, hit, same⟩ := frame.forward found
    have stored := lookup_of_mem (Commit.derived_distinct sound) member
    rw [← named, c.derived_eq] at stored
    rw [← Option.some.inj (hit.symm.trans stored), same.payload]
  have enough : requiredCount task ≤
      ((counted c.derivation.facts c.cand.nodes c.cand.edges before.nodeId).length : Int) := by
    have counts := requiredCount_le ready
    rw [lost_nodeId] at counts
    rw [requiredCount, samePayload]
    rw [requiredCount, lost_payload] at counts
    exact counts
  have evidence : ∀ verificationId ∈ counted c.derivation.facts c.cand.nodes c.cand.edges before.nodeId,
      ∃ evidenceId, evidenceValidAt c.derivation.facts c.cand.nodes c.cand.edges evidenceId = true ∧
        namedVerification c.cand.nodes evidenceId = some verificationId := by
    intro verificationId counts
    have owned := own verificationId counts
    rw [hasOwnEvidence, any_eq_true] at owned
    obtain ⟨evidenceId, _, valid⟩ := owned
    rw [Bool.and_eq_true, decide_eq_true_eq] at valid
    exact ⟨evidenceId, valid⟩
  choose! own valid names using evidence
  have same := c.sameRecords
  refine ⟨(counted c.derivation.facts c.cand.nodes c.cand.edges before.nodeId).map
    fun verificationId => (verificationId, own verificationId), ?_, ?_, ?_, ?_⟩
  · rw [map_map]
    exact (map_id _).symm ▸ once
  · rw [map_map]
    refine (nodup_map_iff_inj_on once).mpr fun first firstCounts second secondCounts equal => ?_
    have namesFirst := names first firstCounts
    rw [show own first = own second from equal, names second secondCounts] at namesFirst
    exact (Option.some.inj namesFirst).symm
  · rw [length_map]
    exact enough
  intro pair pairMember
  obtain ⟨verificationId, counts, rfl⟩ := mem_map.mp pairMember
  obtain ⟨verifies, passes⟩ := mem_filter.mp counts
  rw [passingVerification, Bool.and_eq_true] at passes
  rw [same.isVerificationAt, same.evidenceValidAt, namedVerification, same.evidence, ← named]
  exact ⟨verifies, passes.1, valid verificationId counts, names verificationId counts⟩

/-- A Task that is VERIFIED in the new version was VERIFIED in the one before,
with the same payload, or the commit made it so. -/
theorem verified_before_or_becomes (sound : Consistent c.store)
    (member : task ∈ c.derived) (isTask : task.isTask = true) (verified : task.validity = .verified) :
    (∃ before ∈ c.nodes, before.isTask = true ∧ before.validity = .verified ∧
      before.nodeId = task.nodeId ∧ before.payload = task.payload) ∨ BecomesVerified c task.nodeId := by
  have stored : getNode c.derived task.nodeId = some task := lookup_of_mem (Commit.derived_distinct sound) member
  have now : VerifiedTask c.derived task.nodeId := ⟨task, stored, isTask, verified⟩
  by_cases earlier : VerifiedTask c.nodes task.nodeId
  · left
    obtain ⟨before, found, beforeTask, beforeVerified⟩ := earlier
    refine ⟨before, lookup_mem found, beforeTask, beforeVerified, lookup_key found, ?_⟩
    have still : isTaskAt c.cand.nodes before.nodeId = true := by
      rw [← c.sameRecords.isTaskAt, lookup_key found]
      exact isTaskAt_iff.mpr ⟨task, stored, isTask⟩
    have kept := snapshot_task_kept sound (lookup_mem found) still
    have payloads := c.sameRecords.payload task.nodeId
    rw [lookup_key found] at kept
    rw [payloadOf, payloadOf, stored, kept] at payloads
    exact (Option.some.inj payloads).symm
  · exact .inr ⟨now, .inl earlier⟩

theorem execute_becameVerified (requests) (graphId) :
    ∀ task ∈ committedNodes (execute requests) graphId, task.isTask = true →
      task.validity = .verified → BecameVerified requests graphId task := by
  apply execute_invariant (P := fun store => ∀ task ∈ committedNodes store graphId,
    task.isTask = true → task.validity = .verified → BecameVerified requests graphId task)
  · exact fun _ member => nomatch member
  · intro store after same holds
    rw [(same graphId).1]
    exact holds
  intro c inRun holds task member isTask verified
  have consistent := inRun.consistent
  by_cases here : graphId = c.graphId
  · subst here
    have derived := (Commit.after_nodes consistent).mem_iff.mp member
    rcases verified_before_or_becomes consistent derived isTask verified with
      ⟨before, old, beforeTask, beforeVerified, sameId, samePayload⟩ | becomes
    · have earlier := holds before (c.nodes_perm.mem_iff.mp old) beforeTask beforeVerified
      rw [BecameVerified, sameId, samePayload] at earlier
      exact earlier
    · exact ⟨c, inRun, rfl, becomes, task, derived, rfl, rfl⟩
  · rw [(Commit.after_other consistent here).1] at member
    exact holds task member isTask verified

/-- As long as Tasks that pass the promotion tests are counted on distinct
Verifications with Evidence that names them, every VERIFIED Task of a run
became so on as many of them as it asks for. -/
theorem verified_on_distinct_verifications (requests : List Request)
    (distinct : ∀ c : Commit, c.In requests → DistinctlyCounted c.derivation c.cand.nodes) :
    VerifiedOnDistinctVerifications requests := by
  refine ⟨execute_becameVerified requests, fun c inRun task member becomes => ?_⟩
  exact becomesVerified_distinct inRun.consistent (distinct c inRun) member becomes

instance (d : Derivation) (nodes : List VPGNode) : Decidable (DistinctlyCounted d nodes) :=
  inferInstanceAs (Decidable (∀ task ∈ nodes, _))

/-- A patch with a Task that asks for two Verifications, and one Verification
`V` with its Evidence. -/
def twoRequired (second : List PatchOperation) : Submission :=
  patchOf "p1" 0 ([addTask "T" 2, addVerification "V", addEdge "e1" "verifies" "V" "T",
    addEvidence "E" "V" "pass" [], attachEvidence "e2" "V" "E"] ++ second)

/-- Some Evidence is valid and names the Verification. -/
def isNamed (facts : Facts) (nodes : List VPGNode) (edges : List VPGEdge) (verificationId : String) : Bool :=
  nodes.any fun node => evidenceValidAt facts nodes edges node.nodeId &&
    decide (namedVerification nodes node.nodeId = some verificationId)

theorem DistinctGrounds.bound (grounds : DistinctGrounds c task) :
    requiredCount task ≤ ((sourcesOf c.cand.edges .verifies task.nodeId).dedup.countP
      (isNamed c.env.facts c.derived c.cand.edges) : Int) := by
  obtain ⟨pairs, once, _, enough, each⟩ := grounds
  refine Int.le_trans enough (Int.ofNat_le.mpr ?_)
  rw [← length_map Prod.fst]
  refine length_le_countP_dedup once fun verificationId member => ?_
  obtain ⟨pair, inside, rfl⟩ := mem_map.mp member
  obtain ⟨verifies, _, valid, names⟩ := each pair inside
  refine ⟨verifies, any_eq_true.mpr ?_⟩
  obtain ⟨⟨node, fields⟩, hit, _⟩ := Option.bind_eq_some_iff.mp names
  have stored := (evidenceAt_some.mp hit).1
  refine ⟨node, lookup_mem stored, ?_⟩
  rw [lookup_key stored, valid, names]
  simp

/-- The submission makes a Task VERIFIED that has fewer named Verifications than
it asks for. -/
def verifiesOnFewer (env : Environment) (sub : Submission) (found : Evaluation) : Bool :=
  let after := found.derived env sub
  after.any fun task => decide (VerifiedTask after task.nodeId ∧ ¬ VerifiedTask found.nodes task.nodeId ∧
    ¬ requiredCount task ≤ ((sourcesOf found.cand.edges .verifies task.nodeId).dedup.countP
      (isNamed env.facts after found.cand.edges) : Int))

theorem verifiesOnFewer_refutes
    (found : commitsWith verifiesOnFewer (execute [.create "P" "G" []]) committedAction sub = true) :
    ¬ VerifiedOnDistinctVerifications (runOf committedAction sub) := by
  intro claimed
  obtain ⟨c, member, tested⟩ := exists_commit verifiesOnFewer found
  rw [verifiesOnFewer, derived_commit, any_eq_true] at tested
  obtain ⟨task, inside, holds⟩ := tested
  obtain ⟨verified, fresh, few⟩ := of_decide_eq_true holds
  exact few (claimed.2 c member task inside ⟨verified, .inl fresh⟩).bound

/-- A second VERIFIES edge from `V` counts as a second Verification, and so does
a Verification `W` to which the Evidence of `V` is attached again. -/
theorem one_evidence_counts_twice :
    ¬ VerifiedOnDistinctVerifications (runOf committedAction (twoRequired [addEdge "e3" "verifies" "V" "T"])) ∧
      ¬ VerifiedOnDistinctVerifications (runOf committedAction (twoRequired [addVerification "W",
        addEdge "e3" "verifies" "W" "T", attachEvidence "e4" "W" "E"])) := by
  constructor
  · exact verifiesOnFewer_refutes (by decide +kernel)
  · exact verifiesOnFewer_refutes (by decide +kernel)

/-- With a second Verification and Evidence of its own the Task is VERIFIED on
distinct Verifications. -/
theorem own_evidence_counts_once :
    let requests := runOf committedAction (twoRequired [addVerification "W", addEdge "e3" "verifies" "W" "T",
      addEvidence "F" "W" "pass" [], attachEvidence "e4" "W" "F"])
    VerifiedOnDistinctVerifications requests ∧
      VerifiedTask (committedNodes (execute requests) "G") "T" := by
  refine ⟨verified_on_distinct_verifications _ fun c member => ?_, by decide +kernel⟩
  exact of_decide_eq_true (monitor_commit (fun env sub found =>
    decide (DistinctlyCounted (found.derivation env sub) found.cand.nodes)) (by decide +kernel) member)

end LongHorizonOS.EvidenceGrounds
