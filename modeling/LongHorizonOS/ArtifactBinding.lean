import LongHorizonOS.EvidenceGrounds

/-! The artifact versions that a VERIFIED Task stands for. Evidence is judged
once, when the Task is promoted, and against the pins of the first Task that
its own Verification verifies. From then on only the recorded snapshot of the
pins is compared, and an empty snapshot is read as none. So a VERIFIED Task
is bound to its pins as long as Evidence is judged on the pins of the Task it
counts for, no VERIFIED Task without pins gets one, and no artifact takes the
place of a Verification or of Evidence. -/
namespace LongHorizonOS.ArtifactBinding
open KeyedRows PythonValues GraphModels EvidenceVerification DerivedState List
open Option hiding any any_eq_true
open PatchSubmission StoreConsistency DerivationFrame InvalidationSpec PromotionSpec PatchSpec
open CommittedRuns RunMonitor EvidenceGrounds

/-- Some attached Evidence passes and names exactly the versions that the Task
pins now. -/
def BoundExactly (nodes : List VPGNode) (edges : List VPGEdge) (taskId : String) : Prop :=
  ∃ verificationId ∈ sourcesOf edges .verifies taskId, isVerificationAt nodes verificationId = true ∧
    ∃ evidenceId ∈ targetsOf edges .produces verificationId, ∃ evidence fields,
      evidenceAt nodes evidenceId = some (evidence, fields) ∧ fields.result = .pass ∧
        ∀ pin, pin ∈ boundVersions fields ↔ pin ∈ taskCurrentArtifactVersions taskId nodes edges

def ExactBinding (nodes : List VPGNode) (edges : List VPGEdge) : Prop :=
  ∀ taskId, VerifiedTask nodes taskId → BoundExactly nodes edges taskId

/-! ## Conditions on a commit -/

/-- The Task on whose pins Evidence is judged. -/
def judgedTask (edges : List VPGEdge) (fields : EvidenceFields) : Option String :=
  fields.sourceVerificationId.bind fun verificationId => verifiesTarget verificationId edges

/-- The Evidence is judged on the same pins as the Task has. -/
def judgedOnPinsOf (nodes : List VPGNode) (edges : List VPGEdge) (taskId evidenceId : String) : Bool :=
  (evidenceAt nodes evidenceId).any fun found => (judgedTask edges found.2).any fun judged =>
    isTaskAt nodes judged && sameSet (taskCurrentArtifactVersions judged nodes edges)
      (taskCurrentArtifactVersions taskId nodes edges)

/-- A Task that passes the promotion tests is counted on some Evidence that was
judged on its pins. -/
def JudgedOnOwnPins (d : Derivation) (nodes : List VPGNode) : Prop :=
  ∀ task ∈ nodes, task.isTask = true → ¬ Survives d nodes task.nodeId → Promotable d nodes (lost d task) →
    ∃ verificationId ∈ counted d.facts nodes d.edges task.nodeId,
      ∃ evidenceId ∈ targetsOf d.edges .produces verificationId,
        evidenceValidAt d.facts nodes d.edges evidenceId = true ∧
          judgedOnPinsOf nodes d.edges task.nodeId evidenceId = true

/-- A Task that stays VERIFIED and has an empty snapshot has no pins. -/
def UnpinnedStayUnpinned (d : Derivation) (nodes : List VPGNode) : Prop :=
  ∀ task ∈ nodes, task.isTask = true → Survives d nodes task.nodeId → verifiedVersions task = none →
    taskCurrentArtifactVersions task.nodeId nodes d.edges = []

/-- The types of the nodes that ground a VERIFIED Task. -/
def IsGround (kind : NodeType) : Prop := kind = .verification ∨ kind = .evidence

structure KeepsBindings (c : Commit) : Prop where
  spares : c.EachOperation (Spares IsGround)
  unpinned : UnpinnedStayUnpinned c.derivation c.cand.nodes
  judged : JudgedOnOwnPins c.derivation c.cand.nodes

/-! ## Snapshots -/

/-- The recorded snapshot of a VERIFIED Task holds its pins. -/
def SnapshotsHoldPins (nodes : List VPGNode) (edges : List VPGEdge) : Prop :=
  ∀ taskId task, getNode nodes taskId = some task → task.isTask = true → task.validity = .verified →
    ∀ pin, pin ∈ (verifiedVersions task).getD [] ↔ pin ∈ taskCurrentArtifactVersions taskId nodes edges

theorem decodePin_encodePin (pin) : decodePin (encodePin pin) = some pin := by
  simp [decodePin, encodePin, Json.field, Json.findField, Json.asStr, Json.asInt]

section
/-- Reading back a snapshot gives the pins that were written. -/
theorem recordSnapshot_versions (task) : (verifiedVersions (recordSnapshot d nodes task)).getD [] =
    taskCurrentArtifactVersions task.nodeId nodes d.edges := by
  have decoded : ∀ pins : List (String × Int), (pins.map encodePin).filterMap decodePin = pins := by
    intro pins
    induction pins with
    | nil => rfl
    | cons pin pins ih => rw [map_cons, filterMap_cons_some (decodePin_encodePin pin), ih]
  rw [taskCurrentArtifactVersions, ← pinnedVersions_eq]
  unfold verifiedVersions recordSnapshot
  simp only [Dict.get_set, if_true, Json.itemList_ofList, map_eq_nil_iff]
  split
  · rename_i empty
    rw [empty, getD_none]
  · rw [decoded, getD_some]

theorem closeVerified_metadata (task) : (closeVerified d task).1.metadata = task.metadata := by
  unfold closeVerified
  split
  · rfl
  rfl

theorem verifiedVersions_congr (same : task.metadata = other.metadata) :
    verifiedVersions task = verifiedVersions other := by
  rw [verifiedVersions, same, verifiedVersions]

theorem promote_versions (task) : (verifiedVersions (promote d nodes task).1).getD [] =
    taskCurrentArtifactVersions task.nodeId nodes d.edges := by
  unfold promote
  split
  · rw [promoteStale, verifiedVersions_congr (closeVerified_metadata _), recordSnapshot_versions]
  rw [promoteUnverified, verifiedVersions_congr (closeVerified_metadata _), recordSnapshot_versions]

/-- A derivation leaves every VERIFIED Task with a snapshot of its pins. -/
theorem derived_snapshots (distinct : DistinctIds nodes) : SnapshotsHoldPins (closed d nodes).rows d.edges := by
  intro taskId after hit isTask verified pin
  rw [(closed_frame nodes).sameRecords.taskCurrentArtifactVersions]
  obtain ⟨task, found, same⟩ := (closed_frame (d := d) nodes).backward hit
  have named : task.nodeId = taskId := lookup_key found
  rcases derived_task (d := d) distinct found (same.isTask ▸ isTask) with
    ⟨_, _, eq⟩ | ⟨_, _, eq⟩ | ⟨_, eq⟩
  · rw [hit, some.injEq] at eq
    rw [eq, recordSnapshot_versions, named]
  · rw [hit, some.injEq] at eq
    rw [eq, promote_versions, lost_nodeId, named]
  rw [hit, some.injEq] at eq
  exact absurd (eq ▸ verified) lost_validity

end

/-! ## One commit -/

variable {taskId : String}

/-- Evidence that was judged on the pins of the Task names them exactly. -/
theorem judged_bound (valid : evidenceValidAt facts nodes edges evidenceId = true)
    (judged : judgedOnPinsOf nodes edges taskId evidenceId = true) : ∃ evidence fields,
    evidenceAt nodes evidenceId = some (evidence, fields) ∧ fields.result = .pass ∧
        ∀ pin, pin ∈ boundVersions fields ↔ pin ∈ taskCurrentArtifactVersions taskId nodes edges := by
  unfold evidenceValidAt at valid
  split at valid
  · rename_i evidence fields stored
    obtain ⟨source, binding⟩ := validateEvidence_valid.mp valid
    obtain ⟨verificationId, named, _, _, judgedId, target, matches'⟩ := checkBinding_ok.mp binding
    rw [judgedOnPinsOf, stored, any_some, judgedTask, named, bind_some, target, any_some, Bool.and_eq_true] at judged
    have names := sameSet_iff.mp (matches' judged.1)
    have alike := sameSet_iff.mp judged.2
    exact ⟨evidence, fields, stored, checkSource_pass source, fun pin => (names pin).trans (alike pin)⟩
  · cases valid

variable {c : Commit}

/-- The grounds of a Task are still there in the candidate. -/
theorem bound_candidate (spares : c.EachOperation (Spares IsGround)) (bound : BoundExactly c.nodes c.edges taskId)
    (samePins : ∀ pin, pin ∈ taskCurrentArtifactVersions taskId c.nodes c.edges ↔
      pin ∈ taskCurrentArtifactVersions taskId c.cand.nodes c.cand.edges) :
    BoundExactly c.cand.nodes c.cand.edges taskId := by
  obtain ⟨verificationId, verifies, isVerification, evidenceId, produces, evidence, fields, stored,
    passed, names⟩ := bound
  have grown : ∀ {edge}, edge ∈ c.edges → edge ∈ c.cand.edges := validatePatch_edges c.validated
  refine ⟨verificationId, ?_, ?_, evidenceId, ?_, evidence, fields, ?_, passed, fun pin =>
    (names pin).trans (samePins pin)⟩
  · obtain ⟨edge, member, shape⟩ := mem_sourcesOf.mp verifies
    exact mem_sourcesOf.mpr ⟨edge, grown member, shape⟩
  · obtain ⟨payload, found, kind⟩ := map_eq_some_iff.mp (of_decide_eq_true isVerification)
    obtain ⟨verification, hit, rfl⟩ := map_eq_some_iff.mp found
    have kept := validatePatch_spared spares c.validated hit (Or.inl kind)
    rw [isVerificationAt, payloadOf, kept, map_some, map_some, kind]
    rfl
  · obtain ⟨edge, member, shape⟩ := mem_targetsOf.mp produces
    exact mem_targetsOf.mpr ⟨edge, grown member, shape⟩
  · obtain ⟨hit, kind⟩ := evidenceAt_some.mp stored
    refine evidenceAt_some.mpr ⟨validatePatch_spared spares c.validated hit (Or.inr ?_), kind⟩
    rw [VPGNode.nodeType, kind]
    rfl

/-- A Task that stays VERIFIED has the pins it had before. -/
theorem survivor_pins (unpinned : UnpinnedStayUnpinned c.derivation c.cand.nodes)
    (snapshots : SnapshotsHoldPins c.nodes c.edges) (found : getNode c.nodes taskId = some task)
    (kept : getNode c.cand.nodes taskId = some task) (survives : Survives c.derivation c.cand.nodes taskId) (pin) :
    pin ∈ taskCurrentArtifactVersions taskId c.nodes c.edges ↔
      pin ∈ taskCurrentArtifactVersions taskId c.cand.nodes c.cand.edges := by
  obtain ⟨same, hit, isTask, verified, _, unchanged, _⟩ := survives.sound
  obtain rfl : task = same := some.inj (kept.symm.trans hit)
  have named : task.nodeId = taskId := lookup_key kept
  rw [← snapshots taskId task found isTask verified pin]
  cases recorded : verifiedVersions task with
  | none =>
    have empty : taskCurrentArtifactVersions task.nodeId c.cand.nodes c.cand.edges = [] :=
      unpinned task (lookup_mem kept) isTask (named ▸ survives) recorded
    rw [← named, empty, getD_none]
  | some versions =>
    rw [pinsChanged, recorded] at unchanged
    have agrees := sameSet_iff.mp (by simpa using unchanged)
    rw [getD_some, ← agrees, pinnedVersions_eq, named]
    rfl

/-- A Task of the candidate that is VERIFIED was in the snapshot. -/
theorem verified_in_snapshot (found : getNode c.cand.nodes taskId = some task)
    (verified : task.validity = .verified) : getNode c.nodes taskId = some task := by
  rcases validatePatch_node c.validated found with old | ⟨fresh, _⟩
  · exact old
  rw [fresh.validity] at verified
  cases verified

theorem commit_exactBinding (consistent : Consistent c.store) (keeps : KeepsBindings c)
    (bound : ExactBinding c.nodes c.edges) (snapshots : SnapshotsHoldPins c.nodes c.edges) :
    ExactBinding c.derived c.cand.edges := by
  intro taskId verified
  have same := c.sameRecords
  suffices candidate : BoundExactly c.cand.nodes c.cand.edges taskId by
    simpa only [BoundExactly, same.isVerificationAt, same.evidence, same.taskCurrentArtifactVersions] using candidate
  rw [c.derived_eq] at verified
  obtain ⟨task, found, isTask, survives | ⟨gone, ready⟩⟩ :=
    derived_verified (Commit.cand_distinct consistent) verified
  · obtain ⟨other, hit, _, valid, _⟩ := survives.sound
    obtain rfl : task = other := some.inj (found.symm.trans hit)
    have old := verified_in_snapshot found valid
    exact bound_candidate keeps.spares (bound taskId ⟨task, old, isTask, valid⟩)
      (survivor_pins keeps.unpinned snapshots old found survives)
  have named : task.nodeId = taskId := lookup_key found
  obtain ⟨verificationId, counts, evidenceId, produces, valid, judged⟩ :=
    keeps.judged task (lookup_mem found) isTask (named ▸ gone) ready
  rw [named] at counts judged
  obtain ⟨verifies, passes⟩ := mem_filter.mp counts
  rw [passingVerification, Bool.and_eq_true] at passes
  exact ⟨verificationId, verifies, passes.1, evidenceId, produces, judged_bound valid judged⟩

/-! ## Runs -/

/-- In a run whose commits keep bindings, every VERIFIED Task of every
committed version has passing Evidence that names exactly its pins. -/
theorem verified_tasks_bound_exactly (requests : List Request)
    (keeps : ∀ c : Commit, c.In requests → KeepsBindings c) (graphId : String) :
    ExactBinding (committedNodes (execute requests) graphId) (committedEdges (execute requests) graphId) := by
  have kept : ExactBinding (committedNodes (execute requests) graphId)
        (committedEdges (execute requests) graphId) ∧
      SnapshotsHoldPins (committedNodes (execute requests) graphId)
        (committedEdges (execute requests) graphId) := by
    refine execute_projection (Q := fun nodes edges => ExactBinding nodes edges ∧
      SnapshotsHoldPins nodes edges) ⟨?_, ?_⟩ ?_ ?_ graphId
    · rintro taskId ⟨task, found, _⟩
      cases found
    · intro taskId task found
      cases found
    · rintro nodes nodes' edges edges' distinct perm edgesPerm ⟨bound, snapshots⟩
      have same := sameRecords_perm distinct perm
      constructor
      · intro taskId verified
        rw [verifiedTask_perm distinct perm] at verified
        simpa only [BoundExactly, same.isVerificationAt, same.evidence, same.taskCurrentArtifactVersions,
          (sourcesOf_perm edgesPerm).mem_iff, (targetsOf_perm edgesPerm).mem_iff,
          mem_pins_perm edgesPerm] using bound taskId verified
      · intro taskId task found
        rw [getNode_perm distinct perm] at found
        simpa only [same.taskCurrentArtifactVersions, mem_pins_perm edgesPerm] using snapshots taskId task found
    · rintro c member ⟨bound, snapshots⟩
      refine ⟨commit_exactBinding member.consistent (keeps c member) bound snapshots, ?_⟩
      rw [c.derived_eq]
      exact derived_snapshots (Commit.cand_distinct member.consistent)
  exact kept.1

/-! ### Tasks that lose their binding -/

instance (nodes : List VPGNode) (edges : List VPGEdge) (taskId : String) :
    Decidable (BoundExactly nodes edges taskId) :=
  decidable_of_iff (∃ verificationId ∈ sourcesOf edges .verifies taskId,
      isVerificationAt nodes verificationId = true ∧
      ∃ evidenceId ∈ targetsOf edges .produces verificationId,
        (evidenceAt nodes evidenceId).any (fun found => decide (found.2.result = .pass) &&
          sameSet (boundVersions found.2) (taskCurrentArtifactVersions taskId nodes edges)) = true)
    (by simp only [BoundExactly, Option.any_eq_true, Bool.and_eq_true, decide_eq_true_eq, sameSet_iff,
      Prod.exists])

instance (d : Derivation) (nodes : List VPGNode) : Decidable (JudgedOnOwnPins d nodes) :=
  inferInstanceAs (Decidable (∀ task ∈ nodes, _))

instance (d : Derivation) (nodes : List VPGNode) : Decidable (UnpinnedStayUnpinned d nodes) :=
  inferInstanceAs (Decidable (∀ task ∈ nodes, _))

instance : DecidablePred IsGround := fun _ => inferInstanceAs (Decidable (_ ∨ _))

/-- The Task `T` is VERIFIED without pins, and then gets an artifact. -/
def pinnedAfterwards : List Request :=
  [.create "P" "G" [], .submit committedAction (patchOf "p1" 0 [addTask "T" 1, addVerification "V",
    addEdge "e1" "verifies" "V" "T", addEvidence "E" "V" "pass" [], attachEvidence "e2" "V" "E"]),
   .submit committedAction (patchOf "p2" 1 [attachArtifact "e3" "T" (artifactAt "u" 1)])]

/-- The Verification `V` verifies the Task `S` first, which has no pins, and then
the Task `T`, which has one. -/
def sharedVerification : List Request :=
  [.create "P" "G" [],
   .submit committedAction (patchOf "p1" 0 [addTask "S" 1, addTask "T" 1, addVerification "V",
    addEdge "e1" "verifies" "V" "S", addEdge "e2" "verifies" "V" "T",
    attachArtifact "e3" "T" (artifactAt "u" 1), addEvidence "E" "V" "pass" [],
    attachEvidence "e4" "V" "E"])]

/-- In both runs `T` is VERIFIED with a pin that no Evidence names. -/
theorem verified_against_unnamed_pins : (¬ ExactBinding (committedNodes (execute pinnedAfterwards) "G")
      (committedEdges (execute pinnedAfterwards) "G")) ∧
    ¬ ExactBinding (committedNodes (execute sharedVerification) "G")
      (committedEdges (execute sharedVerification) "G") := by
  constructor
  · intro claimed
    exact absurd (claimed "T" (by decide +kernel)) (by decide +kernel)
  · intro claimed
    exact absurd (claimed "T" (by decide +kernel)) (by decide +kernel)

/-- The Task `T` is VERIFIED with the artifact `u@1`, and then again with `u@2`. -/
def repinned : List Request :=
  [.create "P" "G" [],
   .submit committedAction (patchOf "p1" 0 [addTask "T" 1, attachArtifact "e1" "T" (artifactAt "u" 1),
    addVerification "V", addEdge "e2" "verifies" "V" "T",
    addEvidence "E" "V" "pass" [artifactAt "u" 1], attachEvidence "e3" "V" "E"]),
   .submit committedAction (patchOf "p2" 1 [attachArtifact "e4" "T" (artifactAt "u" 2),
    addEvidence "F" "V" "pass" [artifactAt "u" 2], attachEvidence "e5" "V" "F"])]

/-- What a submission has to meet to keep bindings. -/
def testBindings (env : Environment) (sub : Submission) (found : Evaluation) : Bool :=
  eachOperation (fun _ => Spares IsGround) env sub found &&
    (decide (UnpinnedStayUnpinned (found.derivation env sub) found.cand.nodes) &&
      decide (JudgedOnOwnPins (found.derivation env sub) found.cand.nodes))

theorem repinned_bound_exactly :
    ExactBinding (committedNodes (execute repinned) "G") (committedEdges (execute repinned) "G") ∧
      VerifiedTask (committedNodes (execute repinned) "G") "T" := by
  refine ⟨verified_tasks_bound_exactly repinned (fun c member => ?_) "G", by decide +kernel⟩
  have tested := monitor_commit testBindings (by decide +kernel) member
  rw [testBindings, Bool.and_eq_true, Bool.and_eq_true, decide_eq_true_eq, decide_eq_true_eq] at tested
  exact ⟨eachOperation_commit tested.1, tested.2.1, tested.2.2⟩

end LongHorizonOS.ArtifactBinding
