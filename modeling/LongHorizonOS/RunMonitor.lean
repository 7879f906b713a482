import LongHorizonOS.CommittedRuns

/-! Conditions on commits, evaluated along a given run. A monitor replays the
requests and tests each submission on the store, the snapshot and the
candidate that it meets; what it accepts holds of every commit of the run. -/
namespace LongHorizonOS.RunMonitor
open GraphModels FailFast EvidenceVerification PatchValidation DerivedState List
open GraphStore PatchSubmission PatchSpec CommittedRuns

/-- What a submission reads and validates before it commits. -/
structure Evaluation where
  record : GraphRecord
  nodes : List VPGNode
  edges : List VPGEdge
  cand : Candidate

/-- The derivation that the submission would run. -/
def Evaluation.derivation (env : Environment) (sub : Submission) (found : Evaluation) : Derivation :=
  derivationFor sub env.facts found.record found.cand.edges

/-- The nodes of the version that the submission would create. -/
def Evaluation.derived (env : Environment) (sub : Submission) (found : Evaluation) : List VPGNode :=
  (closed (found.derivation env sub) found.cand.nodes).rows

theorem derived_commit (c : Commit) : Evaluation.derived c.env c.sub ⟨c.record, c.nodes, c.edges, c.cand⟩ = c.derived :=
  c.derived_eq.symm

def evaluate (store : Store) (env : Environment) (sub : Submission) : Except Failure Evaluation := do
  let record ← readRecord sub store
  let (nodes, edges) ← snapshotStep sub record env.order store
  let cand ← validatePatch (requestFor sub env.facts nodes edges)
  return ⟨record, nodes, edges, cand⟩

theorem evaluate_commit (c : Commit) : evaluate c.store c.env c.sub = .ok ⟨c.record, c.nodes, c.edges, c.cand⟩ :=
  bind_ok.mpr ⟨_, c.read, bind_ok.mpr ⟨_, c.snapshot, bind_ok.mpr ⟨_, c.validated, rfl⟩⟩⟩

/-- Test every submission that evaluates, in the store it meets. -/
def monitor (test : Environment → Submission → Evaluation → Bool) : Store → List Request → Bool
  | _, [] => true
  | store, .submit env sub :: rest =>
    (match evaluate store env sub with
      | .ok found => test env sub found
      | .error _ => true) && monitor test (submitPatch sub env store).2 rest
  | store, request :: rest => monitor test (perform store request) rest

theorem monitor_step (passed : monitor test store (request :: rest) = true) :
    monitor test (perform store request) rest = true := by
  cases request with
  | create ownerPid graphId metadata => exact passed
  | close graphId => exact passed
  | submit env sub =>
    rw [monitor, Bool.and_eq_true] at passed
    exact passed.2

variable (test : Environment → Submission → Evaluation → Bool)

/-- What the monitor accepts holds of every commit of the run. -/
theorem monitor_commit (passed : monitor test {} requests = true) {c : Commit}
    (member : c.In requests) : test c.env c.sub ⟨c.record, c.nodes, c.edges, c.cand⟩ = true := by
  obtain ⟨before, later, rfl, reached⟩ := member
  rw [execute] at reached
  generalize ({} : Store) = store at passed reached
  induction before generalizing store with
  | nil =>
    obtain rfl : c.store = store := reached
    rw [nil_append, monitor, evaluate_commit, Bool.and_eq_true] at passed
    exact passed.1
  | cons request before ih => exact ih (perform store request) (monitor_step passed) reached

/-- A submission is its outcome together with the store it leaves. -/
theorem submitPatch_outcome (ended : (submitPatch sub env store).1 = outcome) :
    submitPatch sub env store = (outcome, (submitPatch sub env store).2) :=
  Prod.ext ended rfl

/-- The submission commits, and what it evaluated passes the test. -/
def commitsWith (test : Environment → Submission → Evaluation → Bool) (store : Store)
    (env : Environment) (sub : Submission) : Bool :=
  (match (submitPatch sub env store).1 with
    | .ok result => !result.idempotentReplay
    | .error _ => false) &&
  match evaluate store env sub with
  | .ok found => test env sub found
  | .error _ => false

/-- A submission that commits is a commit at the store it meets. -/
theorem exists_commit_at (passed : commitsWith test store env sub = true) :
    ∃ c : Commit, c.store = store ∧ c.env = env ∧ c.sub = sub ∧
      test c.env c.sub ⟨c.record, c.nodes, c.edges, c.cand⟩ = true := by
  rw [commitsWith, Bool.and_eq_true] at passed
  obtain ⟨applied, tested⟩ := passed
  rcases submitPatch_cases sub env store with ⟨_, eq⟩ | ⟨_, eq⟩ | ⟨c, rfl, rfl, rfl, _⟩
  · rw [eq] at applied
    cases applied
  · rw [eq] at applied
    cases applied
  rw [evaluate_commit] at tested
  exact ⟨c, rfl, rfl, rfl, tested⟩

/-- In a run it is a commit of the run. -/
theorem exists_commit (passed : commitsWith test (execute before) env sub = true) :
    ∃ c : Commit, c.In (before ++ .submit env sub :: later) ∧
      test c.env c.sub ⟨c.record, c.nodes, c.edges, c.cand⟩ = true := by
  obtain ⟨c, reached, rfl, rfl, tested⟩ := exists_commit_at test passed
  exact ⟨c, ⟨before, later, rfl, reached⟩, tested⟩

/-! ## Operations -/

/-- Test every operation on the candidate that it meets. -/
def testOperations (test : Candidate → PatchOperation → Bool) (facts : Facts)
    (patch : GraphPatchProposal) : Candidate → List PatchOperation → Bool
  | _, [] => true
  | cand, op :: rest => test cand op &&
    match applyOperation facts patch cand op with
    | .ok next => testOperations test facts patch next rest
    | .error _ => true

theorem testOperations_each {test} (req)
    (passed : testOperations test req.facts req.patch (baseline req) req.patch.operations = true) :
    PatchSpec.EachOperation req fun cand op => test cand op = true := by
  intro earlier op later cand split
  rw [split] at passed
  clear split
  generalize baseline req = start at passed ⊢
  induction earlier generalizing start with
  | nil =>
    rintro ⟨⟩
    rw [nil_append, testOperations, Bool.and_eq_true] at passed
    exact passed.1
  | cons first earlier ih =>
    intro reached
    rw [foldlM_cons] at reached
    obtain ⟨next, applied, reached⟩ := bind_ok.mp reached
    rw [cons_append, testOperations, applied, Bool.and_eq_true] at passed
    exact ih next passed.2 reached

/-- Test every operation of the submission. The condition may look at the
snapshot, too. -/
def eachOperation (condition : List VPGNode → Candidate → PatchOperation → Prop)
    [∀ nodes cand op, Decidable (condition nodes cand op)] (env : Environment) (sub : Submission)
    (found : Evaluation) : Bool :=
  testOperations (fun cand op => decide (condition found.nodes cand op)) env.facts sub.patch
    { nodes := found.nodes, edges := found.edges } sub.patch.operations

theorem eachOperation_commit [∀ nodes cand op, Decidable (condition nodes cand op)] {c : Commit}
    (passed : eachOperation condition c.env c.sub ⟨c.record, c.nodes, c.edges, c.cand⟩ = true) :
    c.EachOperation (condition c.nodes) := by
  have each := testOperations_each (requestFor c.sub c.env.facts c.nodes c.edges) passed
  exact fun earlier op later cand split reached =>
    of_decide_eq_true (each earlier op later cand split reached)

/-! ## Patches as clients write them -/

section

def addTask (nodeId : String) (required : Int) : PatchOperation :=
  .addNode { nodeId := nodeId, graphId := "G", nodeType := "task", createdByPid := "P", title := "t"
             requiredVerificationCount := required }

def addGoal (nodeId : String) : PatchOperation :=
  .addNode { nodeId := nodeId, graphId := "G", nodeType := "goal", createdByPid := "P", title := "g" }

def addVerification (nodeId : String) : PatchOperation :=
  .addNode { nodeId := nodeId, graphId := "G", nodeType := "verification", createdByPid := "P" }

/-- Evidence of a Verification, with its result and the artifacts it names. -/
def addEvidence (nodeId verificationId result : String) (bindings : List ArtifactVersionBinding) :
    PatchOperation :=
  .addNode { nodeId := nodeId, graphId := "G", nodeType := "evidence", createdByPid := "P"
             result := result, sourceVerificationId := some verificationId
             evidenceSourceActionId := some "A", producedByPid := "P", artifactBindings := bindings }

def addEdge (edgeId edgeType source target : String) : PatchOperation :=
  .addEdge ⟨edgeId, edgeType, source, target, "P"⟩

def attachEvidence (edgeId verificationId evidenceId : String) : PatchOperation :=
  .attachEvidence ⟨verificationId, evidenceId, "P", edgeId⟩

def attachArtifact (edgeId taskId : String) (artifact : ArtifactVersionBinding) : PatchOperation :=
  .attachArtifact ⟨taskId, artifact, "P", edgeId⟩

def artifactAt (canonicalUri : String) (version : Int) : ArtifactVersionBinding :=
  { canonicalUri := canonicalUri, artifactId := canonicalUri, version := version, contentHash := "h" }

/-- A patch of the given operations on the given version of the graph. -/
def patchOf (patchId : String) (version : Int) (operations : List PatchOperation) : Submission :=
  { patch := { patchId := patchId, graphId := "G", expectedGraphVersion := version, authorPid := "P"
               operations := operations, idempotencyKey := patchId } }

/-- A Kernel whose one action has committed, and no artifact facts. -/
def committedAction : Environment :=
  { facts := { kernel := some fun actionId =>
                 if actionId = "A" then some ⟨"P", "committed"⟩ else none } }

/-- A run with one patch on a new graph. -/
def runOf (env : Environment) (sub : Submission) : List Request := [.create "P" "G" [], .submit env sub]

end
end LongHorizonOS.RunMonitor
