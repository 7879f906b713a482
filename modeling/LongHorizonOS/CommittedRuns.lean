import LongHorizonOS.DerivationFrame
import LongHorizonOS.PatchSpec
import LongHorizonOS.StoreConsistency

/-! Runs of the runtime, seen as sequences of committed versions. A request
either leaves every projection alone or is a commit, whose new version is the
derived candidate. An invariant of committed versions is therefore proved by
showing that a commit keeps it. -/
namespace LongHorizonOS.CommittedRuns
open GraphModels FailFast EvidenceVerification PatchValidation DerivedState List
open CommitGuards GraphStore PatchSubmission StoreConsistency DerivationFrame PatchSpec

/-! ## Commits -/

/-- A submission all of whose steps returned, with what each of them read. -/
structure Commit where
  store : Store
  sub : Submission
  env : Environment
  record : GraphRecord
  nodes : List VPGNode
  edges : List VPGEdge
  cand : Candidate
  after : Store
  read : readRecord sub store = .ok record
  unused : replayStep sub env.replayAuthority store = (.ok none, store)
  snapshot : snapshotStep sub record env.order store = .ok (nodes, edges)
  validated : validatePatch (requestFor sub env.facts nodes edges) = .ok cand
  committed : commitPatch (commitRequest sub env.facts record nodes cand) env.commitAuthority store =
    (.ok (), after)

namespace Commit

def graphId (c : Commit) : String := c.sub.patch.graphId

/-- The version that the commit creates. -/
def version (c : Commit) : Int := c.record.currentVersion + 1

def derivation (c : Commit) : Derivation := derivationFor c.sub c.env.facts c.record c.cand.edges

/-- The nodes of the new version. -/
def derived (c : Commit) : List VPGNode :=
  (recomputeDerivedState (derivationFor c.sub c.env.facts c.record c.cand.edges) c.cand.nodes).1

end Commit

/-! ## Submissions -/

section
variable {store after : Store}

theorem readRecord_ok (read : readRecord sub store = .ok record) :
    getRecord store sub.patch.graphId = some record ∧ record.closed = false := by
  obtain ⟨found, hit, rest⟩ := bind_ok.mp read
  obtain ⟨isOpen, rest⟩ := require_bind_ok.mp rest
  cases rest
  exact ⟨demand_ok.mp hit, isOpen⟩

theorem prepareStep_ok (prepared : prepareStep sub facts record nodes edges = .ok request) :
    ∃ cand, validatePatch (requestFor sub facts nodes edges) = .ok cand ∧
      request = commitRequest sub facts record nodes cand := by
  obtain ⟨cand, validated, rest⟩ := bind_ok.mp prepared
  exact ⟨cand, validated, (Except.ok.inj rest).symm⟩

theorem replayStep_readOnly (sub) (authority) : Session.ReadOnly (replayStep sub authority) :=
  Session.transaction_readOnly (Session.check_readOnly _)

/-- A replay returns the recorded result of the key. The guards are checked only
when there is one. -/
theorem replayStep_ok : replayStep sub authority store = (.ok found, after) ↔
    hasIdempotency store sub.patch.compositeKey = found ∧
      (found ≠ none → validateGuards authority sub.commitGuard sub.readGuards = .ok ()) ∧ after = store := by
  rw [replayStep, idempotentReplay, Session.transaction_ok, Session.check_ok, ← and_assoc]
  refine and_congr_left fun _ => ?_
  cases hasIdempotency store sub.patch.compositeKey with
  | none =>
    constructor
    · rintro ⟨⟩
      exact ⟨rfl, fun missing => absurd rfl missing⟩
    rintro ⟨rfl, _⟩
    rfl
  | some result =>
    dsimp only
    rw [bind_ok]
    constructor
    · rintro ⟨_, guarded, returned⟩
      cases returned
      exact ⟨rfl, fun _ => guarded⟩
    · rintro ⟨rfl, guarded⟩
      exact ⟨(), guarded (by simp), rfl⟩

/-- The rows that a snapshot reads, in the order of the scan. -/
theorem getAllNodes_ok (read : getAllNodes store graphId order = .ok nodes) :
    nodes = (order.nodes (nodeRowsOf store graphId)).map NodeRow.payload := by
  unfold getAllNodes at read
  generalize order.nodes (nodeRowsOf store graphId) = rows at read
  induction rows generalizing nodes with
  | nil =>
    cases read
    rfl
  | cons row rest ih =>
    rw [mapM_cons] at read
    obtain ⟨payload, decoded, read⟩ := bind_ok.mp read
    obtain ⟨others, readRest, read⟩ := bind_ok.mp read
    obtain ⟨_, decoded⟩ := require_bind_ok.mp decoded
    cases decoded
    cases read
    rw [map_cons, ih readRest]

theorem snapshotStep_ok (read : snapshotStep sub record order store = .ok (nodes, edges)) :
    sub.patch.expectedGraphVersion = record.currentVersion ∧ nodes.Perm (committedNodes store sub.patch.graphId) ∧
      edges.Perm (committedEdges store sub.patch.graphId) := by
  obtain ⟨expected, read⟩ := require_bind_ok.mp read
  obtain ⟨_, _, read⟩ := bind_ok.mp read
  obtain ⟨readNodes, nodesRead, read⟩ := bind_ok.mp read
  obtain ⟨readEdges, edgesRead, read⟩ := bind_ok.mp read
  cases read
  obtain ⟨_, edgesRead⟩ := require_bind_ok.mp edgesRead
  cases edgesRead
  rw [getAllNodes_ok nodesRead]
  exact ⟨expected, (order.nodes_perm _).map _, order.edges_perm _⟩

theorem convergeStep_readOnly (sub) (authority) (constraint) :
    Session.ReadOnly (convergeStep sub authority constraint) := by
  intro store
  have same := replayStep_readOnly sub authority store
  change (Session.bind (replayStep sub authority) _ store).2 = store
  unfold Session.bind
  split
  · rename_i found middle eq
    rw [eq] at same
    obtain rfl : middle = store := same
    cases found <;> rfl
  · rename_i eq
    rw [eq] at same
    exact same

theorem convergeStep_ok (ran : convergeStep sub authority constraint store = (.ok result, after)) :
    after = store ∧ ∃ found, hasIdempotency store sub.patch.compositeKey = some found ∧
      result = replayedResult sub found := by
  obtain ⟨found, middle, replayed, returned⟩ := Session.bind_ok.mp ran
  obtain ⟨hit, _, rfl⟩ := replayStep_ok.mp replayed
  cases found with
  | some found =>
    cases returned
    exact ⟨rfl, found, hit, rfl⟩
  | none => cases returned

theorem commitPatch_allOrNothing : Session.AllOrNothing (commitPatch request authority) :=
  (Session.check_readOnly _).bind fun _ => Session.transaction_allOrNothing _

theorem commitStep_allOrNothing : Session.AllOrNothing (commitStep sub env request) := by
  intro store after failure raised
  unfold commitStep at raised
  split at raised
  · cases raised
  · rename_i constraint middle eq
    obtain rfl := commitPatch_allOrNothing _ _ _ eq
    exact (convergeStep_readOnly _ _ _).allOrNothing _ _ _ raised
  rename_i eq
  cases raised
  exact commitPatch_allOrNothing _ _ _ eq

/-- A submission that raises has changed nothing. -/
theorem submitPatch_allOrNothing : Session.AllOrNothing (submitPatch sub env) := by
  refine (Session.check_readOnly _).bind fun record => (replayStep_readOnly _ _).bind fun found => ?_
  cases found with
  | some found => exact Session.ReadOnly.allOrNothing fun _ => rfl
  | none =>
    exact (Session.check_readOnly _).bind fun _ => (Session.check_readOnly _).bind fun request =>
      commitStep_allOrNothing

/-- A submission raises and changes nothing, replays an earlier commit and
changes nothing, or commits. -/
theorem submitPatch_cases (sub) (env) (store) : (∃ failure, submitPatch sub env store = (.error failure, store)) ∨
    (∃ found, submitPatch sub env store = (.ok (replayedResult sub found), store)) ∨
    ∃ c : Commit, c.store = store ∧ c.sub = sub ∧ c.env = env ∧ submitPatch sub env store =
    (.ok (appliedResult sub (commitRequest sub env.facts c.record c.nodes c.cand)), c.after) := by
  rcases eq : submitPatch sub env store with ⟨outcome, after⟩
  cases outcome with
  | error failure => exact .inl ⟨failure, by rw [submitPatch_allOrNothing _ _ _ eq]⟩
  | ok result =>
    right
    obtain ⟨record, read, ran⟩ := Session.check_bind_ok.mp eq
    obtain ⟨found, middle, replayed, ran⟩ := Session.bind_ok.mp ran
    have same := replayStep_readOnly sub env.replayAuthority store
    rw [replayed] at same
    obtain rfl : middle = store := same
    cases found with
    | some found =>
      cases ran
      exact .inl ⟨found, rfl⟩
    | none =>
      obtain ⟨⟨nodes, edges⟩, snapshot, ran⟩ := Session.check_bind_ok.mp ran
      obtain ⟨request, prepared, ran⟩ := Session.check_bind_ok.mp ran
      obtain ⟨cand, validated, rfl⟩ := prepareStep_ok prepared
      unfold commitStep at ran
      split at ran
      · rename_i committed
        cases ran
        exact .inr ⟨⟨middle, sub, env, record, nodes, edges, cand, after, read, replayed, snapshot,
          validated, committed⟩, rfl, rfl, rfl, rfl⟩
      · rename_i constraint last raised
        obtain ⟨rfl, found, _, rfl⟩ := convergeStep_ok ran
        rw [commitPatch_allOrNothing _ _ _ raised]
        exact .inl ⟨found, rfl⟩
      · cases ran

end

namespace Commit
variable (c : Commit)

/-- The commit is what `submit_patch` returns. -/
theorem submitted : submitPatch c.sub c.env c.store =
    (.ok (appliedResult c.sub (commitRequest c.sub c.env.facts c.record c.nodes c.cand)), c.after) := by
  refine Session.check_bind_ok.mpr ⟨c.record, c.read, Session.bind_ok.mpr ⟨none, c.store, c.unused,
    Session.check_bind_ok.mpr ⟨_, c.snapshot, Session.check_bind_ok.mpr
      ⟨commitRequest c.sub c.env.facts c.record c.nodes c.cand, ?_, ?_⟩⟩⟩⟩
  · exact bind_ok.mpr ⟨c.cand, c.validated, rfl⟩
  unfold commitStep
  rw [c.committed]

/-! ### What the commit read -/

theorem found : getRecord c.store c.graphId = some c.record := (readRecord_ok c.read).1

theorem expected : c.sub.patch.expectedGraphVersion = c.record.currentVersion :=
  (snapshotStep_ok c.snapshot).1

theorem proposedVersion : proposedVersion c.sub.patch = c.version := by
  rw [PatchValidation.proposedVersion, c.expected, version]

theorem nodes_perm : c.nodes.Perm (committedNodes c.store c.graphId) :=
  (snapshotStep_ok c.snapshot).2.1

theorem edges_perm : c.edges.Perm (committedEdges c.store c.graphId) :=
  (snapshotStep_ok c.snapshot).2.2

/-- What the store is asked to commit. -/
theorem request : let r := commitRequest c.sub c.env.facts c.record c.nodes c.cand
    r.patch.graphId = c.graphId ∧ r.committedVersion = c.version ∧ r.projectionNodes = c.derived ∧
      r.projectionEdges = c.cand.edges :=
  ⟨rfl, rfl, by dsimp only [commitRequest, derived], rfl⟩

theorem derived_eq : c.derived = (closed c.derivation c.cand.nodes).rows := by
  dsimp only [derived, recomputeDerivedState, derivation]

/-- The derivation changes no payload. -/
theorem sameRecords : SameRecords c.cand.nodes c.derived := by
  rw [c.derived_eq]
  exact (closed_frame c.cand.nodes).sameRecords

/-! ### What the commit wrote -/

section
variable {c} (consistent : Consistent c.store)
include consistent

theorem clean : ∃ parentNodes parentEdges d3Results,
    CleanCommit (commitRequest c.sub c.env.facts c.record c.nodes c.cand) c.env.commitAuthority
    c.store c.after c.record parentNodes parentEdges d3Results := by
  obtain ⟨record, parentNodes, parentEdges, d3Results, clean⟩ := commit_clean consistent c.committed
  obtain rfl : c.record = record := Option.some.inj (c.found.symm.trans clean.found)
  exact ⟨parentNodes, parentEdges, d3Results, clean⟩

theorem after_consistent : Consistent c.after := by
  obtain ⟨_, _, _, clean⟩ := clean consistent
  exact clean.consistent consistent

/-- The derived candidate is the new version. -/
theorem after_nodes : (committedNodes c.after c.graphId).Perm c.derived := by
  obtain ⟨_, _, _, clean⟩ := clean consistent
  have perm := clean.committedNodes
  rw [c.request.1, c.request.2.2.1] at perm
  exact perm

theorem after_edges : (committedEdges c.after c.graphId).Perm c.cand.edges := by
  obtain ⟨_, _, _, clean⟩ := clean consistent
  have perm := clean.committedEdges
  rw [c.request.1, c.request.2.2.2] at perm
  exact perm

theorem after_other {graphId} (other : graphId ≠ c.graphId) :
    committedNodes c.after graphId = committedNodes c.store graphId ∧
      committedEdges c.after graphId = committedEdges c.store graphId := by
  obtain ⟨_, _, _, clean⟩ := clean consistent
  rw [← c.request.1] at other
  have same := clean.sameGraph other
  exact ⟨same.committedNodes, same.edges⟩

theorem after_record (graphId) : getRecord c.after graphId =
    if graphId = c.graphId then some { c.record with currentVersion := c.version }
    else getRecord c.store graphId := by
  obtain ⟨_, _, _, clean⟩ := clean consistent
  have records := clean.getRecord graphId
  rw [c.request.1, c.request.2.1] at records
  exact records

theorem nodes_distinct : DistinctIds c.nodes :=
  (c.nodes_perm.map _).nodup_iff.mpr consistent.distinctNodes

theorem derived_distinct : DistinctIds c.derived :=
  ((after_nodes consistent).map _).nodup_iff.mp (after_consistent consistent).distinctNodes

/-- The derivation keeps the ids of the candidate. -/
theorem cand_distinct : DistinctIds c.cand.nodes := by
  rw [DistinctIds, ← (closed_frame c.cand.nodes).keys, ← c.derived_eq]
  exact derived_distinct consistent

end

/-- Each operation of the patch meets the condition on the candidate that it finds. -/
def EachOperation (condition : Candidate → PatchOperation → Prop) : Prop :=
  PatchSpec.EachOperation (requestFor c.sub c.env.facts c.nodes c.edges) condition

/-! ## Runs -/

/-- The commit is one of the run. -/
def In (requests : List Request) : Prop :=
  ∃ before later, requests = before ++ .submit c.env c.sub :: later ∧ c.store = execute before

end Commit

/-- No committed version changes. -/
def SameProjection (store after : Store) : Prop :=
  ∀ graphId, committedNodes after graphId = committedNodes store graphId ∧
    committedEdges after graphId = committedEdges store graphId

theorem createGraph_sameProjection : SameProjection store (createGraph record store).2 := by
  rcases createGraph_cases with same | ⟨_, eq⟩
  · rw [same]
    exact fun _ => ⟨rfl, rfl⟩
  rw [eq]
  exact fun _ => ⟨rfl, rfl⟩

/-- A submission leaves the store as it was or commits. -/
theorem perform_submit (store) (env) (sub) :
    perform store (.submit env sub) = store ∨ ∃ c : Commit, c.store = store ∧ c.env = env ∧ c.sub = sub ∧
        perform store (.submit env sub) = c.after := by
  rcases submitPatch_cases sub env store with ⟨_, eq⟩ | ⟨_, eq⟩ | ⟨c, reached, own, world, eq⟩
  · exact .inl (by rw [perform, eq])
  · exact .inl (by rw [perform, eq])
  exact .inr ⟨c, reached, world, own, by rw [perform, eq]⟩

/-- Everything a request can do to the committed versions. -/
theorem perform_cases (store) (request) : SameProjection store (perform store request) ∨
    ∃ c : Commit, c.store = store ∧ request = .submit c.env c.sub ∧ perform store request = c.after := by
  cases request with
  | create ownerPid graphId metadata => exact .inl createGraph_sameProjection
  | close graphId => exact .inl fun _ => ⟨rfl, rfl⟩
  | submit env sub =>
    rcases perform_submit store env sub with same | ⟨c, rfl, rfl, rfl, eq⟩
    · left
      rw [same]
      exact fun _ => ⟨rfl, rfl⟩
    · exact .inr ⟨c, rfl, rfl, eq⟩

theorem perform_consistent (sound : Consistent store) : Consistent (perform store request) := by
  cases request with
  | create ownerPid graphId metadata => exact create_consistent rfl sound
  | close graphId => exact close_consistent sound
  | submit env sub =>
    rcases perform_submit store env sub with same | ⟨c, rfl, rfl, rfl, eq⟩
    · rw [same]
      exact sound
    rw [eq]
    exact Commit.after_consistent sound

theorem execute_append (requests) (request) : execute (requests ++ [request]) = perform (execute requests) request := by
  rw [execute, foldl_append]
  rfl

/-- Every store that a run reaches is consistent. -/
theorem execute_consistent (requests) : Consistent (execute requests) := by
  induction requests using List.reverseRecOn with
  | nil => exact empty_consistent
  | append_singleton requests request ih =>
    rw [execute_append]
    exact perform_consistent ih

theorem Commit.In.consistent {c : Commit} (member : c.In requests) : Consistent c.store := by
  obtain ⟨before, _, _, reached⟩ := member
  rw [reached]
  exact execute_consistent before

theorem Commit.In.append {c : Commit} (member : c.In requests) (more : List Request) : c.In (requests ++ more) := by
  obtain ⟨before, later, rfl, reached⟩ := member
  exact ⟨before, later ++ more, by simp, reached⟩

section
/-- The rule for an invariant of committed versions, from some point of a run on. -/
theorem execute_invariant_from {P : Store → Prop} (earlier : List Request) {later : List Request}
    (start : P (execute earlier)) (frame : ∀ store after, SameProjection store after → P store → P after)
    (step : ∀ c : Commit, c.In (earlier ++ later) → P c.store → P c.after) : P (execute (earlier ++ later)) := by
  induction later using List.reverseRecOn with
  | nil =>
    rw [append_nil]
    exact start
  | append_singleton later request ih =>
    rw [← append_assoc] at step ⊢
    have before : P (execute (earlier ++ later)) := ih fun c member => step c (member.append _)
    rw [execute_append]
    rcases perform_cases (execute (earlier ++ later)) request with same | ⟨c, reached, rfl, eq⟩
    · exact frame _ _ same before
    rw [eq]
    exact step c ⟨earlier ++ later, [], rfl, reached⟩ (reached ▸ before)

/-- The same from the empty store. -/
theorem execute_invariant {P : Store → Prop} (start : P {})
    (frame : ∀ store after, SameProjection store after → P store → P after)
    (step : ∀ c : Commit, c.In requests → P c.store → P c.after) : P (execute requests) :=
  execute_invariant_from [] start frame step

/-- The rule for an invariant of each graph by itself, which does not depend on
the order of the rows: a commit leads from the snapshot it read to the derived
candidate. -/
theorem execute_projection {Q : List VPGNode → List VPGEdge → Prop} (empty : Q [] [])
    (perm : ∀ {nodes nodes' edges edges'}, DistinctIds nodes → nodes'.Perm nodes →
      edges'.Perm edges → Q nodes edges → Q nodes' edges')
    (step : ∀ c : Commit, c.In requests → Q c.nodes c.edges → Q c.derived c.cand.edges) (graphId : String) :
    Q (committedNodes (execute requests) graphId) (committedEdges (execute requests) graphId) := by
  apply execute_invariant (P := fun store => ∀ graphId,
    Q (committedNodes store graphId) (committedEdges store graphId))
  · exact fun _ => empty
  · intro store after same holds graphId
    rw [(same graphId).1, (same graphId).2]
    exact holds graphId
  intro c member holds graphId
  have consistent := member.consistent
  by_cases here : graphId = c.graphId
  · subst here
    have read := perm consistent.distinctNodes c.nodes_perm c.edges_perm (holds c.graphId)
    exact perm (Commit.derived_distinct consistent) (Commit.after_nodes consistent)
      (Commit.after_edges consistent) (step c member read)
  · rw [(Commit.after_other consistent here).1, (Commit.after_other consistent here).2]
    exact holds graphId

end
end LongHorizonOS.CommittedRuns
