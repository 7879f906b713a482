import LongHorizonOS.CommitProgress
import LongHorizonOS.Interleaving
import LongHorizonOS.StoreEvolution

/-! Submissions that run at the same time. A call of `submit_patch` takes six
atomic steps: read the record, replay, snapshot the projection, validate and
derive, commit, and replay again after a violated constraint. Calls of any
number of clients interleave, and graphs are created and closed in between.
Every interleaving leaves a store that whole submissions, one after the other,
leave as well: a commit takes effect as if its call had run alone. -/
namespace LongHorizonOS.ConcurrentSubmission
open PythonValues GraphModels FailFast PatchValidation
open GraphStore CommitSpec PatchSubmission StoreConsistency PatchSpec CommittedRuns
open CommitProgress Interleaving StoreEvolution

/-! ## Calls and their steps -/

/-- How far a call has come, with what it holds in its variables. -/
inductive Stage where
  | called
  | read (record : GraphRecord)
  | missed (record : GraphRecord)
  | snapshot (record : GraphRecord) (nodes : List VPGNode) (edges : List VPGEdge)
  | prepared (record : GraphRecord) (request : CommitRequest)
  | violated (constraint : String)
  | returned (outcome : Except Failure PatchCommitResult)

structure Call where
  env : Environment
  sub : Submission
  stage : Stage := .called

/-- Go on with the result of a step, or return its error. -/
def proceed {α : Type} (result : Except Failure α) (next : α → Stage) : Stage :=
  match result with
  | .ok a => next a
  | .error failure => .returned (.error failure)

def afterReplay (sub : Submission) (record : GraphRecord) : Option (String × Int) → Stage
  | some found => .returned (.ok (replayedResult sub found))
  | none => .missed record

/-- Only a violated constraint is handled. -/
def afterCommit (sub : Submission) (request : CommitRequest) : Except Failure Unit → Stage
  | .ok () => .returned (.ok (appliedResult sub request))
  | .error (.integrity constraint) => .violated constraint
  | .error failure => .returned (.error failure)

/-- The next atomic step of a call. -/
def Call.step (call : Call) (store : Store) : Stage × Store :=
  match call.stage with
  | .called => (proceed (readRecord call.sub store) .read, store)
  | .read record =>
    let (result, after) := replayStep call.sub call.env.replayAuthority store
    (proceed result (afterReplay call.sub record), after)
  | .missed record =>
    (proceed (snapshotStep call.sub record call.env.order store) fun (nodes, edges) =>
      .snapshot record nodes edges, store)
  | .snapshot record nodes edges =>
    (proceed (prepareStep call.sub call.env.facts record nodes edges) (.prepared record), store)
  | .prepared _ request =>
    let (result, after) := commitPatch request call.env.commitAuthority store
    (afterCommit call.sub request result, after)
  | .violated constraint =>
    let (outcome, after) := convergeStep call.sub call.env.convergeAuthority constraint store
    (.returned outcome, after)
  | .returned outcome => (.returned outcome, store)

/-- The requests that are one step by themselves. -/
inductive Administration where
  | create (ownerPid graphId : String) (metadata : Dict)
  | close (graphId : String)

def Administration.request : Administration → Request
  | .create ownerPid graphId metadata => .create ownerPid graphId metadata
  | .close graphId => .close graphId

def machine : Machine Store Call Administration (Environment × Submission) where
  act := fun store action => perform store action.request
  enter := fun (env, sub) => { env := env, sub := sub }
  advance := fun call store => ({ call with stage := (call.step store).1 }, (call.step store).2)

abbrev Schedule := List (Event Administration (Environment × Submission))

/-- The system after a schedule, from an empty store. -/
def conduct (schedule : Schedule) : System Store Call := machine.conduct {} schedule

/-! ## What a call knows -/

/-- The graph has not gone back behind the version, and while it is at the
version the fact holds. -/
def WhileAt (store : Store) (graphId : String) (version : Int) (fact : Prop) : Prop :=
  ∃ now, getRecord store graphId = some now ∧ version ≤ now.currentVersion ∧
    (now.currentVersion = version → fact)

theorem WhileAt.evolves (held : WhileAt store graphId version fact) (evolves : Evolves store after)
    (keep : ∀ record now, getRecord store graphId = some record → getRecord after graphId = some now →
      SameVersion store after graphId → fact → fact') : WhileAt after graphId version fact' := by
  obtain ⟨record, found, bound, holds⟩ := held
  obtain ⟨now, hit, later | ⟨same, rows⟩⟩ := evolves.graph graphId record found
  · exact ⟨now, hit, by omega, fun equal => by omega⟩
  exact ⟨now, hit, by omega, fun equal => keep record now found hit rows (holds (by omega))⟩

section
/-- The replay has missed, and the key is unused as long as the version is the
one that was read. -/
def Missed (sub : Submission) (record : GraphRecord) (store : Store) : Prop :=
  WhileAt store sub.patch.graphId record.currentVersion (hasIdempotency store sub.patch.compositeKey = none)

/-- The snapshot is the projection as long as the version is the one that was
read. It is coherent even if it belongs to a later version. -/
structure Snapshotted (env : Environment) (sub : Submission) (record : GraphRecord)
    (nodes : List VPGNode) (edges : List VPGEdge) (store : Store) : Prop where
  missed : Missed sub record store
  expected : sub.patch.expectedGraphVersion = record.currentVersion
  coherent : Coherent sub.patch.graphId nodes edges
  current : WhileAt store sub.patch.graphId record.currentVersion
    (snapshotStep sub record env.order store = .ok (nodes, edges))

/-- What a call knows at each stage. -/
def Knows (env : Environment) (sub : Submission) (store : Store) : Stage → Prop
  | .called => True
  | .read record => record.closed = false ∧ WhileAt store sub.patch.graphId record.currentVersion True
  | .missed record => record.closed = false ∧ Missed sub record store
  | .snapshot record nodes edges => record.closed = false ∧ Snapshotted env sub record nodes edges store
  | .prepared record request => record.closed = false ∧ ∃ nodes edges cand,
      Snapshotted env sub record nodes edges store ∧
        validatePatch (requestFor sub env.facts nodes edges) = .ok cand ∧
        request = commitRequest sub env.facts record nodes cand
  | .violated _ => True
  | .returned (.ok result) => hasIdempotency store sub.patch.compositeKey =
      some (result.patchId, result.committedGraphVersion)
  | .returned (.error _) => True

/-! ### Other calls do not spoil it -/

theorem Missed.evolves (evolves : Evolves store after) (missed : Missed sub record store) : Missed sub record after :=
  WhileAt.evolves missed evolves fun _ _ _ _ same unused =>
    (same.results sub.patch.compositeKey rfl).trans unused

theorem snapshotStep_same (found : getRecord store sub.patch.graphId = some now)
    (found' : getRecord after sub.patch.graphId = some now') (same : SameVersion store after sub.patch.graphId) :
    snapshotStep sub record order after = snapshotStep sub record order store := by
  simp only [snapshotStep, getAllNodes, getAllEdges, found, found', same.nodes, same.edges, demand]
  rfl

theorem Snapshotted.evolves (evolves : Evolves store after)
    (held : Snapshotted env sub record nodes edges store) : Snapshotted env sub record nodes edges after where
  missed := held.missed.evolves evolves
  expected := held.expected
  coherent := held.coherent
  current := held.current.evolves evolves fun _ _ found found' same read =>
    (snapshotStep_same found found' same).trans read

theorem Knows.evolves (evolves : Evolves store after) (knows : Knows env sub store stage) :
    Knows env sub after stage := by
  cases stage with
  | called => trivial
  | read record => exact ⟨knows.1, knows.2.evolves evolves fun _ _ _ _ _ _ => trivial⟩
  | missed record => exact ⟨knows.1, knows.2.evolves evolves⟩
  | snapshot record nodes edges => exact ⟨knows.1, knows.2.evolves evolves⟩
  | prepared record request =>
    obtain ⟨isOpen, nodes, edges, cand, held, rest⟩ := knows
    exact ⟨isOpen, nodes, edges, cand, held.evolves evolves, rest⟩
  | violated constraint => trivial
  | returned outcome =>
    cases outcome with
    | error failure => trivial
    | ok result => exact evolves.results _ _ knows

/-! ### Its own steps extend it -/

/-- The store is one that whole requests leave, one after the other. -/
def Serial (store : Store) : Prop := ∃ requests, store = execute requests

theorem Serial.consistent (serial : Serial store) : Consistent store := by
  obtain ⟨requests, rfl⟩ := serial
  exact execute_consistent requests

theorem Serial.ledger (serial : Serial store) : Ledger store := by
  obtain ⟨requests, rfl⟩ := serial
  exact execute_ledger

theorem Serial.perform (serial : Serial store) (request) : Serial (PatchSubmission.perform store request) := by
  obtain ⟨requests, rfl⟩ := serial
  exact ⟨requests ++ [request], (execute_append requests request).symm⟩

/-- A request depends on the version that was read and on nothing else of the record. -/
theorem commitRequest_version (same : now.currentVersion = record.currentVersion) :
    commitRequest sub facts now nodes cand = commitRequest sub facts record nodes cand := by
  simp only [commitRequest, derivationFor, same]

theorem snapshotStep_version (same : now.currentVersion = record.currentVersion) :
    snapshotStep sub now order store = snapshotStep sub record order store := by
  simp only [snapshotStep, same]

/-- A commit that goes through is the commit of a submission that runs alone: the
version has not moved since the record was read, so the key is still unused and
the snapshot is still the projection. -/
theorem commit_as_alone (knows : Knows env sub store (.prepared record request))
    (committed : commitPatch request env.commitAuthority store = (.ok (), after)) :
    ∃ c : Commit, c.store = store ∧ c.sub = sub ∧ c.env = env ∧ c.after = after ∧
      c.version = request.committedVersion := by
  obtain ⟨_, nodes, edges, cand, held, validated, rfl⟩ := knows
  obtain ⟨_, _, _, _, _, trace, _⟩ := commitPatch_ok.mp committed
  obtain ⟨now, found, isOpen, version⟩ := checkCurrent_ok.mp trace.current
  have same : now.currentVersion = record.currentVersion := by
    rw [version]
    change record.currentVersion + 1 - 1 = _
    omega
  have while_at : ∀ {fact : Prop}, WhileAt store sub.patch.graphId record.currentVersion fact → fact := by
    rintro fact ⟨current, hit, _, holds⟩
    obtain rfl : current = now := Option.some.inj (hit.symm.trans found)
    exact holds same
  have unused := while_at held.missed
  have snapshot := while_at held.current
  refine ⟨⟨store, sub, env, now, nodes, edges, cand, after, ?_, ?_, ?_, validated, ?_⟩,
    rfl, rfl, rfl, rfl, congrArg (· + 1) same⟩
  · exact bind_ok.mpr ⟨now, demand_ok.mpr found, require_bind_ok.mpr ⟨isOpen, rfl⟩⟩
  · exact replayStep_ok.mpr ⟨unused, fun some => absurd rfl some, rfl⟩
  · rw [snapshotStep_version same]
    exact snapshot
  rw [commitRequest_version same]
  exact committed

/-- A step of a call that leads to the stage and the store. -/
structure Learns (env : Environment) (sub : Submission) (store : Store) (next : Stage × Store) : Prop where
  serial : Serial next.2
  evolves : Evolves store next.2
  knows : Knows env sub next.2 next.1

section
variable (serial : Serial store)
include serial

theorem Learns.unchanged (knows : Knows env sub store next) : Learns env sub store (next, store) :=
  ⟨serial, .refl store, knows⟩

theorem read_learns : Learns env sub store (proceed (readRecord sub store) .read, store) := by
  refine .unchanged serial ?_
  cases read : readRecord sub store with
  | error failure => trivial
  | ok record =>
    obtain ⟨found, isOpen⟩ := readRecord_ok read
    exact ⟨isOpen, record, found, le_refl _, fun _ => trivial⟩

theorem replay_learns (knows : Knows env sub store (.read record)) :
    Learns env sub store (proceed (replayStep sub env.replayAuthority store).1 (afterReplay sub record),
      (replayStep sub env.replayAuthority store).2) := by
  obtain ⟨isOpen, now, found, bound, _⟩ := knows
  rw [replayStep_readOnly sub env.replayAuthority store]
  refine .unchanged serial ?_
  rcases replay : replayStep sub env.replayAuthority store with ⟨_ | _ | result, middle⟩
  · trivial
  · obtain ⟨unused, _, _⟩ := replayStep_ok.mp replay
    exact ⟨isOpen, now, found, bound, fun _ => unused⟩
  obtain ⟨hit, _, _⟩ := replayStep_ok.mp replay
  exact hit

theorem snapshot_learns (knows : Knows env sub store (.missed record)) :
    Learns env sub store (proceed (snapshotStep sub record env.order store) fun (nodes, edges) =>
      .snapshot record nodes edges, store) := by
  refine .unchanged serial ?_
  obtain ⟨isOpen, missed⟩ := knows
  obtain ⟨now, found, bound, _⟩ := id missed
  cases read : snapshotStep sub record env.order store with
  | error failure => trivial
  | ok rows =>
    obtain ⟨expected, nodesPerm, edgesPerm⟩ := snapshotStep_ok read
    exact ⟨isOpen, missed, expected, snapshot_coherent serial.consistent found nodesPerm edgesPerm,
      now, found, bound, fun _ => read⟩

theorem prepare_learns (knows : Knows env sub store (.snapshot record nodes edges)) :
    Learns env sub store (proceed (prepareStep sub env.facts record nodes edges) (.prepared record), store) := by
  refine .unchanged serial ?_
  obtain ⟨isOpen, held⟩ := knows
  cases prepared : prepareStep sub env.facts record nodes edges with
  | error failure => trivial
  | ok request =>
    obtain ⟨cand, validated, same⟩ := prepareStep_ok prepared
    exact ⟨isOpen, nodes, edges, cand, held, validated, same⟩

theorem commit_learns (knows : Knows env sub store (.prepared record request)) :
    Learns env sub store (afterCommit sub request (commitPatch request env.commitAuthority store).1,
      (commitPatch request env.commitAuthority store).2) := by
  rcases committed : commitPatch request env.commitAuthority store with ⟨failure | _, after⟩
  · obtain rfl := commitPatch_allOrNothing _ _ _ committed
    refine .unchanged serial ?_
    cases failure with
    | integrity constraint => trivial
    | vpg code message => trivial
    | value message => trivial
  obtain ⟨c, rfl, rfl, rfl, rfl, version⟩ := commit_as_alone knows committed
  refine ⟨?_, commit_evolves serial.consistent, ?_⟩
  · have performed : perform c.store (.submit c.env c.sub) = c.after := by
      rw [PatchSubmission.perform, c.submitted]
    change Serial c.after
    rw [← performed]
    exact serial.perform _
  · change hasIdempotency c.after c.sub.patch.compositeKey = some (c.sub.patch.patchId, request.committedVersion)
    rw [commit_result serial.consistent, if_pos rfl, version]

end

theorem converge_learns (serial : Serial store) :
    Learns env sub store (.returned (convergeStep sub env.convergeAuthority constraint store).1,
      (convergeStep sub env.convergeAuthority constraint store).2) := by
  rw [convergeStep_readOnly sub env.convergeAuthority constraint store]
  refine .unchanged serial ?_
  rcases converged : convergeStep sub env.convergeAuthority constraint store with ⟨_ | result, middle⟩
  · trivial
  obtain ⟨_, found, hit, rfl⟩ := convergeStep_ok converged
  exact hit

/-- What one step of a call does. -/
theorem step_learns (call : Call) (serial : Serial store) (knows : Knows call.env call.sub store call.stage) :
    Learns call.env call.sub store (call.step store) := by
  obtain ⟨env, sub, stage⟩ := call
  cases stage with
  | called => exact read_learns serial
  | read record => exact replay_learns serial knows
  | missed record => exact snapshot_learns serial knows
  | snapshot record nodes edges => exact prepare_learns serial knows
  | prepared record request => exact commit_learns serial knows
  | violated constraint => exact converge_learns serial
  | returned outcome => exact .unchanged serial knows

end

/-- In every interleaving, every call knows what its stage says, and the store is
one that whole requests leave. -/
theorem conduct_knows (schedule : Schedule) : Serial (conduct schedule).shared ∧
    ∀ call ∈ (conduct schedule).clients, Knows call.env call.sub (conduct schedule).shared call.stage := by
  have known : Serial (conduct schedule).shared ∧ ∀ (index : ℕ) (call : Call),
      (conduct schedule).clients[index]? = some call →
        Knows call.env call.sub (conduct schedule).shared call.stage := by
    refine Machine.conduct_rule (G := Evolves) (I := fun _ store (call : Call) =>
      Knows call.env call.sub store call.stage) Machine.meets_true ⟨[], rfl⟩ ?_ ?_ ?_ ?_
    · exact fun store action serial => ⟨serial.perform _, perform_evolves serial.consistent⟩
    · exact fun _ store argument _ => trivial
    · intro _ store call serial knows _
      have learns := step_learns call serial knows
      exact ⟨learns.serial, learns.evolves, learns.knows⟩
    · exact fun _ store after call _ evolves knows => knows.evolves evolves
  refine ⟨known.1, fun call member => ?_⟩
  obtain ⟨index, found⟩ := List.mem_iff_getElem?.mp member
  exact known.2 index call found

end LongHorizonOS.ConcurrentSubmission
