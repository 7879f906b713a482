import LongHorizonOS.FailFast
import Mathlib.Data.Rat.Defs

/-! Harness sessions. An adapter holds one session and applies control requests
to it through hooks of the caller, whose outcome is arbitrary. A request is
fenced by the identity and the revision it expects, and answered from a bounded
cache when it is repeated. The hook is awaited under a lock that a restore does not take. -/
namespace LongHorizonOS.HarnessSession
open FailFast List

inductive HarnessOperation
  | start | resume | checkpoint | rebase | preempt
  deriving DecidableEq

/-- The value of the operation; `resume` is CONTINUE. -/
def HarnessOperation.value : HarnessOperation → String
  | .start => "start"
  | .resume => "continue"
  | .checkpoint => "checkpoint"
  | .rebase => "rebase"
  | .preempt => "preempt"

inductive HarnessSessionState
  | created | running | checkpointed | preempted | completed
  deriving DecidableEq

def HarnessSessionState.value : HarnessSessionState → String
  | .created => "created"
  | .running => "running"
  | .checkpointed => "checkpointed"
  | .preempted => "preempted"
  | .completed => "completed"

structure HarnessSessionIdentity where
  sessionId : String
  graphId : String
  graphVersion : ℕ
  semanticEpoch : ℕ
  taskId : String
  agentId : String
  claimId : String
  attemptId : String
  deriving DecidableEq

structure HarnessSessionSnapshot where
  identity : HarnessSessionIdentity
  state : HarnessSessionState := .created
  revision : ℕ := 0
  checkpointId : Option String := none
  progress : ℚ := 0
  lastRequestId : Option String := none
  deriving DecidableEq

/-- A request. The fingerprint is a hash of all fields, so the request stands
for it; the payload is the text that is hashed. -/
structure HarnessControlRequest where
  requestId : String
  operation : HarnessOperation
  session : HarnessSessionIdentity
  expectedRevision : ℕ
  expectedCheckpointId : Option String := none
  targetGraphVersion : Option ℕ := none
  targetSemanticEpoch : Option ℕ := none
  reason : String := ""
  payload : String := ""
  deriving DecidableEq

structure HarnessHookOutcome where
  completed : Bool := false
  checkpointId : Option String := none
  progress : Option ℚ := none

inductive HarnessResultStatus
  | applied | unsupported | rejected | failed

structure HarnessControlResult where
  requestId : String
  operation : HarnessOperation
  status : HarnessResultStatus
  before : HarnessSessionSnapshot
  after : HarnessSessionSnapshot
  message : String

/-- The adapter; the oldest cached result comes first. -/
structure HarnessAdapter where
  operations : List HarnessOperation
  maxCachedRequests : ℕ
  snapshot : HarnessSessionSnapshot
  requestResults : List (HarnessControlRequest × HarnessControlResult) := []

/-- `_ALLOWED_STATES` -/
def HarnessOperation.allowedStates : HarnessOperation → List HarnessSessionState
  | .start => [.created]
  | .checkpoint => [.running]
  | .resume | .rebase | .preempt => [.running, .checkpointed]

def rebaseTarget (request : HarnessControlRequest) (identity : HarnessSessionIdentity) : ℕ × ℕ :=
  (request.targetGraphVersion.getD identity.graphVersion, request.targetSemanticEpoch.getD identity.semanticEpoch)

/-- `_validate_request`; a request that passes gives no refusal. -/
def HarnessAdapter.validateRequest (adapter : HarnessAdapter) (request : HarnessControlRequest) :
    Except (HarnessResultStatus × String) Unit := do
  let current := adapter.snapshot
  require (request.session = current.identity) (.rejected,
    "session identity does not match the current Harness owner and cognition basis")
  require (request.expectedRevision = current.revision) (.rejected,
    s!"expected revision {request.expectedRevision} does not match current revision {current.revision}")
  require (request.operation ∈ adapter.operations) (.unsupported,
    s!"Harness does not declare {request.operation.value} support")
  require (current.state ∈ request.operation.allowedStates) (.rejected,
    s!"{request.operation.value} is invalid while session is {current.state.value}")
  require (¬ (request.operation ∈ [.resume, .rebase] ∧ current.state = .checkpointed ∧
      request.expectedCheckpointId ≠ current.checkpointId)) (.rejected,
    "expected checkpoint identity does not match the current session checkpoint")
  require (¬ (request.operation = .resume ∧ current.state = .running ∧ request.expectedCheckpointId ≠ none))
    (.rejected, "a running session cannot continue from an unrelated checkpoint")
  let (graph, epoch) := rebaseTarget request current.identity
  require (request.operation = .rebase → ¬ (graph < current.identity.graphVersion ∨
      epoch < current.identity.semanticEpoch ∨
      graph = current.identity.graphVersion ∧ epoch = current.identity.semanticEpoch)) (.rejected,
    "REBASE target must advance graph version or semantic epoch without moving either backwards")

/-- The first part of `_transition`. -/
def nextState (operation : HarnessOperation) (outcome : HarnessHookOutcome) :
    Except String HarnessSessionState :=
  match operation with
  | .checkpoint => do
    require (outcome.completed = false) "ValueError: CHECKPOINT cannot also report completed=True"
    require (outcome.checkpointId.isSome = true)
      "ValueError: CHECKPOINT must acknowledge a non-empty checkpoint_id"
    return .checkpointed
  | .preempt => do
    require (outcome.completed = false) "ValueError: PREEMPT cannot also report completed=True"
    return .preempted
  | .start | .resume | .rebase => do
    require (outcome.checkpointId = none)
      s!"ValueError: {operation.value} cannot publish a checkpoint; use CHECKPOINT or PREEMPT"
    return if outcome.completed then .completed else .running

/-- `_transition` -/
def transition (request : HarnessControlRequest) (before : HarnessSessionSnapshot)
    (outcome : HarnessHookOutcome) : Except String HarnessSessionSnapshot := do
  let state ← nextState request.operation outcome
  let (graph, epoch) := rebaseTarget request before.identity
  return {
    identity := if request.operation = .rebase then
      { before.identity with graphVersion := graph, semanticEpoch := epoch } else before.identity
    state := state
    revision := before.revision + 1
    checkpointId := outcome.checkpointId
    progress := if state = .completed then 1 else outcome.progress.getD before.progress
    lastRequestId := some request.requestId }

/-- `_remember` -/
def HarnessAdapter.remember (adapter : HarnessAdapter) (request : HarnessControlRequest)
    (result : HarnessControlResult) : HarnessAdapter :=
  let results := adapter.requestResults.filter (·.1.requestId ≠ request.requestId) ++ [(request, result)]
  { adapter with requestResults := results.drop (results.length - adapter.maxCachedRequests) }

/-- A call of `control` as it takes the lock: it is answered at once, or it waits for its hook. -/
inductive ControlStart
  | answered (result : HarnessControlResult) (adapter : HarnessAdapter)
  | awaits

/-- `_result` -/
def unchanged (request : HarnessControlRequest) (snapshot : HarnessSessionSnapshot) (status : HarnessResultStatus)
    (message : String) : HarnessControlResult :=
  ⟨request.requestId, request.operation, status, snapshot, snapshot, message⟩

/-- `control`, up to the hook -/
def HarnessAdapter.begin (adapter : HarnessAdapter) (request : HarnessControlRequest) : ControlStart :=
  match adapter.requestResults.find? (·.1.requestId = request.requestId) with
  | some (cached, result) =>
    if cached = request then .answered result (adapter.remember request result)
    else .answered (unchanged request adapter.snapshot .rejected
      "request_id was already used for a different control request") adapter
  | none =>
    match adapter.validateRequest request with
    | .error (status, message) =>
      let result := unchanged request adapter.snapshot status message
      .answered result (adapter.remember request result)
    | .ok _ => .awaits

/-- What a call of `control` comes to: its result, the adapter after it, and whether it
was applied. -/
structure ControlOutcome where
  result : HarnessControlResult
  adapter : HarnessAdapter
  applied : Bool

/-- `control`, from the answer of the hook on. `before` is the snapshot that the hook was
given; what the snapshot is by now is not read again. -/
def HarnessAdapter.finish (adapter : HarnessAdapter) (request : HarnessControlRequest)
    (before : HarnessSessionSnapshot) (answer : Except String HarnessHookOutcome) : ControlOutcome :=
  match answer >>= transition request before with
  | .error failure =>
    let result := unchanged request before .failed s!"Harness {request.operation.value} failed: {failure}"
    ⟨result, adapter.remember request result, false⟩
  | .ok after =>
    let result := ⟨request.requestId, request.operation, .applied, before, after,
      s!"{request.operation.value} acknowledged"⟩
    ⟨result, HarnessAdapter.remember { adapter with snapshot := after } request result, true⟩

/-- `restore_durable_snapshot` -/
def HarnessAdapter.restoreDurableSnapshot (adapter : HarnessAdapter) (snapshot : HarnessSessionSnapshot) :
    Except String HarnessAdapter := do
  require (snapshot.identity = adapter.snapshot.identity)
    "durable Harness restore cannot change the exact session identity"
  require (adapter.snapshot.revision ≤ snapshot.revision)
    "durable Harness restore cannot move the session revision backwards"
  if snapshot.revision = adapter.snapshot.revision then
    require (snapshot = adapter.snapshot) "durable Harness restore conflicts with the current snapshot"
    return adapter
  else return { adapter with requestResults := [], snapshot := snapshot }

/-! ## Runs -/

/-- An adapter in use. A request whose hook is awaited holds the lock. -/
structure Harness where
  adapter : HarnessAdapter
  awaited : Option (HarnessControlRequest × HarnessSessionSnapshot) := none

/-- What happens to an adapter: a request is taken up, the awaited hook answers or
raises, or a snapshot is restored, for which no lock is taken. -/
inductive HarnessCall
  | control (request : HarnessControlRequest)
  | answer (answer : Except String HarnessHookOutcome)
  | restore (snapshot : HarnessSessionSnapshot)

abbrev Harness.snapshot (harness : Harness) : HarnessSessionSnapshot := harness.adapter.snapshot

def Harness.perform (harness : Harness) : HarnessCall → Harness
  | .control request =>
    match harness.awaited, harness.adapter.begin request with
    | none, .answered _ adapter => { harness with adapter }
    | none, .awaits => { harness with awaited := some (request, harness.snapshot) }
    | some _, _ => harness
  | .answer answer =>
    match harness.awaited with
    | none => harness
    | some (request, before) => { adapter := (harness.adapter.finish request before answer).adapter }
  | .restore snapshot =>
    match harness.adapter.restoreDurableSnapshot snapshot with
    | .ok adapter => { harness with adapter }
    | .error _ => harness

def Harness.conduct (harness : Harness) (calls : List HarnessCall) : Harness :=
  calls.foldl Harness.perform harness

def HarnessSessionIdentity.basis (identity : HarnessSessionIdentity) : ℕ × ℕ :=
  (identity.graphVersion, identity.semanticEpoch)

def HarnessSessionState.final (state : HarnessSessionState) : Bool := state ∈ [.preempted, .completed]

/-- The request that is applied now, if one is. -/
def Harness.applied (harness : Harness) : HarnessCall → Option HarnessControlRequest
  | .answer answer => harness.awaited.bind fun (request, before) =>
    if (harness.adapter.finish request before answer).applied then some request else none
  | _ => none

/-- The request whose hook starts now, if one does. -/
def Harness.runsHook (harness : Harness) : HarnessCall → Option HarnessControlRequest
  | .control request =>
    match harness.awaited, harness.adapter.begin request with
    | none, .awaits => some request
    | _, _ => none
  | _ => none

/-- The request names the session as it is; it need not name its checkpoint. -/
def HarnessControlRequest.Names (request : HarnessControlRequest) (current : HarnessSessionSnapshot) : Prop :=
  request.session = current.identity ∧ request.expectedRevision = current.revision ∧
    (request.expectedCheckpointId = none ∨ request.expectedCheckpointId = current.checkpointId)

/-- How a call continues the session. -/
structure Chained (harness : Harness) (call : HarnessCall) : Prop where
  applied : ∀ request, harness.applied call = some request →
    (harness.perform call).snapshot.revision = harness.snapshot.revision + 1
  grows : harness.snapshot.revision ≤ (harness.perform call).snapshot.revision
  basis : harness.snapshot.identity.basis ≤ (harness.perform call).snapshot.identity.basis
  rebased : (harness.perform call).snapshot.identity.basis ≠ harness.snapshot.identity.basis →
    ∃ request, harness.applied call = some request ∧ request.operation = .rebase
  fenced : ∀ request, harness.runsHook call = some request → request.Names harness.snapshot
  final : harness.snapshot.state.final = true → (harness.perform call).snapshot.state = harness.snapshot.state

/-- A restore waits for a running hook and keeps a final state, and a request names a
checkpoint only to continue or rebase a session that is CHECKPOINTED. -/
def Tame (harness : Harness) : HarnessCall → Prop
  | .control request => request.expectedCheckpointId = none ∨
    request.operation ∈ [.resume, .rebase] ∧ harness.snapshot.state = .checkpointed
  | .answer _ => True
  | .restore snapshot => harness.awaited = none ∧
    (harness.snapshot.state.final = true → snapshot.state = harness.snapshot.state)

section
variable {adapter : HarnessAdapter} {request : HarnessControlRequest}

/-- What a request that passes has been compared with. -/
structure Valid (adapter : HarnessAdapter) (request : HarnessControlRequest) : Prop where
  session : request.session = adapter.snapshot.identity
  revision : request.expectedRevision = adapter.snapshot.revision
  state : adapter.snapshot.state ∈ request.operation.allowedStates
  checkpoint : request.operation ∈ [.resume, .rebase] → adapter.snapshot.state = .checkpointed →
    request.expectedCheckpointId = adapter.snapshot.checkpointId
  target : request.operation = .rebase →
    adapter.snapshot.identity.basis ≤ rebaseTarget request adapter.snapshot.identity

theorem not_final_of_allowed {operation : HarnessOperation} (allowed : state ∈ operation.allowedStates) :
    state.final = false := by
  cases operation <;> cases state <;> first | rfl | (revert allowed; decide)

theorem validateRequest_ok (passed : adapter.validateRequest request = .ok done) : Valid adapter request := by
  simp only [HarnessAdapter.validateRequest, require_bind_ok, require_ok] at passed
  obtain ⟨session, revision, -, state, checkpoint, -, target⟩ := passed
  refine ⟨session, revision, state, fun operation is => ?_, fun operation => ?_⟩
  · by_contra other
    exact checkpoint ⟨operation, is, other⟩
  have forward := target operation
  exact ⟨by simp only [HarnessSessionIdentity.basis]; omega, by simp only [HarnessSessionIdentity.basis]; omega⟩

theorem transition_ok {before after} (ran : transition request before outcome = .ok after) :
    after.revision = before.revision + 1 ∧ after.identity.basis =
    if request.operation = .rebase then rebaseTarget request before.identity else before.identity.basis := by
  obtain ⟨state, -, ran⟩ := bind_ok.mp ran
  cases ran
  refine ⟨rfl, ?_⟩
  split <;> rfl

theorem begin_cases (adapter : HarnessAdapter) (request) :
    (∃ result after, adapter.begin request = .answered result after ∧ after.snapshot = adapter.snapshot) ∨
      adapter.begin request = .awaits ∧ Valid adapter request := by
  unfold HarnessAdapter.begin
  split
  · split <;> exact .inl ⟨_, _, rfl, rfl⟩
  split
  · exact .inl ⟨_, _, rfl, rfl⟩
  · exact .inr ⟨rfl, validateRequest_ok ‹_›⟩

/-- After the hook the snapshot is left alone, or the request is applied to the one that
the hook was given. -/
theorem finish_cases (adapter : HarnessAdapter) (request before answer) :
    let done := adapter.finish request before answer
    done.applied = false ∧ done.adapter.snapshot = adapter.snapshot ∨
      done.applied = true ∧ ∃ outcome, transition request before outcome = .ok done.adapter.snapshot := by
  unfold HarnessAdapter.finish
  dsimp only
  split
  · exact .inl ⟨rfl, rfl⟩
  obtain ⟨outcome, -, moved⟩ := bind_ok.mp ‹_›
  exact .inr ⟨rfl, outcome, moved⟩

theorem restore_cases (harness : Harness) (snapshot : HarnessSessionSnapshot) :
    (harness.perform (.restore snapshot)).awaited = harness.awaited ∧
    ((harness.perform (.restore snapshot)).snapshot = harness.snapshot ∨
      (harness.perform (.restore snapshot)).snapshot = snapshot ∧
        snapshot.identity = harness.snapshot.identity ∧ harness.snapshot.revision ≤ snapshot.revision) := by
  unfold Harness.perform
  dsimp only
  split
  · rename_i restored ran
    simp only [HarnessAdapter.restoreDurableSnapshot, require_bind_ok] at ran
    obtain ⟨identity, later, ran⟩ := ran
    split at ran
    · obtain ⟨-, ran⟩ := require_bind_ok.mp ran
      cases ran
      exact ⟨rfl, .inl rfl⟩
    · cases ran
      exact ⟨rfl, .inr ⟨rfl, identity, later⟩⟩
  · exact ⟨rfl, .inl rfl⟩

/-- The request whose hook is awaited is valid for the session as it is. -/
def Held (harness : Harness) : Prop :=
  ∀ request before, harness.awaited = some (request, before) →
    before = harness.snapshot ∧ Valid harness.adapter request

theorem held_idle (idle : harness.awaited = none) : Held harness := by
  intro request before awaited
  rw [idle] at awaited
  cases awaited

/-- A request is taken up or not; the snapshot stays. -/
theorem control_cases (harness : Harness) (request) (held : Held harness) :
    (harness.perform (.control request)).snapshot = harness.snapshot ∧ Held (harness.perform (.control request)) ∧
      (harness.runsHook (.control request) = none ∨
        harness.runsHook (.control request) = some request ∧ Valid harness.adapter request) := by
  unfold Harness.perform Harness.runsHook
  cases waits : harness.awaited with
  | some other => exact ⟨rfl, held, .inl rfl⟩
  | none =>
    rcases begin_cases harness.adapter request with ⟨result, after, begun, same⟩ | ⟨begun, valid⟩ <;>
      simp only [begun]
    · exact ⟨same, held_idle rfl, .inl trivial⟩
    · refine ⟨trivial, fun _ _ other => ?_, .inr ⟨trivial, valid⟩⟩
      cases other
      exact ⟨rfl, valid⟩

/-- Nothing is applied, or the request whose hook was awaited is, to the session as it is. -/
theorem answer_cases (held : Held harness) (answer) : (harness.perform (.answer answer)).awaited = none ∧
    (harness.applied (.answer answer) = none ∧ (harness.perform (.answer answer)).snapshot = harness.snapshot ∨
      ∃ request outcome, harness.applied (.answer answer) = some request ∧ Valid harness.adapter request ∧
        transition request harness.snapshot outcome = .ok (harness.perform (.answer answer)).snapshot) := by
  unfold Harness.perform Harness.applied
  cases waits : harness.awaited with
  | none => exact ⟨waits, .inl ⟨rfl, rfl⟩⟩
  | some pending =>
    obtain ⟨request, before⟩ := pending
    obtain ⟨rfl, valid⟩ := held request before waits
    refine ⟨rfl, ?_⟩
    rcases finish_cases harness.adapter request harness.snapshot answer with ⟨unapplied, same⟩ |
      ⟨applied, outcome, moved⟩
    · exact .inl ⟨by simp [unapplied], same⟩
    · exact .inr ⟨request, outcome, by simp [applied], valid, moved⟩

theorem Held.perform (held : Held harness) (tame : Tame harness call) : Held (harness.perform call) := by
  cases call with
  | control request => exact (control_cases harness request held).2.1
  | answer answer => exact fun _ _ other => nomatch (answer_cases held answer).1.symm.trans other
  | restore snapshot =>
    exact fun _ _ other => nomatch tame.1.symm.trans ((restore_cases harness snapshot).1.symm.trans other)

/-- A call that applies nothing and starts no hook. -/
theorem Chained.unapplied (unapplied : harness.applied call = none)
    (fenced : ∀ request, harness.runsHook call = some request → request.Names harness.snapshot)
    (grows : harness.snapshot.revision ≤ (harness.perform call).snapshot.revision)
    (same : (harness.perform call).snapshot.identity = harness.snapshot.identity)
    (final : harness.snapshot.state.final = true → (harness.perform call).snapshot.state = harness.snapshot.state) :
    Chained harness call where
  applied := fun _ applied => nomatch unapplied.symm.trans applied
  grows := grows
  basis := (congrArg HarnessSessionIdentity.basis same).ge
  rebased := fun other => (other (congrArg HarnessSessionIdentity.basis same)).elim
  fenced := fenced
  final := final

theorem chained (held : Held harness) (tame : Tame harness call) : Chained harness call := by
  cases call with
  | control request =>
    obtain ⟨same, -, hook⟩ := control_cases harness request held
    refine .unapplied rfl (fun other ran => ?_) (congrArg (·.revision) same).ge (congrArg (·.identity) same)
      fun _ => congrArg (·.state) same
    rcases hook with none | ⟨runs, valid⟩
    · cases none.symm.trans ran
    cases runs.symm.trans ran
    exact ⟨valid.session, valid.revision, tame.imp_right fun named => valid.checkpoint named.1 named.2⟩
  | answer answer =>
    obtain ⟨-, ⟨unapplied, same⟩ | ⟨request, outcome, applied, valid, moved⟩⟩ := answer_cases held answer
    · exact .unapplied unapplied nofun (congrArg (·.revision) same).ge (congrArg (·.identity) same)
        fun _ => congrArg (·.state) same
    obtain ⟨revision, basis⟩ := transition_ok moved
    refine ⟨fun _ _ => revision, Nat.le_of_lt (revision ▸ Nat.lt_succ_self _), ?_, fun other => ?_, nofun, ?_⟩
    · rw [basis]
      split
      · exact valid.target ‹_›
      exact le_rfl
    · refine ⟨request, applied, ?_⟩
      by_contra kept
      exact other (basis.trans (if_neg kept))
    · intro ended
      cases (not_final_of_allowed valid.state).symm.trans ended
  | restore snapshot =>
    rcases (restore_cases harness snapshot).2 with same | ⟨restored, identity, later⟩
    · exact .unapplied rfl nofun (congrArg (·.revision) same).ge (congrArg (·.identity) same)
        fun _ => congrArg (·.state) same
    exact .unapplied rfl nofun (later.trans_eq (congrArg (·.revision) restored.symm))
      ((congrArg (·.identity) restored).trans identity)
      fun ended => (congrArg (·.state) restored).trans (tame.2 ended)

/-- The session has come to the revision that an applied request expects. -/
theorem applied_revision (held : Held harness) (applied : harness.applied call = some request) :
    request.expectedRevision = harness.snapshot.revision := by
  cases call with
  | control | restore => cases applied
  | answer answer =>
    obtain ⟨-, ⟨unapplied, -⟩ | ⟨other, _, known, valid, -⟩⟩ := answer_cases held answer
    · cases unapplied.symm.trans applied
    cases known.symm.trans applied
    exact valid.revision

/-- Every call of the run is tame where it is made. -/
def TameRun (harness : Harness) (calls : List HarnessCall) : Prop :=
  ∀ before call after, calls = before ++ call :: after → Tame (harness.conduct before) call

theorem conduct_append (harness : Harness) (before after) :
    harness.conduct (before ++ after) = (harness.conduct before).conduct after := foldl_append

theorem TameRun.tail (tame : TameRun harness (call :: calls)) : TameRun (harness.perform call) calls :=
  fun before other after same => tame (call :: before) other after (congrArg _ same)

theorem held_conduct (held : Held harness) (tame : TameRun harness calls) : Held (harness.conduct calls) ∧
    harness.snapshot.revision ≤ (harness.conduct calls).snapshot.revision := by
  induction calls generalizing harness with
  | nil => exact ⟨held, le_rfl⟩
  | cons call calls ih =>
    have here := tame [] call calls rfl
    obtain ⟨later, grows⟩ := ih (held.perform here) tame.tail
    exact ⟨later, (chained held here).grows.trans grows⟩

theorem TameRun.front (tame : TameRun harness (before ++ later)) : TameRun harness before := by
  rintro first call rest rfl
  exact tame first call (rest ++ later) (by simp)

theorem TameRun.back (tame : TameRun harness (before ++ later)) : TameRun (harness.conduct before) later := by
  rintro first call rest rfl
  rw [← conduct_append]
  exact tame (before ++ first) call rest (by simp)

end

/-- `CallableHarnessAdapter(identity, ...)` with the hooks of these operations. -/
def openSession (identity : HarnessSessionIdentity) (operations : List HarnessOperation)
    (maxCachedRequests : ℕ) : Harness :=
  { adapter := { operations, maxCachedRequests, snapshot := { identity } } }

/-- Sessions move forward one applied request at a time, as long as the calls are tame:
no restore comes while a hook runs or takes a session out of a final state, and no
request names a checkpoint where none is compared. -/
theorem session_chain (identity : HarnessSessionIdentity) (operations : List HarnessOperation)
    (maxCachedRequests : ℕ) (calls : List HarnessCall)
    (tame : TameRun (openSession identity operations maxCachedRequests) calls) :
    (∀ before call after, calls = before ++ call :: after →
      Chained ((openSession identity operations maxCachedRequests).conduct before) call) ∧
    ∀ before call between again after request, calls = before ++ call :: (between ++ again :: after) →
      ((openSession identity operations maxCachedRequests).conduct before).applied call = some request →
      ((openSession identity operations maxCachedRequests).conduct (before ++ call :: between)).applied again ≠
        some request := by
  have opened : Held (openSession identity operations maxCachedRequests) := held_idle rfl
  constructor
  · rintro before call after rfl
    exact chained (held_conduct opened tame.front).1 (tame before call after rfl)
  rintro before call between again after request rfl first second
  have held := (held_conduct opened tame.front).1
  have here := tame before call _ rfl
  -- the revision is past the one that the request expects, and never comes back to it
  have rest : TameRun (Harness.perform _ call) (between ++ again :: after) := tame.back.tail
  obtain ⟨later, grown⟩ := held_conduct (held.perform here) rest.front
  rw [conduct_append] at second
  have expected := applied_revision held first
  have repeated := applied_revision later second
  have moved := (chained held here).applied request first
  change _ = ((Harness.perform _ call).conduct between).snapshot.revision at repeated
  omega

/-- A session as it is opened in the following runs, and its first request. -/
def sample : HarnessSessionIdentity := ⟨"s", "g", 1, 0, "t", "a", "c", "x"⟩

def startRequest : HarnessControlRequest := ⟨"1", .start, sample, 0, none, none, none, "", ""⟩

theorem started_session_chain : Chained ((openSession sample [.start] 1).conduct [.control startRequest])
    (.answer (.ok { completed := true })) := by
  refine (session_chain sample [.start] 1 [.control startRequest, _] ?_).1 [.control startRequest] _ [] rfl
  rintro (_ | ⟨_, _ | ⟨_, _ | _⟩⟩) call after split <;> cases split
  · exact .inl rfl
  · trivial

/-- A restored snapshot takes the session out of COMPLETED; a running session is rebased
although the request names a checkpoint; and a hook answers over a snapshot that was
restored while it ran. -/
theorem restored_session_runs_again :
    ¬ Chained ((openSession sample [.start] 1).conduct [.control startRequest, .answer (.ok { completed := true })])
      (.restore { identity := sample, state := .running, revision := 2 }) ∧
    ¬ Chained ((openSession sample [.start, .rebase] 1).conduct [.control startRequest, .answer (.ok { })])
      (.control ⟨"2", .rebase, sample, 1, some "k", some 2, none, "", ""⟩) ∧
    ¬ Chained ((openSession sample [.start] 1).conduct [.control startRequest,
      .restore { identity := sample, state := .completed, revision := 5 }]) (.answer (.ok { })) := by
  refine ⟨fun chained => ?_, fun chained => ?_, fun chained => ?_⟩
  · exact absurd (chained.final (by decide)) (by decide)
  · exact absurd (chained.fenced _ rfl).2.2 (by decide)
  · exact absurd chained.grows (by decide)

end LongHorizonOS.HarnessSession
