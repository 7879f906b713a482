import LongHorizonOS.ConcurrentSubmission
import LongHorizonOS.RunMonitor

/-! Concurrent submissions under one idempotency key. Whatever the schedule, a
key stands for at most one committed version, and every call that returns a
result returns that one. A call that loses a race, however, is stopped by the
version check, which comes before the key is looked at again, so it raises
instead of converging. Calls that are not overtaken between their read of the
record and their commit agree. -/
namespace LongHorizonOS.IdempotentSubmission
open KeyedRows GraphModels FailFast PatchValidation Option
open CommitGuards GraphStore CommitSpec PatchSubmission CommittedRuns
open CommitProgress Interleaving StoreEvolution ConcurrentSubmission RunMonitor

/-! ## Agreement -/

/-- One of the guard checks of the call raises this error. -/
def RefusedByGuard (env : Environment) (sub : Submission) (failure : Failure) : Prop :=
  ∃ authority ∈ [env.replayAuthority, env.commitAuthority, env.convergeAuthority],
    validateGuards authority sub.commitGuard sub.readGuards = .error failure

/-- The outcome is the version committed under the key, or a guard has refused. -/
def Answers (store : Store) (env : Environment) (sub : Submission) : Except Failure PatchCommitResult → Prop
  | .ok result => ∃ row, versionsUnder store sub.patch.compositeKey = [row] ∧
      row.patchId = result.patchId ∧ row.version = result.committedGraphVersion
  | .error failure => RefusedByGuard env sub failure

/-- There is at most one version under the key, and every call with the key that
has returned names it. -/
structure Agreement (key : CompositeKey) (system : System Store Call) : Prop where
  once : (versionsUnder system.shared key).length ≤ 1
  answers : ∀ call ∈ system.clients, call.sub.patch.compositeKey = key → ∀ outcome,
    call.stage = .returned outcome → Answers system.shared call.env call.sub outcome

/-- This much holds in every schedule. -/
theorem results_agree (schedule) (key) : (versionsUnder (conduct schedule).shared key).length ≤ 1 ∧
    ∀ call ∈ (conduct schedule).clients, ∀ result, call.stage = .returned (.ok result) →
      Answers (conduct schedule).shared call.env call.sub (.ok result) := by
  obtain ⟨serial, known⟩ := conduct_knows schedule
  refine ⟨serial.ledger.versionsUnder_length key, fun call member result returned => ?_⟩
  have knows := known call member
  rw [returned] at knows
  exact serial.ledger.versionsUnder_result knows

/-! ## Calls that are not overtaken -/

/-- The D3 envelope of the request can be recorded. -/
def D3Recordable (request : CommitRequest) (store : Store) : Prop :=
  match request.d3Record with
  | none => True
  | some record =>
    match d3Row request record with
    | .ok row => row.recordId ∉ store.d3Results.map D3Row.recordId
    | .error _ => False

instance (request : CommitRequest) (store : Store) : Decidable (D3Recordable request store) :=
  match given : request.d3Record with
  | none => isTrue (by simp [D3Recordable, given])
  | some record =>
    match built : d3Row request record with
    | .ok row => decidable_of_iff (row.recordId ∉ store.d3Results.map D3Row.recordId)
        (by simp only [D3Recordable, given, built])
    | .error _ => isFalse (by simp [D3Recordable, given, built])

/-- Nothing is in the way of the next step: the graph is open when it is read; a
call that has missed its key expects the version it read, its patch is valid on
its snapshot, and when it commits the record is still the one it read, its patch
id is unused and its D3 envelope can be recorded. -/
def Undisturbed (env : Environment) (sub : Submission) (store : Store) : Stage → Prop
  | .called => (getRecord store sub.patch.graphId).map GraphRecord.closed = some false
  | .missed record => sub.patch.expectedGraphVersion = record.currentVersion
  | .snapshot _ nodes edges =>
      (validatePatch (requestFor sub env.facts nodes edges)).isOk = true
  | .prepared record request => getRecord store sub.patch.graphId = some record ∧
      sub.patch.patchId ∉ store.patches.map PatchRow.patchId ∧ D3Recordable request store
  | _ => True

instance (env : Environment) (sub : Submission) (store : Store) (stage : Stage) :
    Decidable (Undisturbed env sub store stage) :=
  match stage with
  | .called => inferInstanceAs (Decidable (_ = some false))
  | .missed record => inferInstanceAs (Decidable (_ = record.currentVersion))
  | .snapshot _ _ _ => inferInstanceAs (Decidable (_ = true))
  | .prepared record request => inferInstanceAs (Decidable (getRecord store sub.patch.graphId = some record ∧
      sub.patch.patchId ∉ store.patches.map PatchRow.patchId ∧ D3Recordable request store))
  | .read _ | .violated _ | .returned _ => isTrue trivial

/-- The call has not failed, unless a guard has refused it. -/
def Sound (env : Environment) (sub : Submission) : Stage → Prop
  | .violated _ => False
  | .returned (.error failure) => RefusedByGuard env sub failure
  | _ => True

section
theorem replay_sound (next : Option (String × Int) → Stage) (sound : ∀ found, Sound env sub (next found)) :
    Sound env sub (proceed (replayStep sub env.replayAuthority store).1 next) := by
  rcases replayed : replayStep sub env.replayAuthority store with ⟨failure | found, after⟩
  · refine ⟨env.replayAuthority, by simp, ?_⟩
    -- without a row nothing is checked, so the error is the guards'
    cases guards : validateGuards env.replayAuthority sub.commitGuard sub.readGuards with
    | error other =>
      cases hit : hasIdempotency store sub.patch.compositeKey with
      | none =>
        rw [replayStep_ok.mpr ⟨hit, fun some => absurd rfl some, rfl⟩] at replayed
        cases replayed
      | some found =>
        have raised : replayStep sub env.replayAuthority store = (.error other, store) := by
          simp [replayStep, idempotentReplay, Session.transaction, Session.check, hit, guards, bind, Except.bind]
        rw [raised] at replayed
        cases replayed
        rfl
    | ok _ =>
      rw [replayStep_ok.mpr ⟨rfl, fun _ => guards, rfl⟩] at replayed
      cases replayed
  · exact sound found

theorem d3Recordable_written (recordable : D3Recordable request store) :
    ∃ rows, D3Written request store.d3Results rows := by
  unfold D3Recordable at recordable
  unfold D3Written
  cases given : request.d3Record with
  | none => exact ⟨_, rfl⟩
  | some envelope =>
    cases built : d3Row request envelope with
    | error failure => simp only [given, built] at recordable
    | ok row =>
      simp only [given, built] at recordable
      exact ⟨_, row, built, recordable, rfl⟩

/-- A prepared call that was not overtaken commits, unless a guard refuses. -/
theorem commit_sound (serial : Serial store) (knows : Knows env sub store (.prepared record request))
    (undisturbed : Undisturbed env sub store (.prepared record request)) :
    Sound env sub (afterCommit sub request (commitPatch request env.commitAuthority store).1) := by
  obtain ⟨isOpen, nodes, edges, cand, held, validated, rfl⟩ := knows
  obtain ⟨found, newPatch, recordable⟩ := undisturbed
  have while_at : ∀ {fact : Prop}, WhileAt store sub.patch.graphId record.currentVersion fact → fact := by
    rintro fact ⟨now, hit, _, holds⟩
    obtain rfl : now = record := some.inj (hit.symm.trans found)
    exact holds rfl
  have unused := while_at held.missed
  have prepared := validated_prepared held.coherent held.expected validated
  cases guards : validateGuards env.commitAuthority sub.commitGuard sub.readGuards with
  | error failure =>
    rw [commitPatch_refused prepared.arguments guards]
    obtain ⟨code, message, rfl⟩ := validateGuards_raises _ _ guards
    exact ⟨env.commitAuthority, by simp, guards⟩
  | ok _ =>
    obtain ⟨rows, d3⟩ := d3Recordable_written recordable
    have newKey := lookup_eq_none.mp (map_eq_none_iff.mp unused)
    obtain ⟨after, committed⟩ := validated_commits serial.consistent
      (bind_ok.mpr ⟨record, demand_ok.mpr found, require_bind_ok.mpr ⟨isOpen, rfl⟩⟩)
      (while_at held.current) validated guards newKey newPatch d3
    rw [committed]
    trivial

/-- A step that meets the condition does not fail. -/
theorem step_sound (call : Call) (serial : Serial store) (knows : Knows call.env call.sub store call.stage)
    (undisturbed : Undisturbed call.env call.sub store call.stage)
    (sound : Sound call.env call.sub call.stage) : Sound call.env call.sub (call.step store).1 := by
  obtain ⟨env, sub, stage⟩ := call
  cases stage with
  | called =>
    obtain ⟨record, found, isOpen⟩ := map_eq_some_iff.mp undisturbed
    have read : readRecord sub store = .ok record :=
      bind_ok.mpr ⟨record, demand_ok.mpr found, require_bind_ok.mpr ⟨isOpen, rfl⟩⟩
    change Sound env sub (proceed (readRecord sub store) .read)
    rw [read]
    trivial
  | read record =>
    refine replay_sound (afterReplay sub record) fun found => ?_
    cases found with
    | none => trivial
    | some found => trivial
  | missed record =>
    obtain ⟨_, now, found, _⟩ := knows
    obtain ⟨rows, read⟩ := snapshotStep_succeeds env.order serial.consistent found undisturbed
    change Sound env sub (proceed (snapshotStep sub record env.order store) _)
    rw [read]
    trivial
  | snapshot record nodes edges =>
    change Sound env sub (proceed (prepareStep sub env.facts record nodes edges) _)
    change (validatePatch (requestFor sub env.facts nodes edges)).isOk = true at undisturbed
    cases validated : validatePatch (requestFor sub env.facts nodes edges) with
    | error failure =>
      rw [validated] at undisturbed
      cases undisturbed
    | ok cand =>
      have prepared : prepareStep sub env.facts record nodes edges =
          .ok (commitRequest sub env.facts record nodes cand) := bind_ok.mpr ⟨cand, validated, rfl⟩
      rw [prepared]
      trivial
  | prepared record request => exact commit_sound serial knows undisturbed
  | violated constraint => exact sound.elim
  | returned outcome => exact sound

end

/-- The calls that are watched, by their number and what they submit, answer as
long as their own steps meet the condition. The other calls may do anything. -/
theorem watched_calls_sound (watched : ℕ → Submission → Prop)
    (undisturbed : machine.Meets (fun index store call => watched index call.sub →
      Undisturbed call.env call.sub store call.stage) {} schedule)
    (found : (conduct schedule).clients[index]? = some call) (watching : watched index call.sub) :
    Sound call.env call.sub call.stage := by
  have held := (Machine.conduct_rule (P := Serial) (G := Evolves) (I := fun index store (call : Call) =>
    Knows call.env call.sub store call.stage ∧ (watched index call.sub → Sound call.env call.sub call.stage))
    undisturbed ⟨[], rfl⟩ ?_ ?_ ?_ ?_).2 index call found
  · exact held.2 watching
  · exact fun store action serial => ⟨serial.perform _, perform_evolves serial.consistent⟩
  · exact fun _ store argument _ => ⟨trivial, fun _ => trivial⟩
  · intro index store call serial known condition
    have learns := step_learns call serial known.1
    exact ⟨learns.serial, learns.evolves, learns.knows, fun watching =>
      step_sound call serial known.1 (condition watching) (known.2 watching)⟩
  · exact fun _ store after call _ evolves known => ⟨known.1.evolves evolves, known.2⟩

/-- A submission of one Task, under the key `K`. -/
def keyedTask (patchId nodeId : String) : Submission :=
  { patch := { (patchOf patchId 0 [addTask nodeId 1]).patch with idempotencyKey := "K" } }

def sharedKey : CompositeKey := (keyedTask "p" "T").patch.compositeKey

/-- Two calls under one key, and the order in which they take their steps. -/
def twoCalls (steps : List ℕ) : Schedule :=
  [.act (.create "P" "G" []), .enter ({}, keyedTask "p" "T"), .enter ({}, keyedTask "q" "T")] ++ steps.map .step

def errorCode : Call → Option VPGCode
  | { stage := .returned (.error (.vpg code _)), .. } => some code
  | _ => none

/-- An error that is not the guards' answers nothing. -/
theorem unguarded_error_disagrees {index : ℕ} {call : Call}
    (found : system.clients[index]? = some call) (sameKey : call.sub.patch.compositeKey = key)
    (unguarded : call.sub.commitGuard = none ∧ call.sub.readGuards = none)
    (failed : errorCode call = some code) : ¬ Agreement key system := by
  intro agreement
  unfold errorCode at failed
  split at failed
  · rename_i same
    cases same
    obtain ⟨authority, _, refused⟩ := agreement.answers _ (List.mem_of_getElem? found) sameKey _ rfl
    rw [unguarded.1, unguarded.2] at refused
    cases refused
  · cases failed

end LongHorizonOS.IdempotentSubmission
