import LongHorizonOS.ActionService
import LongHorizonOS.LeaseExclusion

/-! What the methods of the action service do to an action. Whatever a method is
called with, the record that it writes and the event that it journals are one
of three revisions of the record that it has read. -/
namespace LongHorizonOS.ActionSpec
open KeyedRows PythonValues FailFast AtomicPrograms Interleaving KernelModels KernelTasks
open ActionService LeaseExclusion

/-! ## Rows -/

section

theorem getAction_actionId (found : getAction store actionId = some row) : row.actionId = actionId :=
  lookup_key found

theorem projected_actionId (store) (acb) : (projected acb (getAction store acb.actionId)).actionId = acb.actionId := by
  cases found : getAction store acb.actionId with
  | none => rfl
  | some row =>
    have named : row.actionId = acb.actionId := getAction_actionId found
    exact named

/-- The upsert writes one row. -/
theorem getAction_upsertProjection (store) (acb) (actionId) : getAction (upsertProjection acb store) actionId =
    if actionId = acb.actionId then some (projected acb (getAction store acb.actionId))
    else getAction store actionId := by
  change lookup _ (upsert _ _ _) _ = _
  rw [lookup_upsert, projected_actionId]
  rfl

@[simp] theorem getAction_appendEvents (events) (store)
    (actionId) : getAction (appendEvents events store) actionId = getAction store actionId := rfl

variable (acb : ActionControlBlock) (row : Option ActionControlBlock)

@[simp] theorem projected_state : (projected acb row).state = acb.state := by cases row <;> rfl

@[simp] theorem projected_leaseIds : (projected acb row).leaseIds = acb.leaseIds := by cases row <;> rfl

@[simp] theorem projected_fencingTokens :
    (projected acb row).fencingTokens = acb.fencingTokens := by cases row <;> rfl

@[simp] theorem projected_retryCount : (projected acb row).retryCount = acb.retryCount := by cases row <;> rfl

end

/-! ## Revisions -/

/-- The state that an event puts an action into. -/
def told : EventBody → Option (String × ActionState)
  | .actionSubmitted acb => some (acb.actionId, .submitted)
  | .actionAdmitted actionId => some (actionId, .admitted)
  | .actionRejected actionId _ => some (actionId, .failed)
  | .actionRunning actionId => some (actionId, .running)
  | .actionCommitted actionId _ => some (actionId, .committed)
  | .actionFailed actionId _ => some (actionId, .failed)
  | .actionTimedOut actionId => some (actionId, .timedOut)
  | .actionUncertain actionId _ => some (actionId, .uncertain)
  | .actionCancelled actionId => some (actionId, .cancelled)
  | _ => none

/-- What a method makes of the record that it has read, and what it journals. -/
inductive Revises (acb : ActionControlBlock) : ActionControlBlock → EventBody → Prop
  | enters {target : ActionState} {body : EventBody} (result error : Option Dict)
      (live : ¬ acb.state.Terminal) (legal : (actionTransitions acb.state target).isSome)
      (tells : told body = some (acb.actionId, target)) :
      Revises acb { acb with state := target, result := result, error := error } body
  | intends (leaseIds : List String) (fencingTokens : List (String × Int)) :
      Revises acb { acb with leaseIds := leaseIds, fencingTokens := fencingTokens }
        (.actionIntentDurable acb.actionId leaseIds fencingTokens)
  | reserves : Revises acb { acb with retryCount := acb.retryCount + 1 }
        (.actionRetryReserved acb.actionId (acb.retryCount + 1))

theorem Revises.actionId {revised} (revises : Revises acb revised body) : revised.actionId = acb.actionId := by
  cases revises <;> rfl

/-- A running action enters any state that the table allows. -/
theorem Revises.of_running {actionId} (result error) (legal : (actionTransitions .running target).isSome)
    (tells : told body = some (actionId, target)) (same : acb.actionId = actionId) (running : acb.state = .running) :
    Revises acb { acb with state := target, result := result, error := error } body :=
  .enters result error (by simp [running, ActionState.Terminal]) (by rw [running]; exact legal) (by rw [same, tells])

/-- A method whose change is a revision of the action that it is called for. -/
def Revising (actionId : String)
    (change : ActionControlBlock → Except KernelError (ActionControlBlock × EventBody)) : Prop :=
  ∀ acb revised body, acb.actionId = actionId → change acb = .ok (revised, body) → Revises acb revised body

/-- Entering a state is a revision if the event tells of that state and nothing
but the result and the error is set besides. -/
theorem revising_enter {actionId} {set : ActionControlBlock → ActionControlBlock}
    (tells : told body = some (actionId, target))
    (sets : ∀ acb, ∃ result error, set acb = { acb with result := result, error := error }) :
    Revising actionId fun acb => do
      let moved ← applyActionTransition acb target
      return (set moved, body) := by
  intro acb revised told same changed
  obtain ⟨moved, applied, done⟩ := bind_ok.mp changed
  obtain ⟨live, legal, rfl⟩ := applyActionTransition_ok applied
  obtain ⟨result, error, shape⟩ := sets { acb with state := target }
  cases done
  rw [shape]
  exact .enters result error live legal (same ▸ tells)

theorem revising_intent (actionId : String) (leaseIds : List String)
    (fencingTokens : Option (List (String × Int))) : Revising actionId fun acb =>
      let marked := { acb with leaseIds, fencingTokens := fencingTokens.getD acb.fencingTokens }
      .ok (marked, .actionIntentDurable actionId leaseIds marked.fencingTokens) := by
  intro acb revised body same changed
  cases changed
  subst same
  exact .intends _ _

/-! ## Conditional methods -/

/-- A conditional method writes nothing, or it revises a running action that
nothing forbids to revise. -/
theorem conditionalTx_cases
    (ran : Session.transaction (conditionalTx actionId forbids change) store = (result, store')) :
    (store' = store ∧ result ≠ .ok none) ∨
    ∃ acb, getAction store actionId = some acb ∧ acb.state = .running ∧ forbids acb store = .ok none ∧
      result = .ok none ∧ store' = upsertProjection (change acb).1
        (appendEvents [⟨acb.pid, (change acb).2⟩] store) := by
  unfold Session.transaction conditionalTx at ran
  cases found : getAction store actionId with
  | none =>
    rw [found] at ran
    cases ran
    exact .inl ⟨rfl, by simp⟩
  | some acb =>
    rw [found] at ran
    by_cases running : acb.state = .running
    · cases forbidden : forbids acb store with
      | error failure =>
        simp only [running, ne_eq, not_true_eq_false, if_false, forbidden] at ran
        cases ran
        exact .inl ⟨rfl, by simp⟩
      | ok reason =>
        cases reason with
        | some reason =>
          simp only [running, ne_eq, not_true_eq_false, if_false, forbidden] at ran
          cases ran
          exact .inl ⟨rfl, by simp⟩
        | none =>
          simp only [running, ne_eq, not_true_eq_false, if_false, forbidden] at ran
          cases ran
          exact .inr ⟨acb, rfl, running, forbidden, rfl, rfl⟩
    · simp only [ne_eq, running, not_false_eq_true, if_true] at ran
      cases ran
      exact .inl ⟨rfl, by simp⟩

/-- A retry is reserved once, and for a pure action that may be retried only. -/
theorem retryForbidden_none (free : retryForbidden now budget acb store = .ok none) :
    acb.sideEffectClass = .pure ∧ acb.recoveryPolicy = .retry ∧ budget acb = none ∧
      validateFencingContract acb now store = .ok none := by
  unfold retryForbidden at free
  split at free
  · cases free
  rename_i permitted
  rw [not_or, not_not, not_not] at permitted
  split at free
  · cases free
  rename_i within
  exact ⟨permitted.1, permitted.2, within, free⟩

/-! ## Calls -/

inductive ActionCall where
  | submit (submission : Submission)
  | admitAction (actionId : String)
  | reject (actionId reason : String)
  | markIntentDurable (actionId : String) (leaseIds : List String)
      (fencingTokens : Option (List (String × Int)))
  | dispatch (actionId : String)
  | reserveRetryIfFenced (actionId : String) (now : Option Int)
  | validateReservedRetryIfFenced (actionId : String) (now : Option Int)
  | commit (actionId : String) (result : Dict)
  | commitIfFenced (actionId : String) (result : Dict) (now : Option Int)
  | fail (actionId : String) (error : Dict)
  | failIfRunning (actionId : String) (error : Dict)
  | markTimedOut (actionId : String)
  | markUncertain (actionId : String) (detail : Dict)
  | markUncertainIfRunning (actionId : String) (detail : Dict)
  | cancel (actionId : String)

/-- `now or datetime.now(UTC)` -/
def sampled : Option Int → KernelTask Int
  | some now => return now
  | none => readClock

def ActionCall.task : ActionCall → KernelTask Unit
  | .submit submission => do
    let _ ← ActionService.submit submission
  | .admitAction actionId => ActionService.admitAction actionId
  | .reject actionId reason => ActionService.reject actionId reason
  | .markIntentDurable actionId leaseIds fencingTokens =>
    ActionService.markIntentDurable actionId leaseIds fencingTokens
  | .dispatch actionId => ActionService.dispatch actionId
  | .reserveRetryIfFenced actionId now => do
    let now ← sampled now
    let _ ← ActionService.reserveRetryIfFenced actionId now
  | .validateReservedRetryIfFenced actionId now => do
    let now ← sampled now
    let _ ← ActionService.validateReservedRetryIfFenced actionId now
  | .commit actionId result => ActionService.commit actionId result
  | .commitIfFenced actionId result now => do
    let now ← sampled now
    let _ ← ActionService.commitIfFenced actionId result now
  | .fail actionId error => ActionService.fail actionId error
  | .failIfRunning actionId error => do
    let _ ← ActionService.failIfRunning actionId error
  | .markTimedOut actionId => ActionService.markTimedOut actionId
  | .markUncertain actionId detail => ActionService.markUncertain actionId detail
  | .markUncertainIfRunning actionId detail => do
    let _ ← ActionService.markUncertainIfRunning actionId detail
  | .cancel actionId => ActionService.cancel actionId

/-! ## The services together -/

inductive ServiceCall where
  | lease (call : LeaseCall)
  | action (call : ActionCall)

def ServiceCall.program : ServiceCall → Program World Label Unit
  | .lease call => call.task.launch
  | .action call => call.task.launch

def setClock (w : World) (now : Int) : World := { w with clock := now }

/-- Any number of calls on one database, while the clock moves. -/
def services : Machine World (Program World Label Unit) Int ServiceCall :=
  machine setClock ServiceCall.program

/-- A call that takes its steps without interruption. -/
def whole (index count : ℕ) (call : ServiceCall) : List (Event Int ServiceCall) :=
  .enter call :: List.replicate count (.step index)

/-! ## Calls under a discipline -/

section
/-- What a discipline has to grant so that every call keeps to it. -/
structure Supports (d : Discipline World Label) (holds : World → Prop) : Prop where
  relied : ∀ w w', holds w → d.rely w w' → holds w'
  idle : ∀ w, holds w → d.guarantee {} w w
  revise : ∀ w actionId change, holds w → Revising actionId change →
    SafeTask d (fun _ _ _ => True) (fun _ _ _ => True) (revise actionId change) w 0
  submit : ∀ w submission, holds w → SafeTask d (fun _ _ _ => True) (fun _ _ _ => True) (submit submission) w 0
  decide : ∀ w actionId forbids change, holds w → (∀ acb, acb.actionId = actionId → acb.state = .running →
      Revises acb (change acb).1 (change acb).2) →
    SafeTask d (fun _ _ _ => True) (fun _ _ _ => True)
      (transaction { access := .decide actionId } fun _ => conditionalTx actionId forbids change) w 0
  commit : ∀ w actionId result now, holds w →
    SafeTask d (fun _ _ _ => True) (fun _ _ _ => True) (commitIfFenced actionId result now) w 0

theorem discard_safe {task : KernelTask α} {w : World} (safe : SafeTask d Any Any task w 0) :
    SafeTask d Any Any (do let _ ← task) w 0 :=
  safe.bind fun _ _ _ _ => trivial

/-- A reading of the clock at the head of a method. -/
theorem Supports.sample (supports : Supports d holds) {w} (good : holds w) (now)
    {rest : Int → KernelTask Unit} (later : ∀ now w, holds w →
      SafeTask d Any Any (rest now) w 0) : SafeTask d Any Any (sampled now >>= rest) w 0 := by
  cases now with
  | some now => exact later now w good
  | none =>
    have read : SafeTask d (fun _ w held => holds w ∧ held = 0) Any readClock w 0 :=
      safe_readClock fun w' relied =>
        have good' := supports.relied w w' good relied
        ⟨supports.idle w' good', good', rfl⟩
    refine read.bind fun now w' held ⟨good', unspent⟩ => ?_
    subst unspent
    exact later now w' good'

/-- Every call keeps to the discipline. -/
theorem Supports.call (supports : Supports d holds) {w : World} (good : holds w) (call : ActionCall) :
    SafeTask d Any Any call.task w 0 := by
  cases call with
  | submit submission => exact discard_safe (supports.submit w submission good)
  | admitAction actionId | reject actionId reason =>
    exact supports.revise w actionId _ good (revising_enter rfl fun _ => ⟨_, _, rfl⟩)
  | markIntentDurable actionId leaseIds fencingTokens =>
    exact supports.revise w actionId _ good (revising_intent actionId leaseIds fencingTokens)
  | dispatch actionId =>
    exact supports.revise w actionId _ good (revising_enter rfl fun _ => ⟨_, _, rfl⟩)
  | reserveRetryIfFenced actionId now =>
    refine supports.sample good now fun now w good => discard_safe ?_
    exact supports.decide w actionId _ _ good fun acb same _ => same ▸ .reserves
  | validateReservedRetryIfFenced actionId now =>
    refine supports.sample good now fun now w good => discard_safe (safe_transaction ?_)
    intro w' result store' relied _ ran
    obtain rfl := Session.transaction_check ran
    exact ⟨supports.idle w' (supports.relied w w' good relied), 0, by simp, by cases result <;> trivial⟩
  | commit actionId result =>
    exact supports.revise w actionId _ good (revising_enter rfl fun _ => ⟨_, _, rfl⟩)
  | commitIfFenced actionId result now =>
    exact supports.sample good now fun now w good =>
      discard_safe (supports.commit w actionId result now good)
  | fail actionId error =>
    exact supports.revise w actionId _ good (revising_enter rfl fun _ => ⟨_, _, rfl⟩)
  | failIfRunning actionId error =>
    refine discard_safe ((supports.decide w actionId _ _ good ?_).bind fun _ _ _ _ => trivial)
    exact fun _ => .of_running _ _ rfl rfl
  | markTimedOut actionId | markUncertain actionId detail =>
    exact supports.revise w actionId _ good (revising_enter rfl fun _ => ⟨_, _, rfl⟩)
  | markUncertainIfRunning actionId detail =>
    refine discard_safe ((supports.decide w actionId _ _ good ?_).bind fun _ _ _ _ => trivial)
    exact fun _ => .of_running _ _ rfl rfl
  | cancel actionId =>
    exact supports.revise w actionId _ good (revising_enter rfl fun _ => ⟨_, _, rfl⟩)

end
end LongHorizonOS.ActionSpec
