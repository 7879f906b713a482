import LongHorizonOS.KernelRuns

/-! The table of the actions after a rebuild. A method and the handler of its
event agree on everything but the error, and on the error as long as the event
carries one: a timeout, a failure without an error and an uncertain outcome
without a detail are journalled without what the method has stored. -/
namespace LongHorizonOS.ActionReplay
open FailFast AtomicPrograms KernelModels KernelTasks List
open ActionService AgentKernel LeaseSpec ActionSpec JournalReplay KernelRuns

/-! ## Agreement -/

/-- The records agree on everything but the error, and on the error too if that
is asked for. -/
def Agrees (strict : Prop) (row record : ActionControlBlock) : Prop :=
  ∃ error, record = { row with error := error } ∧ (strict → error = row.error)

/-- The rows agree with what the journal tells. -/
def Synced (strict : Prop) (store : KernelStore) : Prop :=
  ∀ actionId, Option.Rel (Agrees strict) (getAction store actionId) (replayedAction store.journal actionId)

/-- The event makes of an agreeing record what the method makes of the row. -/
structure Faithful (strict : Prop) (acb revised : ActionControlBlock) (body : EventBody) : Prop where
  key : revised.actionId = acb.actionId
  subject : ∃ change, replayChange body = some (acb.actionId, change)
  agrees : ∀ record, Agrees strict acb record → Agrees strict (projected revised (some acb)) (amend body record)

section
variable {strict : Prop} {store : KernelStore} {acb : ActionControlBlock} {actionId : String}

theorem Synced.revision (synced : Synced strict store)
    (found : getAction store acb.actionId = some acb) (faithful : Faithful strict acb revised body) :
    Synced strict (upsertProjection revised (appendEvents [⟨pid, body⟩] store)) := by
  intro actionId
  obtain ⟨change, subject⟩ := faithful.subject
  have hears : replayedAction (upsertProjection revised (appendEvents [⟨pid, body⟩] store)).journal actionId =
      (replayedAction store.journal actionId).map (amend body) := by
    change replayedAction (store.journal ++ [_]) actionId = _
    rw [replayedAction_append, hearAction_changing (by rw [subject]; rfl)]
  rw [hears, getAction_upsertProjection, faithful.key, getAction_appendEvents, getAction_appendEvents]
  have before := synced actionId
  by_cases same : actionId = acb.actionId
  · subst same
    rw [if_pos rfl, found]
    rw [found] at before
    generalize replayedAction store.journal acb.actionId = known at before ⊢
    cases before with
    | some agrees => exact .some (faithful.agrees _ agrees)
  rw [if_neg same]
  cases known : replayedAction store.journal actionId with
  | none => rw [known] at before; exact before
  | some record =>
    have apart : acb.actionId ≠ record.actionId := by
      rw [replayedAction_actionId known]
      exact Ne.symm same
    have idle : amend body record = record := by
      rw [amend, subject]
      simp only [apart, if_false]
    rw [Option.map_some, idle, ← known]
    exact before

theorem Synced.submission (synced : Synced strict store) :
    Synced strict (upsertProjection acb (appendEvents [⟨pid, .actionSubmitted acb⟩] store)) := by
  intro actionId
  have hears : replayedAction (upsertProjection acb (appendEvents [⟨pid, .actionSubmitted acb⟩] store)).journal
      actionId = if actionId = acb.actionId then
        some (projected acb (replayedAction store.journal actionId)) else replayedAction store.journal actionId := by
    change replayedAction (store.journal ++ [_]) actionId = _
    rw [replayedAction_append]
    rfl
  rw [hears, getAction_upsertProjection, getAction_appendEvents, getAction_appendEvents]
  have before := synced actionId
  by_cases same : actionId = acb.actionId
  · subst same
    rw [if_pos rfl, if_pos rfl]
    refine .some ?_
    generalize getAction store acb.actionId = row, replayedAction store.journal acb.actionId = known at before ⊢
    cases before with
    | none => exact ⟨_, rfl, fun _ => rfl⟩
    | some agrees =>
      obtain ⟨error, rfl, _⟩ := agrees
      exact ⟨_, rfl, fun _ => rfl⟩
  · rw [if_neg same, if_neg same]
    exact before

/-! ## Methods -/

theorem keeps_revise (faithful : ∀ acb revised body, acb.actionId = actionId → change acb = .ok (revised, body) →
      Faithful strict acb revised body) :
    KeepsTask solo (fun w : World => Synced strict w.store) (revise actionId change) := by
  intro w held synced
  refine (solo_query _).bind fun found w' held ⟨read, same⟩ => ?_
  subst same
  cases found with
  | none => exact synced
  | some acb =>
    have key := getAction_actionId read.symm
    refine safe_compute (fun _ => synced) ?_
    rintro ⟨revised, body⟩ changed
    refine solo_journalled fun _ => ?_
    exact synced.revision (key.symm ▸ read.symm) (faithful acb revised body key changed)

theorem keeps_enter {target} {body} {set} (faithful : ∀ acb, acb.actionId = actionId →
    Faithful strict acb (set { acb with state := target }) body) :
    KeepsTask solo (fun w : World => Synced strict w.store) (enter actionId target body set) := by
  refine keeps_revise fun acb revised told key changed => ?_
  obtain ⟨moved, applied, done⟩ := bind_ok.mp changed
  obtain ⟨_, _, rfl⟩ := applyActionTransition_ok applied
  cases done
  exact faithful acb key

theorem keeps_conditional
    (faithful : ∀ acb, acb.actionId = actionId → Faithful strict acb (change acb).1 (change acb).2) :
    KeepsTask solo (fun w : World => Synced strict w.store)
    (transaction label fun _ => conditionalTx actionId forbids change) := by
  intro w held synced
  refine safe_transaction fun w' result store' same _ ran => ⟨trivial, 0, by simp [solo], ?_⟩
  subst same
  have kept : Synced strict store' := by
    rcases conditionalTx_cases ran with ⟨rfl, _⟩ | ⟨acb, found, _, _, _, rfl⟩
    · exact synced
    have key := getAction_actionId found
    exact synced.revision (key.symm ▸ found) (faithful acb key)
  cases result <;> exact kept

end

/-- What the call journals has the error that it stores. -/
def Telling : ActionCall → Prop
  | .markTimedOut _ => False
  | .fail _ error | .failIfRunning _ error => error ≠ []
  | .markUncertain _ detail => detail ≠ []
  | _ => True

section
variable {strict : Prop} {actionId : String} {acb revised : ActionControlBlock} {body : EventBody}

/-- A failure or an uncertain outcome, whose error the event carries or not. -/
theorem faithful_error {state} {error told} (known : acb.actionId = actionId)
    (change : replayChange body = some (actionId, fun acb => { acb with state := state, error := some told }))
    (written : revised = { acb with state := state, error := some error })
    (same : strict → told = error) : Faithful strict acb revised body := by
  subst written known
  refine ⟨rfl, ⟨_, change⟩, fun record agrees => ?_⟩
  obtain ⟨before, rfl, _⟩ := agrees
  refine ⟨storedDict (some told), ?_, fun exact => by rw [same exact]; rfl⟩
  rw [amend, change]
  simp only [if_true]
  rfl

/-- The other changes do not write the error. -/
theorem faithful_rest (known : acb.actionId = actionId)
    (subject : replayChange body = some (actionId, change)) (key : revised.actionId = acb.actionId)
    (error : revised.error = acb.error)
    (rest : ∀ error, projected (change { acb with error := error }) (some { acb with error := error }) =
      { projected revised (some acb) with error := storedDict error }) :
    Faithful strict acb revised body := by
  subst known
  refine ⟨key, ⟨_, subject⟩, fun record agrees => ?_⟩
  obtain ⟨before, rfl, same⟩ := agrees
  refine ⟨storedDict before, ?_, fun exact => ?_⟩
  · rw [amend, subject]
    simp only [if_true]
    exact rest before
  · rw [same exact, ← error]
    rfl

end

theorem replayError_filled (filled : error ≠ []) :
    replayChange.replayError error reason = error := if_neg filled

theorem uncertainDetail_filled : uncertainDetail detail ≠ [] := by
  unfold uncertainDetail
  split
  · simp
  assumption

theorem uncertainDetail_eq (filled : detail ≠ []) : uncertainDetail detail = detail :=
  if_neg filled

theorem keeps_sampled : KeepsTask solo I (sampled now) := by
  cases now with
  | some now => exact .pure _
  | none => exact fun w held kept => safe_readClock fun w' same => ⟨trivial, by rw [same]; exact kept⟩

variable {strict : Prop}

theorem keeps_actionCall {call} (telling : strict → Telling call) :
    KeepsTask solo (fun w : World => Synced strict w.store) call.task := by
  cases call with
  | submit submission =>
    refine .bind (fun w held synced => ?_) fun _ => .pure _
    refine (solo_drawIds 1).bind fun draw w' held same => ?_
    subst same
    refine solo_readClock.bind fun now w' held ⟨_, same⟩ => ?_
    subst same
    refine solo_then fun held => ?_
    refine solo_then fun held => ?_
    exact synced.submission
  | admitAction actionId =>
    exact keeps_enter fun acb key => faithful_rest key rfl rfl rfl fun _ => rfl
  | reject actionId reason =>
    exact keeps_enter fun acb key => faithful_error key rfl rfl fun _ => rfl
  | markIntentDurable actionId leaseIds fencingTokens =>
    refine keeps_revise fun acb revised body key changed => ?_
    cases changed
    exact faithful_rest key rfl rfl rfl fun _ => rfl
  | dispatch actionId =>
    exact keeps_enter fun acb key => faithful_rest key rfl rfl rfl fun _ => rfl
  | reserveRetryIfFenced actionId now =>
    refine keeps_sampled.bind fun now => (keeps_conditional ?_).bind fun _ => .pure _
    refine fun acb key => faithful_rest key rfl rfl rfl fun error => ?_
    have counted : max (max acb.retryCount (acb.retryCount + 1)) 1 = acb.retryCount + 1 := by omega
    simp only [projected, counted]
  | validateReservedRetryIfFenced actionId now =>
    refine keeps_sampled.bind fun now => .bind ?_ fun _ => .pure _
    intro w held synced
    refine safe_transaction fun w' result store' same _ ran => ⟨trivial, 0, by simp [solo], ?_⟩
    subst same
    obtain rfl := Session.transaction_check ran
    cases result <;> exact synced
  | commit actionId result =>
    exact keeps_enter fun acb key => faithful_rest key rfl rfl rfl fun _ => rfl
  | commitIfFenced actionId result now =>
    refine keeps_sampled.bind fun now => (keeps_conditional ?_).bind fun _ => .pure _
    exact fun acb key => faithful_rest key rfl rfl rfl fun _ => rfl
  | fail actionId error =>
    exact keeps_enter fun acb key => faithful_error key rfl rfl fun exact =>
      replayError_filled (telling exact)
  | failIfRunning actionId error =>
    refine ((keeps_conditional ?_).bind fun _ => .pure _).bind fun _ => .pure _
    exact fun acb key => faithful_error key rfl rfl fun exact => replayError_filled (telling exact)
  | markTimedOut actionId =>
    exact keeps_enter fun acb key => faithful_error key rfl rfl fun exact => absurd (telling exact) id
  | markUncertain actionId detail =>
    refine keeps_enter fun acb key => faithful_error key rfl rfl fun exact => ?_
    rw [replayError_filled (telling exact), uncertainDetail_eq (telling exact)]
  | markUncertainIfRunning actionId detail =>
    refine ((keeps_conditional ?_).bind fun _ => .pure _).bind fun _ => .pure _
    exact fun acb key => faithful_error key rfl rfl fun _ =>
      replayError_filled uncertainDetail_filled
  | cancel actionId =>
    exact keeps_enter fun acb key => faithful_rest key rfl rfl rfl fun _ => rfl

/-! ## Runs -/

/-- Steps of the other services leave the actions alone. -/
theorem Synced.untouched {services} {w w' : World} (outside : Service.action ∉ services)
    (synced : Synced strict w.store) (touches : Touches services w.store w'.store) : Synced strict w'.store := by
  intro actionId
  have silent : Journals actionless w.store w'.store := touches.journals.mono fun body inside => by
    cases body <;> first
      | rfl
      | exact absurd (inside .action rfl) outside
  rw [replayedAction_actionless silent, getAction, touches.actions outside]
  exact synced actionId

theorem keeps_call (call : KernelCall) (telling : strict → ∀ action, call = .action action → Telling action) :
    KeepsTask solo (fun w : World => Synced strict w.store) call.task := by
  cases call with
  | action call => exact keeps_actionCall fun exact => telling exact call rfl
  | _ =>
    exact keeps_untouched .action _ (by simp [KernelCall.services]) fun _ _ _ outside synced touches =>
      Synced.untouched outside synced touches

theorem synced_run (telling : strict → ∀ turn ∈ turns, ∀ action, turn.2 = .action action → Telling action) :
    Synced strict (runCalls turns).store :=
  runCalls_keeps (fun _ => .none) (fun _ _ synced => synced) fun turn member =>
    keeps_call turn.2 fun exact => telling exact turn member

/-- After every run of calls in which no action times out, a failure comes with
an error and an uncertain outcome with a detail, the rebuilt table has the same
row for every action. -/
theorem replayed_actions_agree {turns : List (Int × KernelCall)}
    (telling : ∀ turn ∈ turns, ∀ action, turn.2 = .action action → Telling action) (actionId : String) :
    getAction (rebuild (runCalls turns).store) actionId = getAction (runCalls turns).store actionId := by
  rw [getAction_rebuild]
  have synced : Synced True (runCalls turns).store := synced_run fun _ => telling
  have agrees := synced actionId
  generalize getAction (runCalls turns).store actionId = row,
    replayedAction (runCalls turns).store.journal actionId = record at agrees ⊢
  cases agrees with
  | none => rfl
  | some agrees =>
    obtain ⟨error, rfl, same⟩ := agrees
    rw [same trivial]

/-- An action that is submitted, admitted and dispatched. -/
def dispatched : List (Int × KernelCall) :=
  [(0, .action (.submit { pid := "p", deviceType := "tool", operation := "read", actionId := some "a" })),
    (1, .action (.admitAction "a")), (2, .action (.dispatch "a"))]

/-- A timeout is stored with its reason and replayed with another. -/
theorem replayed_timeout_differs :
    (getAction (runCalls (dispatched ++ [(3, .action (.markTimedOut "a"))])).store "a").map
      (fun acb => acb.error) = some (some [("reason", .str "timeout")]) ∧
    (getAction (rebuild (runCalls (dispatched ++ [(3, .action (.markTimedOut "a"))])).store) "a").map
      (fun acb => acb.error) = some (some [("reason", .str "action_failed")]) := by
  decide +kernel

/-- A failure with an error is replayed as it was stored. -/
theorem replayed_failure_agrees :
    (getAction (rebuild (runCalls (dispatched ++ [(3, .action (.fail "a" [("reason", .str "disk")]))])).store)
        "a") =
      getAction (runCalls (dispatched ++ [(3, .action (.fail "a" [("reason", .str "disk")]))])).store "a" ∧
    (getAction (runCalls (dispatched ++ [(3, .action (.fail "a" [("reason", .str "disk")]))])).store "a").isSome := by
  refine ⟨replayed_actions_agree ?_ "a", by decide +kernel⟩
  intro turn member action same
  simp only [dispatched, cons_append, nil_append, mem_cons, not_mem_nil, or_false] at member
  rcases member with rfl | rfl | rfl | rfl <;> cases same <;> simp [Telling]

end LongHorizonOS.ActionReplay
