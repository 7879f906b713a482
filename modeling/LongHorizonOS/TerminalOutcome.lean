import LongHorizonOS.ActionSpec

/-! One terminal outcome per action. The calls of the action service interleave
by their single accesses. A method of three accesses decides on the record that
it has read, so what it journals and writes is right as long as the action is
still as it was read, and as long as nobody is between the journal entry and
the projection of an earlier call. -/
namespace LongHorizonOS.TerminalOutcome
open FailFast AtomicPrograms Interleaving KernelModels KernelTasks List
open LeaseService ActionService LeaseSpec ActionSpec LeaseExclusion

/-! ## Terminal events -/

def terminalEvent : EventBody → Option String
  | .actionCommitted actionId _ | .actionFailed actionId _ | .actionCancelled actionId
  | .actionTimedOut actionId | .actionUncertain actionId _ | .actionRejected actionId _ => some actionId
  | _ => none

def terminalEvents (journal : List KernelEvent) (actionId : String) : List KernelEvent :=
  journal.filter fun event => decide (terminalEvent event.body = some actionId)

/-- An event is terminal when it puts the action into a terminal state. -/
theorem terminalEvent_eq : terminalEvent body = (told body).bind fun (actionId, state) =>
    if state.Terminal then some actionId else none := by
  cases body <;> rfl

/-- What an event adds to what is known of the state of an action. -/
def hear (actionId : String) (known : Option ActionState) (event : KernelEvent) : Option ActionState :=
  match told event.body with
  | some (subject, state) => if subject = actionId then some state else known
  | none => known

/-- The state of the action that the journal tells of. -/
def journalled (journal : List KernelEvent) (actionId : String) : Option ActionState :=
  journal.foldl (hear actionId) none

/-- No action has two terminal events, and one that has one is in a terminal
state as far as the journal tells. -/
def Single (journal : List KernelEvent) : Prop :=
  ∀ actionId, (terminalEvents journal actionId).length ≤ 1 ∧
    (terminalEvents journal actionId ≠ [] → ∃ state, journalled journal actionId = some state ∧ state.Terminal)

theorem journalled_append :
    journalled (journal ++ [event]) actionId = hear actionId (journalled journal actionId) event := by
  rw [journalled, foldl_append]
  rfl

theorem terminalEvents_append (event) :
    terminalEvents (journal ++ [event]) actionId = terminalEvents journal actionId ++
    if terminalEvent event.body = some actionId then [event] else [] := by
  rw [terminalEvents, filter_append, terminalEvents, filter_singleton]
  simp

theorem single_append_silent (silent : told event.body = none) (single : Single journal) :
    Single (journal ++ [event]) := by
  intro actionId
  have none : terminalEvent event.body = none := by rw [terminalEvent_eq, silent]; rfl
  rw [journalled_append, terminalEvents_append, hear, silent, none]
  simpa using single actionId

/-- One more event of an action that the journal does not tell to be terminal. -/
theorem single_append (tells : told event.body = some (actionId, state))
    (live : ∀ known, journalled journal actionId = some known → ¬ known.Terminal)
    (single : Single journal) : Single (journal ++ [event]) := by
  intro other
  have terminal : terminalEvent event.body = if state.Terminal then some actionId else none := by
    rw [terminalEvent_eq, tells]
    rfl
  rw [journalled_append, terminalEvents_append, hear, tells, terminal]
  by_cases same : actionId = other
  · subst same
    have empty : terminalEvents journal actionId = [] := by
      by_contra some
      obtain ⟨known, told, ended⟩ := (single actionId).2 some
      exact live known told ended
    by_cases ends : state.Terminal
    · simp [empty, ends]
    simp [empty, ends]
  · have outside : ¬ (if state.Terminal then some actionId else none) = some other := by
      split <;> simp [same]
    simpa [same, outside] using single other

theorem single_journals
    (journals : Journals (fun body => told body = none) store store') (single : Single store.journal) :
    Single store'.journal := by
  obtain ⟨events, grown, silent⟩ := journals
  rw [grown]
  clear grown
  induction events using List.reverseRecOn with
  | nil => simpa using single
  | append_singleton events event ih =>
    rw [← append_assoc]
    exact single_append_silent (silent event (by simp)) (ih fun other member => silent other (by simp [member]))

/-! ## Rows -/

/-- No action leaves a terminal state. -/
def Absorbing (store store' : KernelStore) : Prop :=
  ∀ actionId acb, getAction store actionId = some acb → acb.state.Terminal →
    ∃ acb', getAction store' actionId = some acb' ∧ acb'.state = acb.state

theorem absorbing_of_eq (actions : store'.actions = store.actions) :
    Absorbing store store' := fun actionId acb found _ =>
  ⟨acb, by rw [getAction, actions]; exact found, rfl⟩

/-- The journal and the row of the action agree. -/
def Settled (store : KernelStore) (actionId : String) : Prop :=
  journalled store.journal actionId = (getAction store actionId).map ActionControlBlock.state

instance (store : KernelStore) (actionId : String) : Decidable (Settled store actionId) :=
  inferInstanceAs (Decidable (_ = _))

/-- A revision of a row as it stands. -/
theorem absorbing_upsert (found : getAction store acb.actionId = some acb)
    (revises : Revises acb revised body) : Absorbing store (upsertProjection revised store) := by
  intro actionId row stored ended
  rw [getAction_upsertProjection, revises.actionId]
  by_cases same : actionId = acb.actionId
  · rw [if_pos same]
    rw [same, found] at stored
    cases stored
    refine ⟨_, rfl, ?_⟩
    rw [projected_state]
    cases revises with
    | enters result error live legal tells => exact absurd ended live
    | intends leaseIds fencingTokens => rfl
    | reserves => rfl
  · rw [if_neg same]
    exact ⟨row, stored, rfl⟩

theorem single_revises (settled : journalled store.journal acb.actionId = some acb.state)
    (revises : Revises acb revised body) (single : Single store.journal) :
    Single (appendEvents [⟨pid, body⟩] store).journal := by
  cases revises with
  | enters result error live legal tells =>
    refine single_append tells (fun known told => ?_) single
    rw [settled] at told
    cases told
    exact live
  | intends leaseIds fencingTokens => exact single_append_silent rfl single
  | reserves => exact single_append_silent rfl single

/-! ## The discipline -/

/-- Whoever journals or writes finds the action as it was read, and whoever
journals finds what was journalled before in the row. -/
def Undisturbed (label : Label) (w : World) : Prop :=
  match label.access with
  | .append actionId found => getAction w.store actionId = found ∧ Settled w.store actionId
  | .upsert actionId found _ => getAction w.store actionId = found
  | .decide actionId => Settled w.store actionId
  | .commit actionId _ => Settled w.store actionId
  | _ => True

instance : ∀ label w, Decidable (Undisturbed label w)
  | ⟨.append actionId found, _⟩, w =>
    inferInstanceAs (Decidable (getAction w.store actionId = found ∧ Settled w.store actionId))
  | ⟨.upsert actionId found _, _⟩, w => inferInstanceAs (Decidable (getAction w.store actionId = found))
  | ⟨.decide actionId, _⟩, w => inferInstanceAs (Decidable (Settled w.store actionId))
  | ⟨.commit actionId _, _⟩, w => inferInstanceAs (Decidable (Settled w.store actionId))
  | ⟨.other, _⟩, _ | ⟨.acquire _, _⟩, _ | ⟨.dispatch _, _⟩, _ => isTrue trivial

def discipline : Discipline World Label where
  rely _ w' := Single w'.store.journal
  allowed := Undisturbed
  guarantee _ w w' := Single w'.store.journal ∧ Absorbing w.store w'.store

section
theorem guarantee_self (single : Single w.store.journal) : discipline.guarantee label w w :=
  ⟨single, absorbing_of_eq rfl⟩

theorem safe_revise (revising : Revising actionId change) :
    SafeTask discipline Any Any (revise actionId change) w 0 := by
  have read : SafeTask discipline (fun found _ held => held = 0 ∧ ∀ acb, found = some acb →
      acb.actionId = actionId) Any (query fun store => getAction store actionId) w 0 :=
    safe_query fun w' single => ⟨guarantee_self single, rfl, fun acb found => getAction_actionId found⟩
  refine read.bind fun found w held ⟨unspent, known⟩ => ?_
  subst unspent
  cases found with
  | none => trivial
  | some acb =>
    obtain rfl := known acb rfl
    refine safe_compute (fun _ => trivial) ?_
    rintro ⟨revised, body⟩ changed
    have revises := revising acb revised body rfl changed
    refine .andThen (safe_update fun w' single ⟨same, settled⟩ => ⟨⟨?_, absorbing_of_eq rfl⟩, 0,
      by simp [discipline], rfl⟩) fun _ w => ?_
    · rw [Settled, same] at settled
      exact single_revises settled revises single
    refine safe_update fun w' single same => ⟨⟨single, ?_⟩, 0, by simp [discipline], trivial⟩
    exact absorbing_upsert same revises

theorem safe_submit (submission) : SafeTask discipline Any Any (submit submission) w 0 := by
  refine .andThen (.step fun w' single _ =>
    ⟨⟨single, absorbing_of_eq rfl⟩, 0, by simp [discipline], rfl⟩) fun draw w => ?_
  refine .andThen (safe_readClock fun w' single => ⟨guarantee_self single, rfl⟩) fun now w => ?_
  generalize recorded : submission.record (submission.idOr (draw 0)) now = acb
  refine .andThen (safe_update fun w' single ⟨absent, settled⟩ => ⟨⟨?_, absorbing_of_eq rfl⟩, 0,
    by simp [discipline], rfl⟩) fun _ w => ?_
  · rw [Settled, absent] at settled
    exact single_append rfl (fun known told => by rw [settled] at told; cases told) single
  refine .andThen (safe_update fun w' single absent => ⟨⟨single, fun actionId row stored _ => ?_⟩, 0,
    by simp [discipline], rfl⟩) fun _ _ => trivial
  have absent : getAction w'.store acb.actionId = none := absent
  have apart : actionId ≠ acb.actionId := by
    rintro rfl
    rw [stored] at absent
    cases absent
  exact ⟨row, by rw [getAction_upsertProjection, if_neg apart]; exact stored, rfl⟩

theorem guarantee_conditionalTx (single : Single w.store.journal) (settled : Settled w.store actionId)
    (revises : ∀ acb, acb.actionId = actionId → acb.state = .running → Revises acb (change acb).1 (change acb).2)
    (ran : Session.transaction (conditionalTx actionId forbids change) w.store = (result, store')) :
    discipline.guarantee label w { w with store := store' } := by
  rcases conditionalTx_cases ran with ⟨rfl, _⟩ | ⟨acb, found, running, _, _, rfl⟩
  · exact guarantee_self single
  obtain rfl := getAction_actionId found
  have revised := revises acb rfl running
  rw [Settled, found] at settled
  have found' : getAction (appendEvents [⟨acb.pid, (change acb).2⟩] w.store) acb.actionId = some acb := found
  exact ⟨single_revises settled revised single, absorbing_upsert found' revised⟩

end

theorem supports : Supports discipline fun w => Single w.store.journal where
  relied _ _ _ relied := relied
  idle _ single := guarantee_self single
  revise _ _ _ _ revising := safe_revise revising
  submit _ submission _ := safe_submit submission
  decide _ _ _ _ _ revises := safe_transaction fun _ result _ single settled ran =>
    ⟨guarantee_conditionalTx single settled revises ran, 0, by simp [discipline], by cases result <;> trivial⟩
  commit _ actionId _ _ _ := safe_transaction fun _ outcome _ single settled ran =>
    ⟨guarantee_conditionalTx single settled (fun _ => Revises.of_running _ _ rfl rfl) ran, 0, by simp [discipline],
      by cases outcome <;> trivial⟩

/-! ## Calls of the lease service -/

/-- The step says nothing of actions. -/
def Silent (_ : Label) (w w' : World) : Prop :=
  Journals (fun body => told body = none) w.store w'.store ∧ w'.store.actions = w.store.actions

theorem Silent.of_lease (step : LeaseStep label w w') : Silent label w w' := by
  obtain ⟨_, store', frame, rfl⟩ := step
  refine ⟨frame.journals.mono fun body kind => ?_, frame.elsewhere.actions⟩
  cases body <;> first | rfl | cases kind

theorem silent_leaseCall (call : LeaseCall) : AlwaysTask Silent call.task := by
  have lapses : ∀ {α : Type} {task : KernelTask α}, AlwaysTask (OnStore Lapse) task →
      AlwaysTask Silent task := fun lapses =>
    .mono (fun _ _ _ step => Silent.of_lease (.of_lapse step)) lapses
  cases call with
  | acquire pid claims draw ttl =>
    exact .mono (fun _ _ _ => Silent.of_lease) always_atomicAcquire
  | release leaseIds => exact (lapses always_release).bind fun _ => .pure _
  | releaseAllForPid pid =>
    exact (lapses always_releaseAllForPid).bind fun _ => .pure _
  | renew leaseId ttl => exact (lapses always_renew).bind fun _ => .pure _
  | reclaimExpired now =>
    exact (lapses always_reclaimExpired).bind fun _ => .pure _
  | processes rows =>
    refine (always_update fun w => ?_).bind fun _ => .pure _
    exact ⟨⟨[], by simp, by simp⟩, rfl⟩

/-! ## Runs -/

theorem admits : discipline.Admits (fun w => Single w.store.journal) setClock ServiceCall.program where
  trans _ _ _ _ second := second
  guaranteed _ _ _ _ guaranteed := ⟨guaranteed.1, guaranteed.1⟩
  acts _ _ single := ⟨single, single, le_rfl⟩
  self _ single := single
  enters w call single := by
    cases call with
    | lease call =>
      have safe : SafeTask discipline Any Any call.task w 0 :=
        .of_always (silent_leaseCall call) trivial fun _ _ _ _ _ single _ ⟨journals, actions⟩ =>
          ⟨⟨single_journals journals single, absorbing_of_eq actions⟩, le_rfl, trivial⟩
      exact safe.launch
    | action call => exact (supports.call single call).launch

/-- In every interleaving whose methods find the action as they have read it,
and whose journal and rows agree wherever something is journalled, no action
has two terminal events and none leaves its terminal state. -/
theorem undisturbed_outcomes_are_single {events : List (Event Int ServiceCall)} (undisturbed : services.Meets
      (fun _ w client => ∀ label, client.label? = some label → Undisturbed label w) {} events) :
    (∀ actionId, (terminalEvents (services.conduct {} events).shared.store.journal actionId).length ≤ 1) ∧
    ∀ before event later, events = before ++ event :: later →
      Absorbing (services.conduct {} before).shared.store
        (services.conduct {} (before ++ [event])).shared.store := by
  have empty : Single ({} : World).store.journal := fun actionId => ⟨by simp [terminalEvents], by simp [terminalEvents]⟩
  refine ⟨fun actionId => ((conduct_accounted admits empty undisturbed).1 actionId).1, ?_⟩
  intro before event later split
  rw [Machine.conduct_append]
  cases event with
  | act now => exact absorbing_of_eq rfl
  | enter call => exact absorbing_of_eq rfl
  | step index =>
    rw [Machine.next]
    cases turn : (services.conduct {} before).clients[index]? with
    | none => exact absorbing_of_eq rfl
    | some client =>
      cases client with
      | ret a => exact absorbing_of_eq rfl
      | step label write next => exact (conduct_step admits empty undisturbed split turn).2.2

/-! ## Schedules -/

/-- An action is brought to `RUNNING`. -/
def untilRunning : List (Event Int ServiceCall) :=
  whole 0 4 (.action (.submit { pid := "p", deviceType := "tool/mock", operation := "read", actionId := some "a" })) ++
  whole 1 3 (.action (.admitAction "a")) ++ whole 2 3 (.action (.dispatch "a"))

/-- A commit between the reading of a cancellation and its journal entry. -/
def committedWhileCancelled : List (Event Int ServiceCall) :=
  untilRunning ++ .enter (.action (.cancel "a")) :: .step 3 ::
    whole 4 2 (.action (.commitIfFenced "a" [] none)) ++ [.step 3]

/-- The action is journalled to be committed and cancelled, and its row leaves
`COMMITTED` for `CANCELLED`. -/
theorem racing_cancel_gives_second_outcome :
    (terminalEvents (services.conduct {} committedWhileCancelled).shared.store.journal "a").length = 2 ∧
    ¬ Absorbing (services.conduct {} committedWhileCancelled).shared.store
      (services.conduct {} (committedWhileCancelled ++ [.step 3])).shared.store := by
  refine ⟨by decide +kernel, fun absorbing => ?_⟩
  have before : (getAction (services.conduct {} committedWhileCancelled).shared.store "a").map
      ActionControlBlock.state = some .committed := by decide +kernel
  have after : (getAction (services.conduct {} (committedWhileCancelled ++ [.step 3])).shared.store "a").map
      ActionControlBlock.state = some .cancelled := by decide +kernel
  obtain ⟨acb, found, committed⟩ := Option.map_eq_some_iff.mp before
  obtain ⟨acb', found', same⟩ := absorbing "a" acb found (by simp [committed, ActionState.Terminal])
  rw [found', Option.map_some, same, committed] at after
  cases after

/-- The same commit without the cancellation. -/
def committed : List (Event Int ServiceCall) :=
  untilRunning ++ whole 3 2 (.action (.commitIfFenced "a" [] none))

theorem undisturbed_commit_is_single :
    (terminalEvents (services.conduct {} committed).shared.store.journal "a").length ≤ 1 ∧
    terminalEvents (services.conduct {} committed).shared.store.journal "a" ≠ [] := by
  have undisturbed : services.Meets
      (fun _ w client => ∀ label, client.label? = some label → Undisturbed label w) {} committed :=
    meets_of_tests (by decide +kernel)
  exact ⟨(undisturbed_outcomes_are_single undisturbed).1 "a", by decide +kernel⟩

end LongHorizonOS.TerminalOutcome
