import LongHorizonOS.JournalReplay

/-! How often a driver is told to act. Passes of any kernels over the pending
and over the running actions interleave by their single accesses, and the
tables may be rebuilt from the journal at any time. A call of a driver follows
either the row's step to `RUNNING` or the reservation of the one retry; for
each action both are counted against the calls. -/
namespace LongHorizonOS.AtMostOnce
open KeyedRows FailFast AtomicPrograms Interleaving KernelModels KernelTasks List Option
open LeaseService ActionService SignalService AgentKernel
open LeaseSpec ActionSpec JournalReplay

/-! ## The record of an action -/

/-- The action has left the states before its first dispatch. -/
def Begun (state : ActionState) : Prop := state ≠ .submitted ∧ state ≠ .admitted

instance : DecidablePred Begun := fun _ => inferInstanceAs (Decidable (_ ∧ _))

/-- A retry is permitted. -/
def Retriable (acb : ActionControlBlock) : Prop :=
  acb.sideEffectClass = .pure ∧ acb.recoveryPolicy = .retry

instance : DecidablePred Retriable := fun _ => inferInstanceAs (Decidable (_ ∧ _))

theorem begun_of_terminal {state} (ended : state.Terminal) : Begun state := by
  cases state <;> simp_all [Begun, ActionState.Terminal]

/-- Both records have the class and the policy of one submission. -/
def Alike (record row : ActionControlBlock) : Prop :=
  record.sideEffectClass = row.sideEffectClass ∧ record.recoveryPolicy = row.recoveryPolicy

theorem Alike.retriable {record row} (alike : Alike record row) : Retriable record ↔ Retriable row := by
  rw [Retriable, Retriable, alike.1, alike.2]

theorem Alike.amend (body) (acb) : Alike (amend body acb) acb :=
  have fixed := amend_fixed body acb
  ⟨fixed.2.2.1, fixed.2.2.2.1⟩

theorem Alike.trans {a b c} (first : Alike a b) (second : Alike b c) : Alike a c :=
  ⟨first.1.trans second.1, first.2.trans second.2⟩

section
variable (actionId : String)

/-- The journal tells of the action, and not less than its row does. -/
def Recorded (store : KernelStore) : Prop :=
  ∀ row, getAction store actionId = some row →
    ∃ record, replayedAction store.journal actionId = some record ∧ Alike record row ∧
      (Begun row.state → Begun record.state) ∧
      (¬ row.state.Terminal → row.retryCount = 0 → record.retryCount = 0)

/-- What the journal tells of the action is not taken back. -/
def Grows (store store' : KernelStore) : Prop :=
  ∀ record, replayedAction store.journal actionId = some record →
    ∃ record', replayedAction store'.journal actionId = some record' ∧ Alike record' record ∧
      (Begun record.state → Begun record'.state)

def begun (row : Option ActionControlBlock) : ℤ :=
  if row.any fun acb => decide (Begun acb.state) then 1 else 0

def reserved (record : Option ActionControlBlock) : ℤ :=
  if record.any fun acb => decide (Retriable acb ∧ 1 ≤ acb.retryCount) then 1 else 0

/-- How many calls of the driver the tables and the journal account for. -/
def level (store : KernelStore) : ℤ :=
  begun (getAction store actionId) + reserved (replayedAction store.journal actionId)

end

section
variable {store store' after : KernelStore}

theorem Grows.refl : Grows actionId store store := fun record told =>
  ⟨record, told, ⟨rfl, rfl⟩, id⟩

theorem Grows.trans (first : Grows actionId store store') (second : Grows actionId store' after) :
    Grows actionId store after := by
  intro record told
  obtain ⟨record', told', alike, begins⟩ := first record told
  obtain ⟨record'', told'', alike', begins'⟩ := second record' told'
  exact ⟨record'', told'', alike'.trans alike, fun started => begins' (begins started)⟩

theorem begun_le_one (row) : 0 ≤ begun row ∧ begun row ≤ 1 := by
  unfold begun
  split <;> simp

theorem reserved_le_one (record) : 0 ≤ reserved record ∧ reserved record ≤ 1 := by
  unfold reserved
  split <;> simp

/-- What one step does to the record, without taking a call back. -/
structure Kept (actionId : String) (store store' : KernelStore) : Prop where
  recorded : Recorded actionId store'
  grows : Grows actionId store store'
  level : level actionId store ≤ level actionId store'

theorem Kept.trans (first : Kept actionId store store') (second : Kept actionId store' after) :
    Kept actionId store after :=
  ⟨second.recorded, first.grows.trans second.grows, first.level.trans second.level⟩

/-- Neither the row nor what the journal tells of the action changes. -/
theorem Kept.of_same (row : getAction store' actionId = getAction store actionId)
    (record : replayedAction store'.journal actionId = replayedAction store.journal actionId)
    (recorded : Recorded actionId store) : Kept actionId store store' where
  recorded := by
    unfold Recorded
    rw [row, record]
    exact recorded
  grows := by
    unfold Grows
    rw [record]
    exact Grows.refl
  level := by rw [AtMostOnce.level, AtMostOnce.level, row, record]

/-! ## One step of an action -/

/-- The journal tells that an action has begun. -/
theorem Kept.journal {pid subject body} {target} (tells : told body = some (subject, target))
    (begins : Begun target) (recorded : Recorded actionId store) :
    Kept actionId store (appendEvents [⟨pid, body⟩] store) := by
  have hears : replayedAction (appendEvents [⟨pid, body⟩] store).journal actionId =
      (replayedAction store.journal actionId).map (amend body) := by
    rw [appendEvents, replayedAction_append, hearAction_told tells begins.1]
  have state : ∀ acb : ActionControlBlock, Begun acb.state → Begun (amend body acb).state := by
    intro acb started
    rw [amend_state tells begins.1]
    split
    · exact begins
    exact started
  have count : ∀ acb : ActionControlBlock, (amend body acb).retryCount = acb.retryCount := fun acb =>
    amend_retryCount (by rw [tells]; rfl)
  refine ⟨fun row found => ?_, fun record known => ?_, ?_⟩
  · obtain ⟨record, known, alike, started, unreserved⟩ := recorded row found
    refine ⟨amend body record, by rw [hears, known]; rfl, (Alike.amend body record).trans alike, ?_, ?_⟩
    · exact fun runs => state record (started runs)
    rw [count]
    exact unreserved
  · exact ⟨amend body record, by rw [hears, known]; rfl, .amend body record, state record⟩
  have same : reserved ((replayedAction store.journal actionId).map (amend body)) =
      reserved (replayedAction store.journal actionId) := by
    cases replayedAction store.journal actionId with
    | none => rfl
    | some record =>
      simp only [reserved, map_some, any_some, count, (Alike.amend body record).retriable]
  rw [AtMostOnce.level, AtMostOnce.level, hears, same]
  exact le_rfl

/-- What has to be on record before a row says that the action has begun. -/
structure Backed (store : KernelStore) (revised : ActionControlBlock) : Prop where
  begun : Begun revised.state
  record : ∃ record, replayedAction store.journal revised.actionId = some record ∧ Alike record revised ∧
    Begun record.state ∧ (¬ revised.state.Terminal → revised.retryCount = 0 → record.retryCount = 0)

variable {acb revised : ActionControlBlock}

theorem begun_some (started : Begun acb.state) : begun (some acb) = 1 := by
  simp [begun, started]

theorem Kept.upsert (backed : revised.actionId = actionId → Backed store revised)
    (recorded : Recorded actionId store) : Kept actionId store (upsertProjection revised store) := by
  by_cases same : revised.actionId = actionId
  · subst same
    obtain ⟨begins, record, known, alike, started, unreserved⟩ := backed rfl
    have row : getAction (upsertProjection revised store) revised.actionId =
        some (projected revised (getAction store revised.actionId)) := by
      rw [getAction_upsertProjection, if_pos rfl]
    refine ⟨fun found stored => ?_, .refl, ?_⟩
    · rw [row] at stored
      cases stored
      refine ⟨record, known, ?_, fun _ => started, ?_⟩
      · cases before : getAction store revised.actionId with
        | none => exact alike
        | some old =>
          obtain ⟨record', known', alike', _⟩ := recorded old before
          rw [known] at known'
          cases known'
          exact alike'
      · rw [projected_state, projected_retryCount]
        exact unreserved
    · rw [AtMostOnce.level, AtMostOnce.level, row, begun_some (by rw [projected_state]; exact begins)]
      exact Int.add_le_add_right (begun_le_one _).2 _
  · exact .of_same (by rw [getAction_upsertProjection, if_neg (Ne.symm same)]) rfl recorded

/-- The reservation of the retry accounts for one more call. -/
theorem Kept.reserve (pid : String)
    (found : getAction store acb.actionId = some acb) (running : acb.state = .running)
    (retriable : Retriable acb) (unreserved : acb.retryCount = 0) (recorded : Recorded actionId store) :
    let event : KernelEvent := ⟨pid, .actionRetryReserved acb.actionId (acb.retryCount + 1)⟩
    let store' := upsertProjection { acb with retryCount := acb.retryCount + 1 } (appendEvents [event] store)
    Kept actionId store store' ∧
      (acb.actionId = actionId → AtMostOnce.level actionId store + 1 ≤ AtMostOnce.level actionId store') := by
  intro event store'
  have hears : replayedAction store'.journal actionId =
      (replayedAction store.journal actionId).map (amend event.body) := by
    change replayedAction (store.journal ++ [event]) actionId = _
    rw [replayedAction_append]
    rfl
  have row : getAction store' actionId =
      if actionId = acb.actionId then some { acb with retryCount := acb.retryCount + 1
                                                      result := storedDict acb.result
                                                      error := storedDict acb.error }
      else getAction store actionId := by
    rw [getAction_upsertProjection, getAction_appendEvents, found, getAction_appendEvents]
    rfl
  by_cases same : acb.actionId = actionId
  · subst same
    obtain ⟨record, known, alike, _, uncounted⟩ := recorded acb found
    have zero := uncounted (by simp [running, ActionState.Terminal]) unreserved
    have key := replayedAction_actionId known
    have changed : amend event.body record =
        { record with retryCount := 1
                      result := storedDict record.result
                      error := storedDict record.error } := by
      simp only [event, amend, replayChange, key, if_true, projected, zero, unreserved]
      rfl
    rw [if_pos rfl] at row
    rw [known, map_some, changed] at hears
    have more : AtMostOnce.level acb.actionId store + 1 ≤ AtMostOnce.level acb.actionId store' := by
      have before : reserved (some record) = 0 := by simp [reserved, zero]
      have after : reserved (replayedAction store'.journal acb.actionId) = 1 := by
        rw [hears]
        have permitted : record.sideEffectClass = .pure ∧ record.recoveryPolicy = .retry :=
          alike.retriable.mpr retriable
        simp [reserved, Retriable, permitted]
      have started : begun (getAction store' acb.actionId) = 1 := by
        rw [row]
        exact begun_some (by rw [running]; exact ⟨by decide, by decide⟩)
      rw [AtMostOnce.level, AtMostOnce.level, known, before, after, started]
      have bound := (begun_le_one (getAction store acb.actionId)).2
      omega
    refine ⟨⟨fun found' stored => ?_, fun record' known' => ?_, by omega⟩, fun _ => more⟩
    · rw [row] at stored
      cases stored
      refine ⟨_, hears, alike, fun started => ?_, fun _ zero => by simp at zero⟩
      obtain ⟨record', known', _, begins, _⟩ := recorded acb found
      rw [known] at known'
      cases known'
      exact begins started
    · rw [known] at known'
      cases known'
      exact ⟨_, hears, ⟨rfl, rfl⟩, id⟩
  · refine ⟨.of_same (by rw [row, if_neg (Ne.symm same)]) ?_ recorded, fun equal => absurd equal same⟩
    rw [hears]
    cases known : replayedAction store.journal actionId with
    | none => rfl
    | some record =>
      have apart : acb.actionId ≠ record.actionId := by
        rw [replayedAction_actionId known]
        exact same
      simp only [event, map_some, amend, replayChange, apart, if_false]

/-- A conditional method that ends a running action. -/
theorem Kept.ends {body pid} (found : getAction store acb.actionId = some acb)
    (running : acb.state = .running) (revises : Revises acb revised body)
    (ended : revised.state.Terminal) (recorded : Recorded actionId store) :
    Kept actionId store (upsertProjection revised (appendEvents [⟨pid, body⟩] store)) := by
  cases revises with
  | @enters target _ result error live legal tells =>
    have begins : Begun target := begun_of_terminal ended
    have journal : Kept actionId store (appendEvents [⟨pid, body⟩] store) := .journal tells begins recorded
    refine journal.trans (.upsert (fun same => ⟨begins, ?_⟩) journal.recorded)
    subst same
    obtain ⟨record, known, alike, started, _⟩ := journal.recorded acb found
    exact ⟨record, known, alike, started (by rw [running]; exact ⟨nofun, nofun⟩), fun live => absurd ended live⟩
  | intends leaseIds fencingTokens =>
    rw [running] at ended
    cases ended
  | reserves =>
    rw [running] at ended
    cases ended

end

/-! ## The discipline -/

/-- The step of a row to `RUNNING` finds the action as it was read. -/
def Unraced (label : Label) (w : World) : Prop :=
  match label.access with
  | .upsert actionId found .running => getAction w.store actionId = found
  | _ => True

instance : ∀ label w, Decidable (Unraced label w)
  | ⟨.upsert actionId found state, _⟩, w =>
    match state with
    | .running => inferInstanceAs (Decidable (getAction w.store actionId = found))
    | .submitted | .admitted | .committed | .failed | .cancelled | .timedOut | .uncertain => isTrue trivial
  | ⟨.other, _⟩, _ | ⟨.append .., _⟩, _ | ⟨.decide _, _⟩, _ | ⟨.commit .., _⟩, _ | ⟨.acquire _, _⟩, _
  | ⟨.dispatch _, _⟩, _ => isTrue trivial

/-- Calls are counted for one action. -/
def discipline (actionId : String) : Discipline World Label where
  rely w w' := Recorded actionId w'.store ∧ Grows actionId w.store w'.store
  allowed := Unraced
  guarantee _ w w' := Recorded actionId w'.store ∧ Grows actionId w.store w'.store
  credit w := level actionId w.store - w.dispatched.count actionId

section
/-- The action is on record, whatever was returned. -/
abbrev onRecord {α : Type} (actionId : String) : α → World → ℕ → Prop :=
  fun _ w _ => Recorded actionId w.store

/-- Whatever happens, the action stays on record. -/
abbrev Keeps {α : Type} (actionId : String) (task : KernelTask α) : Prop :=
  KeepsTask (discipline actionId) (fun w => Recorded actionId w.store) task

/-- A step that neither tells of actions nor calls a driver to act. -/
structure Quiet (label : Label) (w w' : World) : Prop where
  access : label.access = .other
  journals : Journals actionless w.store w'.store
  actions : w'.store.actions = w.store.actions
  dispatched : w'.dispatched = w.dispatched

theorem Quiet.self (access : label.access = .other) : Quiet label w w :=
  ⟨access, .refl _ _, rfl, rfl⟩

theorem Quiet.of_lapse {w'} (step : OnStore Lapse label w w') : Quiet label w w' := by
  obtain ⟨access, store', lapse, rfl⟩ := step
  refine ⟨access, lapse.journals.mono fun body kind => ?_, lapse.elsewhere.actions, rfl⟩
  cases body <;> first | rfl | cases kind

variable {α : Type}

theorem quiet_during {phase} (quiet : AlwaysTask Quiet task) : AlwaysTask Quiet (during phase task) :=
  .relabel (fun _ _ _ step => ⟨step.access, step.journals, step.actions, step.dispatched⟩) quiet

theorem quiet_query {read : KernelStore → α} : AlwaysTask Quiet (query read) :=
  always_query read fun _ => .self rfl

theorem quiet_readClock : AlwaysTask Quiet readClock := .step fun _ => .self rfl

theorem quiet_drawIds {count} : AlwaysTask Quiet (drawIds count) :=
  .step fun _ => ⟨rfl, .refl _ _, rfl, rfl⟩

theorem quiet_driverInspect : AlwaysTask Quiet driverInspect :=
  .step fun _ => ⟨rfl, .refl _ _, rfl, rfl⟩

theorem quiet_release : AlwaysTask Quiet (LeaseService.release leaseIds) :=
  .mono (fun _ _ _ => .of_lapse) always_release

theorem quiet_clearWaitersForPid : AlwaysTask Quiet (clearWaitersForPid pid) :=
  .mono (fun _ _ _ => .of_lapse) always_clearWaitersForPid

theorem quiet_tellOwner {signalType} {payload} : AlwaysTask Quiet (tellOwner pid signalType payload) := by
  have posts : AlwaysTask Quiet (post .handover .posting pid signalType (some "kernel") payload) := by
    refine (quiet_during quiet_drawIds).bind fun draw =>
      (quiet_during quiet_readClock).bind fun now =>
      (always_update fun w => ?_).bind fun _ =>
      (always_update fun w => ?_).bind fun _ => .pure _
    · refine ⟨rfl, .one ?_ w.store, rfl, rfl⟩
      simp only [actionless, replayChange]
    · exact ⟨rfl, .refl _ _, rfl, rfl⟩
  exact posts.bind fun _ => .pure _

theorem quiet_contractLeases {now} : AlwaysTask Quiet (contractLeases pid now leaseIds) := by
  induction leaseIds with
  | nil => exact .pure _
  | cons leaseId rest ih =>
    refine quiet_query.bind fun found => ?_
    cases found with
    | none => exact .pure _
    | some lease =>
      dsimp only
      split
      · exact .pure _
      split
      · exact .pure _
      refine ih.bind fun others => ?_
      cases others <;> exact .pure _

theorem quiet_validateActionContract {claims} {now} :
    AlwaysTask Quiet (validateActionContract pid claims leaseIds now) := by
  unfold validateActionContract
  split
  · exact .pure _
  split
  · exact .pure _
  refine quiet_contractLeases.bind fun leases => ?_
  cases leases with
  | error reason => exact .pure _
  | ok leases =>
    cases named : claimed claims with
    | error failure => exact .throw _
    | ok expected => exact .pure _

theorem quiet_validateReservedRetry {other} {now} : AlwaysTask Quiet (validateReservedRetryIfFenced other now) := by
  refine always_transaction fun w result store' ran => ?_
  obtain rfl := Session.transaction_check ran
  exact .self rfl

theorem quiet_reservationIsOwnedElsewhere {other} : AlwaysTask Quiet (reservationIsOwnedElsewhere other reason) := by
  unfold reservationIsOwnedElsewhere
  split
  · exact .pure _
  exact quiet_query

/-- A quiet step keeps the record, and the credits that are held. -/
theorem Quiet.kept {w'} (quiet : Quiet label w w') (recorded : Recorded actionId w.store) :
    (discipline actionId).guarantee label w w' ∧ (discipline actionId).credit w ≤ (discipline actionId).credit w' := by
  have kept : Kept actionId w.store w'.store := .of_same (by rw [getAction, quiet.actions]; rfl)
    (replayedAction_actionless quiet.journals actionId) recorded
  refine ⟨⟨kept.recorded, kept.grows⟩, ?_⟩
  have more := kept.level
  simp only [discipline, quiet.dispatched]
  omega

theorem keeps_quiet (quiet : AlwaysTask Quiet task) : Keeps actionId task :=
  .of_always quiet fun _ _ _ _ _ relied _ step =>
    ⟨(step.kept relied.1).1, (step.kept relied.1).2, (step.kept relied.1).1.1⟩

/-- A quiet task between what earns a call and the call. -/
theorem holds_quiet (quiet : AlwaysTask Quiet task) (recorded : Recorded actionId w.store) {due}
    (funded : due → 1 ≤ held) :
    SafeTask (discipline actionId) (fun _ w held => Recorded actionId w.store ∧ (due → 1 ≤ held))
    (onRecord actionId) task w held := by
  have safe : SafeTask (discipline actionId) (fun _ w h => Recorded actionId w.store ∧ h = held)
      (fun _ w h => Recorded actionId w.store ∧ h = held) task w held := by
    refine .of_always quiet ⟨recorded, rfl⟩ ?_
    intro label s s' s'' _ relied _ step
    have kept := step.kept relied.1
    exact ⟨kept.1, kept.2, kept.1.1, rfl⟩
  exact safe.mono (fun _ _ _ ⟨kept, same⟩ => ⟨kept, fun owed => same ▸ funded owed⟩) fun _ _ _ ⟨kept, _⟩ => kept

/-! ## Methods of actions -/

theorem kept_guarantee {store'} (kept : Kept actionId w.store store') :
    (discipline actionId).guarantee label w { w with store := store' } := ⟨kept.recorded, kept.grows⟩

theorem admitted_of_legal {state} (legal : (actionTransitions state .running).isSome) : state = .admitted := by
  cases state <;> first | rfl | cases legal

theorem running_of_begun {state} (begins : Begun state) (live : ¬ state.Terminal) : state = .running := by
  cases state <;> simp_all [Begun, ActionState.Terminal]

/-- A row that goes from `ADMITTED` to `RUNNING` accounts for one more call. -/
theorem level_first {store acb} (found : getAction store acb.actionId = some acb)
    (admitted : acb.state = .admitted) (result error) :
    level acb.actionId (upsertProjection { acb with state := .running, result := result, error := error }
      store) = level acb.actionId store + 1 := by
  have before : begun (getAction store acb.actionId) = 0 := by
    rw [found]
    simp [begun, Begun, admitted]
  rw [level, level, before, getAction_upsertProjection, if_pos rfl,
    begun_some (by rw [projected_state]; exact ⟨nofun, nofun⟩), zero_add, add_comm]
  rfl

/-- The first dispatch earns a call: the row goes to `RUNNING` once. -/
theorem safe_enter {subject} {target} {body} {set} (tells : told body = some (subject, target))
    (begins : Begun target)
    (sets : ∀ acb, ∃ result error, set acb = { acb with result := result, error := error })
    (recorded : Recorded actionId w.store) :
    SafeTask (discipline actionId)
      (fun _ w held => Recorded actionId w.store ∧ (target = .running ∧ subject = actionId → 1 ≤ held))
      (onRecord actionId) (enter subject target body set) w held := by
  have read : SafeTask (discipline actionId) (fun found w _ => Recorded actionId w.store ∧
      ∀ acb, found = some acb → acb.actionId = subject ∧ (subject = actionId →
        ∃ record, replayedAction w.store.journal actionId = some record ∧ Alike record acb))
      (onRecord actionId) (query fun store => getAction store subject) w held := by
    refine safe_query fun w' ⟨kept, grows⟩ => ⟨⟨kept, .refl⟩, kept, fun acb found => ?_⟩
    refine ⟨getAction_actionId found, ?_⟩
    rintro rfl
    obtain ⟨record, known, alike, _⟩ := kept acb found
    exact ⟨record, known, alike⟩
  refine read.bind fun found w held ⟨recorded, known⟩ => ?_
  cases found with
  | none => exact recorded
  | some acb =>
    obtain ⟨same, record⟩ := known acb rfl
    refine safe_compute (fun _ => recorded) ?_
    rintro ⟨revised, told⟩ computed
    obtain ⟨moved, applied, done⟩ := bind_ok.mp computed
    obtain ⟨live, legal, rfl⟩ := applyActionTransition_ok applied
    obtain ⟨result, error, shape⟩ := sets { acb with state := target }
    cases done
    rw [shape]
    -- From here on the journal tells that the action has begun.
    have journals : SafeTask (discipline actionId) (fun _ w _ => Recorded actionId w.store ∧
        (subject = actionId → ∃ record, replayedAction w.store.journal actionId = some record ∧
          Alike record acb ∧ Begun record.state)) (onRecord actionId)
        (appendEvent { access := .append subject (some acb) } acb.pid body) w held := by
      refine safe_update fun w' ⟨kept, grows⟩ _ => ?_
      have journal : Kept actionId w'.store (appendEvents [⟨acb.pid, body⟩] w'.store) := .journal tells begins kept
      refine ⟨kept_guarantee journal, held, ?_, journal.recorded, fun equal => ?_⟩
      · have more := journal.level
        simp only [discipline]
        omega
      subst equal
      obtain ⟨record, known, alike⟩ := record rfl
      obtain ⟨record', known', alike', _⟩ := grows record known
      refine ⟨amend body record', ?_, ((Alike.amend body record').trans alike').trans alike, ?_⟩
      · change replayedAction (w'.store.journal ++ [_]) _ = _
        rw [replayedAction_append, hearAction_told tells begins.1, known']
        rfl
      · rw [amend_state tells begins.1, replayedAction_actionId known', if_pos rfl]
        exact begins
    refine journals.bind fun _ w held ⟨recorded, record⟩ => ?_
    refine safe_update fun w' ⟨kept, grows⟩ unraced => ?_
    have found : target = .running → getAction w'.store acb.actionId = some acb := by
      rintro rfl
      subst same
      exact unraced
    have writes : Kept actionId w'.store
        (upsertProjection { acb with state := target, result := result, error := error } w'.store) := by
      refine .upsert (fun equal => ⟨begins, ?_⟩) kept
      obtain ⟨record, known, alike, started⟩ := record (same.symm.trans equal)
      obtain ⟨record', known', alike', begins'⟩ := grows record known
      have equal : acb.actionId = actionId := equal
      refine ⟨record', by rw [← known']; exact congrArg _ equal, alike'.trans alike, begins' started, ?_⟩
      intro continues unreserved
      obtain ⟨record'', known'', _, _, uncounted⟩ := kept acb (equal ▸ found (running_of_begun begins continues))
      rw [known'] at known''
      cases known''
      exact uncounted live unreserved
    refine ⟨kept_guarantee writes, ?_⟩
    have more := writes.level
    by_cases first : target = .running ∧ subject = actionId
    · obtain ⟨rfl, equal⟩ := first
      obtain rfl := same.trans equal
      have earned := level_first (found rfl) (admitted_of_legal legal) result error
      refine ⟨held + 1, ?_, writes.recorded, fun _ => by omega⟩
      simp only [discipline, earned]
      push_cast
      omega
    · refine ⟨held, ?_, writes.recorded, fun due => absurd due first⟩
      simp only [discipline]
      omega

variable (subject : String)

theorem holds_dispatch (recorded : Recorded actionId w.store) :
    SafeTask (discipline actionId) (fun _ w held => Recorded actionId w.store ∧ (subject = actionId → 1 ≤ held))
    (onRecord actionId) (ActionService.dispatch subject) w held := by
  have entered : SafeTask (discipline actionId) (fun _ w held => Recorded actionId w.store ∧
      (ActionState.running = .running ∧ subject = actionId → 1 ≤ held))
      (onRecord actionId) (enter subject .running (.actionRunning subject) id) w held :=
    safe_enter rfl (by decide) (fun _ => ⟨_, _, rfl⟩) recorded
  exact entered.mono (fun _ _ _ ⟨kept, due⟩ => ⟨kept, fun same => due ⟨rfl, same⟩⟩) fun _ _ _ kept => kept

theorem keeps_fail : Keeps actionId (fail subject error) := by
  intro w held recorded
  have entered : SafeTask (discipline actionId) (fun _ w held => Recorded actionId w.store ∧
      (ActionState.failed = .running ∧ subject = actionId → 1 ≤ held))
      (onRecord actionId) (fail subject error) w held :=
    safe_enter rfl (by decide) (fun _ => ⟨_, _, rfl⟩) recorded
  exact entered.mono (fun _ _ _ ⟨kept, _⟩ => kept) fun _ _ _ kept => kept

/-- The conditional methods that end an action. -/
theorem keeps_ending {subject} {forbids change} (ends : ∀ acb, acb.actionId = subject → acb.state = .running →
      Revises acb (change acb).1 (change acb).2 ∧ (change acb).1.state.Terminal) :
    Keeps actionId (transaction label fun _ => conditionalTx subject forbids change) := by
  intro w held _
  refine safe_transaction fun w' result store' ⟨recorded, _⟩ _ ran => ?_
  have kept : Kept actionId w'.store store' := by
    rcases conditionalTx_cases ran with ⟨rfl, _⟩ | ⟨acb, found, running, _, _, rfl⟩
    · exact .of_same rfl rfl recorded
    obtain rfl := getAction_actionId found
    obtain ⟨revises, ended⟩ := ends acb rfl running
    exact .ends found running revises ended recorded
  refine ⟨kept_guarantee kept, held, ?_, by cases result <;> exact kept.recorded⟩
  have more := kept.level
  simp only [discipline]
  omega

theorem keeps_commitIfFenced : Keeps actionId (commitIfFenced subject result now) :=
  keeps_ending fun _ same running => ⟨.of_running _ _ rfl rfl same running, trivial⟩

theorem keeps_failIfRunning : Keeps actionId (failIfRunning subject error) :=
  .bind (keeps_ending fun _ same running => ⟨.of_running _ _ rfl rfl same running, trivial⟩) fun _ => .pure _

theorem keeps_markUncertainIfRunning : Keeps actionId (markUncertainIfRunning subject detail) :=
  .bind (keeps_ending fun _ same running => ⟨.of_running _ _ rfl rfl same running, trivial⟩) fun _ => .pure _

/-- The reservation of a retry earns a call. -/
theorem holds_reserve : SafeTask (discipline actionId)
    (fun reason w held => Recorded actionId w.store ∧ (reason = none ∧ subject = actionId → 1 ≤ held))
    (onRecord actionId) (reserveRetryIfFenced subject now) w held := by
  refine safe_transaction fun w' result store' ⟨recorded, _⟩ _ ran => ?_
  rcases conditionalTx_cases ran with ⟨rfl, refused⟩ | ⟨acb, found, running, free, rfl, rfl⟩
  · have kept : Kept actionId w'.store w'.store := .of_same rfl rfl recorded
    refine ⟨kept_guarantee kept, held, by simp, ?_⟩
    cases result with
    | error failure => exact recorded
    | ok reason =>
      refine ⟨recorded, fun due => ?_⟩
      rw [due.1] at refused
      exact absurd rfl refused
  obtain rfl := getAction_actionId found
  obtain ⟨pure, retry, budget, _⟩ := retryForbidden_none free
  have unreserved : acb.retryCount = 0 := by
    by_contra counted
    rw [if_pos (by omega)] at budget
    cases budget
  obtain ⟨kept, more⟩ := Kept.reserve acb.pid found running ⟨pure, retry⟩ unreserved recorded
  refine ⟨kept_guarantee kept, ?_⟩
  by_cases same : acb.actionId = actionId
  · refine ⟨held + 1, ?_, kept.recorded, fun _ => by omega⟩
    have earned := more same
    simp only [discipline]
    push_cast
    omega
  · refine ⟨held, ?_, kept.recorded, fun due => absurd due.2 same⟩
    have more := kept.level
    simp only [discipline]
    omega

/-- A call of the driver spends what was earned. -/
theorem keeps_driverDispatch (funded : subject = actionId → 1 ≤ held) :
    SafeTask (discipline actionId) (onRecord actionId) (onRecord actionId) (driverDispatch subject) w held := by
  refine .step fun w' ⟨recorded, _⟩ _ => ⟨⟨recorded, .refl⟩, ?_⟩
  by_cases same : subject = actionId
  · refine ⟨held - 1, ?_, recorded⟩
    have enough := funded same
    simp only [discipline, same, count_append, count_singleton_self]
    omega
  · refine ⟨held, ?_, recorded⟩
    simp [discipline, count_append, same]

/-! ## The passes -/

theorem keeps_settle {ends} (keeps : Keeps actionId ends) : Keeps actionId (settle ends acb signalType payload) := by
  refine keeps.bind fun ended => ?_
  refine (keeps_quiet (quiet_during quiet_release)).bind fun _ => ?_
  cases ended with
  | true => exact keeps_quiet quiet_tellOwner
  | false => exact .pure _

variable (acb : ActionControlBlock)

theorem keeps_failAction {error} : Keeps actionId (failAction acb error) :=
  keeps_settle (keeps_failIfRunning acb.actionId)

theorem keeps_uncertainAction {detail} : Keeps actionId (uncertainAction acb detail) :=
  keeps_settle (keeps_markUncertainIfRunning acb.actionId)

theorem keeps_completeAction {output} {stale tells} : Keeps actionId (completeAction acb output stale tells) := by
  refine (keeps_quiet quiet_readClock).bind fun now => ?_
  refine (keeps_commitIfFenced acb.actionId).bind fun reason => ?_
  cases reason with
  | some fenceError => exact keeps_settle (keeps_failIfRunning acb.actionId)
  | none =>
    exact (keeps_quiet (quiet_during quiet_release)).bind fun _ =>
      keeps_quiet quiet_tellOwner

theorem keeps_inspectAfterUnknown : Keeps actionId (inspectAfterUnknown acb reason) := by
  refine (keeps_quiet quiet_query).bind fun running => ?_
  cases running with
  | false => exact keeps_quiet quiet_release
  | true =>
    refine (keeps_quiet quiet_driverInspect).bind fun reply => ?_
    cases reply with
    | raised message kind => exact keeps_uncertainAction _
    | answered status output error =>
      cases status with
      | completed => exact keeps_completeAction _
      | failed => exact keeps_failAction _
      | unknown => exact keeps_uncertainAction _
      | running => exact .pure _

/-- A retry that is not reserved makes no call. -/
theorem keeps_unreserved {subject} {detail} : Keeps actionId (do
    if ← reservationIsOwnedElsewhere subject reason then return () else uncertainAction acb detail) := by
  refine (keeps_quiet quiet_reservationIsOwnedElsewhere).bind fun owned => ?_
  cases owned with
  | true => exact .pure _
  | false => exact keeps_uncertainAction _

/-- A call that was earned, and what follows it. -/
theorem keeps_call {subject} {rest : DriverReply → KernelTask Unit}
    (later : ∀ reply, Keeps actionId (rest reply)) (funded : subject = actionId → 1 ≤ held) :
    SafeTask (discipline actionId) (onRecord actionId) (onRecord actionId) (driverDispatch subject >>= rest) w held :=
  (keeps_driverDispatch subject funded).bind fun reply w held kept => later reply w held kept

/-- The fence is checked once more, and the driver is called. -/
theorem keeps_validated {subject : String} {refused : String → KernelTask Unit} {call}
    (declines : ∀ reason, Keeps actionId (refused reason)) (calls : ∀ w held, (subject = actionId → 1 ≤ held) →
      SafeTask (discipline actionId) (onRecord actionId) (onRecord actionId) call w held) (recorded : Recorded actionId w.store)
    (funded : subject = actionId → 1 ≤ held) :
    SafeTask (discipline actionId) (onRecord actionId) (onRecord actionId) (do
        let now ← readClock
        match ← validateReservedRetryIfFenced subject now with
        | some reason => refused reason
        | none => call) w held := by
  refine (holds_quiet quiet_readClock recorded funded).bind fun now w held ⟨recorded, funded⟩ => ?_
  refine (holds_quiet quiet_validateReservedRetry recorded funded).bind
    fun reason w held ⟨recorded, funded⟩ => ?_
  cases reason with
  | some reason => exact declines reason w held recorded
  | none => exact calls w held funded

theorem keeps_retryAfterException {initialError} : Keeps actionId (retryAfterException acb initialError) := by
  intro w held recorded
  have read : SafeTask (discipline actionId) (fun found w _ => Recorded actionId w.store ∧
      ∀ current, found = some current → current.actionId = acb.actionId)
      (onRecord actionId) (query fun store => getAction store acb.actionId) w held :=
    safe_query fun w' ⟨kept, _⟩ => ⟨⟨kept, .refl⟩, kept, fun current found => getAction_actionId found⟩
  refine read.bind fun found w held ⟨recorded, known⟩ => ?_
  cases found with
  | none => exact keeps_quiet quiet_release w held recorded
  | some current =>
    have same := known current rfl
    dsimp only
    split
    · exact keeps_quiet quiet_release w held recorded
    refine (keeps_quiet quiet_readClock w held recorded).bind fun now w held _ => ?_
    refine (holds_reserve current.actionId).bind fun reason w held ⟨recorded, funded⟩ => ?_
    rw [same] at funded ⊢
    cases reason with
    | some reason => exact keeps_unreserved _ w held recorded
    | none =>
      have earned : acb.actionId = actionId → 1 ≤ held := fun equal => funded ⟨rfl, equal⟩
      refine (holds_quiet quiet_query recorded earned).bind fun running w held ⟨recorded, earned⟩ => ?_
      cases running with
      | false => exact keeps_quiet quiet_release w held recorded
      | true =>
        refine keeps_validated (fun reason => keeps_uncertainAction _) (fun w held earned => ?_) recorded earned
        refine keeps_call (fun reply => ?_) earned
        cases reply with
        | raised message kind => exact keeps_uncertainAction _
        | answered status output error =>
          cases status with
          | completed => exact keeps_completeAction _
          | failed => exact keeps_uncertainAction _
          | unknown => exact keeps_uncertainAction _
          | running => exact .pure _

theorem keeps_retryUnknown {raised : String → KernelTask Unit}
    (raises : ∀ message, Keeps actionId (raised message)) : Keeps actionId (retryUnknown acb raised) := by
  refine (keeps_quiet quiet_readClock).bind fun now w held _ => ?_
  refine (holds_reserve acb.actionId).bind fun reason w held ⟨recorded, funded⟩ => ?_
  cases reason with
  | some reason => exact keeps_unreserved _ w held recorded
  | none =>
    have earned : acb.actionId = actionId → 1 ≤ held := fun equal => funded ⟨rfl, equal⟩
    refine keeps_validated (fun reason => keeps_uncertainAction _) (fun w held earned => ?_) recorded earned
    refine keeps_call (fun reply => ?_) earned
    cases reply with
    | raised message kind => exact raises message
    | answered status output error =>
      cases status with
      | completed => exact keeps_completeAction _
      | failed => exact keeps_uncertainAction _
      | unknown => exact keeps_uncertainAction _
      | running => exact .pure _

theorem keeps_refuse {error} : Keeps actionId (refuse acb error) := by
  have ends : Keeps actionId (handingOver (fail acb.actionId error)) := by
    refine .relabel (fun label w allowed => ?_) (fun _ _ _ promised => promised) (keeps_fail acb.actionId)
    obtain ⟨access, phase⟩ := label
    cases access <;> exact allowed
  refine ends.bind fun _ => ?_
  refine (keeps_quiet (quiet_during quiet_release)).bind fun _ => ?_
  refine (keeps_quiet (quiet_during quiet_clearWaitersForPid)).bind fun _ => ?_
  exact keeps_quiet quiet_tellOwner

theorem keeps_afterDispatch : Keeps actionId (afterDispatch acb reply) := by
  cases reply with
  | raised message kind =>
    rw [afterDispatch]
    cases unknownRecoveryMode acb with
    | retry => exact keeps_retryAfterException _
    | inspect => exact keeps_inspectAfterUnknown _
    | uncertain => exact keeps_uncertainAction _
  | answered status output error =>
    cases status with
    | completed => exact keeps_completeAction _
    | failed => exact keeps_failAction _
    | unknown =>
      rw [afterDispatch]
      cases unknownRecoveryMode acb with
      | retry => exact keeps_retryUnknown acb fun message => keeps_uncertainAction _
      | inspect => exact keeps_inspectAfterUnknown _
      | uncertain => exact keeps_uncertainAction _
    | running => exact .pure _

theorem keeps_dispatchAction (kernel : Kernel) (acb : ActionControlBlock) :
    Keeps actionId (dispatchAction kernel acb) := by
  refine (keeps_quiet quiet_readClock).bind fun now => ?_
  refine (keeps_quiet quiet_validateActionContract).bind fun reason => ?_
  cases reason with
  | some reason => exact keeps_refuse _
  | none =>
    dsimp only
    split
    · exact keeps_refuse _
    intro w held recorded
    refine (holds_dispatch acb.actionId recorded).bind fun _ w held ⟨recorded, earned⟩ => ?_
    exact keeps_call (fun reply => keeps_afterDispatch acb) earned

theorem keeps_afterInspection : Keeps actionId (afterInspection acb mode reply) := by
  cases reply with
  | raised message kind => exact keeps_uncertainAction _
  | answered status output error =>
    cases status with
    | completed => exact keeps_completeAction _
    | failed => exact keeps_failAction _
    | unknown =>
      cases mode with
      | retry =>
        exact .catching (keeps_retryUnknown acb fun message => .throw _) fun failure =>
          keeps_uncertainAction _
      | inspect => exact keeps_uncertainAction _
      | uncertain => exact keeps_uncertainAction _
    | running => exact .pure _

theorem keeps_recoverAction (kernel) (acb) : Keeps actionId (recoverAction kernel acb) := by
  unfold recoverAction
  split
  · exact keeps_failAction _
  refine (keeps_quiet quiet_query).bind fun running => ?_
  cases running with
  | false => exact keeps_quiet quiet_release
  | true =>
    rw [if_pos rfl]
    split
    · exact keeps_uncertainAction _
    exact (keeps_quiet quiet_driverInspect).bind fun reply =>
      keeps_afterInspection acb

end

/-! ## Runs -/

inductive Pass where
  | dispatchPendingActions (kernel : Kernel)
  | recoverIncompleteActions (kernel : Kernel)

/-- The passes of the kernels. One that has crashed takes no further step. -/
def Pass.program : Pass → Program World Label Unit
  | .dispatchPendingActions kernel => (AgentKernel.dispatchPendingActions kernel).launch
  | .recoverIncompleteActions kernel => (AgentKernel.recoverIncompleteActions kernel).launch

inductive Happening where
  | clock (now : Int)
  /-- A kernel restarts from the journal, after restarts whose rebuild stopped after so
  many transactions. No step of a pass comes between the first and the last of them. -/
  | restart (stopped : List ℕ)

def happen (w : World) : Happening → World
  | .clock now => { w with clock := now }
  | .restart stopped => restart { w with store := stopped.foldl rebuildUpTo w.store }

/-- Any number of passes over one database. -/
def passes : Machine World (Program World Label Unit) Happening Pass := machine happen Pass.program

theorem keeps_pass {actionId} {w : World} (recorded : Recorded actionId w.store) (pass : Pass) :
    Safe (discipline actionId) Any pass.program w 0 := by
  cases pass with
  | dispatchPendingActions kernel =>
    have keeps : Keeps actionId (AgentKernel.dispatchPendingActions kernel) :=
      (keeps_quiet quiet_query).bind fun admitted =>
        .forM (keeps_dispatchAction kernel)
    exact (keeps w 0 recorded).launch
  | recoverIncompleteActions kernel =>
    have keeps : Keeps actionId (AgentKernel.recoverIncompleteActions kernel) :=
      (keeps_quiet quiet_query).bind fun running =>
        .forM (keeps_recoverAction kernel)
    exact (keeps w 0 recorded).launch

/-- After a restart the row is what the journal tells, which is not less. -/
theorem kept_rebuild {actionId} {store} (recorded : Recorded actionId store) (same : stopped.journal = store.journal) :
    Kept actionId store (rebuild stopped) := by
  have journal : (rebuild stopped).journal = store.journal := (rebuild_journal stopped).trans same
  refine ⟨fun row found => ?_, ?_, ?_⟩
  · rw [getAction_rebuild, same] at found
    rw [journal]
    exact ⟨row, found, ⟨rfl, rfl⟩, id, fun _ => id⟩
  · unfold Grows
    rw [journal]
    exact Grows.refl
  rw [level, level, journal, getAction_rebuild, same]
  refine Int.add_le_add_right ?_ _
  cases found : getAction store actionId with
  | none => exact (begun_le_one _).1
  | some row =>
    obtain ⟨record, known, _, begins, _⟩ := recorded row found
    rw [known]
    by_cases started : Begun row.state
    · rw [begun_some started, begun_some (begins started)]
    simpa [begun, started] using (begun_le_one (some record)).1

theorem admits (actionId : String) :
    (discipline actionId).Admits (fun w => Recorded actionId w.store) happen Pass.program where
  trans _ _ _ first second := ⟨second.1, first.2.trans second.2⟩
  guaranteed _ _ _ _ guaranteed := ⟨guaranteed.1, guaranteed⟩
  acts w happening recorded := by
    cases happening with
    | clock now => exact ⟨recorded, ⟨recorded, .refl⟩, le_rfl⟩
    | restart stopped =>
      have kept := kept_rebuild recorded (stopped_rule (P := fun store => store.journal = w.store.journal) rfl
        (fun _ => id) (fun _ member store same => ((transaction_keeps store _ member).1.trans same)) stopped)
      refine ⟨kept.recorded, ⟨kept.recorded, kept.grows⟩, ?_⟩
      exact Int.sub_le_sub_right kept.level _
  enters _ pass recorded := keeps_pass recorded pass
  self _ recorded := ⟨recorded, .refl⟩

/-- In every interleaving of passes and restarts in which no pass meets a rebuild that is
not finished, and each step of a row to `RUNNING` finds the action as it was read, a
driver is told to act at most once for an action that may not be retried, and at most
twice for any action. -/
theorem unraced_dispatches_are_bounded {start : World} {events : List (Event Happening Pass)}
    (fresh : start.dispatched = []) (recorded : ∀ actionId, Recorded actionId start.store)
    (unraced : passes.Meets (fun _ w client => ∀ label, client.label? = some label → Unraced label w)
      start events) (actionId : String) : (passes.conduct start events).shared.dispatched.count actionId ≤ 2 ∧
    ∀ acb, getAction (passes.conduct start events).shared.store actionId = some acb → ¬ Retriable acb →
      (passes.conduct start events).shared.dispatched.count actionId ≤ 1 := by
  obtain ⟨kept, held, accounted⟩ := conduct_accounted (admits actionId) (recorded actionId) unraced
  have backed := accounted.backed
  change _ ≤ (level actionId _ - _) - (level actionId start.store - _) at backed
  rw [fresh] at backed
  have low : 0 ≤ level actionId start.store := add_nonneg (begun_le_one _).1 (reserved_le_one _).1
  change Recorded actionId (passes.conduct start events).shared.store at kept
  change (_ : ℤ) ≤ level actionId (passes.conduct start events).shared.store -
    ((passes.conduct start events).shared.dispatched.count actionId : ℤ) - _ at backed
  generalize (passes.conduct start events).shared = w at kept backed ⊢
  have started := begun_le_one (getAction w.store actionId)
  have again := reserved_le_one (replayedAction w.store.journal actionId)
  rw [level] at backed
  refine ⟨by simp only [count_nil] at backed; omega, fun acb found forbidden => ?_⟩
  obtain ⟨record, known, alike, _⟩ := kept acb found
  have never : reserved (replayedAction w.store.journal actionId) = 0 := by
    rw [known]
    simp [reserved, alike.retriable, forbidden]
  simp only [count_nil] at backed
  omega

/-! ## Schedules -/

/-- An admitted action whose effect cannot be taken back. -/
def transfer : ActionControlBlock :=
  { actionId := "a", pid := "p", deviceType := "bank", operation := "transfer", state := .admitted
    sideEffectClass := .nonReversible, recoveryPolicy := .uncertain }

/-- The database with this action in it. -/
def pending : World :=
  { store :=
      { actions := [transfer]
        journal := [⟨"p", .actionSubmitted { transfer with state := .submitted }⟩,
          ⟨"p", .actionAdmitted "a"⟩, ⟨"p", .actionIntentDurable "a" [] []⟩] } }

theorem recorded_pending (actionId) : Recorded actionId pending.store := by
  intro row found
  obtain rfl : "a" = actionId := by
    have key := getAction_actionId found
    have member := lookup_mem found
    rw [mem_singleton.mp member] at key
    exact key
  have told : replayedAction pending.store.journal "a" = some transfer := by decide +kernel
  cases found
  exact ⟨transfer, told, ⟨rfl, rfl⟩, id, fun _ => id⟩

def bankKernel : Kernel := { programs := fun _ => none, drivers := fun deviceType => deviceType = "bank" }

/-- Two kernels list the action and read it as admitted before either writes. -/
def listedTwice : List (Event Happening Pass) :=
  [.enter (.dispatchPendingActions bankKernel), .enter (.dispatchPendingActions bankKernel),
    .step 0, .step 0, .step 0, .step 1, .step 1, .step 1, .step 0, .step 0, .step 0, .step 1, .step 1, .step 1]

/-- The driver is told twice to make the transfer. -/
theorem racing_passes_dispatch_twice : pending.dispatched = [] ∧ (∀ actionId, Recorded actionId pending.store) ∧
    (passes.conduct pending listedTwice).shared.dispatched = ["a", "a"] ∧
    (getAction (passes.conduct pending listedTwice).shared.store "a").map
      (fun acb => (acb.sideEffectClass, acb.recoveryPolicy)) = some (.nonReversible, .uncertain) :=
  ⟨rfl, recorded_pending, by decide +kernel, by decide +kernel⟩

/-- A kernel crashes after it has called the driver. Another restarts from the
journal, at the second attempt, finds the action running and looks for more to dispatch. -/
def crashedAndRecovered : List (Event Happening Pass) :=
  .enter (.dispatchPendingActions bankKernel) :: List.replicate 6 (.step 0) ++
    .act (.restart [3]) :: .enter (.recoverIncompleteActions bankKernel) :: List.replicate 9 (.step 1) ++
    .enter (.dispatchPendingActions bankKernel) :: List.replicate 6 (.step 2)

theorem crashed_transfer_is_dispatched_once :
    (passes.conduct pending crashedAndRecovered).shared.dispatched = ["a"] ∧
    (passes.conduct pending crashedAndRecovered).shared.dispatched.count "a" ≤ 1 := by
  have unraced : passes.Meets (fun _ w client => ∀ label, client.label? = some label → Unraced label w)
      pending crashedAndRecovered := meets_of_tests (by decide +kernel)
  have classified : (getAction (passes.conduct pending crashedAndRecovered).shared.store "a").map
      (fun acb => decide (Retriable acb)) = some false := by decide +kernel
  obtain ⟨acb, found, forbidden⟩ := map_eq_some_iff.mp classified
  exact ⟨by decide +kernel, (unraced_dispatches_are_bounded rfl recorded_pending unraced "a").2 acb found
    (of_decide_eq_false forbidden)⟩

end LongHorizonOS.AtMostOnce
