import LongHorizonOS.AtomicPrograms
import LongHorizonOS.KernelModels

/-! What the services of the kernel are made of: queries and transactions on
the database, readings of the clock, fresh ids and calls of a driver. Each is
one atomic step. The label of a step says which access it is and, for the
hand-over of a finished action to its process, how far the hand-over has come. -/
namespace LongHorizonOS.KernelTasks
open PythonValues FailFast AtomicPrograms KernelModels

/-! ## The world of a kernel -/

inductive DriverStatus where
  | completed
  | running
  | failed
  | unknown
  deriving DecidableEq

/-- What comes back from a driver. -/
inductive DriverReply where
  | answered (status : DriverStatus) (output : Dict) (error : Option Dict)
  | raised (message kind : String)
  deriving DecidableEq

/-- The database and what is outside of it. The drivers answer their calls, in
the order in which they are made, as they please. -/
structure World where
  store : KernelStore := {}
  clock : Int := 0
  /-- How many ids have been drawn. -/
  drawn : ℕ := 0
  replies : ℕ → DriverReply := fun _ => .answered .completed [] none
  /-- How many calls the drivers have answered. -/
  asked : ℕ := 0
  /-- The actions for which a driver was told to act, in that order. -/
  dispatched : List String := []

/-- The ids that `uuid4` draws. What matters is that they differ. -/
def uuid (index : ℕ) : String := String.ofList (List.replicate (index + 1) 'u')

theorem uuid_injective : Function.Injective uuid := by
  intro first second same
  have lengths := congrArg (fun text => text.toList.length) same
  simpa [uuid] using lengths

/-- The next id is new to rows whose ids have all been drawn. -/
theorem uuid_fresh {key} {rows : List α} {count : ℕ}
    (drawn : ∀ row ∈ rows, ∃ index < count, key row = uuid index) : uuid count ∉ rows.map key := by
  intro taken
  obtain ⟨row, member, named⟩ := List.mem_map.mp taken
  obtain ⟨index, below, drawn⟩ := drawn row member
  exact below.ne (uuid_injective (drawn.symm.trans named))

theorem drawn_later {id} {count more} (drawn : ∃ index < count, id = uuid index)
    (grows : count ≤ more) : ∃ index < more, id = uuid index :=
  drawn.imp fun _ found => ⟨found.1.trans_le grows, found.2⟩

inductive Access where
  | other
  /-- The journal entry of a method that has read the action as `found`. -/
  | append (actionId : String) (found : Option ActionControlBlock)
  /-- The projection of a method that has read the action as `found`. -/
  | upsert (actionId : String) (found : Option ActionControlBlock) (state : ActionState)
  /-- A method that reads and writes the action in one transaction. -/
  | decide (actionId : String)
  /-- The transaction of `commit_if_fenced`, with its reading of the clock. -/
  | commit (actionId : String) (now : Int)
  /-- The transaction of `atomic_acquire`, with the ids for the new leases. -/
  | acquire (leaseIds : List String)
  | dispatch (actionId : String)

/-- Where a step stands in the hand-over of a finished action. -/
inductive Phase where
  | ordinary
  /-- The journal tells of the hand-over and the tables do not yet. -/
  | posting
  /-- The journal does not tell of it yet. -/
  | handover
  deriving DecidableEq

structure Label where
  access : Access := .other
  phase : Phase := .ordinary

abbrev KernelTask (α : Type) := Task World Label KernelError α

/-! ## Steps -/

section
variable {α : Type}

/-- A body that reads the clock and works on the database. -/
def inStore (body : Int → Session KernelStore KernelError α) : Session World KernelError α :=
  fun w => ((body w.clock w.store).1, { w with store := (body w.clock w.store).2 })

/-- `with self._storage.transaction() as tx` -/
def transaction (label : Label) (body : Int → Session KernelStore KernelError α) : KernelTask α :=
  Task.transaction label (inStore body)

/-- A statement outside of any transaction. -/
def query (read : KernelStore → α) : KernelTask α :=
  ExceptT.mk (Program.atomic {} fun w => (.ok (read w.store), w))

def update (label : Label) (change : KernelStore → KernelStore) : KernelTask Unit :=
  ExceptT.mk (Program.atomic label fun w => (.ok (), { w with store := change w.store }))

/-- `self._journal.append_event(...)` -/
def appendEvent (label : Label) (pid : String) (body : EventBody) : KernelTask Unit :=
  update label (appendEvents [⟨pid, body⟩])

/-- `self._clock.now()` -/
def readClock : KernelTask Int :=
  ExceptT.mk (Program.atomic {} fun w => (.ok w.clock, w))

/-- Draw ids, as many as are needed. -/
def drawIds (count : ℕ) : KernelTask (ℕ → String) :=
  ExceptT.mk (Program.atomic {} fun w =>
    (.ok fun index => uuid (w.drawn + index), { w with drawn := w.drawn + count }))

/-- `await driver.dispatch(...)` -/
def driverDispatch (actionId : String) : KernelTask DriverReply :=
  ExceptT.mk (Program.atomic { access := .dispatch actionId } fun w =>
    (.ok (w.replies w.asked), { w with asked := w.asked + 1, dispatched := w.dispatched ++ [actionId] }))

/-- `await driver.inspect(...)` -/
def driverInspect : KernelTask DriverReply :=
  ExceptT.mk (Program.atomic {} fun w =>
    (.ok (w.replies w.asked), { w with asked := w.asked + 1 }))

/-- A computation without an access of its own. -/
def compute (result : Except KernelError α) : KernelTask α := ExceptT.mk (.ret result)

@[simp] theorem compute_ok_bind (a : α) (rest : α → KernelTask β) :
    (compute (.ok a) >>= rest) = rest a := rfl

/-- Mark where the steps stand in a hand-over. -/
def during (phase : Phase) (task : KernelTask α) : KernelTask α :=
  Task.relabel (fun label => { label with phase := phase }) task

/-- A transaction on the database leaves the rest of the world alone. -/
theorem transaction_inStore (body : Int → Session KernelStore KernelError α) (w) :
    Session.transaction (inStore body) w = ((Session.transaction (body w.clock) w.store).1,
        { w with store := (Session.transaction (body w.clock) w.store).2 }) := by
  unfold Session.transaction inStore
  rcases body w.clock w.store with ⟨failure | a, store'⟩
  · rfl
  rfl

end

/-! ## The steps under a discipline -/

section
variable {α : Type}

theorem always_query (read : KernelStore → α) (does : ∀ w, P {} w w) : AlwaysTask P (query read) :=
  AlwaysTask.step does

theorem always_update (does : ∀ w, P label w { w with store := change w.store }) : AlwaysTask P (update label change) :=
  AlwaysTask.step does

/-- The step is on the database alone, and of this kind. -/
def OnStore (R : KernelStore → KernelStore → Prop) (label : Label) (w w' : World) : Prop :=
  label.access = .other ∧ ∃ store', R w.store store' ∧ w' = { w with store := store' }

theorem always_onStore (does : ∀ store, R store (change store)) : AlwaysTask (OnStore R) (update {} change) :=
  always_update fun w => ⟨rfl, change w.store, does w.store, rfl⟩

theorem always_transaction (does : ∀ w result store', Session.transaction (body w.clock) w.store = (result, store') →
      P label w { w with store := store' }) : AlwaysTask P (transaction label body) := by
  refine AlwaysTask.step fun w => ?_
  rw [transaction_inStore]
  exact does w _ _ rfl

theorem always_compute {result} {rest : β → KernelTask α}
    (goes : ∀ b, result = .ok b → AlwaysTask P (rest b)) : AlwaysTask P (compute result >>= rest) := by
  cases result with
  | error failure => exact AlwaysTask.throw failure
  | ok b => exact goes b rfl

end

section
variable {α : Type} {held : ℕ}

/-- A computation that fails leaves the method, and one that succeeds takes no step. -/
theorem safe_compute {result} {rest : β → KernelTask α} (fails : ∀ failure, raises failure w held)
    (goes : ∀ b, result = .ok b → SafeTask d returns raises (rest b) w held) :
    SafeTask d returns raises (compute result >>= rest) w held := by
  cases result with
  | error failure => exact fails failure
  | ok b => exact goes b rfl

theorem safe_query {read} (safe : ∀ w', d.rely w w' → d.guarantee {} w' w' ∧ returns (read w'.store) w' held) :
    SafeTask d returns raises (query read) w held :=
  SafeTask.step fun w' relied _ => ⟨(safe w' relied).1, held, by simp, (safe w' relied).2⟩

theorem safe_readClock {returns} (safe : ∀ w', d.rely w w' →
    d.guarantee {} w' w' ∧ returns w'.clock w' held) : SafeTask d returns raises readClock w held :=
  SafeTask.step fun w' relied _ => ⟨(safe w' relied).1, held, by simp, (safe w' relied).2⟩

theorem safe_update {returns} {label} {change} (safe : ∀ w', d.rely w w' → d.allowed label w' →
    d.guarantee label w' { w' with store := change w'.store } ∧
      ∃ held' : ℕ, (held' : ℤ) - held ≤ d.credit { w' with store := change w'.store } - d.credit w' ∧
        returns () { w' with store := change w'.store } held') :
    SafeTask d returns raises (update label change) w held :=
  SafeTask.step safe

theorem safe_transaction (safe : ∀ w' result store', d.rely w w' → d.allowed label w' →
    Session.transaction (body w'.clock) w'.store = (result, store') →
    d.guarantee label w' { w' with store := store' } ∧
      ∃ held' : ℕ, (held' : ℤ) - held ≤ d.credit { w' with store := store' } - d.credit w' ∧
        outcome returns raises result { w' with store := store' } held') :
    SafeTask d returns raises (transaction label body) w held := by
  refine SafeTask.step fun w' relied allowed => ?_
  rw [transaction_inStore]
  exact safe w' _ _ relied allowed rfl

end
end LongHorizonOS.KernelTasks
