import Mathlib.Data.List.Forall2
import Mathlib.Data.List.Induction

/-! Early exits and transactions. A function that raises is a computation in
`Except`; a database session is one in which the state survives the error, so
that leaving the state alone on failure is a property of the transaction
around it and not of the error itself. -/
namespace LongHorizonOS.FailFast
open List

section
variable {ε α β : Type}

/-- `if not condition: raise failure` -/
def require (condition : Prop) [Decidable condition] (failure : ε) : Except ε Unit :=
  if condition then .ok () else .error failure

/-- The value of an optional result, or an error when there is none. -/
def demand (value : Option α) (failure : ε) : Except ε α :=
  match value with
  | some a => .ok a
  | none => .error failure

/-- What a computation that returned has done: its first part returned, and
the rest returned from there. -/
theorem bind_ok {first : Except ε α} {result : β} :
    (first >>= rest) = .ok result ↔ ∃ a, first = .ok a ∧ rest a = .ok result := by
  cases first with
  | error failure => simp [bind, Except.bind]
  | ok a => simp [bind, Except.bind]

variable {failure : ε}

@[simp] theorem require_ok [Decidable condition] : require condition failure = .ok done ↔ condition := by
  unfold require
  split <;> simp [*]

@[simp] theorem require_bind_ok [Decidable condition] {result : β} :
    (require condition failure >>= rest) = .ok result ↔ condition ∧ rest () = .ok result := by
  rw [bind_ok]
  constructor
  · rintro ⟨_, holds, ran⟩
    exact ⟨require_ok.mp holds, ran⟩
  rintro ⟨holds, ran⟩
  exact ⟨(), require_ok.mpr holds, ran⟩

@[simp] theorem demand_ok : demand value failure = .ok a ↔ value = some a := by
  cases value <;> simp [demand]

/-- A loop of checks returns when every check does. -/
@[simp] theorem forM_ok {items : List ι} {test : ι → Except ε Unit} :
    items.forM test = .ok done ↔ ∀ item ∈ items, test item = .ok done := by
  induction items with
  | nil => simp [List.forM, pure, Except.pure]
  | cons item items ih =>
    change (test item >>= fun _ => items.forM test) = _ ↔ _
    rw [bind_ok, forall_mem_cons]
    constructor
    · rintro ⟨_, passed, rest⟩
      exact ⟨passed, ih.mp rest⟩
    rintro ⟨passed, rest⟩
    exact ⟨done, passed, ih.mpr rest⟩

/-- A loop that collects results returns when every turn does. -/
theorem mapM_ok {turn : α → Except ε β} {items : List α} :
    items.mapM turn = .ok results ↔ List.Forall₂ (fun item result => turn item = .ok result) items results := by
  induction items generalizing results with
  | nil => simp [pure, Except.pure, eq_comm, forall₂_nil_left_iff]
  | cons item items ih =>
    simp only [mapM_cons, bind_ok, forall₂_cons_left_iff, pure, Except.pure, Except.ok.injEq]
    constructor
    · rintro ⟨first, turned, rest, ran, rfl⟩
      exact ⟨first, rest, turned, ih.mp ran, rfl⟩
    rintro ⟨first, rest, turned, ran, rfl⟩
    exact ⟨first, turned, rest, ih.mpr ran, rfl⟩

theorem exists_of_forall₂ (each : List.Forall₂ related items results) (member : item ∈ items) :
    ∃ result ∈ results, related item result := by
  induction each with
  | nil => cases member
  | cons here _ ih =>
    rcases mem_cons.mp member with rfl | deeper
    · exact ⟨_, mem_cons_self, here⟩
    obtain ⟨result, inside, there⟩ := ih deeper
    exact ⟨result, mem_cons_of_mem _ inside, there⟩

/-- Whatever the computation raises is of the given kind. -/
def Raises (kind : ε → Prop) (result : Except ε α) : Prop := ∀ failure, result = .error failure → kind failure

section
theorem Raises.ok (a : α) : Raises kind (.ok a : Except ε α) := by
  intro failure raised
  cases raised

theorem Raises.require [Decidable condition] (named : kind failure) : Raises kind (require condition failure) := by
  intro other raised
  unfold FailFast.require at raised
  split at raised
  · cases raised
  cases raised
  exact named

theorem Raises.demand (named : kind failure) : Raises kind (demand value failure) := by
  intro other raised
  cases value with
  | some a => cases raised
  | none =>
    cases raised
    exact named

theorem Raises.bind (head : Raises kind first) (tail : ∀ a, Raises kind (rest a)) : Raises kind (first >>= rest) := by
  intro failure raised
  cases first with
  | error other =>
    cases raised
    exact head failure rfl
  | ok a => exact tail a failure raised

theorem Raises.forM {items : List ι} {test} (each : ∀ item, Raises kind (test item)) :
    Raises kind (items.forM test) := by
  induction items with
  | nil => exact Raises.ok ()
  | cons item items ih => exact (each item).bind fun _ => ih

end

/-- The invariant rule of a loop that may raise: what every completed turn
preserves holds when the loop has completed. A turn may use where in the loop
it stands. -/
theorem foldlM_invariant {σ ι : Type} {turn : σ → ι → Except ε σ} {P : σ → Prop}
    {items : List ι} {first last : σ} (step : ∀ earlier i later s s', items = earlier ++ i :: later →
      earlier.foldlM turn first = .ok s → P s → turn s i = .ok s' → P s')
    (holds : P first) (ran : items.foldlM turn first = .ok last) : P last := by
  induction items using List.reverseRecOn generalizing last with
  | nil =>
    cases ran
    exact holds
  | append_singleton items item ih =>
    rw [foldlM_append] at ran
    obtain ⟨before, turned, rest⟩ := bind_ok.mp ran
    rw [foldlM_cons] at rest
    obtain ⟨after, turn_ok, rest⟩ := bind_ok.mp rest
    cases rest
    refine step items item [] before last rfl turned (ih ?_ turned) turn_ok
    exact fun earlier i later s s' split =>
      step earlier i (later ++ [item]) s s' (by simp [split])

end

section
variable {σ ε α β : Type}

/-- A session on a state: it ends with a result or an error, and in both cases
with the state as the writes so far have left it. -/
abbrev Session (σ ε α : Type) := σ → Except ε α × σ

namespace Session

def pure (a : α) : Session σ ε α := fun s => (.ok a, s)

def bind (first : Session σ ε α) (rest : α → Session σ ε β) : Session σ ε β := fun s =>
  match first s with
  | (.ok a, s') => rest a s'
  | (.error failure, s') => (.error failure, s')

instance : Monad (Session σ ε) where
  pure := Session.pure
  bind := Session.bind

/-- Run a check that only reads. -/
def check (test : σ → Except ε α) : Session σ ε α := fun s => (test s, s)

def read (look : σ → α) : Session σ ε α := fun s => (.ok (look s), s)

def write (change : σ → σ) : Session σ ε Unit := fun s => (.ok (), change s)

@[simp] theorem read_bind (look : σ → α) (rest : α → Session σ ε β) (s : σ) :
    (read look >>= rest) s = rest (look s) s := rfl

@[simp] theorem write_bind (change : σ → σ) (rest : Unit → Session σ ε β) (s : σ) :
    (write change >>= rest) s = rest () (change s) := rfl

/-- `BEGIN IMMEDIATE`, the body, then `COMMIT`, or `ROLLBACK` when it raises. -/
def transaction (body : Session σ ε α) : Session σ ε α := fun s =>
  match body s with
  | (.ok a, s') => (.ok a, s')
  | (.error failure, _) => (.error failure, s)

variable {rest : α → Session σ ε β} {s s' : σ}

theorem bind_ok {s'' : σ} {b : β} : (first >>= rest) s = (.ok b, s'') ↔
    ∃ a s', first s = (.ok a, s') ∧ rest a s' = (.ok b, s'') := by
  change Session.bind first rest s = _ ↔ _
  unfold Session.bind
  split
  · rename_i a s' eq
    simp [eq]
  rename_i failure s' eq
  simp [eq]

@[simp] theorem check_ok : check test s = (.ok a, s') ↔ test s = .ok a ∧ s' = s := by
  simp [check, eq_comm]

@[simp] theorem write_ok : write (ε := ε) change s = (.ok done, s') ↔ s' = change s := by
  simp [write, eq_comm]

/-- A check at the head of a session reads the state the rest starts from. -/
theorem check_bind_ok : (check test >>= rest) s = (.ok b, s') ↔ ∃ a, test s = .ok a ∧ rest a s = (.ok b, s') := by
  rw [bind_ok]
  constructor
  · rintro ⟨a, _, checked, ran⟩
    obtain ⟨passed, rfl⟩ := check_ok.mp checked
    exact ⟨a, passed, ran⟩
  · rintro ⟨a, passed, ran⟩
    exact ⟨a, s, check_ok.mpr ⟨passed, rfl⟩, ran⟩

theorem write_bind_ok {change : σ → σ} {rest : Unit → Session σ ε β} {b : β} :
    (write change >>= rest) s = (.ok b, s') ↔ rest () (change s) = (.ok b, s') := by
  rw [bind_ok]
  constructor
  · rintro ⟨_, _, changed, ran⟩
    obtain rfl := write_ok.mp changed
    exact ran
  · exact fun ran => ⟨(), _, write_ok.mpr rfl, ran⟩

@[simp] theorem transaction_ok : transaction body s = (.ok a, s') ↔ body s = (.ok a, s') := by
  unfold transaction
  split
  · rename_i eq
    simp [eq]
  rename_i eq
  simp [eq]

/-- A transaction that raises has changed nothing. -/
theorem transaction_error {failure : ε} (raised : transaction body s = (.error failure, s')) : s' = s := by
  unfold transaction at raised
  split at raised
  · cases raised
  cases raised
  rfl

/-! ### Sessions that change nothing when they raise -/

/-- The session never changes the state. -/
def ReadOnly (body : Session σ ε α) : Prop := ∀ s, (body s).2 = s

/-- The session has changed nothing when it raises. -/
def AllOrNothing (body : Session σ ε α) : Prop :=
  ∀ s s' failure, body s = (.error failure, s') → s' = s

theorem check_readOnly (test : σ → Except ε α) : ReadOnly (check test) := fun _ => rfl

theorem transaction_allOrNothing (body : Session σ ε α) : AllOrNothing (transaction body) :=
  fun _ _ _ => transaction_error

theorem transaction_readOnly (reads : ReadOnly body) : ReadOnly (transaction body) := by
  intro s
  have same := reads s
  unfold transaction
  split
  · rename_i eq
    rw [eq] at same
    exact same
  · rfl

/-- A check on its own changes nothing. -/
theorem transaction_check (ran : transaction (check test) s = (result, s')) : s' = s :=
  (congrArg Prod.snd ran).symm.trans (transaction_readOnly (check_readOnly test) s)

theorem ReadOnly.allOrNothing (reads : ReadOnly body) : AllOrNothing body := by
  intro s s' failure raised
  have same := reads s
  rw [raised] at same
  exact same

/-- Reading first does not spoil what the rest guarantees. -/
theorem ReadOnly.bind (reads : ReadOnly first)
    (later : ∀ a, AllOrNothing (rest a)) : AllOrNothing (first >>= rest) := by
  intro s s' failure raised
  have same := reads s
  change Session.bind first rest s = _ at raised
  unfold Session.bind at raised
  split at raised
  · rename_i a middle eq
    rw [eq] at same
    obtain rfl : middle = s := same
    exact later a middle s' failure raised
  rename_i eq
  rw [eq] at same
  cases raised
  exact same

/-- What follows may write as long as it does not raise. -/
theorem AllOrNothing.bind (guarded : AllOrNothing first)
    (total : ∀ a s, ∃ b s', rest a s = (.ok b, s')) : AllOrNothing (first >>= rest) := by
  intro s s' failure raised
  change Session.bind first _ s = _ at raised
  unfold Session.bind at raised
  split at raised
  · rename_i a middle eq
    obtain ⟨b, after, ended⟩ := total a middle
    rw [ended] at raised
    cases raised
  · rename_i eq
    cases raised
    exact guarded s s' failure eq

theorem AllOrNothing.map (guarded : AllOrNothing first) (result : α → β) :
    AllOrNothing (first >>= fun a => Pure.pure (result a)) :=
  guarded.bind fun a s => ⟨result a, s, rfl⟩

theorem read_readOnly (look : σ → α) : ReadOnly (read look : Session σ ε α) := fun _ => rfl

theorem write_allOrNothing (change : σ → σ) : AllOrNothing (write change : Session σ ε Unit) :=
  fun _ _ _ raised => by cases raised

/-! ### Sessions that see the same -/

/-- On related states both return the same and leave related states. -/
def Relates (R : σ → σ → Prop) (body body' : Session σ ε α) : Prop :=
  ∀ s s', R s s' → (body s).1 = (body' s').1 ∧ R (body s).2 (body' s').2

namespace Relates
theorem pure (a : α) : Relates R (Session.pure a : Session σ ε α) (Session.pure a) :=
  fun _ _ same => ⟨rfl, same⟩

theorem bind (head : Relates R first first') (tail : ∀ a, Relates R (rest a) (rest' a)) :
    Relates R (first >>= rest) (first' >>= rest') := by
  intro s s' same
  change (Session.bind first rest s).1 = (Session.bind first' rest' s').1 ∧
    R (Session.bind first rest s).2 (Session.bind first' rest' s').2
  unfold Session.bind
  have heads := head s s' same
  generalize first s = left, first' s' = right at heads ⊢
  obtain ⟨result, middle⟩ := left
  obtain ⟨result', middle'⟩ := right
  obtain ⟨rfl, kept⟩ : result = result' ∧ R middle middle' := heads
  cases result with
  | error failure => exact ⟨rfl, kept⟩
  | ok a => exact tail a middle middle' kept

theorem check (seen : ∀ s s', R s s' → test s = test' s') :
    Relates R (Session.check test) (Session.check test') := fun s s' same => ⟨seen s s' same, same⟩

/-- What is read may differ as long as the rest does not depend on it. -/
theorem read (tail : ∀ s s', R s s' → Relates R (rest (look s)) (rest' (look' s'))) :
    Relates R (Session.read look >>= rest) (Session.read look' >>= rest') :=
  fun s s' same => tail s s' same s s' same

theorem write (kept : ∀ s s', R s s' → R (change s) (change' s')) :
    Relates R (Session.write change : Session σ ε Unit) (Session.write change') :=
  fun s s' same => ⟨rfl, kept s s' same⟩

theorem transaction (related : Relates R body body') :
    Relates R (Session.transaction body) (Session.transaction body') := by
  intro s s' same
  unfold Session.transaction
  have inside := related s s' same
  generalize body s = left, body' s' = right at inside ⊢
  obtain ⟨result, middle⟩ := left
  obtain ⟨result', middle'⟩ := right
  obtain ⟨rfl, kept⟩ : result = result' ∧ R middle middle' := inside
  cases result with
  | error failure => exact ⟨rfl, same⟩
  | ok a => exact ⟨rfl, kept⟩

end Relates

end Session
end
end LongHorizonOS.FailFast
