import LongHorizonOS.FailFast
import LongHorizonOS.Interleaving
import Mathlib.Algebra.BigOperators.Intervals

/-! Programs that are made of atomic steps on a shared state. A program has
returned, or it takes one labelled step and goes on with what the step has
read. The same program can run alone, be cut off after any number of steps, or
run with others in any interleaving. What its steps do is stated by a
discipline: what the other programs may do between two steps, what a step may
rely on, what it guarantees, and how many credits it may spend. -/
namespace LongHorizonOS.AtomicPrograms
open FailFast Interleaving
open List hiding getElem?_eq_some_iff

inductive Program (σ ℓ α : Type) where
  | ret (a : α)
  | step (label : ℓ) (write : σ → σ) (next : σ → Program σ ℓ α)

namespace Program
section
variable {σ ℓ α β : Type}

def bind (first : Program σ ℓ α) (rest : α → Program σ ℓ β) : Program σ ℓ β :=
  match first with
  | .ret a => rest a
  | .step label write next => .step label write fun s => (next s).bind rest

instance : Monad (Program σ ℓ) where
  pure := .ret
  bind := bind

/-- One step that reads and writes. -/
def atomic (label : ℓ) (access : σ → α × σ) : Program σ ℓ α :=
  .step label (fun s => (access s).2) fun s => .ret (access s).1

/-- The same steps under other labels. -/
def relabel (rename : ℓ → ℓ) : Program σ ℓ α → Program σ ℓ α
  | .ret a => .ret a
  | .step label write next => .step (rename label) write fun s => (next s).relabel rename

/-- The same steps on a part of a larger state. -/
def within {τ ℓ' : Type} (part : τ → σ) (put : σ → τ → τ) (rename : ℓ → ℓ') : Program σ ℓ α → Program τ ℓ' α
  | .ret a => .ret a
  | .step label write next => .step (rename label) (fun t => put (write (part t)) t) fun t =>
      (next (part t)).within part put rename

/-- The label of the next step. -/
def label? : Program σ ℓ α → Option ℓ
  | .ret _ => none
  | .step label _ _ => some label

/-- The next step, or nothing once the program has returned. -/
def advance : Program σ ℓ α → σ → Program σ ℓ α × σ
  | .ret a, s => (.ret a, s)
  | .step _ write next, s => (next s, write s)

/-- The whole program alone. -/
def run : Program σ ℓ α → σ → α × σ
  | .ret a, s => (a, s)
  | .step _ write next, s => (next s).run (write s)

theorem run_bind (first) (rest : α → Program σ ℓ β) (s : σ) :
    (first >>= rest).run s = (rest (first.run s).1).run (first.run s).2 := by
  change (bind first rest).run s = _
  induction first generalizing s with
  | ret a => rfl
  | step label write next ih => exact ih s (write s)

@[simp] theorem run_atomic (label : ℓ) (access : σ → α × σ) (s : σ) :
    (atomic label access).run s = access s := rfl

theorem run_within {part : τ → σ} {put : σ → τ → τ} {rename : ℓ → ℓ'}
    (part_put : ∀ s t, part (put s t) = s) (put_part : ∀ t, put (part t) t = t)
    (put_put : ∀ s s' t, put s (put s' t) = put s t) (program : Program σ ℓ α) (t : τ) :
    (program.within part put rename).run t = ((program.run (part t)).1, put (program.run (part t)).2 t) := by
  induction program generalizing t with
  | ret a => exact Prod.ext rfl (put_part t).symm
  | step label write next ih =>
    change ((next (part t)).within part put rename).run (put (write (part t)) t) = _
    rw [ih, part_put, put_put]
    rfl

theorem bind_assoc (first : Program σ ℓ α) (second : α → Program σ ℓ β) (third : β → Program σ ℓ δ) :
    (first.bind second).bind third = first.bind fun a => (second a).bind third := by
  induction first with
  | ret a => rfl
  | step label write next ih => exact congrArg (step label write) (funext ih)

theorem within_bind (first : Program σ ℓ α) (rest : α → Program σ ℓ β) : (first.bind rest).within part put rename =
    (first.within part put rename).bind fun a => (rest a).within part put rename := by
  induction first with
  | ret a => rfl
  | step label write next ih => exact congrArg (step (rename label) _) (funext fun t => ih (part t))

end
end Program

/-- A program that can raise. -/
abbrev Task (σ ℓ ε α : Type) := ExceptT ε (Program σ ℓ) α

namespace Task
variable {σ ℓ ε α β : Type}

/-- A transaction of its own, which a raised error rolls back. -/
def transaction (label : ℓ) (body : Session σ ε α) : Task σ ℓ ε α :=
  ExceptT.mk (Program.atomic label (Session.transaction body))

/-- The task on its own, whatever it ends with. -/
def launch (task : Task σ ℓ ε α) : Program σ ℓ Unit := ExceptT.run task >>= fun _ => .ret ()

/-- What the task does alone. -/
def alone (task : Task σ ℓ ε α) : Session σ ε α := Program.run (ExceptT.run task)

def relabel (rename : ℓ → ℓ) (task : Task σ ℓ ε α) : Task σ ℓ ε α :=
  ExceptT.mk (Program.relabel rename (ExceptT.run task))

theorem alone_bind (first) (rest : α → Task σ ℓ ε β) (s : σ) :
    alone (first >>= rest) s = Session.bind (alone first) (fun a => alone (rest a)) s := by
  change Program.run ((ExceptT.run first) >>= ExceptT.bindCont rest) s = _
  rw [Program.run_bind, Session.bind]
  unfold alone
  rcases Program.run (ExceptT.run first) s with ⟨failure | a, s'⟩
  · rfl
  rfl

end Task

/-! ## What every step of a program does -/

section
variable {σ ℓ α β ε : Type}

/-- Each step, whatever it finds, does what is stated of its label. -/
def Always (P : ℓ → σ → σ → Prop) : Program σ ℓ α → Prop
  | .ret _ => True
  | .step label write next => ∀ s, P label s (write s) ∧ Always P (next s)

theorem Always.mono (weaken : ∀ label s s', P label s s' → Q label s s')
    (always : Always P program) : Always Q program := by
  induction program with
  | ret a => trivial
  | step label write next ih =>
    exact fun s => ⟨weaken label s _ (always s).1, ih s (always s).2⟩

theorem Always.and (one : Always P program) (other : Always Q program) :
    Always (fun label s s' => P label s s' ∧ Q label s s') program := by
  induction program with
  | ret a => trivial
  | step label write next ih => exact fun s => ⟨⟨(one s).1, (other s).1⟩, ih s (one s).2 (other s).2⟩

theorem Always.bind (head : Always P first) (tail : ∀ a, Always P (rest a)) : Always P (first >>= rest) := by
  change Always P (Program.bind first rest)
  induction first with
  | ret a => exact tail a
  | step label write next ih => exact fun s => ⟨(head s).1, ih s (head s).2⟩

theorem Always.relabel (renamed : ∀ label s s', P label s s' → Q (rename label) s s')
    (always : Always P program) : Always Q (program.relabel rename) := by
  induction program with
  | ret a => trivial
  | step label write next ih =>
    exact fun s => ⟨renamed label s _ (always s).1, ih s (always s).2⟩

theorem Always.within (placed : ∀ label s' t, P label (part t) s' → Q (rename label) t (put s' t))
    (always : Always P program) : Always Q (program.within part put rename) := by
  induction program with
  | ret a => trivial
  | step label write next ih =>
    exact fun t => ⟨placed label _ t (always (part t)).1, ih (part t) (always (part t)).2⟩

/-- The same of a task. -/
def AlwaysTask (P : ℓ → σ → σ → Prop) (task : Task σ ℓ ε α) : Prop := Always P (ExceptT.run task)

namespace AlwaysTask

theorem step (does : ∀ s, P label s (access s).2) :
    AlwaysTask P (ExceptT.mk (Program.atomic label access) : Task σ ℓ ε α) :=
  fun s => ⟨does s, trivial⟩

theorem pure (a : α) : AlwaysTask P (Pure.pure a : Task σ ℓ ε α) := trivial

theorem throw (failure : ε) : AlwaysTask P (MonadExcept.throw failure : Task σ ℓ ε α) := trivial

theorem bind (head : AlwaysTask P first) (tail : ∀ a, AlwaysTask P (rest a)) : AlwaysTask P (first >>= rest) := by
  refine Always.bind head fun result => ?_
  cases result with
  | ok a => exact tail a
  | error failure => trivial

theorem forM {items : List ι} {turn : ι → Task σ ℓ ε Unit}
    (turns : ∀ item, AlwaysTask P (turn item)) : AlwaysTask P (items.forM turn) := by
  induction items with
  | nil => trivial
  | cons item items ih => exact bind (turns item) fun _ => ih

end AlwaysTask
/-- What every step does, the whole program does alone. -/
theorem Always.run (refl : ∀ s, R s s) (trans : ∀ s s' s'', R s s' → R s' s'' → R s s'')
    (always : Always (fun _ => R) program) (s : σ) : R s (program.run s).2 := by
  induction program generalizing s with
  | ret a => exact refl s
  | step label write next ih => exact trans _ _ _ (always s).1 (ih s (always s).2 (write s))

end

/-! ## Disciplines -/

/-- What the steps of the programs on a shared state keep to. `rely` bounds
what happens between two steps of a program, `allowed` is what a step needs of
the state that it finds, `guarantee` is what it promises, and the credits that
programs hold are backed by `credit`. -/
structure Discipline (σ ℓ : Type) where
  rely : σ → σ → Prop
  allowed : ℓ → σ → Prop := fun _ _ => True
  guarantee : ℓ → σ → σ → Prop
  credit : σ → ℤ := fun _ => 0

section
variable {σ ℓ α β ε : Type} (d : Discipline σ ℓ)

/-- The postcondition that asks for nothing. -/
abbrev Any : α → σ → ℕ → Prop := fun _ _ _ => True

/-- The program keeps to the discipline from the state on, holding so many
credits, and what it returns satisfies the postcondition. -/
def Safe (post : α → σ → ℕ → Prop) : Program σ ℓ α → σ → ℕ → Prop
  | .ret a, s, held => post a s held
  | .step label write next, s, held => ∀ s', d.rely s s' → d.allowed label s' →
      d.guarantee label s' (write s') ∧
      ∃ held' : ℕ, (held' : ℤ) - held ≤ d.credit (write s') - d.credit s' ∧ Safe post (next s') (write s') held'

variable {d}

theorem Safe.mono (weaken : ∀ a s held, post a s held → post' a s held)
    (safe : Safe d post program s held) : Safe d post' program s held := by
  induction program generalizing s held with
  | ret a => exact weaken a s held safe
  | step label write next ih =>
    intro s' relied allowed
    obtain ⟨guaranteed, held', paid, rest⟩ := safe s' relied allowed
    exact ⟨guaranteed, held', paid, ih s' rest⟩

/-- What no step disturbs holds in the end, too. -/
theorem Safe.frame {K : σ → Prop} (relies : ∀ s s', d.rely s s' → K s → K s')
    (steps : ∀ label s s', d.guarantee label s s' → K s → K s') (safe : Safe d post program s held)
    (known : K s) : Safe d (fun a s held => post a s held ∧ K s) program s held := by
  induction program generalizing s held with
  | ret a => exact ⟨safe, known⟩
  | step label write next ih =>
    intro s' relied allowed
    obtain ⟨guaranteed, held', paid, rest⟩ := safe s' relied allowed
    exact ⟨guaranteed, held', paid, ih s' rest (steps label s' _ guaranteed (relies s s' relied known))⟩

theorem Safe.bind (safe : Safe d post first s held)
    (later : ∀ a s held, post a s held → Safe d post' (rest a) s held) : Safe d post' (first >>= rest) s held := by
  change Safe d post' (Program.bind first rest) s held
  induction first generalizing s held with
  | ret a => exact later a s held safe
  | step label write next ih =>
    intro s' relied allowed
    obtain ⟨guaranteed, held', paid, continued⟩ := safe s' relied allowed
    exact ⟨guaranteed, held', paid, ih s' continued⟩

/-- Labels that mean the same can be exchanged. -/
theorem Safe.relabel (allowed : ∀ label s, d.allowed (rename label) s → d.allowed label s)
    (guaranteed : ∀ label s s', d.guarantee label s s' → d.guarantee (rename label) s s')
    (safe : Safe d post program s held) : Safe d post (program.relabel rename) s held := by
  induction program generalizing s held with
  | ret a => exact safe
  | step label write next ih =>
    intro s' relied granted
    obtain ⟨promised, held', paid, rest⟩ := safe s' relied (allowed label s' granted)
    exact ⟨guaranteed label _ _ promised, held', paid, ih s' rest⟩

/-- What others do between two steps leaves a program safe. -/
theorem Safe.stable (trans : ∀ s s' s'', d.rely s s' → d.rely s' s'' → d.rely s s'')
    (kept : ∀ a s s' held, post a s held → d.rely s s' → post a s' held)
    (safe : Safe d post program s held) (relied : d.rely s s') : Safe d post program s' held := by
  cases program with
  | ret a => exact kept a s s' held safe relied
  | step label write next => exact fun s'' later => safe s'' (trans s s' s'' relied later)

/-! ### Tasks -/

/-- The postcondition of a task, apart for what it returns and what it raises. -/
def outcome (returns : α → σ → ℕ → Prop) (raises : ε → σ → ℕ → Prop) : Except ε α → σ → ℕ → Prop
  | .ok a => returns a
  | .error failure => raises failure

variable (d) in
def SafeTask (returns : α → σ → ℕ → Prop) (raises : ε → σ → ℕ → Prop) (task : Task σ ℓ ε α) : σ → ℕ → Prop :=
  Safe d (outcome returns raises) (ExceptT.run task)

/-- A program each of whose steps keeps an assertion. -/
theorem Safe.of_always (always : Always P program) (start : I s held)
    (steps : ∀ label s s' s'', I s held → d.rely s s' → d.allowed label s' → P label s' s'' →
      d.guarantee label s' s'' ∧ d.credit s' ≤ d.credit s'' ∧ I s'' held) : Safe d (fun _ => I) program s held := by
  induction program generalizing s with
  | ret a => exact start
  | step label write next ih =>
    intro s' relied allowed
    obtain ⟨guaranteed, funded, kept⟩ := steps label s s' _ start relied allowed (always s').1
    exact ⟨guaranteed, held, by omega, ih s' (always s').2 kept⟩

namespace SafeTask
variable {returns : α → σ → ℕ → Prop} {raises : ε → σ → ℕ → Prop} {held : ℕ}

theorem step (safe : ∀ s', d.rely s s' → d.allowed label s' → d.guarantee label s' (access s').2 ∧
      ∃ held' : ℕ, (held' : ℤ) - held ≤ d.credit (access s').2 - d.credit s' ∧
        outcome returns raises (access s').1 (access s').2 held') :
    SafeTask d returns raises (ExceptT.mk (Program.atomic label access)) s held := safe

theorem of_always (always : AlwaysTask P task) (start : I s held)
    (steps : ∀ label s s' s'', I s held → d.rely s s' → d.allowed label s' → P label s' s'' →
      d.guarantee label s' s'' ∧ d.credit s' ≤ d.credit s'' ∧ I s'' held) :
    SafeTask d (fun _ => I) (fun _ => I) task s held :=
  (Safe.of_always always start steps).mono fun result _ _ kept => by cases result <;> exact kept

theorem mono {returns' raises'} (safe : SafeTask d returns raises task s held)
    (returned : ∀ a s held, returns a s held → returns' a s held)
    (raised : ∀ failure s held, raises failure s held → raises' failure s held) :
    SafeTask d returns' raises' task s held :=
  Safe.mono (fun result s held ended => by
    cases result with
    | ok a => exact returned a s held ended
    | error failure => exact raised failure s held ended) safe

theorem launch (safe : SafeTask d returns raises task s held) : Safe d Any task.launch s held :=
  Safe.bind safe fun _ _ _ _ => trivial

theorem bind (safe : SafeTask d returns raises first s held)
    (later : ∀ a s held, returns a s held → SafeTask d returns' raises (rest a) s held) :
    SafeTask d returns' raises (first >>= rest) s held := by
  refine Safe.bind safe fun result s held ended => ?_
  cases result with
  | ok a => exact later a s held ended
  | error failure => exact ended

/-- A first part that leaves nothing to be held. -/
theorem andThen (safe : SafeTask d (fun _ _ held => held = 0) raises first s held)
    (later : ∀ a s, SafeTask d returns' raises (rest a) s 0) : SafeTask d returns' raises (first >>= rest) s held :=
  safe.bind fun a s _ unspent => unspent ▸ later a s

theorem catching (safe : SafeTask d returns caught first s held)
    (later : ∀ failure s held, caught failure s held → SafeTask d returns raises (handle failure) s held) :
    SafeTask d returns raises (tryCatch first handle) s held := by
  refine Safe.bind safe fun result s held ended => ?_
  cases result with
  | ok a => exact ended
  | error failure => exact later failure s held ended

/-- A loop whose turns keep an assertion. -/
theorem forM {items : List ι} {turn : ι → Task σ ℓ ε Unit}
    (turns : ∀ item ∈ items, ∀ s held, I s held → SafeTask d (fun _ => I) raises (turn item) s held)
    (start : I s held) : SafeTask d (fun _ => I) raises (items.forM turn) s held := by
  induction items generalizing s held with
  | nil => exact start
  | cons item items ih =>
    refine bind (turns item mem_cons_self s held start) fun _ s held kept => ?_
    exact ih (fun other member => turns other (mem_cons_of_mem _ member)) kept

end SafeTask

/-! ### Tasks that keep an assertion -/

variable (d) in
/-- Whatever it returns or raises, the task keeps the assertion. -/
def KeepsTask (I : σ → Prop) (task : Task σ ℓ ε α) : Prop :=
  ∀ s held, I s → SafeTask d (fun _ s _ => I s) (fun _ s _ => I s) task s held

namespace KeepsTask
theorem pure (a : α) : KeepsTask d I (Pure.pure a : Task σ ℓ ε α) := fun _ _ kept => kept

theorem throw (failure : ε) : KeepsTask d I (MonadExcept.throw failure : Task σ ℓ ε α) :=
  fun _ _ kept => kept

variable {first task : Task σ ℓ ε α}

theorem bind (head : KeepsTask d I first) (tail : ∀ a, KeepsTask d I (rest a)) :
    KeepsTask d I (first >>= rest) := fun s held kept =>
  .bind (head s held kept) fun a s held kept => tail a s held kept

theorem catching (head : KeepsTask d I first) (tail : ∀ failure, KeepsTask d I (handle failure)) :
    KeepsTask d I (tryCatch first handle) :=
  fun s held kept => .catching (head s held kept) fun failure s held kept =>
    tail failure s held kept

theorem forM {items : List ι} {turn : ι → Task σ ℓ ε Unit}
    (turns : ∀ item, KeepsTask d I (turn item)) : KeepsTask d I (items.forM turn) := fun _ _ kept =>
  .forM (fun item _ s held kept => turns item s held kept) kept

theorem of_always (always : AlwaysTask P task)
    (steps : ∀ label s s' s'', I s → d.rely s s' → d.allowed label s' → P label s' s'' →
      d.guarantee label s' s'' ∧ d.credit s' ≤ d.credit s'' ∧ I s'') : KeepsTask d I task :=
  fun _ _ kept => .of_always always kept steps

theorem relabel (allowed : ∀ label s, d.allowed (rename label) s → d.allowed label s)
    (guaranteed : ∀ label s s', d.guarantee label s s' → d.guarantee (rename label) s s')
    (kept : KeepsTask d I task) : KeepsTask d I (task.relabel rename) := fun s held start =>
  .relabel allowed guaranteed (kept s held start)

end KeepsTask

/-! ### Programs that run alone -/

/-- Nothing happens between two steps. -/
def solo : Discipline σ ℓ where
  rely s s' := s' = s
  guarantee _ _ _ := True

theorem Safe.run (safe : Safe solo post program s held) : ∃ held', post (program.run s).1 (program.run s).2 held' := by
  induction program generalizing s held with
  | ret a => exact ⟨held, safe⟩
  | step label write next ih =>
    obtain ⟨_, held', _, rest⟩ := safe s rfl trivial
    exact ih s rest

variable {I : σ → Prop}

theorem SafeTask.alone
    (safe : SafeTask solo (fun _ s _ => I s) (fun _ s _ => I s) task s held) : I (task.alone s).2 := by
  obtain ⟨held, kept⟩ := Safe.run safe
  change outcome _ _ (task.alone s).1 (task.alone s).2 held at kept
  cases ended : (task.alone s).1 with
  | ok a => rw [ended] at kept; exact kept
  | error failure => rw [ended] at kept; exact kept

theorem KeepsTask.alone (keeps : KeepsTask solo I task) (start : I s) : I (task.alone s).2 :=
  SafeTask.alone (keeps s 0 start)

/-- A task alone keeps what each of its steps keeps. -/
theorem KeepsTask.of_steps (always : AlwaysTask P task) (steps : ∀ label s s', I s → P label s s' → I s') :
    KeepsTask solo I task :=
  .of_always always fun label _ s' s'' kept relied _ step =>
    ⟨trivial, le_rfl, steps label s' s'' (relied ▸ kept) step⟩

end

/-! ## Obligations -/

section
variable {σ ℓ ι α β ε : Type}

/-- Some steps open obligations, and the step that comes next shows by its label that
it owes them. -/
def Discharges (d : Discipline σ ℓ) (opens owes : ℓ → ι → Prop) : Program σ ℓ α → Prop
  | .ret _ => True
  | .step label _ next => ∀ s, d.allowed label s →
      (∀ k, opens label k → ∃ owing, (next s).label? = some owing ∧ owes owing k) ∧
        Discharges d opens owes (next s)

variable {d : Discipline σ ℓ} {opens owes : ℓ → ι → Prop}

theorem Discharges.bind (head : Discharges d opens owes first)
    (tail : ∀ a, Discharges d opens owes (rest a)) : Discharges d opens owes (first >>= rest) := by
  change Discharges d opens owes (Program.bind first rest)
  induction first with
  | ret a => exact tail a
  | step label write next ih =>
    intro s allowed
    obtain ⟨owed, later⟩ := head s allowed
    refine ⟨fun k opened => ?_, ih s later⟩
    obtain ⟨owing, shown, owes⟩ := owed k opened
    refine ⟨owing, ?_, owes⟩
    -- A program that has returned shows nothing, so the next step is one of the first part.
    change ((next s).bind rest).label? = some owing
    cases last : next s with
    | ret a =>
      rw [last] at shown
      cases shown
    | step label' write' next' =>
      rw [last] at shown
      exact shown

theorem Discharges.of_always (closed : Always (fun label _ _ => ∀ k, ¬ opens label k) program) :
    Discharges d opens owes program := by
  induction program with
  | ret a => trivial
  | step label write next ih =>
    exact fun s _ => ⟨fun k opened => absurd opened ((closed s).1 k), ih s (closed s).2⟩

variable (d opens owes) in
/-- The same of a task. -/
def DischargesTask (task : Task σ ℓ ε α) : Prop := Discharges d opens owes (ExceptT.run task)

namespace DischargesTask

theorem pure (a : α) : DischargesTask d opens owes (Pure.pure a : Task σ ℓ ε α) := trivial

theorem throw (failure : ε) : DischargesTask d opens owes (MonadExcept.throw failure : Task σ ℓ ε α) := trivial

theorem bind (head : DischargesTask d opens owes first) (tail : ∀ a, DischargesTask d opens owes (rest a)) :
    DischargesTask d opens owes (first >>= rest) := by
  refine Discharges.bind head fun result => ?_
  cases result with
  | ok a => exact tail a
  | error failure => trivial

/-- A step that opens nothing. -/
theorem step (closed : ∀ k, ¬ opens label k) :
    DischargesTask d opens owes (ExceptT.mk (Program.atomic label access) : Task σ ℓ ε α) :=
  fun _ _ => ⟨fun k opened => absurd opened (closed k), trivial⟩

theorem launch (discharges : DischargesTask d opens owes task) :
    Discharges d opens owes task.launch := .bind discharges fun _ => trivial

end DischargesTask
end

/-! ## Interleavings of programs -/

section
variable {σ ℓ κ α : Type}

/-- Programs that share a state with an environment. -/
def machine (act : σ → α → σ) (enter : κ → Program σ ℓ Unit) : Machine σ (Program σ ℓ Unit) α κ where
  act := act
  enter := enter
  advance := Program.advance

/-- The next step of a client finds what it needs. -/
def Discipline.Allows (d : Discipline σ ℓ) (s : σ) (client : Program σ ℓ Unit) : Prop :=
  ∀ label, client.label? = some label → d.allowed label s

variable {d : Discipline σ ℓ} {act : σ → α → σ} {enter : κ → Program σ ℓ Unit}

/-- What the rule for interleavings needs of a discipline: it tolerates the
environment and the programs that enter. -/
structure Discipline.Admits (d : Discipline σ ℓ) (holds : σ → Prop) (act : σ → α → σ)
    (enter : κ → Program σ ℓ Unit) : Prop where
  trans : ∀ s s' s'', d.rely s s' → d.rely s' s'' → d.rely s s''
  guaranteed : ∀ label s s', holds s → d.guarantee label s s' → holds s' ∧ d.rely s s'
  acts : ∀ s action, holds s → holds (act s action) ∧ d.rely s (act s action) ∧
    d.credit s ≤ d.credit (act s action)
  enters : ∀ s argument, holds s → Safe d (fun _ _ _ => True) (enter argument) s 0
  self : ∀ s, holds s → d.rely s s

/-- The clients are safe with the credits that the state backs. -/
structure Accounted (d : Discipline σ ℓ) (start : σ) (system : System σ (Program σ ℓ Unit))
    (held : ℕ → ℕ) : Prop where
  safe : ∀ index client, system.clients[index]? = some client →
    Safe d (fun _ _ _ => True) client system.shared (held index)
  backed : ((∑ index ∈ Finset.range system.clients.length, held index : ℕ) : ℤ) ≤
    d.credit system.shared - d.credit start

/-- A client that is absent or has returned steps no more. -/
theorem next_cases (act : σ → α → σ) (enter : κ → Program σ ℓ Unit) (system) :
    (machine act enter).next system (.step index) = system ∨
      ∃ label write next, system.clients[index]? = some (.step label write next) ∧
        (machine act enter).next system (.step index) =
          ⟨write system.shared, system.clients.set index (next system.shared)⟩ := by
  rw [Machine.next]
  cases found : system.clients[index]? with
  | none => exact .inl rfl
  | some client =>
    cases client with
    | ret a =>
      obtain ⟨_, here⟩ := getElem?_eq_some_iff.mp found
      have same : system.clients.set index (.ret a) = system.clients := by rw [← here, set_getElem_self]
      exact .inl (congrArg (System.mk system.shared) same)
    | step label write next => exact .inr ⟨label, write, next, rfl, rfl⟩

variable {holds : σ → Prop}

section
variable (admits : d.Admits holds act enter)
include admits

/-- Along every interleaving whose steps find what they need, the invariant
holds, every client is safe, and the credits that they hold are backed. -/
theorem conduct_accounted (initial : holds start)
    (meets : (machine act enter).Meets (fun _ s client => d.Allows s client) start events) :
    holds ((machine act enter).conduct start events).shared ∧
      ∃ held, Accounted d start ((machine act enter).conduct start events) held := by
  induction events using List.reverseRecOn with
  | nil => exact ⟨initial, fun _ => 0, fun index client found => by simp [Machine.conduct] at found,
      by simp [Machine.conduct]⟩
  | append_singleton events event ih =>
    obtain ⟨inv, held, accounted⟩ := ih meets.of_append
    have tested := fun index client => meets events index [] client
    rw [Machine.conduct_append]
    generalize (machine act enter).conduct start events = system at inv accounted tested ⊢
    cases event with
    | act action =>
      obtain ⟨kept, relied, funded⟩ := admits.acts _ action inv
      have backed := accounted.backed
      refine ⟨kept, held, fun index client found => ?_, ?_⟩
      · exact (accounted.safe index client found).stable admits.trans (fun _ _ _ _ _ _ => trivial) relied
      change _ ≤ d.credit (act system.shared action) - d.credit start
      exact backed.trans (Int.sub_le_sub_right funded _)
    | enter argument =>
      -- The newcomer holds nothing.
      refine ⟨inv, Function.update held system.clients.length 0, fun index client found => ?_, ?_⟩
      · rcases Machine.found_append found with old | ⟨rfl, rfl⟩
        · rw [Function.update_of_ne (getElem?_eq_some_iff.mp old).1.ne]
          exact accounted.safe index client old
        rw [Function.update_self]
        exact admits.enters _ argument inv
      · simp only [Machine.next, length_append, length_singleton, Finset.sum_range_succ,
          Finset.sum_update_of_notMem Finset.notMem_range_self, Function.update_self, Nat.add_zero]
        exact accounted.backed
    | step index =>
      rcases next_cases act enter system with idle | ⟨label, write, next, found, stepped⟩
      · rw [idle]
        exact ⟨inv, held, accounted⟩
      obtain ⟨guaranteed, held', paid, rest⟩ := accounted.safe index _ found system.shared
        (admits.self _ inv) (tested index _ rfl found label rfl)
      obtain ⟨kept, relied⟩ := admits.guaranteed label _ _ inv guaranteed
      rw [stepped]
      refine ⟨kept, Function.update held index held', fun other client' found' => ?_, ?_⟩
      · rcases Machine.found_set found' with ⟨rfl, rfl⟩ | ⟨differ, old⟩
        · rw [Function.update_self]
          exact rest
        rw [Function.update_of_ne differ]
        exact (accounted.safe other client' old).stable admits.trans (fun _ _ _ _ _ _ => trivial) relied
      have member := Finset.mem_range.mpr (getElem?_eq_some_iff.mp found).1
      have backed := accounted.backed
      rw [← Finset.add_sum_erase _ held member] at backed
      rw [length_set, Finset.sum_update_of_mem member, Finset.sdiff_singleton_eq_erase]
      dsimp only
      omega

/-- A step that is taken keeps its promise. -/
theorem conduct_step {next} (initial : holds start)
    (meets : (machine act enter).Meets (fun _ s client => d.Allows s client) start events)
    (split : events = before ++ .step index :: later)
    (found : ((machine act enter).conduct start before).clients[index]? =
      some (.step label write next)) : holds ((machine act enter).conduct start before).shared ∧
      d.guarantee label ((machine act enter).conduct start before).shared
        (write ((machine act enter).conduct start before).shared) := by
  have allowed := meets before index later _ split found
  subst split
  obtain ⟨inv, held, accounted⟩ := conduct_accounted admits initial meets.of_append
  exact ⟨inv, (accounted.safe index _ found _ (admits.self _ inv) (allowed label rfl)).1⟩

/-- What is due in the shared state is owed by a client that is about to step. -/
theorem conduct_owed {due : σ → ι → Prop} {opens owes : ℓ → ι → Prop} (initial : holds start)
    (meets : (machine act enter).Meets (fun _ s client => d.Allows s client) start events)
    (clear : ∀ k, ¬ due start k) (acts : ∀ s action k, due (act s action) k → due s k)
    (enters : ∀ argument, Discharges d opens owes (enter argument))
    (steps : ∀ label s s', holds s → d.guarantee label s s' → ∀ k, due s' k →
      due s k ∧ ¬ owes label k ∨ opens label k) (k : ι)
    (left : due ((machine act enter).conduct start events).shared k) :
    ∃ client ∈ ((machine act enter).conduct start events).clients, ∃ label,
    client.label? = some label ∧ owes label k := by
  suffices all : (∀ client ∈ ((machine act enter).conduct start events).clients,
      Discharges d opens owes client) ∧
      ∀ k, due ((machine act enter).conduct start events).shared k →
        ∃ index client, ((machine act enter).conduct start events).clients[index]? = some client ∧
          ∃ label, Program.label? client = some label ∧ owes label k by
    obtain ⟨index, client, found, shown⟩ := all.2 k left
    exact ⟨client, mem_of_getElem? found, shown⟩
  clear left k
  induction events using List.reverseRecOn with
  | nil => exact ⟨fun client member => by simp [Machine.conduct] at member, fun k left => absurd left (clear k)⟩
  | append_singleton events event ih =>
    obtain ⟨discharging, owed⟩ := ih meets.of_append
    obtain ⟨inv, held, accounted⟩ := conduct_accounted admits initial meets.of_append
    have tested := fun index client => meets events index [] client
    rw [Machine.conduct_append]
    generalize (machine act enter).conduct start events = system at *
    cases event with
    | act action => exact ⟨discharging, fun k left => owed k (acts _ action k left)⟩
    | enter argument =>
      refine ⟨fun client member => ?_, fun k left => ?_⟩
      · rcases mem_append.mp member with old | new
        · exact discharging client old
        rw [mem_singleton.mp new]
        exact enters argument
      · obtain ⟨index, client, found, shown⟩ := owed k left
        exact ⟨index, client, (getElem?_append_left (getElem?_eq_some_iff.mp found).1).trans found, shown⟩
    | step index =>
      rcases next_cases act enter system with idle | ⟨label, write, next, found, stepped⟩
      · rw [idle]
        exact ⟨discharging, owed⟩
      rw [stepped]
      have allowed := tested index _ rfl found label rfl
      obtain ⟨guaranteed, _⟩ := accounted.safe index _ found _ (admits.self _ inv) allowed
      obtain ⟨shows, later⟩ := discharging _ (mem_of_getElem? found) system.shared allowed
      have inside : index < system.clients.length := (getElem?_eq_some_iff.mp found).1
      refine ⟨fun client member => ?_, fun k left => ?_⟩
      · rcases mem_or_eq_of_mem_set member with old | rfl
        · exact discharging client old
        exact later
      rcases steps label _ _ inv guaranteed k left with ⟨before, notOwed⟩ | opened
      · obtain ⟨other, client, found', shown⟩ := owed k before
        have differ : index ≠ other := by
          rintro rfl
          rw [found] at found'
          cases found'
          obtain ⟨owing, same, owes⟩ := shown
          cases same
          exact notOwed owes
        exact ⟨other, client, (getElem?_set_ne differ).trans found', shown⟩
      · obtain ⟨owing, shown, owes⟩ := shows k opened
        exact ⟨index, next system.shared, getElem?_set_self inside, owing, shown, owes⟩

end

/-- A given schedule is tested step by step. -/
theorem meets_of_tests {allowed : ℓ → σ → Prop} [∀ label s, Decidable (allowed label s)]
    (passed : (machine act enter).tests
      (fun _ s client => client.label?.all fun label => decide (allowed label s))
      { shared := start } events = true) :
    (machine act enter).Meets (fun _ s client => ∀ label, client.label? = some label → allowed label s)
      start events := by
  intro before index later client split found label next
  have tested : client.label?.all (fun label => decide (allowed label _)) = true :=
    Machine.meets_of_tests passed before index later client split found
  rw [next, Option.all_some] at tested
  exact of_decide_eq_true tested

end
end LongHorizonOS.AtomicPrograms
