import Mathlib.Data.List.Induction
import Mathlib.Data.List.Nodup

/-! One pass over a list that adds items by a rule. An item is added when it
is visited if it is ready and everything it needs is given or was added
before. Repeating the pass would reach the least set closed under the rule;
a single pass reaches it only if each item comes after what it needs. The
result is the same for every order of the list exactly if no item needs
another added one. -/
namespace LongHorizonOS.OnePass
open List

/-- Which items may be added, what each of them needs, and what is given. -/
structure Rule (κ : Type*) where
  ready : κ → Prop
  needs : κ → κ → Prop
  given : κ → Prop

namespace Rule
variable {κ : Type*} (rule : Rule κ)

/-- The item is ready, and all it needs is given or among the added ones. -/
def Enabled (added : κ → Prop) (k : κ) : Prop :=
  rule.ready k ∧ ∀ j, rule.needs k j → rule.given j ∨ added j

/-- All that the item needs is given. -/
def Initial : κ → Prop := rule.Enabled fun _ => False

/-- The items that a pass in list order has added. -/
def pass (order : List κ) : κ → Prop :=
  order.foldl (fun added k j => added j ∨ j = k ∧ rule.Enabled added k) fun _ => False

/-- The least set closed under the rule. -/
inductive Derivable : κ → Prop
  | intro {k : κ} (ready : rule.ready k)
      (needs : ∀ j, rule.needs k j → ¬ rule.given j → Derivable j) : Derivable k

variable {rule}

theorem Enabled.mono (enabled : rule.Enabled added k) (grows : ∀ j, added j → more j) : rule.Enabled more k :=
  ⟨enabled.1, fun j needed => (enabled.2 j needed).imp_right (grows j)⟩

theorem pass_snoc : rule.pass (order ++ [k]) j ↔ rule.pass order j ∨ j = k ∧ rule.Enabled (rule.pass order) k := by
  rw [pass, foldl_append]
  rfl

theorem mem_of_pass (added : rule.pass order j) : j ∈ order := by
  induction order using List.reverseRecOn with
  | nil => cases added
  | append_singleton order k ih =>
    rw [mem_append, mem_singleton]
    rcases pass_snoc.mp added with before | ⟨rfl, _⟩
    · exact .inl (ih before)
    exact .inr rfl

/-- Whether an item is added is decided when it is visited. -/
theorem pass_split (notEarlier : k ∉ earlier) (notLater : k ∉ later) :
    rule.pass (earlier ++ k :: later) k ↔ rule.Enabled (rule.pass earlier) k := by
  induction later using List.reverseRecOn with
  | nil =>
    rw [pass_snoc]
    constructor
    · rintro (before | ⟨_, enabled⟩)
      · exact absurd (mem_of_pass before) notEarlier
      exact enabled
    · exact fun enabled => .inr ⟨rfl, enabled⟩
  | append_singleton later m ih =>
    rw [mem_append, mem_singleton, not_or] at notLater
    rw [← cons_append, ← append_assoc, pass_snoc, ih notLater.1]
    constructor
    · rintro (enabled | ⟨same, _⟩)
      · exact enabled
      exact absurd same notLater.2
    · exact .inl

/-- Later visits add nothing under an earlier key. -/
theorem pass_of_append (distinct : (earlier ++ later).Nodup) (member : j ∈ earlier)
    (added : rule.pass (earlier ++ later) j) : rule.pass earlier j := by
  induction later using List.reverseRecOn with
  | nil =>
    rw [append_nil] at added
    exact added
  | append_singleton later m ih =>
    rw [← append_assoc] at distinct added
    obtain ⟨kept, _, apart⟩ := nodup_append.mp distinct
    rcases pass_snoc.mp added with before | ⟨rfl, _⟩
    · exact ih kept before
    exact absurd rfl (apart j (mem_append_left _ member) j (mem_singleton.mpr rfl))

theorem pass_at (distinct : order.Nodup) (split : order = earlier ++ k :: later) :
    rule.pass order k ↔ rule.Enabled (rule.pass earlier) k := by
  subst split
  obtain ⟨_, ends, apart⟩ := nodup_append.mp distinct
  refine pass_split (fun member => ?_) (nodup_cons.mp ends).1
  exact apart k member k mem_cons_self rfl

/-! ## The least closed set -/

theorem derivable_of_pass (added : rule.pass order j) : rule.Derivable j := by
  induction order using List.reverseRecOn generalizing j with
  | nil => cases added
  | append_singleton order k ih =>
    rcases pass_snoc.mp added with before | ⟨rfl, ready, needs⟩
    · exact ih before
    exact .intro ready fun i needed missing => ih ((needs i needed).resolve_left missing)

/-- What is enabled by derivable items is derivable. -/
theorem derivable_of_enabled (enabled : rule.Enabled rule.Derivable k) : rule.Derivable k :=
  .intro enabled.1 fun j needed missing => (enabled.2 j needed).resolve_left missing

/-- The item is in the list, after everything it needs that is not given. -/
def Placed (rule : Rule κ) (order : List κ) (k : κ) : Prop :=
  ∃ earlier later, order = earlier ++ k :: later ∧ ∀ j, rule.needs k j → ¬ rule.given j → j ∈ earlier

/-- A pass in an order that respects the needs reaches the least closed set. -/
theorem pass_of_derivable (distinct : order.Nodup)
    (placed : ∀ k, rule.Derivable k → rule.Placed order k) (derivable : rule.Derivable k) : rule.pass order k := by
  induction derivable with
  | @intro k ready needs ih =>
    obtain ⟨earlier, later, split, before⟩ := placed k (.intro ready needs)
    refine (pass_at distinct split).mpr ⟨ready, fun j needed => ?_⟩
    by_cases given : rule.given j
    · exact .inl given
    refine .inr (pass_of_append (split ▸ distinct) (before j needed given) ?_)
    exact split ▸ ih j needed given

/-! ## The order of the list -/

theorem pass_of_initial (distinct : order.Nodup) (member : k ∈ order) (initial : rule.Initial k) :
    rule.pass order k := by
  obtain ⟨earlier, later, split⟩ := append_of_mem member
  exact (pass_at distinct split).mpr (initial.mono fun _ => False.elim)

/-- When the initial items enable no others, a pass adds exactly those, in
whatever order. -/
theorem pass_iff_initial (distinct : order.Nodup)
    (settled : ∀ k ∈ order, rule.Enabled rule.Initial k → rule.Initial k) :
    rule.pass order k ↔ k ∈ order ∧ rule.Initial k := by
  have initial : rule.pass order k → rule.Initial k := by
    clear distinct
    induction order using List.reverseRecOn generalizing k with
    | nil => exact False.elim
    | append_singleton order m ih =>
      have before : ∀ j, rule.pass order j → rule.Initial j := fun j =>
        ih fun i member => settled i (mem_append_left _ member)
      intro added
      rcases pass_snoc.mp added with old | ⟨rfl, enabled⟩
      · exact before k old
      exact settled k (mem_append_right _ (mem_singleton.mpr rfl)) (enabled.mono before)
  exact ⟨fun added => ⟨mem_of_pass added, initial added⟩,
    fun ⟨member, holds⟩ => pass_of_initial distinct member holds⟩

/-- An item that only initial items enable is added in last place and left out
in first place. -/
theorem pass_unsettled (distinct : rest.Nodup) (absent : k ∉ rest)
    (enabled : rule.Enabled rule.Initial k) (late : ¬ rule.Initial k)
    (others : ∀ j, rule.Initial j → j ≠ k → j ∈ rest) : rule.pass (rest ++ [k]) k ∧ ¬ rule.pass (k :: rest) k := by
  constructor
  · refine pass_snoc.mpr (.inr ⟨rfl, enabled.mono fun j initial => ?_⟩)
    refine pass_of_initial distinct (others j initial ?_) initial
    rintro rfl
    exact late initial
  · intro added
    exact late ((pass_at (nodup_cons.mpr ⟨absent, distinct⟩) (nil_append _).symm).mp added)

end Rule
end LongHorizonOS.OnePass
