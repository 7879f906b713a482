import Mathlib.Data.List.Perm.Subperm

/-! The length of the longest walk from a point, along a relation without
cycles. It is described by the walks alone, so it does not depend on how, or
in what order, it is computed. -/
namespace LongHorizonOS.LongestWalk
open List Relation
variable {κ : Type*}

/-- A walk of so many steps starts at the point. -/
inductive Walk (R : κ → κ → Prop) : κ → ℕ → Prop
  | stay (k : κ) : Walk R k 0
  | step {k j : κ} {n : ℕ} (edge : R k j) (rest : Walk R j n) : Walk R k (n + 1)

/-- The longest walk from the point has so many steps. -/
def IsDepth (R : κ → κ → Prop) (k : κ) (n : ℕ) : Prop :=
  Walk R k n ∧ ∀ m, Walk R k m → m ≤ n

theorem IsDepth.unique (first : IsDepth R k n) (second : IsDepth R k m) : n = m :=
  Nat.le_antisymm (second.2 n first.1) (first.2 m second.1)

/-- The depth is the greatest depth of a successor, plus one, and zero without
successors. -/
theorem IsDepth.of_successors (attained : n = 0 ∨ ∃ j m, R k j ∧ IsDepth R j m ∧ n = m + 1)
    (bound : ∀ j, R k j → ∃ m, IsDepth R j m ∧ m + 1 ≤ n) : IsDepth R k n := by
  constructor
  · rcases attained with rfl | ⟨j, m, edge, depth, rfl⟩
    · exact Walk.stay k
    exact Walk.step edge depth.1
  intro m walk
  cases walk with
  | stay => exact Nat.zero_le n
  | step edge rest =>
    obtain ⟨most, depth, below⟩ := bound _ edge
    have atMost := depth.2 _ rest
    omega

/-- Without cycles a walk never returns, so its length is bounded by the number
of points that it can reach. -/
theorem Walk.length_le (acyclic : ∀ k, ¬ TransGen R k k) {points : List κ}
    (inside : ∀ k j, R k j → j ∈ points) (walk : Walk R k n) : n ≤ points.length := by
  have visited : ∃ seen : List κ, seen.length = n ∧ seen.Nodup ∧
      ∀ j ∈ seen, TransGen R k j ∧ j ∈ points := by
    induction walk with
    | stay k => exact ⟨[], rfl, nodup_nil, fun _ member => nomatch member⟩
    | @step k j n edge rest ih =>
      obtain ⟨seen, length, distinct, reached⟩ := ih
      refine ⟨j :: seen, by rw [length_cons, length], nodup_cons.mpr ⟨fun member => ?_, distinct⟩,
        fun other member => ?_⟩
      · exact acyclic j (reached j member).1
      rcases mem_cons.mp member with rfl | later
      · exact ⟨TransGen.single edge, inside k other edge⟩
      exact ⟨TransGen.head edge (reached other later).1, (reached other later).2⟩
  obtain ⟨seen, rfl, distinct, reached⟩ := visited
  exact (subperm_of_subset distinct fun j member => (reached j member).2).length_le

end LongHorizonOS.LongestWalk
