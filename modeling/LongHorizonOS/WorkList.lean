import LongHorizonOS.ThreeColourSearch

/-! A first-in first-out work list over a finite list of nodes. A node is taken
from the front, and unless it was seen before its unseen successors go to the
back. With enough turns the nodes seen are exactly the ones reached from the
starting queue. -/
namespace LongHorizonOS.WorkList
open List

structure Work (α : Type) where
  queue : List α
  seen : List α := []
  /-- One entry per successor put on the queue. -/
  steps : List (α × α) := []

section
variable {α : Type} [DecidableEq α] (nodes : List α) (next : α → List α)

/-- The successors that are not seen once the node itself is. -/
def unseen (seen : List α) (node : α) : List α :=
  (next node).filter fun successor => decide (successor ∉ node :: seen)

/-- What becomes of the work when the node is taken from the front. -/
def turn (work : Work α) (node : α) (rest : List α) : Work α :=
  if node ∈ work.seen ∨ node ∉ nodes then { work with queue := rest }
  else
    { queue := rest ++ unseen next work.seen node
      seen := node :: work.seen
      steps := work.steps ++ (unseen next work.seen node).map fun successor => (node, successor) }

def drain : ℕ → Work α → Work α
  | 0, work => work
  | fuel + 1, work =>
    match work.queue with
    | [] => work
    | node :: rest => drain fuel (turn nodes next work node rest)

/-- Every turn takes one entry, and each node puts its successors on at most once. -/
def budget (queue : List α) : ℕ :=
  queue.length + (nodes.map fun node => (next node).length).sum

/-- The whole search. -/
def search (queue : List α) : Work α := drain nodes next (budget nodes next queue) { queue := queue }

end

section
variable {α : Type} [DecidableEq α] {nodes : List α} {next : α → List α}

/-- Reached from one of the starting nodes. -/
def Reached (next : α → List α) (start : List α) (node : α) : Prop :=
  ∃ first ∈ start, Relation.ReflTransGen (fun a b => b ∈ next a) first node

structure Inv (nodes : List α) (next : α → List α) (start : List α) (work : Work α) : Prop where
  inside : ∀ node ∈ work.queue, node ∈ nodes
  reached : ∀ node, node ∈ work.queue ∨ node ∈ work.seen → Reached next start node
  started : ∀ node ∈ start, node ∈ work.seen ∨ node ∈ work.queue
  closed : ∀ node ∈ work.seen, ∀ successor ∈ next node, successor ∈ work.seen ∨ successor ∈ work.queue

theorem mem_unseen : successor ∈ unseen next seen node ↔
    successor ∈ next node ∧ successor ≠ node ∧ successor ∉ seen := by
  simp [unseen, not_or]

theorem turn_inv (stays : ∀ node ∈ nodes, ∀ successor ∈ next node, successor ∈ nodes)
    (front : work.queue = node :: rest) (inv : Inv nodes next start work) :
    Inv nodes next start (turn nodes next work node rest) := by
  have member : node ∈ nodes := inv.inside node (by simp [front])
  have nodeReached : Reached next start node := inv.reached node (.inl (by simp [front]))
  unfold turn
  split
  · rename_i known
    have seen : node ∈ work.seen := known.resolve_right (not_not_intro member)
    -- The front entry was seen before, so dropping it loses nothing.
    have kept : ∀ other, other ∈ work.seen ∨ other ∈ work.queue →
        other ∈ work.seen ∨ other ∈ rest := fun other held => by
      rw [front, mem_cons] at held
      rcases held with held | rfl | held
      · exact .inl held
      · exact .inl seen
      exact .inr held
    exact {
      inside := fun other queued => inv.inside other (by simp [front, queued])
      reached := fun other held => inv.reached other (held.imp_left fun queued => by simp [front, queued])
      started := fun other begun => kept other (inv.started other begun)
      closed := fun other held successor follows => kept _ (inv.closed other held successor follows) }
  have kept : ∀ other, other ∈ work.seen ∨ other ∈ work.queue →
      other ∈ node :: work.seen ∨ other ∈ rest ++ unseen next work.seen node := fun other held => by
    rw [front, mem_cons] at held
    rcases held with held | rfl | held
    · exact .inl (mem_cons_of_mem _ held)
    · exact .inl mem_cons_self
    exact .inr (mem_append_left _ held)
  refine ⟨fun other queued => ?_, fun other held => ?_, fun other begun => kept other (inv.started other begun),
    fun other held successor follows => ?_⟩
  · rcases mem_append.mp queued with queued | queued
    · exact inv.inside other (by simp [front, queued])
    exact stays node member other (mem_unseen.mp queued).1
  · rcases held with queued | held
    · rcases mem_append.mp queued with queued | queued
      · exact inv.reached other (.inl (by simp [front, queued]))
      obtain ⟨first, begun, path⟩ := nodeReached
      exact ⟨first, begun, path.tail (mem_unseen.mp queued).1⟩
    · rcases mem_cons.mp held with rfl | held
      · exact nodeReached
      exact inv.reached other (.inr held)
  · rcases mem_cons.mp held with rfl | held
    · by_cases known : successor ∈ other :: work.seen
      · exact .inl known
      rw [mem_cons, not_or] at known
      exact .inr (mem_append_right _ (mem_unseen.mpr ⟨follows, known⟩))
    · exact kept _ (inv.closed other held successor follows)

/-- The entries on the queue and those the unseen nodes may still put on it. -/
def remaining (nodes : List α) (next : α → List α) (work : Work α) : ℕ :=
  work.queue.length + (nodes.map fun node => if node ∈ work.seen then 0 else (next node).length).sum

theorem turn_remaining (nodes : List α) (next : α → List α) (front : work.queue = node :: rest) :
    remaining nodes next (turn nodes next work node rest) < remaining nodes next work := by
  unfold turn
  split
  · simp [remaining, front]
  rename_i fresh
  rw [not_or, not_not] at fresh
  have shrinks := ThreeColourSearch.sum_map_add_le node (d := (next node).length)
    (f := fun other => if other ∈ node :: work.seen then 0 else (next other).length)
    (g := fun other => if other ∈ work.seen then 0 else (next other).length) (fun other => by
      by_cases known : other ∈ work.seen <;> by_cases same : other = node <;> simp [known, same])
    (by simp [fresh.1]) fresh.2
  have short : (unseen next work.seen node).length ≤ (next node).length := length_filter_le ..
  simp only [remaining, front, length_append, length_cons]
  omega

section
variable (stays : ∀ node ∈ nodes, ∀ successor ∈ next node, successor ∈ nodes)
include stays

theorem drain_inv (fuel : ℕ) (inv : Inv nodes next start work) (enough : remaining nodes next work ≤ fuel) :
    (drain nodes next fuel work).queue = [] ∧ Inv nodes next start (drain nodes next fuel work) := by
  induction fuel generalizing work with
  | zero =>
    have empty : work.queue.length = 0 := by unfold remaining at enough; omega
    exact ⟨length_eq_zero_iff.mp empty, inv⟩
  | succ fuel ih =>
    unfold drain
    split
    · rename_i empty
      exact ⟨empty, inv⟩
    rename_i node rest front
    have fewer := turn_remaining nodes next front
    exact ih (turn_inv stays front inv) (by omega)

/-- The search sees exactly what is reached from the queue. -/
theorem mem_search (inside : ∀ node ∈ start, node ∈ nodes) :
    node ∈ (search nodes next start).seen ↔ Reached next start node := by
  have begin : Inv nodes next start { queue := start } :=
    { inside := inside
      reached := fun other held =>
        ⟨other, held.resolve_right not_mem_nil, .refl⟩
      started := fun _ begun => .inr begun
      closed := fun _ held => absurd held not_mem_nil }
  obtain ⟨empty, inv⟩ := drain_inv stays (budget nodes next start) begin (by simp [remaining, budget])
  change (search nodes next start).queue = [] at empty
  change Inv nodes next start (search nodes next start) at inv
  refine ⟨fun seen => inv.reached node (.inr seen), ?_⟩
  rintro ⟨first, begun, path⟩
  -- Along the path from a start every node is seen, as nothing waits on the queue.
  induction path with
  | refl => simpa [empty] using inv.started first begun
  | tail _ follows seen => simpa [empty] using inv.closed _ seen _ follows

end

end
end LongHorizonOS.WorkList
