import Mathlib.Algebra.BigOperators.Group.List.Basic
import Mathlib.Algebra.GroupWithZero.Nat
import Mathlib.Data.List.Chain
import Mathlib.Order.WellFounded

/-! Cycle search by iterative depth-first descent. Every node is unvisited, on
the stack, or done; meeting a node that is on the stack closes a cycle. The
results concern the loop with its explicit stack: it never runs out of the
fuel it is given, a search that reports nothing has proved every node
accessible, which rules out every directed cycle, and what it reports is a
closed walk along the edges. -/
namespace LongHorizonOS.ThreeColourSearch
open Function (update update_of_ne)
open Relation
open Prod (fst)
open List

inductive Colour where
  | unvisited
  | inStack
  | done
  deriving DecidableEq

/-- A stack frame is a node with the children it has not looked at yet. The
path lists the nodes on the stack, newest first. -/
structure Search (α : Type) where
  colour : α → Colour
  stack : List (α × List α)
  path : List α

section
variable {α : Type} [DecidableEq α] (adj : α → List α)

/-- The first visit to the node on top of the stack. -/
def enter (s : Search α) (node : α) : Search α :=
  if s.colour node = .unvisited then
    { s with colour := update s.colour node .inStack, path := node :: s.path }
  else s

/-- The path from the earlier visit of `child` back to `child`. -/
def cyclePath (path : List α) (child : α) : List α :=
  child :: (path.takeWhile (fun node => decide (node ≠ child))).reverse ++ [child]

/-- One turn of the loop: look at the next child of the node on top, or leave
the node. The right side is a cycle. -/
def step (s : Search α) (node : α) (pending : List α) (below : List (α × List α)) : Search α ⊕ List α :=
  let s := enter s node
  match pending with
  | child :: later =>
    match s.colour child with
    | .inStack => .inr (cyclePath s.path child)
    | .unvisited => .inl { s with stack := (child, adj child) :: (node, later) :: below }
    | .done => .inl { s with stack := (node, later) :: below }
  | [] => .inl
    { colour := update s.colour node .done
      stack := below
      path := if s.path.head? = some node then s.path.tail else s.path }

/-- Run the loop until the stack is empty. -/
def explore : ℕ → Search α → Search α ⊕ List α
  | 0, s => .inl s
  | fuel + 1, s =>
    match s.stack with
    | [] => .inl s
    | (node, pending) :: below =>
      match step adj s node pending below with
      | .inr cycle => .inr cycle
      | .inl next => explore fuel next

/-- Every node is pushed at most once and every child looked at once. -/
def budget (nodes : List α) : ℕ :=
  (nodes.map fun node => (adj node).length + 1).sum + 1

/-- Start a descent at every node that no earlier descent reached. -/
def searchFrom (fuel : ℕ) : List α → (α → Colour) → Option (List α)
  | [], _ => none
  | start :: rest, colour =>
    if colour start = .unvisited then
      match explore adj fuel ⟨colour, [(start, adj start)], []⟩ with
      | .inr cycle => some cycle
      | .inl s => searchFrom fuel rest s.colour
    else searchFrom fuel rest colour

/-- Search the graph spanned by `nodes`. -/
def search (nodes : List α) : Option (List α) :=
  searchFrom adj (budget adj nodes) nodes fun _ => .unvisited

end

section
variable {α : Type} [DecidableEq α] {adj : α → List α}

/-- The edge relation, read so that accessibility means that every descent
from a node ends. -/
def Below (adj : α → List α) (child node : α) : Prop := child ∈ adj node

/-- Children of a frame are still pending, done, or the node just above it. -/
def FramesOk (adj : α → List α) (colour : α → Colour) : Option α → List (α × List α) → Prop
  | _, [] => True
  | above, (node, pending) :: below =>
    (∀ child ∈ adj node, child ∈ pending ∨ colour child = .done ∨ above = some child) ∧
      FramesOk adj colour (some node) below

/-- What holds before every turn of the loop. Only the node on top may still
be unvisited. -/
structure Inv (adj : α → List α) (nodes : List α) (s : Search α) : Prop where
  accessible : ∀ node, s.colour node = .done → Acc (Below adj) node
  frames : FramesOk adj s.colour none s.stack
  onStack : ∀ node, s.colour node = .inStack → node ∈ s.stack.map fst
  visited : ∀ frame ∈ s.stack.tail, s.colour frame.1 ≠ .unvisited
  inside : ∀ frame ∈ s.stack, frame.1 ∈ nodes ∧ ∀ child ∈ frame.2, child ∈ nodes

variable {colour : α → Colour} {node : α}

omit [DecidableEq α] in
theorem framesOk_mono (keeps : ∀ node, colour node = .done → colour' node = .done)
    (ok : FramesOk adj colour above stack) : FramesOk adj colour' above stack := by
  induction stack generalizing above with
  | nil => trivial
  | cons frame below ih =>
    exact ⟨fun child edge => (ok.1 child edge).imp_right (.imp_left (keeps child)), ih ok.2⟩

omit [DecidableEq α] in
/-- When the node just above is done, the frame no longer needs to name it. -/
theorem framesOk_forget (isDone : colour node = .done) (ok : FramesOk adj colour (some node) stack) :
    FramesOk adj colour none stack := by
  cases stack with
  | nil => trivial
  | cons frame below =>
    refine ⟨fun child edge => ?_, ok.2⟩
    rcases ok.1 child edge with pending | finished | same
    · exact .inl pending
    · exact .inr (.inl finished)
    exact .inr (.inl (Option.some.inj same ▸ isDone))

variable (s : Search α)

theorem enter_colour : (enter s node).colour other =
    if other = node ∧ s.colour node = .unvisited then .inStack else s.colour other := by
  unfold enter
  by_cases fresh : s.colour node = .unvisited
  · by_cases same : other = node
    · subst same; simp [fresh]
    simp [fresh, same]
  · simp [fresh]

@[simp] theorem enter_stack (node : α) : (enter s node).stack = s.stack := by
  unfold enter; split <;> rfl

theorem enter_done : (enter s node).colour other = .done ↔ s.colour other = .done := by
  rw [enter_colour]
  by_cases same : other = node ∧ s.colour node = .unvisited
  · obtain ⟨rfl, fresh⟩ := same
    simp [fresh]
  · rw [if_neg same]

theorem enter_visited : (enter s node).colour node ≠ .unvisited := by
  rw [enter_colour]
  by_cases fresh : s.colour node = .unvisited <;> simp [fresh]

variable {nodes : List α} {below : List (α × List α)} {pending : List α} {next : Search α}

/-- Entering the node on top keeps the invariant, and afterwards every node on
the stack has been visited. -/
theorem enter_inv {s} (inv : Inv adj nodes s) (top : s.stack = (node, pending) :: below) :
    Inv adj nodes (enter s node) ∧ ∀ frame ∈ s.stack, (enter s node).colour frame.1 ≠ .unvisited := by
  have visitedAll : ∀ frame ∈ s.stack, (enter s node).colour frame.1 ≠ .unvisited := by
    intro frame member
    rw [top] at member
    rcases mem_cons.mp member with rfl | deeper
    · exact enter_visited s
    have old := inv.visited frame (by rw [top]; exact deeper)
    rw [enter_colour]
    split
    · simp
    exact old
  refine ⟨⟨?_, ?_, ?_, ?_, ?_⟩, visitedAll⟩
  · intro other finished
    exact inv.accessible other ((enter_done s).mp finished)
  · rw [enter_stack]
    exact framesOk_mono (fun other finished => (enter_done s).mpr finished) inv.frames
  · intro other marked
    rw [enter_stack]
    rw [enter_colour] at marked
    split at marked
    · rename_i entered
      rw [entered.1, top]
      simp
    · exact inv.onStack other marked
  · intro frame member
    rw [enter_stack] at member
    exact visitedAll frame (mem_of_mem_tail member)
  · rw [enter_stack]
    exact inv.inside

/-- One turn keeps the invariant. -/
theorem step_inv (closed : ∀ node ∈ nodes, ∀ child ∈ adj node, child ∈ nodes) {s}
    (inv : Inv adj nodes s) (top : s.stack = (node, pending) :: below)
    (ran : step adj s node pending below = .inl next) : Inv adj nodes next := by
  obtain ⟨entered, visitedAll⟩ := enter_inv inv top
  have stackEq : (enter s node).stack = (node, pending) :: below := by rw [enter_stack, top]
  have frames := entered.frames
  have inside := entered.inside
  have onStack := entered.onStack
  rw [stackEq] at frames inside onStack
  rw [top] at visitedAll
  have children : ∀ child ∈ adj node, child ∈ pending ∨ (enter s node).colour child = .done :=
    fun child edge => (frames.1 child edge).imp_right (Or.resolve_right · (by simp))
  cases pending with
  | nil =>
    -- every child of the node is done, so the node itself becomes accessible
    simp only [step, Sum.inl.injEq] at ran
    subst next
    have nodeAcc : Acc (Below adj) node := .intro node fun child edge =>
      entered.accessible child ((children child edge).resolve_left not_mem_nil)
    have keeps : ∀ other, (enter s node).colour other = .done →
        update (enter s node).colour node .done other = .done := by
      intro other finished
      by_cases same : other = node
      · subst same; simp
      simp [same, finished]
    refine ⟨?_, ?_, ?_, ?_, ?_⟩
    · intro other finished
      by_cases same : other = node
      · exact same ▸ nodeAcc
      simp only [update_of_ne same] at finished
      exact entered.accessible other finished
    · exact framesOk_forget (by simp) (framesOk_mono keeps frames.2)
    · intro other marked
      by_cases same : other = node
      · subst same; simp at marked
      simp only [update_of_ne same] at marked
      simpa [same] using onStack other marked
    · intro frame member
      have old := visitedAll frame (mem_cons_of_mem _ (mem_of_mem_tail member))
      by_cases same : frame.1 = node
      · simp [same]
      simpa [same] using old
    · exact fun frame member => inside frame (mem_cons_of_mem _ member)
  | cons child later =>
    have childInside : child ∈ nodes := (inside _ mem_cons_self).2 child mem_cons_self
    have insideLater : ∀ frame ∈ (node, later) :: below,
        frame.1 ∈ nodes ∧ ∀ child ∈ frame.2, child ∈ nodes := by
      intro frame member
      rcases mem_cons.mp member with rfl | deeper
      · exact ⟨(inside _ mem_cons_self).1, fun other later =>
          (inside _ mem_cons_self).2 other (mem_cons_of_mem _ later)⟩
      · exact inside frame (mem_cons_of_mem _ deeper)
    simp only [step] at ran
    split at ran
    · cases ran
    · -- an unvisited child is pushed; the frame below now names it
      cases ran
      refine ⟨entered.accessible, ⟨fun other edge => .inl edge, ⟨?_, frames.2⟩⟩, ?_, ?_, ?_⟩
      · intro other edge
        rcases children other edge with waiting | finished
        · rcases mem_cons.mp waiting with rfl | waiting
          · exact .inr (.inr rfl)
          exact .inl waiting
        · exact .inr (.inl finished)
      · intro other marked
        exact mem_cons_of_mem _ (by simpa using onStack other marked)
      · intro frame member
        rcases mem_cons.mp member with rfl | deeper
        · exact visitedAll (node, child :: later) mem_cons_self
        exact visitedAll frame (mem_cons_of_mem _ deeper)
      · intro frame member
        rcases mem_cons.mp member with rfl | deeper
        · exact ⟨childInside, closed child childInside⟩
        exact insideLater frame deeper
    · rename_i finished
      cases ran
      refine ⟨entered.accessible, ⟨?_, frames.2⟩, ?_, ?_, insideLater⟩
      · intro other edge
        rcases children other edge with waiting | isDone
        · rcases mem_cons.mp waiting with rfl | waiting
          · exact .inr (.inl finished)
          exact .inl waiting
        · exact .inr (.inl isDone)
      · intro other marked
        simpa using onStack other marked
      · intro frame member
        exact visitedAll frame (mem_cons_of_mem _ member)

/-- A node on the stack stays there until it is done, and stays done. -/
theorem step_tracks {s} (top : s.stack = (node, pending) :: below)
    (ran : step adj s node pending below = .inl next) (other : α)
    (tracked : other ∈ s.stack.map fst ∨ s.colour other = .done) :
    other ∈ next.stack.map fst ∨ next.colour other = .done := by
  have tracked : other ∈ ((node, pending) :: below).map fst ∨
      (enter s node).colour other = .done := by
    rw [← top, enter_done]; exact tracked
  cases pending with
  | nil =>
    simp only [step, Sum.inl.injEq] at ran
    subst next
    by_cases same : other = node
    · exact .inr (by simp [same])
    simpa [same] using tracked
  | cons child later =>
    simp only [step] at ran
    split at ran
    · cases ran
    · cases ran
      exact tracked.imp_left fun member => by simpa using Or.inr (by simpa using member)
    cases ran
    exact tracked.imp_left fun member => by simpa using member

/-- Turns the loop can still take: what is left to look at on the stack, and
the frames that may still be pushed. -/
def remaining (adj : α → List α) (nodes : List α) (s : Search α) : ℕ :=
  (s.stack.map fun frame => frame.2.length + 1).sum +
    (nodes.map fun node => if s.colour node = .unvisited ∧ node ∉ s.stack.map fst then
      (adj node).length + 1 else 0).sum

omit [DecidableEq α] in
theorem sum_map_le {f g : α → ℕ} (le : ∀ node, f node ≤ g node) (nodes : List α) :
    (nodes.map f).sum ≤ (nodes.map g).sum := by
  induction nodes with
  | nil => simp
  | cons node nodes ih =>
    have := le node
    simp only [map_cons, sum_cons]
    omega

omit [DecidableEq α] in
theorem sum_map_add_le {f g : α → ℕ} (child : α) {d : ℕ} (le : ∀ node, f node ≤ g node)
    (gap : f child + d ≤ g child) {nodes : List α} (member : child ∈ nodes) :
    (nodes.map f).sum + d ≤ (nodes.map g).sum := by
  induction nodes with
  | nil => cases member
  | cons node nodes ih =>
    simp only [map_cons, sum_cons]
    rcases mem_cons.mp member with rfl | deeper
    · have := sum_map_le le nodes
      omega
    have := le node
    have := ih deeper
    omega

/-- The turns that a node takes once it is pushed. -/
def unpushed (adj : α → List α) (s : Search α) (node : α) : ℕ :=
  if s.colour node = .unvisited ∧ node ∉ s.stack.map fst then (adj node).length + 1 else 0

section
variable {nodes : List α} {s next : Search α}
  (kept : ∀ node, next.colour node = .unvisited → node ∉ next.stack.map fst →
    s.colour node = .unvisited ∧ node ∉ s.stack.map fst)
include kept

theorem unpushed_le (node : α) : unpushed adj next node ≤ unpushed adj s node := by
  unfold unpushed
  by_cases open_ : next.colour node = .unvisited ∧ node ∉ next.stack.map fst
  · rw [if_pos open_, if_pos (kept node open_.1 open_.2)]
  rw [if_neg open_]
  exact Nat.zero_le _

theorem remaining_lt (frames : (next.stack.map fun frame => frame.2.length + 1).sum <
    (s.stack.map fun frame => frame.2.length + 1).sum) : remaining adj nodes next < remaining adj nodes s :=
  Nat.add_lt_add_of_lt_of_le frames (sum_map_le (unpushed_le kept) nodes)

end

theorem step_remaining {s : Search α} (inv : Inv adj nodes s) (top : s.stack = (node, pending) :: below)
    (ran : step adj s node pending below = .inl next) : remaining adj nodes next < remaining adj nodes s := by
  obtain ⟨entered, visitedAll⟩ := enter_inv inv top
  have childInside := inv.inside (node, pending) (by rw [top]; exact mem_cons_self)
  rw [top] at visitedAll
  have fresh : ∀ other, (enter s node).colour other = .unvisited → s.colour other = .unvisited := by
    intro other unseen
    rw [enter_colour] at unseen
    split at unseen
    · cases unseen
    exact unseen
  cases pending with
  | nil =>
    simp only [step, Sum.inl.injEq] at ran
    subst next
    refine remaining_lt (fun other unseen away => ?_) (by simp [top])
    by_cases same : other = node
    · simp [same] at unseen
    exact ⟨fresh other (by simpa [same] using unseen), by simpa [top, same] using away⟩
  | cons child later =>
    simp only [step] at ran
    split at ran
    · cases ran
    · rename_i unseen
      cases ran
      have notOnStack : child ∉ s.stack.map fst := by
        intro member
        obtain ⟨frame, onStack, same⟩ := mem_map.mp member
        exact visitedAll frame (top ▸ onStack) (same ▸ unseen)
      generalize pushed : (⟨(enter s node).colour, (child, adj child) :: (node, later) :: below,
        (enter s node).path⟩ : Search α) = next
      have kept : ∀ other, next.colour other = .unvisited → other ∉ next.stack.map fst →
          s.colour other = .unvisited ∧ other ∉ s.stack.map fst := by
        subst pushed
        exact fun other unseen away => ⟨fresh other unseen, fun on =>
          away (mem_cons_of_mem _ (by simpa [top] using on))⟩
      have less := sum_map_add_le child (f := unpushed adj next) (d := (adj child).length + 1) (unpushed_le kept)
        (by simp [← pushed, unpushed, fresh child unseen, notOnStack]) (childInside.2 child mem_cons_self)
      change _ + (nodes.map (unpushed adj next)).sum < _ + (nodes.map (unpushed adj s)).sum
      simp only [← pushed, top, map_cons, sum_cons, length_cons] at less ⊢
      omega
    · cases ran
      exact remaining_lt (fun other unseen away => ⟨fresh other unseen, by simpa [top] using away⟩) (by simp [top])

/-! ## Reported cycles -/

/-- A walk along the edges that ends where it begins. -/
def ClosedWalk (adj : α → List α) (cycle : List α) : Prop :=
  2 ≤ cycle.length ∧ cycle.head? = cycle.getLast? ∧ cycle.IsChain fun source target => target ∈ adj source

/-- The path names the nodes on the stack, except the top one before its first
visit, and every node on the stack is a child of the one below it. -/
structure Trail (adj : α → List α) (s : Search α) : Prop where
  path : ∀ node pending below, s.stack = (node, pending) :: below →
    s.path = if s.colour node = .unvisited then below.map fst else node :: below.map fst
  chain : (s.stack.map fst).IsChain (Below adj)
  pending : ∀ frame ∈ s.stack, ∀ child ∈ frame.2, Below adj child frame.1

theorem takeWhile_prefix_of_mem {path : List α} (member : child ∈ path) :
    path.takeWhile (fun node => decide (node ≠ child)) ++ [child] <+: path := by
  induction path with
  | nil => cases member
  | cons first rest ih =>
    by_cases same : first = child
    · simp [same]
    simpa [same] using ih ((mem_cons.mp member).resolve_left (Ne.symm same))

/-- What lies between two visits of a node is read backwards from the path. -/
theorem cyclePath_closed {path : List α} (chain : (child :: path).IsChain (Below adj))
    (member : child ∈ path) : ClosedWalk adj (cyclePath path child) := by
  have backwards : (cyclePath path child).reverse <+: child :: path := by
    simpa [cyclePath] using takeWhile_prefix_of_mem member
  refine ⟨by simp [cyclePath], by simp [cyclePath, getLast?_cons], ?_⟩
  have walked := chain.prefix backwards
  rwa [isChain_reverse] at walked

omit [DecidableEq α] in
theorem ClosedWalk.transGen (walk : ClosedWalk adj cycle) :
    ∃ node, TransGen (fun source target => target ∈ adj source) node node := by
  obtain ⟨long, ends, chain⟩ := walk
  rcases cycle with _ | ⟨first, _ | ⟨second, rest⟩⟩
  · simp at long
  · simp at long
  obtain ⟨edge, later⟩ := isChain_cons_cons.mp chain
  have back := relationReflTransGen_of_exists_isChain (second :: rest) later (by simp)
  have last : (second :: rest).getLast (by simp) = first := by
    simpa [getLast?_cons, getLast_eq_getLastD] using ends.symm
  exact ⟨first, .head' edge (last ▸ back)⟩

section
variable {s : Search α} (trail : Trail adj s) (top : s.stack = (node, pending) :: below)
include trail top

theorem Trail.entered : (enter s node).path = node :: below.map fst := by
  have path := trail.path node pending below top
  unfold enter
  split
  · rename_i fresh
    simp [path, fresh]
  rename_i visited
  simp [path, visited]

theorem step_trail (inv : Inv adj nodes s) (ran : step adj s node pending below = .inl next) : Trail adj next := by
  obtain ⟨-, visitedAll⟩ := enter_inv inv top
  have entered := trail.entered top
  have chain := trail.chain
  have waiting := trail.pending
  rw [top] at visitedAll chain waiting
  cases pending with
  | nil =>
    simp only [step, Sum.inl.injEq] at ran
    subst next
    refine ⟨fun other pending' below' stack => ?_, chain.tail, fun frame member =>
      waiting frame (mem_cons_of_mem _ member)⟩
    -- the node that comes to the top has been visited before
    have visited := visitedAll (other, pending') (by simp [show below = _ from stack])
    have shown : update (enter s node).colour node .done other ≠ .unvisited := by
      by_cases same : other = node <;> simp [same, visited]
    simp [entered, shown, show below = _ from stack]
  | cons child later =>
    have edge : Below adj child node := waiting _ mem_cons_self child mem_cons_self
    have waitingLater : ∀ frame ∈ (node, later) :: below, ∀ child ∈ frame.2, Below adj child frame.1 := by
      intro frame member
      rcases mem_cons.mp member with rfl | deeper
      · exact fun other waits => waiting _ mem_cons_self other (mem_cons_of_mem _ waits)
      exact waiting frame (mem_cons_of_mem _ deeper)
    simp only [step] at ran
    split at ran
    · cases ran
    · rename_i fresh
      cases ran
      refine ⟨fun other pending' below' stack => ?_, .cons_cons edge chain, ?_⟩
      · cases stack
        simp [entered, fresh]
      · exact forall_mem_cons.mpr ⟨fun _ => id, waitingLater⟩
    · cases ran
      refine ⟨fun other pending' below' stack => ?_, chain, waitingLater⟩
      cases stack
      simp [entered, enter_visited s]

theorem step_cycle (inv : Inv adj nodes s) (ran : step adj s node pending below = .inr cycle) :
    ClosedWalk adj cycle := by
  obtain ⟨marked, -⟩ := enter_inv inv top
  have onStack := marked.onStack
  have chain := trail.chain
  have waiting := trail.pending
  rw [enter_stack, top] at onStack
  rw [top] at chain waiting
  cases pending with
  | nil => cases ran
  | cons child later =>
    simp only [step] at ran
    split at ran
    · rename_i open_
      cases ran
      rw [trail.entered top]
      exact cyclePath_closed (.cons_cons (waiting _ mem_cons_self child mem_cons_self) chain) (onStack child open_)
    · cases ran
    · cases ran

end

/-! ## Whole searches -/

/-- What a descent comes to: nothing is left open, or a cycle was met. -/
def Outcome (adj : α → List α) (nodes : List α) (s : Search α) : Search α ⊕ List α → Prop
  | .inl final => final.stack = [] ∧ Inv adj nodes final ∧
      ∀ node, node ∈ s.stack.map fst ∨ s.colour node = .done → final.colour node = .done
  | .inr cycle => ClosedWalk adj cycle

/-- With enough fuel the loop ends by itself, so more fuel changes nothing. -/
theorem explore_spec (closed : ∀ node ∈ nodes, ∀ child ∈ adj node, child ∈ nodes) (fuel) {s}
    (inv : Inv adj nodes s) (trail : Trail adj s) (enough : remaining adj nodes s < fuel) :
    Outcome adj nodes s (explore adj fuel s) ∧ ∀ more, explore adj (fuel + more) s = explore adj fuel s := by
  induction fuel generalizing s with
  | zero => omega
  | succ fuel ih =>
    simp only [Nat.succ_add, explore]
    cases top : s.stack with
    | nil => exact ⟨⟨top, inv, fun node tracked => by simpa [top] using tracked⟩, fun _ => rfl⟩
    | cons frame below =>
      obtain ⟨node, pending⟩ := frame
      cases stepped : step adj s node pending below <;> simp only [stepped]
      case inr cycle => exact ⟨step_cycle trail top inv stepped, fun _ => trivial⟩
      case inl next =>
        have less := step_remaining inv top stepped
        obtain ⟨outcome, same⟩ := ih (step_inv closed inv top stepped) (step_trail trail top inv stepped) (by omega)
        refine ⟨?_, same⟩
        revert outcome
        cases explore adj fuel next with
        | inr cycle => exact id
        | inl final => exact fun ⟨empty, finalInv, tracked⟩ => ⟨empty, finalInv, fun other before =>
            tracked other (step_tracks top stepped other before)⟩

/-- Between two descents every node is unvisited or done. -/
structure Settled (adj : α → List α) (colour : α → Colour) : Prop where
  accessible : ∀ node, colour node = .done → Acc (Below adj) node
  noneOpen : ∀ node, colour node ≠ .inStack

omit [DecidableEq α] in
private theorem start_inv {start : α}
    (closed : ∀ node ∈ nodes, ∀ child ∈ adj node, child ∈ nodes) (settled : Settled adj colour)
    (member : start ∈ nodes) : Inv adj nodes ⟨colour, [(start, adj start)], []⟩ where
  accessible := settled.accessible
  frames := ⟨fun _ edge => .inl edge, trivial⟩
  onStack := fun node marked => absurd marked (settled.noneOpen node)
  visited := by simp
  inside := by simpa using ⟨member, closed start member⟩

private theorem start_remaining {start : α} (member : start ∈ nodes) :
    remaining adj nodes ⟨colour, [(start, adj start)], []⟩ < budget adj nodes := by
  have unpushed := sum_map_add_le start (d := (adj start).length + 1)
    (f := fun node => if colour node = .unvisited ∧ node ∉ [start] then
      (adj node).length + 1 else 0)
    (g := fun node => (adj node).length + 1) (by intro node; split <;> simp) (by simp) member
  simp only [remaining, budget, map_cons, map_nil, sum_cons, sum_nil]
  omega

omit [DecidableEq α] in
private theorem start_trail {start : α} (fresh : colour start = .unvisited) :
    Trail adj ⟨colour, [(start, adj start)], []⟩ where
  path := fun node pending below stack => by cases stack; simp [fresh]
  chain := .singleton start
  pending := by simp [Below]

/-- What a search comes to: every descent from a start ends, or a cycle was met. -/
def Verdict (adj : α → List α) (starts : List α) (colour : α → Colour) : Option (List α) → Prop
  | none => ∀ node, node ∈ starts ∨ colour node = .done → Acc (Below adj) node
  | some cycle => ClosedWalk adj cycle

omit [DecidableEq α] in
theorem Verdict.cons (verdict : Verdict adj rest colour' result) (settled : Settled adj colour)
    (accessible : Acc (Below adj) start) : Verdict adj (start :: rest) colour result := by
  cases result with
  | some cycle => exact verdict
  | none =>
    rintro node (member | finished)
    · rcases mem_cons.mp member with rfl | later
      · exact accessible
      exact verdict node (.inl later)
    · exact settled.accessible node finished

section
variable (closed : ∀ node ∈ nodes, ∀ child ∈ adj node, child ∈ nodes)
include closed

theorem searchFrom_spec (inside : ∀ start ∈ starts, start ∈ nodes) (settled : Settled adj colour) :
    Verdict adj starts colour (searchFrom adj (budget adj nodes) starts colour) ∧ ∀ more,
    searchFrom adj (budget adj nodes + more) starts colour = searchFrom adj (budget adj nodes) starts colour := by
  induction starts generalizing colour with
  | nil => exact ⟨fun node known => settled.accessible node (known.resolve_left (by simp)), fun _ => rfl⟩
  | cons start rest ih =>
    have member := inside start mem_cons_self
    have insideRest : ∀ other ∈ rest, other ∈ nodes := fun other member => inside other (mem_cons_of_mem _ member)
    by_cases fresh : colour start = .unvisited
    · obtain ⟨outcome, same⟩ := explore_spec closed _ (start_inv closed settled member)
        (start_trail fresh) (start_remaining member)
      simp only [searchFrom, if_pos fresh, same]
      revert outcome
      cases explore adj (budget adj nodes) ⟨colour, [(start, adj start)], []⟩ with
      | inr cycle => exact fun walk => ⟨walk, fun _ => rfl⟩
      | inl final =>
        rintro ⟨empty, inv, tracked⟩
        have settled' : Settled adj final.colour := ⟨inv.accessible, fun node marked => by
          simpa [empty] using inv.onStack node marked⟩
        have accessible := inv.accessible start (tracked start (.inl (by simp)))
        exact (ih insideRest settled').imp_left fun verdict => verdict.cons settled accessible
    · have startDone : colour start = .done := by
        cases shade : colour start with
        | unvisited => exact absurd shade fresh
        | inStack => exact absurd shade (settled.noneOpen start)
        | done => rfl
      simp only [searchFrom, if_neg fresh]
      exact (ih insideRest settled).imp_left fun verdict =>
        verdict.cons settled (settled.accessible start startDone)

/-- Whatever the order of the start nodes, the fuel of a search is enough: a search
that reports nothing has proved every node accessible. -/
theorem search_spec : Verdict adj nodes (fun _ => .unvisited) (search adj nodes) ∧ ∀ more,
    searchFrom adj (budget adj nodes + more) nodes (fun _ => .unvisited) = search adj nodes :=
  searchFrom_spec closed (fun _ member => member) ⟨by simp, by simp⟩

end

omit [DecidableEq α] in
/-- No directed cycle passes through an accessible node. -/
theorem acyclic_of_accessible (accessible : Acc (Below adj) node) :
    ¬ TransGen (fun source target => target ∈ adj source) node node := by
  have never : ∀ v, Acc (TransGen (Below adj)) v →
      ¬ TransGen (Below adj) v v := by
    intro v descends
    induction descends with
    | intro v _ ih => exact fun loop => ih v loop loop
  exact fun cycle => never node accessible.transGen (Relation.transGen_swap.mp cycle)

end
end LongHorizonOS.ThreeColourSearch
