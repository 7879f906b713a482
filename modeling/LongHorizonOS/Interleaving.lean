import Mathlib.Data.List.Basic
import Mathlib.Data.List.Induction

/-! Clients that share a state. A client is the value that records how far it
has come; one atomic step takes a client and the shared state to their next
values, and the steps of any number of clients interleave in any order. What
holds of every client along every interleaving is proved by a rely-guarantee
rule: each step keeps the invariant of the shared state and the assertion of
its own client, and what it may do to the shared state leaves the assertions
of the other clients alone. -/
namespace LongHorizonOS.Interleaving
open List hiding getElem?_eq_some_iff

/-- The parts of a concurrent program: what its administrator can do to the
shared state, how a client starts, and its atomic steps. -/
structure Machine (σ τ α κ : Type) where
  act : σ → α → σ
  enter : κ → τ
  advance : τ → σ → τ × σ

structure System (σ τ : Type) where
  shared : σ
  clients : List τ := []

/-- What can happen next. -/
inductive Event (α κ : Type) where
  | act (action : α)
  | enter (argument : κ)
  | step (index : ℕ)

namespace Machine
variable {σ τ α κ : Type} (m : Machine σ τ α κ)

def next (system : System σ τ) : Event α κ → System σ τ
  | .act action => { system with shared := m.act system.shared action }
  | .enter argument => { system with clients := system.clients ++ [m.enter argument] }
  | .step index =>
    match system.clients[index]? with
    | none => system
    | some client =>
      { shared := (m.advance client system.shared).2
        clients := system.clients.set index (m.advance client system.shared).1 }

/-- The system after the events, from a state without clients. -/
def conduct (start : σ) (events : List (Event α κ)) : System σ τ :=
  events.foldl m.next { shared := start }

/-- Every step of the run meets the condition of its client in the state that it
finds. Clients are numbered in the order in which they enter. -/
def Meets (condition : ℕ → σ → τ → Prop) (start : σ) (events : List (Event α κ)) : Prop :=
  ∀ before index later client, events = before ++ .step index :: later →
    (m.conduct start before).clients[index]? = some client →
    condition index (m.conduct start before).shared client

variable {m} {events more : List (Event α κ)} {start : σ} {client : τ} {index : ℕ}

theorem conduct_append : m.conduct start (events ++ [event]) = m.next (m.conduct start events) event := by
  rw [conduct, foldl_append]
  rfl

theorem Meets.of_append (meets : m.Meets condition start (events ++ more)) : m.Meets condition start events := by
  intro before index later client split
  exact meets before index (later ++ more) client (by rw [split]; simp)

theorem meets_true : m.Meets (fun _ _ _ => True) start events :=
  fun _ _ _ _ _ _ => trivial

/-- Who is found after one has entered. -/
theorem found_append (found : (clients ++ [newcomer])[index]? = some client) :
    clients[index]? = some client ∨ index = clients.length ∧ client = newcomer := by
  rw [getElem?_append] at found
  split at found
  · exact Or.inl found
  rw [getElem?_singleton] at found
  split_ifs at found
  exact Or.inr ⟨by omega, (Option.some.inj found).symm⟩

/-- Who is found after one has stepped. -/
theorem found_set {clients : List τ} {stepped : τ} {other : ℕ}
    (found : (clients.set index stepped)[other]? = some client) :
    other = index ∧ client = stepped ∨ other ≠ index ∧ clients[other]? = some client := by
  rw [getElem?_set] at found
  split_ifs at found with same
  · exact Or.inl ⟨same.symm, (Option.some.inj found).symm⟩
  exact Or.inr ⟨Ne.symm same, found⟩

/-- The rely-guarantee rule. -/
theorem conduct_rule {P : σ → Prop} {I : ℕ → σ → τ → Prop} {G : σ → σ → Prop}
    (meets : m.Meets condition start events) (initial : P start)
    (acts : ∀ s action, P s → P (m.act s action) ∧ G s (m.act s action))
    (enters : ∀ index s argument, P s → I index s (m.enter argument))
    (steps : ∀ index s client, P s → I index s client → condition index s client →
      P (m.advance client s).2 ∧ G s (m.advance client s).2 ∧ I index (m.advance client s).2 (m.advance client s).1)
    (stable : ∀ index s s' client, P s → G s s' → I index s client → I index s' client) :
    P (m.conduct start events).shared ∧ ∀ index client, (m.conduct start events).clients[index]? = some client →
        I index (m.conduct start events).shared client := by
  induction events using List.reverseRecOn with
  | nil => exact ⟨initial, fun index client found => by simp [conduct] at found⟩
  | append_singleton events event ih =>
    obtain ⟨holds, asserted⟩ := ih meets.of_append
    rw [conduct_append]
    cases event with
    | act action =>
      obtain ⟨kept, guaranteed⟩ := acts _ action holds
      exact ⟨kept, fun index client found =>
        stable index _ _ client holds guaranteed (asserted index client found)⟩
    | enter argument =>
      refine ⟨holds, fun index client found => ?_⟩
      rcases found_append found with old | ⟨_, rfl⟩
      · exact asserted index client old
      exact enters index _ argument holds
    | step index =>
      rw [next]
      split
      · exact ⟨holds, asserted⟩
      rename_i client found
      obtain ⟨kept, guaranteed, own⟩ := steps index _ client holds (asserted index client found)
        (meets events index [] client rfl found)
      refine ⟨kept, fun other client' found' => ?_⟩
      rcases found_set found' with ⟨rfl, rfl⟩ | ⟨_, old⟩
      · exact own
      exact stable other _ _ client' holds guaranteed (asserted other client' old)

/-- A client that steps no further stays as it is. -/
theorem conduct_settled (settled : ∀ s, (m.advance client s).1 = client)
    (found : (m.conduct start events).clients[index]? = some client) :
    (m.conduct start (events ++ more)).clients[index]? = some client := by
  induction more using List.reverseRecOn with
  | nil => rwa [append_nil]
  | append_singleton more event ih =>
    rw [← append_assoc, conduct_append]
    cases event with
    | act action => exact ih
    | enter argument => exact (getElem?_append_left (getElem?_eq_some_iff.mp ih).1).trans ih
    | step other =>
      rw [next]
      split
      · exact ih
      rename_i stepping here
      rw [getElem?_set]
      split
      · rename_i same
        rw [same, ih] at here
        cases here
        rw [settled, if_pos (List.getElem?_eq_some_iff.mp (same ▸ ih)).1]
      · exact ih

/-! ## Testing a given schedule -/

/-- Test the client that is about to step. -/
def testNext (test : ℕ → σ → τ → Bool) (system : System σ τ) : Event α κ → Bool
  | .step index => (system.clients[index]?).all (test index system.shared)
  | _ => true

variable (m) in
/-- Test every step in the state that it finds. -/
def tests (test : ℕ → σ → τ → Bool) : System σ τ → List (Event α κ) → Bool
  | _, [] => true
  | system, event :: rest => testNext test system event && tests test (m.next system event) rest

theorem meets_of_tests (passed : m.tests test { shared := start } events = true) :
    m.Meets (fun index s client => test index s client = true) start events := by
  intro before index later client split
  rw [split] at passed
  clear split
  rw [conduct]
  generalize ({ shared := start } : System σ τ) = system at passed ⊢
  induction before generalizing system with
  | nil =>
    intro found
    rw [nil_append, tests, Bool.and_eq_true, testNext] at passed
    have tested := passed.1
    rw [show system.clients[index]? = some client from found, Option.all_some] at tested
    exact tested
  | cons event before ih =>
    rw [cons_append, tests, Bool.and_eq_true] at passed
    exact ih (m.next system event) passed.2

end Machine
end LongHorizonOS.Interleaving
