import LongHorizonOS.PythonValues
import Mathlib.Data.Prod.Lex
import Mathlib.Data.String.Basic

/-! The order of the ready tasks. Graph utility ranks them by a lexicographic key, and
the score that it reports packs the key into one number, in which the weight of each
component is computed from the candidates. -/
namespace LongHorizonOS.FrontierRanking
open KeyedRows PythonValues List

/-- A digit counts for more than everything below it. -/
theorem digit_lt {span high high' low low' : ℕ} (bound : low < span)
    (less : high < high' ∨ high = high' ∧ low < low') : high * span + low < high' * span + low' := by
  rcases less with less | ⟨rfl, less⟩
  · calc
      high * span + low < (high + 1) * span := by rw [Nat.succ_mul]; omega
      _ ≤ high' * span := Nat.mul_le_mul_right span less
      _ ≤ high' * span + low' := Nat.le_add_right _ _
  · omega

/-- `values.get(task_id)` -/
def get (values : List (String × ℕ)) (taskId : String) : Option ℕ :=
  (lookup Prod.fst values taskId).map Prod.snd

def criticalPathPositions (values : List String) : List (String × ℕ) :=
  values.foldl (fun result value =>
    if strip value ≠ "" ∧ get result (strip value) = none then result ++ [(strip value, result.length)]
    else result) []

def unlockValueIndex (values : List (String × Int)) : List (String × ℕ) :=
  values.foldl (fun result item =>
    if strip item.1 = "" then result
    else upsert Prod.fst (strip item.1, max ((get result (strip item.1)).getD 0) item.2.toNat) result) []

inductive FrontierRankingStrategy where
  | repairFirstLexical
  | graphUtility

/-- What `_rank_candidates` reads. -/
structure Ranking where
  candidateSet : List String
  repairSet : List String
  criticalPath : List String
  downstreamUnlockValues : List (String × Int)

namespace Ranking
section
variable (r : Ranking) (taskId : String)

def position : Option ℕ := get (criticalPathPositions r.criticalPath) taskId

def pathLength : ℕ := (criticalPathPositions r.criticalPath).length

def unlockValue : ℕ := (get (unlockValueIndex r.downstreamUnlockValues) taskId).getD 0

/-- `sort_key` without the id, which only breaks ties. -/
def sortKey : ℕ ×ₗ ℕ ×ₗ ℕ ×ₗ ℤ :=
  toLex (if taskId ∈ r.repairSet then 0 else 1, toLex (if (r.position taskId).isSome then 0 else 1,
    toLex ((r.position taskId).getD r.pathLength, -(r.unlockValue taskId : ℤ))))

def tier : ℕ := (if taskId ∈ r.repairSet then 2 else 0) + if (r.position taskId).isSome then 1 else 0

def pathPriority : ℕ := (r.position taskId).elim 0 (r.pathLength - ·)

/-- The score as an integer, before it is stored as a float. -/
def score (candidates : List String) : ℕ :=
  let unlockSpan := (candidates.map r.unlockValue).max?.getD 0 + 1
  let pathSpan := (r.pathLength + 1) * unlockSpan
  r.tier taskId * pathSpan + r.pathPriority taskId * unlockSpan + r.unlockValue taskId

/-- The candidates in order, with their scores. -/
def rankCandidates : FrontierRankingStrategy → List String × List (String × ℕ)
  | .repairFirstLexical =>
    let candidates := r.candidateSet.insertionSort fun a b =>
      toLex (if a ∈ r.repairSet then 0 else 1, a) ≤ toLex (if b ∈ r.repairSet then 0 else 1, b)
    (candidates, candidates.map fun taskId => (taskId, if taskId ∈ r.repairSet then 1 else 0))
  | .graphUtility =>
    let candidates := r.candidateSet.insertionSort fun a b => toLex (r.sortKey a, a) ≤ toLex (r.sortKey b, b)
    (candidates, candidates.map fun taskId => (taskId, r.score taskId candidates))

end

variable {r : Ranking}

theorem position_lt (found : r.position taskId = some place) : place < r.pathLength := by
  have inside : ∀ row ∈ criticalPathPositions r.criticalPath, row.2 < r.pathLength := by
    refine foldlRecOn (motive := fun result : List (String × ℕ) => ∀ row ∈ result, row.2 < result.length) _ _
      (by simp) fun result inside value _ => ?_
    split
    · exact forall_append_single (fun row old => by simpa using Nat.lt_succ_of_lt (inside row old)) (by simp)
    exact inside
  obtain ⟨row, hit, rfl⟩ := Option.map_eq_some_iff.mp found
  exact inside row (lookup_mem hit)

/-- What comes first in the order is larger in one component and equal in those above. -/
theorem components_of_sortKey (ahead : r.sortKey a < r.sortKey b) :
    r.tier b < r.tier a ∨ r.tier b = r.tier a ∧ (r.pathPriority b < r.pathPriority a ∨
      r.pathPriority b = r.pathPriority a ∧ r.unlockValue b < r.unlockValue a) := by
  simp only [sortKey, Prod.Lex.toLex_lt_toLex] at ahead
  simp only [tier, pathPriority]
  by_cases repaired : a ∈ r.repairSet <;> by_cases repaired' : b ∈ r.repairSet <;>
    cases first : r.position a <;> cases second : r.position b <;> simp_all
  -- only two places on the path are left to compare
  all_goals
    have inside := position_lt first
    have inside' := position_lt second
    omega

theorem score_lt {candidates : List String} (listed : b ∈ candidates) (ahead : r.sortKey a < r.sortKey b) :
    r.score b candidates < r.score a candidates := by
  have bound : r.unlockValue b < (candidates.map r.unlockValue).max?.getD 0 + 1 :=
    Nat.lt_succ_of_le (le_max?_getD_of_mem (mem_map_of_mem listed))
  have priority : r.pathPriority b < r.pathLength + 1 := by
    unfold pathPriority
    cases r.position b with
    | none => exact Nat.succ_pos _
    | some place => exact Nat.lt_succ_of_le (Nat.sub_le _ _)
  simp only [score, Nat.add_assoc]
  apply digit_lt
  · exact (digit_lt bound (.inl priority) : _ < (r.pathLength + 1) * _ + 0)
  exact (components_of_sortKey ahead).imp_right fun ⟨same, below⟩ => ⟨same, digit_lt bound below⟩

/-- The scores of the candidates are in the order of their keys, and two scores are equal
only when the keys are. -/
theorem rankCandidates_scores (r : Ranking) (a b : String) (m n : ℕ)
    (first : (a, m) ∈ (r.rankCandidates .graphUtility).2)
    (second : (b, n) ∈ (r.rankCandidates .graphUtility).2) :
    (r.sortKey a < r.sortKey b → n < m) ∧ (m = n → r.sortKey a = r.sortKey b) := by
  obtain ⟨_, listed, same⟩ := mem_map.mp first
  cases same
  obtain ⟨_, listed', same⟩ := mem_map.mp second
  cases same
  refine ⟨score_lt listed', fun equal => ?_⟩
  rcases lt_trichotomy (r.sortKey a) (r.sortKey b) with less | same | less
  · exact absurd equal (score_lt listed' less).ne'
  · exact same
  · exact absurd equal (score_lt listed less).ne

/-- A task under repair is worth more than one on the path. -/
theorem rankCandidates_scores_repair : let r : Ranking := ⟨["x", "y"], ["y"], ["x"], [("x", 3), ("y", 5)]⟩
    (r.rankCandidates .graphUtility).2 = [("y", 29), ("x", 21)] ∧ r.sortKey "y" < r.sortKey "x" ∧ 21 < 29 := by
  intro r
  have ranked : (r.rankCandidates .graphUtility).2 = [("y", 29), ("x", 21)] := by decide
  have ahead : r.sortKey "y" < r.sortKey "x" := by decide
  refine ⟨ranked, ahead, (rankCandidates_scores r "y" "x" 29 21 ?_ ?_).1 ahead⟩
  · simp [ranked]
  · simp [ranked]

end Ranking
end LongHorizonOS.FrontierRanking
