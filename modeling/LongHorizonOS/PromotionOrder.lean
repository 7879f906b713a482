import LongHorizonOS.OnePass
import LongHorizonOS.PromotionSpec

/-! The promotion pass as one pass by a rule. A Task may be added if it passes
the tests of its branch; it needs the nodes it depends on; the survivors of
the invalidation passes are given. Which Tasks are VERIFIED after a derivation
is then a matter of the rule and of the row order alone. -/
namespace LongHorizonOS.PromotionOrder
open KeyedRows GraphModels EvidenceVerification RowSweep DerivedState List Option
open DerivationFrame InvalidationSpec PromotionSpec OnePass

/-- The rule of the promotion pass. A dependency that is not stored does not
block; one that is not a Task is never given and never ready, so it does. -/
def promotionRule (d : Derivation) (nodes : List VPGNode) : Rule String where
  ready taskId := ∃ task, getNode nodes taskId = some task ∧ ¬ Survives d nodes taskId ∧
    Promotable d nodes (lost d task)
  needs taskId target := target ∈ targetsOf d.edges .dependsOn taskId ∧ target ∈ nodes.map VPGNode.nodeId
  given taskId := ∃ task, getNode nodes taskId = some task ∧ Survives d nodes taskId ∧
    task.lifecycle.admittedOrLater = true

/-- The Tasks that the pass promotes. -/
def Promoted (d : Derivation) (nodes : List VPGNode) : String → Prop :=
  (promotionRule d nodes).pass (nodes.map VPGNode.nodeId)

section
theorem ready_of_pass (added : (promotionRule d nodes).pass earlier taskId) : (promotionRule d nodes).ready taskId := by
  cases Rule.derivable_of_pass added with
  | intro ready _ => exact ready

theorem ready_isTask (ready : Promotable d nodes (lost d task)) : task.isTask = true :=
  lost_isTask task ▸ promotable_isTask ready

/-- What the rows hold when the pass has visited some keys. -/
def Tracks (d : Derivation) (nodes : List VPGNode) (earlier : List String) (rows : List VPGNode) : Prop :=
  ∀ taskId task, getNode nodes taskId = some task → task.isTask = true →
    (Survives d nodes taskId ∧ ∃ row, getNode rows taskId = some row ∧ row.isTask = true ∧
      row.validity = .verified ∧ row.lifecycle = task.lifecycle) ∨
    (¬ Survives d nodes taskId ∧ (promotionRule d nodes).pass earlier taskId ∧
      getNode rows taskId = some (promote d nodes (lost d task)).1) ∨
    (¬ Survives d nodes taskId ∧ ¬ (promotionRule d nodes).pass earlier taskId ∧
      getNode rows taskId = some (lost d task))

/-- The dependency test, on rows that the rule tracks. -/
theorem depsVerified_iff (frame : Frame nodes rows) (tracks : Tracks d nodes earlier rows) (taskId : String) :
    taskDepsVerified taskId rows d.edges = true ↔ ∀ target, (promotionRule d nodes).needs taskId target →
      (promotionRule d nodes).given target ∨ (promotionRule d nodes).pass earlier target := by
  rw [taskDepsVerified_iff]
  constructor
  · rintro verified target ⟨edge, stored⟩
    obtain ⟨dep, found⟩ := isSome_iff_exists.mp (lookup_isSome.mpr stored)
    obtain ⟨row, hit, same⟩ := frame.forward found
    obtain ⟨isTask, valid, admitted⟩ := verified target edge row hit
    rcases tracks target dep found (same.isTask ▸ isTask) with
      ⟨survives, other, again, _, _, life⟩ | ⟨_, added, _⟩ | ⟨_, _, unverified⟩
    · obtain rfl : row = other := some.inj (hit.symm.trans again)
      exact .inl ⟨dep, found, survives, life ▸ admitted⟩
    · exact .inr added
    rw [hit, some.injEq] at unverified
    exact absurd (unverified ▸ valid) lost_validity
  intro supplied target edge row hit
  obtain ⟨dep, found, _⟩ := frame.backward hit
  have stored : target ∈ nodes.map VPGNode.nodeId := lookup_isSome.mp (isSome_iff_exists.mpr ⟨dep, found⟩)
  rcases supplied target ⟨edge, stored⟩ with ⟨other, again, survives, admitted⟩ | added
  · obtain rfl : dep = other := some.inj (found.symm.trans again)
    obtain ⟨alive, here, isTask, _⟩ := survives.sound
    obtain rfl : dep = alive := some.inj (found.symm.trans here)
    rcases tracks target dep found isTask with
      ⟨_, other, again, rowTask, valid, life⟩ | ⟨gone, _⟩ | ⟨gone, _⟩
    · obtain rfl : row = other := some.inj (hit.symm.trans again)
      exact ⟨rowTask, valid, life ▸ admitted⟩
    · exact absurd survives gone
    · exact absurd survives gone
  obtain ⟨other, again, gone, ready⟩ := ready_of_pass added
  obtain rfl : dep = other := some.inj (found.symm.trans again)
  rcases tracks target dep found (ready_isTask ready) with
    ⟨survives, _⟩ | ⟨_, _, promoted⟩ | ⟨_, missing, _⟩
  · exact absurd survives gone
  · rw [hit, some.injEq] at promoted
    rw [promoted, promote_validity, promote_lifecycle ready]
    refine ⟨?_, rfl, rfl⟩
    rw [(promote_derived (promotable_isTask ready)).isTask]
    exact promotable_isTask ready
  · exact absurd added missing

/-- A visit promotes a Task that does not survive exactly if the rule adds it. -/
theorem visit_enabled (frame : Frame nodes rows)
    (tracks : Tracks d nodes earlier rows) (found : getNode nodes taskId = some task)
    (gone : ¬ Survives d nodes taskId) :
    (Promotable d rows (lost d task) ∧ taskDepsVerified (lost d task).nodeId rows d.edges = true) ↔
      (promotionRule d nodes).Enabled ((promotionRule d nodes).pass earlier) taskId := by
  have named : (lost d task).nodeId = taskId := (lost_nodeId task).trans (lookup_key found)
  rw [named, depsVerified_iff frame tracks, promotable_frame frame.sameRecords]
  refine and_congr ⟨fun ready => ⟨task, found, gone, ready⟩, ?_⟩ Iff.rfl
  rintro ⟨other, hit, _, ready⟩
  rw [found, some.injEq] at hit
  exact hit ▸ ready

theorem visit_tracks (frame : Frame nodes rows)
    (tracks : Tracks d nodes earlier rows) (unvisited : taskId ∉ earlier)
    (found : getNode nodes taskId = some task) (isTask : task.isTask = true) :
    let visited := (getNode rows taskId).map (effect (promoteVisit d) rows)
    (Survives d nodes taskId ∧ ∃ row, visited = some row ∧ row.isTask = true ∧
      row.validity = .verified ∧ row.lifecycle = task.lifecycle) ∨
    (¬ Survives d nodes taskId ∧ (promotionRule d nodes).pass (earlier ++ [taskId]) taskId ∧
      visited = some (promote d nodes (lost d task)).1) ∨
    (¬ Survives d nodes taskId ∧ ¬ (promotionRule d nodes).pass (earlier ++ [taskId]) taskId ∧
      visited = some (lost d task)) := by
  have adds : (promotionRule d nodes).pass (earlier ++ [taskId]) taskId ↔
      (promotionRule d nodes).Enabled ((promotionRule d nodes).pass earlier) taskId :=
    Rule.pass_split unvisited not_mem_nil
  rcases tracks taskId task found isTask with
    ⟨survives, row, hit, rowTask, valid, life⟩ | ⟨_, added, _⟩ | ⟨gone, _, hit⟩
  · refine .inl ⟨survives, recordSnapshot d rows row, ?_, ?_, valid, life⟩
    · rw [hit, map_some, effect, promoteVisit_verified rowTask valid]
      rfl
    · rw [(recordSnapshot_derived rowTask).isTask, rowTask]
  · exact absurd (Rule.mem_of_pass added) unvisited
  right
  rw [adds, ← visit_enabled frame tracks found gone, hit, map_some]
  rcases promoteVisit_effect (d := d) rows ((lost_isTask (d := d) task).trans isTask) with
    ⟨verified, _⟩ | ⟨ready, deps, eq⟩ | ⟨_, refused, eq⟩
  · exact absurd verified lost_validity
  · exact .inl ⟨gone, ⟨ready, deps⟩, by rw [eq, promote_frame frame.sameRecords]⟩
  exact .inr ⟨gone, refused, by rw [eq]⟩

/-- The rows track the rule at every moment of the pass. -/
theorem promotedAfter_tracks (distinct : DistinctIds nodes) (split : nodes.map VPGNode.nodeId = earlier ++ later) :
    Tracks d nodes earlier (promotedAfter d nodes earlier) := by
  induction earlier using List.reverseRecOn generalizing later with
  | nil =>
    intro taskId task found isTask
    rcases propagated_task (d := d) found isTask with ⟨survives, verified, hit⟩ | ⟨gone, hit⟩
    · exact .inl ⟨survives, task, hit, isTask, verified, rfl⟩
    exact .inr (.inr ⟨gone, Rule.mem_of_pass.mt not_mem_nil, hit⟩)
  | append_singleton earlier k ih =>
    rw [append_assoc] at split
    have before := ih split
    have frame := promotedAfter_frame (d := d) nodes earlier
    have notEarlier : k ∉ earlier := by
      rw [DistinctIds, split, nodup_append] at distinct
      exact fun member => distinct.2.2 k member k mem_cons_self rfl
    intro taskId task found isTask
    have visited : getNode (promotedAfter d nodes (earlier ++ [k])) taskId =
        if taskId = k then (getNode (promotedAfter d nodes earlier) taskId).map
          (effect (promoteVisit d) (promotedAfter d nodes earlier))
        else getNode (promotedAfter d nodes earlier) taskId := by
      rw [promotedAfter, visitKeys_append]
      exact visitKey_lookup promoteVisit_derives.keepsKey taskId
    rw [visited]
    by_cases here : taskId = k
    · subst here
      rw [if_pos rfl]
      exact visit_tracks frame before notEarlier found isTask
    rw [if_neg here]
    have passSame : (promotionRule d nodes).pass (earlier ++ [k]) taskId ↔
        (promotionRule d nodes).pass earlier taskId := by
      rw [Rule.pass_snoc]
      exact ⟨fun added => added.resolve_right fun other => here other.1, .inl⟩
    rw [passSame]
    exact before taskId task found isTask

/-- What a derivation makes of a Task, with the promoted ones told apart. -/
theorem derived_outcome (distinct : DistinctIds nodes)
    (found : getNode nodes taskId = some task) (isTask : task.isTask = true) :
    (Survives d nodes taskId ∧ getNode (closed d nodes).rows taskId = some (recordSnapshot d nodes task)) ∨
    (¬ Survives d nodes taskId ∧ Promoted d nodes taskId ∧
      getNode (closed d nodes).rows taskId = some (promote d nodes (lost d task)).1) ∨
    (¬ Survives d nodes taskId ∧ ¬ Promoted d nodes taskId ∧
      getNode (closed d nodes).rows taskId = some (lost d task)) := by
  have tracks := promotedAfter_tracks (d := d) distinct (append_nil _).symm taskId task found isTask
  rw [← promoted_eq, ← closed_task (isTaskAt_iff.mpr ⟨task, found, isTask⟩)] at tracks
  rcases tracks with ⟨survives, _⟩ | promoted | left
  · refine .inl ⟨survives, ?_⟩
    rcases derived_task (d := d) distinct found isTask with ⟨_, _, eq⟩ | ⟨gone, _⟩ | ⟨gone, _⟩
    · exact eq
    · exact absurd survives gone
    exact absurd survives gone
  · exact .inr (.inl promoted)
  · exact .inr (.inr left)

/-- A derivation leaves VERIFIED the survivors and the promoted Tasks. -/
theorem derived_verified_iff (distinct : DistinctIds nodes) :
    VerifiedTask (closed d nodes).rows taskId ↔ Survives d nodes taskId ∨ Promoted d nodes taskId := by
  constructor
  · rintro ⟨after, hit, isTask, valid⟩
    obtain ⟨task, found, same⟩ := (closed_frame (d := d) nodes).backward hit
    rcases derived_outcome (d := d) distinct found (same.isTask ▸ isTask) with
      ⟨survives, _⟩ | ⟨_, promoted, _⟩ | ⟨_, _, eq⟩
    · exact .inl survives
    · exact .inr promoted
    rw [hit, some.injEq] at eq
    exact absurd (eq ▸ valid) lost_validity
  intro outcome
  obtain ⟨task, found, isTask⟩ : ∃ task, getNode nodes taskId = some task ∧ task.isTask = true := by
    rcases outcome with survives | promoted
    · obtain ⟨task, found, isTask, _⟩ := survives.sound
      exact ⟨task, found, isTask⟩
    obtain ⟨task, found, _, ready⟩ := ready_of_pass promoted
    exact ⟨task, found, ready_isTask ready⟩
  obtain ⟨after, hit, same⟩ := (closed_frame (d := d) nodes).forward found
  refine ⟨after, hit, same.isTask.trans isTask, ?_⟩
  rcases derived_outcome (d := d) distinct found isTask with ⟨survives, eq⟩ | ⟨_, _, eq⟩ | ⟨gone, left, _⟩
  · rw [hit, some.injEq] at eq
    obtain ⟨other, again, _, valid, _⟩ := survives.sound
    rw [found, some.injEq] at again
    rw [eq, recordSnapshot_validity, again, valid]
  · rw [hit, some.injEq] at eq
    rw [eq, promote_validity]
  · exact absurd outcome (by rw [not_or]; exact ⟨gone, left⟩)

end
end LongHorizonOS.PromotionOrder
