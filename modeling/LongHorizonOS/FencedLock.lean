import Mathlib.Data.List.Basic
import Mathlib.Algebra.Order.Ring.Int

/-! Shared and exclusive grants on one resource, fenced by a token. A grant on a
free resource opens a new epoch with the next token, a shared grant joins an
epoch of shared grants, and grants lapse. The grants in force always belong to
one epoch, and the token never goes back. -/
namespace LongHorizonOS.FencedLock
open List

/-- How to read a grant. -/
structure Reading (γ : Type) where
  exclusive : γ → Bool
  token : γ → Int

structure Lock (γ : Type) where
  /-- The token of the last epoch, 0 before the first. -/
  last : Int
  grants : List γ

variable {γ : Type} (reading : Reading γ)

inductive Step : Lock γ → Lock γ → Prop where
  | epoch {lock : Lock γ} {grant : γ} (free : lock.grants = [])
      (next : reading.token grant = lock.last + 1) : Step lock ⟨lock.last + 1, [grant]⟩
  | join {lock : Lock γ} {grant : γ} (held : lock.grants ≠ [])
      (readers : ∀ other ∈ lock.grants, reading.exclusive other = false)
      (reader : reading.exclusive grant = false) (same : reading.token grant = lock.last) :
      Step lock ⟨lock.last, lock.grants ++ [grant]⟩
  /-- Grants lapse, and what else they carry can change. -/
  | lapse {lock : Lock γ} {grants : List γ}
      (kept : (grants.map fun grant => (reading.exclusive grant, reading.token grant)).Sublist
        (lock.grants.map fun grant => (reading.exclusive grant, reading.token grant))) :
      Step lock ⟨lock.last, grants⟩

abbrev Steps : Lock γ → Lock γ → Prop := Relation.ReflTransGen (Step reading)

structure Sound (lock : Lock γ) : Prop where
  alone : ∀ grant ∈ lock.grants, reading.exclusive grant = true → lock.grants.length ≤ 1
  current : ∀ grant ∈ lock.grants, reading.token grant = lock.last
  positive : ∀ grant ∈ lock.grants, 0 < reading.token grant
  bounded : 0 ≤ lock.last

variable {reading}

theorem sound_free : Sound reading ⟨0, []⟩ :=
  ⟨by simp, by simp, by simp, le_refl 0⟩

/-- A property of the readings of all grants outlives a lapse. -/
private theorem forall_of_lapse {grants before : List γ} {P : Bool × Int → Prop}
    (kept : (grants.map fun grant => (reading.exclusive grant, reading.token grant)).Sublist
      (before.map fun grant => (reading.exclusive grant, reading.token grant)))
    (all : ∀ grant ∈ before, P (reading.exclusive grant, reading.token grant)) :
    ∀ grant ∈ grants, P (reading.exclusive grant, reading.token grant) := by
  intro grant member
  have inside := kept.subset (mem_map_of_mem member)
  obtain ⟨old, was, equal⟩ := mem_map.mp inside
  exact equal ▸ all old was

theorem Step.sound (step : Step reading lock lock') (sound : Sound reading lock) : Sound reading lock' := by
  cases step with
  | epoch free next =>
    have bounded := sound.bounded
    refine ⟨fun _ _ _ => le_refl 1, fun grant member => ?_, fun grant member => ?_, ?_⟩
    · obtain rfl := mem_singleton.mp member
      exact next
    · obtain rfl := mem_singleton.mp member
      omega
    change 0 ≤ lock.last + 1
    omega
  | join held readers reader same =>
    have bounded := sound.bounded
    obtain ⟨first, rest, shape⟩ := exists_cons_of_ne_nil held
    have member : first ∈ lock.grants := by simp [shape]
    have positive := sound.positive first member
    rw [sound.current first member] at positive
    refine ⟨fun grant inside exclusive => ?_, fun grant inside => ?_, fun grant inside => ?_, bounded⟩
    · rcases mem_append.mp inside with old | new
      · rw [readers grant old] at exclusive
        cases exclusive
      rw [mem_singleton.mp new, reader] at exclusive
      cases exclusive
    · rcases mem_append.mp inside with old | new
      · exact sound.current grant old
      exact mem_singleton.mp new ▸ same
    · rcases mem_append.mp inside with old | new
      · exact sound.positive grant old
      rw [mem_singleton.mp new, same]
      exact positive
  | lapse kept =>
    refine ⟨fun grant member exclusive => ?_, ?_, ?_, sound.bounded⟩
    · have short := kept.length_le
      simp only [length_map] at short
      have inside := kept.subset (mem_map_of_mem member)
      obtain ⟨old, was, equal⟩ := mem_map.mp inside
      exact short.trans (sound.alone old was ((Prod.ext_iff.mp equal).1.trans exclusive))
    · exact forall_of_lapse (P := fun grant => grant.2 = lock.last) kept sound.current
    · exact forall_of_lapse (P := fun grant => 0 < grant.2) kept sound.positive

theorem Steps.sound (steps : Steps reading lock lock') (sound : Sound reading lock) : Sound reading lock' := by
  induction steps with
  | refl => exact sound
  | tail _ step ih => exact step.sound ih

theorem Step.last_le (step : Step reading lock lock') : lock.last ≤ lock'.last := by
  cases step with
  | epoch free next => exact (lt_add_one lock.last).le
  | join held readers reader same => exact le_refl _
  | lapse kept => exact le_refl _

theorem Steps.last_le (steps : Steps reading lock lock') : lock.last ≤ lock'.last := by
  induction steps with
  | refl => exact le_refl _
  | tail _ step ih => exact ih.trans step.last_le

end LongHorizonOS.FencedLock
