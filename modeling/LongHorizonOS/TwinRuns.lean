import LongHorizonOS.AtomicPrograms

/-! Two runs of one task, from two states. What is said of the first state and
the second together is carried along, so that the task is shown to return the
same from both without a word on what it returns. -/
namespace LongHorizonOS.TwinRuns
open AtomicPrograms FailFast

section
variable {σ ℓ ε α β : Type}

/-- The ends of two runs: the same result, or the same error. -/
def SameEnd (post : α → σ → σ → Prop) : Except ε α × σ → Except ε α × σ → Prop
  | (.ok a, s), (.ok b, t) => a = b ∧ post a s t
  | (.error failure, _), (.error other, _) => failure = other
  | _, _ => False

/-- The task returns or raises the same from both states, and relates the states
in which it returns. -/
def Twin (post : α → σ → σ → Prop) (task : Task σ ℓ ε α) (s t : σ) : Prop :=
  SameEnd post (task.alone s) (task.alone t)

namespace Twin
theorem result (twin : Twin post task s t) : (task.alone s).1 = (task.alone t).1 := by
  unfold Twin at twin
  generalize task.alone s = first, task.alone t = second at twin ⊢
  match first, second, twin with
  | (.ok _, _), (.ok _, _), twin => exact congrArg Except.ok twin.1
  | (.error _, _), (.error _, _), same => exact congrArg Except.error same

theorem pure (holds : post a s t) : Twin post (Pure.pure a : Task σ ℓ ε α) s t := ⟨rfl, holds⟩

theorem throw (failure : ε) : Twin post (MonadExcept.throw failure : Task σ ℓ ε α) s t := rfl

theorem step (same : SameEnd post (access s) (access t)) :
    Twin post (ExceptT.mk (Program.atomic label access) : Task σ ℓ ε α) s t := same

theorem bind (head : Twin post first s t) (tail : ∀ a s t, post a s t → Twin post' (rest a) s t) :
    Twin post' (first >>= rest) s t := by
  unfold Twin at head ⊢
  rw [Task.alone_bind, Task.alone_bind, Session.bind, Session.bind]
  generalize first.alone s = one, first.alone t = other at head ⊢
  rcases one with ⟨failure | a, s⟩ <;> rcases other with ⟨failure' | b, t⟩
  · exact head
  · exact head.elim
  · exact head.elim
  obtain ⟨rfl, related⟩ := head
  exact tail a s t related

theorem mono (twin : Twin post task s t) (weaken : ∀ a s t, post a s t → post' a s t) : Twin post' task s t := by
  unfold Twin at twin ⊢
  generalize task.alone s = first, task.alone t = second at twin ⊢
  rcases first with ⟨failure | a, s⟩ <;> rcases second with ⟨failure' | b, t⟩
  · exact twin
  · exact twin.elim
  · exact twin.elim
  exact ⟨twin.1, weaken a s t twin.2⟩

end Twin
end
end LongHorizonOS.TwinRuns
