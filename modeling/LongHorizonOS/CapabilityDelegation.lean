import LongHorizonOS.CapabilityService

/-! Delegated capabilities. A child's capability counts as covered when the text
of its pattern is matched by a pattern of the parent, while what the child may do
is the set of resources that its pattern matches. A comparison of the two patterns
element by element would be sound. -/
namespace LongHorizonOS.CapabilityDelegation
open KernelModels CapabilityService List

/-! ## The check -/

def covers (parent child : Capability) : Bool :=
  fnmatch child.resourcePattern parent.resourcePattern &&
    decide (∀ operation ∈ child.operations, operation ∈ parent.operations)

def verifyChildSubset (store : KernelStore) (parentPid childPid : String) : Bool :=
  match getCapabilitySet store parentPid, getCapabilitySet store childPid with
  | none, none => true
  | none, some child => child.isEmpty
  | some _, none => true
  | some parent, some child => child.all fun own => parent.any fun held => covers held own

/-! ## The resources of a pattern -/

@[simp] theorem globMatches_nil : globMatches [] text = true ↔ text = [] := by
  simp [globMatches]

theorem any_tails {text : List α} {test : List α → Bool} : text.tails.any test = true ↔
    ∃ front back, text = front ++ back ∧ test back = true := by
  rw [any_eq_true]
  constructor
  · rintro ⟨back, suffix, found⟩
    obtain ⟨front, joined⟩ := (mem_tails _ _).mp suffix
    exact ⟨front, back, joined.symm, found⟩
  · rintro ⟨front, back, rfl, found⟩
    exact ⟨back, (mem_tails _ _).mpr (suffix_append _ _), found⟩

theorem globMatches_star : globMatches (.star :: globs) text = true ↔
    ∃ front back, text = front ++ back ∧ globMatches globs back = true := by
  have tails : globMatches (.star :: globs) text = text.tails.any fun tail => globMatches globs tail := by
    cases text <;> rfl
  rw [tails, any_tails]

/-- Everything but a star stands for one character. -/
theorem globMatches_one (single : glob ≠ .star) : globMatches (glob :: globs) text = true ↔
    ∃ c rest, text = c :: rest ∧ glob.accepts c = true ∧ globMatches globs rest = true := by
  cases text with
  | nil => cases glob <;> simp_all [globMatches]
  | cons c text => cases glob <;> simp_all [globMatches]

theorem globMatches_append {before after} : globMatches (before ++ after) text = true ↔
    ∃ front back, text = front ++ back ∧ globMatches before front = true ∧ globMatches after back = true := by
  induction before generalizing text with
  | nil => simp
  | cons glob before ih =>
    rw [cons_append]
    by_cases star : glob = .star
    · subst star
      simp only [globMatches_star, ih]
      constructor
      · rintro ⟨skipped, rest, rfl, front, back, rfl, left, right⟩
        exact ⟨skipped ++ front, back, by simp, ⟨skipped, front, rfl, left⟩, right⟩
      rintro ⟨_, back, rfl, ⟨skipped, front, rfl, left⟩, right⟩
      exact ⟨skipped, front ++ back, by simp, front, back, rfl, left, right⟩
    · simp only [globMatches_one star, ih]
      constructor
      · rintro ⟨c, rest, rfl, accepted, front, back, rfl, left, right⟩
        exact ⟨c :: front, back, rfl, ⟨c, front, rfl, accepted, left⟩, right⟩
      rintro ⟨_, back, rfl, ⟨c, front, rfl, accepted, left⟩, right⟩
      exact ⟨c, front ++ back, rfl, accepted, front, back, rfl, left, right⟩

/-! ## Covered patterns -/

/-- The element stands for no more characters than the parent's: a `?` takes anything but
a star, and a set is compared with a character or with itself. -/
def within : Glob → Glob → Bool
  | .star, _ => false
  | _, .any => true
  | .literal c, glob => glob.accepts c
  | own, glob => decide (own = glob)

/-- The comparison of two patterns element by element, where `fnmatch` takes the child's
characters for a text: a star of the parent's covers any elements, and everything else
one element that is within it. -/
def globCovers : List Glob → List Glob → Bool
  | [], child => child.isEmpty
  | .star :: parent, child => child.tails.any fun tail => globCovers parent tail
  | glob :: parent, own :: child => within own glob && globCovers parent child
  | _ :: _, [] => false

theorem globCovers_star : globCovers (.star :: parent) child = true ↔
    ∃ front back, child = front ++ back ∧ globCovers parent back = true := by
  have tails : globCovers (.star :: parent) child = child.tails.any fun tail => globCovers parent tail := by
    cases child <;> rfl
  rw [tails, any_tails]

theorem globCovers_one (single : glob ≠ .star) (covered : globCovers (glob :: parent) child = true) :
    ∃ own rest, child = own :: rest ∧ within own glob = true ∧ globCovers parent rest = true := by
  cases child with
  | nil => cases glob <;> simp_all [globCovers]
  | cons own rest =>
    refine ⟨own, rest, rfl, ?_⟩
    cases glob <;> simp_all [globCovers]

theorem accepts_of_within (narrow : within own glob = true) :
    own ≠ .star ∧ ∀ c, own.accepts c = true → glob.accepts c = true := by
  cases own <;> cases glob <;> simp_all [within, Glob.accepts]

/-- A pattern that covers another matches whatever that one matches. -/
theorem matches_of_covers (covered : globCovers parent child = true) (allowed : globMatches child text = true) :
    globMatches parent text = true := by
  induction parent generalizing child text with
  | nil =>
    rw [isEmpty_iff.mp covered] at allowed
    exact allowed
  | cons glob parent ih =>
    by_cases star : glob = .star
    · subst star
      obtain ⟨front, back, rfl, rest⟩ := globCovers_star.mp covered
      obtain ⟨skipped, left, rfl, -, remaining⟩ := globMatches_append.mp allowed
      exact globMatches_star.mpr ⟨skipped, left, rfl, ih rest remaining⟩
    obtain ⟨own, rest, rfl, narrow, later⟩ := globCovers_one star covered
    obtain ⟨single, narrower⟩ := accepts_of_within narrow
    obtain ⟨c, left, rfl, accepted, remaining⟩ := (globMatches_one single).mp allowed
    exact (globMatches_one star).mpr ⟨c, left, rfl, narrower c accepted, ih later remaining⟩

/-! ## Delegation -/

/-- The parsed form of the pattern of a capability. -/
def globs (capability : Capability) : List Glob :=
  parseGlob capability.resourcePattern.length capability.resourcePattern.toList

/-- A parent that may write the files with names of one character, and children
with a pattern each. -/
def delegated (own : String) : KernelStore :=
  { capabilitySets := [("parent", [{ resourcePattern := "artifact://ns-p/?", operations := ["write"] }]),
      ("child", [{ resourcePattern := own, operations := ["write"] }])] }

end LongHorizonOS.CapabilityDelegation
