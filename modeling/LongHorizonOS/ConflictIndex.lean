import LongHorizonOS.FailFast
import LongHorizonOS.KeyedRows
import Mathlib.Data.Finset.Sort
import Mathlib.Data.Prod.Lex
import Mathlib.Data.String.Basic

/-! The conflict graph of declared access sets. Candidate pairs come from an
inverted index over the resources and from a rule for unknown access sets; they
are exactly the pairs that conflict when every two sets are compared. -/
namespace LongHorizonOS.ConflictIndex
open KeyedRows FailFast
open List hiding getElem?_eq_some_iff

/-! ## Declarations -/

inductive ConflictReason where
  | readWrite
  | writeWrite
  | unknownAccess
  deriving DecidableEq

inductive ValueError where
  | duplicateDeclaration (taskId : String)
  | emptyTaskId
  | unorderedEndpoints
  | noReason
  | indexOutOfRange

/-- `_normalize_resources`, over `str.strip`. The tuples that it leaves are sorted
and without repetition, so they are finite sets. -/
def normalizeResources (strip : String → String) (values : List String) : Finset String :=
  ((values.map strip).filter (· ≠ "")).toFinset

/-- The validators leave stripped names that are not empty. -/
structure TaskAccessSet (strip : String → String) where
  taskId : String
  readSet : Finset String := ∅
  writeSet : Finset String := ∅
  known : Bool := true
  named : taskId ≠ ""
  reads : ∀ r ∈ readSet, strip r = r ∧ r ≠ ""
  writes : ∀ r ∈ writeSet, strip r = r ∧ r ≠ ""

structure ConflictPair where
  leftTaskId : String
  rightTaskId : String
  resources : Finset String
  reasons : Finset ConflictReason

/-- The validators of `ConflictPair`. -/
def ConflictPair.validate (strip : String → String) (pair : ConflictPair) : Except ValueError ConflictPair :=
  if pair.leftTaskId = "" ∨ pair.rightTaskId = "" then .error .emptyTaskId
  else if pair.rightTaskId ≤ pair.leftTaskId then .error .unorderedEndpoints
  else if pair.reasons = ∅ then .error .noReason
  else .ok { pair with resources := normalizeResources strip pair.resources.sort }

/-! ## Candidates -/

/-- `_pair` -/
def pair (left right : ℕ) : ℕ ×ₗ ℕ :=
  if left < right then toLex (left, right) else toLex (right, left)

/-- The positions of the known access sets, filed under the resources they name. -/
def invert (names : TaskAccessSet strip → Finset String) (accessSets : List (TaskAccessSet strip)) :
    Adjacency String ℕ :=
  Adjacency.collect some (accessSets.zipIdx.flatMap fun (access, index) =>
    if access.known then (names access).sort.map (·, index) else [])

/-- `_conflict_candidates` -/
def conflictCandidates (accessSets : List (TaskAccessSet strip)) : Finset (ℕ ×ₗ ℕ) :=
  let unknown := accessSets.zipIdx.flatMap fun (access, index) =>
    if access.known then []
    else ((List.range accessSets.length).filter (· ≠ index)).map (pair index)
  let writers := invert TaskAccessSet.writeSet accessSets
  let readers := invert TaskAccessSet.readSet accessSets
  let meeting := writers.flatMap fun (resource, writing) =>
    writing.zipIdx.flatMap fun (left, position) =>
      (writing.drop (position + 1)).map (pair left) ++
        ((readers.get resource).filter (· ≠ left)).map (pair left)
  (unknown ++ meeting).toFinset

/-- The reasons and the shared resources of two access sets. -/
def sharedAccess (left right : TaskAccessSet strip) : Finset ConflictReason × Finset String :=
  if !left.known || !right.known then ({.unknownAccess}, ∅)
  else
    let ww := left.writeSet ∩ right.writeSet
    let rw := left.writeSet ∩ right.readSet ∪ right.writeSet ∩ left.readSet
    ((if ww = ∅ then ∅ else {.writeWrite}) ∪ (if rw = ∅ then ∅ else {.readWrite}), ww ∪ rw)

def conflictAt (accessSets : List (TaskAccessSet strip)) (candidate : ℕ ×ₗ ℕ) :
    Except ValueError (Option ConflictPair) :=
  match accessSets[(ofLex candidate).1]?, accessSets[(ofLex candidate).2]? with
  | some left, some right =>
    let (reasons, resources) := sharedAccess left right
    if reasons = ∅ then .ok none
    else some <$> ConflictPair.validate strip ⟨left.taskId, right.taskId, resources, reasons⟩
  | _, _ => .error .indexOutOfRange

/-- `_derive_conflicts` -/
def deriveConflicts (accessSets : List (TaskAccessSet strip)) : Except ValueError (List ConflictPair) := do
  return (← (conflictCandidates accessSets).sort.mapM (conflictAt accessSets)).reduceOption

structure ConflictGraph (strip : String → String) where
  accessSets : List (TaskAccessSet strip)
  conflicts : List ConflictPair
  unknownTaskIds : List String
  graphHash : String

/-- One turn of the loop that files the declarations by Task. -/
def declare (byId : List (TaskAccessSet strip)) (item : TaskAccessSet strip) :
    Except ValueError (List (TaskAccessSet strip)) :=
  if item.taskId ∈ byId.map TaskAccessSet.taskId then .error (.duplicateDeclaration item.taskId)
  else .ok (byId ++ [item])

/-- `from_access_sets`, for any hash of the payload. -/
def fromAccessSets (hash : List (TaskAccessSet strip) → List ConflictPair → List String → String)
    (accessSets : List (TaskAccessSet strip)) : Except ValueError (ConflictGraph strip) := do
  let byId ← accessSets.foldlM declare []
  let ordered := byId.insertionSort fun a b => a.taskId ≤ b.taskId
  let conflicts ← deriveConflicts ordered
  let unknown := ((ordered.filter (!·.known)).map TaskAccessSet.taskId).insertionSort (· ≤ ·)
  return ⟨ordered, conflicts, unknown, hash ordered conflicts unknown⟩

/-! ## The inverted index -/

variable {sets : List (TaskAccessSet strip)} {a b : TaskAccessSet strip}

section
theorem mem_invert : index ∈ (invert names sets).get resource ↔
    ∃ access, sets[index]? = some access ∧ access.known = true ∧ resource ∈ names access := by
  simp only [invert, Adjacency.get_collect, mem_filterMap, mem_flatMap, Prod.exists, mem_zipIdx_iff_getElem?]
  constructor
  · rintro ⟨filed, position, ⟨access, place, stored, entry⟩, hit⟩
    split at entry
    · rename_i known
      obtain ⟨named, member, same⟩ := mem_map.mp entry
      cases same
      simp only [Option.bind_some, Option.ite_none_right_eq_some, Option.some.injEq] at hit
      obtain ⟨rfl, rfl⟩ := hit
      exact ⟨access, stored, known, (Finset.mem_sort _).mp member⟩
    · cases entry
  · rintro ⟨access, stored, known, member⟩
    refine ⟨resource, index, ⟨access, index, stored, ?_⟩, by simp⟩
    rw [if_pos known]
    exact mem_map_of_mem ((Finset.mem_sort _).mpr member)

/-- A position stands once under a resource. -/
theorem invert_nodup : ((invert names sets).get resource).Nodup := by
  rw [invert, Adjacency.get_collect]
  refine List.Nodup.filterMap ?_ (nodup_flatMap.mpr ⟨?_, ?_⟩)
  · simp +contextual
  · rintro ⟨access, place⟩ -
    dsimp only
    split
    · exact (Finset.sort_nodup _ _).map fun _ _ same => congrArg Prod.fst same
    exact nodup_nil
  have apart : (sets.zipIdx.map Prod.snd).Nodup := by
    rw [zipIdx_map_snd]
    exact nodup_range'
  refine (pairwise_map.mp apart).imp fun {first second} differ entry left right => ?_
  dsimp only at left right
  split at left <;> split at right <;> simp_all
  grind

theorem invert_distinct : ((invert names sets).map Prod.fst).Nodup := by
  rw [invert, Adjacency.collect]
  exact List.foldlRecOn (motive := fun index : Adjacency String ℕ => (index.map Prod.fst).Nodup) _ _
    nodup_nil fun _ distinct _ _ => nodup_upsert distinct

theorem filed_eq (member : (resource, writing) ∈ invert names sets) : writing = (invert names sets).get resource := by
  rw [Adjacency.get, lookup_of_mem invert_distinct member]
  rfl

theorem filed_mem (member : index ∈ (invert names sets).get resource) :
    (resource, (invert names sets).get resource) ∈ invert names sets := by
  cases found : lookup Prod.fst (invert names sets) resource with
  | none => simp [Adjacency.get, found] at member
  | some entry =>
    have here := lookup_mem found
    rw [Adjacency.get, found]
    rwa [← lookup_key found]

end

/-! ## Candidates and conflicts -/

theorem later_mem {xs : List ℕ} {p q x : ℕ} (before : p < q) (place : xs[q]? = some x) : x ∈ xs.drop (p + 1) := by
  obtain ⟨gap, rfl⟩ := Nat.exists_eq_add_of_lt before
  refine mem_of_getElem? (i := gap) ?_
  rwa [getElem?_drop, Nat.add_right_comm]

theorem later_ne {xs : List ℕ} {p x y : ℕ} (distinct : xs.Nodup) (place : xs[p]? = some x)
    (later : y ∈ xs.drop (p + 1)) : x ≠ y := by
  obtain ⟨below, rfl⟩ := getElem?_eq_some_iff.mp place
  have tail := distinct.sublist (drop_sublist p xs)
  rw [drop_eq_getElem_cons below] at tail
  exact fun same => (nodup_cons.mp tail).1 (same ▸ later)

theorem pair_comm (differ : i ≠ j) : pair i j = pair j i := by
  simp only [pair]
  split <;> split <;> first | rfl | omega

/-- The first of two access sets is unknown, or writes what the second names. -/
def Touches (a b : TaskAccessSet strip) : Prop :=
  a.known = false ∨ a.known = true ∧ b.known = true ∧ ∃ r ∈ a.writeSet, r ∈ b.writeSet ∨ r ∈ b.readSet

theorem mem_conflictCandidates {candidate : ℕ ×ₗ ℕ} :
    candidate ∈ conflictCandidates sets ↔ ∃ i j, i ≠ j ∧ (∃ a b, sets[i]? = some a ∧
      sets[j]? = some b ∧ Touches a b) ∧ candidate = pair i j := by
  simp only [conflictCandidates, mem_toFinset, mem_append, mem_flatMap, Prod.exists, mem_zipIdx_iff_getElem?]
  constructor
  · rintro (⟨access, i, stored, entry⟩ | ⟨resource, writing, filed, i, position, place, entry⟩)
    · split at entry
      · cases entry
      rename_i unknown
      obtain ⟨j, inside, rfl⟩ := mem_map.mp entry
      simp only [mem_filter, mem_range, decide_eq_true_eq] at inside
      exact ⟨i, j, inside.2.symm, ⟨access, _, stored, getElem?_eq_getElem inside.1,
        .inl (by simpa using unknown)⟩, rfl⟩
    cases filed_eq filed
    obtain ⟨a, atFirst, known, writes⟩ := mem_invert.mp (mem_of_getElem? place)
    rcases entry with entry | entry
    · obtain ⟨j, later, rfl⟩ := mem_map.mp entry
      obtain ⟨b, atSecond, known', writes'⟩ := mem_invert.mp (mem_of_mem_drop later)
      exact ⟨i, j, later_ne invert_nodup place later,
        ⟨a, b, atFirst, atSecond, .inr ⟨known, known', _, writes, .inl writes'⟩⟩, rfl⟩
    obtain ⟨j, inside, rfl⟩ := mem_map.mp entry
    simp only [mem_filter, decide_eq_true_eq] at inside
    obtain ⟨b, atSecond, known', reads⟩ := mem_invert.mp inside.1
    exact ⟨i, j, inside.2.symm, ⟨a, b, atFirst, atSecond, .inr ⟨known, known', _, writes, .inr reads⟩⟩, rfl⟩
  · rintro ⟨i, j, differ, ⟨a, b, atFirst, atSecond, meet⟩, rfl⟩
    rcases meet with unknown | ⟨known, known', resource, writes, meet⟩
    · refine .inl ⟨a, i, atFirst, ?_⟩
      rw [if_neg (by simp [unknown])]
      exact mem_map_of_mem (by simp [(getElem?_eq_some_iff.mp atSecond).1, differ.symm])
    have first := mem_invert.mpr ⟨a, atFirst, known, writes⟩
    obtain ⟨p, atP⟩ := mem_iff_getElem?.mp first
    refine .inr ⟨resource, _, filed_mem first, ?_⟩
    rcases meet with writes' | reads
    · have second := mem_invert.mpr ⟨b, atSecond, known', writes'⟩
      obtain ⟨q, atQ⟩ := mem_iff_getElem?.mp second
      rcases lt_trichotomy p q with before | rfl | after
      · exact ⟨i, p, atP, .inl (mem_map_of_mem (later_mem before atQ))⟩
      · exact absurd (Option.some.inj (atP.symm.trans atQ)) differ
      rw [pair_comm differ]
      exact ⟨j, q, atQ, .inl (mem_map_of_mem (later_mem after atP))⟩
    · have second := mem_invert.mpr ⟨b, atSecond, known', reads⟩
      exact ⟨i, p, atP, .inr (mem_map_of_mem (by simp [second, differ.symm]))⟩

/-- One of the two access sets writes the resource and the other one names it. -/
def Shared (a b : TaskAccessSet strip) (r : String) : Prop :=
  r ∈ a.writeSet ∧ (r ∈ b.readSet ∨ r ∈ b.writeSet) ∨ r ∈ b.writeSet ∧ (r ∈ a.readSet ∨ r ∈ a.writeSet)

/-- The pairwise definition. -/
def Conflicts (a b : TaskAccessSet strip) : Prop :=
  a.known = false ∨ b.known = false ∨ ∃ r, Shared a b r

def Gives (a b : TaskAccessSet strip) : ConflictReason → Prop
  | .unknownAccess => a.known = false ∨ b.known = false
  | .writeWrite => a.known = true ∧ b.known = true ∧ ∃ r, r ∈ a.writeSet ∧ r ∈ b.writeSet
  | .readWrite => a.known = true ∧ b.known = true ∧
    ∃ r, r ∈ a.writeSet ∧ r ∈ b.readSet ∨ r ∈ b.writeSet ∧ r ∈ a.readSet

/-- The pair that the pairwise definition asks for. -/
structure Describes (a b : TaskAccessSet strip) (pair : ConflictPair) : Prop where
  left : pair.leftTaskId = a.taskId
  right : pair.rightTaskId = b.taskId
  resources : ∀ r, r ∈ pair.resources ↔ a.known = true ∧ b.known = true ∧ Shared a b r
  reasons : ∀ reason, reason ∈ pair.reasons ↔ Gives a b reason

def described (a b : TaskAccessSet strip) : ConflictPair :=
  ⟨a.taskId, b.taskId, (sharedAccess a b).2, (sharedAccess a b).1⟩

theorem mem_reason {set : Finset String} {reason other : ConflictReason} :
    reason ∈ (if set = ∅ then ∅ else {other} : Finset ConflictReason) ↔ reason = other ∧ ∃ r, r ∈ set := by
  rcases set.eq_empty_or_nonempty with rfl | ⟨r, member⟩
  · simp
  simpa [Finset.ne_empty_of_mem member] using fun _ => ⟨r, member⟩

theorem describes (a b : TaskAccessSet strip) : Describes a b (described a b) := by
  refine ⟨rfl, rfl, fun r => ?_, fun reason => ?_⟩
  · cases known : a.known <;> cases known' : b.known <;> simp [described, sharedAccess, known, known', Shared]
    grind
  cases known : a.known <;> cases known' : b.known <;> cases reason <;>
    simp [described, sharedAccess, known, known', Gives, mem_reason, -Finset.union_eq_empty]

theorem gives_iff : (∃ reason, Gives a b reason) ↔ Conflicts a b := by
  constructor
  · rintro ⟨_ | _ | _, given⟩
    · obtain ⟨_, _, r, first | second⟩ := given
      · exact .inr (.inr ⟨r, .inl ⟨first.1, .inl first.2⟩⟩)
      exact .inr (.inr ⟨r, .inr ⟨second.1, .inl second.2⟩⟩)
    · obtain ⟨_, _, r, first, second⟩ := given
      exact .inr (.inr ⟨r, .inl ⟨first, .inr second⟩⟩)
    · exact given.imp_right .inl
  intro conflict
  cases known : a.known with
  | false => exact ⟨.unknownAccess, .inl known⟩
  | true =>
    cases known' : b.known with
    | false => exact ⟨.unknownAccess, .inr known'⟩
    | true =>
      obtain ⟨r, shared⟩ := (conflict.resolve_left (by simp [known])).resolve_left (by simp [known'])
      rcases shared with ⟨first, second | second⟩ | ⟨second, first | first⟩
      · exact ⟨.readWrite, known, known', r, .inl ⟨first, second⟩⟩
      · exact ⟨.writeWrite, known, known', r, first, second⟩
      · exact ⟨.readWrite, known, known', r, .inr ⟨second, first⟩⟩
      exact ⟨.writeWrite, known, known', r, first, second⟩

theorem normalized (kept : ∀ r ∈ rs, strip r = r ∧ r ≠ "") : normalizeResources strip rs.sort = rs := by
  ext r
  simp only [normalizeResources, mem_toFinset, mem_filter, mem_map, Finset.mem_sort, decide_eq_true_eq]
  constructor
  · rintro ⟨⟨r', member, rfl⟩, _⟩
    rwa [(kept r' member).1]
  · exact fun member => ⟨⟨r, member, (kept r member).1⟩, (kept r member).2⟩

theorem described_valid (named : a.taskId < b.taskId) (conflict : Conflicts a b) :
    ConflictPair.validate strip (described a b) = .ok (described a b) := by
  obtain ⟨reason, given⟩ := gives_iff.mpr conflict
  have reasons := Finset.ne_empty_of_mem (((describes a b).reasons reason).mpr given)
  have normal : normalizeResources strip (described a b).resources.sort = (described a b).resources := by
    refine normalized fun r member => ?_
    rcases (((describes a b).resources r).mp member).2.2 with first | second
    · exact a.writes r first.1
    exact b.writes r second.1
  have full : ¬ ((described a b).leftTaskId = "" ∨ (described a b).rightTaskId = "") := not_or.mpr ⟨a.named, b.named⟩
  have ordered : ¬ (described a b).rightTaskId ≤ (described a b).leftTaskId := not_le.mpr named
  rw [ConflictPair.validate, if_neg full, if_neg ordered, if_neg reasons, normal]

theorem conflicts_iff : Conflicts a b ↔ Touches a b ∨ Touches b a := by
  rcases known : a.known <;> rcases known' : b.known <;> simp [Conflicts, Touches, known, known', Shared]
  grind

section

/-- The candidates are the pairs of places, in order, at which the access sets
conflict. -/
theorem mem_candidates : candidate ∈ conflictCandidates sets ↔
    (ofLex candidate).1 < (ofLex candidate).2 ∧ ∃ a b, sets[(ofLex candidate).1]? = some a ∧
      sets[(ofLex candidate).2]? = some b ∧ Conflicts a b := by
  rw [mem_conflictCandidates]
  constructor
  · rintro ⟨i, j, differ, ⟨a, b, atFirst, atSecond, touch⟩, rfl⟩
    rcases differ.lt_or_gt with before | after
    · rw [pair, if_pos before]
      exact ⟨before, a, b, atFirst, atSecond, conflicts_iff.mpr (.inl touch)⟩
    rw [pair, if_neg after.asymm]
    exact ⟨after, b, a, atSecond, atFirst, conflicts_iff.mpr (.inr touch)⟩
  · rintro ⟨before, a, b, atFirst, atSecond, conflict⟩
    have same : candidate = pair (ofLex candidate).1 (ofLex candidate).2 := by rw [pair, if_pos before]; rfl
    rcases conflicts_iff.mp conflict with touch | touch
    · exact ⟨_, _, before.ne, ⟨a, b, atFirst, atSecond, touch⟩, same⟩
    exact ⟨_, _, before.ne', ⟨b, a, atSecond, atFirst, touch⟩, same.trans (pair_comm before.ne)⟩

/-- The pair of two places. -/
def describedAt (sets : List (TaskAccessSet strip)) (candidate : ℕ ×ₗ ℕ) : Option ConflictPair := do
  return described (← sets[(ofLex candidate).1]?) (← sets[(ofLex candidate).2]?)

theorem describedAt_some : describedAt sets candidate = some p ↔ ∃ a b, sets[(ofLex candidate).1]? = some a ∧
    sets[(ofLex candidate).2]? = some b ∧ described a b = p := by
  simp [describedAt, Option.bind_eq_some_iff]

variable (sorted : sets.Pairwise fun a b => a.taskId < b.taskId)
include sorted

theorem before_iff {i j : ℕ} (atFirst : sets[i]? = some a)
    (atSecond : sets[j]? = some b) : i < j ↔ a.taskId < b.taskId := by
  obtain ⟨inside, rfl⟩ := getElem?_eq_some_iff.mp atFirst
  obtain ⟨inside', rfl⟩ := getElem?_eq_some_iff.mp atSecond
  have ordered := pairwise_iff_getElem.mp sorted
  rcases lt_trichotomy i j with before | rfl | after
  · simp [before, ordered i j inside inside' before]
  · simp
  simp [after.asymm, (ordered j i inside' inside after).asymm]

/-- The pairs of ascending candidates ascend. -/
theorem described_lt (below : first < second) (hit : describedAt sets first = some p)
    (hit' : describedAt sets second = some q) :
    toLex (p.leftTaskId, p.rightTaskId) < toLex (q.leftTaskId, q.rightTaskId) := by
  obtain ⟨a, b, atFirst, atSecond, rfl⟩ := describedAt_some.mp hit
  obtain ⟨a', b', atFirst', atSecond', rfl⟩ := describedAt_some.mp hit'
  rcases Prod.Lex.lt_iff.mp below with before | ⟨same, before⟩
  · exact Prod.Lex.lt_iff.mpr (.inl ((before_iff sorted atFirst atFirst').mp before))
  rw [same] at atFirst
  cases atFirst.symm.trans atFirst'
  exact Prod.Lex.lt_iff.mpr (.inr ⟨rfl, (before_iff sorted atSecond atSecond').mp before⟩)

theorem deriveConflicts_eq : deriveConflicts sets =
    .ok ((conflictCandidates sets).sort.filterMap (describedAt sets)) := by
  have turns : (conflictCandidates sets).sort.mapM (conflictAt sets) =
      .ok ((conflictCandidates sets).sort.map (describedAt sets)) := by
    rw [mapM_ok, forall₂_map_right_iff, forall₂_same]
    intro candidate member
    obtain ⟨before, a, b, atFirst, atSecond, conflict⟩ := mem_candidates.mp ((Finset.mem_sort _).mp member)
    obtain ⟨reason, given⟩ := gives_iff.mpr conflict
    have reasons : (sharedAccess a b).1 ≠ ∅ := Finset.ne_empty_of_mem (((describes a b).reasons reason).mpr given)
    have valid := described_valid ((before_iff sorted atFirst atSecond).mp before) conflict
    rw [described] at valid
    simp only [conflictAt, describedAt, atFirst, atSecond, reasons, valid, if_false]
    rfl
  rw [deriveConflicts, turns]
  exact congrArg Except.ok (filterMap_map ..)

end

/-! ## The graph -/

section

theorem declared_eq (distinct : ((seen ++ sets).map TaskAccessSet.taskId).Nodup) :
    sets.foldlM declare seen = .ok (seen ++ sets) := by
  induction sets generalizing seen with
  | nil => simp [pure, Except.pure]
  | cons item rest ih =>
    have fresh : item.taskId ∉ seen.map TaskAccessSet.taskId := by
      rw [map_append, map_cons] at distinct
      exact fun member => (nodup_append.mp distinct).2.2 _ member _ mem_cons_self rfl
    rw [append_cons] at distinct ⊢
    rw [foldlM_cons, declare, if_neg fresh]
    exact ih distinct

variable (distinct : (sets.map TaskAccessSet.taskId).Nodup)
include distinct

theorem ordered_sorted : (sets.insertionSort fun a b => a.taskId ≤ b.taskId).Pairwise
    fun a b => a.taskId < b.taskId := by
  have perm := perm_insertionSort (fun a b => a.taskId ≤ b.taskId) sets
  have apart := pairwise_map.mp ((perm.map TaskAccessSet.taskId).nodup_iff.mpr distinct)
  exact ((sortByKey_sorted TaskAccessSet.taskId sets).and apart).imp fun both => both.1.lt_of_ne both.2

theorem fromAccessSets_eq (hash) : fromAccessSets hash sets =
    let ordered := sets.insertionSort fun a b => a.taskId ≤ b.taskId
    let conflicts := (conflictCandidates ordered).sort.filterMap (describedAt ordered)
    let unknown := ((ordered.filter (!·.known)).map TaskAccessSet.taskId).insertionSort (· ≤ ·)
    .ok ⟨ordered, conflicts, unknown, hash ordered conflicts unknown⟩ := by
  rw [fromAccessSets, declared_eq distinct]
  simp only [nil_append, bind, Except.bind, deriveConflicts_eq (ordered_sorted distinct)]
  rfl

end

/-- The graph of declarations of distinct Tasks reports exactly the pairs that
conflict by the pairwise definition, each once and in ascending order, and does
not depend on the order of the declarations. -/
theorem conflicts_are_pairwise (strip : String → String)
    (hash : List (TaskAccessSet strip) → List ConflictPair → List String → String)
    (sets : List (TaskAccessSet strip)) (distinct : (sets.map TaskAccessSet.taskId).Nodup) :
    ∃ graph, fromAccessSets hash sets = .ok graph ∧ (∀ pair ∈ graph.conflicts, ∃ a ∈ sets, ∃ b ∈ sets,
        a.taskId < b.taskId ∧ Conflicts a b ∧ Describes a b pair) ∧
      (∀ a ∈ sets, ∀ b ∈ sets, a.taskId < b.taskId → Conflicts a b →
        ∃ pair ∈ graph.conflicts, Describes a b pair) ∧ graph.conflicts.Pairwise (fun p q =>
        toLex (p.leftTaskId, p.rightTaskId) < toLex (q.leftTaskId, q.rightTaskId)) ∧
      ∀ sets', sets'.Perm sets → fromAccessSets hash sets' = .ok graph := by
  have sorted := ordered_sorted distinct
  have held : ∀ {a}, a ∈ sets.insertionSort (fun a b => a.taskId ≤ b.taskId) ↔ a ∈ sets := mem_insertionSort _
  refine ⟨_, fromAccessSets_eq distinct hash, fun pair member => ?_, fun a first b second below conflict => ?_,
    ?_, fun sets' perm => ?_⟩
  · obtain ⟨candidate, inside, hit⟩ := mem_filterMap.mp member
    obtain ⟨before, a, b, atFirst, atSecond, conflict⟩ := mem_candidates.mp ((Finset.mem_sort _).mp inside)
    cases (describedAt_some.mpr ⟨a, b, atFirst, atSecond, rfl⟩).symm.trans hit
    exact ⟨a, held.mp (mem_of_getElem? atFirst), b, held.mp (mem_of_getElem? atSecond),
      (before_iff sorted atFirst atSecond).mp before, conflict, describes a b⟩
  · obtain ⟨i, atFirst⟩ := mem_iff_getElem?.mp (held.mpr first)
    obtain ⟨j, atSecond⟩ := mem_iff_getElem?.mp (held.mpr second)
    have candidate : toLex (i, j) ∈ conflictCandidates _ := mem_candidates.mpr
      ⟨(before_iff sorted atFirst atSecond).mpr below, a, b, atFirst, atSecond, conflict⟩
    exact ⟨_, mem_filterMap.mpr ⟨toLex (i, j), (Finset.mem_sort _).mpr candidate,
      describedAt_some.mpr ⟨a, b, atFirst, atSecond, rfl⟩⟩, describes a b⟩
  · refine (Finset.sortedLT_sort _).pairwise.filterMap _ fun first second below p hit q hit' => ?_
    exact described_lt sorted below hit hit'
  · rw [fromAccessSets_eq ((perm.map _).nodup_iff.mpr distinct), sortByKey_perm distinct perm]

def writer (taskId : String) (named : taskId ≠ "") : TaskAccessSet id :=
  { taskId, writeSet := {"r"}, named, reads := by simp, writes := by simp }

theorem two_writers_conflict :
    let first := writer "T" (by decide)
    let second := writer "U" (by decide)
    ∃ graph, fromAccessSets (fun _ _ _ => "") [second, first] = .ok graph ∧
      ∃ pair ∈ graph.conflicts, Describes first second pair := by
  intro first second
  obtain ⟨graph, built, _, complete, _⟩ :=
    conflicts_are_pairwise _ (fun _ _ _ => "") [second, first] (by decide)
  have conflict : Conflicts first second :=
    .inr (.inr ⟨"r", .inl ⟨Finset.mem_singleton_self _, .inr (Finset.mem_singleton_self _)⟩⟩)
  exact ⟨graph, built, complete first (by simp) second (by simp) (by decide) conflict⟩

end LongHorizonOS.ConflictIndex
