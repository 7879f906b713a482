import LongHorizonOS.KeyedRows

/-! A table that keeps current values and a log that keeps their revisions.
A new set of values is written as a delta: only the values that differ from
the parent are upserted into the table and appended to the log under the new
version. Reading either one back gives the new values, and the versions from
some floor on survive when the log is cut there and restated. -/
namespace LongHorizonOS.RevisionLog
open KeyedRows List

section
variable {α κ : Type} [DecidableEq κ] (key : α → κ)

/-- Write rows one after the other. -/
def upsertAll (new rows : List α) : List α := new.foldl (fun rows row => upsert key row rows) rows

/-- The values that the parent does not have in this form. -/
def changed [DecidableEq α] (parent values : List α) : List α :=
  values.filter fun value => decide (lookup key parent (key value) ≠ some value)

variable {key} {parent values rows new : List α}

theorem upsertAll_distinct (distinct : (rows.map key).Nodup) :
    ((upsertAll key new rows).map key).Nodup := nodup_foldl_upsert new distinct

theorem filter_upsertAll (outside : ∀ row ∈ new, ∀ other, key other = key row → part other = false) :
    (upsertAll key new rows).filter part = rows.filter part := by
  induction new generalizing rows with
  | nil => rfl
  | cons first rest ih =>
    change (upsertAll key rest (upsert key first rows)).filter part = _
    rw [ih fun row member => outside row (mem_cons_of_mem _ member), filter_upsert (outside first mem_cons_self)]

theorem mem_upsertAll_or (member : value ∈ upsertAll key new rows) : value ∈ new ∨ value ∈ rows := by
  induction new generalizing rows with
  | nil => exact .inr member
  | cons first rest ih =>
    rcases ih member with later | stored
    · exact .inl (mem_cons_of_mem _ later)
    rcases mem_upsert stored with rfl | old
    · exact .inl mem_cons_self
    exact .inr old

theorem mem_upsertAll (distinct : (rows.map key).Nodup) (distinctNew : (new.map key).Nodup) :
    value ∈ upsertAll key new rows ↔ value ∈ new ∨ value ∈ rows ∧ key value ∉ new.map key := by
  induction new generalizing rows with
  | nil => simp [upsertAll]
  | cons first rest ih =>
    rw [map_cons, nodup_cons] at distinctNew
    change value ∈ upsertAll key rest (upsert key first rows) ↔ _
    rw [ih (nodup_upsert distinct) distinctNew.2, mem_upsert_iff distinct]
    simp only [map_cons, mem_cons, not_or]
    constructor
    · rintro (later | ⟨rfl | ⟨old, other⟩, untouched⟩)
      · exact .inl (.inr later)
      · exact .inl (.inl rfl)
      exact .inr ⟨old, other, untouched⟩
    rintro ((rfl | later) | ⟨old, other, untouched⟩)
    · exact .inr ⟨.inl rfl, distinctNew.1⟩
    · exact .inl later
    exact .inr ⟨.inr ⟨old, other⟩, untouched⟩

variable [DecidableEq α]

theorem mem_changed : value ∈ changed key parent values ↔
    value ∈ values ∧ lookup key parent (key value) ≠ some value := by
  simp [changed]

theorem changed_distinct (distinct : (values.map key).Nodup) : ((changed key parent values).map key).Nodup :=
  distinct.sublist (filter_sublist.map key)

/-- The new values are the changed ones and the old ones under the other keys,
provided that no key disappears. -/
theorem mem_changed_or_kept (distinctParent : (parent.map key).Nodup)
    (distinct : (values.map key).Nodup) (kept : ∀ old ∈ parent, key old ∈ values.map key) :
    value ∈ values ↔ value ∈ changed key parent values ∨
      value ∈ parent ∧ key value ∉ (changed key parent values).map key := by
  constructor
  · intro member
    by_cases same : lookup key parent (key value) = some value
    · refine .inr ⟨lookup_mem same, fun taken => ?_⟩
      obtain ⟨other, change, sameKey⟩ := mem_map.mp taken
      obtain ⟨otherMember, differs⟩ := mem_changed.mp change
      obtain rfl := inj_on_of_nodup_map distinct otherMember member sameKey
      exact differs same
    · exact .inl (mem_changed.mpr ⟨member, same⟩)
  rintro (change | ⟨old, untouched⟩)
  · exact (mem_changed.mp change).1
  obtain ⟨other, member, sameKey⟩ := mem_map.mp (kept value old)
  have same : lookup key parent (key other) = some other := by
    by_contra differs
    exact untouched (sameKey ▸ mem_map_of_mem (mem_changed.mpr ⟨member, differs⟩))
  rw [sameKey, lookup_of_mem distinctParent old, Option.some.injEq] at same
  exact same ▸ member

end

section
variable {ρ κ : Type} [DecidableEq κ] (key : ρ → κ) (version : ρ → Int)

/-- Each entity's latest revision at or before a version. -/
def latest (rows : List ρ) (limit : Int) : List ρ :=
  rows.filter fun row => decide (version row ≤ limit ∧ ∀ other ∈ rows,
    key other = key row → version other ≤ limit → version other ≤ version row)

variable {key version} {rows old new : List ρ} {limit next : Int}

theorem mem_latest : row ∈ latest key version rows limit ↔ row ∈ rows ∧ version row ≤ limit ∧
    ∀ other ∈ rows, key other = key row → version other ≤ limit → version other ≤ version row := by
  simp [latest]

/-- No entity has two latest revisions. -/
theorem latest_distinct (distinct : (rows.map fun row => (version row, key row)).Nodup) :
    ((latest key version rows limit).map key).Nodup := by
  have sub : ((latest key version rows limit).map fun row => (version row, key row)).Nodup :=
    distinct.sublist (filter_sublist.map _)
  apply (nodup_map_iff_inj_on (List.Nodup.of_map _ sub)).mpr
  intro first firstLatest second secondLatest sameKey
  obtain ⟨firstMember, firstAt, firstTop⟩ := mem_latest.mp firstLatest
  obtain ⟨secondMember, secondAt, secondTop⟩ := mem_latest.mp secondLatest
  have sameVersion : version first = version second := Int.le_antisymm
    (secondTop first firstMember sameKey firstAt) (firstTop second secondMember sameKey.symm secondAt)
  exact inj_on_of_nodup_map distinct firstMember secondMember (Prod.ext sameVersion sameKey)

/-- Appending revisions of a later version replaces exactly their entities. -/
theorem mem_latest_append (later : limit < next) (before : ∀ row ∈ old, version row ≤ limit)
    (at_next : ∀ row ∈ new, version row = next) : row ∈ latest key version (old ++ new) next ↔
      row ∈ new ∨ row ∈ latest key version old limit ∧ key row ∉ new.map key := by
  simp only [mem_latest, mem_append]
  constructor
  · rintro ⟨stored | fresh, _, top⟩
    · refine .inr ⟨⟨stored, before row stored, fun other member same _ => ?_⟩, fun revised => ?_⟩
      · exact top other (.inl member) same (Int.le_trans (before other member) (Int.le_of_lt later))
      obtain ⟨other, member, same⟩ := mem_map.mp revised
      have above := top other (.inr member) same (Int.le_of_eq (at_next other member))
      have below := before row stored
      rw [at_next other member] at above
      omega
    · exact .inl fresh
  · rintro (fresh | ⟨⟨stored, _, top⟩, untouched⟩)
    · refine ⟨.inr fresh, Int.le_of_eq (at_next row fresh), fun other _ _ bound => ?_⟩
      rw [at_next row fresh]
      exact bound
    refine ⟨.inl stored, Int.le_trans (before row stored) (Int.le_of_lt later), ?_⟩
    rintro other (member | member) same _
    · exact top other member same (before other member)
    exact absurd (same ▸ mem_map_of_mem member) untouched

/-- Revisions of a later version do not show in an earlier one. -/
theorem latest_append_before (earlier : limit < next) (at_next : ∀ row ∈ new, version row = next) :
    latest key version (old ++ new) limit = latest key version old limit := by
  have hidden : ∀ row ∈ new, ¬ version row ≤ limit := by
    intro row member
    rw [at_next row member]
    omega
  unfold latest
  rw [filter_append]
  refine (congrArg (_ ++ ·) (filter_eq_nil_iff.mpr fun row member => ?_)).trans
    ((append_nil _).trans (filter_congr fun row _ => ?_))
  · simp [hidden row member]
  rw [decide_eq_decide]
  refine and_congr_right fun _ => ⟨fun top other member => top other (mem_append_left _ member),
    fun top other member same bound => ?_⟩
  rcases mem_append.mp member with stored | fresh
  · exact top other stored same bound
  exact absurd bound (hidden other fresh)

end

section
variable {α ρ κ : Type} [DecidableEq κ] {key : ρ → κ} (value : ρ → α) (restate : ρ → ρ)
  {floor limit : Int}

/-- A log that starts at the floor: the later revisions, and a checkpoint that
restates the latest revision of every entity there. -/
def rebased (version : ρ → Int) (rows checkpoint : List ρ) (floor : Int) : List ρ :=
  rows.filter (fun row => decide (floor < version row)) ++ checkpoint

/-- Every version from the floor on reads the same in the rebased log. -/
theorem mem_latest_rebased (above : floor ≤ limit)
    (restates : ∀ row, row ∈ checkpoint ↔ ∃ old ∈ latest key version rows floor, row = restate old)
    (restated : ∀ old ∈ rows, value (restate old) = value old ∧ version (restate old) = floor ∧
      key (restate old) = key old) (a : α) :
    (∃ row ∈ latest key version (rebased version rows checkpoint floor) limit, value row = a) ↔
      ∃ row ∈ latest key version rows limit, value row = a := by
  have at_floor : ∀ row ∈ checkpoint, version row = floor := by
    intro row member
    obtain ⟨old, last, rfl⟩ := (restates row).mp member
    exact (restated old (mem_latest.mp last).1).2.1
  have mem_rebased : ∀ row, row ∈ rebased version rows checkpoint floor ↔
      row ∈ rows ∧ floor < version row ∨ row ∈ checkpoint := by
    intro row
    simp [rebased]
  constructor
  · rintro ⟨row, last, rfl⟩
    obtain ⟨listed, bound, top⟩ := mem_latest.mp last
    rcases (mem_rebased row).mp listed with ⟨stored, later⟩ | fresh
    · refine ⟨row, mem_latest.mpr ⟨stored, bound, fun other member same reached => ?_⟩, rfl⟩
      rcases Int.lt_or_le floor (version other) with late | early
      · exact top other ((mem_rebased other).mpr (.inl ⟨member, late⟩)) same reached
      omega
    obtain ⟨old, oldLast, rfl⟩ := (restates row).mp fresh
    obtain ⟨stored, oldBound, oldTop⟩ := mem_latest.mp oldLast
    obtain ⟨sameValue, isFloor, sameKey⟩ := restated old stored
    refine ⟨old, mem_latest.mpr ⟨stored, by omega, fun other member same reached => ?_⟩, sameValue.symm⟩
    rcases Int.lt_or_le floor (version other) with late | early
    · have shown := top other ((mem_rebased other).mpr (.inl ⟨member, late⟩)) (same.trans sameKey.symm) reached
      omega
    · exact oldTop other member same early
  rintro ⟨row, last, rfl⟩
  obtain ⟨stored, bound, top⟩ := mem_latest.mp last
  rcases Int.lt_or_le floor (version row) with late | early
  · refine ⟨row, mem_latest.mpr ⟨(mem_rebased row).mpr (.inl ⟨stored, late⟩), bound,
      fun other member same reached => ?_⟩, rfl⟩
    rcases (mem_rebased other).mp member with ⟨kept, _⟩ | fresh
    · exact top other kept same reached
    rw [at_floor other fresh]
    exact Int.le_of_lt late
  have restatedLast : row ∈ latest key version rows floor :=
    mem_latest.mpr ⟨stored, early, fun other member same reached =>
      top other member same (Int.le_trans reached above)⟩
  obtain ⟨sameValue, isFloor, sameKey⟩ := restated row stored
  refine ⟨restate row, mem_latest.mpr ⟨(mem_rebased _).mpr (.inr ((restates _).mpr
    ⟨row, restatedLast, rfl⟩)), by omega, fun other member same reached => ?_⟩, sameValue⟩
  rcases (mem_rebased other).mp member with ⟨kept, late⟩ | fresh
  · have shown := top other kept (same.trans sameKey) reached
    omega
  · rw [at_floor other fresh, isFloor]

end

/-! ## Logs of several owners in one table -/

section
variable {ρ κ : Type} [DecidableEq κ] {owner : ρ → κ} {version : ρ → Int} {rows new : List ρ} {here other : κ}
  (theirs : ∀ row ∈ new, owner row = here)
include theirs

theorem filter_append_here : (rows ++ new).filter (fun row => decide (owner row = here)) =
    rows.filter (fun row => decide (owner row = here)) ++ new := by
  rw [filter_append, filter_eq_self.mpr fun row member => decide_eq_true (theirs row member)]

theorem filter_append_other (elsewhere : other ≠ here) : (rows ++ new).filter (fun row => decide (owner row = other)) =
    rows.filter fun row => decide (owner row = other) := by
  rw [filter_append, append_right_eq_self, filter_eq_nil_iff]
  intro row member
  simp [theirs row member, elsewhere.symm]

/-- Cutting the log of one owner and restating it rebases that log. -/
theorem filter_cut_here : (rows.filter (fun row => decide ¬(owner row = here ∧ version row ≤ floor)) ++ new).filter
    (fun row => decide (owner row = here)) =
    rebased version (rows.filter fun row => decide (owner row = here)) new floor := by
  rw [filter_append_here theirs, rebased, filter_filter, filter_filter]
  refine congrArg (· ++ new) (filter_congr fun row _ => ?_)
  by_cases same : owner row = here <;> simp [same]

theorem filter_cut_other (elsewhere : other ≠ here) :
    (rows.filter (fun row => decide ¬(owner row = here ∧ version row ≤ floor)) ++ new).filter
    (fun row => decide (owner row = other)) = rows.filter fun row => decide (owner row = other) := by
  rw [filter_append_other theirs elsewhere, filter_filter]
  refine filter_congr fun row _ => ?_
  by_cases same : owner row = other <;> simp [same, elsewhere]

end

section
variable {α ρ κ : Type} [DecidableEq α] [DecidableEq κ] (idOf : α → κ) (value : ρ → α)
  {revise : α → ρ} {old new : List ρ} {parent values : List α} {limit next : Int}

/-- Logging the changes of a parent that the log has gives a log that has the
new values. -/
theorem mem_latest_revised (later : limit < next) (before : ∀ row ∈ old, version row ≤ limit)
    (keyed : ∀ row ∈ old, key row = idOf (value row))
    (hasParent : ∀ a, a ∈ parent ↔ ∃ row ∈ latest key version old limit, value row = a)
    (distinctParent : (parent.map idOf).Nodup) (distinct : (values.map idOf).Nodup)
    (kept : ∀ a ∈ parent, idOf a ∈ values.map idOf)
    (logged : ∀ row, row ∈ new ↔ ∃ a ∈ changed idOf parent values, row = revise a)
    (revised : ∀ a, value (revise a) = a ∧ version (revise a) = next ∧ key (revise a) = idOf a) (a : α) :
    (∃ row ∈ latest key version (old ++ new) next, value row = a) ↔ a ∈ values := by
  have at_next : ∀ row ∈ new, version row = next := by
    intro row member
    obtain ⟨b, _, rfl⟩ := (logged row).mp member
    exact (revised b).2.1
  have ids : ∀ k, k ∈ new.map key ↔ k ∈ (changed idOf parent values).map idOf := by
    intro k
    simp only [mem_map, logged]
    constructor
    · rintro ⟨_, ⟨b, change, rfl⟩, same⟩
      exact ⟨b, change, (revised b).2.2 ▸ same⟩
    rintro ⟨b, change, same⟩
    exact ⟨_, ⟨b, change, rfl⟩, (revised b).2.2 ▸ same⟩
  rw [mem_changed_or_kept distinctParent distinct kept]
  simp only [mem_latest_append later before at_next, ids]
  constructor
  · rintro ⟨row, fresh | ⟨last, untouched⟩, rfl⟩
    · obtain ⟨b, change, rfl⟩ := (logged row).mp fresh
      exact .inl ((revised b).1.symm ▸ change)
    · exact .inr ⟨(hasParent _).mpr ⟨row, last, rfl⟩, keyed row (mem_latest.mp last).1 ▸ untouched⟩
  rintro (change | ⟨member, untouched⟩)
  · exact ⟨revise a, .inl ((logged _).mpr ⟨a, change, rfl⟩), (revised a).1⟩
  obtain ⟨row, last, rfl⟩ := (hasParent a).mp member
  exact ⟨row, .inr ⟨last, (keyed row (mem_latest.mp last).1).symm ▸ untouched⟩, rfl⟩

end
end LongHorizonOS.RevisionLog
