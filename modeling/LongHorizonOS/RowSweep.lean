import LongHorizonOS.KeyedRows

/-! Passes that rewrite rows in place. A loop over the rows of a table calls
one visit per row; a visit sees the table as the earlier visits left it and
either skips its row or replaces it. Each result here is about the loop as it
runs, so a predicate that reads other rows is evaluated at the moment its own
row is visited. -/
namespace LongHorizonOS.RowSweep
open KeyedRows List

/-- A pass in progress: the table, what was logged, and whether a visit fired. -/
structure Pass (α ε : Type) where
  rows : List α
  log : List ε := []
  changed : Bool := false

/-- What one visit does to its row; `none` is a visit that skips. -/
abbrev Visit (α ε : Type) := List α → α → Option (α × List ε)

section
variable {α ε κ : Type} [DecidableEq κ] (key : α → κ) (visit : Visit α ε)

def visitKey (pass : Pass α ε) (k : κ) : Pass α ε :=
  match lookup key pass.rows k with
  | none => pass
  | some row =>
    match visit pass.rows row with
    | none => pass
    | some (replaced, entries) =>
      { rows := modify key k (fun _ => replaced) pass.rows
        log := pass.log ++ entries
        changed := true }

/-- Visit the listed keys in order. -/
def visitKeys (keys : List κ) (pass : Pass α ε) : Pass α ε :=
  keys.foldl (visitKey key visit) pass

/-- Visit every row once, in row order. -/
def sweep (pass : Pass α ε) : Pass α ε :=
  visitKeys key visit (pass.rows.map key) pass

/-- Sweep again as long as the last sweep changed something. -/
def untilStable : ℕ → Pass α ε → Pass α ε
  | 0, pass => pass
  | fuel + 1, pass =>
    let swept := sweep key visit { pass with changed := false }
    if swept.changed then untilStable fuel swept else swept

/-- A visit never moves its row to another key. -/
def KeepsKey : Prop :=
  ∀ rows row replaced entries, visit rows row = some (replaced, entries) → key replaced = key row

/-- The row a visit leaves behind. -/
def effect (rows : List α) (row : α) : α :=
  ((visit rows row).map Prod.fst).getD row

/-- No row of the table would be replaced by a visit. -/
def Stable (rows : List α) : Prop :=
  ∀ k row, lookup key rows k = some row → visit rows row = none

variable {key visit} {pass : Pass α ε} {k : κ} {keys : List κ}

theorem visitKeys_cons : visitKeys key visit (k :: keys) pass =
    visitKeys key visit keys (visitKey key visit pass k) := rfl

theorem visitKeys_append : visitKeys key visit (keys ++ later) pass =
    visitKeys key visit later (visitKeys key visit keys pass) :=
  foldl_append

variable (key visit) in
/-- Everything a single visit can do to the table. -/
theorem visitKey_cases (pass) : (visitKey key visit pass k = pass ∧
      ∀ row, lookup key pass.rows k = some row → visit pass.rows row = none) ∨
    ∃ row replaced entries, lookup key pass.rows k = some row ∧
      visit pass.rows row = some (replaced, entries) ∧ visitKey key visit pass k =
        ⟨modify key k (fun _ => replaced) pass.rows, pass.log ++ entries, true⟩ := by
  cases found : lookup key pass.rows k with
  | none => exact Or.inl ⟨by simp [visitKey, found], by simp⟩
  | some row =>
    cases fired : visit pass.rows row with
    | none => exact Or.inl ⟨by simp [visitKey, found, fired], by simpa using fired⟩
    | some result =>
      obtain ⟨replaced, entries⟩ := result
      exact Or.inr ⟨row, replaced, entries, rfl, fired, by simp [visitKey, found, fired]⟩

section
variable (keeps : KeepsKey key visit)
include keeps

private theorem keeps_at (found : lookup key pass.rows k = some row)
    (fired : visit pass.rows row = some (replaced, entries)) :
    ∀ other ∈ pass.rows, key other = k → key replaced = key other := by
  intro other _ same
  rw [keeps _ _ _ _ fired, lookup_key found, same]

theorem visitKey_keys : (visitKey key visit pass k).rows.map key = pass.rows.map key := by
  rcases visitKey_cases key visit pass with
    ⟨same, _⟩ | ⟨row, replaced, entries, found, fired, eq⟩
  · rw [same]
  rw [eq]
  exact map_key_modify (keeps_at keeps found fired)

/-- A visit replaces exactly the row under its key. -/
theorem visitKey_lookup (j : κ) : lookup key (visitKey key visit pass k).rows j =
    if j = k then (lookup key pass.rows j).map (effect visit pass.rows) else lookup key pass.rows j := by
  rcases visitKey_cases key visit pass with
    ⟨same, skips⟩ | ⟨row, replaced, entries, found, fired, eq⟩
  · rw [same]
    by_cases hit : j = k
    · subst hit
      cases found : lookup key pass.rows j with
      | none => simp
      | some row => simp [effect, skips row found]
    · simp [hit]
  · rw [eq, lookup_modify (keeps_at keeps found fired)]
    by_cases hit : j = k
    · simp [hit, found, effect, fired]
    simp [hit]

theorem visitKeys_keys : (visitKeys key visit keys pass).rows.map key = pass.rows.map key := by
  induction keys generalizing pass with
  | nil => rfl
  | cons k keys ih => rw [visitKeys_cons, ih, visitKey_keys keeps]

/-- A key that is not visited keeps its row. -/
theorem visitKeys_lookup_other (absent : k ∉ keys) :
    lookup key (visitKeys key visit keys pass).rows k = lookup key pass.rows k := by
  induction keys generalizing pass with
  | nil => rfl
  | cons j keys ih =>
    simp only [mem_cons, not_or] at absent
    rw [visitKeys_cons, ih absent.2, visitKey_lookup keeps, if_neg absent.1]

end

/-- A row of a kind that no visit fires on stays as it is. -/
theorem visitKeys_lookup_skipped (fires : α → Prop) (keeps : KeepsKey key visit)
    (only : ∀ rows row replaced entries, visit rows row = some (replaced, entries) → fires row)
    (other : ∀ row, lookup key pass.rows k = some row → ¬ fires row) :
    lookup key (visitKeys key visit keys pass).rows k = lookup key pass.rows k := by
  induction keys generalizing pass with
  | nil => rfl
  | cons j keys ih =>
    have same : lookup key (visitKey key visit pass j).rows k = lookup key pass.rows k := by
      rw [visitKey_lookup keeps]
      split
      · cases found : lookup key pass.rows k with
        | none => rfl
        | some row =>
          have skipped : visit pass.rows row = none := by
            cases fired : visit pass.rows row with
            | none => rfl
            | some result => exact absurd (only _ _ _ _ fired) (other row found)
          simp [effect, skipped]
      · rfl
    rw [visitKeys_cons, ih (by rwa [same]), same]

/-- The final row under a key is what its one visit made of the initial row,
in the table that the visits before it had left. -/
theorem visitKeys_lookup_at (keeps : KeepsKey key visit) {before after} (notBefore : k ∉ before)
    (notAfter : k ∉ after) : lookup key (visitKeys key visit (before ++ k :: after) pass).rows k =
    (lookup key pass.rows k).map (effect visit (visitKeys key visit before pass).rows) := by
  rw [visitKeys_append, visitKeys_cons, visitKeys_lookup_other keeps notAfter,
    visitKey_lookup keeps, if_pos rfl, visitKeys_lookup_other keeps notBefore]

/-- The invariant rule of a pass: what each firing visit preserves, the pass
preserves. -/
theorem visitKeys_invariant {P : List α → Prop}
    (step : ∀ rows k row replaced entries, P rows → lookup key rows k = some row →
      visit rows row = some (replaced, entries) → P (modify key k (fun _ => replaced) rows))
    (holds : P pass.rows) : P (visitKeys key visit keys pass).rows := by
  induction keys generalizing pass with
  | nil => exact holds
  | cons k keys ih =>
    rw [visitKeys_cons]
    apply ih
    rcases visitKey_cases key visit pass with
      ⟨same, _⟩ | ⟨row, replaced, entries, found, fired, eq⟩
    · rw [same]; exact holds
    rw [eq]; exact step _ k row replaced entries holds found fired

/-- What a visit establishes for its own key and no later visit undoes holds
for every visited key in the end. -/
theorem visitKeys_establish {P : List α → Prop} {Q : κ → List α → Prop}
    (keep : ∀ pass k, P pass.rows → P (visitKey key visit pass k).rows)
    (establish : ∀ pass k, P pass.rows → Q k (visitKey key visit pass k).rows)
    (preserve : ∀ pass j k, P pass.rows → Q k pass.rows → Q k (visitKey key visit pass j).rows)
    (holds : P pass.rows) : ∀ k ∈ keys, Q k (visitKeys key visit keys pass).rows := by
  have later : ∀ (keys : List κ) (pass : Pass α ε) (k : κ), P pass.rows → Q k pass.rows →
      Q k (visitKeys key visit keys pass).rows := by
    intro keys
    induction keys with
    | nil => exact fun _ _ _ done => done
    | cons j keys ih =>
      intro pass k holds done
      exact ih _ k (keep pass j holds) (preserve pass j k holds done)
  induction keys generalizing pass with
  | nil => simp
  | cons j keys ih =>
    intro k member
    rw [visitKeys_cons]
    rcases mem_cons.mp member with rfl | rest
    · exact later keys _ k (keep pass k holds) (establish pass k holds)
    exact ih (keep pass j holds) k rest

theorem untilStable_invariant {P : List α → Prop}
    (step : ∀ rows k row replaced entries, P rows → lookup key rows k = some row →
      visit rows row = some (replaced, entries) → P (modify key k (fun _ => replaced) rows))
    (fuel) (holds : P pass.rows) : P (untilStable key visit fuel pass).rows := by
  induction fuel generalizing pass with
  | zero => exact holds
  | succ fuel ih =>
    have swept : P (sweep key visit { pass with changed := false }).rows := visitKeys_invariant step holds
    rw [untilStable]
    split
    · exact ih swept
    exact swept

/-- What every visit logs is all that a pass logs. -/
theorem visitKeys_log {Q : ε → Prop}
    (logs : ∀ rows row replaced entries, visit rows row = some (replaced, entries) → ∀ entry ∈ entries, Q entry)
    (before : ∀ entry ∈ pass.log, Q entry) : ∀ entry ∈ (visitKeys key visit keys pass).log, Q entry := by
  induction keys generalizing pass with
  | nil => exact before
  | cons k keys ih =>
    rw [visitKeys_cons]
    apply ih
    rcases visitKey_cases key visit pass with
      ⟨same, _⟩ | ⟨row, replaced, entries, _, fired, eq⟩
    · rw [same]
      exact before
    rw [eq]
    intro entry member
    rcases mem_append.mp member with old | new
    · exact before entry old
    exact logs _ _ _ _ fired entry new

theorem untilStable_log {Q : ε → Prop} (logs : ∀ rows row replaced entries, visit rows row = some (replaced, entries) →
      ∀ entry ∈ entries, Q entry) (fuel) (before : ∀ entry ∈ pass.log, Q entry) :
    ∀ entry ∈ (untilStable key visit fuel pass).log, Q entry := by
  induction fuel generalizing pass with
  | zero => exact before
  | succ fuel ih =>
    have swept : ∀ entry ∈ (sweep key visit { pass with changed := false }).log, Q entry := visitKeys_log logs before
    rw [untilStable]
    split
    · exact ih swept
    exact swept

/-- Once a visit has fired, the flag stays up for the rest of the pass. -/
theorem visitKeys_changed_mono (fired : pass.changed = true) : (visitKeys key visit keys pass).changed = true := by
  induction keys generalizing pass with
  | nil => exact fired
  | cons k keys ih =>
    rw [visitKeys_cons]
    apply ih
    rcases visitKey_cases key visit pass with ⟨same, _⟩ | ⟨_, _, _, _, _, eq⟩
    · rw [same]; exact fired
    rw [eq]

/-- A pass that reports no change left everything as it was, because every
visit skipped. -/
theorem visitKeys_quiet (quiet : (visitKeys key visit keys pass).changed = false) :
    visitKeys key visit keys pass = pass ∧
      ∀ k ∈ keys, ∀ row, lookup key pass.rows k = some row → visit pass.rows row = none := by
  induction keys generalizing pass with
  | nil => exact ⟨rfl, by simp⟩
  | cons k keys ih =>
    rw [visitKeys_cons] at quiet ⊢
    rcases visitKey_cases key visit pass with ⟨same, skips⟩ | ⟨_, _, _, _, _, eq⟩
    · rw [same] at quiet ⊢
      obtain ⟨unchanged, rest⟩ := ih quiet
      refine ⟨unchanged, fun j member row found => ?_⟩
      rcases mem_cons.mp member with rfl | later
      · exact skips row found
      exact rest j later row found
    · rw [eq, visitKeys_changed_mono rfl] at quiet
      cases quiet

private theorem visitKeys_decreases {weight : List α → ℕ} (keys) (pass)
    (drops : ∀ rows k row replaced entries, lookup key rows k = some row →
      visit rows row = some (replaced, entries) → weight (modify key k (fun _ => replaced) rows) < weight rows) :
    weight (visitKeys key visit keys pass).rows ≤ weight pass.rows ∧
      (pass.changed = false → (visitKeys key visit keys pass).changed = true →
        weight (visitKeys key visit keys pass).rows < weight pass.rows) := by
  induction keys generalizing pass with
  | nil => exact ⟨Nat.le_refl _, fun down up => absurd (down.symm.trans up) Bool.false_ne_true⟩
  | cons k keys ih =>
    rw [visitKeys_cons]
    rcases visitKey_cases key visit pass with
      ⟨same, _⟩ | ⟨row, replaced, entries, found, fired, eq⟩
    · rw [same]; exact ih pass
    have less : weight (visitKey key visit pass k).rows < weight pass.rows := by
      rw [eq]; exact drops _ k row replaced entries found fired
    have rest : weight (visitKeys key visit keys (visitKey key visit pass k)).rows ≤
        weight (visitKey key visit pass k).rows := (ih _).1
    exact ⟨by omega, fun _ _ => by omega⟩

/-- Repeated sweeps reach a stable table when every firing visit lowers a
weight and the fuel exceeds the initial weight. -/
theorem untilStable_stable (weight : List α → ℕ) (drops : ∀ rows k row replaced entries, lookup key rows k = some row →
      visit rows row = some (replaced, entries) → weight (modify key k (fun _ => replaced) rows) < weight rows)
    (fuel) (enough : weight pass.rows < fuel) : Stable key visit (untilStable key visit fuel pass).rows := by
  induction fuel generalizing pass with
  | zero => omega
  | succ fuel ih =>
    have decreases := visitKeys_decreases (pass.rows.map key) { pass with changed := false } drops
    rw [untilStable]
    split
    · rename_i fired
      have less := decreases.2 rfl fired
      exact ih (Nat.lt_of_lt_of_le less (Nat.le_of_lt_succ enough))
    rename_i quiet
    obtain ⟨unchanged, skips⟩ := visitKeys_quiet (Bool.not_eq_true _ ▸ quiet)
    have same : (sweep key visit { pass with changed := false }).rows = pass.rows := by
      rw [sweep, unchanged]
    intro k row found
    rw [same] at found ⊢
    exact skips k (lookup_isSome.mp (by simp [found])) row found

end
end LongHorizonOS.RowSweep
