import Mathlib.Data.List.Perm.Basic
import Mathlib.Data.List.Sort

/-! Rows under a key: an insertion-ordered dictionary and a table with a
primary key are both a list whose rows carry their own key. Replacing a row
keeps its position and a new key goes to the end, so the order in which a
caller later iterates over the rows is part of the value. -/
namespace LongHorizonOS.KeyedRows
open List

section
variable {α κ : Type} [DecidableEq κ] (key : α → κ)

/-- The row stored under a key. -/
def lookup (rows : List α) (k : κ) : Option α :=
  rows.find? fun row => decide (key row = k)

/-- Replace the row with the same key where it stands, or append the row. -/
def upsert (row : α) : List α → List α
  | [] => [row]
  | first :: rest => if key first = key row then row :: rest else first :: upsert row rest

/-- `INSERT … ON CONFLICT DO UPDATE`: revise the row with the same key, or append
the row. -/
def upsertWith (revise : α → α → α) (row : α) (rows : List α) : List α :=
  match lookup key rows (key row) with
  | none => rows ++ [row]
  | some old => upsert key (revise old row) rows

/-- Change the row under one key in place. -/
def modify (k : κ) (change : α → α) (rows : List α) : List α :=
  rows.map fun row => if key row = k then change row else row

variable {key} {rows : List α} {row other : α}

theorem lookup_mem (found : lookup key rows k = some row) : row ∈ rows :=
  mem_of_find?_eq_some found

theorem lookup_key (found : lookup key rows k = some row) : key row = k := by
  simpa using find?_some found

theorem lookup_eq_none : lookup key rows k = none ↔ k ∉ rows.map key := by
  simp [lookup, find?_eq_none]

theorem lookup_isSome : (lookup key rows k).isSome ↔ k ∈ rows.map key := by
  rw [← not_iff_not, Bool.not_eq_true, Option.isSome_eq_false_iff, Option.isNone_iff_eq_none, lookup_eq_none]

/-- A key that occurs among the rows has a row. -/
theorem exists_lookup (member : k ∈ rows.map key) : ∃ row, lookup key rows k = some row :=
  Option.isSome_iff_exists.mp (lookup_isSome.mpr member)

section
variable (distinct : (rows.map key).Nodup)
include distinct

/-- Under a primary key, a stored row is the one found under its key. -/
theorem lookup_of_mem (member : row ∈ rows) : lookup key rows (key row) = some row := by
  obtain ⟨found, hit⟩ := exists_lookup (mem_map_of_mem (f := key) member)
  have same := inj_on_of_nodup_map distinct (lookup_mem hit) member (lookup_key hit)
  rw [hit, same]

theorem lookup_eq_some : lookup key rows k = some row ↔ row ∈ rows ∧ key row = k :=
  ⟨fun found => ⟨lookup_mem found, lookup_key found⟩, fun ⟨member, same⟩ => same ▸ lookup_of_mem distinct member⟩

theorem filter_key_eq_singleton (member : row ∈ rows) :
    rows.filter (fun other => decide (key other = key row)) = [row] := by
  induction rows with
  | nil => cases member
  | cons first rest ih =>
    obtain ⟨fresh, distinct⟩ := nodup_cons.mp distinct
    rcases mem_cons.mp member with rfl | member
    · have others : rest.filter (fun other => decide (key other = key row)) = [] :=
        filter_eq_nil_iff.mpr fun other inside => by
          simpa using fun same : key other = key row => fresh (same ▸ mem_map_of_mem inside)
      simp [others]
    · have differ : key first ≠ key row := fun same => fresh (same ▸ mem_map_of_mem member)
      rw [filter_cons_of_neg (by simpa using differ)]
      exact ih distinct member

/-- Lookups do not depend on the order of the rows. -/
theorem lookup_perm (perm : rows'.Perm rows) : lookup key rows' k = lookup key rows k := by
  have distinct' : (rows'.map key).Nodup := (perm.map key).nodup_iff.mpr distinct
  apply Option.ext
  intro row
  rw [lookup_eq_some distinct, lookup_eq_some distinct', perm.mem_iff]

end

/-- Deleting other rows does not change what is found. -/
theorem lookup_filter (inside : ∀ row ∈ rows, key row = k → part row = true) :
    lookup key (rows.filter part) k = lookup key rows k := by
  induction rows with
  | nil => rfl
  | cons first rest ih =>
    have later := ih fun row member => inside row (mem_cons_of_mem _ member)
    by_cases here : key first = k
    · rw [filter_cons_of_pos (inside first mem_cons_self here)]
      simp [lookup, here]
    have skip : lookup key (first :: rest) k = lookup key rest k := by simp [lookup, here]
    rw [skip, ← later, filter_cons]
    split
    · simp [lookup, here]
    rfl

theorem lookup_append (rows new) (k : κ) : lookup key (rows ++ new) k = (lookup key rows k).or (lookup key new k) :=
  find?_append

theorem lookup_append_single (rows) (row : α) (fresh : key row ∉ rows.map key) (k : κ) :
    lookup key (rows ++ [row]) k = if k = key row then some row else lookup key rows k := by
  rw [lookup_append]
  by_cases hit : k = key row
  · rw [if_pos hit, hit, lookup_eq_none.mpr fresh]
    simp [lookup]
  · rw [if_neg hit, show lookup key [row] k = none from by simp [lookup, Ne.symm hit], Option.or_none]

variable {β : Type}

theorem map_lookup_append_single (column : α → β) (fresh : key row ∉ rows.map key) (k : κ) :
    (lookup key (rows ++ [row]) k).map column =
    if k = key row then some (column row) else (lookup key rows k).map column := by
  rw [lookup_append_single _ _ fresh]
  split <;> rfl

theorem lookup_map (keeps : ∀ row ∈ rows, key' (change row) = key row) :
    lookup key' (rows.map change) k = (lookup key rows k).map change := by
  induction rows with
  | nil => rfl
  | cons first rest ih =>
    have head := keeps first mem_cons_self
    have tail := ih fun row member => keeps row (mem_cons_of_mem _ member)
    by_cases hit : key first = k
    · simp [lookup, head, hit]
    simpa [lookup, head, hit] using tail

theorem lookup_tabulate (f : κ → β) {keys : List κ} (member : k ∈ keys) :
    lookup Prod.fst (keys.map fun each => (each, f each)) k = some (k, f k) := by
  obtain ⟨found, hit⟩ : ∃ found, lookup id keys k = some found := exists_lookup (by simpa using member)
  obtain rfl : found = k := lookup_key hit
  calc lookup Prod.fst (keys.map fun each => (each, f each)) found
      = (lookup id keys found).map fun each => (each, f each) := lookup_map fun _ _ => rfl
    _ = some (found, f found) := by rw [hit]; rfl

theorem map_key_modify (keeps : ∀ row ∈ rows, key row = k → key (change row) = key row) :
    (modify key k change rows).map key = rows.map key := by
  rw [modify, map_map]
  apply map_congr_left
  intro row member
  by_cases hit : key row = k
  · simp [hit, keeps row member hit]
  simp [hit]

theorem lookup_modify (keeps : ∀ row ∈ rows, key row = k → key (change row) = key row) (j : κ) :
    lookup key (modify key k change rows) j = if j = k then (lookup key rows j).map change else lookup key rows j := by
  have keepsAll : ∀ row ∈ rows, key (if key row = k then change row else row) = key row := by
    intro row member
    split
    · rename_i hit
      exact keeps row member hit
    · rfl
  rw [modify, lookup_map keepsAll]
  cases found : lookup key rows j with
  | none => simp
  | some row =>
    have same := lookup_key found
    by_cases hit : j = k <;> simp [hit, same]

/-- Replacing a stored row by another of the same key. -/
theorem lookup_replace (found : lookup key rows k = some row) (same : key replaced = key row)
    (j : κ) : lookup key (modify key k (fun _ => replaced) rows) j =
    if j = k then some replaced else lookup key rows j := by
  rw [lookup_modify fun other _ here => (same.trans (lookup_key found)).trans here.symm]
  by_cases hit : j = k
  · rw [if_pos hit, if_pos hit, hit, found, Option.map_some]
  rw [if_neg hit, if_neg hit]

/-- Replacing a row that counts by one that does not lowers the count. -/
theorem countP_modify_lt (found : lookup key rows k = some row) (was : counts row = true)
    (gone : counts replaced = false) : (modify key k (fun _ => replaced) rows).countP counts < rows.countP counts := by
  have atMost : ∀ rest : List α,
      (modify key k (fun _ => replaced) rest).countP counts ≤ rest.countP counts := by
    intro rest
    rw [modify, countP_map]
    apply countP_mono_left
    intro other _ counted
    by_cases hit : key other = k
    · simp [hit, gone] at counted
    simpa [hit] using counted
  induction rows with
  | nil => simp [lookup] at found
  | cons first rest ih =>
    by_cases hit : key first = k
    · obtain rfl : first = row := by simpa [lookup, hit] using found
      have below := atMost rest
      simp only [modify, map_cons, hit, ↓reduceIte, countP_cons, gone, was] at below ⊢
      simp only [Bool.false_eq_true, ↓reduceIte]
      omega
    · have deeper := ih (by simpa [lookup, hit] using found)
      simp only [modify, map_cons, hit, ↓reduceIte, countP_cons] at deeper ⊢
      omega

theorem mem_upsert (member : other ∈ upsert key row rows) : other = row ∨ other ∈ rows := by
  induction rows with
  | nil => exact Or.inl (mem_singleton.mp member)
  | cons first rest ih =>
    rw [upsert] at member
    split at member
    · exact (mem_cons.mp member).imp_right (mem_cons_of_mem _)
    rcases mem_cons.mp member with rfl | deeper
    · exact Or.inr mem_cons_self
    exact (ih deeper).imp_right (mem_cons_of_mem _)

theorem forall_upsert {P : α → Prop} (old : ∀ other ∈ rows, P other) (new : P row) :
    ∀ other ∈ upsert key row rows, P other := fun other member =>
  (mem_upsert member).elim (fun same => same ▸ new) (old other)

theorem map_key_upsert : (upsert key row rows).map key =
    if key row ∈ rows.map key then rows.map key else rows.map key ++ [key row] := by
  induction rows with
  | nil => simp [upsert]
  | cons first rest ih =>
    by_cases hit : key first = key row
    · simp [upsert, hit]
    have miss : key row ≠ key first := fun same => hit same.symm
    simp only [upsert, hit, ↓reduceIte, map_cons, ih, mem_cons, miss, false_or]
    split <;> simp

theorem lookup_upsert (k : κ) : lookup key (upsert key row rows) k =
    if k = key row then some row else lookup key rows k := by
  induction rows with
  | nil =>
    by_cases hit : key row = k
    · simp [upsert, lookup, hit]
    simp [upsert, lookup, hit, Ne.symm hit]
  | cons first rest ih =>
    by_cases same : key first = key row
    · by_cases hit : key row = k
      · simp [upsert, lookup, same, hit]
      simp [upsert, lookup, same, hit, Ne.symm hit]
    by_cases first_hit : key first = k
    · have miss : k ≠ key row := fun eq => same (first_hit.trans eq)
      simp [upsert, lookup, first_hit, miss]
    have tail : lookup key (upsert key row (first :: rest)) k =
        lookup key (upsert key row rest) k := by
      simp [upsert, lookup, same, first_hit]
    rw [tail, ih]
    simp [lookup, first_hit]

theorem forall_append_single {P : α → Prop} (old : ∀ row ∈ rows, P row) (new : P row) :
    ∀ other ∈ rows ++ [row], P other :=
  forall_mem_append.mpr ⟨old, forall_mem_singleton.mpr new⟩

/-- Rows with one first component of the key are told apart by the second. -/
theorem nodup_snd {key : α → κ × β} (distinct : (rows.map key).Nodup) (k : κ) :
    ((rows.filter fun row => decide ((key row).1 = k)).map fun row => (key row).2).Nodup := by
  have here := distinct.sublist (filter_sublist (p := fun row => decide ((key row).1 = k)).map key)
  refine (nodup_map_iff_inj_on (List.Nodup.of_map _ here)).mpr fun a left b right same => ?_
  have first : (key a).1 = (key b).1 := by
    rw [of_decide_eq_true (mem_filter.mp left).2, of_decide_eq_true (mem_filter.mp right).2]
  exact inj_on_of_nodup_map here left right (Prod.ext first same)

omit [DecidableEq κ] in
theorem nodup_append_single {keys} (distinct : keys.Nodup) (fresh : k ∉ keys) : (keys ++ [k]).Nodup := by
  rw [← concat_eq_append]
  exact List.Nodup.concat fresh distinct

omit [DecidableEq κ] in
theorem nodup_append_free (distinct : (rows.map key).Nodup)
    (free : (∀ row ∈ new, key row ∉ rows.map key) ∧ (new.map key).Nodup) : ((rows ++ new).map key).Nodup := by
  rw [map_append, nodup_append]
  refine ⟨distinct, free.2, fun a stored b added same => ?_⟩
  obtain ⟨row, member, rfl⟩ := mem_map.mp added
  exact free.1 row member (same ▸ stored)

/-- Writing a row keeps the primary key. -/
theorem nodup_upsert (distinct : (rows.map key).Nodup) : ((upsert key row rows).map key).Nodup := by
  rw [map_key_upsert]
  split
  · exact distinct
  rename_i fresh
  exact nodup_append_single distinct fresh

/-- A key that is not there yet goes to the end. -/
theorem upsert_fresh (fresh : key row ∉ rows.map key) : upsert key row rows = rows ++ [row] := by
  induction rows with
  | nil => rfl
  | cons first rest ih =>
    simp only [map_cons, mem_cons, not_or] at fresh
    simp [upsert, Ne.symm fresh.1, ih fresh.2]

/-- A row that is there already is not changed. -/
theorem upsert_self (found : lookup key rows (key row) = some row) : upsert key row rows = rows := by
  induction rows with
  | nil => cases found
  | cons first rest ih =>
    by_cases hit : key first = key row
    · obtain rfl : first = row := by simpa [lookup, hit] using found
      simp [upsert]
    · rw [upsert, if_neg hit, ih (by simpa [lookup, hit] using found)]

/-- A column in which the written row agrees with the stored one does not change. -/
theorem map_upsert_stored (found : lookup key rows (key row) = some old)
    (same : column row = column old) : (upsert key row rows).map column = rows.map column := by
  induction rows with
  | nil => cases found
  | cons first rest ih =>
    by_cases hit : key first = key row
    · obtain rfl : first = old := by simpa [lookup, hit] using found
      simp [upsert, hit, same]
    · simp [upsert, hit, ih (by simpa [lookup, hit] using found)]

theorem mem_upsert_iff (distinct : (rows.map key).Nodup) :
    other ∈ upsert key row rows ↔ other = row ∨ other ∈ rows ∧ key other ≠ key row := by
  have found : lookup key (upsert key row rows) (key other) = _ := lookup_upsert (key other)
  have stored : lookup key (upsert key row rows) (key other) = some other ↔ _ :=
    lookup_eq_some (nodup_upsert distinct)
  constructor
  · intro member
    rw [stored.mpr ⟨member, rfl⟩] at found
    by_cases same : key other = key row
    · exact Or.inl (by simpa [same] using found)
    rw [if_neg same] at found
    exact Or.inr ⟨lookup_mem found.symm, same⟩
  · rintro (rfl | ⟨member, different⟩)
    · exact (stored.mp (by simpa using found)).1
    rw [if_neg different, lookup_of_mem distinct member] at found
    exact (stored.mp found).1

theorem map_key_upsertWith (keeps : ∀ old, key old = key row → key (revise old row) = key row) :
    (upsertWith key revise row rows).map key =
    if key row ∈ rows.map key then rows.map key else rows.map key ++ [key row] := by
  unfold upsertWith
  cases found : lookup key rows (key row) with
  | none =>
    have fresh := lookup_eq_none.mp found
    rw [if_neg fresh]
    exact map_append
  | some old =>
    rw [map_key_upsert, keeps old (lookup_key found)]

theorem nodup_upsertWith
    (keeps : ∀ old, key old = key row → key (revise old row) = key row) (distinct : (rows.map key).Nodup) :
    ((upsertWith key revise row rows).map key).Nodup := by
  rw [map_key_upsertWith keeps]
  split
  · exact distinct
  rename_i fresh
  exact nodup_append_single distinct fresh

/-- Under a primary key, writing a row that is stored revises it in place. -/
theorem upsertWith_stored (distinct : (rows.map key).Nodup)
    (keeps : ∀ old, key old = key row → key (revise old row) = key row) (stored : key row ∈ rows.map key) :
    upsertWith key revise row rows = modify key (key row) (fun old => revise old row) rows := by
  obtain ⟨old, found⟩ := exists_lookup stored
  unfold upsertWith
  rw [found]
  have same := keeps old (lookup_key found)
  clear stored
  induction rows with
  | nil => cases found
  | cons first rest ih =>
    obtain ⟨fresh, apart⟩ := nodup_cons.mp distinct
    by_cases hit : key first = key row
    · obtain rfl : first = old := by simpa [lookup, hit] using found
      have others : modify key (key row) (fun old => revise old row) rest = rest := by
        refine (map_congr_left fun other member => if_neg fun here => fresh ?_).trans rest.map_id
        rw [hit, ← here]
        exact mem_map_of_mem member
      simp only [modify, map_cons, if_pos hit, upsert, same] at others ⊢
      rw [others]
    · have deeper := ih apart (by simpa [lookup, hit] using found)
      simp only [modify, map_cons, if_neg hit, upsert, same] at deeper ⊢
      rw [deeper]

/-- Writing a row that is new appends it. -/
theorem upsertWith_new (fresh : key row ∉ rows.map key) : upsertWith key revise row rows = rows ++ [row] := by
  rw [upsertWith, lookup_eq_none.mpr fresh]

/-- `INSERT OR IGNORE`: a row whose key is there is not written. -/
theorem upsertWith_ignore : upsertWith key (fun old _ => old) row rows =
    if key row ∈ rows.map key then rows else rows ++ [row] := by
  split
  · rename_i stored
    obtain ⟨old, found⟩ := exists_lookup stored
    rw [upsertWith, found]
    exact upsert_self (lookup_key found ▸ found)
  · rename_i fresh
    exact upsertWith_new fresh

/-- Writing a row changes nothing in a part of the table that its key lies outside of. -/
theorem filter_upsert (outside : ∀ other, key other = key row → part other = false) :
    (upsert key row rows).filter part = rows.filter part := by
  induction rows with
  | nil => simp [upsert, outside row rfl]
  | cons first rest ih =>
    rw [upsert]
    split
    · rename_i same
      simp [outside row rfl, outside first same]
    · rw [filter_cons, filter_cons, ih]

theorem nodup_foldl_upsert (new : List α) (distinct : (rows.map key).Nodup) :
    ((new.foldl (fun rows row => upsert key row rows) rows).map key).Nodup := by
  induction new generalizing rows with
  | nil => exact distinct
  | cons row new ih => exact ih (nodup_upsert distinct)

end

section
variable {α κ : Type} [LinearOrder κ] {key : α → κ} [DecidableRel fun a b => key a ≤ key b]
  {rows rows' : List α}

theorem sortByKey_sorted (key : α → κ) [DecidableRel fun a b => key a ≤ key b] (rows : List α) :
    (rows.insertionSort fun a b => key a ≤ key b).Pairwise fun a b => key a ≤ key b := by
  exact pairwise_insertionSort _ rows

/-- Sorting by a primary key forgets the order of the rows. -/
theorem sortByKey_perm (distinct : (rows.map key).Nodup) (perm : rows'.Perm rows) :
    rows'.insertionSort (fun a b => key a ≤ key b) = rows.insertionSort fun a b => key a ≤ key b := by
  have same := (perm_insertionSort (fun a b => key a ≤ key b) rows').trans
    (perm.trans (perm_insertionSort (fun a b => key a ≤ key b) rows).symm)
  refine same.eq_of_pairwise ?_ (sortByKey_sorted key rows') (sortByKey_sorted key rows)
  intro a b left right below above
  have memA : a ∈ rows := perm.mem_iff.mp ((mem_insertionSort _).mp left)
  have memB : b ∈ rows := (mem_insertionSort _).mp right
  exact inj_on_of_nodup_map distinct memA memB (le_antisymm below above)

/-- It forgets nothing else. -/
theorem perm_of_sortByKey_eq (same : rows'.insertionSort (fun a b => key a ≤ key b) =
    rows.insertionSort fun a b => key a ≤ key b) : rows'.Perm rows :=
  (perm_insertionSort (fun a b => key a ≤ key b) rows').symm.trans
    (same ▸ perm_insertionSort (fun a b => key a ≤ key b) rows)

end

section
variable {κ β : Type} [DecidableEq κ]

/-- Adjacency built with `setdefault(k, []).append(v)`. -/
abbrev Adjacency (κ β : Type) := List (κ × List β)

/-- The list filed under a key; a key never filed has the empty list. -/
def Adjacency.get (index : Adjacency κ β) (k : κ) : List β :=
  ((lookup Prod.fst index k).map Prod.snd).getD []

def Adjacency.add (index : Adjacency κ β) (k : κ) (v : β) : Adjacency κ β :=
  upsert Prod.fst (k, index.get k ++ [v]) index

theorem Adjacency.get_add (index : Adjacency κ β) (k j : κ) (v : β) :
    (index.add k v).get j = if j = k then index.get k ++ [v] else index.get j := by
  rw [Adjacency.get, Adjacency.add, lookup_upsert]
  by_cases hit : j = k <;> simp [hit, Adjacency.get]

/-- File what each entry of a list contributes, in order. -/
def Adjacency.collect {ε : Type} (entry : ε → Option (κ × β)) (entries : List ε) : Adjacency κ β :=
  entries.foldl (fun index e => match entry e with
    | some (k, v) => index.add k v
    | none => index) []

/-- Under each key stands what was filed there, in order. -/
theorem Adjacency.get_collect (entry : ε → Option (κ × β)) (entries : List ε) (j : κ) :
    (collect entry entries).get j = entries.filterMap fun e =>
    (entry e).bind fun (k, v) => if k = j then some v else none := by
  have run : ∀ index : Adjacency κ β, (entries.foldl (fun index e => match entry e with
      | some (k, v) => index.add k v
      | none => index) index).get j = index.get j ++ entries.filterMap fun e =>
        (entry e).bind fun (k, v) => if k = j then some v else none := by
    induction entries with
    | nil => simp
    | cons e rest ih =>
      intro index
      rw [foldl_cons, ih]
      cases filed : entry e with
      | none => simp [filed]
      | some pair =>
        obtain ⟨k, v⟩ := pair
        by_cases hit : j = k
        · simp [filed, get_add, hit]
        simp [filed, get_add, hit, Ne.symm hit]
  exact run []

end
end LongHorizonOS.KeyedRows
