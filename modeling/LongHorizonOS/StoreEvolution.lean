import LongHorizonOS.CommittedRuns

/-! How the store changes over time. The version of a graph never goes back,
and while it stays the same so do the rows of the graph and the keys used on
it. Each commit adds one row to the tables of patches, keys and versions, so a
key stands for at most one committed version. -/
namespace LongHorizonOS.StoreEvolution
open KeyedRows GraphStore CommitSpec PatchSubmission List Option
open StoreConsistency CommittedRuns

/-- Author, graph and idempotency key. -/
abbrev CompositeKey := String × String × String

def PatchRow.key (row : PatchRow) : CompositeKey := (row.authorPid, row.graphId, row.idempotencyKey)

/-! ## What a commit adds to the tables -/

/-- The tables that record a commit have one more row each, under new keys. -/
structure Recorded (c : Commit) (version : VersionRow) (patch : PatchRow) (row : IdempotencyRow) :
    Prop where
  versionIs : (version.graphId, version.version, version.patchId) = (c.graphId, c.version, c.sub.patch.patchId)
  patchIs : (PatchRow.key patch, patch.committedVersion, patch.patchId) =
    (c.sub.patch.compositeKey, c.version, c.sub.patch.patchId)
  rowIs : (row.key, row.committedVersion, row.patchId) =
    (c.sub.patch.compositeKey, c.version, c.sub.patch.patchId)
  newVersion : version.key ∉ c.store.versions.map VersionRow.key
  newKey : row.key ∉ c.store.idempotency.map IdempotencyRow.key
  versions : c.after.versions = c.store.versions ++ [version]
  patches : c.after.patches = c.store.patches ++ [patch]
  idempotency : c.after.idempotency = c.store.idempotency ++ [row]

variable {c : Commit}

theorem commit_recorded (sound : Consistent c.store) : ∃ version patch row, Recorded c version patch row := by
  obtain ⟨_, _, _, clean⟩ := Commit.clean sound
  let request := commitRequest c.sub c.env.facts c.record c.nodes c.cand
  refine ⟨versionRow request (commitHash request []), patchRow request, idempotencyRow request,
    rfl, rfl, rfl, clean.trace.newVersion, clean.trace.newKey, ?_, ?_, ?_⟩
  all_goals
    rw [clean.written]
    rfl

/-! ## The ledger -/

/-- The tables of patches, keys and versions describe the same commits. -/
structure Ledger (store : Store) : Prop where
  keys : (store.idempotency.map IdempotencyRow.key).Nodup
  versionKeys : (store.versions.map VersionRow.key).Nodup
  patches : store.patches.map (fun row => (PatchRow.key row, row.committedVersion, row.patchId)) =
    store.idempotency.map fun row => (row.key, row.committedVersion, row.patchId)
  versions : ∀ patch ∈ store.patches, ∃ row ∈ store.versions, row.graphId = patch.graphId ∧
    row.version = patch.committedVersion ∧ row.patchId = patch.patchId

theorem commit_ledger (sound : Consistent c.store) (ledger : Ledger c.store) : Ledger c.after := by
  obtain ⟨version, patch, row, recorded⟩ := commit_recorded sound
  obtain ⟨graph, number, id⟩ := Prod.mk.inj recorded.versionIs |>.imp_right Prod.mk.inj
  refine ⟨?_, ?_, ?_, fun entry member => ?_⟩
  · rw [recorded.idempotency, map_append]
    exact nodup_append_single ledger.keys recorded.newKey
  · rw [recorded.versions, map_append]
    exact nodup_append_single ledger.versionKeys recorded.newVersion
  · rw [recorded.patches, recorded.idempotency, map_append, map_append, ledger.patches]
    simp only [map_cons, map_nil, recorded.patchIs, recorded.rowIs]
  rw [recorded.versions]
  rw [recorded.patches, mem_append, mem_singleton] at member
  rcases member with old | rfl
  · obtain ⟨known, stored, same⟩ := ledger.versions entry old
    exact ⟨known, mem_append_left _ stored, same⟩
  obtain ⟨key, rest⟩ := Prod.mk.inj recorded.patchIs
  obtain ⟨committed, patchId⟩ := Prod.mk.inj rest
  refine ⟨version, by simp, graph.trans ?_, number.trans committed.symm, id.trans patchId.symm⟩
  exact (congrArg (fun k : CompositeKey => k.2.1) key).symm

theorem perform_ledger (sound : Consistent store) (ledger : Ledger store) : Ledger (perform store request) := by
  cases request with
  | create ownerPid graphId metadata =>
    rw [perform]
    rcases createGraph_cases with same | ⟨unused, eq⟩
    · rw [same]
      exact ledger
    rw [eq]
    refine ⟨ledger.keys, ?_, ledger.patches, fun entry member => ?_⟩
    · change ((store.versions ++ [_]).map VersionRow.key).Nodup
      rw [map_append]
      exact nodup_append_single ledger.versionKeys unused.version
    · obtain ⟨known, stored, same⟩ := ledger.versions entry member
      exact ⟨known, mem_append_left _ stored, same⟩
  | close graphId => exact ⟨ledger.keys, ledger.versionKeys, ledger.patches, ledger.versions⟩
  | submit env sub =>
    rcases perform_submit store env sub with same | ⟨c, rfl, rfl, rfl, eq⟩
    · rw [same]
      exact ledger
    rw [eq]
    exact commit_ledger sound ledger

/-- The tables of a run always describe the same commits. -/
theorem execute_ledger : Ledger (execute requests) := by
  induction requests using List.reverseRecOn with
  | nil => exact ⟨nodup_nil, nodup_nil, rfl, fun _ member => nomatch member⟩
  | append_singleton requests request ih =>
    rw [execute_append]
    exact perform_ledger (execute_consistent requests) ih

/-! ### The versions committed under a key -/

/-- The versions that a patch with the key has created. -/
def versionsUnder (store : Store) (key : CompositeKey) : List VersionRow :=
  store.versions.filter fun row => decide (∃ patch ∈ store.patches, PatchRow.key patch = key ∧
    row.graphId = patch.graphId ∧ row.version = patch.committedVersion ∧ row.patchId = patch.patchId)

section
variable {key : CompositeKey}

theorem mem_versionsUnder : row ∈ versionsUnder store key ↔ row ∈ store.versions ∧
    ∃ patch ∈ store.patches, PatchRow.key patch = key ∧ row.graphId = patch.graphId ∧
      row.version = patch.committedVersion ∧ row.patchId = patch.patchId := by
  rw [versionsUnder, mem_filter, decide_eq_true_eq]

section
variable (ledger : Ledger store)
include ledger

/-- A patch has the key's row. -/
theorem Ledger.row_of_patch (member : patch ∈ store.patches) : ∃ row ∈ store.idempotency, row.key = PatchRow.key patch ∧
      row.committedVersion = patch.committedVersion ∧ row.patchId = patch.patchId := by
  have listed : (PatchRow.key patch, patch.committedVersion, patch.patchId) ∈
      store.idempotency.map fun row => (row.key, row.committedVersion, row.patchId) := by
    rw [← ledger.patches]
    exact mem_map_of_mem member
  obtain ⟨row, stored, same⟩ := mem_map.mp listed
  obtain ⟨key, rest⟩ := Prod.mk.inj same
  exact ⟨row, stored, key, Prod.mk.inj rest⟩

theorem Ledger.patch_of_row (member : row ∈ store.idempotency) : ∃ patch ∈ store.patches, PatchRow.key patch = row.key ∧
      patch.committedVersion = row.committedVersion ∧ patch.patchId = row.patchId := by
  have listed : (row.key, row.committedVersion, row.patchId) ∈
      store.patches.map fun row => (PatchRow.key row, row.committedVersion, row.patchId) := by
    rw [ledger.patches]
    exact mem_map_of_mem member
  obtain ⟨patch, stored, same⟩ := mem_map.mp listed
  obtain ⟨key, rest⟩ := Prod.mk.inj same
  exact ⟨patch, stored, key, Prod.mk.inj rest⟩

/-- Two patches under one key are one commit. -/
theorem Ledger.version_unique (firstMember : first ∈ versionsUnder store key)
    (secondMember : second ∈ versionsUnder store key) : first = second := by
  obtain ⟨storedFirst, p, pMember, pKey, pGraph, pVersion, _⟩ := mem_versionsUnder.mp firstMember
  obtain ⟨storedSecond, q, qMember, qKey, qGraph, qVersion, _⟩ := mem_versionsUnder.mp secondMember
  obtain ⟨row, rowMember, rowKey, rowVersion, _⟩ := ledger.row_of_patch pMember
  obtain ⟨row', rowMember', rowKey', rowVersion', _⟩ := ledger.row_of_patch qMember
  obtain rfl : row = row' := inj_on_of_nodup_map ledger.keys rowMember rowMember'
    (rowKey.trans (pKey.trans (qKey.symm.trans rowKey'.symm)))
  have sameGraph : p.graphId = q.graphId := congrArg (fun k : CompositeKey => k.2.1) (pKey.trans qKey.symm)
  apply inj_on_of_nodup_map ledger.versionKeys storedFirst storedSecond
  rw [VersionRow.key, VersionRow.key, pGraph, qGraph, sameGraph, pVersion, qVersion, ← rowVersion, rowVersion']

/-- A key stands for at most one committed version. -/
theorem Ledger.versionsUnder_length (key) : (versionsUnder store key).length ≤ 1 := by
  have distinct : (versionsUnder store key).Nodup := (List.Nodup.of_map _ ledger.versionKeys).filter _
  have unique : ∀ first second, first ∈ versionsUnder store key → second ∈ versionsUnder store key →
      first = second := fun _ _ => ledger.version_unique
  cases listed : versionsUnder store key with
  | nil => simp
  | cons first rest =>
    cases rest with
    | nil => simp
    | cons second rest =>
      rw [listed] at distinct unique
      have same := unique first second (by simp) (by simp)
      rw [same, nodup_cons] at distinct
      exact absurd mem_cons_self distinct.1

/-- The recorded result of a key is its one committed version. -/
theorem Ledger.versionsUnder_result (hit : hasIdempotency store key = some found) :
    ∃ row, versionsUnder store key = [row] ∧ row.patchId = found.1 ∧ row.version = found.2 := by
  obtain ⟨row, stored, rfl⟩ := map_eq_some_iff.mp hit
  obtain ⟨patch, member, patchKey, committed, patchId⟩ := ledger.patch_of_row (lookup_mem stored)
  obtain ⟨version, known, graph, number, id⟩ := ledger.versions patch member
  have listed : version ∈ versionsUnder store key := mem_versionsUnder.mpr
    ⟨known, patch, member, patchKey.trans (lookup_key stored), graph, number, id⟩
  have short := ledger.versionsUnder_length key
  refine ⟨version, ?_, id.trans patchId, number.trans committed⟩
  cases rows : versionsUnder store key with
  | nil =>
    rw [rows] at listed
    cases listed
  | cons first rest =>
    rw [rows, length_cons] at short
    obtain rfl : rest = [] := length_eq_zero_iff.mp (by omega)
    rw [rows] at listed
    rw [mem_singleton.mp listed]

end

end

/-! ## Evolution -/

/-- The graph has the same rows, and the same keys were used on it. -/
structure SameVersion (store after : Store) (graphId : String) : Prop where
  nodes : nodeRowsOf after graphId = nodeRowsOf store graphId
  edges : edgeRowsOf after graphId = edgeRowsOf store graphId
  results : ∀ key : CompositeKey, key.2.1 = graphId → hasIdempotency after key = hasIdempotency store key

/-- A graph either is at a later version, or it is as it was. The result
recorded for a key never changes. -/
structure Evolves (store after : Store) : Prop where
  graph : ∀ graphId record, getRecord store graphId = some record →
    ∃ now, getRecord after graphId = some now ∧ (record.currentVersion < now.currentVersion ∨
      now.currentVersion = record.currentVersion ∧ SameVersion store after graphId)
  results : ∀ key found, hasIdempotency store key = some found → hasIdempotency after key = some found

theorem SameVersion.refl (store) (graphId) : SameVersion store store graphId :=
  ⟨rfl, rfl, fun _ _ => rfl⟩

theorem Evolves.refl (store) : Evolves store store :=
  ⟨fun graphId record found => ⟨record, found, .inr ⟨rfl, .refl store graphId⟩⟩, fun _ _ => id⟩

/-- The result of a commit is recorded under its key. -/
theorem commit_result (sound : Consistent c.store) : hasIdempotency c.after key = if key = c.sub.patch.compositeKey then
    some (c.sub.patch.patchId, c.version) else hasIdempotency c.store key := by
  obtain ⟨_, _, row, recorded⟩ := commit_recorded sound
  obtain ⟨rowKey, rest⟩ := Prod.mk.inj recorded.rowIs
  obtain ⟨committed, patchId⟩ := Prod.mk.inj rest
  rw [hasIdempotency, recorded.idempotency, lookup_append_single _ _ recorded.newKey, rowKey]
  split
  · rw [map_some, committed, patchId]
  rfl

theorem commit_evolves (sound : Consistent c.store) : Evolves c.store c.after := by
  obtain ⟨version, patch, row, recorded⟩ := commit_recorded sound
  refine ⟨fun graphId record found => ?_, fun key result hit => ?_⟩
  · rw [Commit.after_record sound]
    by_cases here : graphId = c.graphId
    · obtain rfl : c.record = record := some.inj (c.found.symm.trans (here ▸ found))
      rw [if_pos here]
      refine ⟨_, rfl, .inl ?_⟩
      change c.record.currentVersion < c.version
      rw [Commit.version]
      omega
    rw [if_neg here]
    obtain ⟨_, _, _, clean⟩ := Commit.clean sound
    have same := clean.sameGraph here
    refine ⟨record, found, .inr ⟨rfl, same.nodes, same.edges, fun key onGraph => ?_⟩⟩
    rw [commit_result sound, if_neg]
    rintro rfl
    exact here onGraph.symm
  · rw [commit_result sound, if_neg, hit]
    rintro rfl
    apply recorded.newKey
    obtain ⟨rowKey, _⟩ := Prod.mk.inj recorded.rowIs
    rw [rowKey]
    obtain ⟨known, stored, _⟩ := map_eq_some_iff.mp hit
    exact lookup_isSome.mp (isSome_iff_exists.mpr ⟨known, stored⟩)

/-- Every request makes the store evolve. -/
theorem perform_evolves (sound : Consistent store) : Evolves store (perform store request) := by
  cases request with
  | create ownerPid graphId metadata =>
    rw [perform]
    rcases createGraph_cases with same | ⟨unused, eq⟩
    · rw [same]
      exact .refl store
    rw [eq]
    refine ⟨fun other record found => ⟨record, ?_, .inr ⟨rfl, rfl, rfl, fun _ _ => rfl⟩⟩, fun _ _ => id⟩
    exact created_getRecord_old unused found
  | close graphId =>
    refine ⟨fun other record found => ?_, fun _ _ => id⟩
    rw [perform, close_getRecord, found]
    split
    · exact ⟨_, rfl, .inr ⟨rfl, rfl, rfl, fun _ _ => rfl⟩⟩
    exact ⟨_, rfl, .inr ⟨rfl, rfl, rfl, fun _ _ => rfl⟩⟩
  | submit env sub =>
    rcases perform_submit store env sub with same | ⟨c, rfl, rfl, rfl, eq⟩
    · rw [same]
      exact .refl store
    rw [eq]
    exact commit_evolves sound

end LongHorizonOS.StoreEvolution
