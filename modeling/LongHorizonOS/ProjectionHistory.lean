import LongHorizonOS.CommittedRuns
import LongHorizonOS.HistoryCompaction

/-! The history of every graph, over runs that commit and compact in any order.
A commit appends revisions and hides nothing; a compaction rebases the log and
raises the floor. So the versions from the floor on stay what they were when
they were current. -/
namespace LongHorizonOS.ProjectionHistory
open KeyedRows PythonValues GraphModels FailFast CommitGuards GraphStore List
open Option hiding map map_map
open StoreConsistency RevisionLog HistoryCompaction CommittedRuns

/-! ## One step -/

/-- What a step does to one graph: it may be created, its version may advance by
one, its floor may rise, and what the history holds above the floor stays. -/
structure Advances (store after : Store) (graphId : String) : Prop where
  version : versionOf after graphId = versionOf store graphId ∨
    (∃ version, versionOf store graphId = some version ∧ versionOf after graphId = some (version + 1)) ∨
    versionOf store graphId = none ∧ versionOf after graphId = some 0
  floor : ∀ floor, RetainedFrom store graphId floor →
    ∃ floor', floor ≤ floor' ∧ RetainedFrom after graphId floor'
  held : ∀ version content floor, Reached store graphId version →
    RetainedFrom after graphId floor → floor ≤ version →
    Held store graphId version content → Held after graphId version content

section
variable {store after : Store} {version floor : Int}

theorem Advances.same (same : SameGraph store after graphId)
    (records : versionOf after graphId = versionOf store graphId) : Advances store after graphId :=
  ⟨.inl records, fun floor retained => ⟨floor, le_refl floor, retained.frame same⟩,
    fun _ _ _ _ _ _ held => held.frame same⟩

/-- A step that advances every graph keeps the history complete. -/
theorem archived_advances (sound : Consistent store) (next : Consistent after)
    (archived : Archived store) (advances : ∀ graphId, Advances store after graphId) : Archived after := by
  intro graphId current floor found retained version above below
  rcases eq_or_lt_of_le below with rfl | earlier
  · exact ⟨_, held_current next found⟩
  have before : ∃ old, versionOf store graphId = some old ∧ version ≤ old := by
    have nonneg := retained.nonneg
    rcases (advances graphId).version with same | ⟨old, was, now⟩ | ⟨_, now⟩
    · exact ⟨current, same ▸ found, below⟩
    · rw [found, some.injEq] at now
      exact ⟨old, was, by omega⟩
    rw [found, some.injEq] at now
    omega
  obtain ⟨old, was, reached⟩ := before
  obtain ⟨oldFloor, _, oldRetained⟩ := floor_exists sound was
  obtain ⟨raised, risen, retained'⟩ := (advances graphId).floor oldFloor oldRetained
  obtain rfl := retained.unique retained'
  obtain ⟨content, held⟩ := archived graphId old oldFloor was oldRetained version (by omega) reached
  obtain ⟨record, hit, rfl⟩ := versionOf_some.mp was
  exact ⟨content, (advances graphId).held version content floor ⟨record, hit, reached⟩ retained above held⟩

/-! ### Commits -/

/-- A commit hides no revision of an earlier version. -/
theorem commit_held (clean : CleanCommit r authority store after record parentNodes parentEdges d3Results)
    (earlier : version < r.committedVersion) (held : Held store r.patch.graphId version content) :
    Held after r.patch.graphId version content := by
  refine ⟨?_, ?_, ?_, ?_, held.endpoints, held.distinctNodes, held.distinctEdges⟩
  · rw [clean.versionHash, if_neg (Int.ne_of_lt earlier)]
    exact held.versionHash
  · rw [clean.snapshotHash, if_neg (Int.ne_of_lt earlier)]
    exact held.snapshotHash
  · rw [nodesAt, clean.nodeHistory, latest_append_before earlier fun row member => ?_]
    · exact held.nodes
    obtain ⟨_, _, rfl⟩ := mem_nodeRevisions.mp member
    rfl
  rw [edgesAt, clean.edgeHistory, latest_append_before earlier fun row member => ?_]
  · exact held.edges
  obtain ⟨_, _, rfl⟩ := mem_edgeRevisions.mp member
  rfl

theorem commit_advances (sound : Consistent store)
    (committed : commitPatch r authority store = (.ok (), after)) (graphId) : Advances store after graphId := by
  obtain ⟨record, parentNodes, parentEdges, d3Results, clean⟩ := commit_clean sound committed
  have records := clean.getRecord graphId
  by_cases here : graphId = r.patch.graphId
  · subst here
    rw [if_pos rfl] at records
    have was : versionOf store r.patch.graphId = some record.currentVersion :=
      versionOf_some.mpr ⟨record, clean.found, rfl⟩
    have later := clean.later
    have now : versionOf after r.patch.graphId = some (record.currentVersion + 1) := by
      rw [versionOf, records, map_some, clean.version]
    refine ⟨.inr (.inl ⟨_, was, now⟩), fun floor retained => ⟨floor, le_refl floor, retained.nonneg, ?_⟩,
      fun version content _ reached _ _ held => commit_held clean ?_ held⟩
    · obtain ⟨floor', below, retained'⟩ := floor_exists sound was
      obtain rfl := retained.unique retained'
      have retention : after.retention = store.retention := by
        rw [clean.written]
        rfl
      rw [retention, clean.versionHash, clean.snapshotHash, if_neg (by omega), if_neg (by omega)]
      exact retained.contract
    · have bound := reached_le reached was
      omega
  · rw [if_neg here] at records
    exact .same (clean.sameGraph here) (by rw [versionOf, records, versionOf])

/-! ### Creating and closing graphs -/

theorem close_advances (closing graphId) : Advances store (closeGraph closing store).2 graphId := by
  refine .same ⟨rfl, rfl, fun _ => rfl, fun _ => rfl, rfl, rfl, rfl⟩ ?_
  rw [versionOf, close_getRecord]
  split
  · rw [Option.map_map]
    rfl
  · rfl

theorem create_advances (record) (start : record.currentVersion = 0) (graphId) :
    Advances store (createGraph record store).2 graphId := by
  rcases createGraph_cases with same | ⟨unused, eq⟩
  · rw [same]
    exact .same ⟨rfl, rfl, fun _ => rfl, fun _ => rfl, rfl, rfl, rfl⟩ rfl
  rw [eq]
  have records := created_getRecord unused graphId
  by_cases here : graphId = record.graphId
  · subst here
    have missing := unused.missing
    rw [if_pos rfl] at records
    refine ⟨.inr (.inr ⟨?_, ?_⟩), fun floor retained => ?_, fun version content _ reached => ?_⟩
    · rw [versionOf, missing]
      rfl
    · rw [versionOf, records, map_some, start]
    · obtain ⟨_, found, _⟩ := retained.contract
      rw [lookup_eq_none.mpr unused.retention] at found
      cases found
    obtain ⟨_, found, _⟩ := reached
    rw [missing] at found
    cases found
  · rw [if_neg here] at records
    exact .same (created_sameGraph unused here) (by rw [versionOf, records, versionOf])

/-! ### Compactions -/

/-- A compaction raises the floor of one graph. -/
theorem compacted_advances (sound : Consistent store) (held : Held store graphId version content)
    (retained : RetainedFrom store graphId floor) (above : floor ≤ version) (other) : Advances store
    (compacted graphId version (checkpointAt graphId version floor current content) store) other := by
  by_cases here : other = graphId
  · subst here
    have now : RetainedFrom (compacted other version (checkpointAt other version floor current content) store)
        other version := compacted_retained held retained above
    refine ⟨.inl rfl, fun old was => ⟨version, ?_, now⟩, fun later kept floor' _ after below was => ?_⟩
    · rw [was.unique retained]
      exact above
    · exact compacted_held sound held (now.unique after ▸ below) was
  · exact .same (compacted_sameGraph here) rfl

end

/-! ## Runs -/

/-- The tables agree, and no version above the floor is missing. -/
structure Complete (store : Store) : Prop where
  consistent : Consistent store
  archived : Archived store

theorem empty_complete : Complete {} := by
  refine ⟨empty_consistent, fun graphId current floor found => ?_⟩
  cases found

variable {after store : Store}

theorem Complete.next (complete : Complete store) (sound : Consistent after)
    (advances : ∀ graphId, Advances store after graphId) : Complete after ∧ ∀ graphId, Advances store after graphId :=
  ⟨⟨sound, archived_advances complete.consistent sound complete.archived advances⟩, advances⟩

theorem Complete.unchanged (complete : Complete store) : Complete store ∧ ∀ graphId, Advances store store graphId :=
  ⟨complete, fun _ => .same ⟨rfl, rfl, fun _ => rfl, fun _ => rfl, rfl, rfl, rfl⟩ rfl⟩

theorem Advances.reached {version} (advances : Advances store after graphId)
    (reached : Reached store graphId version) : Reached after graphId version := by
  obtain ⟨record, hit, bound⟩ := reached
  have was : versionOf store graphId = some record.currentVersion := versionOf_some.mpr ⟨record, hit, rfl⟩
  have later : ∃ now, versionOf after graphId = some now ∧ record.currentVersion ≤ now := by
    rcases advances.version with same | ⟨old, old', now⟩ | ⟨missing, _⟩
    · exact ⟨_, same.trans was, le_refl _⟩
    · rw [was, some.injEq] at old'
      exact ⟨_, now, by omega⟩
    rw [was] at missing
    cases missing
  obtain ⟨now, found, above⟩ := later
  obtain ⟨record', hit', rfl⟩ := versionOf_some.mp found
  exact ⟨record', hit', bound.trans above⟩

section
variable {ρ : Type} {history : List ρ → Store} (start : history [] = {})
  (steps : ∀ before event, Complete (history before) → Complete (history (before ++ [event])) ∧
    ∀ graphId, Advances (history before) (history (before ++ [event])) graphId)
include start steps

theorem run_complete (events) : Complete (history events) := by
  induction events using List.reverseRecOn with
  | nil =>
    rw [start]
    exact empty_complete
  | append_singleton events event ih => exact (steps events event ih).1

/-- A version that was current is held with the content it had then, as long as
it is not below the floor. -/
theorem run_held (found : versionOf (history before) graphId = some version) :
    Reached (history (before ++ later)) graphId version ∧
      ∀ floor, RetainedFrom (history (before ++ later)) graphId floor → floor ≤ version →
        Held (history (before ++ later)) graphId version (committed (history before) graphId) := by
  induction later using List.reverseRecOn with
  | nil =>
    rw [append_nil]
    obtain ⟨record, hit, rfl⟩ := versionOf_some.mp found
    exact ⟨⟨record, hit, le_refl _⟩, fun _ _ _ =>
      held_current (run_complete start steps before).consistent found⟩
  | append_singleton later event ih =>
    obtain ⟨reached, held⟩ := ih
    have complete := run_complete start steps (before ++ later)
    rw [← append_assoc]
    have advances := (steps _ event complete).2 graphId
    refine ⟨advances.reached reached, fun floor retained above => ?_⟩
    obtain ⟨record, hit, _⟩ := id reached
    obtain ⟨oldFloor, _, oldRetained⟩ := floor_exists complete.consistent (versionOf_some.mpr ⟨record, hit, rfl⟩)
    obtain ⟨raised, risen, retained'⟩ := advances.floor oldFloor oldRetained
    obtain rfl := retained.unique retained'
    exact advances.held version _ floor reached retained above (held oldFloor oldRetained (risen.trans above))

/-- Every version below the current one was left by one event, for the next. -/
theorem run_advance (found : versionOf (history events) graphId = some current)
    (nonneg : 0 ≤ version) (below : version < current) : ∃ before event later, events = before ++ event :: later ∧
      versionOf (history before) graphId = some version ∧
      versionOf (history (before ++ [event])) graphId = some (version + 1) := by
  induction events using List.reverseRecOn generalizing current with
  | nil =>
    rw [start] at found
    cases found
  | append_singleton events event ih =>
    have before : ∀ {old}, versionOf (history events) graphId = some old → version < old →
        ∃ before event' later, events ++ [event] = before ++ event' :: later ∧
          versionOf (history before) graphId = some version ∧
          versionOf (history (before ++ [event'])) graphId = some (version + 1) := by
      intro old was earlier
      obtain ⟨front, middle, rest, rfl, left, entered⟩ := ih was earlier
      exact ⟨front, middle, rest ++ [event], by simp, left, entered⟩
    rcases ((steps events event (run_complete start steps events)).2 graphId).version with
      same | ⟨old, was, now⟩ | ⟨_, now⟩
    · exact before (same ▸ found) below
    · obtain rfl := some.inj (found.symm.trans now)
      rcases eq_or_lt_of_le (Int.lt_add_one_iff.mp below) with rfl | earlier
      · exact ⟨events, event, [], rfl, was, now⟩
      exact before was earlier
    · obtain rfl := some.inj (found.symm.trans now)
      omega

/-- Every version up to the current one has been the current one. -/
theorem run_reached (found : versionOf (history events) graphId = some current)
    (nonneg : 0 ≤ version) (below : version ≤ current) : ∃ before later, events = before ++ later ∧
      versionOf (history before) graphId = some version := by
  rcases eq_or_lt_of_le below with rfl | earlier
  · exact ⟨events, [], (append_nil _).symm, found⟩
  obtain ⟨before, event, later, rfl, left, _⟩ := run_advance start steps found nonneg earlier
  exact ⟨before, event :: later, rfl, left⟩

end

/-! ## Runs of commits and compactions -/

/-- A request to the store. -/
inductive HistoryRequest where
  | create (ownerPid graphId : String) (metadata : Dict)
  | close (graphId : String)
  | commit (authority : Authority) (request : CommitRequest)
  | compact (graphId : String) (retainFromVersion : Int) (compactedBy reason : String)

/-- The store after a request, whether it returned or raised. -/
def serve (store : Store) : HistoryRequest → Store
  | .create ownerPid graphId metadata =>
    (createGraph { graphId := graphId, ownerPid := ownerPid, metadata := metadata } store).2
  | .close graphId => (closeGraph graphId store).2
  | .commit authority request => (commitPatch request authority store).2
  | .compact graphId retainFromVersion compactedBy reason =>
    (compactProjectionHistory graphId retainFromVersion compactedBy reason store).2

def serveAll (requests : List HistoryRequest) : Store := requests.foldl serve {}

theorem serveAll_nil : serveAll [] = {} := rfl

theorem serveAll_append : serveAll (requests ++ [request]) = serve (serveAll requests) request := by
  rw [serveAll, foldl_append]
  rfl

theorem commit_complete (complete : Complete store) (committed : commitPatch r authority store = (.ok (), after)) :
    Complete after ∧ ∀ graphId, Advances store after graphId := by
  obtain ⟨_, _, _, _, clean⟩ := commit_clean complete.consistent committed
  exact complete.next (clean.consistent complete.consistent) (commit_advances complete.consistent committed)

/-- A compaction that returned has raised the floor of its graph to the new one,
and has changed nothing that the history holds from there on. -/
theorem compact_complete (complete : Complete store)
    (ran : compactProjectionHistory graphId floor compactedBy reason store = (.ok result, after)) :
    (Complete after ∧ ∀ graphId, Advances store after graphId) ∧ RetainedFrom after graphId floor := by
  obtain ⟨_, _, checkpoint, read, changed⟩ := compactProjectionHistory_ok.mp ran
  obtain ⟨oldFloor, current, content, found, retained, above, below, held, rfl⟩ :=
    (readCheckpoint_iff complete.consistent complete.archived).mp read
  rcases changed with ⟨same, rfl, _⟩ | ⟨_, _, rfl, _⟩
  · obtain rfl : floor = oldFloor := same
    exact ⟨complete.unchanged, retained⟩
  exact ⟨complete.next (compacted_consistent complete.consistent held found retained above below)
    (compacted_advances complete.consistent held retained above), compacted_retained held retained above⟩

theorem serve_complete (complete : Complete store) :
    Complete (serve store request) ∧ ∀ graphId, Advances store (serve store request) graphId := by
  cases request with
  | create ownerPid graphId metadata =>
    exact complete.next (create_consistent rfl complete.consistent) (create_advances _ rfl)
  | close graphId =>
    exact complete.next (close_consistent complete.consistent) (close_advances graphId)
  | commit authority request =>
    rw [serve]
    rcases ran : commitPatch request authority store with ⟨failure | _, after⟩
    · obtain rfl := commitPatch_allOrNothing _ _ _ ran
      exact complete.unchanged
    · exact commit_complete complete ran
  | compact graphId retainFromVersion compactedBy reason =>
    rw [serve]
    rcases ran : compactProjectionHistory graphId retainFromVersion compactedBy reason store with
      ⟨failure | result, after⟩
    · obtain rfl := compactProjectionHistory_allOrNothing _ _ _ _ _ ran
      exact complete.unchanged
    · exact (compact_complete complete ran).1

theorem serveAll_steps (before) (request)
    (complete : Complete (serveAll before)) : Complete (serveAll (before ++ [request])) ∧
      ∀ graphId, Advances (serveAll before) (serveAll (before ++ [request])) graphId := by
  rw [serveAll_append]
  exact serve_complete complete

/-! ## History equals snapshots -/

def prunedError (graphId : String) (version floor : Int) : Failure :=
  .vpg .graphHistoryPruned ("graph " ++ quoted graphId ++ " version " ++ toString version ++
    " was pruned; earliest recoverable version is " ++ toString floor)

/-- The history of a store says what the versions contained. The versions are
those that were current after some first part of the run. -/
structure FaithfulHistory (requests : List HistoryRequest) : Prop where
  versions : ∀ graphId current, versionOf (serveAll requests) graphId = some current →
    ∀ version, 0 ≤ version → version ≤ current → ∃ before later, requests = before ++ later ∧
      versionOf (serveAll before) graphId = some version
  contract : ∀ graphId current, versionOf (serveAll requests) graphId = some current →
    ∃ contract, getHistoryRetentionContract (serveAll requests) graphId = .ok contract ∧
      0 ≤ contract.earliestRecoverableVersion ∧ contract.earliestRecoverableVersion ≤ current
  loads : ∀ before later graphId version contract, requests = before ++ later →
    versionOf (serveAll before) graphId = some version →
    getHistoryRetentionContract (serveAll requests) graphId = .ok contract →
    contract.earliestRecoverableVersion ≤ version →
    loadProjectionSnapshot (serveAll requests) graphId version =
      .ok (committed (serveAll before) graphId).sorted
  refuses : ∀ graphId version contract, getHistoryRetentionContract (serveAll requests) graphId = .ok contract →
    version < contract.earliestRecoverableVersion →
    loadProjectionSnapshot (serveAll requests) graphId version =
      .error (prunedError graphId version contract.earliestRecoverableVersion)
  compacts : ∀ graphId current contract floor compactedBy reason,
    versionOf (serveAll requests) graphId = some current →
    getHistoryRetentionContract (serveAll requests) graphId = .ok contract →
    contract.earliestRecoverableVersion ≤ floor → floor ≤ current →
    strip compactedBy ≠ "" → strip reason ≠ "" → ∃ result after,
      compactProjectionHistory graphId floor compactedBy reason (serveAll requests) = (.ok result, after) ∧
      result.earliestRecoverableVersion = floor ∧
      ∀ version, floor ≤ version → version ≤ current → loadProjectionSnapshot after graphId version =
          loadProjectionSnapshot (serveAll requests) graphId version

section
variable {store : Store} {graphId : String} (complete : Complete store)
include complete

/-- The contract names the floor. -/
theorem contract_floor (contracted : getHistoryRetentionContract store graphId = .ok contract) :
    ∃ current, versionOf store graphId = some current ∧ contract.earliestRecoverableVersion ≤ current ∧
      RetainedFrom store graphId contract.earliestRecoverableVersion := by
  obtain ⟨record, hit, _⟩ := bind_ok.mp contracted
  have found : versionOf store graphId = some record.currentVersion :=
    versionOf_some.mpr ⟨record, demand_ok.mp hit, rfl⟩
  obtain ⟨floor, below, retained⟩ := floor_exists complete.consistent found
  obtain ⟨hash, contracted'⟩ := retentionContract_ok (demand_ok.mp hit) below retained
  rw [contracted', Except.ok.injEq] at contracted
  subst contracted
  exact ⟨_, found, below, retained⟩

/-- A version that is held loads as its content. -/
theorem load_kept (found : versionOf store graphId = some current)
    (retained : RetainedFrom store graphId floor) (held : Held store graphId version content)
    (above : floor ≤ version) (below : floor ≤ current) :
    loadProjectionSnapshot store graphId version = .ok content.sorted := by
  obtain ⟨record, hit, rfl⟩ := versionOf_some.mp found
  exact load_held complete.consistent held hit below retained above

/-- A legal floor with an operator and a reason is accepted. -/
theorem compaction_succeeds (found : versionOf store graphId = some current)
    (retained : RetainedFrom store graphId oldFloor) (above : oldFloor ≤ floor)
    (below : floor ≤ current) (named : strip compactedBy ≠ "") (explained : strip reason ≠ "") : ∃ result after,
    compactProjectionHistory graphId floor compactedBy reason store = (.ok result, after) ∧
        result.earliestRecoverableVersion = floor := by
  obtain ⟨content, held⟩ := complete.archived graphId current oldFloor found retained floor above below
  have read := (readCheckpoint_iff complete.consistent complete.archived).mpr
    ⟨oldFloor, current, content, found, retained, above, below, held, rfl⟩
  by_cases same : floor = oldFloor
  · exact ⟨_, store, compactProjectionHistory_ok.mpr ⟨named, explained, _, read, .inl ⟨same, rfl, rfl⟩⟩, rfl⟩
  have next := complete.next (compacted_consistent complete.consistent held found retained above below)
    (compacted_advances complete.consistent held retained above)
  have kept : RetainedFrom (compacted graphId floor (checkpointAt graphId floor oldFloor current content)
      store) graphId floor := compacted_retained held retained above
  refine ⟨_, _, compactProjectionHistory_ok.mpr ⟨named, explained, _, read, .inr
    ⟨same, checkpoint_fresh held, rfl, loadRetained_ok.mpr fun version from_ to_ => ?_, rfl⟩⟩, rfl⟩
  obtain ⟨content', held'⟩ := next.1.archived graphId current floor found kept version from_ to_
  exact ⟨_, load_kept next.1 found kept held' from_ below⟩

end

/-- The incremental history of every run, compactions included, returns exactly
the committed projections. -/
theorem history_returns_committed_projections (requests : List HistoryRequest) : FaithfulHistory requests := by
  have complete : Complete (serveAll requests) := run_complete serveAll_nil serveAll_steps requests
  refine ⟨fun graphId current found version => run_reached serveAll_nil serveAll_steps found, ?_, ?_, ?_, ?_⟩
  · intro graphId current found
    obtain ⟨floor, below, retained⟩ := floor_exists complete.consistent found
    obtain ⟨record, hit, rfl⟩ := versionOf_some.mp found
    obtain ⟨hash, contracted⟩ := retentionContract_ok hit below retained
    exact ⟨_, contracted, retained.nonneg, below⟩
  · rintro before later graphId version contract rfl was contracted above
    obtain ⟨current, found, below, retained⟩ := contract_floor complete contracted
    exact load_kept complete found retained ((run_held serveAll_nil serveAll_steps was).2 _ retained above) above below
  · intro graphId version contract contracted below
    rw [loadProjectionSnapshot, contracted]
    have refused : ¬ contract.earliestRecoverableVersion ≤ version := Int.not_le.mpr below
    simp [bind, Except.bind, require, refused, prunedError]
  · intro graphId current contract floor compactedBy reason found contracted above below named explained
    obtain ⟨_, found', floorBelow, retained⟩ := contract_floor complete contracted
    obtain rfl := some.inj (found.symm.trans found')
    obtain ⟨result, after, ran, raised⟩ :=
      compaction_succeeds complete found retained above below named explained
    obtain ⟨⟨next, advances⟩, kept⟩ := compact_complete complete ran
    refine ⟨result, after, ran, raised, fun version from_ to_ => ?_⟩
    obtain ⟨content, held⟩ := complete.archived graphId _ _ found retained version (above.trans from_) to_
    obtain ⟨record, hit, rfl⟩ := versionOf_some.mp found
    have held' := (advances graphId).held version content floor ⟨record, hit, to_⟩ kept from_ held
    obtain ⟨record', hit', above'⟩ := (advances graphId).reached ⟨record, hit, le_refl _⟩
    rw [load_kept complete found retained held (above.trans from_) floorBelow,
      load_kept next (versionOf_some.mpr ⟨record', hit', rfl⟩) kept held' from_ (below.trans above')]

end LongHorizonOS.ProjectionHistory
