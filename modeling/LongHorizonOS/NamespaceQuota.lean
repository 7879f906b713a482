import LongHorizonOS.ReadYourWrites

/-! The quota of a namespace. It is checked when contents are staged, against the bytes
that are committed by then, and not again when they are committed. -/
namespace LongHorizonOS.NamespaceQuota
open KeyedRows KernelTasks List
open ArtifactUri ArtifactModels ArtifactService ArtifactHistory ArtifactRuns ReadYourWrites

inductive WriteCall (γ : Type) where
  | beginWrite (pid uri idempotencyKey : String) (expectedVersion : Option Int)
  | stage (transactionId : String) (content : γ)
  | commit (transactionId : String)
  | abort (transactionId : String)

/-- A world, and the transactions that were staged since the last commit. -/
structure Progress (γ : Type) where
  world : FsWorld γ
  fresh : List String := []

section
variable {γ : Type} (rules : TextRules) (digest : Digest γ)

def next (past : Progress γ) : WriteCall γ → Progress γ
  | .beginWrite pid uri key expectedVersion =>
    { past with world := ((beginWrite rules pid uri key expectedVersion).alone past.world).2 }
  | .stage transactionId content =>
    let (result, world) := (stage digest transactionId content).alone past.world
    { world, fresh := if result.toOption.isSome then transactionId :: past.fresh else past.fresh }
  | .commit transactionId => { world := ((commit digest transactionId).alone past.world).2 }
  | .abort transactionId => { past with world := ((abort transactionId).alone past.world).2 }

/-- A transaction that is staged is committed before any other commit. -/
def prompt (past : Progress γ) : WriteCall γ → Bool
  | .commit transactionId => decide (transactionId ∈ past.fresh) ||
    (past.world.tables.getTransaction transactionId).all fun txn => decide (txn.state ≠ .staged)
  | _ => true

def prompts : Progress γ → List (WriteCall γ) → Bool
  | _, [] => true
  | past, call :: rest => prompt past call && prompts (next rules digest past call) rest

/-- There are the given namespaces and nothing else. -/
def start (kernel : World) (namespaces : List ArtifactNamespace) : Progress γ :=
  { world := { kernel, tables := { namespaces } } }

variable {rules digest} {w w' : FsWorld γ}

/-! ## The bytes of a namespace -/

variable {ns : String}

/-- An artifact that was there is in the namespace it was in. -/
theorem mem_homes_iff (idle : Idle w.tables w'.tables) (sound : Sound w')
    (known : artifactId ∈ w.tables.artifacts.map ArtifactRecord.artifactId) :
    (artifactId, ns) ∈ w'.tables.artifacts.map home ↔ (artifactId, ns) ∈ w.tables.artifacts.map home := by
  refine ⟨fun after => ?_, idle.homes _⟩
  obtain ⟨record, stored, rfl⟩ := mem_map.mp known
  obtain ⟨kept, listed, same⟩ := mem_map.mp (idle.homes _ (mem_map_of_mem stored))
  obtain ⟨found, member, named⟩ := mem_map.mp after
  have ids : found.artifactId = kept.artifactId := (congrArg Prod.fst named).trans (congrArg Prod.fst same).symm
  have one : found = kept := inj_on_of_nodup_map sound.artifactIds member listed ids
  rw [← named, one, same]
  exact mem_map_of_mem stored

theorem countCommittedBytes_eq (tables : ArtifactTables) :
    tables.countCommittedBytes ns = ((tables.versions.filter fun row =>
      decide ((row.artifactId, ns) ∈ tables.artifacts.map home)).map ArtifactVersion.sizeBytes).sum := by
  simp only [ArtifactTables.countCommittedBytes, mem_map, home, Prod.mk.injEq]

variable (ns) in
/-- What is added to the versions is added to the bytes. -/
theorem countCommittedBytes_append (idle : Idle w.tables w'.tables) (sound : Sound w)
    (sound' : Sound w') (versions : w'.tables.versions = w.tables.versions ++ added)
    (known : ∀ row ∈ added, row.artifactId ∈ w.tables.artifacts.map ArtifactRecord.artifactId) :
    w'.tables.countCommittedBytes ns = w.tables.countCommittedBytes ns +
    ((added.filter fun row => decide ((row.artifactId, ns) ∈ w.tables.artifacts.map home)).map
        ArtifactVersion.sizeBytes).sum := by
  have listed : ∀ row ∈ w'.tables.versions, row.artifactId ∈ w.tables.artifacts.map ArtifactRecord.artifactId := by
    rw [versions]
    refine forall_mem_append.mpr ⟨fun row old => ?_, known⟩
    obtain ⟨record, stored, named, -⟩ := sound.bounded row old
    exact named ▸ mem_map_of_mem stored
  rw [countCommittedBytes_eq, countCommittedBytes_eq, filter_congr fun row member =>
    decide_eq_decide.mpr (mem_homes_iff idle sound' (listed row member)), versions, filter_append, map_append,
    sum_append]

theorem idle_committed (committable : Committable digest w txn artifact) (contentRef : String) :
    Idle w.tables (committedTables w.tables artifact txn contentRef) := by
  have same : artifact.artifactId = txn.artifactId := lookup_key committable.found
  refine ⟨rfl, (Idle.upsertTransaction (by simp) : Idle w.tables _).staged, fun pair member => ?_⟩
  change pair ∈ (upsert ArtifactRecord.artifactId _ w.tables.artifacts).map home
  rw [map_upsert_stored]
  · exact member
  · exact same ▸ committable.found
  rfl

/-! ## Histories -/

variable {past : Progress γ}

variable (digest ns quota) in
/-- The bytes are within the quota, also with any one of the transactions staged since
the last commit. -/
structure Within (past : Progress γ) : Prop where
  orderly : Orderly digest past.world
  limited : (past.world.tables.getNamespace ns).bind ArtifactNamespace.quotaBytes = some quota
  within : (past.world.tables.countCommittedBytes ns : Int) ≤ quota
  room : ∀ txn ∈ past.world.tables.transactions, txn.state = .staged → txn.transactionId ∈ past.fresh →
    (txn.artifactId, ns) ∈ past.world.tables.artifacts.map home →
      (past.world.tables.countCommittedBytes ns + txn.stagedSizeBytes : Int) ≤ quota

section
variable (within : Within digest ns quota past)
include within

theorem Within.idle (idle : Idle past.world.tables w'.tables)
    (orderly : Orderly digest w') (versions : w'.tables.versions = past.world.tables.versions) :
    Within digest ns quota { past with world := w' } := by
  have sound := within.orderly.sound
  have same := countCommittedBytes_append ns idle sound orderly.sound (versions.trans (append_nil _).symm) nofun
  constructor
  case orderly => exact orderly
  case limited =>
    rw [ArtifactTables.getNamespace, idle.namespaces]
    exact within.limited
  case within =>
    rw [same]
    exact within.within
  case room =>
    intro txn member staged fresh owned
    rw [same]
    have stored := idle.staged txn member staged
    exact within.room txn stored staged fresh ((mem_homes_iff idle orderly.sound (sound.based txn stored)).mp owned)

theorem Within.stage (content : γ) :
    Within digest ns quota (next rules digest past (.stage transactionId content)) := by
  rw [next]
  have cases := stage_cases digest past.world transactionId content
  generalize (ArtifactService.stage digest transactionId content).alone past.world = ended at cases
  obtain ⟨result, world⟩ := ended
  rcases cases with ⟨effects, tables, failed⟩ | ⟨txn, found, pending, rfl, fits⟩
  · obtain ⟨orderly, steady⟩ := within.orderly.effects effects
    cases result with
    | ok staged => exact absurd rfl (failed staged)
    | error failure => exact within.idle (tables ▸ .refl _) orderly steady.versions
  obtain rfl : txn.transactionId = transactionId := lookup_key found
  have distinct := within.orderly.sound.transactionIds
  refine ⟨(within.orderly.effect (.staged content found pending)).1, within.limited, within.within, ?_⟩
  have rewritten : past.world.tables.upsertTransaction (stagedAs digest txn content) = _ :=
    ArtifactTables.upsertTransaction_found found rfl
  intro other member staged fresh owned
  change other ∈ (past.world.tables.upsertTransaction _).transactions at member
  rw [rewritten, mem_upsert_iff distinct] at member
  rcases member with rfl | ⟨old, different⟩
  · obtain ⟨record, stored, named⟩ := mem_map.mp owned
    obtain ⟨same, rfl⟩ := Prod.mk.inj named
    exact fits record (same ▸ lookup_of_mem within.orderly.sound.artifactIds stored) quota within.limited
  refine within.room other old staged ?_ owned
  dsimp only at fresh
  split at fresh
  · exact (mem_cons.mp fresh).resolve_left different
  exact fresh

theorem Within.commit (ready : prompt past (.commit transactionId : WriteCall γ) = true) :
    Within digest ns quota (next rules digest past (.commit transactionId)) := by
  rw [next]
  rcases commit_cases digest past.world transactionId with
    ⟨⟨effects, idle⟩, -⟩ | ⟨txn, artifact, kernel, committable, rfl, grown, ended⟩
  · obtain ⟨orderly, steady⟩ := within.orderly.effects effects
    exact { within.idle idle orderly steady.versions with room := nofun }
  rw [ended]
  have same : artifact.artifactId = txn.artifactId := lookup_key committable.found
  have listed : txn ∈ past.world.tables.transactions := lookup_mem committable.stored
  have fresh : txn.transactionId ∈ past.fresh := by
    simpa [prompt, committable.stored, committable.staged] using ready
  obtain ⟨orderly, versions⟩ := within.orderly.commit committable grown
  have idle := idle_committed committable (recordedRef digest past.world txn)
  have counted := countCommittedBytes_append ns idle within.orderly.sound orderly.sound versions
    (forall_mem_singleton.mpr (mem_map_of_mem (lookup_mem committable.found)))
  refine ⟨orderly, within.limited, ?_, nofun⟩
  refine (congrArg Int.ofNat counted).trans_le ?_
  rw [filter_cons]
  split
  · rename_i owned
    have fits := within.room txn listed committable.staged fresh (same ▸ of_decide_eq_true owned)
    simpa [nextVersion] using fits
  · simpa using within.within

theorem Within.call {call} (ready : prompt past call = true) :
    Within digest ns quota (next rules digest past call) := by
  have effects : ∀ {w'}, IdleEffects digest past.world w' →
      Within digest ns quota { past with world := w' } := fun idle => by
    obtain ⟨orderly, steady⟩ := within.orderly.effects idle.effects
    exact within.idle idle.idle orderly steady.versions
  cases call with
  | beginWrite pid uri key expectedVersion => exact effects (idle_beginWrite pid uri key expectedVersion)
  | stage transactionId content => exact within.stage content
  | commit transactionId => exact within.commit ready
  | abort transactionId => exact effects (idle_abort transactionId)

theorem Within.run (ready : prompts rules digest past calls = true) :
    Within digest ns quota (calls.foldl (next rules digest) past) := by
  induction calls generalizing past with
  | nil => exact within
  | cons call rest ih =>
    obtain ⟨now, later⟩ := Bool.and_eq_true_iff.mp ready
    exact ih (within.call now) later

end

end

/-- Any history of writes on namespaces of which one has a quota: when no other commit
comes between the staging of a transaction and its commit, the committed bytes of the
namespace are within the quota. -/
theorem committed_bytes_within_quota {γ : Type} (rules : TextRules) (digest : Digest γ) (kernel : World)
    (namespaces : List ArtifactNamespace) (namespaceId : String) (quota : Int) (calls : List (WriteCall γ))
    (limited : (lookup ArtifactNamespace.namespaceId namespaces namespaceId).bind
      ArtifactNamespace.quotaBytes = some quota)
    (positive : 0 ≤ quota) (ready : prompts rules digest (start kernel namespaces) calls = true) :
    ((calls.foldl (next rules digest) (start kernel namespaces)).world.tables.countCommittedBytes namespaceId : Int)
      ≤ quota := by
  have begun : Within digest namespaceId quota (start kernel namespaces : Progress γ) := by
    refine ⟨?_, limited, positive, nofun⟩
    exact (orderly_start kernel).congr le_rfl rfl rfl rfl nofun
  exact (begun.run ready).within

/-- A namespace with room for two bytes. -/
def twoBytes : List ArtifactNamespace :=
  [{ namespaceId := "ns-p", ownerPid := "p", rootUri := "artifact://ns-p/", quotaBytes := some 2
     maxOpenHandles := none }]

def writes (calls : List (WriteCall String)) : Progress String :=
  calls.foldl (next plainRules plainDigest) (start ReadYourWrites.owner twoBytes)

/-- Two bytes are staged for each of two files before either is committed. -/
def stagedTwice : List (WriteCall String) :=
  [.beginWrite "p" "workspace:///f" "k" none, .stage "uu" "ab",
    .beginWrite "p" "workspace:///g" "l" none, .stage "uuuu" "cd", .commit "uu", .commit "uuuu"]

/-- Each of the two fits while nothing is committed, and both are committed. -/
theorem two_staged_writes_exceed_the_quota :
    ((writes stagedTwice).world.tables.getNamespace "ns-p").bind ArtifactNamespace.quotaBytes = some 2 ∧
    (writes stagedTwice).world.tables.countCommittedBytes "ns-p" = 4 := by
  decide +kernel

/-- One file after the other is written as long as there is room. -/
theorem committed_writes_fill_the_quota :
    ((writes [.beginWrite "p" "workspace:///f" "k" none, .stage "uu" "a", .commit "uu",
      .beginWrite "p" "workspace:///g" "l" none, .stage "uuuu" "b",
      .commit "uuuu"]).world.tables.countCommittedBytes "ns-p" : Int) ≤ 2 :=
  committed_bytes_within_quota plainRules plainDigest ReadYourWrites.owner twoBytes "ns-p" 2 _ rfl (by decide)
    (by decide +kernel)

end LongHorizonOS.NamespaceQuota
