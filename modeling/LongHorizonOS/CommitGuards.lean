import LongHorizonOS.FailFast
import LongHorizonOS.GraphModels

/-! The guards of a commit: the lease generation that authorizes it and the
artifact versions the author reasoned over. Both are checked against tables of
other components that live in the same database file. -/
namespace LongHorizonOS.CommitGuards
open KeyedRows PythonValues GraphModels FailFast

/-- A row of `leases_projection`; `none` is an expiry that does not parse. -/
structure LeaseRow where
  leaseId : String
  resourceId : String
  ownerPid : String
  mode : String
  fencingToken : Int
  expiresAt : Option Timestamp
  deriving DecidableEq

/-- A row of `sdk_artifact_facts`. -/
structure ArtifactFactRow where
  artifactId : String
  canonicalUri : String
  version : Int
  contentHash : String
  deriving DecidableEq

/-- What the guards read: the lease tables and the facts table, each of which
may be missing, and the clock. -/
structure Authority where
  leases : Option (List LeaseRow × List (String × Int)) := none
  artifactFacts : Option (List ArtifactFactRow) := none
  now : Int := 0

private def fenceLost (message : String) : Failure := .vpg .leaseFenceLost message

/-- `_validate_lease_commit_guard` -/
def validateLeaseCommitGuard (authority : Authority) (guard : LeaseCommitGuard) : Except Failure Unit := do
  let (leases, tokens) ← demand authority.leases
    (fenceLost "lease authority tables are unavailable in this SQLite backing")
  let lease ← demand (lookup LeaseRow.leaseId leases guard.leaseId)
    (fenceLost "authoritative lease no longer exists")
  require (lease.leaseId = guard.leaseId ∧ lease.resourceId = guard.resourceId ∧
      lease.ownerPid = guard.ownerPid ∧ lease.mode = "exclusive" ∧
      lease.fencingToken = guard.fencingToken)
    (fenceLost "authoritative lease identity or ownership generation changed")
  let observed ← demand lease.expiresAt (fenceLost "lease expiry is malformed")
  require (observed.isAware ∧ guard.expiresAt.isAware) (fenceLost "lease expiry is not timezone-aware")
  require (authority.now < observed.ticks) (fenceLost "authoritative lease expired")
  require ((lookup Prod.fst tokens guard.resourceId).map Prod.snd = some guard.fencingToken)
    (fenceLost "resource fencing token was superseded")

/-- The rows that concern one artifact. -/
def factsOf (facts : List ArtifactFactRow) (artifactId canonicalUri : String) : List ArtifactFactRow :=
  facts.filter fun row => decide (row.artifactId = artifactId ∨ row.canonicalUri = canonicalUri)

/-- The exact version, a match by artifact id first. -/
def exactFact (facts : List ArtifactFactRow) (artifactId canonicalUri : String) (version : Int) :
    Option ArtifactFactRow :=
  let rows := (factsOf facts artifactId canonicalUri).filter fun row => decide (row.version = version)
  (rows.find? fun row => decide (row.artifactId = artifactId)).or rows.head?

/-- `SELECT MAX(version)` -/
def latestFact (facts : List ArtifactFactRow) (artifactId canonicalUri : String) : Option Int :=
  (factsOf facts artifactId canonicalUri).foldl (fun latest row =>
    some (latest.elim row.version (max row.version))) none

/-- One turn of the loop in `_validate_read_guards`. -/
def validateReadGuard (facts : List ArtifactFactRow) (guard : ArtifactVersionBinding) :
    Except Failure Unit := do
  let artifactId := removeLead (strip guard.artifactId) "vpg://"
  let canonicalUri := strip guard.canonicalUri
  let expectedHash := lower (strip guard.contentHash)
  let binding := canonicalUri ++ "@" ++ toString guard.version
  require (artifactId ≠ "" ∧ canonicalUri ≠ "" ∧ 1 ≤ guard.version)
    (.vpg .readSetUnavailable "read guard lacks an exact artifact identity/version")
  require (expectedHash ≠ "") (.vpg .readSetUnavailable ("read guard " ++ binding ++ " lacks a content hash"))
  let exact ← demand (exactFact facts artifactId canonicalUri guard.version)
    (.vpg .staleCognition ("read binding " ++ binding ++ " is no longer available"))
  let latest := latestFact facts artifactId canonicalUri
  require (latest = some guard.version)
    (.vpg .staleCognition ("read binding " ++ binding ++ " is stale; current is @" ++
      (latest.map toString).getD "None"))
  require (lower (strip exact.contentHash) = expectedHash)
    (.vpg .staleCognition ("read binding " ++ binding ++ " hash changed"))

/-- `_validate_read_guards` -/
def validateReadGuards (authority : Authority) (guards : List ArtifactVersionBinding) :
    Except Failure Unit := do
  match guards with
  | [] => pure ()
  | _ =>
    let facts ← demand authority.artifactFacts
      (.vpg .readSetUnavailable "artifact facts authority is unavailable for read-set validation")
    guards.forM (validateReadGuard facts)

/-- Both guards, as the commit and the replay check them. -/
def validateGuards (authority : Authority) (commitGuard : Option LeaseCommitGuard)
    (readGuards : Option (List ArtifactVersionBinding)) : Except Failure Unit := do
  match commitGuard with
  | some guard => validateLeaseCommitGuard authority guard
  | none => pure ()
  match readGuards with
  | some guards => validateReadGuards authority guards
  | none => pure ()

/-! ## What the guards raise -/

/-- An error of the runtime, as opposed to one of the database or the language. -/
def RuntimeError (failure : Failure) : Prop := ∃ code message, failure = .vpg code message

variable (authority : Authority)

theorem validateLeaseCommitGuard_raises (guard) : Raises RuntimeError (validateLeaseCommitGuard authority guard) := by
  refine (Raises.demand ⟨_, _, rfl⟩).bind fun _ => (Raises.demand ⟨_, _, rfl⟩).bind fun _ => ?_
  refine (Raises.require ⟨_, _, rfl⟩).bind fun _ => (Raises.demand ⟨_, _, rfl⟩).bind fun _ => ?_
  exact (Raises.require ⟨_, _, rfl⟩).bind fun _ => (Raises.require ⟨_, _, rfl⟩).bind fun _ =>
    .require ⟨_, _, rfl⟩

theorem validateReadGuard_raises (facts) (guard) : Raises RuntimeError (validateReadGuard facts guard) := by
  refine (Raises.require ⟨_, _, rfl⟩).bind fun _ => (Raises.require ⟨_, _, rfl⟩).bind fun _ => ?_
  exact (Raises.demand ⟨_, _, rfl⟩).bind fun _ => (Raises.require ⟨_, _, rfl⟩).bind fun _ =>
    .require ⟨_, _, rfl⟩

theorem validateReadGuards_raises : Raises RuntimeError (validateReadGuards authority guards) := by
  cases guards with
  | nil => exact .ok ()
  | cons guard guards =>
    exact (Raises.demand ⟨_, _, rfl⟩).bind fun facts => Raises.forM (validateReadGuard_raises facts)

theorem validateGuards_raises : Raises RuntimeError (validateGuards authority commitGuard readGuards) := by
  have reads : Raises RuntimeError (match readGuards with
      | some guards => validateReadGuards authority guards
      | none => pure ()) := by
    cases readGuards with
    | none => exact .ok ()
    | some guards => exact validateReadGuards_raises authority
  cases commitGuard with
  | none => exact (Raises.ok ()).bind fun _ => reads
  | some guard => exact (validateLeaseCommitGuard_raises authority guard).bind fun _ => reads

end LongHorizonOS.CommitGuards
