import LongHorizonOS.KernelTasks
import Mathlib.Data.String.Basic

/-! The lease service: all-or-nothing acquisition of shared and exclusive
leases with fencing tokens, their release, renewal and expiry, the contract
that a claim list and a lease list make, and the search for processes that
wait for each other. -/
namespace LongHorizonOS.LeaseService
open KeyedRows PythonValues FailFast KernelModels KernelTasks

/-! ## Acquisition -/

variable (store : KernelStore)

def leasesOn (resourceId : String) : List ResourceLease :=
  store.leases.filter fun lease => decide (lease.resourceId = resourceId)

def lastToken (resourceId : String) : Option Int :=
  (lookup Prod.fst store.fencingTokens resourceId).map Prod.snd

variable (pid : String)

def getProcess : Option ProcessControlBlock :=
  lookup ProcessControlBlock.pid store.processes pid

/-- The resources and modes of the claims. A claim without a resource and a
second claim on a resource raise before anything is looked up. -/
def nameClaims (pid : String) : List ResourceClaim → List String → Except KernelError (List (String × String))
  | [], _ => .ok []
  | claim :: rest, seen =>
    match claim.resourceId with
    | none => .error (.keyError "resource_id")
    | some resourceId =>
      if resourceId ∈ seen then .error (.leaseAcquisitionFailed pid resourceId)
      else do
        let named ← nameClaims pid rest (resourceId :: seen)
        return (resourceId, claim.modeText) :: named

variable (claims : List (String × String))

/-- A terminal process starts no new ownership. An unknown pid does. -/
def admitOwner (store : KernelStore) : Except KernelError Unit :=
  match getProcess store pid with
  | none => .ok ()
  | some pcb => require (¬ pcb.state.Terminal)
      (.leaseAcquisitionFailed pid ((claims.head?.map Prod.fst).getD ""))

variable (claim : String × String)

/-- A lease on the resource stands in the way of the claim. -/
def busy : Bool :=
  (leasesOn store claim.1).any fun row => decide (claim.2 = "exclusive" ∨ row.mode = .exclusive)

/-- The token of the readers that hold the resource. -/
def cohortToken (resourceId : String) (active : List ResourceLease) (store : KernelStore) :
    Except KernelError Int := do
  let token := (active.head?.map ResourceLease.fencingToken).getD 0
  require ((∀ row ∈ active, row.fencingToken = token) ∧ 0 < token)
    (.kernelInvariantViolation ("shared fencing cohort is inconsistent for " ++ quoted resourceId))
  require (lastToken store resourceId = some token)
    (.kernelInvariantViolation ("shared fencing cohort is superseded for " ++ quoted resourceId))
  return token

/-- Advance the fence of the resource. -/
def nextToken (resourceId : String) : Session KernelStore KernelError Int := do
  let last ← Session.read fun store => lastToken store resourceId
  let token := (last.map (· + 1)).getD 1
  Session.write fun store =>
    { store with fencingTokens := upsert Prod.fst (resourceId, token) store.fencingTokens }
  return token

variable (lease : ResourceLease)

/-- `INSERT INTO leases_projection`, where the id is the primary key. -/
def insertLease : Session KernelStore KernelError Unit := do
  Session.check fun store => require (lookup ResourceLease.leaseId store.leases lease.leaseId = none)
    (.integrityError "leases_projection.lease_id")
  Session.write fun store => { store with leases := store.leases ++ [lease] }

/-- Shared holders belong to one cohort of readers and use its token. A first
reader and an exclusive owner start a new epoch. -/
def leaseToken (active : List ResourceLease) : Session KernelStore KernelError Int :=
  if claim.2 = "shared" ∧ active ≠ [] then Session.check (cohortToken claim.1 active)
  else nextToken claim.1

variable (leaseId : String)

/-- One claim of an acquisition for which nothing stands in the way. `active`
are the leases on its resource. -/
def grant (now expiresAt : Int) (claim : String × String)
    (active : List ResourceLease) : Session KernelStore KernelError ResourceLease := do
  let token ← leaseToken claim active
  let mode ← Session.check fun _ => demand (LeaseMode.parse claim.2) (.validationError "mode")
  let lease : ResourceLease :=
    { leaseId, resourceId := claim.1, ownerPid := pid, mode, fencingToken := token
      acquiredAt := now, expiresAt }
  insertLease lease
  return lease

/-- The claims of an acquisition one after the other. The leases that stood on
their resources were read before the first is granted. -/
def grantAll (pid : String) (draw : ℕ → String) (now expiresAt : Int) (found : KernelStore) :
    List (String × String) → ℕ → Session KernelStore KernelError (List ResourceLease)
  | [], _ => return []
  | claim :: rest, index => do
    let lease ← grant pid (draw index) now expiresAt claim (leasesOn found claim.1)
    let leases ← grantAll pid draw now expiresAt found rest (index + 1)
    return lease :: leases

def clearWaiters (store : KernelStore) : KernelStore :=
  { store with waiters := store.waiters.filter fun row => decide (row.1 ≠ pid) }

inductive Acquisition where
  | granted (leases : List ResourceLease)
  | denied (resourceId mode : String)

variable (draw : ℕ → String)

/-- Either a claim is busy and nothing is acquired, or all are granted. -/
def grantUnlessBusy (ttl now : Int) (found : KernelStore) : Session KernelStore KernelError Acquisition :=
  match claims.find? (busy found) with
  | some (resourceId, mode) => return .denied resourceId mode
  | none => do
    let leases ← grantAll pid draw now (now + ttl) found claims 0
    Session.write fun store => appendEvents (leases.map fun lease => ⟨pid, .leaseAcquired lease⟩)
      (clearWaiters pid store)
    return .granted leases

/-- The transaction of `atomic_acquire`. -/
def acquireTx (ttl now : Int) : Session KernelStore KernelError Acquisition := do
  Session.check (admitOwner pid claims)
  let store ← Session.read fun store => store
  grantUnlessBusy pid claims draw ttl now store

def clearWaitersForPid : KernelTask Unit := update {} (clearWaiters pid)

/-- `INSERT OR IGNORE INTO lease_waiters` -/
def addWaiter (resourceId : String) : KernelTask Unit := update {} fun store =>
  if (pid, resourceId) ∈ store.waiters then store
  else { store with waiters := store.waiters ++ [(pid, resourceId)] }

/-- `DEFAULT_LEASE_TTL`, in seconds. -/
def defaultLeaseTtl : Int := 300

/-- The wait edges and the event of a denial come after the lock is released. -/
def concludeAcquire : Acquisition → KernelTask (List ResourceLease)
  | .granted leases => return leases
  | .denied resourceId mode => do
    clearWaitersForPid pid
    addWaiter pid resourceId
    appendEvent {} pid (.leaseAcquireFailed resourceId mode)
    throw (.leaseAcquisitionFailed pid resourceId)

def atomicAcquire (claims : List ResourceClaim) (draw : ℕ → String) (ttl : Int) :
    KernelTask (List ResourceLease) :=
  if claims = [] then do
    clearWaitersForPid pid
    return []
  else do
    let named ← compute (nameClaims pid claims [])
    let acquisition ← transaction { access := .acquire ((List.range named.length).map draw) }
      (acquireTx pid named draw ttl)
    concludeAcquire pid acquisition

/-! ## Release, renewal and expiry -/

def findLease : Option ResourceLease :=
  lookup ResourceLease.leaseId store.leases leaseId

variable (events : ResourceLease → List EventBody)

/-- Delete a lease and journal what else the deletion means. -/
def dropLease (lease : ResourceLease) (store : KernelStore) : KernelStore :=
  appendEvents ((events lease).map fun body => ⟨lease.ownerPid, body⟩)
    { store with leases := store.leases.filter fun row => decide (row.leaseId ≠ lease.leaseId) }

def releasedEvents : List EventBody :=
  [.leaseReleased lease.leaseId lease.resourceId]

def releaseOne : KernelStore :=
  match findLease store leaseId with
  | none => store
  | some lease => dropLease releasedEvents lease store

/-- `release`. The number of released leases is that of the ids that were found. -/
def release (leaseIds : List String) : KernelTask Unit :=
  if leaseIds = [] then return ()
  else update {} fun store => leaseIds.foldl releaseOne store

def dropAll (rows : List ResourceLease) (store : KernelStore) : KernelStore :=
  rows.foldl (fun store lease => dropLease events lease store) store

def listLeasesForPid : List ResourceLease :=
  store.leases.filter fun lease => decide (lease.ownerPid = pid)

def releaseAllForPid : KernelTask Unit :=
  if pid = "" then throw (.valueError "pid must be a non-empty string")
  else update {} fun store =>
    clearWaiters pid (dropAll releasedEvents (listLeasesForPid store pid) store)

/-- `UPDATE leases_projection SET expires_at` -/
def extendLease (expiresAt : Int) (store : KernelStore) : KernelStore :=
  let extend := fun lease : ResourceLease => { lease with expiresAt := expiresAt }
  { store with leases := modify ResourceLease.leaseId leaseId extend store.leases }

def renewTx (ttl now : Int) : Session KernelStore KernelError (Option ResourceLease) := do
  let found ← Session.read fun store => findLease store leaseId
  match found with
  | none => return none
  | some lease =>
    if now < lease.expiresAt then
      Session.write fun store => appendEvents [⟨lease.ownerPid, .leaseRenewed leaseId (now + ttl)⟩]
        (extendLease leaseId (now + ttl) store)
      return some { lease with expiresAt := now + ttl }
    else return none

def renew (ttl : Int) : KernelTask (Option ResourceLease) :=
  transaction {} (renewTx leaseId ttl)

def expiredEvents : List EventBody :=
  [.leaseReleased lease.leaseId lease.resourceId, .leaseExpired lease.leaseId lease.resourceId]

def reclaimExpired (now : Int) : KernelTask Unit := update {} fun store =>
  dropAll expiredEvents (store.leases.filter fun lease => decide (lease.expiresAt ≤ now)) store

/-! ## Contracts -/

/-- The leases of a contract, each of them held by the process and in force. -/
def contractLeases (pid : String) (now : Int) : List String → KernelTask (Except String (List ResourceLease))
  | [] => return .ok []
  | leaseId :: rest => do
    match ← query fun store => findLease store leaseId with
    | none => return .error "lease_missing"
    | some lease =>
      if lease.ownerPid ≠ pid then return .error "lease_owner_mismatch"
      else if lease.expiresAt ≤ now then return .error "lease_expired"
      else
        match ← contractLeases pid now rest with
        | .error reason => return .error reason
        | .ok leases => return .ok (lease :: leases)

/-- The resources and modes that the claims are for. A claim without a resource
raises a `KeyError`. -/
def claimed (claims : List ResourceClaim) : Except KernelError (List (String × String)) :=
  claims.mapM fun claim => do
    let resourceId ← demand claim.resourceId (.keyError "resource_id")
    return (resourceId, claim.modeText)

def leased (leases : List ResourceLease) : List (String × String) :=
  leases.map fun lease => (lease.resourceId, lease.mode.value)

/-- `validate_action_contract`, as the reason why the contract does not hold.
The sorted lists are equal when one is a permutation of the other. -/
def validateActionContract (claims : List ResourceClaim) (leaseIds : List String)
    (now : Int) : KernelTask (Option String) :=
  if claims = [] then return (if leaseIds = [] then none else some "unexpected_leases")
  else if leaseIds.length ≠ claims.length ∨ ¬ leaseIds.Nodup then return some "lease_count_mismatch"
  else do
    match ← contractLeases pid now leaseIds with
    | .error reason => return some reason
    | .ok leases =>
      let expected ← compute (claimed claims)
      return if (leased leases).Perm expected then none else some "lease_claim_mismatch"

/-! ## Deadlocks -/

/-- Whom each waiting process waits for, in the order of the pids. -/
def waitFor : List (String × List String) :=
  let waits := fun pid => (store.waiters.filter fun row => decide (row.1 = pid)).flatMap fun row =>
    ((leasesOn store row.2).map ResourceLease.ownerPid).filter fun owner => decide (owner ≠ pid)
  let pids := (store.waiters.map Prod.fst).dedup.filter fun pid => decide (waits pid ≠ [])
  (pids.insertionSort (· ≤ ·)).map fun pid => (pid, (waits pid).dedup.insertionSort (· ≤ ·))

/-- A search that reports the back edges it meets. The stack has the process
that is being looked at on top, each with the neighbours still to come. -/
structure CycleSearch where
  stack : List (String × List String) := []
  visited : List String := []
  cycles : List (List String) := []

/-- The cycle, turned so that it starts at its smallest pid. -/
def normalized (cycle : List String) : List String :=
  match cycle.insertionSort (· ≤ ·) with
  | [] => []
  | least :: _ => cycle.rotate (cycle.idxOf least)

variable (adjacency : List (String × List String))

def cycleTurn (search : CycleSearch) : CycleSearch :=
  match search.stack with
  | [] => search
  | (node, []) :: below => { search with stack := below, visited := node :: search.visited }
  | (node, neighbour :: rest) :: below =>
    let resumed := { search with stack := (node, rest) :: below }
    let path := (search.stack.map Prod.fst).reverse
    if neighbour ∈ path then
      let cycle := normalized (path.drop (path.idxOf neighbour))
      if cycle ∈ search.cycles then resumed
      else { resumed with cycles := search.cycles ++ [cycle] }
    else if neighbour ∈ search.visited then resumed
    else { resumed with stack := (neighbour, Adjacency.get adjacency neighbour) :: resumed.stack }

def cycleTurns (adjacency : List (String × List String)) : ℕ → CycleSearch → CycleSearch
  | 0, search => search
  | fuel + 1, search => cycleTurns adjacency fuel (cycleTurn adjacency search)

/-- Every turn takes an edge or leaves a process, once each. -/
def cycleBudget : ℕ :=
  (adjacency.map fun entry => 1 + 2 * entry.2.length).sum

def cyclesFrom (search : CycleSearch) (root : String) : CycleSearch :=
  if root ∈ search.visited then search
  else cycleTurns adjacency (cycleBudget adjacency)
    { search with stack := [(root, Adjacency.get adjacency root)] }

/-- `_find_cycles` -/
def findCycles : List (List String) :=
  ((adjacency.map Prod.fst).foldl (cyclesFrom adjacency) {}).cycles.insertionSort (· ≤ ·)

/-- `detect_deadlocks`, on one reading of the two tables. -/
def detectDeadlocks : KernelTask (List (List String)) := query fun store => findCycles (waitFor store)

/-! ## Replay -/

/-- `INSERT OR REPLACE`, then the fence that goes with it. -/
def replayAcquired (store : KernelStore) : KernelStore :=
  { store with
    leases := upsert ResourceLease.leaseId lease store.leases
    fencingTokens := upsert Prod.fst
      (lease.resourceId, max ((lastToken store lease.resourceId).getD lease.fencingToken)
        lease.fencingToken) store.fencingTokens }

def handleEvent (event : KernelEvent) : KernelStore :=
  let without := fun leaseId =>
    { store with leases := store.leases.filter fun row => decide (row.leaseId ≠ leaseId) }
  match event.body with
  | .leaseAcquired lease => replayAcquired lease store
  | .leaseReleased leaseId _ => without leaseId
  | .leaseExpired leaseId _ => without leaseId
  | .leaseRenewed leaseId newExpiry => extendLease leaseId newExpiry store
  | _ => store

end LongHorizonOS.LeaseService
