import LongHorizonOS.ProcessService

/-! The capability service. What a process may do is a list of resource
patterns with operations; the patterns are those of `fnmatch`. -/
namespace LongHorizonOS.CapabilityService
open KeyedRows KernelModels KernelTasks

/-! ## Patterns -/

inductive Glob where
  | star
  | any
  | literal (c : Char)
  | set (negated : Bool) (ranges : List (Char × Char))
  deriving DecidableEq

/-- The ranges between brackets. A single character is a range of its own, and
one that ends before it begins is dropped. -/
def globRanges : List Char → List (Char × Char)
  | low :: '-' :: high :: rest => if low ≤ high then (low, high) :: globRanges rest else globRanges rest
  | c :: rest => (c, c) :: globRanges rest
  | [] => []

/-- The contents of a set up to its closing bracket, and what comes after it. A
bracket in the first place belongs to the set. -/
def splitSet (text : List Char) : Option (List Char × List Char) :=
  let lead := if text.head? = some '!' then 1 else 0
  let first := if (text.drop lead).head? = some ']' then lead + 1 else lead
  match (text.drop first).idxOf? ']' with
  | none => none
  | some length => some (text.take (first + length), text.drop (first + length + 1))

/-- The contents from the first range on that does not end before it begins. -/
def dropInverted : List Char → List Char
  | low :: '-' :: high :: rest => if low ≤ high then low :: '-' :: high :: rest else dropInverted rest
  | text => text

/-- A `!` in the first place negates the set. It may get there when ranges before it are
dropped; a range that it began is then a hyphen and a character. -/
def parseSet : List Char → Glob
  | '!' :: rest => .set true (globRanges rest)
  | text => match dropInverted text with
    | '!' :: '-' :: high :: rest => .set true (('-', '-') :: (high, high) :: globRanges rest)
    | '!' :: rest => .set true (globRanges rest)
    | kept => .set false (globRanges kept)

/-- `fnmatch.translate`. The fuel is the length of the text. -/
def parseGlob : ℕ → List Char → List Glob
  | 0, _ | _, [] => []
  | fuel + 1, '*' :: rest => .star :: parseGlob fuel rest
  | fuel + 1, '?' :: rest => .any :: parseGlob fuel rest
  | fuel + 1, '[' :: rest =>
    match splitSet rest with
    | none => .literal '[' :: parseGlob fuel rest
    | some (inside, after) => parseSet inside :: parseGlob fuel after
  | fuel + 1, c :: rest => .literal c :: parseGlob fuel rest

def Glob.accepts : Glob → Char → Bool
  | .star, _ | .any, _ => true
  | .literal expected, c => decide (c = expected)
  | .set negated ranges, c =>
    xor negated (ranges.any fun range => decide (range.1 ≤ c ∧ c ≤ range.2))

def globMatches : List Glob → List Char → Bool
  | [], text => text.isEmpty
  | .star :: rest, text => text.tails.any fun tail => globMatches rest tail
  | glob :: rest, c :: text => glob.accepts c && globMatches rest text
  | _ :: _, [] => false

/-- `fnmatch.fnmatch` on a system with case-sensitive paths. -/
def fnmatch (name pattern : String) : Bool :=
  globMatches (parseGlob pattern.length pattern.toList) name.toList

/-! ## Sets of capabilities -/

/-- `DEFAULT_CAPABILITIES["full"]` -/
def fullCapabilities : List Capability :=
  [ { resourcePattern := "device:model/mock", operations := ["invoke"] },
    { resourcePattern := "device:tool/mock", operations := ["invoke"] },
    { resourcePattern := "resource:workspace/*", operations := ["acquire", "release"] },
    { resourcePattern := "process:signal/*", operations := ["send"] } ]

def getCapabilitySet (store : KernelStore) (pid : String) : Option (List Capability) :=
  (lookup Prod.fst store.capabilitySets pid).map Prod.snd

def check (store : KernelStore) (pid resource operation : String) : Bool :=
  match getCapabilitySet store pid with
  | none => false
  | some capabilities => capabilities.any fun capability =>
      fnmatch resource capability.resourcePattern && decide (operation ∈ capability.operations)

/-- `_upsert_capability_set` -/
def upsertCapabilitySet (pid : String) (capabilities : List Capability) (store : KernelStore) : KernelStore :=
  { store with capabilitySets := upsert Prod.fst (pid, capabilities) store.capabilitySets }

def createCapabilitySet (pid : String) (capabilities : List Capability) : KernelTask Unit := do
  update {} (upsertCapabilitySet pid capabilities)
  appendEvent {} pid (.capabilitySetCreated capabilities)

/-- The same pattern and the same set of operations. -/
def Capability.same (a b : Capability) : Bool :=
  decide (a.resourcePattern = b.resourcePattern ∧ (∀ operation ∈ a.operations, operation ∈ b.operations) ∧
    ∀ operation ∈ b.operations, operation ∈ a.operations)

/-- `grant` adds to the set of the process, in one transaction and without an
event. A capability that is already there is not added again. -/
def grantCapability (pid : String) (capability : Capability) (store : KernelStore) : KernelStore :=
  match getCapabilitySet store pid with
  | none => upsertCapabilitySet pid [capability] store
  | some existing =>
    if existing.any (Capability.same capability) then store
    else upsertCapabilitySet pid (existing ++ [capability]) store

def grant (pid : String) (capability : Capability) : KernelTask Unit :=
  update {} (grantCapability pid capability)

def enforce (pid resource operation : String) : KernelTask Unit := do
  if ← query fun store => check store pid resource operation then return ()
  else
    appendEvent {} pid (.capabilityDenied resource operation)
    throw (.capabilityDenied pid resource operation)

def handleEvent (store : KernelStore) (event : KernelEvent) : KernelStore :=
  match event.body with
  | .capabilitySetCreated capabilities => upsertCapabilitySet event.pid capabilities store
  | _ => store

example : fnmatch "resource:workspace/a" "resource:workspace/*" = true := by decide +kernel
example : fnmatch "resource:other" "resource:workspace/*" = false := by decide +kernel

end LongHorizonOS.CapabilityService
