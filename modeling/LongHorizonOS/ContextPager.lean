import LongHorizonOS.FailFast
import LongHorizonOS.PythonValues
import Mathlib.Data.Int.Log
import Mathlib.Data.Multiset.Basic
import Mathlib.Data.Prod.Lex
import Mathlib.Data.Rat.Floor
import Mathlib.Data.String.Basic

/-! The pager of the context VM: a version-pinned reference is cut into pages of its
committed bytes, and a policy selects whole references under a token and a byte budget.
Timestamps, the `pinnable` flag's use outside of hashes and the metadata of a reference
are read by nothing here and are left out. -/
namespace LongHorizonOS.ContextPager
open PythonValues FailFast

/-! ## Records -/

structure ContentRef (δ : Type) where
  refId : String
  canonicalUri : String
  artifactId : String
  version : Int
  contentHash : δ
  mediaType : String
  encoding : String := "utf-8"
  priority : Int := 0
  required : Bool := false
  pinnable : Bool := true
  recoverable : Bool := false
  startByte : Option Int := none
  endByte : Option Int := none

structure ContextManifest (δ : Type) where
  manifestId : String
  ownerPid : String
  refs : List (ContentRef δ)
  tokenBudget : Int
  byteBudget : Option Int := none
  pageSizeBytes : Int := 4096
  policyId : String := "priority_stable_v1"
  metadata : Dict := []

structure ContextPage (δ : Type) where
  pageId : δ
  canonicalUri : String
  artifactId : String
  version : Int
  contentHash : δ
  byteStart : ℕ
  byteEnd : ℕ
  pageHash : δ
  estimatedTokens : Int
  sizeBytes : ℕ
  required : Bool
  priority : Int
  deriving DecidableEq

structure VersionBinding (δ : Type) where
  pageId : δ
  canonicalUri : String
  artifactId : String
  version : Int
  contentHash : δ
  deriving DecidableEq

/-- The arguments of `_stable_page_id`. -/
structure PageKey (δ : Type) where
  artifactId : String
  version : Int
  contentHash : δ
  byteStart : ℕ
  byteEnd : ℕ
  pageSize : ℕ
  pageIndex : ℕ
  deriving DecidableEq

/-- SHA-256 of what the code hashes: contents, and the lists of fields that it joins
with NUL. Only the artifact id, which comes first, can have a NUL in it, so the joined
text of a page determines its fields. The hashes of the references are sorted before
they are joined, so only their multiset counts. -/
structure Hashes (β δ : Type) where
  content : List β → δ
  page : PageKey δ → δ
  ref : ContentRef δ → δ
  manifest : ContextManifest δ → Multiset δ → δ
  materialized : List (VersionBinding δ) → List (List β) → δ
  hex : δ → String

inductive ContextError where
  | invalidManifest (text : String)
  | duplicateRefId (text : String)
  | capabilityDenied (text : String)
  | artifactNotFound (text : String)
  | invalidContentHash (text : String)
  | invalidRange (text : String)
  | invalidPolicy (text : String)
  | requiredBudgetExceeded (text : String)
  | handleNotOwned (text : String)
  | handleClosed (text : String)
  | snapshotCorrupt (text : String)
  deriving DecidableEq

/-- What the service is built on. `none` stands for `FileNotFoundError`. -/
structure Providers (β δ : Type) where
  hashes : Hashes β δ
  readVersion : String → Int → String → Option (List β)
  canContextOperation : String → String → Bool
  canArtifactRead : String → String → Int → Bool
  estimate : List β → String → String → Int

variable {β δ : Type}

namespace Hashes
variable (hashes : Hashes β δ)

/-- `ref_hash`. Recoverability is not part of it. -/
def refHash (ref : ContentRef δ) : δ := hashes.ref { ref with recoverable := false }

/-- `manifest_hash`. The metadata is not part of it. -/
def manifestHash (manifest : ContextManifest δ) : δ :=
  hashes.manifest { manifest with refs := [], metadata := [] } (manifest.refs.map hashes.refHash)

end Hashes

/-! ## True division

The quotient of two integers as a binary64 number. It is rounded to a multiple of the
distance between neighbouring numbers, which is never below the least positive number.
Overflow is left out: the dividends here are lengths. -/

/-- The nearest integer, and of two the even one. -/
def roundHalfEven (x : ℚ) : ℤ :=
  if x - ⌊x⌋ < 1 / 2 then ⌊x⌋
  else if 1 / 2 < x - ⌊x⌋ then ⌊x⌋ + 1
  else if ⌊x⌋ % 2 = 0 then ⌊x⌋ else ⌊x⌋ + 1

/-- The least positive number is `2^-1074`. -/
def underflow : ℕ := 1074

/-- The distance of neighbouring numbers around a positive one. -/
def quantum (x : ℚ) : ℚ := 2 ^ max (-(underflow : ℤ)) (Int.log 2 x - 52)

/-- `a / b` for positive integers. -/
def trueDivide (a b : ℕ) : ℚ :=
  roundHalfEven ((a / b : ℚ) / quantum (a / b)) * quantum (a / b)

/-! ## Pages -/

section
variable (p : Providers β δ) (ref : ContentRef δ)

/-- The page of `payload[s:e]`, where the payload begins at `start`. -/
def pageOf (pageSize start : ℕ) (payload : List β) (index s e : ℕ) : ContextPage δ :=
  let chunk := (payload.take e).drop s
  { pageId := p.hashes.page ⟨ref.artifactId, ref.version, ref.contentHash, start + s, start + e, pageSize, index⟩
    canonicalUri := ref.canonicalUri
    artifactId := ref.artifactId
    version := ref.version
    contentHash := ref.contentHash
    byteStart := start + s
    byteEnd := start + e
    pageHash := p.hashes.content chunk
    estimatedTokens := max (p.estimate chunk ref.mediaType ref.encoding) 0
    sizeBytes := chunk.length
    required := ref.required
    priority := ref.priority }

/-- The pages of a payload. An empty one has one empty page. -/
def cut (pageSize start : ℕ) (payload : List β) : List (ContextPage δ) :=
  if payload.length = 0 then [pageOf p ref pageSize start payload 0 0 0]
  else (List.range ⌈trueDivide payload.length pageSize⌉.toNat).map fun i =>
    pageOf p ref pageSize start payload i (i * pageSize) (min ((i + 1) * pageSize) payload.length)

/-- `compute_pages_for_ref`, on the bytes of the version. -/
def computePagesForRef (pageSize : ℕ) (fullBytes : List β) : Except ContextError (List (ContextPage δ)) := do
  let start := ref.startByte.getD 0
  let stop := ref.endByte.getD fullBytes.length
  require (0 ≤ start ∧ start ≤ stop ∧ stop ≤ fullBytes.length)
    (.invalidRange ("ref " ++ ref.refId ++ ": range [" ++ toString start ++ ", " ++ toString stop ++
      ") out of bounds (content length " ++ toString fullBytes.length ++ ")"))
  return cut p ref pageSize start.toNat ((fullBytes.take stop.toNat).drop start.toNat)

end

/-! ## Policies -/

/-- A reference with its pages. -/
structure RefPages (δ : Type) where
  ref : ContentRef δ
  pages : List (ContextPage δ)

namespace RefPages

def tokenCost (rp : RefPages δ) : Int := (rp.pages.map ContextPage.estimatedTokens).sum

def byteCost (rp : RefPages δ) : Int := (rp.pages.map fun page => (page.sizeBytes : Int)).sum

end RefPages

/-- `_ref_sort_key` -/
def refSortKey (ref : ContentRef δ) : ℕ ×ₗ Int ×ₗ String ×ₗ Int ×ₗ Int ×ₗ String :=
  toLex (if ref.required then 0 else 1, toLex (-ref.priority, toLex (ref.canonicalUri,
    toLex (ref.version, toLex (ref.startByte.getD 0, ref.refId)))))

def sortRefsDeterministic (refs : List (ContentRef δ)) : List (ContentRef δ) :=
  refs.insertionSort fun a b => refSortKey a ≤ refSortKey b

def jsonStrings : JsonItems → List String
  | .nil => []
  | .cons (.str s) rest => s :: jsonStrings rest
  | .cons _ rest => jsonStrings rest

def jsonNames : JsonFields → List String
  | .nil => []
  | .cons name _ rest => name :: jsonNames rest

variable (manifest : ContextManifest δ)

/-- `read_set_from_metadata`. A string is one id, and a mapping is read by its keys. -/
def readSetFromMetadata : Option (List String) :=
  match manifest.metadata.get "read_set" with
  | some (.str s) => some [s]
  | some (.arr items) => some (jsonStrings items)
  | some (.obj fields) => some (jsonNames fields)
  | _ => none

variable (readSet : Option (List String))

/-- `_lifecycle_keep_sort_key` -/
def lifecycleKeepSortKey (ref : ContentRef δ) : ℕ ×ₗ Int ×ₗ ℕ ×ₗ ℕ ×ₗ String ×ₗ Int ×ₗ Int ×ₗ String :=
  let inReadSet := readSet.all fun ids => decide (ref.refId ∈ ids)
  toLex (if ref.required then 0 else 1, toLex (-ref.priority, toLex (if inReadSet then 0 else 1,
    toLex (if ref.recoverable then 1 else 0, toLex (ref.canonicalUri, toLex (ref.version,
      toLex (ref.startByte.getD 0, ref.refId)))))))

variable (refPages : List (RefPages δ))

def sortRefPagesLifecycle : List (RefPages δ) :=
  refPages.insertionSort fun a b => lifecycleKeepSortKey readSet a.ref ≤ lifecycleKeepSortKey readSet b.ref

structure Selection (δ : Type) where
  selected : List (ContextPage δ) := []
  omittedRefIds : List String := []
  tokensUsed : Int := 0
  bytesUsed : Int := 0

/-- The reference would go over one of the budgets. -/
def exceeds (manifest : ContextManifest δ) (s : Selection δ) (rp : RefPages δ) : Prop :=
  manifest.tokenBudget < s.tokensUsed + rp.tokenCost ∨
    ∃ budget ∈ manifest.byteBudget, budget < s.bytesUsed + rp.byteCost

instance (manifest : ContextManifest δ) (s : Selection δ) (rp : RefPages δ) : Decidable (exceeds manifest s rp) :=
  inferInstanceAs (Decidable (_ ∨ _))

/-- One turn of the selection loop. -/
def selectTurn (s : Selection δ) (rp : RefPages δ) : Selection δ :=
  if rp.ref.required = false ∧ exceeds manifest s rp then
    { s with omittedRefIds := s.omittedRefIds ++ [rp.ref.refId] }
  else
    { s with selected := s.selected ++ rp.pages, tokensUsed := s.tokensUsed + rp.tokenCost,
             bytesUsed := s.bytesUsed + rp.byteCost }

/-- What both policies do with the references in their order: the required ones must fit. -/
def selectWithin : Except ContextError (Selection δ) := do
  let required := refPages.filter fun rp => rp.ref.required
  let tokens := (required.map RefPages.tokenCost).sum
  let bytes := (required.map RefPages.byteCost).sum
  require (tokens ≤ manifest.tokenBudget) (.requiredBudgetExceeded ("required pages (" ++ toString tokens ++
    " tokens) exceed budget (" ++ toString manifest.tokenBudget ++ " tokens)"))
  require (∀ budget ∈ manifest.byteBudget, bytes ≤ budget) (.requiredBudgetExceeded ("required pages (" ++
    toString bytes ++ " bytes) exceed budget (" ++ toString (manifest.byteBudget.getD 0) ++ " bytes)"))
  return refPages.foldl (selectTurn manifest) {}

/-- `select_pages`. The first policy takes the references as they come. -/
def selectPages (readSet : Option (List String)) : Except ContextError (Selection δ) :=
  if manifest.policyId = "priority_stable_v1" then selectWithin manifest refPages
  else if manifest.policyId = "recoverability_residual_lifecycle_v1" then
    selectWithin manifest (sortRefPagesLifecycle readSet refPages)
  else .error (.invalidPolicy ("unsupported context policy: " ++ manifest.policyId))

end LongHorizonOS.ContextPager
