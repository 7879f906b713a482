import LongHorizonOS.FailFast
import LongHorizonOS.KernelModels

/-! Artifact URIs. The texts that agents use are brought into the one form
`artifact://<namespace-id>/<path>`; what is malformed, climbs out of the
namespace or would mean something to the file system is rejected. -/
namespace LongHorizonOS.ArtifactUri
open FailFast PythonValues KernelModels

/-- The errors of the Artifact FS, with those that come from the kernel's services
and from the database. -/
inductive FsError where
  | kernel (failure : KernelError)
  | artifactNotFound (uri : String)
  | versionConflict (artifactId : String) (expected actual : Option Int)
  | namespaceNotFound (namespaceId : String)
  | invalidArtifactUri (uri reason : String)
  | pathTraversalRejected (uri : String)
  | quotaExceeded (message : String)
  | transactionNotFound (transactionId : String)
  | idempotencyConflict (transactionId originalState : String)
  | valueError (message : String)
  | fileNotFound (contentRef : String)
  | integrityError (column : String)
  deriving DecidableEq

/-- The functions of the Python library whose tables are left out here:
`urllib.parse.unquote` and `unicodedata.normalize("NFC", …)`. -/
structure TextRules where
  unquote : String → String
  normalize : String → String

structure CanonicalUri where
  namespaceId : String
  path : String
  canonical : String
  deriving DecidableEq

def canonicalText (namespaceId path : String) : String := "artifact://" ++ namespaceId ++ "/" ++ path

/-! ## Parts of a URI -/

/-- The text before and after the first `://`. -/
def splitScheme : List Char → Option (List Char × List Char)
  | [] => none
  | c :: rest =>
    if [':', '/', '/'].isPrefixOf (c :: rest) then some ([], rest.drop 2)
    else (splitScheme rest).map fun parts => (c :: parts.1, parts.2)

/-- `text.split("/", 1)` when it gives two parts. -/
def splitSlash : List Char → Option (List Char × List Char)
  | [] => none
  | c :: rest =>
    if c = '/' then some ([], rest) else (splitSlash rest).map fun parts => (c :: parts.1, parts.2)

/-- `text.lstrip("/")` -/
def stripLead (text : List Char) : List Char := text.dropWhile (· = '/')

/-- `text.strip("/")` -/
def stripSlashes (text : List Char) : List Char := (stripLead (stripLead text).reverse).reverse

/-- The namespace and the raw path of what follows the scheme. -/
def splitNamespace (uri : String) (workspace : Bool) (rest : List Char) :
    Except FsError (List Char × List Char) :=
  if workspace then
    if rest.head? = some '/' then .ok ([], stripLead rest)
    else match splitSlash rest with
      | some (namespaceId, path) => .ok (namespaceId, path)
      | none => .ok ([], rest)
  else match splitSlash rest with
    | none | some ([], _) => .error (.invalidArtifactUri uri "missing namespace_id")
    | some (namespaceId, path) => .ok (namespaceId, path)

/-! ## Paths -/

def isControl (c : Char) : Bool := decide (1 ≤ c.toNat ∧ c.toNat ≤ 0x1f ∨ c.toNat = 0x7f)

def isLetter (c : Char) : Bool := decide ('a' ≤ c ∧ c ≤ 'z' ∨ 'A' ≤ c ∧ c ≤ 'Z')

/-- `^[a-zA-Z]:[\\/]` -/
def drivePath : List Char → Bool
  | letter :: ':' :: mark :: _ => isLetter letter && decide (mark = '\\' ∨ mark = '/')
  | _ => false

/-- The checks of a decoded path, in the order in which they are made. -/
def checkPath (uri : String) (path : List Char) : Except FsError Unit := do
  require (Char.ofNat 0 ∉ path) (.invalidArtifactUri uri "NUL byte in path")
  require (path.any isControl = false) (.invalidArtifactUri uri "control character in path")
  require (drivePath path = false) (.invalidArtifactUri uri "Windows drive path detected")
  require (¬ (['\\', '\\'] <+: path ∨ ['/', '/'] <+: path)) (.invalidArtifactUri uri "UNC path detected")
  require ('\\' ∉ path) (.invalidArtifactUri uri "backslash in path — use forward slash")

/-- The segments that name something. -/
def segments (path : List Char) : List (List Char) :=
  (path.splitOn '/').filter fun segment => decide (segment ≠ ['.'] ∧ segment ≠ [])

def normalizePath (uri : String) (path : List Char) : Except FsError (List Char) := do
  checkPath uri path
  require (['.', '.'] ∉ path.splitOn '/') (.pathTraversalRejected uri)
  let normalized := ['/'].intercalate (segments path)
  require (normalized ≠ []) (.invalidArtifactUri uri "empty path after normalization")
  return normalized

/-! ## Canonical URIs -/

section
variable (rules : TextRules)

def canonicalizeUri (uri : String) : Except FsError CanonicalUri := do
  require (uri ≠ "") (.invalidArtifactUri uri "empty or non-string")
  let parts ← demand (splitScheme uri.toList) (.invalidArtifactUri uri "no scheme separator '://'")
  let scheme := lower (String.ofList parts.1)
  require (scheme = "artifact" ∨ scheme = "workspace")
    (.invalidArtifactUri uri ("unsupported scheme: " ++ scheme))
  let named ← splitNamespace uri (decide (scheme = "workspace")) parts.2
  let decoded := rules.normalize (rules.unquote (String.ofList named.2))
  let path ← normalizePath uri decoded.toList
  let namespaceId := String.ofList named.1
  return { namespaceId, path := String.ofList path, canonical := canonicalText namespaceId (String.ofList path) }

def resolveWorkspaceUri (uri callerNamespaceId : String) : Except FsError CanonicalUri := do
  let canonical ← canonicalizeUri rules uri
  if "workspace://".toList <+: uri.toList ∧ canonical.namespaceId = "" then
    return { canonical with
      namespaceId := callerNamespaceId
      canonical := canonicalText callerNamespaceId canonical.path }
  else return canonical

end

/-- Texts without a percent sign and beyond ASCII stay as they are. -/
def plainRules : TextRules := { unquote := id, normalize := id }

example : resolveWorkspaceUri plainRules "workspace:///a//./b.txt" "ns-p" =
    .ok { namespaceId := "ns-p", path := "a/b.txt", canonical := "artifact://ns-p/a/b.txt" } := by
  decide +kernel

example : resolveWorkspaceUri plainRules "artifact://ns-q/../x" "ns-p" =
    .error (.pathTraversalRejected "artifact://ns-q/../x") := by decide +kernel

end LongHorizonOS.ArtifactUri
