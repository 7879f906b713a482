import LongHorizonOS.ArtifactUri
import Mathlib.Data.List.Flatten
import Mathlib.Data.List.Lemmas

/-! What canonicalization returns. The checks of a path are made on the decoded
text, and the segments that name nothing are dropped after them; so the path
that comes out is not the text that was checked. It is safe and its URI a fixed
point exactly if no escape is left in the decoded text, no control character
beyond ASCII stands in it and no drive letter comes to its front. -/
namespace LongHorizonOS.CanonicalUris
open String (ofList ofList_toList)
open FailFast PythonValues ArtifactUri List

/-! ## Texts and their segments -/

section
variable {α : Type}

/-- What stands in a joined text is the separator or stands in a piece. -/
theorem mem_intercalate (found : a ∈ [mark].intercalate pieces) : a = mark ∨ ∃ piece ∈ pieces, a ∈ piece := by
  induction pieces with
  | nil => simp [List.intercalate] at found
  | cons piece pieces ih =>
    cases pieces with
    | nil => exact .inr ⟨piece, by simp, by simpa [List.intercalate] using found⟩
    | cons next rest =>
      rw [intercalate_cons_cons, mem_append, mem_append] at found
      rcases found with (inside | separator) | later
      · exact .inr ⟨piece, by simp, inside⟩
      · exact .inl (mem_singleton.mp separator)
      rcases ih later with separator | ⟨other, among, inside⟩
      · exact .inl separator
      exact .inr ⟨other, mem_cons_of_mem _ among, inside⟩

theorem mem_intercalate_of_mem (among : piece ∈ pieces) (inside : a ∈ piece) : a ∈ [mark].intercalate pieces := by
  induction pieces with
  | nil => cases among
  | cons first pieces ih =>
    cases pieces with
    | nil =>
      obtain rfl := mem_singleton.mp among
      simpa using inside
    | cons next rest =>
      rw [intercalate_cons_cons, mem_append, mem_append]
      rcases mem_cons.mp among with rfl | later
      · exact .inl (.inl inside)
      exact .inr (ih later)

variable [DecidableEq α]

theorem not_mem_splitOn {text : List α} (among : piece ∈ text.splitOn mark) : mark ∉ piece := by
  induction text generalizing piece with
  | nil =>
    obtain rfl := mem_singleton.mp (splitOn_nil mark ▸ among)
    exact not_mem_nil
  | cons c text ih =>
    unfold List.splitOn at among ih
    rw [splitOnP_cons_eq_if_modifyHead] at among
    split at among
    · rcases mem_cons.mp among with rfl | later
      · exact not_mem_nil
      exact ih later
    rename_i other
    have apart : mark ≠ c := fun same => other (by simp [same])
    generalize List.splitOnP (· == mark) text = pieces at among ih
    cases pieces with
    | nil => cases among
    | cons first rest =>
      rcases mem_cons.mp among with rfl | later
      · exact fun found => (mem_cons.mp found).elim apart (ih mem_cons_self)
      exact ih (mem_cons_of_mem _ later)

theorem mem_of_mem_splitOn {text : List α} (among : piece ∈ text.splitOn mark) (inside : a ∈ piece) : a ∈ text := by
  have joined : [mark].intercalate (text.splitOn mark) = text := intercalate_splitOn mark
  exact joined ▸ mem_intercalate_of_mem among inside

end

theorem mem_segments {segment} :
    segment ∈ segments path ↔ segment ∈ path.splitOn '/' ∧ segment ≠ ['.'] ∧ segment ≠ [] := by
  simp [segments]

/-- The segments of a path that is joined from segments. -/
theorem splitOn_joined (named : ['/'].intercalate (segments path) ≠ []) :
    (['/'].intercalate (segments path)).splitOn '/' = segments path := by
  refine splitOn_intercalate '/' (fun segment among => ?_) fun none => named (by rw [none]; rfl)
  exact not_mem_splitOn (mem_segments.mp among).1

theorem segments_joined (named : ['/'].intercalate (segments path) ≠ []) :
    segments (['/'].intercalate (segments path)) = segments path := by
  change (List.splitOn '/' _).filter _ = _
  rw [splitOn_joined named]
  exact filter_eq_self.mpr fun segment among => by simpa using (mem_segments.mp among).2

theorem mem_joined_of_mem (found : c ∈ path) (other : c ≠ '/' ∧ c ≠ '.') : c ∈ ['/'].intercalate (segments path) := by
  have whole : ['/'].intercalate (path.splitOn '/') = path := intercalate_splitOn '/'
  rw [← whole] at found
  obtain ⟨piece, among, inside⟩ := (mem_intercalate found).resolve_left other.1
  refine mem_intercalate_of_mem (mem_segments.mpr ⟨among, ?_, ne_nil_of_mem inside⟩) inside
  rintro rfl
  exact other.2 (mem_singleton.mp inside)

theorem mem_joined (found : c ∈ ['/'].intercalate (segments path)) : c = '/' ∨ c ∈ path := by
  rcases mem_intercalate found with separator | ⟨segment, among, inside⟩
  · exact .inl separator
  exact .inr (mem_of_mem_splitOn (mem_segments.mp among).1 inside)

/-! ## Drive letters -/

/-- A letter and a colon come first. -/
def driveLetter : List Char → Bool
  | letter :: ':' :: _ => isLetter letter
  | _ => false

theorem drivePath_of_letter (safe : driveLetter path = false) : drivePath path = false := by
  unfold drivePath
  split
  · exact Bool.and_eq_false_imp.mpr fun letter => absurd letter (Bool.eq_false_iff.mp safe)
  · rfl

/-- The drive letter of a path is that of its first segment. -/
theorem driveLetter_joined (whole : ∀ piece ∈ pieces, piece ≠ []) :
    driveLetter (['/'].intercalate pieces) = driveLetter (pieces.headD []) := by
  match pieces with
  | [] => rfl
  | [first] => rw [intercalate_singleton, headD_cons]
  | first :: next :: others =>
    rw [intercalate_cons_cons, append_assoc, headD_cons]
    match first with
    | [] => exact absurd rfl (whole [] mem_cons_self)
    | [_] => rfl
    | _ :: colon :: more => by_cases drive : colon = ':' <;> simp [driveLetter, drive]

/-! ## Escapes -/

def isHex (c : Char) : Bool :=
  decide ('0' ≤ c ∧ c ≤ '9' ∨ 'a' ≤ c ∧ c ≤ 'f' ∨ 'A' ≤ c ∧ c ≤ 'F')

/-- A percent sign with two hexadecimal digits stands in the text. -/
def hasEscape : List Char → Bool
  | [] => false
  | c :: rest =>
    (match c, rest with
      | '%', high :: low :: _ => isHex high && isHex low
      | _, _ => false) || hasEscape rest

theorem hasEscape_slash : hasEscape (left ++ '/' :: right) = (hasEscape left || hasEscape right) := by
  have slash : isHex '/' = false := by decide
  induction left with
  | nil => simp [hasEscape]
  | cons c left ih =>
    simp only [cons_append, hasEscape, ih, Bool.or_assoc]
    -- an escape that starts here would have the separator as one of its digits
    match left with
    | [] => by_cases percent : c = '%' <;> cases right <;> simp [percent, slash]
    | [digit] => by_cases percent : c = '%' <;> simp [percent, slash]
    | _ :: _ :: _ => by_cases percent : c = '%' <;> simp [percent]

theorem hasEscape_joined (pieces) : hasEscape (['/'].intercalate pieces) = pieces.any hasEscape := by
  induction pieces with
  | nil => rfl
  | cons piece pieces ih =>
    cases pieces with
    | nil => simp
    | cons next rest =>
      rw [intercalate_cons_cons, append_assoc, singleton_append, hasEscape_slash, ih]
      rfl

/-- Percent signs and twos. No character composes with them, and an escape has more of
them than what it stands for: `%25` is a percent sign and `%32` a two. -/
def marks (text : List Char) : ℕ := text.countP fun c => decide (c = '%' ∨ c = '2')

theorem marks_joined (pieces) : marks (['/'].intercalate pieces) = marks pieces.flatten := by
  induction pieces with
  | nil => rfl
  | cons piece pieces ih =>
    cases pieces with
    | nil => simp
    | cons next rest =>
      rw [intercalate_cons_cons, marks, countP_append, countP_append, flatten_cons, marks, countP_append]
      exact congrArg (_ + ·) ih

theorem marks_segments (path) : marks (['/'].intercalate (segments path)) ≤ marks path := by
  have whole := marks_joined (path.splitOn '/')
  rw [intercalate_splitOn] at whole
  rw [marks_joined, whole]
  exact filter_sublist.flatten.countP_le

/-! ## Unicode normal forms -/

/-- What is used of NFC: it is idempotent, and a `/`, a percent sign or a digit neither
takes part in a composition nor comes out of one. -/
structure NormalForm (normalize : String → String) : Prop where
  idempotent : ∀ text, normalize (normalize text) = normalize text
  joined : ∀ left right, normalize (left ++ "/" ++ right) = normalize left ++ "/" ++ normalize right
  parted : ∀ text, '/' ∉ text.toList → '/' ∉ (normalize text).toList
  marked : ∀ text, marks (normalize text).toList = marks text.toList

section
variable {normalize : String → String}

theorem NormalForm.pieces (form : NormalForm normalize) {pieces} (some : pieces ≠ []) :
    normalize (ofList (['/'].intercalate pieces)) = ofList
    (['/'].intercalate (pieces.map fun piece => (normalize (ofList piece)).toList)) := by
  induction pieces with
  | nil => exact absurd rfl some
  | cons piece pieces ih =>
    cases pieces with
    | nil => simp
    | cons next rest =>
      have slash (left right : List Char) : ofList (left ++ ['/'] ++ right) =
          ofList left ++ "/" ++ ofList right := by
        rw [String.ofList_append, String.ofList_append]
      rw [intercalate_cons_cons, slash, form.joined, ih (by simp)]
      change _ = ofList (List.intercalate _ (_ :: _ :: _))
      rw [intercalate_cons_cons, slash, ofList_toList]
      rfl

/-- The segments of a text in normal form are in normal form. -/
theorem NormalForm.segment (form : NormalForm normalize) {text : String}
    (fixed : normalize text = text) {piece} (among : piece ∈ text.toList.splitOn '/') :
    (normalize (ofList piece)).toList = piece := by
  have whole : ['/'].intercalate (text.toList.splitOn '/') = text.toList := intercalate_splitOn '/'
  have some : text.toList.splitOn '/' ≠ [] := fun none => by simp [none] at among
  have mapped := form.pieces some
  rw [whole, ofList_toList, fixed] at mapped
  have split := congrArg (fun joined => joined.toList.splitOn '/') mapped
  simp only [String.toList_ofList] at split
  rw [splitOn_intercalate '/' ?_ (by simp)] at split
  · exact map_inj_left.mp (split.symm.trans (map_id _).symm) piece among
  intro other among
  obtain ⟨source, from_, rfl⟩ := mem_map.mp among
  exact form.parted _ (by simpa using not_mem_splitOn from_)

/-- Dropping segments keeps the normal form. -/
theorem NormalForm.kept (form : NormalForm normalize) {text} (fixed : normalize text = text)
    (named : ['/'].intercalate (segments text.toList) ≠ []) :
    normalize (ofList (['/'].intercalate (segments text.toList))) =
    ofList (['/'].intercalate (segments text.toList)) := by
  rw [form.pieces fun none => named (by rw [none]; rfl)]
  congr 2
  refine (map_congr_left fun piece among => ?_).trans (map_id _)
  exact form.segment fixed (mem_segments.mp among).1

end

/-! ## Paths that come out -/

/-- What the checks of a path let through. -/
def Checked (path : List Char) : Prop :=
  Char.ofNat 0 ∉ path ∧ path.any isControl = false ∧ drivePath path = false ∧
    ¬ (['\\', '\\'] <+: path ∨ ['/', '/'] <+: path) ∧ '\\' ∉ path

theorem checkPath_ok : checkPath uri path = .ok done ↔ Checked path := by
  simp [checkPath, Checked]

theorem normalizePath_ok : normalizePath uri path = .ok normalized ↔ Checked path ∧ ['.', '.'] ∉ path.splitOn '/' ∧
    normalized ≠ [] ∧ normalized = ['/'].intercalate (segments path) := by
  unfold normalizePath
  rw [bind_ok]
  simp only [checkPath_ok, require_bind_ok, pure, Except.pure, Except.ok.injEq]
  constructor
  · rintro ⟨_, checked, climbs, named, rfl⟩
    exact ⟨checked, climbs, named, rfl⟩
  rintro ⟨checked, climbs, named, rfl⟩
  exact ⟨(), checked, climbs, named, rfl⟩

/-- The control characters beyond ASCII, which are not looked for. -/
def isHighControl (c : Char) : Bool := decide (0x80 ≤ c.toNat ∧ c.toNat ≤ 0x9f)

/-- A path that may be handed to the storage: its segments all name something, and
nothing in it is a control character or means anything to a file system but the
separators. -/
structure SafePath (path : List Char) : Prop where
  segments : ∀ segment ∈ path.splitOn '/', segment ≠ [] ∧ segment ≠ ['.'] ∧ segment ≠ ['.', '.']
  control : Char.ofNat 0 ∉ path ∧ path.any isControl = false ∧ path.any isHighControl = false
  backslash : '\\' ∉ path
  drive : driveLetter path = false

instance (path : List Char) : Decidable (SafePath path) :=
  decidable_of_iff ((∀ segment ∈ path.splitOn '/', segment ≠ [] ∧ segment ≠ ['.'] ∧ segment ≠ ['.', '.']) ∧
      (Char.ofNat 0 ∉ path ∧ path.any isControl = false ∧ path.any isHighControl = false) ∧ '\\' ∉ path ∧
      driveLetter path = false)
    ⟨fun ⟨parts, control, backslash, drive⟩ => ⟨parts, control, backslash, drive⟩,
      fun safe => ⟨safe.segments, safe.control, safe.backslash, safe.drive⟩⟩

section
variable {uri : String} {path normalized : List Char} (accepted : normalizePath uri path = .ok normalized)
include accepted

/-- A character of the path that comes out is a separator or was checked. -/
theorem mem_normalized (found : c ∈ normalized) : c = '/' ∨ c ∈ path := by
  obtain ⟨-, -, -, rfl⟩ := normalizePath_ok.mp accepted
  exact mem_joined found

theorem driveLetter_normalized : driveLetter normalized = driveLetter ((segments path).headD []) := by
  obtain ⟨-, -, -, rfl⟩ := normalizePath_ok.mp accepted
  exact driveLetter_joined fun piece among => (mem_segments.mp among).2.2

/-- No character of a kind comes out, if none was there and a separator is none. -/
theorem any_normalized {kind : Char → Bool} (slash : kind '/' = false) (none : path.any kind = false) :
    normalized.any kind = false := by
  refine any_eq_false.mpr fun c found => ?_
  rcases mem_normalized accepted found with rfl | before
  · simp [slash]
  exact any_eq_false.mp none c before

/-- Everything but a drive letter and the high control characters is kept out of every
path that comes out. -/
theorem normalized_safe (high : path.any isHighControl = false)
    (drive : driveLetter ((segments path).headD []) = false) : SafePath normalized := by
  obtain ⟨⟨nul, control, -, -, backslash⟩, climbs, named, joined⟩ := normalizePath_ok.mp accepted
  refine ⟨fun segment among => ?_, ⟨fun found => ?_, ?_, ?_⟩, fun found => ?_, ?_⟩
  · rw [joined, splitOn_joined (joined ▸ named)] at among
    obtain ⟨part, dot, whole⟩ := mem_segments.mp among
    exact ⟨whole, dot, fun up => climbs (up ▸ part)⟩
  · exact (mem_normalized accepted found).elim (by decide) nul
  · exact any_normalized accepted rfl control
  · exact any_normalized accepted rfl high
  · exact (mem_normalized accepted found).elim (by decide) backslash
  · rw [driveLetter_normalized accepted, drive]

theorem high_of_normalized (high : normalized.any isHighControl = false) : path.any isHighControl = false := by
  obtain ⟨-, -, -, rfl⟩ := normalizePath_ok.mp accepted
  refine any_eq_false.mpr fun c found is => any_eq_false.mp high c (mem_joined_of_mem found ⟨?_, ?_⟩) is
  · rintro rfl
    cases is
  · rintro rfl
    cases is

/-- A safe path that came out is accepted again, as it is. -/
theorem normalized_again (safe : SafePath normalized) : normalizePath other normalized = .ok normalized := by
  obtain ⟨-, -, named, joined⟩ := normalizePath_ok.mp accepted
  refine normalizePath_ok.mpr ⟨⟨safe.control.1, safe.control.2.1, drivePath_of_letter safe.drive, ?_, safe.backslash⟩,
    fun up => (safe.segments _ up).2.2 rfl, named, ?_⟩
  · rintro (⟨rest, double⟩ | ⟨rest, double⟩)
    · exact safe.backslash (double ▸ by simp)
    have first : [] ∈ normalized.splitOn '/' := by
      rw [← double]
      change [] ∈ List.splitOnP _ ([] ++ '/' :: '/' :: rest)
      rw [splitOnP_append_cons _ _ (by simp)]
      simp
    exact (safe.segments _ first).1 rfl
  · rw [joined, segments_joined (joined ▸ named)]

end

/-! ## URIs -/

theorem splitSlash_some (split : splitSlash text = some (namespaceId, path)) : '/' ∉ namespaceId := by
  induction text generalizing namespaceId with
  | nil => cases split
  | cons c text ih =>
    unfold splitSlash at split
    split at split
    · cases split
      exact not_mem_nil
    rename_i other
    obtain ⟨⟨before, rest⟩, later, same⟩ := Option.map_eq_some_iff.mp split
    cases same
    exact fun found => (mem_cons.mp found).elim (fun same => other same.symm) (ih later)

theorem splitSlash_named (path) (plain : '/' ∉ namespaceId) :
    splitSlash (namespaceId ++ '/' :: path) = some (namespaceId, path) := by
  induction namespaceId with
  | nil => rfl
  | cons c rest ih =>
    have other : c ≠ '/' := fun same => plain (same ▸ mem_cons_self)
    simp [splitSlash, other, ih fun found => plain (mem_cons_of_mem _ found)]

theorem splitNamespace_plain (split : splitNamespace uri workspace rest = .ok named) : '/' ∉ named.1 := by
  unfold splitNamespace at split
  split at split
  · split at split
    · cases split
      exact not_mem_nil
    split at split
    · rename_i parts
      cases split
      exact splitSlash_some parts
    · cases split
      exact not_mem_nil
  · split at split
    · cases split
    · cases split
    rename_i parts
    cases split
    exact splitSlash_some parts

/-- The path of a URI as it is written. -/
def rawPath (uri : String) : List Char :=
  match splitScheme uri.toList with
  | none => []
  | some (scheme, rest) =>
    match splitNamespace uri (decide (lower (ofList scheme) = "workspace")) rest with
    | .error _ => []
    | .ok named => named.2

section
variable (rules : TextRules)

/-- The path of a URI once decoded and brought into its normal form: the text
that the checks are made on. -/
def decodedPath (uri : String) : String := rules.normalize (rules.unquote (ofList (rawPath uri)))

variable {rules}

theorem canonicalizeUri_ok (accepted : canonicalizeUri rules uri = .ok result) :
    '/' ∉ result.namespaceId.toList ∧ result.canonical = canonicalText result.namespaceId result.path ∧
      normalizePath uri (decodedPath rules uri).toList = .ok result.path.toList := by
  unfold canonicalizeUri at accepted
  rw [require_bind_ok, bind_ok] at accepted
  obtain ⟨-, ⟨scheme, rest⟩, parts, accepted⟩ := accepted
  rw [require_bind_ok, bind_ok] at accepted
  obtain ⟨-, named, split, accepted⟩ := accepted
  obtain ⟨path, normalized, returned⟩ := bind_ok.mp accepted
  cases returned
  have raw : rawPath uri = named.2 := by
    unfold rawPath
    rw [demand_ok.mp parts]
    simp only [split]
  refine ⟨by simpa using splitNamespace_plain split, rfl, ?_⟩
  unfold decodedPath
  rw [raw, String.toList_ofList]
  exact normalized

theorem splitScheme_artifact :
    splitScheme ("artifact://".toList ++ rest) = some ("artifact".toList, rest) := rfl

section
variable {namespaceId path : String} (plain : '/' ∉ namespaceId.toList) (named : namespaceId ≠ "")
include plain named

/-- A canonical text is taken apart into what it was made of. -/
theorem canonical_parts : splitScheme (canonicalText namespaceId path).toList =
      some ("artifact".toList, namespaceId.toList ++ '/' :: path.toList) ∧
    splitNamespace (canonicalText namespaceId path) false (namespaceId.toList ++ '/' :: path.toList) =
      .ok (namespaceId.toList, path.toList) := by
  have text : (canonicalText namespaceId path).toList =
      "artifact://".toList ++ (namespaceId.toList ++ '/' :: path.toList) := by
    simp [canonicalText, String.toList_append]
  refine ⟨(congrArg splitScheme text).trans splitScheme_artifact, ?_⟩
  unfold splitNamespace
  rw [splitSlash_named _ plain]
  cases kind : namespaceId.toList with
  | nil => exact absurd (String.toList_eq_nil_iff.mp kind) named
  | cons c rest => rfl

theorem decodedPath_canonical :
    decodedPath rules (canonicalText namespaceId path) = rules.normalize (rules.unquote path) := by
  obtain ⟨parts, split⟩ := @canonical_parts namespaceId path plain named
  have scheme : decide (lower "artifact" = "workspace") = false := by decide
  unfold decodedPath rawPath
  simp only [parts, ofList_toList, scheme, split]

theorem canonicalizeUri_canonical (fixed : rules.normalize (rules.unquote path) = path)
    (accepted : normalizePath (canonicalText namespaceId path) path.toList = .ok path.toList) :
    canonicalizeUri rules (canonicalText namespaceId path) =
    .ok { namespaceId, path, canonical := canonicalText namespaceId path } := by
  obtain ⟨parts, split⟩ := @canonical_parts namespaceId path plain named
  have some : canonicalText namespaceId path ≠ "" := fun none => by
    rw [none] at parts
    cases parts
  have scheme : lower (ofList "artifact".toList) = "artifact" := by decide
  refine require_bind_ok.mpr ⟨some, bind_ok.mpr ⟨_, demand_ok.mpr parts, ?_⟩⟩
  rw [scheme]
  refine require_bind_ok.mpr ⟨.inl rfl, bind_ok.mpr ⟨_, split, bind_ok.mpr ⟨path.toList, ?_, ?_⟩⟩⟩
  · rw [ofList_toList, fixed, accepted]
  simp [pure, Except.pure]

end

/-- What is used of percent-decoding: a text without escapes stays as it is, and from one
with escapes some of their percent signs or digits go. -/
structure PercentDecoding (unquote : String → String) : Prop where
  plain : ∀ text, hasEscape text.toList = false → unquote text = text
  decodes : ∀ text, hasEscape text.toList = true → marks (unquote text).toList < marks text.toList

theorem hasEscape_segments (path) : hasEscape (['/'].intercalate (segments path)) = hasEscape path := by
  have pieces := hasEscape_joined (path.splitOn '/')
  rw [intercalate_splitOn] at pieces
  rw [hasEscape_joined, pieces, Bool.eq_iff_iff, any_eq_true, any_eq_true]
  constructor
  · exact fun ⟨segment, among, found⟩ => ⟨segment, (mem_segments.mp among).1, found⟩
  rintro ⟨piece, among, found⟩
  refine ⟨piece, mem_segments.mpr ⟨among, ?_, ?_⟩, found⟩ <;> rintro rfl <;> cases found

/-- An accepted URI has a safe path, and its canonical text is a fixed point of
canonicalization, exactly if decoding has left no escape and no high control character
behind and the first segment that names something has no drive letter. -/
theorem canonical_form_is_fixed (form : NormalForm rules.normalize) (percent : PercentDecoding rules.unquote)
    (uri : String) (result : CanonicalUri) (accepted : canonicalizeUri rules uri = .ok result)
    (named : result.namespaceId ≠ "") :
    (SafePath result.path.toList ∧ canonicalizeUri rules result.canonical = .ok result) ↔
      hasEscape (decodedPath rules uri).toList = false ∧ (decodedPath rules uri).toList.any isHighControl = false ∧
        driveLetter ((segments (decodedPath rules uri).toList).headD []) = false := by
  obtain ⟨plain, canonical, normalized⟩ := canonicalizeUri_ok accepted
  obtain ⟨-, -, whole, joined⟩ := normalizePath_ok.mp normalized
  have escapes : hasEscape result.path.toList = hasEscape (decodedPath rules uri).toList := by
    rw [joined, hasEscape_segments]
  constructor
  · rintro ⟨safe, again⟩
    refine ⟨?_, high_of_normalized normalized safe.control.2.2, driveLetter_normalized normalized ▸ safe.drive⟩
    -- an escape that is decoded now takes marks away that nothing brings back
    obtain ⟨-, -, second⟩ := canonicalizeUri_ok again
    rw [canonical, decodedPath_canonical plain named] at second
    obtain ⟨-, -, -, same⟩ := normalizePath_ok.mp second
    have kept := same ▸ marks_segments (rules.normalize (rules.unquote result.path)).toList
    rw [form.marked] at kept
    rw [← escapes, Bool.eq_false_iff]
    exact fun found => absurd (percent.decodes _ found) (Nat.not_lt.mpr kept)
  · rintro ⟨decoded, high, drive⟩
    have safe := normalized_safe normalized high drive
    have path : result.path = ofList (['/'].intercalate (segments (decodedPath rules uri).toList)) := by
      rw [← joined, ofList_toList]
    have fixed : rules.normalize (rules.unquote result.path) = result.path := by
      rw [percent.plain _ (escapes.trans decoded), path]
      exact form.kept (form.idempotent _) (joined ▸ whole)
    have again := canonicalizeUri_canonical plain named fixed (normalized_again normalized safe)
    exact ⟨safe, by rw [canonical, again, ← canonical]⟩

end

/-! ## Where it is none -/

def hexValue (c : Char) : Option Nat :=
  if '0' ≤ c ∧ c ≤ '9' then some (c.toNat - 48)
  else if 'a' ≤ c ∧ c ≤ 'f' then some (c.toNat - 87)
  else if 'A' ≤ c ∧ c ≤ 'F' then some (c.toNat - 55)
  else none

/-- `unquote` on the escapes of ASCII characters; the others are left as they are. -/
def unquoteAscii : List Char → List Char
  | '%' :: high :: low :: rest =>
    match hexValue high, hexValue low with
    | some a, some b =>
      if a < 8 then Char.ofNat (16 * a + b) :: unquoteAscii rest else '%' :: unquoteAscii (high :: low :: rest)
    | _, _ => '%' :: unquoteAscii (high :: low :: rest)
  | c :: rest => c :: unquoteAscii rest
  | [] => []

def asciiRules : TextRules :=
  { unquote := fun text => ofList (unquoteAscii text.toList), normalize := id }

/-- A percent sign that was escaped starts an escape in the canonical text, and a drive
letter behind a `.` segment becomes the front of the path, which is not safe and is
rejected when it is read again. A drive letter without a separator and a control
character beyond ASCII are let through. -/
theorem canonical_form_is_not_fixed : canonicalizeUri asciiRules "artifact://ns/%2541" =
      .ok { namespaceId := "ns", path := "%41", canonical := "artifact://ns/%41" } ∧
    canonicalizeUri asciiRules "artifact://ns/%41" =
      .ok { namespaceId := "ns", path := "A", canonical := "artifact://ns/A" } ∧
    canonicalizeUri asciiRules "artifact://ns/./C:/x" =
      .ok { namespaceId := "ns", path := "C:/x", canonical := "artifact://ns/C:/x" } ∧
    ¬ SafePath "C:/x".toList ∧
    canonicalizeUri asciiRules "artifact://ns/C:/x" =
      .error (.invalidArtifactUri "artifact://ns/C:/x" "Windows drive path detected") ∧
    canonicalizeUri asciiRules "artifact://ns/C:foo" =
      .ok { namespaceId := "ns", path := "C:foo", canonical := "artifact://ns/C:foo" } ∧
    ¬ SafePath "C:foo".toList ∧ ¬ SafePath ['a', Char.ofNat 0x85, 'b'] := by
  decide +kernel

/-- Escapes that all stand for a space. -/
def unquoteSpaces : List Char → List Char
  | '%' :: high :: low :: rest =>
    if isHex high && isHex low then ' ' :: unquoteSpaces rest else '%' :: unquoteSpaces (high :: low :: rest)
  | c :: rest => c :: unquoteSpaces rest
  | [] => []

def spaceRules : TextRules :=
  { unquote := fun text => ofList (unquoteSpaces text.toList), normalize := id }

theorem unquoteSpaces_marks (text) : marks (unquoteSpaces text) ≤ marks text ∧
    (hasEscape text = false → unquoteSpaces text = text) ∧
    (hasEscape text = true → marks (unquoteSpaces text) < marks text) := by
  fun_induction unquoteSpaces text with grind [marks, hasEscape]

theorem spaceRules_decoding : NormalForm spaceRules.normalize ∧ PercentDecoding spaceRules.unquote := by
  refine ⟨⟨fun _ => rfl, fun _ _ => rfl, fun _ plain => plain, fun _ => rfl⟩, fun text plain => ?_, fun text found => ?_⟩
  · change ofList (unquoteSpaces text.toList) = text
    rw [(unquoteSpaces_marks _).2.1 plain, ofList_toList]
  · simpa [spaceRules] using (unquoteSpaces_marks _).2.2 found

/-- Dropped segments and an escape alone do no harm. -/
theorem canonical_form_of_escaped_uri :
    SafePath "a/b c".toList ∧ canonicalizeUri spaceRules "artifact://ns/a/b c" =
      .ok { namespaceId := "ns", path := "a/b c", canonical := "artifact://ns/a/b c" } :=
  (canonical_form_is_fixed spaceRules_decoding.1 spaceRules_decoding.2 "workspace://ns/a//./b%20c"
    ⟨"ns", "a/b c", "artifact://ns/a/b c"⟩ (by decide +kernel) (by decide)).mpr (by decide +kernel)

end LongHorizonOS.CanonicalUris
