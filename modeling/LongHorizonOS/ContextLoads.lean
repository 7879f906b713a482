import LongHorizonOS.ContextService

/-! What a load of a context returns: the pages of whole references, which do not depend
on the order of the references but for the media type that they are given. -/
namespace LongHorizonOS.ContextLoads
open KeyedRows FailFast KernelTasks ContextPager ContextService
open List hiding lookup

/-! ## Pages -/

variable {β δ : Type}

/-- `bytes[start:stop]` -/
def slice (bytes : List β) (span : ℕ × ℕ) : List β := (bytes.take span.2).drop span.1

theorem slice_slice (bytes : List β) (inside : start + e ≤ stop) :
    slice (slice bytes (start, stop)) (s, e) = slice bytes (start + s, start + e) := by
  simp only [slice, take_drop, take_take, drop_drop, min_eq_left inside]

def span (page : ContextPage δ) : ℕ × ℕ := (page.byteStart, page.byteEnd)

/-- What a page of a reference knows of the bytes it was cut from. -/
structure CutFrom (p : Providers β δ) (ref : ContentRef δ) (bytes : List β) (page : ContextPage δ) : Prop where
  artifactId : page.artifactId = ref.artifactId
  version : page.version = ref.version
  canonicalUri : page.canonicalUri = ref.canonicalUri
  contentHash : page.contentHash = ref.contentHash
  named : ∃ pageSize pageIndex, page.pageId = p.hashes.page
    ⟨ref.artifactId, ref.version, ref.contentHash, page.byteStart, page.byteEnd, pageSize, pageIndex⟩
  pageHash : page.pageHash = p.hashes.content (slice bytes (span page))
  sizeBytes : page.sizeBytes = (slice bytes (span page)).length

section
theorem cutFrom_pageOf (inside : start + e ≤ stop) :
    CutFrom p ref bytes (pageOf p ref pageSize start (slice bytes (start, stop)) index s e) := by
  have chunk := slice_slice bytes (s := s) inside
  unfold slice at chunk
  refine ⟨rfl, rfl, rfl, rfl, ⟨pageSize, index, rfl⟩, ?_, ?_⟩
  · simp only [pageOf, slice, span, chunk]
  simp only [pageOf, slice, span, chunk]

theorem cutFrom_cut (ordered : start ≤ stop) (bound : stop ≤ bytes.length)
    (member : page ∈ cut p ref pageSize start (slice bytes (start, stop))) : CutFrom p ref bytes page := by
  have length : (slice bytes (start, stop)).length = stop - start := by simp [slice, bound]
  unfold cut at member
  split_ifs at member with empty
  · obtain rfl := mem_singleton.mp member
    exact cutFrom_pageOf (by omega)
  obtain ⟨index, _, rfl⟩ := mem_map.mp member
  exact cutFrom_pageOf (by omega)

/-- The range of a reference in the bytes of its version. -/
def rangeOf (ref : ContentRef δ) (bytes : List β) : ℕ × ℕ :=
  ((ref.startByte.getD 0).toNat, (ref.endByte.getD bytes.length).toNat)

theorem computePagesForRef_ok (ran : computePagesForRef p ref pageSize bytes = .ok pages) :
    (rangeOf ref bytes).1 ≤ (rangeOf ref bytes).2 ∧ (rangeOf ref bytes).2 ≤ bytes.length ∧
      pages = cut p ref pageSize (rangeOf ref bytes).1 (slice bytes (rangeOf ref bytes)) := by
  simp only [computePagesForRef, require_bind_ok, pure, Except.pure, Except.ok.injEq] at ran
  obtain ⟨bounds, rfl⟩ := ran
  refine ⟨?_, ?_, rfl⟩
  · simp only [rangeOf]
    omega
  simp only [rangeOf]
  omega

theorem cutFrom_pages (ran : computePagesForRef p ref pageSize bytes = .ok pages)
    (member : page ∈ pages) : CutFrom p ref bytes page := by
  obtain ⟨ordered, bound, rfl⟩ := computePagesForRef_ok ran
  exact cutFrom_cut ordered bound member

end

/-! ## Selection -/

/-- The selection loop keeps or leaves out whole references. -/
theorem selected_foldl (manifest : ContextManifest δ) (listed : List (RefPages δ)) :
    ∃ kept : List (RefPages δ), (∀ rp ∈ kept, rp ∈ listed) ∧
      (listed.foldl (selectTurn manifest) {}).selected = kept.flatMap RefPages.pages := by
  induction listed using List.reverseRecOn with
  | nil => exact ⟨[], fun _ member => member, rfl⟩
  | append_singleton listed rp ih =>
    obtain ⟨kept, among, selected⟩ := ih
    have among : ∀ other ∈ kept, other ∈ listed ++ [rp] := fun other member => mem_append_left _ (among other member)
    rw [foldl_append, foldl_cons, foldl_nil, selectTurn]
    split_ifs with skipped
    · exact ⟨kept, among, selected⟩
    · exact ⟨kept ++ [rp], forall_append_single among (by simp), by simp [selected]⟩

/-! ## Loads -/

section
variable [DecidableEq δ] {p : Providers β δ}

theorem resolveAndVerifyRef_ok (ran : resolveAndVerifyRef p callerPid ref = .ok bytes) :
    p.readVersion ref.artifactId ref.version ref.canonicalUri = some bytes ∧
      p.hashes.content bytes = ref.contentHash := by
  simp only [resolveAndVerifyRef, bind_ok, require_ok, demand_ok, pure, Except.pure, Except.ok.injEq] at ran
  obtain ⟨_, _, _, read, _, verified, rfl⟩ := ran
  exact ⟨read, verified⟩

theorem refPagesOf_ok (ran : refPagesOf p manifest callerPid ref = .ok rp) :
    rp.ref = ref ∧ ∃ bytes, p.readVersion ref.artifactId ref.version ref.canonicalUri = some bytes ∧
      p.hashes.content bytes = ref.contentHash ∧
      computePagesForRef p ref manifest.pageSizeBytes.toNat bytes = .ok rp.pages := by
  simp only [refPagesOf, bind_ok, pure, Except.pure, Except.ok.injEq] at ran
  obtain ⟨bytes, resolved, pages, paged, rfl⟩ := ran
  obtain ⟨read, verified⟩ := resolveAndVerifyRef_ok resolved
  exact ⟨rfl, bytes, read, verified, paged⟩

theorem paged_of_each (each : List.Forall₂ (fun ref rp => refPagesOf p manifest callerPid ref = .ok rp) refs refPages) :
    refPages.map RefPages.ref = refs ∧ ∀ rp ∈ refPages, refPagesOf p manifest callerPid rp.ref = .ok rp := by
  induction each with
  | nil => simp
  | cons turned _ ih =>
    have here := (refPagesOf_ok turned).1
    exact ⟨by rw [map_cons, here, ih.1], forall_mem_cons.mpr ⟨here.symm ▸ turned, ih.2⟩⟩

/-- The selected pages are those of whole references. -/
theorem selected_refs (ran : selectFor p manifest callerPid = .ok sel) : ∃ kept : List (RefPages δ),
    sel.selected = kept.flatMap RefPages.pages ∧
      ∀ rp ∈ kept, rp.ref ∈ manifest.refs ∧ refPagesOf p manifest callerPid rp.ref = .ok rp := by
  obtain ⟨refPages, collected, selected⟩ := bind_ok.mp ran
  obtain ⟨refs, paged⟩ := paged_of_each (mapM_ok.mp collected)
  have perm : (refPages.map RefPages.ref).Perm manifest.refs := refs ▸ perm_insertionSort _ _
  have within : ∀ {listed}, listed.Perm refPages → selectWithin manifest listed = .ok sel →
      ∃ kept : List (RefPages δ), sel.selected = kept.flatMap RefPages.pages ∧
        ∀ rp ∈ kept, rp.ref ∈ manifest.refs ∧ refPagesOf p manifest callerPid rp.ref = .ok rp := by
    intro listed same ran
    simp only [selectWithin, require_bind_ok, pure, Except.pure, Except.ok.injEq] at ran
    obtain ⟨_, _, rfl⟩ := ran
    obtain ⟨kept, among, selected⟩ := selected_foldl manifest listed
    refine ⟨kept, selected, fun rp member => ?_⟩
    have listed := same.mem_iff.mp (among rp member)
    exact ⟨perm.mem_iff.mp (mem_map_of_mem listed), paged rp listed⟩
  unfold selectPages at selected
  split_ifs at selected
  · exact within (.refl _) selected
  · exact within (perm_insertionSort _ _) selected

omit [DecidableEq δ] in
theorem validateManifest_ok (ran : validateManifest p manifest callerPid = .ok done) :
    (manifest.refs.map ContentRef.refId).Nodup := by
  simp only [validateManifest, require_bind_ok, require_ok] at ran
  exact ran.2.2.1

/-- A load returns the context of an earlier one, or registers one of its own. -/
theorem load_cases (ran : load p manifest callerPid key s = .ok (result, s')) :
    validateManifest p manifest callerPid = .ok () ∧
    ((∃ held, (∃ id, replayed s.idemLoad (callerPid, p.hashes.manifestHash manifest, key) key = some id ∧
        lookup HandleRec.id s.handles id = some held) ∧ result = (held.handle, held.loaded) ∧ s' = s) ∨
      ∃ sel, (replayed s.idemLoad (callerPid, p.hashes.manifestHash manifest, key) key = none ∧
          selectFor p manifest callerPid = .ok sel) ∧
        let loaded := materialize p manifest callerPid (uuid (s.drawn + 2)) (uuid s.drawn) sel
        let new := register loaded manifest.policyId (sel.selected.map ContextPage.pageId) sel.omittedRefIds s
        result = (new.1.handle, loaded) ∧
          s' = { new.2 with
            idemLoad := recordKey s.idemLoad (callerPid, p.hashes.manifestHash manifest, key) key new.1.id }) := by
  obtain ⟨_, valid, ran⟩ := bind_ok.mp ran
  refine ⟨valid, ?_⟩
  dsimp only at ran
  split at ran
  · rename_i id found
    obtain ⟨held, stored, returned⟩ := bind_ok.mp ran
    cases returned
    exact Or.inl ⟨held, ⟨id, found, demand_ok.mp stored⟩, rfl, rfl⟩
  rename_i unused
  obtain ⟨new, fresh, returned⟩ := bind_ok.mp ran
  obtain ⟨sel, selected, registered⟩ := bind_ok.mp fresh
  cases registered
  cases returned
  exact Or.inr ⟨sel, ⟨unused, selected⟩, rfl, rfl⟩

theorem load_fresh (key) (s) (valid : validateManifest p manifest callerPid = .ok ())
    (unused : replayed s.idemLoad (callerPid, p.hashes.manifestHash manifest, key) key = none)
    (selected : selectFor p manifest callerPid = .ok sel) :
    let loaded := materialize p manifest callerPid (uuid (s.drawn + 2)) (uuid s.drawn) sel
    let new := register loaded manifest.policyId (sel.selected.map ContextPage.pageId) sel.omittedRefIds s
    load p manifest callerPid key s = .ok ((new.1.handle, loaded), { new.2 with
      idemLoad := recordKey s.idemLoad (callerPid, p.hashes.manifestHash manifest, key) key new.1.id }) := by
  unfold load loadFresh
  rw [valid]
  dsimp only [bind, Except.bind]
  rw [unused, selected]
  rfl

omit [DecidableEq δ] in
theorem materializePage_cut (refs) (read : p.readVersion ref.artifactId ref.version ref.canonicalUri = some bytes)
    (cut : CutFrom p ref bytes page) : (materializePage p refs page).content = slice bytes (span page) ∧
      (materializePage p refs page).toContextPage = page := by
  have stored : bytesOf p page.artifactId page.version page.canonicalUri = bytes := by
    simp only [bytesOf, cut.artifactId, cut.version, cut.canonicalUri, read, Option.getD_some]
  refine ⟨by simp only [materializePage, stored, slice, span], ?_⟩
  have size := cut.sizeBytes
  simp only [materializePage, stored, slice, span] at size ⊢
  rw [← size]

theorem cut_of_paged (paged : refPagesOf p manifest callerPid rp.ref = .ok rp) : ∃ bytes,
    p.readVersion rp.ref.artifactId rp.ref.version rp.ref.canonicalUri = some bytes ∧
      p.hashes.content bytes = rp.ref.contentHash ∧
      computePagesForRef p rp.ref manifest.pageSizeBytes.toNat bytes = .ok rp.pages ∧
      ∀ page ∈ rp.pages, CutFrom p rp.ref bytes page := by
  obtain ⟨_, bytes, read, verified, paged⟩ := refPagesOf_ok paged
  exact ⟨bytes, read, verified, paged, fun page => cutFrom_pages paged⟩

/-- Every selected page was cut from the bytes of one of the references. -/
theorem exists_cut (ran : selectFor p manifest callerPid = .ok sel) (member : page ∈ sel.selected) :
    ∃ ref ∈ manifest.refs, ∃ bytes, p.readVersion ref.artifactId ref.version ref.canonicalUri = some bytes ∧
      p.hashes.content bytes = ref.contentHash ∧ CutFrom p ref bytes page := by
  obtain ⟨kept, selected, paged⟩ := selected_refs ran
  rw [selected] at member
  obtain ⟨rp, keeps, inside⟩ := mem_flatMap.mp member
  obtain ⟨among, ran⟩ := paged rp keeps
  obtain ⟨bytes, read, verified, _, cut⟩ := cut_of_paged ran
  exact ⟨rp.ref, among, bytes, read, verified, cut page inside⟩

end

/-! ## A content store to run loads on -/

theorem exists_ok {result : Except ε α} (done : result.isOk = true) : ∃ a, result = .ok a := by
  cases result with
  | ok a => exact ⟨a, rfl⟩
  | error => cases done

/-- Digests that differ whenever what was hashed differs. -/
inductive Digest where
  | content (bytes : List ℕ)
  | page (artifactId : String) (version : Int) (contentHash : Digest) (byteStart byteEnd pageSize pageIndex : ℕ)
  deriving DecidableEq

/-- Every artifact of the library has one version, which everybody may read. -/
def library (contents : List (String × List ℕ)) : Providers ℕ Digest where
  hashes :=
    { content := .content
      page := fun key => .page key.artifactId key.version key.contentHash key.byteStart key.byteEnd key.pageSize
        key.pageIndex
      ref := fun ref => .page ref.refId ref.version ref.contentHash 0 0 0 0
      manifest := fun manifest _ => .content [manifest.tokenBudget.toNat]
      materialized := fun _ contents => .content contents.flatten
      hex := fun _ => "" }
  readVersion := fun artifactId _ _ => (lookup Prod.fst contents artifactId).map Prod.snd
  canContextOperation := fun _ _ => true
  canArtifactRead := fun _ _ _ => true
  estimate := fun chunk _ _ => chunk.length

theorem library_injective (contents) :
    Function.Injective (library contents).hashes.content ∧ Function.Injective (library contents).hashes.page := by
  constructor
  · intro a b same
    exact Digest.content.inj same
  intro a b same
  obtain ⟨_, _, _, _, _, _, _⟩ := Digest.page.inj same
  cases a
  cases b
  simp_all

/-- A reference to the whole of an artifact of the library. -/
def wholeRef (refId artifactId : String) (bytes : List ℕ) (mediaType : String) (required : Bool) :
    ContentRef Digest :=
  { refId := refId, canonicalUri := artifactId, artifactId := artifactId, version := 1
    contentHash := .content bytes, mediaType := mediaType, required := required }

def manifestOf (refs : List (ContentRef Digest)) (pageSizeBytes : ℕ) : ContextManifest Digest :=
  { manifestId := "m", ownerPid := "p", refs := refs, tokenBudget := 10, pageSizeBytes := pageSizeBytes }

/-- Two artifacts of three bytes. -/
def shelf : Providers ℕ Digest := library [("a", [7, 8, 9]), ("b", [5, 6, 7])]

/-- One reference, of two pages. -/
def twoPages : ContextManifest Digest := manifestOf [wholeRef "r" "a" [7, 8, 9] "text/plain" true] 2

/-! ## The order of the references -/

section
variable [DecidableEq δ] {p : Providers β δ} {refs : List (ContentRef δ)}

/-- The references to the artifact have one media type and one encoding. -/
def MediaAgree (refs : List (ContentRef δ)) (artifactId : String) : Prop :=
  ∀ a ∈ refs, ∀ b ∈ refs, a.artifactId = artifactId → b.artifactId = artifactId →
    a.mediaType = b.mediaType ∧ a.encoding = b.encoding

/-- So do those to every artifact of which the load selects a page. -/
def SelectedAgree (p : Providers β δ) (manifest : ContextManifest δ) (callerPid : String) : Prop :=
  ∀ sel, selectFor p manifest callerPid = .ok sel →
    ∀ page ∈ sel.selected, MediaAgree manifest.refs page.artifactId

omit [DecidableEq δ] in
/-- The index by artifact then finds the media of the reference that a page was cut from. -/
theorem materializePage_media (agree : MediaAgree refs page.artifactId) (member : ref ∈ refs)
    (named : page.artifactId = ref.artifactId) :
    (materializePage p refs page : LoadedPage β δ) = materializePage p [ref] page := by
  obtain ⟨other, found⟩ : ∃ other, lookup ContentRef.artifactId refs.reverse ref.artifactId = some other :=
    exists_lookup (mem_map_of_mem (mem_reverse.mpr member))
  obtain ⟨media, encoding⟩ := agree other (mem_reverse.mp (lookup_mem found)) ref member
    ((lookup_key found).trans named.symm) named.symm
  have alone : lookup ContentRef.artifactId [ref].reverse ref.artifactId = some ref := by simp [lookup]
  simp only [materializePage, refByArtifact, named, found, alone, Option.map_some, Option.getD_some, media, encoding]

omit [DecidableEq δ] in
/-- A reference that comes last decides. -/
theorem materializePage_last (named : ref.artifactId = page.artifactId) :
    (materializePage p (refs ++ [ref]) page : LoadedPage β δ).mediaType = ref.mediaType ∧
      (materializePage p (refs ++ [ref]) page : LoadedPage β δ).encoding = ref.encoding := by
  simp [materializePage, refByArtifact, lookup, named]

omit [DecidableEq δ] in
theorem refSortKey_distinct (distinct : (refs.map ContentRef.refId).Nodup) : (refs.map refSortKey).Nodup := by
  refine List.Nodup.of_map (fun key => (ofLex (ofLex (ofLex (ofLex (ofLex key).2).2).2).2).2) ?_
  rwa [map_map]

theorem selectFor_perm (distinct : (manifest.refs.map ContentRef.refId).Nodup) (perm : refs.Perm manifest.refs) :
    selectFor p { manifest with refs := refs } callerPid = selectFor p manifest callerPid := by
  have sorted : sortRefsDeterministic refs = sortRefsDeterministic manifest.refs :=
    sortByKey_perm (refSortKey_distinct distinct) perm
  unfold selectFor
  rw [show ({ manifest with refs := refs } : ContextManifest δ).refs = refs from rfl, sorted]
  rfl

omit [DecidableEq δ] in
theorem validateManifest_perm (perm : refs.Perm manifest.refs) :
    validateManifest p { manifest with refs := refs } callerPid = validateManifest p manifest callerPid := by
  simp only [validateManifest, (perm.map ContentRef.refId).nodup_iff]

omit [DecidableEq δ] in
theorem manifestHash_perm (perm : refs.Perm manifest.refs) :
    p.hashes.manifestHash { manifest with refs := refs } = p.hashes.manifestHash manifest := by
  unfold Hashes.manifestHash
  rw [show ((refs.map p.hashes.refHash : List δ) : Multiset δ) = (manifest.refs.map p.hashes.refHash : List δ)
    from Multiset.coe_eq_coe.mpr (perm.map _)]

/-- What the caller of a load gets to see: the pages with their bytes and media, the
bindings, the hash and the set of what was left out. -/
def outcome (loaded : LoadedContext β δ) :
    List (LoadedPage β δ) × List (VersionBinding δ) × δ × Multiset OmittedRef :=
  (loaded.orderedPages, loaded.versionBindings, loaded.materializedHash, loaded.omittedRefs)

theorem materialize_perm (agree : ∀ page ∈ sel.selected, MediaAgree manifest.refs page.artifactId)
    (perm : refs.Perm manifest.refs) (ran : selectFor p manifest callerPid = .ok sel) :
    outcome (materialize p { manifest with refs := refs } callerPid contextId workingSetId sel) =
      outcome (materialize p manifest callerPid contextId workingSetId sel) := by
  have pages : sel.selected.map (materializePage p refs) = sel.selected.map (materializePage p manifest.refs) := by
    refine map_congr_left fun page member => ?_
    obtain ⟨ref, inside, bytes, _, _, cut⟩ := exists_cut ran member
    have agree' : MediaAgree refs page.artifactId := fun a left b right =>
      agree page member a (perm.mem_iff.mp left) b (perm.mem_iff.mp right)
    rw [materializePage_media (agree page member) inside cut.artifactId,
      materializePage_media agree' (perm.mem_iff.mpr inside) cut.artifactId]
  have omitted := (perm.filter fun ref => decide (ref.refId ∈ sel.omittedRefIds)).map (omittedRef p manifest)
  simp only [outcome, materialize, pages, Prod.mk.injEq, true_and]
  exact Multiset.coe_eq_coe.mpr omitted

/-- What a load in another order of the references returns. -/
theorem outcome_fresh (key) (s : ServiceState β δ) (valid : validateManifest p manifest callerPid = .ok ())
    (unused : replayed s.idemLoad (callerPid, p.hashes.manifestHash manifest, key) key = none)
    (selected : selectFor p manifest callerPid = .ok sel) (perm : refs.Perm manifest.refs) :
    (load p { manifest with refs := refs } callerPid key s).map (fun result => outcome result.1.2) =
      .ok (outcome (materialize p { manifest with refs := refs } callerPid (uuid (s.drawn + 2)) (uuid s.drawn) sel)) := by
  rw [load_fresh key s ((validateManifest_perm perm).trans valid) (by rw [manifestHash_perm perm, unused])
    ((selectFor_perm (validateManifest_ok valid) perm).trans selected)]
  rfl

/-- Each reference to a selected artifact may come last, and the page is the same for all
of them. -/
theorem selectedAgree_of_order (key) (s : ServiceState β δ) (all : ∀ refs, refs.Perm manifest.refs →
      (load p { manifest with refs := refs } callerPid key s).map (fun result => outcome result.1.2) =
        (load p manifest callerPid key s).map (fun result => outcome result.1.2))
    (valid : validateManifest p manifest callerPid = .ok ())
    (unused : replayed s.idemLoad (callerPid, p.hashes.manifestHash manifest, key) key = none) :
    SelectedAgree p manifest callerPid := by
  intro sel selected page member
  have fixed : ∀ ref ∈ manifest.refs, ref.artifactId = page.artifactId →
      (materializePage p manifest.refs page).mediaType = ref.mediaType ∧
        (materializePage p manifest.refs page).encoding = ref.encoding := by
    intro ref inside named
    obtain ⟨before, behind, split⟩ := append_of_mem inside
    have perm : (before ++ behind ++ [ref]).Perm manifest.refs := by
      rw [split, append_assoc]
      exact (perm_append_singleton ref behind).append_left before
    have same := all _ perm
    rw [outcome_fresh key s valid unused selected perm, ← all _ (.refl _),
      outcome_fresh key s valid unused selected (.refl _)] at same
    have pages := congrArg Prod.fst (Except.ok.inj same)
    rw [← map_inj_left.mp pages page member]
    exact materializePage_last named
  intro a left b right first second
  obtain ⟨media, encoding⟩ := fixed a left first
  obtain ⟨media', encoding'⟩ := fixed b right second
  exact ⟨media.symm.trans media', encoding.symm.trans encoding'⟩

/-- A load does not depend on the order of the references exactly if it fails, is a
replay, or the references to each selected artifact agree on their media. -/
theorem order_iff (key) (s : ServiceState β δ) : (∀ refs, refs.Perm manifest.refs →
      (load p { manifest with refs := refs } callerPid key s).map (fun result => outcome result.1.2) =
        (load p manifest callerPid key s).map (fun result => outcome result.1.2)) ↔
    (validateManifest p manifest callerPid = .ok () →
      replayed s.idemLoad (callerPid, p.hashes.manifestHash manifest, key) key = none →
        SelectedAgree p manifest callerPid) := by
  refine ⟨selectedAgree_of_order key s, fun agree refs perm => ?_⟩
  cases valid : validateManifest p manifest callerPid with
  | error failure =>
    unfold load
    rw [valid, (validateManifest_perm perm).trans valid]
    rfl
  | ok =>
    have same : selectFor p { manifest with refs := refs } callerPid = selectFor p manifest callerPid :=
      selectFor_perm (validateManifest_ok valid) perm
    cases unused : replayed s.idemLoad (callerPid, p.hashes.manifestHash manifest, key) key with
    | some id =>
      unfold load
      rw [valid, (validateManifest_perm perm).trans valid, manifestHash_perm perm]
      dsimp only [bind, Except.bind]
      rw [unused]
    | none =>
      cases selected : selectFor p manifest callerPid with
      | error failure =>
        unfold load loadFresh
        rw [valid, (validateManifest_perm perm).trans valid, manifestHash_perm perm, same, selected]
        dsimp only [bind, Except.bind]
      | ok sel =>
        rw [outcome_fresh key s valid unused selected perm, load_fresh key s valid unused selected,
          materialize_perm (agree valid unused sel selected) perm selected]
        rfl

/-- The pages of a reference as they were cut, with its media type and encoding. -/
def CarriesMedia (p : Providers β δ) (manifest : ContextManifest δ) (ref : ContentRef δ)
    (pages : List (LoadedPage β δ)) : Prop :=
  (∃ bytes, p.readVersion ref.artifactId ref.version ref.canonicalUri = some bytes ∧
    computePagesForRef p ref manifest.pageSizeBytes.toNat bytes = .ok (pages.map LoadedPage.toContextPage)) ∧
  ∀ page ∈ pages, page.mediaType = ref.mediaType ∧ page.encoding = ref.encoding

theorem carriesMedia_materialize (agree : SelectedAgree p manifest callerPid)
    (ran : selectFor p manifest callerPid = .ok sel) : ∃ kept : List (ContentRef δ × List (LoadedPage β δ)),
    (materialize p manifest callerPid contextId workingSetId sel).orderedPages = kept.flatMap Prod.snd ∧
      ∀ entry ∈ kept, entry.1 ∈ manifest.refs ∧ CarriesMedia p manifest entry.1 entry.2 := by
  obtain ⟨kept, selected, paged⟩ := selected_refs ran
  refine ⟨kept.map fun rp => (rp.ref, rp.pages.map (materializePage p manifest.refs)), ?_, fun entry member => ?_⟩
  · simp only [materialize, selected, map_flatMap, flatMap_map]
  obtain ⟨rp, keeps, rfl⟩ := mem_map.mp member
  obtain ⟨inside, turned⟩ := paged rp keeps
  obtain ⟨bytes, read, _, pages, cut⟩ := cut_of_paged turned
  refine ⟨inside, ⟨bytes, read, ?_⟩, fun loadedPage mem => ?_⟩
  · have same : rp.pages.map (LoadedPage.toContextPage ∘ materializePage p manifest.refs) = rp.pages.map id :=
      map_congr_left fun page mem => (materializePage_cut _ read (cut page mem)).2
    rw [map_map, same, map_id, pages]
  obtain ⟨page, here, rfl⟩ := mem_map.mp mem
  have chosen : page ∈ sel.selected := selected ▸ mem_flatMap.mpr ⟨rp, keeps, here⟩
  rw [materializePage_media (agree sel ran page chosen) inside (cut page here).artifactId]
  simp [materializePage, refByArtifact, lookup, (cut page here).artifactId]

end

end LongHorizonOS.ContextLoads
