import LongHorizonOS.ContextLoads

/-! Snapshots bind pages to artifact versions. A restored context is read from the
versions again, so it is the one the snapshot was taken of, or the restoration fails. -/
namespace LongHorizonOS.ContextSnapshots
open KeyedRows FailFast KernelTasks ContextPager ContextService ContextLoads
open List hiding span

variable {β δ : Type} [DecidableEq δ] {p : Providers β δ}

/-- The page agrees with the version it was cut from, and its id is the hash of its place. -/
structure SealedPage (p : Providers β δ) (page : LoadedPage β δ) : Prop where
  read : ∃ bytes, p.readVersion page.artifactId page.version page.canonicalUri = some bytes ∧
    p.hashes.content bytes = page.contentHash ∧ page.content = slice bytes (span page.toContextPage)
  pageHash : page.pageHash = p.hashes.content page.content
  named : ∃ pageSize pageIndex, page.pageId = p.hashes.page
    ⟨page.artifactId, page.version, page.contentHash, page.byteStart, page.byteEnd, pageSize, pageIndex⟩

def bindingOf (page : LoadedPage β δ) : VersionBinding δ := ContextPage.binding page.toContextPage

/-- The supplier returns for the version of the binding what it returned before. -/
def Unchanged (p : Providers β δ) (read : String → Int → String → Option (List β)) (b : VersionBinding δ) : Prop :=
  read b.artifactId b.version b.canonicalUri = p.readVersion b.artifactId b.version b.canonicalUri

/-- The binding that a snapshot has for a page. -/
def pageBindingOf (page : LoadedPage β δ) : PageBinding δ :=
  { bindingOf page with pageHash := page.pageHash, byteStart := page.byteStart, byteEnd := page.byteEnd }

/-- Bindings and hash are those of the pages. -/
structure Sealed (p : Providers β δ) (loaded : LoadedContext β δ) : Prop where
  pages : ∀ page ∈ loaded.orderedPages, SealedPage p page
  bindings : loaded.versionBindings = loaded.orderedPages.map bindingOf
  hash : loaded.materializedHash =
    p.hashes.materialized loaded.versionBindings (loaded.orderedPages.map LoadedPage.content)

theorem sealed_materialize (selected : selectFor p manifest callerPid = .ok sel) :
    Sealed p (materialize p manifest callerPid contextId workingSetId sel) := by
  refine ⟨?_, ?_, rfl⟩
  · intro loadedPage member
    obtain ⟨page, inside, rfl⟩ := mem_map.mp member
    obtain ⟨ref, _, bytes, read, verified, cut⟩ := exists_cut selected inside
    obtain ⟨content, same⟩ := materializePage_cut manifest.refs read cut
    refine ⟨⟨bytes, ?_, ?_, ?_⟩, ?_, ?_⟩
    · rw [same, cut.artifactId, cut.version, cut.canonicalUri, read]
    · rw [same, cut.contentHash, verified]
    · rw [same, content]
    · rw [same, content, cut.pageHash]
    obtain ⟨pageSize, pageIndex, named⟩ := cut.named
    refine ⟨pageSize, pageIndex, ?_⟩
    rw [same, named, cut.artifactId, cut.version, cut.contentHash]
  · simp only [materialize, map_map]
    rfl

section
variable {loaded : LoadedContext β δ} (contentInjective : Function.Injective p.hashes.content)
  (pageInjective : Function.Injective p.hashes.page) (sealed : Sealed p loaded)
include contentInjective pageInjective sealed

/-- In a sealed context the id of a page determines what the snapshot looks up by it. -/
theorem pageBinding_sealed (member : page ∈ loaded.orderedPages) :
    pageBinding loaded (bindingOf page) unhashed = pageBindingOf page := by
  obtain ⟨other, found⟩ : ∃ other, loaded.orderedPages.find?
      (fun other => decide (other.pageId = (bindingOf page).pageId)) = some other :=
    Option.isSome_iff_exists.mp (find?_isSome.mpr ⟨page, member, decide_eq_true rfl⟩)
  have same := find?_some found
  have sealed' := sealed.pages other (mem_of_find?_eq_some found)
  obtain ⟨size, index, named⟩ := (sealed.pages page member).named
  obtain ⟨size', index', named'⟩ := sealed'.named
  have keys := pageInjective (named'.symm.trans ((of_decide_eq_true same).trans named))
  simp only [PageKey.mk.injEq] at keys
  obtain ⟨_, _, hash, first, last, _⟩ := keys
  obtain ⟨bytes, _, verified, content⟩ := (sealed.pages page member).read
  obtain ⟨bytes', _, verified', content'⟩ := sealed'.read
  obtain rfl : bytes' = bytes := contentInjective (verified'.trans (hash.trans verified.symm))
  have contents : other.content = page.content := by rw [content, content', span, span, first, last]
  have hashes : other.pageHash = page.pageHash := by
    rw [sealed'.pageHash, contents, (sealed.pages page member).pageHash]
  simp only [pageBinding, found, Option.map_some, Option.getD_some, hashes, first, last]
  rfl

theorem pageBindings_sealed :
    (loaded.versionBindings.map fun b => pageBinding loaded b unhashed) = loaded.orderedPages.map pageBindingOf := by
  rw [sealed.bindings, map_map]
  exact map_congr_left fun page member => pageBinding_sealed contentInjective pageInjective sealed member

end

variable {read : String → Int → String → Option (List β)}

theorem restorePage_ok :
    restorePage p snapshotId b = .ok page ↔ ∃ bytes, p.readVersion b.artifactId b.version b.canonicalUri =
    some bytes ∧ p.hashes.content bytes = b.contentHash ∧
      p.hashes.content (slice bytes (b.byteStart, b.byteEnd)) = b.pageHash ∧
      page = boundPage b (slice bytes (b.byteStart, b.byteEnd)) := by
  simp only [restorePage, bind_ok, require_ok, demand_ok, pure, Except.pure, Except.ok.injEq]
  constructor
  · rintro ⟨bytes, read, _, verified, _, matched, rfl⟩
    exact ⟨bytes, read, verified, matched, rfl⟩
  rintro ⟨bytes, read, verified, matched, rfl⟩
  exact ⟨bytes, read, (), verified, (), matched, rfl⟩

/-- Restoring over the same bytes gives the pages back. -/
theorem restorePage_same (sealed : SealedPage p page) (same : Unchanged p read (bindingOf page)) :
    restorePage { p with readVersion := read } snapshotId (pageBindingOf page) =
      .ok (boundPage (pageBindingOf page) page.content) := by
  obtain ⟨bytes, stored, verified, content⟩ := sealed.read
  refine restorePage_ok.mpr ⟨bytes, same.trans stored, verified, ?_, ?_⟩
  · exact content ▸ sealed.pageHash.symm
  rw [content]
  rfl

/-- Bytes with another hash are found out. -/
theorem restorePage_other (contentInjective : Function.Injective p.hashes.content) (sealed : SealedPage p page)
    (ran : restorePage { p with readVersion := read } snapshotId (pageBindingOf page) = .ok restored) :
    Unchanged p read (bindingOf page) := by
  obtain ⟨bytes, stored, verified, _⟩ := sealed.read
  obtain ⟨bytes', stored', verified', _⟩ := restorePage_ok.mp ran
  obtain rfl := contentInjective (verified'.trans verified.symm)
  exact stored'.trans stored.symm

/-! ## Restoring -/

section
variable {unhashed : δ} {s s' : ServiceState β δ} {pid key : String}

theorem restoreSnapshot_cases (ran : restoreSnapshot p pid snapshotId key s = .ok (result, s')) :
    (∃ id, replayed s.idemRestore (pid, snapshotId, key) key = some id ∧ s' = s) ∨
      ∃ snap pages, lookup ContextSnapshot.snapshotId s.snaps snapshotId = some snap ∧
        snap.pageBindings.mapM (restorePage p snapshotId) = .ok pages ∧
        let new := register (rebuilt snap pages (uuid (s.drawn + 2)) (uuid s.drawn)) ""
          (snap.pageBindings.map fun b => b.pageId) [] s
        s' = { new.2 with idemRestore := recordKey s.idemRestore (pid, snapshotId, key) key new.1.id } := by
  unfold restoreSnapshot at ran
  dsimp only at ran
  split at ran
  · rename_i id found
    obtain ⟨held, stored, returned⟩ := bind_ok.mp ran
    cases returned
    exact .inl ⟨id, found, rfl⟩
  obtain ⟨snap, stored, ran⟩ := bind_ok.mp ran
  obtain ⟨_, ran⟩ := require_bind_ok.mp ran
  obtain ⟨pages, read, ran⟩ := bind_ok.mp ran
  obtain ⟨_, returned⟩ := require_bind_ok.mp ran
  cases returned
  exact .inr ⟨snap, pages, demand_ok.mp stored, read, rfl⟩

theorem restoreSnapshot_fresh (unused : replayed s.idemRestore (snap.pid, snap.snapshotId, key) key = none)
    (found : lookup ContextSnapshot.snapshotId s.snaps snap.snapshotId = some snap)
    (ran : snap.pageBindings.mapM (restorePage p snap.snapshotId) = .ok pages)
    (hash : p.hashes.materialized (snap.pageBindings.map PageBinding.toVersionBinding)
      (pages.map LoadedPage.content) = snap.materializedHash) :
    ∃ handle s', restoreSnapshot p snap.pid snap.snapshotId key s =
    .ok ((handle, rebuilt snap pages (uuid (s.drawn + 2)) (uuid s.drawn)), s') := by
  unfold restoreSnapshot
  simp only [unused, found, demand, ran, require, hash, ↓reduceIte, bind, Except.bind, pure, Except.pure]
  exact ⟨_, _, rfl⟩

/-- The same bytes give the context back, and other bytes are found out before anything
is registered. -/
def Restores (p : Providers β δ) (loaded : LoadedContext β δ) (pid snapshotId key : String)
    (read : String → Int → String → Option (List β)) (s : ServiceState β δ) : Prop :=
  ((∀ b ∈ loaded.versionBindings, Unchanged p read b) →
    ∃ handle again s', restoreSnapshot { p with readVersion := read } pid snapshotId key s =
        .ok ((handle, again), s') ∧
      again.orderedPages.map (fun page => (page.pageId, page.content)) =
        loaded.orderedPages.map (fun page => (page.pageId, page.content)) ∧
      again.versionBindings = loaded.versionBindings ∧ again.materializedHash = loaded.materializedHash) ∧
  ((∃ b ∈ loaded.versionBindings, ¬ Unchanged p read b) →
    ∃ failure, restoreSnapshot { p with readVersion := read } pid snapshotId key s = .error failure)

/-- The snapshot was taken of the context by the process. -/
structure Shot (unhashed : δ) (loaded : LoadedContext β δ) (pid : String) (snap : ContextSnapshot δ) : Prop where
  owner : snap.pid = pid
  bindings : snap.pageBindings = loaded.versionBindings.map fun b => pageBinding loaded b unhashed
  hash : snap.materializedHash = loaded.materializedHash

theorem Shot.restores (contentInjective : Function.Injective p.hashes.content)
    (pageInjective : Function.Injective p.hashes.page) (sealed : Sealed p loaded)
    (shot : Shot unhashed loaded pid snap) (read : String → Int → String → Option (List β))
    (found : lookup ContextSnapshot.snapshotId s.snaps snap.snapshotId = some snap)
    (unused : replayed s.idemRestore (pid, snap.snapshotId, key) key = none) :
    Restores p loaded pid snap.snapshotId key read s := by
  obtain ⟨rfl, taken, hash⟩ := shot
  have bindings := taken.trans (pageBindings_sealed contentInjective pageInjective sealed)
  have versions : snap.pageBindings.map PageBinding.toVersionBinding = loaded.versionBindings := by
    rw [bindings, sealed.bindings, map_map]
    rfl
  constructor
  · intro same
    have ran : snap.pageBindings.mapM (restorePage { p with readVersion := read } snap.snapshotId) =
        .ok (loaded.orderedPages.map fun page => boundPage (pageBindingOf page) page.content) := by
      rw [mapM_ok, bindings, forall₂_map_left_iff, forall₂_map_right_iff, forall₂_same]
      exact fun page member => restorePage_same (sealed.pages page member)
        (same _ (sealed.bindings ▸ mem_map_of_mem member))
    have contents : (loaded.orderedPages.map fun page => boundPage (pageBindingOf page) page.content).map
        LoadedPage.content = loaded.orderedPages.map LoadedPage.content := by
      rw [map_map]
      rfl
    obtain ⟨handle, s', restored⟩ := restoreSnapshot_fresh unused found ran
      (by rw [versions, contents]; exact (hash.trans sealed.hash).symm)
    refine ⟨handle, _, s', restored, ?_, versions, hash⟩
    rw [rebuilt, map_map]
    rfl
  · rintro ⟨_, bound, different⟩
    obtain ⟨page, member, rfl⟩ := mem_map.mp (sealed.bindings ▸ bound)
    cases result : restoreSnapshot { p with readVersion := read } snap.pid snap.snapshotId key s with
    | error failure => exact ⟨failure, rfl⟩
    | ok pair =>
      rcases restoreSnapshot_cases result with ⟨_, replay, _⟩ | ⟨stored, restored, again, ran, _⟩
      · rw [unused] at replay
        cases replay
      obtain rfl : snap = stored := Option.some.inj (found.symm.trans again)
      obtain ⟨_, _, turned⟩ := exists_of_forall₂ (mapM_ok.mp ran) (bindings ▸ mem_map_of_mem member)
      exact absurd (restorePage_other contentInjective (sealed.pages page member) turned) different

/-! ## What the service remembers -/

/-- The parts of the state that are never changed or dropped: the contexts with the ids
and owners of their handles, the snapshots, and what was made under which key. -/
structure Memory (β δ : Type) where
  contexts : List (String × String × LoadedContext β δ)
  snaps : List (ContextSnapshot δ)
  idemLoad : List ((String × δ × String) × String)
  idemSnapshot : List ((String × String × String) × String)
  drawn : ℕ

def fixed (held : HandleRec β δ) : String × String × LoadedContext β δ := (held.id, held.handle.pid, held.loaded)

def memory (s : ServiceState β δ) : Memory β δ :=
  ⟨s.handles.map fixed, s.snaps, s.idemLoad, s.idemSnapshot, s.drawn⟩

/-- Ids are drawn once, and a key leads to what was made under it. -/
structure Recorded (p : Providers β δ) (unhashed : δ) (m : Memory β δ) : Prop where
  distinct : (m.contexts.map Prod.fst).Nodup
  drawn : ∀ context ∈ m.contexts, ∃ index, index + 2 < m.drawn ∧ context.1 = uuid (index + 1) ∧
    context.2.2.contextId = uuid (index + 2)
  snaps : ∀ snap ∈ m.snaps, ∃ index < m.drawn, snap.snapshotId = uuid index
  loads : ∀ entry ∈ m.idemLoad, ∃ loaded, (entry.2, entry.1.1, loaded) ∈ m.contexts ∧ Sealed p loaded
  shots : ∀ entry ∈ m.idemSnapshot, ∃ context ∈ m.contexts, context.2.2.contextId = entry.1.2.1 ∧
    ∃ snap, lookup ContextSnapshot.snapshotId m.snaps entry.2 = some snap ∧
      Shot unhashed context.2.2 entry.1.1 snap

section
theorem Recorded.context_eq (recorded : Recorded p unhashed m) (left : a ∈ m.contexts)
    (right : b ∈ m.contexts) (same : a.2.2.contextId = b.2.2.contextId) : a = b := by
  obtain ⟨i, _, id, named⟩ := recorded.drawn a left
  obtain ⟨j, _, id', named'⟩ := recorded.drawn b right
  have next := uuid_injective (named.symm.trans (same.trans named'))
  obtain rfl : i = j := by omega
  exact inj_on_of_nodup_map recorded.distinct left right (id.trans id'.symm)

/-- A new context, and perhaps a key that leads to it. -/
theorem Recorded.append (recorded : Recorded p unhashed m) (id : context.1 = uuid (m.drawn + 1))
    (named : context.2.2.contextId = uuid (m.drawn + 2)) (loads : ∀ entry ∈ idemLoad, entry ∈ m.idemLoad ∨
      (entry.2, entry.1.1, context.2.2) = context ∧ Sealed p context.2.2) :
    Recorded p unhashed { m with contexts := m.contexts ++ [context], idemLoad := idemLoad, drawn := m.drawn + 3 } := by
  refine ⟨?_, ?_, fun snap inside => drawn_later (recorded.snaps snap inside) (Nat.le_add_right _ 3), ?_, ?_⟩
  · rw [map_append]
    refine nodup_append_single recorded.distinct fun taken => ?_
    obtain ⟨other, inside, same⟩ := mem_map.mp taken
    obtain ⟨index, below, drawn, _⟩ := recorded.drawn other inside
    have clash := uuid_injective (drawn.symm.trans (same.trans id))
    omega
  · refine forall_append_single (fun other inside => ?_) ⟨m.drawn, Nat.lt_succ_self _, id, named⟩
    obtain ⟨index, below, ids⟩ := recorded.drawn other inside
    exact ⟨index, below.trans_le (Nat.le_add_right _ 3), ids⟩
  · intro entry inside
    rcases loads entry inside with old | ⟨same, sealed⟩
    · obtain ⟨loaded, known, sealed⟩ := recorded.loads entry old
      exact ⟨loaded, mem_append_left _ known, sealed⟩
    · exact ⟨context.2.2, mem_append_right _ (mem_singleton.mpr same), sealed⟩
  · intro entry inside
    obtain ⟨other, known, shot⟩ := recorded.shots entry inside
    exact ⟨other, mem_append_left _ known, shot⟩

variable {id : String}

theorem forall_recordKey [DecidableEq κ] {P : κ × String → Prop}
    {entries} {k : κ} (old : ∀ entry ∈ entries, P entry) (new : P (k, id)) :
    ∀ entry ∈ recordKey entries k key id, P entry := by
  unfold recordKey
  split_ifs
  · exact old
  exact forall_upsert old new

theorem replayed_mem [DecidableEq κ] {entries} {k : κ}
    (found : replayed entries k key = some id) : (k, id) ∈ entries := by
  unfold replayed at found
  split_ifs at found
  obtain ⟨entry, stored, rfl⟩ := Option.map_eq_some_iff.mp found
  exact lookup_key stored ▸ lookup_mem stored

omit [DecidableEq δ] in
theorem memory_register (loaded) (policyId) (selectedIds)
    (omittedIds) (idemLoad) :
    memory { (register loaded policyId selectedIds omittedIds s).2 with idemLoad := idemLoad } =
      { memory s with
        contexts := (memory s).contexts ++ [(uuid (s.drawn + 1), loaded.pid, loaded)]
        idemLoad := idemLoad
        drawn := (memory s).drawn + 3 } :=
  congrArg (Memory.mk · _ _ _ _) map_append

omit [DecidableEq δ] in
/-- Pins and closing change nothing that is remembered. -/
theorem memory_putHandle (distinct : ((memory s).contexts.map Prod.fst).Nodup)
    (member : fixed held ∈ (memory s).contexts) (same : fixed { held with handle := handle } = fixed held) :
    memory (putHandle held handle { s with pinCounts := counts }) = memory s := by
  obtain ⟨stored, inside, equal⟩ := mem_map.mp member
  rw [memory, map_map] at distinct
  have found : lookup HandleRec.id s.handles stored.id = some stored := lookup_of_mem distinct inside
  rw [show stored.id = _ from congrArg Prod.fst (equal.trans same.symm)] at found
  exact congrArg (Memory.mk · _ _ _ _) (map_upsert_stored found (same.trans equal.symm))

theorem memory_close (recorded : Recorded p unhashed (memory s)) {closing : List (HandleRec β δ)}
    (known : ∀ held ∈ closing, held ∈ s.handles) : memory (closing.foldl closeRec s) = memory s := by
  refine List.foldlRecOn (motive := fun t => memory t = memory s) _ closeRec rfl ?_
  intro t kept held member
  have inside : fixed held ∈ (memory s).contexts := mem_map_of_mem (known held member)
  have closed : memory (closeRec t held) = memory t := memory_putHandle (kept ▸ recorded.distinct) (kept ▸ inside) rfl
  exact closed.trans kept

/-! ## Calls -/

omit [DecidableEq δ] in
theorem getOpenRec_mem (ran : getOpenRec pid handleId s = .ok held) : held ∈ s.handles := by
  simp only [getOpenRec, getOwningRec, bind_ok, require_ok, demand_ok, pure, Except.pure, Except.ok.injEq] at ran
  obtain ⟨_, ⟨_, found, _, _, rfl⟩, _, _, rfl⟩ := ran
  exact lookup_mem found

section
variable (recorded : Recorded p unhashed (memory s))
include recorded

/-- What a load returns is remembered, and was read from the versions. -/
theorem Recorded.load {manifest} (ran : load p manifest pid key s = .ok ((handle, loaded), s')) :
    Recorded p unhashed (memory s') ∧ Sealed p loaded ∧ ∃ id, (id, pid, loaded) ∈ (memory s').contexts := by
  obtain ⟨_, ⟨held, ⟨id, found, stored⟩, returned, rfl⟩ | ⟨sel, ⟨_, selected⟩, returned, rfl⟩⟩ := load_cases ran
  · cases returned
    obtain ⟨other, known, sealed⟩ := recorded.loads _ (replayed_mem found)
    have here : fixed held ∈ (memory s').contexts := mem_map_of_mem (lookup_mem stored)
    have named : held.id = id := lookup_key stored
    cases inj_on_of_nodup_map recorded.distinct here known named
    exact ⟨recorded, sealed, _, known⟩
  cases returned
  have sealed : Sealed p (materialize p manifest pid (uuid (s.drawn + 2)) (uuid s.drawn) sel) :=
    sealed_materialize selected
  rw [memory_register]
  exact ⟨recorded.append rfl rfl (forall_recordKey (fun _ => .inl) (.inr ⟨rfl, sealed⟩)), sealed, _,
    mem_append_right _ (mem_singleton_self _)⟩

/-- A snapshot is of the context that was asked for, under a key of its own or not. -/
theorem Recorded.snapshot {snap : ContextSnapshot δ} (ran : snapshot unhashed pid contextId key s = .ok (snap, s')) :
    Recorded p unhashed (memory s') ∧ lookup ContextSnapshot.snapshotId s'.snaps snap.snapshotId = some snap ∧
      ∀ context ∈ (memory s).contexts, context.2.2.contextId = contextId → Shot unhashed context.2.2 pid snap := by
  unfold ContextService.snapshot at ran
  dsimp only at ran
  split at ran
  · rename_i id used
    obtain ⟨stored, found, returned⟩ := bind_ok.mp ran
    cases returned
    have found := demand_ok.mp found
    obtain ⟨context, known, named, other, again, shot⟩ := recorded.shots _ (replayed_mem used)
    cases again.symm.trans found
    refine ⟨recorded, (lookup_key found).symm ▸ found, fun context' known' named' => ?_⟩
    rw [recorded.context_eq known' known (named'.trans named.symm)]
    exact shot
  obtain ⟨held, found, returned⟩ := bind_ok.mp ran
  cases returned
  have found := demand_ok.mp found
  have here := find?_some found
  have mine := of_decide_eq_true here
  have known : fixed held ∈ (memory s).contexts := mem_map_of_mem (mem_of_find?_eq_some found)
  have shot : Shot unhashed held.loaded pid (snapshotOf unhashed held (uuid s.drawn) pid) := ⟨rfl, rfl, rfl⟩
  have fresh := uuid_fresh recorded.snaps
  have stored : lookup ContextSnapshot.snapshotId (s.snaps ++ [snapshotOf unhashed held (uuid s.drawn) pid])
      (uuid s.drawn) = some (snapshotOf unhashed held (uuid s.drawn) pid) := by
    rw [lookup_append_single _ _ fresh]
    exact if_pos rfl
  refine ⟨⟨recorded.distinct, ?_, ?_, recorded.loads, ?_⟩, stored, fun context inside named => ?_⟩
  · intro context inside
    obtain ⟨index, below, ids⟩ := recorded.drawn context inside
    exact ⟨index, below.trans (Nat.lt_succ_self _), ids⟩
  · exact forall_append_single (fun snap inside => drawn_later (recorded.snaps snap inside) (Nat.le_succ _))
      ⟨_, Nat.lt_succ_self _, rfl⟩
  · refine forall_recordKey (fun entry inside => ?_) ⟨fixed held, known, mine.2, _, stored, shot⟩
    obtain ⟨context, old, named, snap, before, taken⟩ := recorded.shots entry inside
    refine ⟨context, old, named, snap, ?_, taken⟩
    exact (lookup_append _ _ _).trans (by rw [show lookup _ s.snaps _ = _ from before]; rfl)
  · rw [recorded.context_eq inside known (named.trans mine.2.symm)]
    exact shot

theorem exists_snapshot (known : (id, pid, loaded) ∈ (memory s).contexts) :
    ∃ snap taken, snapshot unhashed pid loaded.contextId key s = .ok (snap, taken) := by
  unfold snapshot
  dsimp only
  cases used : replayed s.idemSnapshot (pid, loaded.contextId, key) key with
  | some snapshotId =>
    obtain ⟨_, _, _, snap, found, _⟩ := recorded.shots _ (replayed_mem used)
    have found : lookup ContextSnapshot.snapshotId s.snaps snapshotId = some snap := found
    dsimp only
    rw [found]
    exact ⟨snap, s, rfl⟩
  | none =>
    obtain ⟨held, inside, same⟩ := mem_map.mp known
    cases same
    obtain ⟨first, found⟩ : ∃ first, s.handles.find? (fun other => decide (other.handle.pid = held.handle.pid ∧
        other.loaded.contextId = held.loaded.contextId)) = some first :=
      Option.isSome_iff_exists.mp (find?_isSome.mpr ⟨held, inside, decide_eq_true ⟨rfl, rfl⟩⟩)
    rw [found]
    exact ⟨_, _, rfl⟩

end

/-- A call that returns takes the service from one state to the next. One that raises
changes nothing, and neither do `read`, `inspect` and `evict`. The loads find the bytes
of the versions unchanged; a restoration may find others. -/
inductive Serves (p : Providers β δ) (unhashed : δ) (s s' : ServiceState β δ) : Prop
  | load (manifest : ContextManifest δ) (pid key : String) (handle : ContextHandle δ) (loaded : LoadedContext β δ)
      (ran : load p manifest pid key s = .ok ((handle, loaded), s'))
  | pin (pid handleId : String) (pageIds pins : List δ) (ran : pin pid handleId pageIds s = .ok (pins, s'))
  | unpin (pid handleId : String) (pageIds pins : List δ) (ran : unpin pid handleId pageIds s = .ok (pins, s'))
  | snapshot (pid contextId key : String) (snap : ContextSnapshot δ)
      (ran : snapshot unhashed pid contextId key s = .ok (snap, s'))
  | restoreSnapshot (now : Providers β δ) (pid snapshotId key : String)
      (result : ContextHandle δ × LoadedContext β δ)
      (ran : restoreSnapshot now pid snapshotId key s = .ok (result, s'))
  | close (pid handleId : String) (done : Bool) (ran : close pid handleId s = .ok (done, s'))
  | cleanupProcess (pid : String) (ran : s' = cleanupProcess pid s)

theorem Recorded.serves (recorded : Recorded p unhashed (memory s)) (served : Serves p unhashed s s') :
    Recorded p unhashed (memory s') := by
  have put : ∀ held ∈ s.handles, ∀ handle counts, fixed { held with handle := handle } = fixed held →
      Recorded p unhashed (memory (putHandle held handle { s with pinCounts := counts })) := by
    intro held member handle counts same
    rwa [memory_putHandle recorded.distinct (mem_map_of_mem member) same]
  cases served with
  | load manifest pid key handle loaded ran => exact (recorded.load ran).1
  | pin pid handleId pageIds pins ran | unpin pid handleId pageIds pins ran =>
    obtain ⟨held, opened, returned⟩ := bind_ok.mp ran
    cases returned
    exact put held (getOpenRec_mem opened) _ _ rfl
  | snapshot pid contextId key snap ran => exact (recorded.snapshot ran).1
  | restoreSnapshot now pid snapshotId key result ran =>
    rcases restoreSnapshot_cases ran with ⟨_, _, rfl⟩ | ⟨snap, pages, _, _, rfl⟩
    · exact recorded
    change Recorded p unhashed (memory { (register _ _ _ _ s).2 with idemLoad := s.idemLoad })
    rw [memory_register]
    exact recorded.append rfl rfl fun _ => .inl
  | close pid handleId done ran =>
    unfold close at ran
    split at ran
    · cases ran
      exact recorded
    rename_i held found
    split_ifs at ran
    · cases ran
      exact recorded
    cases ran
    exact put held (lookup_mem found) _ _ rfl
  | cleanupProcess pid ran =>
    rw [ran, cleanupProcess, memory_close recorded fun held member => mem_of_mem_filter member]
    exact recorded

end

/-- The states that the calls of any processes lead to. -/
def Reachable (p : Providers β δ) (unhashed : δ) : ServiceState β δ → Prop :=
  Relation.ReflTransGen (Serves p unhashed) {}

theorem recorded_of_reachable (reachable : Reachable p unhashed s) : Recorded p unhashed (memory s) := by
  induction reachable with
  | refl => constructor <;> simp [memory]
  | tail _ served recorded => exact recorded.serves served

/-- A loaded context, its snapshot, and the snapshot restored at any time when it is
still stored, under a key that was not used for it. -/
theorem snapshot_round_trip {manifest : ContextManifest δ} {handle : ContextHandle δ} {loaded : LoadedContext β δ}
    (snapshotKey : String) (contentInjective : Function.Injective p.hashes.content)
    (pageInjective : Function.Injective p.hashes.page) (reachable : Reachable p unhashed s)
    (ran : load p manifest pid key s = .ok ((handle, loaded), s')) :
    ∃ snap taken, snapshot unhashed pid loaded.contextId snapshotKey s' = .ok (snap, taken) ∧
      lookup ContextSnapshot.snapshotId taken.snaps snap.snapshotId = some snap ∧
      ∀ (now : ServiceState β δ) (read : String → Int → String → Option (List β)) (restoreKey : String),
        lookup ContextSnapshot.snapshotId now.snaps snap.snapshotId = some snap →
        replayed now.idemRestore (pid, snap.snapshotId, restoreKey) restoreKey = none →
        Restores p loaded pid snap.snapshotId restoreKey read now := by
  obtain ⟨recorded, sealed, id, known⟩ := (recorded_of_reachable reachable).load ran
  obtain ⟨snap, taken, shoots⟩ := exists_snapshot recorded known
  obtain ⟨_, stored, shot⟩ := recorded.snapshot shoots
  refine ⟨snap, taken, shoots, stored, fun now read restoreKey kept free => ?_⟩
  exact (shot _ known rfl).restores contentInjective pageInjective sealed read kept free

end

/-- A key that was used before gives the old handle, whatever the bytes are now. -/
theorem restoreSnapshot_replays_over_changed_bytes :
    let manifest := manifestOf [wholeRef "r" "a" [] "text/plain" true] 4
    let calls : Except ContextError (ServiceState ℕ Digest) := do
      let (_, s) ← load (library [("a", [])]) manifest "p" "" {}
      let (snap, s) ← snapshot (.content []) "p" (uuid 2) "" s
      let (_, s) ← restoreSnapshot (library [("a", [])]) "p" snap.snapshotId "k" s
      let (_, s) ← restoreSnapshot (library [("a", [1])]) "p" snap.snapshotId "k" s
      return s
    (library [("a", [1])]).readVersion "a" 1 "a" ≠ (library [("a", [])]).readVersion "a" 1 "a" ∧
      calls.isOk = true := by
  decide +kernel

theorem snapshot_round_trip_two_pages : ∃ handle loaded s' snap taken handle' loaded' s'',
    load shelf twoPages "p" "" {} = .ok ((handle, loaded), s') ∧ loaded.orderedPages.length = 2 ∧
    snapshot (.content []) "p" loaded.contextId "" s' = .ok (snap, taken) ∧
    restoreSnapshot shelf "p" snap.snapshotId "" taken = .ok ((handle', loaded'), s'') ∧
    loaded'.materializedHash = loaded.materializedHash := by
  obtain ⟨sel, selected, two⟩ : ∃ sel, selectFor shelf twoPages "p" = .ok sel ∧ sel.selected.length = 2 := by
    have done : (selectFor shelf twoPages "p").toOption.any (fun sel => decide (sel.selected.length = 2)) = true := by
      decide +kernel
    cases selected : selectFor shelf twoPages "p" with
    | error failure =>
      rw [selected] at done
      cases done
    | ok sel =>
      rw [selected] at done
      exact ⟨sel, rfl, of_decide_eq_true done⟩
  have ran := load_fresh "" {} (by decide +kernel) rfl selected
  obtain ⟨content, page⟩ := library_injective [("a", [7, 8, 9]), ("b", [5, 6, 7])]
  obtain ⟨snap, taken, shoots, stored, restores⟩ := snapshot_round_trip "" content page
    (.refl : Reachable shelf (.content []) _) ran
  obtain ⟨handle', loaded', s'', restored, _, _, same⟩ := (restores taken _ "" stored rfl).1 fun _ _ => rfl
  exact ⟨_, _, _, snap, taken, handle', loaded', s'', ran, (length_map _).trans two, shoots, restored, same⟩

end LongHorizonOS.ContextSnapshots
