import LongHorizonOS.ContextSnapshots

/-! Loads under an idempotency key. The key leads to the handle of the first load of a
manifest with the same hash, whatever has become of the handle, and the hash leaves
out what a selection reads from the metadata and of the recoverable references. What
is said of loads in any order of the references covers these replays. -/
namespace LongHorizonOS.ContextReplays
open KeyedRows FailFast KernelTasks ContextPager ContextService ContextLoads ContextSnapshots List

variable {β δ : Type} [DecidableEq δ] (p : Providers β δ)

def read (pid handleId : String) (s : ServiceState β δ) : Except ContextError (LoadedContext β δ) := do
  let held ← getOpenRec pid handleId s
  return held.loaded

inductive HandleCall (δ : Type) where
  | load (manifest : ContextManifest δ) (callerPid idempotencyKey : String)
  | close (pid handleId : String)

/-- A call that raises changes nothing. -/
def perform (s : ServiceState β δ) : HandleCall δ → ServiceState β δ
  | .load manifest callerPid key => (load p manifest callerPid key s).toOption.elim s Prod.snd
  | .close pid handleId => (close pid handleId s).toOption.elim s Prod.snd

def handleCalls (calls : List (HandleCall δ)) : ServiceState β δ := calls.foldl (perform p) {}

/-- A key leads to the context of a manifest that was loaded under it, and a handle is
closed by a call only. -/
structure Kept (calls : List (HandleCall δ)) (s : ServiceState β δ) : Prop where
  recorded : Recorded p (p.hashes.content []) (memory s)
  loads : ∀ entry ∈ s.idemLoad, ∃ manifest sel contextId workingSetId,
    .load manifest entry.1.1 entry.1.2.2 ∈ calls ∧ p.hashes.manifestHash manifest = entry.1.2.1 ∧
    selectFor p manifest entry.1.1 = .ok sel ∧
    (entry.2, entry.1.1, materialize p manifest entry.1.1 contextId workingSetId sel) ∈ (memory s).contexts
  closed : ∀ held ∈ s.handles, held.handle.closed = true → ∃ pid, .close pid held.id ∈ calls

variable {p}

theorem Kept.mono (kept : Kept p calls s) (call) : Kept p (calls ++ [call]) s where
  recorded := kept.recorded
  loads entry member := by
    obtain ⟨manifest, sel, contextId, workingSetId, called, rest⟩ := kept.loads entry member
    exact ⟨manifest, sel, contextId, workingSetId, mem_append_left _ called, rest⟩
  closed held member closed := by
    obtain ⟨pid, called⟩ := kept.closed held member closed
    exact ⟨pid, mem_append_left _ called⟩

theorem Kept.load (kept : Kept p calls s) (ran : load p manifest pid key s = .ok ((handle, loaded), s')) :
    Kept p (calls ++ [.load manifest pid key]) s' := by
  have recorded := (kept.recorded.load ran).1
  obtain ⟨_, ⟨_, _, _, rfl⟩ | ⟨sel, ⟨_, selected⟩, _, rfl⟩⟩ := load_cases ran
  · exact kept.mono _
  have kept := kept.mono (.load manifest pid key)
  refine ⟨recorded, ?_, forall_append_single kept.closed nofun⟩
  rw [memory_register]
  refine forall_recordKey (fun entry member => ?_) ?_
  · obtain ⟨other, sel, contextId, workingSetId, called, hash, chosen, known⟩ := kept.loads entry member
    exact ⟨other, sel, contextId, workingSetId, called, hash, chosen, mem_append_left _ known⟩
  · exact ⟨manifest, sel, _, _, by simp, rfl, selected, mem_append_right _ (mem_singleton_self _)⟩

theorem Kept.close (kept : Kept p calls s) (ran : close pid handleId s = .ok (done, s')) :
    Kept p (calls ++ [.close pid handleId]) s' := by
  have kept := kept.mono (.close pid handleId)
  unfold ContextService.close at ran
  split at ran
  · cases ran
    exact kept
  rename_i held found
  split_ifs at ran
  · cases ran
    exact kept
  cases ran
  have same : memory ([held].foldl closeRec s) = memory s :=
    memory_close kept.recorded (by simpa using lookup_mem found)
  refine ⟨same ▸ kept.recorded, fun entry member => same ▸ kept.loads entry member, ?_⟩
  obtain rfl : held.id = handleId := lookup_key found
  exact forall_upsert kept.closed fun _ => ⟨pid, mem_append_right _ (mem_singleton_self _)⟩

theorem kept_handleCalls (calls) : Kept p calls (handleCalls p calls) := by
  induction calls using List.reverseRecOn with
  | nil => exact ⟨by constructor <;> simp [handleCalls, memory], nofun, nofun⟩
  | append_singleton calls call ih =>
    rw [handleCalls, foldl_append, ← handleCalls]
    cases call with
    | load manifest pid key =>
      change Kept p _ ((load p manifest pid key _).toOption.elim _ Prod.snd)
      cases ran : load p manifest pid key (handleCalls p calls) with
      | error failure => exact ih.mono _
      | ok result => exact ih.load ran
    | close pid handleId =>
      change Kept p _ ((close pid handleId _).toOption.elim _ Prod.snd)
      cases ran : close pid handleId (handleCalls p calls) with
      | error failure => exact ih.mono _
      | ok result => exact ih.close ran

/-- The manifests whose context a load may return: its own, or for a replay one with its
hash that was loaded under the key. -/
def Behind (p : Providers β δ) (calls : List (HandleCall δ)) (s : ServiceState β δ) (manifest : ContextManifest δ)
    (pid key : String) (other : ContextManifest δ) : Prop :=
  if replayed s.idemLoad (pid, p.hashes.manifestHash manifest, key) key = none then other = manifest
  else .load other pid key ∈ calls ∧ p.hashes.manifestHash other = p.hashes.manifestHash manifest

/-- A load returns the context of such a manifest under a handle of the caller. -/
theorem returned_of_kept (kept : Kept p calls s) (ran : load p manifest pid key s = .ok ((handle, loaded), s')) :
    validateManifest p manifest pid = .ok () ∧ ∃ held ∈ s'.handles, held.handle = handle ∧ held.loaded = loaded ∧
      handle.pid = pid ∧ ∃ other sel contextId workingSetId, Behind p calls s manifest pid key other ∧
        selectFor p other pid = .ok sel ∧ loaded = materialize p other pid contextId workingSetId sel := by
  obtain ⟨valid, ⟨held, ⟨id, found, stored⟩, returned, rfl⟩ | ⟨sel, ⟨unused, selected⟩, returned, rfl⟩⟩ :=
    load_cases ran
  · cases returned
    obtain ⟨other, sel, contextId, workingSetId, called, hash, selected, known⟩ := kept.loads _ (replayed_mem found)
    have here : fixed held ∈ (memory s').contexts := mem_map_of_mem (lookup_mem stored)
    have named : held.id = id := lookup_key stored
    have equal := inj_on_of_nodup_map kept.recorded.distinct here known named
    obtain ⟨_, owner, context⟩ : _ ∧ _ ∧ _ := by simpa [fixed] using equal
    refine ⟨valid, held, lookup_mem stored, rfl, rfl, owner, other, sel, contextId, workingSetId, ?_, selected, context⟩
    rw [Behind, found]
    exact ⟨called, hash⟩
  · cases returned
    refine ⟨valid, _, mem_append_right _ (mem_singleton_self _), rfl, rfl, rfl, manifest, sel, _, _, ?_, selected, rfl⟩
    rw [Behind, if_pos unused]

/-- In every run of loads and closes, a load returns a handle that the caller can read,
with the pages and the omissions of a load without a key, as long as nobody has closed
the handle before and no other manifest with the same hash was loaded under the key. -/
theorem keyed_load_is_fresh (p : Providers β δ) (calls : List (HandleCall δ))
    (same : ∀ other, .load other pid key ∈ calls →
      p.hashes.manifestHash other = p.hashes.manifestHash manifest → other = manifest)
    (ran : load p manifest pid key (handleCalls p calls) = .ok ((handle, loaded), s'))
    (unclosed : ∀ other, .close other handle.handleId ∉ calls) :
    handle.closed = false ∧ handle.pid = pid ∧ read pid handle.handleId s' = .ok loaded ∧
      ∃ handle' loaded' after, load p manifest pid "" (handleCalls p calls) = .ok ((handle', loaded'), after) ∧
        loaded.orderedPages = loaded'.orderedPages ∧ loaded.omittedRefs = loaded'.omittedRefs := by
  have kept := kept_handleCalls (p := p) calls
  obtain ⟨valid, held, member, rfl, rfl, owner, other, sel, contextId, workingSetId, behind, selected, context⟩ :=
    returned_of_kept kept ran
  obtain rfl : other = manifest := by
    rw [Behind] at behind
    split_ifs at behind
    · exact behind
    · exact same other behind.1 behind.2
  have after := kept.load ran
  have opened : held.handle.closed = false := by
    by_contra closed
    obtain ⟨other, called⟩ := after.closed held member (by simpa using closed)
    exact unclosed other (by simpa [HandleRec.id] using called)
  have distinct := after.recorded.distinct
  rw [memory, map_map] at distinct
  have found : lookup HandleRec.id s'.handles held.handle.handleId = some held := lookup_of_mem distinct member
  refine ⟨opened, owner, ?_, _, _, _, load_fresh "" _ valid rfl selected, by rw [context]; rfl, by rw [context]; rfl⟩
  simp [read, getOpenRec, getOwningRec, found, owner, opened, demand, require, bind, Except.bind, pure, Except.pure]

/-- The manifest of one empty reference. -/
def oneRef : ContextManifest Digest := manifestOf [wholeRef "r" "a" [] "text/plain" true] 4

/-- The handle was closed in between: the second load returns it all the same, and it
cannot be read. -/
theorem keyed_load_returns_closed_handle :
    let s := handleCalls (library [("a", [])]) [.load oneRef "p" "k", .close "p" (uuid 1)]
    ((load (library [("a", [])]) oneRef "p" "k" s).toOption.map fun result =>
      (result.1.1.handleId, result.1.1.closed, (read "p" result.1.1.handleId result.2).isOk)) =
        some (uuid 1, true, false) := by
  decide +kernel

theorem second_keyed_load_is_fresh : ∃ handle loaded s',
    load shelf twoPages "p" "k" (handleCalls shelf [.load twoPages "p" "k"]) = .ok ((handle, loaded), s') ∧
      read "p" handle.handleId s' = .ok loaded := by
  obtain ⟨⟨⟨handle, loaded⟩, s'⟩, ran⟩ : ∃ result, load shelf twoPages "p" "k"
    (handleCalls shelf [.load twoPages "p" "k"]) = .ok result := exists_ok (by decide +kernel)
  exact ⟨handle, loaded, s', ran, (keyed_load_is_fresh _ _ (by simp) ran (by simp)).2.2.1⟩

/-! ## The order of the references -/

/-- What a hash of manifests reads of a reference. -/
def hashedRef (ref : ContentRef δ) : ContentRef δ := { ref with recoverable := false }

/-- The manifests have the same references and pages, as far as their hashes read them. -/
def Alike (a b : ContextManifest δ) : Prop :=
  a.pageSizeBytes = b.pageSizeBytes ∧ (a.refs.map hashedRef).Perm (b.refs.map hashedRef)

/-- In every run, a load does not depend on the order of the references exactly if it
fails, is a replay, or the references to each selected artifact agree on their media.
Where they agree in the manifest that the context comes from, the pages are those of
references of the manifest, each with the media of its own. -/
theorem load_ignores_ref_order (p : Providers β δ) (calls : List (HandleCall δ)) (manifest : ContextManifest δ)
    (pid key : String) (same : ∀ other, .load other pid key ∈ calls →
      p.hashes.manifestHash other = p.hashes.manifestHash manifest → Alike other manifest) :
    ((∀ refs, refs.Perm manifest.refs →
      (load p { manifest with refs := refs } pid key (handleCalls p calls)).map (fun result => outcome result.1.2) =
        (load p manifest pid key (handleCalls p calls)).map (fun result => outcome result.1.2)) ↔
      (validateManifest p manifest pid = .ok () →
        replayed (handleCalls p calls).idemLoad (pid, p.hashes.manifestHash manifest, key) key = none →
          SelectedAgree p manifest pid)) ∧
    ((∀ other, Behind p calls (handleCalls p calls) manifest pid key other → SelectedAgree p other pid) →
      ∀ handle loaded s', load p manifest pid key (handleCalls p calls) = .ok ((handle, loaded), s') →
        ∃ kept : List (ContentRef δ × List (LoadedPage β δ)), loaded.orderedPages = kept.flatMap Prod.snd ∧
          ∀ entry ∈ kept, entry.1 ∈ manifest.refs.map hashedRef ∧ CarriesMedia p manifest entry.1 entry.2) := by
  refine ⟨order_iff key _, fun agree handle loaded s' ran => ?_⟩
  obtain ⟨_, _, _, _, _, _, other, sel, contextId, workingSetId, behind, selected, rfl⟩ :=
    returned_of_kept (kept_handleCalls calls) ran
  obtain ⟨sized, perm⟩ : Alike other manifest := by
    rw [Behind] at behind
    split_ifs at behind
    · exact behind ▸ ⟨rfl, .refl _⟩
    · exact same other behind.1 behind.2
  obtain ⟨kept, pages, carries⟩ := carriesMedia_materialize (agree other behind) selected
  refine ⟨kept.map fun entry => (hashedRef entry.1, entry.2), by rw [pages, flatMap_map], fun entry member => ?_⟩
  obtain ⟨entry, inside, rfl⟩ := mem_map.mp member
  obtain ⟨among, media⟩ := carries entry inside
  rw [CarriesMedia, sized] at media
  exact ⟨perm.mem_iff.mp (mem_map_of_mem among), media⟩

/-- Two references to one artifact with different media types: the one that the caller
lists last decides for the pages of both. -/
theorem load_media_depends_on_ref_order : let plain := wholeRef "r" "a" [7, 8, 9] "text/plain" false
    let html := wholeRef "q" "a" [7, 8, 9] "text/html" false
    let media := fun refs => (load shelf (manifestOf refs 2) "p" "" {}).map fun result =>
      result.1.2.orderedPages.map LoadedPage.mediaType
    media [plain, html] = .ok ["text/html", "text/html", "text/html", "text/html"] ∧
      media [html, plain] = .ok ["text/plain", "text/plain", "text/plain", "text/plain"] := by
  decide +kernel

/-- References to two artifacts, with two pages each. -/
def twoRefs : ContextManifest Digest :=
  manifestOf [wholeRef "r" "a" [7, 8, 9] "text/plain" false, wholeRef "q" "b" [5, 6, 7] "text/html" false] 2

theorem load_ignores_order_of_two :
    ((load shelf twoRefs "p" "k" {}).toOption.any fun result => decide (result.1.2.orderedPages.length = 4)) = true ∧
    (load shelf { twoRefs with refs := twoRefs.refs.reverse } "p" "k" {}).map (fun result => outcome result.1.2) =
      (load shelf twoRefs "p" "k" {}).map (fun result => outcome result.1.2) := by
  have agree : SelectedAgree shelf twoRefs "p" := by
    intro sel _ page _ a left b right
    simp only [twoRefs, manifestOf, mem_cons, not_mem_nil, or_false] at left right
    rcases left with rfl | rfl <;> rcases right with rfl | rfl <;> simp [wholeRef] <;> intro first second <;>
      exact absurd (first.trans second.symm) (by decide)
  exact ⟨by decide +kernel, (load_ignores_ref_order shelf [] twoRefs "p" "k" (by simp)).1.mpr (fun _ _ => agree) _
    (reverse_perm _)⟩

end LongHorizonOS.ContextReplays
