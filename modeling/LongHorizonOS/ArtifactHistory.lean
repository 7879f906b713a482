import LongHorizonOS.ArtifactService

/-! Version histories under interleaved writers and crashes. A commit is a chain
of single steps that rely on what was read before them. As long as every write
finds the rows as its method has read them, the chain behaves like one
transaction: whoever has inserted a version still owes the two steps that
follow, and when nobody owes anything the tables agree with each other. -/
namespace LongHorizonOS.ArtifactHistory
open KeyedRows AtomicPrograms Interleaving KernelModels KernelTasks List Option
open ArtifactUri ArtifactModels ArtifactService

section
variable {γ : Type}

/-! ## The invariant -/

/-- What the tables say at all times. The version after the current one may be
there already. -/
structure Sound (w : FsWorld γ) : Prop where
  artifactIds : (w.tables.artifacts.map ArtifactRecord.artifactId).Nodup
  transactionIds : (w.tables.transactions.map WriteTransaction.transactionId).Nodup
  places : (w.tables.versions.map ArtifactVersion.place).Nodup
  drawnArtifact : ∀ record ∈ w.tables.artifacts, ∃ index < w.kernel.drawn, record.artifactId = uuid index
  drawnTransaction : ∀ txn ∈ w.tables.transactions, ∃ index < w.kernel.drawn, txn.transactionId = uuid index
  counted : ∀ record ∈ w.tables.artifacts, 0 ≤ record.currentVersion
  covered : ∀ record ∈ w.tables.artifacts, ∀ number, 1 ≤ number → number ≤ record.currentVersion →
    ∃ row ∈ w.tables.versions, row.place = (record.artifactId, number)
  bounded : ∀ row ∈ w.tables.versions, ∃ record ∈ w.tables.artifacts,
    record.artifactId = row.artifactId ∧ 1 ≤ row.version ∧ row.version ≤ record.currentVersion + 1
  caused : ∀ row ∈ w.tables.versions, ∃ txn ∈ w.tables.transactions,
    txn.transactionId = row.committedActionId ∧ txn.artifactId = row.artifactId ∧
      txn.expectedVersion = some (row.version - 1)
  based : ∀ txn ∈ w.tables.transactions, txn.artifactId ∈ w.tables.artifacts.map ArtifactRecord.artifactId
  expecting : ∀ txn ∈ w.tables.transactions, txn.expectedVersion ≠ none
  committed : ∀ txn ∈ w.tables.transactions, txn.state = .committed →
    ∃ row ∈ w.tables.versions, row.committedActionId = txn.transactionId

/-- What is once there stays. -/
structure Grows (w w' : FsWorld γ) : Prop where
  drawn : w.kernel.drawn ≤ w'.kernel.drawn
  artifacts : ∀ artifactId ∈ w.tables.artifacts.map ArtifactRecord.artifactId,
    artifactId ∈ w'.tables.artifacts.map ArtifactRecord.artifactId
  versions : ∀ row ∈ w.tables.versions, row ∈ w'.tables.versions

theorem Grows.refl (w : FsWorld γ) : Grows w w := ⟨le_rfl, fun _ => id, fun _ => id⟩

theorem Grows.trans {w w' w'' : FsWorld γ} (first : Grows w w') (second : Grows w' w'') : Grows w w'' :=
  ⟨first.drawn.trans second.drawn, fun _ member => second.artifacts _ (first.artifacts _ member),
    fun row member => second.versions row (first.versions row member)⟩

/-! ## Debts -/

inductive Debt where
  /-- The version after the current one of the artifact is there. -/
  | unadvanced (artifactId : String)
  /-- The transaction has a version and is not marked as committed with its hash. -/
  | unmarked (transactionId : String)

def Due (w : FsWorld γ) : Debt → Prop
  | .unadvanced artifactId => ∃ record ∈ w.tables.artifacts, record.artifactId = artifactId ∧
      ∃ row ∈ w.tables.versions, row.place = (artifactId, record.currentVersion + 1)
  | .unmarked transactionId => ∃ row ∈ w.tables.versions, row.committedActionId = transactionId ∧
      ¬ ∃ txn ∈ w.tables.transactions, txn.transactionId = transactionId ∧ txn.state = .committed ∧
        txn.stagedContentHash = row.contentHash

/-- The debts of a client once it has taken the step. -/
def opens : FsAccess → Debt → Prop
  | .insertVersion artifact txn _, debt =>
    debt = .unadvanced artifact.artifactId ∨ debt = .unmarked txn.transactionId
  | .advance _ txn _, debt => debt = .unmarked txn.transactionId
  | _, _ => False

/-- The debts of a client that is about to take the step. -/
def owes : FsAccess → Debt → Prop
  | .advance artifact txn _, debt =>
    debt = .unadvanced artifact.artifactId ∨ debt = .unmarked txn.transactionId
  | .conclude txn _, debt => debt = .unmarked txn.transactionId
  | _, _ => False

/-! ## Steps -/

/-- The step finds the rows that it depends on as its method has read them, a new
version finds its number free, and a transaction that is recovered still expects
the version that its artifact is at. -/
def Undisturbed : FsAccess → FsWorld γ → Prop
  | .insertVersion artifact txn row, w =>
    w.tables.getArtifact artifact.artifactId = some artifact ∧
    w.tables.getTransaction txn.transactionId = some txn ∧
    (txn.state = .uncertain → txn.expectedVersion = some artifact.currentVersion) ∧
    w.tables.getVersion row.artifactId row.version = none
  | .advance artifact _ _, w => w.tables.getArtifact artifact.artifactId = some artifact
  | .conclude txn _, w => w.tables.getTransaction txn.transactionId = some txn
  | .revise found _, w => w.tables.getTransaction found.transactionId = some found
  | _, _ => True

instance (access : FsAccess) (w : FsWorld γ) : Decidable (Undisturbed access w) :=
  match access with
  | .insertVersion .. => inferInstanceAs (Decidable (_ ∧ _ ∧ (_ → _) ∧ _))
  | .advance .. | .conclude .. | .revise .. => inferInstanceAs (Decidable (_ = _))
  | .other | .kernel _ | .lookUp .. => isTrue trivial

/-- The transaction of a new version expects the version that the artifact is at. -/
def Earned (w : FsWorld γ) (row : ArtifactVersion) : Prop :=
  ∃ txn artifact, w.tables.getTransaction row.committedActionId = some txn ∧
    w.tables.getArtifact row.artifactId = some artifact ∧ txn.expectedVersion = some artifact.currentVersion

/-- What every step does. -/
structure Keeps (access : FsAccess) (w w' : FsWorld γ) : Prop where
  grows : Grows w w'
  sound : Sound w'
  settles : ∀ debt, Due w' debt → Due w debt ∧ ¬ owes access debt ∨ opens access debt
  earned : ∀ row ∈ w'.tables.versions, row ∈ w.tables.versions ∨ Earned w row

def discipline : Discipline (FsWorld γ) FsAccess where
  rely w w' := Grows w w' ∧ Sound w'
  allowed := Undisturbed
  guarantee := Keeps

/-- A step that owes and opens nothing. -/
def Calm (access : FsAccess) : Prop := ∀ debt, ¬ owes access debt ∧ ¬ opens access debt

variable {w w' : FsWorld γ}

/-- The three tables stay as they are. -/
structure Quiet (access : FsAccess) (w w' : FsWorld γ) : Prop where
  calm : Calm access
  drawn : w.kernel.drawn ≤ w'.kernel.drawn
  artifacts : w'.tables.artifacts = w.tables.artifacts
  versions : w'.tables.versions = w.tables.versions
  transactions : w'.tables.transactions = w.tables.transactions

theorem calm_other : Calm .other := fun _ => ⟨id, id⟩

theorem calm_kernel {label} : Calm (.kernel label) := fun _ => ⟨id, id⟩

theorem Keeps.quiet (sound : Sound w) (quiet : Quiet access w w') : Keeps access w w' := by
  obtain ⟨calm, drawn, artifacts, versions, transactions⟩ := quiet
  refine ⟨⟨drawn, by rw [artifacts]; exact fun _ => id, by rw [versions]; exact fun _ => id⟩, ?_,
    fun debt due => .inl ⟨?_, (calm debt).1⟩, ?_⟩
  · obtain ⟨artifactIds, transactionIds, places, drawnArtifact, drawnTransaction, counted, covered, bounded,
      caused, based, expecting, committed⟩ := sound
    constructor <;> simp only [artifacts, versions, transactions]
    all_goals first | assumption | skip
    · exact fun record member => drawn_later (drawnArtifact record member) drawn
    exact fun txn member => drawn_later (drawnTransaction txn member) drawn
  · cases debt <;> simpa only [Due, artifacts, versions, transactions] using due
  · rw [versions]
    exact fun row member => .inl member

/-! ### New records -/

theorem Sound.freshArtifact (sound : Sound w) :
    uuid w.kernel.drawn ∉ w.tables.artifacts.map ArtifactRecord.artifactId := uuid_fresh sound.drawnArtifact

theorem Sound.freshTransaction (sound : Sound w) :
    uuid w.kernel.drawn ∉ w.tables.transactions.map WriteTransaction.transactionId :=
  uuid_fresh sound.drawnTransaction

/-- The world after one more id was drawn. -/
def drawOne (w : FsWorld γ) (tables : ArtifactTables) : FsWorld γ :=
  { w with kernel := { w.kernel with drawn := w.kernel.drawn + 1 }, tables }

theorem Keeps.newArtifact {record} (sound : Sound w)
    (named : record.artifactId = uuid w.kernel.drawn) (unversioned : record.currentVersion = 0) :
    Keeps .other w (drawOne w { w.tables with artifacts := w.tables.artifacts ++ [record] }) := by
  have fresh : record.artifactId ∉ w.tables.artifacts.map ArtifactRecord.artifactId := named ▸ sound.freshArtifact
  have bounded : ∀ row ∈ w.tables.versions, row.artifactId ≠ record.artifactId := by
    intro row member same
    obtain ⟨other, stored, here, -⟩ := sound.bounded row member
    exact fresh (same ▸ here ▸ mem_map_of_mem stored)
  refine ⟨⟨Nat.le_succ _, fun artifactId member => ?_, fun _ => id⟩, ?_, fun debt due => .inl ⟨?_, id⟩,
    fun row member => .inl member⟩
  · exact (map_append ▸ mem_append_left _ member :)
  · exact { sound with
      artifactIds := by
        change ((w.tables.artifacts ++ [record]).map _).Nodup
        rw [map_append]
        exact nodup_append_single sound.artifactIds fresh
      drawnArtifact := forall_append_single
        (fun other old => drawn_later (sound.drawnArtifact other old) (Nat.le_succ _))
        ⟨w.kernel.drawn, Nat.lt_succ_self _, named⟩
      drawnTransaction := fun txn member => drawn_later (sound.drawnTransaction txn member) (Nat.le_succ _)
      counted := forall_append_single sound.counted unversioned.ge
      covered := forall_append_single sound.covered fun number least most => by
        omega
      bounded := fun row member => (sound.bounded row member).imp fun other ⟨stored, rest⟩ =>
        ⟨mem_append_left _ stored, rest⟩
      based := fun txn member => (map_append ▸ mem_append_left _ (sound.based txn member) :) }
  · cases debt with
    | unadvanced artifactId =>
      obtain ⟨other, member, here, row, stored, placed⟩ := due
      rcases mem_append.mp member with old | new
      · exact ⟨other, old, here, row, stored, placed⟩
      obtain rfl := mem_singleton.mp new
      exact absurd ((congrArg Prod.fst placed).trans here.symm) (bounded row stored)
    | unmarked transactionId => exact due

theorem Keeps.newTransaction (sound : Sound w)
    (named : txn.transactionId = uuid w.kernel.drawn) (begun : txn.state = .begun)
    (based : txn.artifactId ∈ w.tables.artifacts.map ArtifactRecord.artifactId)
    (expecting : txn.expectedVersion ≠ none) :
    Keeps .other w (drawOne w { w.tables with transactions := w.tables.transactions ++ [txn] }) := by
  have fresh : txn.transactionId ∉ w.tables.transactions.map WriteTransaction.transactionId :=
    named ▸ sound.freshTransaction
  refine ⟨⟨Nat.le_succ _, fun _ => id, fun _ => id⟩, ?_, fun debt due => .inl ⟨?_, id⟩, fun row member => .inl member⟩
  · exact { sound with
      transactionIds := by
        change ((w.tables.transactions ++ [txn]).map _).Nodup
        rw [map_append]
        exact nodup_append_single sound.transactionIds fresh
      drawnArtifact := fun record member => drawn_later (sound.drawnArtifact record member) (Nat.le_succ _)
      drawnTransaction := forall_append_single
        (fun other old => drawn_later (sound.drawnTransaction other old) (Nat.le_succ _))
        ⟨w.kernel.drawn, Nat.lt_succ_self _, named⟩
      caused := fun row member => (sound.caused row member).imp fun other ⟨stored, rest⟩ =>
        ⟨mem_append_left _ stored, rest⟩
      based := forall_append_single sound.based based
      expecting := forall_append_single sound.expecting expecting
      committed := forall_append_single sound.committed fun marked => by
        rw [begun] at marked
        cases marked }
  · cases debt with
    | unadvanced artifactId => exact due
    | unmarked transactionId =>
      obtain ⟨row, stored, here, unmatched⟩ := due
      refine ⟨row, stored, here, fun ⟨other, old, rest⟩ => unmatched ⟨other, ?_, rest⟩⟩
      exact mem_append_left _ old

/-! ### Versions and artifacts -/

theorem Keeps.insertVersion (sound : Sound w) (same : txn.artifactId = artifact.artifactId)
    (expected : txn.expectedVersion = some artifact.currentVersion)
    (undisturbed : Undisturbed (.insertVersion artifact txn (nextVersion artifact txn contentRef)) w) :
    Keeps (.insertVersion artifact txn (nextVersion artifact txn contentRef)) w
    { w with tables := w.tables.insertVersion (nextVersion artifact txn contentRef) } := by
  obtain ⟨found, known, -, free⟩ := undisturbed
  have stored : artifact ∈ w.tables.artifacts := lookup_mem found
  rw [ArtifactTables.insertVersion_new free]
  set row := nextVersion artifact txn contentRef with shape
  have place : row.place = (artifact.artifactId, artifact.currentVersion + 1) := rfl
  refine ⟨⟨le_rfl, fun _ => id, fun other member => mem_append_left _ member⟩, ?_, ?_, ?_⟩
  · have least := sound.counted artifact stored
    exact { sound with
      places := by
        rw [map_append]
        exact nodup_append_single sound.places (lookup_eq_none.mp free)
      covered := fun record member number least most =>
        (sound.covered record member number least most).imp fun other ⟨old, placed⟩ =>
          ⟨mem_append_left _ old, placed⟩
      bounded := forall_append_single sound.bounded
        ⟨artifact, stored, rfl, by change 1 ≤ artifact.currentVersion + 1; omega, le_rfl⟩
      caused := forall_append_single sound.caused
        ⟨txn, lookup_mem known, rfl, same, by rw [expected, shape, nextVersion]; simp⟩
      committed := fun other member marked => (sound.committed other member marked).imp fun old ⟨stored, here⟩ =>
        ⟨mem_append_left _ stored, here⟩ }
  · intro debt due
    by_cases opened : opens (.insertVersion artifact txn row) debt
    · exact .inr opened
    refine .inl ⟨?_, id⟩
    cases debt with
    | unadvanced artifactId =>
      obtain ⟨record, member, here, other, listed, placed⟩ := due
      rcases mem_append.mp listed with old | new
      · exact ⟨record, member, here, other, old, placed⟩
      rw [mem_singleton.mp new, place] at placed
      exact absurd (.inl (congrArg Debt.unadvanced (congrArg Prod.fst placed).symm)) opened
    | unmarked transactionId =>
      obtain ⟨other, listed, here, unmatched⟩ := due
      rcases mem_append.mp listed with old | new
      · exact ⟨other, old, here, unmatched⟩
      rw [mem_singleton.mp new] at here
      exact absurd (.inr (congrArg Debt.unmarked here.symm)) opened
  · intro other member
    rcases mem_append.mp member with old | new
    · exact .inl old
    rw [mem_singleton.mp new]
    exact .inr ⟨txn, artifact, known, found, expected⟩

theorem Keeps.advance (sound : Sound w) (found : w.tables.getArtifact artifact.artifactId = some artifact)
    (inserted : nextVersion artifact txn contentRef ∈ w.tables.versions) :
    Keeps (.advance artifact txn (nextVersion artifact txn contentRef)) w
    { w with tables := { w.tables with
        artifacts := upsert ArtifactRecord.artifactId
          { artifact with currentVersion := artifact.currentVersion + 1 } w.tables.artifacts } } := by
  have stored : artifact ∈ w.tables.artifacts := lookup_mem found
  have members : ∀ record, record ∈ upsert ArtifactRecord.artifactId
      { artifact with currentVersion := artifact.currentVersion + 1 } w.tables.artifacts ↔
      record = { artifact with currentVersion := artifact.currentVersion + 1 } ∨
        record ∈ w.tables.artifacts ∧ record.artifactId ≠ artifact.artifactId :=
    fun record => mem_upsert_iff sound.artifactIds
  have ids : (upsert ArtifactRecord.artifactId
      { artifact with currentVersion := artifact.currentVersion + 1 } w.tables.artifacts).map
        ArtifactRecord.artifactId = w.tables.artifacts.map ArtifactRecord.artifactId :=
    map_key_upsert.trans (if_pos (mem_map_of_mem stored))
  refine ⟨⟨le_rfl, fun artifactId member => ids ▸ member, fun _ => id⟩, ?_, fun debt due => ?_,
    fun row member => .inl member⟩
  · exact { sound with
      artifactIds := ids ▸ sound.artifactIds
      drawnArtifact := forall_upsert sound.drawnArtifact (sound.drawnArtifact artifact stored)
      counted := forall_upsert sound.counted (Int.le_add_one (sound.counted artifact stored))
      covered := forall_upsert sound.covered fun number least most => by
        by_cases last : number = artifact.currentVersion + 1
        · exact ⟨_, inserted, by rw [last]; rfl⟩
        change number ≤ artifact.currentVersion + 1 at most
        exact sound.covered artifact stored number least (by omega)
      bounded := fun row member => by
        obtain ⟨record, old, named, least, most⟩ := sound.bounded row member
        by_cases here : record.artifactId = artifact.artifactId
        · obtain rfl := inj_on_of_nodup_map sound.artifactIds old stored here
          exact ⟨_, (members _).mpr (.inl rfl), named, least, by change _ ≤ record.currentVersion + 1 + 1; omega⟩
        · exact ⟨record, (members record).mpr (.inr ⟨old, here⟩), named, least, most⟩
      based := fun txn member => ids ▸ sound.based txn member }
  cases debt with
  | unadvanced artifactId =>
    obtain ⟨record, member, here, row, listed, placed⟩ := due
    rcases (members record).mp member with rfl | ⟨old, apart⟩
    · -- No row is that far ahead of the version that the artifact was at.
      obtain ⟨other, other_stored, named, -, most⟩ := sound.bounded row listed
      have same : other = artifact := inj_on_of_nodup_map sound.artifactIds other_stored stored
        (named.trans ((congrArg Prod.fst placed).trans here.symm))
      have ahead : row.version = artifact.currentVersion + 1 + 1 := congrArg Prod.snd placed
      rw [same] at most
      omega
    · refine .inl ⟨⟨record, old, here, row, listed, placed⟩, ?_⟩
      rintro (owed | owed)
      · cases owed
        exact apart here
      · cases owed
  | unmarked transactionId =>
    by_cases mine : transactionId = txn.transactionId
    · exact .inr (congrArg Debt.unmarked mine)
    refine .inl ⟨due, ?_⟩
    rintro (owed | owed)
    · cases owed
    cases owed
    exact mine rfl

/-! ### Transactions -/

/-- The same transaction in another state or with other contents. -/
def Rewrites (found written : WriteTransaction) : Prop :=
  written = { found with
    stagedContentRef := written.stagedContentRef
    stagedContentHash := written.stagedContentHash
    stagedSizeBytes := written.stagedSizeBytes
    state := written.state }

section
variable {found written : WriteTransaction}

theorem Rewrites.key (rewrites : Rewrites found written) : written.transactionId = found.transactionId := by
  rw [rewrites]

/-- A rewritten transaction that is marked as committed must have a version. -/
theorem Sound.rewrite (sound : Sound w) (stored : w.tables.getTransaction found.transactionId = some found)
    (rewrites : Rewrites found written) (versioned : written.state = .committed →
      ∃ row ∈ w.tables.versions, row.committedActionId = found.transactionId) :
    Sound { w with tables := w.tables.upsertTransaction written } := by
  have member : found ∈ w.tables.transactions := lookup_mem stored
  rw [ArtifactTables.upsertTransaction_found stored rewrites]
  have members : ∀ txn, txn ∈ upsert WriteTransaction.transactionId written w.tables.transactions ↔
      txn = written ∨ txn ∈ w.tables.transactions ∧ txn.transactionId ≠ written.transactionId :=
    fun txn => mem_upsert_iff sound.transactionIds
  have artifact : written.artifactId = found.artifactId := by rw [rewrites]
  have expected : written.expectedVersion = found.expectedVersion := by rw [rewrites]
  exact { sound with
    transactionIds := nodup_upsert sound.transactionIds
    drawnTransaction := forall_upsert sound.drawnTransaction
      (by rw [rewrites.key]; exact sound.drawnTransaction found member)
    caused := fun row listed => by
      obtain ⟨txn, old, named, place, before⟩ := sound.caused row listed
      by_cases here : txn.transactionId = written.transactionId
      · obtain rfl := inj_on_of_nodup_map sound.transactionIds old member (here.trans rewrites.key)
        exact ⟨written, (members _).mpr (.inl rfl), rewrites.key.trans named, artifact.trans place,
          expected.trans before⟩
      · exact ⟨txn, (members txn).mpr (.inr ⟨old, here⟩), named, place, before⟩
    based := forall_upsert sound.based (by rw [artifact]; exact sound.based found member)
    expecting := forall_upsert sound.expecting (by rw [expected]; exact sound.expecting found member)
    committed := forall_upsert sound.committed (by rw [rewrites.key]; exact versioned) }

/-- A rewritten transaction changes no debt but its own. -/
theorem due_rewrite {debt} (sound : Sound w) (stored : w.tables.getTransaction found.transactionId = some found)
    (rewrites : Rewrites found written) (others : debt ≠ .unmarked found.transactionId)
    (due : Due { w with tables := w.tables.upsertTransaction written } debt) : Due w debt := by
  rw [ArtifactTables.upsertTransaction_found stored rewrites] at due
  cases debt with
  | unadvanced artifactId => exact due
  | unmarked transactionId =>
    obtain ⟨row, listed, here, unmatched⟩ := due
    refine ⟨row, listed, here, fun ⟨txn, old, named, rest⟩ => unmatched ⟨txn, ?_, named, rest⟩⟩
    refine (mem_upsert_iff sound.transactionIds).mpr (.inr ⟨old, fun same => others ?_⟩)
    rw [← named, same, rewrites.key]

/-- A transaction has at most one version. -/
theorem Sound.version_unique (sound : Sound w) {other} (member : row ∈ w.tables.versions)
    (otherMember : other ∈ w.tables.versions)
    (same : row.committedActionId = other.committedActionId) : row = other := by
  obtain ⟨txn, stored, named, artifact, before⟩ := sound.caused row member
  obtain ⟨txn', stored', named', artifact', before'⟩ := sound.caused other otherMember
  obtain rfl := inj_on_of_nodup_map sound.transactionIds stored stored' (by rw [named, named', same])
  refine inj_on_of_nodup_map sound.places member otherMember (Prod.ext (artifact.symm.trans artifact') ?_)
  have numbers := some.inj (before.symm.trans before')
  change row.version = other.version
  omega

theorem Keeps.conclude {txn} (sound : Sound w) (stored : w.tables.getTransaction txn.transactionId = some txn)
    (inserted : row ∈ w.tables.versions) (named : row.committedActionId = txn.transactionId)
    (hash : row.contentHash = txn.stagedContentHash) : Keeps (.conclude txn row) w
    { w with tables := w.tables.upsertTransaction { txn with state := .committed } } := by
  have rewrites : Rewrites txn { txn with state := .committed } := rfl
  refine ⟨⟨le_rfl, fun _ => id, fun _ => id⟩, sound.rewrite stored rewrites fun _ => ⟨row, inserted, named⟩,
    fun debt due => .inl ?_, fun row member => .inl member⟩
  by_cases mine : debt = .unmarked txn.transactionId
  · subst mine
    obtain ⟨other, listed, here, unmatched⟩ := due
    obtain rfl := sound.version_unique listed inserted (here.trans named.symm)
    refine absurd ⟨{ txn with state := .committed }, ?_, rfl, rfl, hash.symm⟩ unmatched
    rw [ArtifactTables.upsertTransaction_found stored rewrites]
    exact (mem_upsert_iff sound.transactionIds).mpr (.inl rfl)
  · exact ⟨due_rewrite sound stored rewrites mine due, mine⟩

theorem Keeps.revise (sound : Sound w) (stored : w.tables.getTransaction found.transactionId = some found)
    (rewrites : Rewrites found written) (unmarked : found.state ≠ .committed) (versioned : written.state = .committed →
      ∃ row ∈ w.tables.versions, row.committedActionId = found.transactionId) :
    Keeps (.revise found written) w { w with tables := w.tables.upsertTransaction written } := by
  refine ⟨⟨le_rfl, fun _ => id, fun _ => id⟩, sound.rewrite stored rewrites versioned,
    fun debt due => .inl ⟨?_, id⟩, fun row member => .inl member⟩
  by_cases mine : debt = .unmarked found.transactionId
  · subst mine
    obtain ⟨row, listed, here, -⟩ := due
    refine ⟨row, listed, here, fun ⟨txn, old, named, marked, _⟩ => ?_⟩
    obtain rfl := inj_on_of_nodup_map sound.transactionIds old (lookup_mem stored) named
    exact unmarked marked
  · exact due_rewrite sound stored rewrites mine due

end

/-! ## Methods -/

/-- Under the discipline the task returns what satisfies the postcondition. -/
def Yields {α : Type} (post : α → FsWorld γ → Prop) (task : FsTask γ α) (w : FsWorld γ) : Prop :=
  ∀ held, SafeTask discipline (fun a w _ => post a w) (fun _ _ _ => True) task w held

namespace Yields
variable {α β : Type}

theorem pure {a : α} (holds : post a w) : Yields post (Pure.pure a) w := fun _ => holds

theorem throw (failure) : Yields post (MonadExcept.throw failure) w := fun _ => trivial

variable {K : FsWorld γ → Prop}

theorem bind (head : Yields post first w)
    (tail : ∀ a w, post a w → Yields post' (rest a) w) : Yields post' (first >>= rest) w :=
  fun held => (head held).bind fun a w held holds => tail a w holds held

/-- A step that reads. -/
theorem fetch {read} (reads : ∀ w', Grows w w' → Sound w' → post (read w'.tables) w') :
    Yields post (ArtifactService.fetch read) w := fun _ => safe_fetch fun w' ⟨grows, sound⟩ =>
  ⟨.quiet sound ⟨calm_other, le_rfl, rfl, rfl, rfl⟩, reads w' grows sound⟩

/-- A step that writes to the tables. -/
theorem save {post change} (writes : ∀ w', Grows w w' → Sound w' → Undisturbed access w' →
    Keeps access w' { w' with tables := change w'.tables } ∧ post () { w' with tables := change w'.tables }) :
    Yields post (ArtifactService.save access change) w := fun held =>
  safe_save fun w' ⟨grows, sound⟩ undisturbed =>
    have done := writes w' grows sound undisturbed
    ⟨done.1, held, by simp [discipline], done.2⟩

/-- What stays true while the tables grow is still known afterwards. -/
theorem frame {task} (stable : ∀ w w', K w → Grows w w' → K w') (known : K w)
    (yields : Yields post task w) : Yields (fun a w => post a w ∧ K w) task w := fun held =>
  Safe.mono (fun result _ _ ended => by cases result <;> simp_all [outcome])
    (Safe.frame (K := K) (fun w w' relied known => stable w w' known relied.1)
      (fun _ w w' step known => stable w w' known step.grows) (yields held) known)

/-- A task that leaves the three tables alone keeps what stays true. -/
theorem quiet {task : FsTask γ α} (stable : ∀ w w', K w → Grows w w' → K w')
    (known : K w) (quiet : AlwaysTask Quiet task) : Yields (fun _ w => K w) task w := fun _ =>
  .mono (.of_always (I := fun w _ => K w) quiet known fun _ w w' w'' known relied _ step =>
    ⟨.quiet relied.2 step, le_rfl, stable w' w'' (stable w w' known relied.1) (Keeps.quiet relied.2 step).grows⟩)
    (fun _ _ _ kept => kept) fun _ _ _ _ => trivial

end Yields

/-! ### Quiet tasks -/

section
variable {α : Type}

theorem quiet_reads {task : FsTask γ α} (reads : AlwaysTask Reads task) : AlwaysTask Quiet task := by
  refine .mono (fun access w w' ⟨other, same⟩ => ?_) reads
  rw [other, same]
  exact ⟨calm_other, le_rfl, rfl, rfl, rfl⟩

theorem quiet_look (read : FsWorld γ → α) : AlwaysTask Quiet (look read) := quiet_reads reads_look

theorem quiet_fetch (read : ArtifactTables → α) : AlwaysTask Quiet (fetch read : FsTask γ α) :=
  quiet_reads reads_fetch

theorem quiet_tell {event} : AlwaysTask Quiet (tell event : FsTask γ Unit) :=
  .step fun _ => ⟨calm_other, le_rfl, rfl, rfl, rfl⟩

theorem quiet_drive {access : Storage γ → α × Storage γ} : AlwaysTask Quiet (drive access) :=
  .step fun _ => ⟨calm_other, le_rfl, rfl, rfl, rfl⟩

theorem quiet_save {change} (artifacts : ∀ tables, (change tables).artifacts = tables.artifacts)
    (versions : ∀ tables, (change tables).versions = tables.versions)
    (transactions : ∀ tables, (change tables).transactions = tables.transactions) :
    AlwaysTask Quiet (save .other change : FsTask γ Unit) :=
  .step fun w => ⟨calm_other, le_rfl, artifacts w.tables, versions w.tables, transactions w.tables⟩

theorem quiet_kernel {task} (drawing : AlwaysTask (fun _ w w' => w.drawn ≤ w'.drawn) task) :
    AlwaysTask Quiet (kernel task : FsTask γ α) :=
  always_kernel (fun _ _ _ drawn => ⟨calm_kernel, drawn, rfl, rfl, rfl⟩) drawing

theorem drawing_send {targetPid signalType} {sourcePid payload} :
    AlwaysTask (fun _ w w' => w.drawn ≤ w'.drawn) (SignalService.send targetPid signalType sourcePid payload) := by
  refine (AlwaysTask.step fun _ => Nat.le_add_right _ _).bind fun _ => ?_
  refine (AlwaysTask.step fun _ => le_rfl).bind fun _ => ?_
  refine (always_update fun _ => le_rfl).bind fun _ => ?_
  exact (always_update fun _ => le_rfl).bind fun _ => .pure _

theorem quiet_notifyWatches {canonicalUri} {newVersion} {writerPid} :
    AlwaysTask Quiet (notifyWatches canonicalUri newVersion writerPid : FsTask γ Unit) := by
  refine (quiet_fetch _).bind fun watches => .forM fun watch => ?_
  split
  · exact (quiet_kernel drawing_send).bind fun _ => .pure _
  exact .pure _

end

/-! ### Methods that write -/

/-- The artifact has a record. -/
def Recorded (artifactId : String) (w : FsWorld γ) : Prop :=
  artifactId ∈ w.tables.artifacts.map ArtifactRecord.artifactId

theorem recorded_stable {artifactId} (w w' : FsWorld γ) (recorded : Recorded artifactId w)
    (grows : Grows w w') : Recorded artifactId w' := grows.artifacts _ recorded

/-- What is known lets the task yield, and its debts are shown whatever is known. -/
structure Conforms {α : Type} (known : Prop) (post : α → FsWorld γ → Prop) (task : FsTask γ α)
    (w : FsWorld γ) : Prop where
  yields : known → Yields post task w
  discharges : DischargesTask discipline opens owes task

namespace Conforms
variable {α β : Type}

theorem pure {a : α} (holds : known → post a w) : Conforms known post (Pure.pure a) w :=
  ⟨fun here => .pure (holds here), .pure _⟩

theorem throw (failure) : Conforms known post (MonadExcept.throw failure) w :=
  ⟨fun _ => .throw _, .throw _⟩

theorem mono {known' : Prop} {task} (knows : known' → known) (conforms : Conforms known post task w) :
    Conforms known' post task w := ⟨fun here => conforms.yields (knows here), conforms.discharges⟩

variable {K : FsWorld γ → Prop}

theorem bind (head : Conforms known post first w)
    (tail : ∀ a w, Conforms (known ∧ post a w) post' (rest a) w) : Conforms known post' (first >>= rest) w where
  yields here := (head.yields here).bind fun a w holds => (tail a w).yields ⟨here, holds⟩
  discharges := head.discharges.bind fun a => (tail a w).discharges

/-- Nothing needs to be known of what the first part returns. -/
theorem andThen (head : Conforms known (fun _ _ => True) first w)
    (tail : ∀ a w, Conforms known post' (rest a) w) : Conforms known post' (first >>= rest) w :=
  head.bind fun a w => (tail a w).mono And.left

/-- A task that leaves the three tables alone keeps what stays true. -/
theorem quiet (stable : ∀ w w', K w → Grows w w' → K w') (holds : known → K w)
    (quiet : AlwaysTask Quiet first) : Conforms known (fun _ w => K w) first w where
  yields here := .quiet stable (holds here) quiet
  discharges := .of_always (.mono (fun _ _ _ step debt => (step.calm debt).2) quiet)

/-- Nothing needs to be known of the tables. -/
theorem quietly (quiet : AlwaysTask Quiet first) : Conforms known (fun _ _ => True) first w :=
  .quiet (fun _ _ _ _ => trivial) (fun _ => trivial) quiet

theorem skip (quiet : AlwaysTask Quiet first) (tail : ∀ a w, Conforms known post' (rest a) w) :
    Conforms known post' (first >>= rest) w :=
  .andThen (.quietly quiet) tail

theorem fetch {read} (reads : known → ∀ w', Grows w w' → Sound w' → post (read w'.tables) w') :
    Conforms known post (ArtifactService.fetch read) w :=
  ⟨fun here => .fetch (reads here), .of_always (.mono (fun _ _ _ step debt => (step.calm debt).2) (quiet_fetch _))⟩

end Conforms

theorem conforms_createArtifactRecord {pid : String} :
    Conforms known (fun record w => Recorded record.artifactId w) (createArtifactRecord canonical pid) w := by
  refine .skip (quiet_fetch _) fun ns w => ?_
  cases ns with
  | none => exact .throw _
  | some ns =>
    have inserts : Yields (fun record w => Recorded record.artifactId w)
        (insertNew (fun artifactId =>
            { artifactId, namespaceId := canonical.namespaceId, canonicalUri := canonical.canonical
              createdByPid := pid })
          fun record tables => tables.upsertArtifact record) w := by
      refine fun held => .step fun w' ⟨_, sound⟩ _ => ?_
      have fresh := sound.freshArtifact
      dsimp only
      split
      · exact ⟨.quiet sound ⟨calm_other, Nat.le_succ _, rfl, rfl, rfl⟩, held, by simp [discipline], trivial⟩
      rename_i tables inserted
      obtain ⟨-, rfl⟩ := ArtifactTables.upsertArtifact_new fresh inserted
      refine ⟨.newArtifact sound rfl rfl, held, by simp [discipline], ?_⟩
      exact mem_map_of_mem (mem_append_right _ (mem_singleton_self _))
    refine .bind ⟨fun _ => inserts, .step fun _ => id⟩ fun record w => ?_
    refine .bind (.quiet recorded_stable And.right quiet_tell) ?_
    exact fun _ w => .pure And.right

theorem conforms_findOrCreate {pid} {found} {mode} :
    Conforms (∀ record ∈ found, Recorded record.artifactId w) (fun record w => Recorded record.artifactId w)
    (findOrCreate pid canonical found mode) w := by
  cases found with
  | some record => exact .pure fun known => known record rfl
  | none =>
    unfold findOrCreate
    dsimp only
    split
    · exact .throw _
    exact conforms_createArtifactRecord

theorem conforms_beginWrite (rules : TextRules) (pid uri key : String) (expected : Option Int) :
    Conforms known (fun _ _ => True) (beginWrite rules pid uri key expected) w := by
  refine .skip (quiet_reads reads_resolveAndCheck) fun canonical w => ?_
  have finds : Conforms known (fun found w => ∀ record ∈ found, Recorded record.artifactId w)
      (fetch fun tables => tables.getArtifactByUri canonical.canonical) w :=
    .fetch fun _ w' _ _ record found => mem_map_of_mem (lookup_mem found)
  refine .bind finds fun found w => ?_
  refine .bind (conforms_findOrCreate.mono And.right) fun artifact w => ?_
  refine .bind (.quiet recorded_stable And.right (quiet_fetch _)) fun existing w => ?_
  cases existing with
  | some existing =>
    dsimp only
    split
    · exact .throw _
    exact .pure fun _ => trivial
  | none =>
    dsimp only
    split
    · exact .throw _
    refine .andThen ⟨fun ⟨_, recorded⟩ held => .step fun w' ⟨grows, sound⟩ _ => ?_, .step fun _ => id⟩
      fun txn w => .skip quiet_tell fun _ w => .pure fun _ => trivial
    dsimp only
    rw [ArtifactTables.upsertTransaction_new sound.freshTransaction]
    exact ⟨.newTransaction sound rfl rfl (grows.artifacts _ recorded) nofun, held, by simp [discipline], trivial⟩

variable {found written : WriteTransaction}

theorem conforms_revise (rewrites : Rewrites found written) (unmarked : known → found.state ≠ .committed)
    (versioned : known → ∀ w', Grows w w' → written.state = .committed →
      ∃ row ∈ w'.tables.versions, row.committedActionId = found.transactionId) : Conforms known (fun _ _ => True)
      (save (.revise found written) fun tables => tables.upsertTransaction written) w :=
  ⟨fun here => .save fun w' grows sound stored =>
    ⟨.revise sound stored rewrites (unmarked here) (versioned here w' grows), trivial⟩, .step fun _ => id⟩

theorem conforms_reviseTransaction {event} (rewrites : Rewrites found written)
    (unmarked : found.state ≠ .committed) (marks : written.state ≠ .committed) :
    Conforms known (fun _ _ => True) (reviseTransaction found written event) w :=
  .bind (conforms_revise rewrites (fun _ => unmarked) fun _ _ _ marked => absurd marked marks)
    fun _ _ => .quietly quiet_tell

variable (digest : Digest γ) (transactionId : String)

theorem conforms_stage : Conforms known (fun _ _ => True) (stage digest transactionId content) w := by
  refine .skip (quiet_fetch _) fun found w => ?_
  cases found with
  | none => exact .throw _
  | some txn =>
    dsimp only
    split
    · exact .throw _
    rename_i pending
    refine .skip quiet_drive fun _ w => ?_
    refine .skip (quiet_reads reads_overQuota) fun message w => ?_
    cases message with
    | some message => exact .skip quiet_drive fun _ w => .throw _
    | none =>
      exact .bind (conforms_reviseTransaction rfl (fun marked => pending (.inl marked)) nofun)
        fun _ w => .pure fun _ => trivial

theorem conforms_abort : Conforms known (fun _ _ => True) (abort transactionId : FsTask γ WriteTransaction) w := by
  refine .skip (quiet_fetch _) fun found w => ?_
  cases found with
  | none => exact .throw _
  | some txn =>
    dsimp only
    split
    · exact .pure fun _ => trivial
    rename_i pending
    refine .skip quiet_drive fun _ w => ?_
    exact .bind (conforms_reviseTransaction rfl (fun marked => pending (.inl marked)) nofun)
      fun _ w => .pure fun _ => trivial

/-- A transaction that has passed the check of `commit` expects the version that it was
compared with. -/
theorem Sound.expected (sound : Sound w) {current} (known : w.tables.getTransaction txn.transactionId = some txn)
    (passed : ¬ (txn.expectedVersion.any fun expected => decide (current ≠ expected)) = true) :
    txn.expectedVersion = some current := by
  cases expected : txn.expectedVersion with
  | none => exact absurd expected (sound.expecting txn (lookup_mem known))
  | some version =>
    rw [expected, any_some, decide_eq_true_iff, not_not] at passed
    rw [passed]

/-- A transaction comes either from `commit`, which has checked the version, or from
`recover`, which has not. -/
theorem yields_recordCommitted (same : txn.artifactId = artifact.artifactId) (checked : txn.state = .uncertain ∨
      ¬ (txn.expectedVersion.any fun expected => decide (artifact.currentVersion ≠ expected)) = true) :
    Yields (fun _ _ => True) (recordCommitted artifact txn contentRef : FsTask γ Unit) w := by
  have inserts : Yields (fun _ w => nextVersion artifact txn contentRef ∈ w.tables.versions)
      (save (.insertVersion artifact txn (nextVersion artifact txn contentRef)) fun tables =>
        tables.insertVersion (nextVersion artifact txn contentRef)) w := by
    refine .save fun w' _ sound undisturbed =>
      ⟨.insertVersion sound same (checked.elim undisturbed.2.2.1 (sound.expected undisturbed.2.1)) undisturbed, ?_⟩
    rw [ArtifactTables.insertVersion_new undisturbed.2.2.2]
    exact mem_append_right _ (mem_singleton_self _)
  refine .bind inserts fun _ w inserted => ?_
  have advances : Yields (fun _ w => nextVersion artifact txn contentRef ∈ w.tables.versions)
      (attempt (.advance artifact txn (nextVersion artifact txn contentRef)) fun tables =>
        tables.upsertArtifact { artifact with currentVersion := artifact.currentVersion + 1 }) w := by
    refine fun held => .step fun w' ⟨grows, sound⟩ found => ?_
    have written := ArtifactTables.upsertArtifact_found (artifact.currentVersion + 1) artifact.deleted found
    dsimp only at written ⊢
    rw [written]
    exact ⟨.advance sound found (grows.versions _ inserted), held, by simp [discipline], grows.versions _ inserted⟩
  refine .bind advances fun _ w inserted => ?_
  exact .save fun w' grows sound stored =>
    ⟨.conclude sound stored (grows.versions _ inserted) rfl rfl, trivial⟩

/-- Who inserts a version goes on with the artifact, and then with the transaction. -/
theorem discharges_recordCommitted (txn) :
    DischargesTask discipline opens owes (recordCommitted artifact txn contentRef : FsTask γ Unit) := by
  intro w _
  refine ⟨fun debt opened => ⟨_, rfl, opened⟩, fun w' found => ?_⟩
  have written := ArtifactTables.upsertArtifact_found (artifact.currentVersion + 1) artifact.deleted found
  simp only [nextVersion] at written ⊢
  rw [written]
  exact ⟨fun debt opened => ⟨_, rfl, opened⟩, fun _ _ => ⟨fun _ => False.elim, trivial⟩⟩

theorem conforms_commit : Conforms known (fun _ _ => True) (commit digest transactionId) w := by
  refine .skip (quiet_fetch _) fun found w => ?_
  cases found with
  | none => exact .throw _
  | some txn =>
    dsimp only
    split
    · exact .pure fun _ => trivial
    rename_i unmarked
    split
    · exact .throw _
    split
    · exact .throw _
    have finds : Conforms known (fun found _ => ∀ artifact ∈ found, txn.artifactId = artifact.artifactId)
        (fetch fun tables => tables.getArtifact txn.artifactId) w :=
      .fetch fun _ _ _ _ artifact found => (lookup_key found).symm
    refine .bind finds fun found w => ?_
    cases found with
    | none => exact .throw _
    | some artifact =>
      dsimp only
      split
      · refine .bind (conforms_revise rfl (fun _ => unmarked) nofun) fun _ w => ?_
        refine .skip quiet_drive fun _ w => ?_
        exact .skip quiet_tell fun _ w => .throw _
      rename_i passed
      refine .skip quiet_drive fun result w => ?_
      refine .skip (quiet_reads reads_contentLost) fun lost w => ?_
      cases lost with
      | true =>
        exact .bind (conforms_reviseTransaction rfl unmarked nofun) fun _ w => .pure fun _ => trivial
      | false =>
        refine .bind ⟨fun ⟨_, same⟩ => yields_recordCommitted (same artifact rfl) (.inr passed),
          discharges_recordCommitted txn⟩ fun _ w => ?_
        refine .bind (.quietly (quiet_save (fun _ => rfl) (fun _ => rfl) fun _ => rfl)) fun _ w => ?_
        refine .skip quiet_tell fun _ w => ?_
        exact .skip quiet_notifyWatches fun _ w => .pure fun _ => trivial

/-! ### Recovery -/

/-- What `recover` knows of a row that it resolves. -/
def Unresolved (txn : WriteTransaction) (w : FsWorld γ) : Prop :=
  txn.state = .uncertain ∧ Recorded txn.artifactId w

theorem unresolved_stable (w w' : FsWorld γ) (unresolved : Unresolved txn w) (grows : Grows w w') :
    Unresolved txn w' := ⟨unresolved.1, recorded_stable w w' unresolved.2 grows⟩

theorem conforms_resolveUncertain :
    Conforms (Unresolved txn w) (fun _ _ => True) (resolveUncertain txn : FsTask γ Unit) w := by
  have unmarked {w : FsWorld γ} (unresolved : Unresolved txn w) : txn.state ≠ .committed := by
    simp [unresolved.1]
  refine .bind (.quiet unresolved_stable id (quiet_look _)) fun stored w => ?_
  cases stored with
  | false => exact conforms_revise rfl (fun here => unmarked here.2) nofun
  | true =>
    have finds : Conforms (Unresolved txn w)
        (fun found _ => ∃ artifact, found = some artifact ∧ txn.artifactId = artifact.artifactId)
        (fetch fun tables => tables.getArtifact txn.artifactId) w := by
      refine .fetch fun ⟨_, recorded⟩ w' grows _ => ?_
      obtain ⟨artifact, found⟩ := exists_lookup (grows.artifacts _ recorded)
      exact ⟨artifact, found, (lookup_key found).symm⟩
    refine .bind (finds.mono And.right) fun found w => ?_
    cases found with
    | none => exact conforms_revise rfl (fun ⟨_, _, missing, _⟩ => nomatch missing) nofun
    | some artifact =>
      have searches : Conforms True
          (fun found w => ∀ row ∈ found, row ∈ w.tables.versions ∧ row.committedActionId = txn.transactionId)
          (fetch fun tables => tables.versions.find? fun row =>
            decide (row.committedActionId = txn.transactionId)) w :=
        .fetch fun _ w' _ _ row found => ⟨mem_of_find?_eq_some found, by simpa using find?_some found⟩
      refine .bind (searches.mono fun _ => trivial) fun found w => ?_
      cases found with
      | none =>
        refine ⟨?_, discharges_recordCommitted txn⟩
        rintro ⟨⟨unresolved, _, found, same⟩, -⟩
        cases found
        exact yields_recordCommitted same (.inl unresolved.2.1)
      | some row =>
        refine conforms_revise rfl (fun here => unmarked here.1.1.2) fun here _ grows _ => ?_
        obtain ⟨member, named⟩ := here.2 row rfl
        exact ⟨row, grows.versions row member, named⟩

/-- What is known of the rows stays true while earlier ones are resolved. -/
theorem conforms_resolveAll (rows : List WriteTransaction) :
    Conforms (∀ txn ∈ rows, Unresolved txn w) (fun _ _ => True) (rows.forM resolveUncertain : FsTask γ Unit) w := by
  induction rows generalizing w with
  | nil => exact .pure fun _ => trivial
  | cons txn rows ih =>
    have first : Conforms (∀ row ∈ txn :: rows, Unresolved row w)
        (fun _ w => True ∧ ∀ row ∈ rows, Unresolved row w) (resolveUncertain txn) w := by
      refine ⟨fun known => ?_, conforms_resolveUncertain.discharges (w := w)⟩
      obtain ⟨here, later⟩ := forall_mem_cons.mp known
      exact (conforms_resolveUncertain.yields here).frame
        (fun w w' known grows row member => unresolved_stable w w' (known row member) grows) later
    exact .bind first fun _ w => ih.mono fun known => known.2.2

theorem conforms_recover : Conforms known (fun _ _ => True) (recover : FsTask γ Unit) w := by
  have finds : Conforms known (fun rows w => ∀ txn ∈ rows, Unresolved txn w)
      (fetch fun tables => tables.transactions.filter fun txn => decide (txn.state = .uncertain)) w := by
    refine .fetch fun _ w' _ sound txn member => ?_
    obtain ⟨listed, uncertain⟩ := mem_filter.mp member
    exact ⟨of_decide_eq_true uncertain, sound.based txn listed⟩
  refine .bind finds fun rows w => ?_
  refine .bind ((conforms_resolveAll rows).mono And.right) fun _ w => ?_
  exact .skip (quiet_fetch _) fun _ w => .quietly quiet_drive

/-! ## Runs -/

/-- The calls of the writers. -/
inductive WriterCall (γ : Type) where
  | beginWrite (pid uri idempotencyKey : String) (expectedVersion : Option Int)
  | stage (transactionId : String) (content : γ)
  | commit (transactionId : String)
  | abort (transactionId : String)
  | recover

def WriterCall.program (rules : TextRules) (digest : Digest γ) :
    WriterCall γ → Program (FsWorld γ) FsAccess Unit
  | .beginWrite pid uri idempotencyKey expectedVersion =>
    (ArtifactService.beginWrite rules pid uri idempotencyKey expectedVersion).launch
  | .stage transactionId content => (ArtifactService.stage digest transactionId content).launch
  | .commit transactionId => (ArtifactService.commit digest transactionId).launch
  | .abort transactionId => (ArtifactService.abort transactionId).launch
  | .recover => ArtifactService.recover.launch

/-- What the other services write while the writers run. -/
structure Surroundings where
  store : KernelStore
  clock : Int
  /-- How many ids they draw. -/
  draws : ℕ
  namespaces : List ArtifactNamespace
  mounts : List NamespaceMount
  watches : List ArtifactWatch

def surround (w : FsWorld γ) (around : Surroundings) : FsWorld γ :=
  { w with
    kernel := { w.kernel with store := around.store, clock := around.clock,
                              drawn := w.kernel.drawn + around.draws }
    tables := { w.tables with namespaces := around.namespaces, mounts := around.mounts,
                              watches := around.watches } }

/-- Writers whose steps interleave. A client that steps no further has crashed. -/
def writers (rules : TextRules) (digest : Digest γ) :
    Machine (FsWorld γ) (Program (FsWorld γ) FsAccess Unit) Surroundings (WriterCall γ) :=
  machine surround (WriterCall.program rules digest)

theorem quiet_surround (around) : Quiet .other w (surround w around) :=
  ⟨calm_other, Nat.le_add_right _ _, rfl, rfl, rfl⟩

theorem Conforms.launch {post : α → FsWorld γ → Prop} {task} (conforms : Conforms True post task w) :
    Safe discipline Any task.launch w 0 ∧ Discharges discipline opens owes task.launch :=
  ⟨(conforms.yields trivial 0).launch, conforms.discharges.launch⟩

theorem conforms_program (call : WriterCall γ) (w : FsWorld γ) : Safe discipline Any (call.program rules digest) w 0 ∧
      Discharges discipline opens owes (call.program rules digest) := by
  cases call with
  | beginWrite pid uri idempotencyKey expectedVersion =>
    exact (conforms_beginWrite rules pid uri idempotencyKey expectedVersion).launch
  | stage transactionId content => exact (conforms_stage digest transactionId).launch
  | commit transactionId => exact (conforms_commit digest transactionId).launch
  | abort transactionId => exact (conforms_abort transactionId).launch
  | recover => exact conforms_recover.launch

theorem admits (rules : TextRules) :
    discipline.Admits (Sound (γ := γ)) surround (WriterCall.program rules digest) where
  trans _ _ _ first second := ⟨first.1.trans second.1, second.2⟩
  guaranteed _ _ _ _ keeps := ⟨keeps.sound, keeps.grows, keeps.sound⟩
  acts w around sound := by
    have keeps := Keeps.quiet sound (quiet_surround around)
    exact ⟨keeps.sound, ⟨keeps.grows, keeps.sound⟩, le_rfl⟩
  self w sound := ⟨.refl w, sound⟩
  enters w call _ := (conforms_program digest call w).1

theorem sound_start (kernel) : Sound ({ kernel } : FsWorld γ) where
  artifactIds := .nil
  transactionIds := .nil
  places := .nil
  drawnArtifact := nofun
  drawnTransaction := nofun
  counted := nofun
  covered := nofun
  bounded := nofun
  caused := nofun
  based := nofun
  expecting := nofun
  committed := nofun

/-! ## Consistent histories -/

/-- The client has inserted a version and not yet marked its transaction. -/
def Pending : FsAccess → Prop
  | .advance .. | .conclude .. => True
  | _ => False

/-- No client stands, or has crashed, between the version that it has inserted
and the mark on its transaction. -/
def AtRest (system : System (FsWorld γ) (Program (FsWorld γ) FsAccess Unit)) : Prop :=
  ∀ client ∈ system.clients, ∀ access, client.label? = some access → ¬ Pending access

/-- The version carries the staged contents of the transaction. -/
def Carries (txn : WriteTransaction) (row : ArtifactVersion) : Prop :=
  row.committedActionId = txn.transactionId ∧ row.contentHash = txn.stagedContentHash

/-- What the tables owe each other. -/
structure Consistent (tables : ArtifactTables) : Prop where
  places : (tables.versions.map ArtifactVersion.place).Nodup
  numbered : ∀ record ∈ tables.artifacts, ∀ number,
    (∃ row ∈ tables.versions, row.place = (record.artifactId, number)) ↔
      1 ≤ number ∧ number ≤ record.currentVersion
  recorded : ∀ txn ∈ tables.transactions, txn.state = .committed → ∃ row ∈ tables.versions, Carries txn row ∧
      ∀ other ∈ tables.versions, other.committedActionId = txn.transactionId → other = row
  apart : ∀ txn ∈ tables.transactions, ∀ txn' ∈ tables.transactions,
    txn.state = .committed → txn'.state = .committed →
    ∀ row ∈ tables.versions, ∀ row' ∈ tables.versions,
      Carries txn row → Carries txn' row' → row.place = row'.place → txn = txn'

/-- Tables without debts are consistent. -/
theorem Sound.consistent (sound : Sound w) (clear : ∀ debt, ¬ Due w debt) : Consistent w.tables := by
  constructor
  case places => exact sound.places
  case numbered =>
    intro record member number
    refine ⟨fun ⟨row, listed, placed⟩ => ?_, fun ⟨least, most⟩ => sound.covered record member number least most⟩
    obtain ⟨other, stored, named, least, most⟩ := sound.bounded row listed
    have named' : row.artifactId = record.artifactId := congrArg Prod.fst placed
    have numbered : row.version = number := congrArg Prod.snd placed
    obtain rfl := inj_on_of_nodup_map sound.artifactIds stored member (named.trans named')
    refine ⟨numbered ▸ least, ?_⟩
    by_contra beyond
    refine clear (.unadvanced other.artifactId) ⟨other, member, rfl, row, listed, placed.trans ?_⟩
    rw [show number = other.currentVersion + 1 by omega]
  case recorded =>
    intro txn member marked
    obtain ⟨row, listed, named⟩ := sound.committed txn member marked
    refine ⟨row, listed, ⟨named, ?_⟩, fun other stored same =>
      sound.version_unique stored listed (same.trans named.symm)⟩
    by_contra differs
    refine clear (.unmarked txn.transactionId) ⟨row, listed, named, fun ⟨other, stored, same, _, hash⟩ => ?_⟩
    obtain rfl := inj_on_of_nodup_map sound.transactionIds stored member same
    exact differs hash.symm
  case apart =>
    intro txn member txn' member' _ _ row listed row' listed' carries carries' placed
    obtain rfl := inj_on_of_nodup_map sound.places listed listed' placed
    exact inj_on_of_nodup_map sound.transactionIds member member' (carries.1.symm.trans carries'.1)

/-- In every interleaving whose writes find the rows as their methods have read them,
a version is only inserted for a transaction that expects the version its artifact is
at, and wherever no client stands between a version and its mark the tables are
consistent. -/
theorem undisturbed_histories_are_consistent (rules : TextRules) (kernel : World)
    {events : List (Event Surroundings (WriterCall γ))} (undisturbed : (writers rules digest).Meets
      (fun _ w client => ∀ access, client.label? = some access → Undisturbed access w) { kernel } events) :
    (AtRest ((writers rules digest).conduct { kernel } events) →
      Consistent ((writers rules digest).conduct { kernel } events).shared.tables) ∧
    ∀ before event later, events = before ++ event :: later →
      ∀ row ∈ ((writers rules digest).conduct { kernel } (before ++ [event])).shared.tables.versions,
        row ∈ ((writers rules digest).conduct { kernel } before).shared.tables.versions ∨
          Earned ((writers rules digest).conduct { kernel } before).shared row := by
  have initial := sound_start (γ := γ) kernel
  refine ⟨fun rest => ?_, fun before event later split row => ?_⟩
  · have clear : ∀ debt, ¬ Due ({ kernel } : FsWorld γ) debt := by
      rintro (artifactId | transactionId) ⟨_, stored, -⟩ <;> cases stored
    have acts : ∀ (w : FsWorld γ) around debt, Due (surround w around) debt → Due w debt := by
      rintro w around (artifactId | transactionId) due <;> exact due
    refine (conduct_accounted (admits digest rules) initial undisturbed).1.consistent fun debt due => ?_
    obtain ⟨client, member, access, shown, owed⟩ := conduct_owed (admits digest rules) initial undisturbed
      clear acts (fun call => (conforms_program digest call { kernel }).2)
      (fun _ _ _ _ keeps => keeps.settles) debt due
    refine rest client member access shown ?_
    cases access with
    | advance | conclude => trivial
    | _ => exact owed.elim
  · rw [Machine.conduct_append]
    cases event with
    | act around => exact .inl
    | enter call => exact .inl
    | step index =>
      rw [Machine.next]
      cases turn : ((writers rules digest).conduct { kernel } before).clients[index]? with
      | none => exact .inl
      | some client =>
        cases client with
        | ret a => exact .inl
        | step access write next =>
          exact (conduct_step (admits digest rules) initial undisturbed split turn).2.earned row

/-! ## Schedules -/

/-- Texts that are their own hashes. -/
def plainDigest : Digest String := { hash := id, size := String.length, injective := fun _ _ => id }

/-- One process may read and write in its own namespace, which holds three bytes. -/
def workspace : Surroundings where
  store := { capabilitySets :=
    [("p", [{ resourcePattern := "artifact://ns-p/**", operations := ["read", "write"] }])] }
  clock := 0
  draws := 0
  namespaces := [{ namespaceId := "ns-p", ownerPid := "p", rootUri := "artifact://ns-p/",
                   quotaBytes := some 3, maxOpenHandles := none }]
  mounts := []
  watches := []

/-- The client takes up to so many steps. -/
def advances (index count : ℕ) : List (Event Surroundings (WriterCall String)) :=
  List.replicate count (.step index)

/-- The call runs from its first step to its last. -/
def completes (index : ℕ) (call : WriterCall String) : List (Event Surroundings (WriterCall String)) :=
  .enter call :: advances index 16

def runs (events : List (Event Surroundings (WriterCall String))) :
    System (FsWorld String) (Program (FsWorld String) FsAccess Unit) :=
  (writers plainRules plainDigest).conduct { kernel := {} } events

theorem atRest_of_done {system : System (FsWorld γ) (Program (FsWorld γ) FsAccess Unit)}
    (done : (system.clients.all fun client => client.label?.isNone) = true) : AtRest system := by
  intro client member access shown
  have idle := all_eq_true.mp done client member
  rw [shown] at idle
  cases idle

/-- Two transactions for one new artifact, both with staged contents. -/
def bothStaged : List (Event Surroundings (WriterCall String)) :=
  .act workspace :: (completes 0 (.beginWrite "p" "workspace:///f" "k" none) ++
    completes 1 (.beginWrite "p" "workspace:///f" "l" none) ++
    completes 2 (.stage "uu" "a") ++ completes 3 (.stage "uuu" "b"))

/-- Both commits have read the artifact before either inserts its version. -/
def race : List (Event Surroundings (WriterCall String)) :=
  bothStaged ++ [.enter (.commit "uu"), .enter (.commit "uuu")] ++
    advances 4 2 ++ advances 5 2 ++ advances 4 16 ++ advances 5 16

/-- The commit stops right after it has inserted the version. -/
def crash : List (Event Surroundings (WriterCall String)) :=
  bothStaged ++ [.enter (.commit "uu")] ++ advances 4 4

/-- The first transaction loses its staged file to the quota and becomes uncertain. The
second one commits the same contents. -/
def recommitted : List (Event Surroundings (WriterCall String)) :=
  .act workspace :: (completes 0 (.beginWrite "p" "workspace:///f" "k" none) ++
    completes 1 (.stage "uu" "a") ++ completes 2 (.stage "uu" "long") ++ completes 3 (.commit "uu") ++
    completes 4 (.beginWrite "p" "workspace:///f" "l" none) ++ completes 5 (.stage "uuu" "a") ++
    completes 6 (.commit "uuu"))

/-- The only commit. -/
def committedOnce : List (Event Surroundings (WriterCall String)) := bothStaged ++ completes 4 (.commit "uu")

/-- Two writers that race both end as committed with one version between them. A commit
that crashes after its first write leaves a version beyond the current one. Recovery
takes contents that another transaction has stored for those of its own, and adds a
version to an artifact that has moved on. -/
theorem disturbed_writers_break_the_history : (AtRest (runs race) ∧ ¬ Consistent (runs race).shared.tables) ∧
    ¬ Consistent (runs crash).shared.tables ∧ AtRest (runs recommitted) ∧
    ∃ row ∈ (runs (recommitted ++ completes 7 .recover)).shared.tables.versions,
      row ∉ (runs recommitted).shared.tables.versions ∧ ¬ Earned (runs recommitted).shared row := by
  refine ⟨⟨atRest_of_done (by decide +kernel), fun consistent => ?_⟩, fun consistent => ?_,
    atRest_of_done (by decide +kernel), ?_⟩
  · have unversioned : ∃ txn ∈ (runs race).shared.tables.transactions, txn.state = .committed ∧
        ∀ row ∈ (runs race).shared.tables.versions, row.committedActionId ≠ txn.transactionId := by
      decide +kernel
    obtain ⟨txn, member, marked, none⟩ := unversioned
    obtain ⟨row, listed, carries, -⟩ := consistent.recorded txn member marked
    exact none row listed carries.1
  · have ahead : ∃ record ∈ (runs crash).shared.tables.artifacts, record.currentVersion = 0 ∧
        ∃ row ∈ (runs crash).shared.tables.versions, row.place = (record.artifactId, 1) := by
      decide +kernel
    obtain ⟨record, member, unversioned, present⟩ := ahead
    have most := ((consistent.numbered record member 1).mp present).2
    omega
  · have late : ∃ row ∈ (runs (recommitted ++ completes 7 .recover)).shared.tables.versions,
        row ∉ (runs recommitted).shared.tables.versions ∧
        ((runs recommitted).shared.tables.getTransaction row.committedActionId).map
          WriteTransaction.expectedVersion = some (some 0) ∧
        ((runs recommitted).shared.tables.getArtifact row.artifactId).map
          ArtifactRecord.currentVersion = some 1 := by
      decide +kernel
    obtain ⟨row, member, new, expects, at_⟩ := late
    refine ⟨row, member, new, fun ⟨txn, artifact, known, found, expected⟩ => ?_⟩
    rw [known] at expects
    rw [found] at at_
    simp only [map_some, some.injEq] at expects at_
    rw [expects, at_] at expected
    cases expected

theorem undisturbed_write_is_consistent : Consistent (runs committedOnce).shared.tables ∧
    (runs committedOnce).shared.tables.versions.map ArtifactVersion.place = [("u", 1)] := by
  have undisturbed : (writers plainRules plainDigest).Meets
      (fun _ w client => ∀ access, client.label? = some access → Undisturbed access w) { kernel := {} }
      committedOnce := meets_of_tests (by decide +kernel)
  have rest : AtRest (runs committedOnce) := atRest_of_done (by decide +kernel)
  refine ⟨?_, by decide +kernel⟩
  unfold runs at rest ⊢
  exact (undisturbed_histories_are_consistent plainDigest plainRules {} undisturbed).1 rest

end
end LongHorizonOS.ArtifactHistory
