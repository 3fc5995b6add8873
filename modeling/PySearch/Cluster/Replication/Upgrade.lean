import PySearch.Cluster.Replication.Resync
import PySearch.Search.Engine.Recovery

namespace PySearch

variable {α : Type} [Arith α] [LinearOrder α]

namespace SearchEngine

-- A start on an empty database embeds nothing, so it succeeds with any embedder.
theorem initializeEngine_empty (ctx : EngineContext α) : ∃ report replica,
    initializeEngine ctx (.new ctx (.openDatabase .empty)) .none = (.ok report, replica) := by
  obtain ⟨unicode, params, embedder⟩ := ctx
  cases embedder with
  | none => exact ⟨_, _, rfl⟩
  | some embedder => exact ⟨_, _, rfl⟩

theorem initializeEngine_fresh {ctx : EngineContext α} {faults : RebuildFaults}
    {report : RebuildReport} {replica : SearchEngine α}
    (h : initializeEngine ctx (.new ctx (.openDatabase .empty)) faults = (.ok report, replica)) :
    replica.store.database = .empty ∧ replica.generation = 0 ∧
      ∀ id, replica.derived.documents.get? id = none := by
  obtain ⟨hstore, -, hexact⟩ := initializeEngine_ok h
  have hdb : replica.store.database = .empty := by
    rw [hstore]
    rfl
  refine ⟨hdb, ?_, ?_⟩
  · rw [hexact.generation, hdb]
    rfl
  · intro id
    rw [hexact.derived.documents, hdb]
    rfl

end SearchEngine

namespace ReplicaSynchronizer

variable (ctx : EngineContext α)

-- What the primary answers to the two requests of `synchronize`, unless they fail.
structure Answers (primary : SearchEngine α) (remote : Except PyError Int)
    (answer : Except PyError (List Document × Int)) : Prop where
  remote : remote = .ok primary.status.generation ∨ ∃ error, remote = .error error
  answer : answer = primary.exportSnapshot ∨ ∃ error, answer = .error error

-- A replica that starts on an empty database, reports that it is synchronized and is ready
-- holds the documents of the primary.
def SoundFor (primary : SearchEngine α) : Prop :=
  ∀ startFaults report replica, SearchEngine.initializeEngine ctx (.new ctx (.openDatabase .empty))
      startFaults = (.ok report, replica) →
  ∀ remote answer fault faults, Answers primary remote answer →
    let result := synchronize ctx replica remote answer fault faults
    result.2.synchronized = true → result.1.state = .ready →
    ∀ id, result.1.store.database.rows.get? id = primary.store.database.rows.get? id ∧
      result.1.derived.documents.get? id = primary.store.database.rows.get? id

variable {ctx} {primary replica : SearchEngine α}

-- Equal generations end the comparison with the structures the replica has.
theorem synchronize_equal {remote : Int} (h : replica.generation = remote)
    (answer : Except PyError (List Document × Int)) (fault : Bool) (faults : RebuildFaults) :
    synchronize ctx replica (.ok remote) answer fault faults =
      (replica.markReady, ⟨true, "synchronized with the primary", remote, some remote⟩) := by
  simp only [synchronize, beginSynchronize, compare, h, if_true]
  rfl

-- A primary below generation 0 is behind the empty replica, which then refuses to serve.
theorem soundFor_of_ahead (hgeneration : primary.generation < 0) : SoundFor ctx primary := by
  intro startFaults report replica hstart remote answer fault faults hanswers result hdone hready id
  obtain ⟨-, hzero, -⟩ := SearchEngine.initializeEngine_fresh hstart
  rcases hanswers.remote with rfl | ⟨error, rfl⟩
  · have hne : ¬ 0 = primary.generation := by omega
    have hahead : 0 > primary.generation := hgeneration
    simp only [result, synchronize, beginSynchronize, compare, hzero, SearchEngine.status, hne,
      hahead, if_false, if_true] at hdone
    cases hdone
  · cases hdone

theorem soundFor_of_behind (hexact : primary.state = .ready → primary.Exact ctx)
    (hgeneration : 0 < primary.generation) : SoundFor ctx primary := by
  intro startFaults report replica hstart remote answer fault faults hanswers result hdone hready id
  obtain ⟨-, hzero, -⟩ := SearchEngine.initializeEngine_fresh hstart
  rcases hanswers.remote with rfl | ⟨error, rfl⟩
  · have hbehind : result = resynchronizeFrom ctx (beginResynchronize
        (replica.markRecovering "verifying synchronization with the primary") 0
          (some primary.generation)).1 0 (some primary.generation) answer fault faults := by
      have hne : ¬ 0 = primary.generation := by omega
      have hle : ¬ 0 > primary.generation := by omega
      simp only [result, synchronize, beginSynchronize, compare, hzero, SearchEngine.status, hne,
        hle, if_false]
      rfl
    have hresult := resynchronizeFrom_result ctx (beginResynchronize
      (replica.markRecovering "verifying synchronization with the primary") 0
        (some primary.generation)).1 0 (some primary.generation) answer fault faults
    rw [← hbehind] at hresult
    generalize result = final at hresult hdone hready ⊢
    cases hresult with
    | installed documents generation answered after outcome synchronized store advanced state exact =>
        rcases hanswers.answer with hanswer | ⟨error, hanswer⟩
        · obtain ⟨-, -, hrows⟩ := SearchEngine.exportSnapshot_rows hexact (hanswer.symm.trans answered)
          have hstored : after.store.database.rows = Database.insertAll documents := by
            rw [store]
            rfl
          refine ⟨?_, ?_⟩
          · rw [hstored, hrows]
          · rw [exact.derived.documents, hstored, hrows]
        · rw [answered] at hanswer
          cases hanswer
    | untouched after outcome synchronized state store kept =>
        rw [synchronized] at hdone
        cases hdone
    | replaced documents generation answered after outcome synchronized state store kept =>
        rw [synchronized] at hdone
        cases hdone
  · cases hdone

theorem soundFor_of_empty (hgeneration : primary.generation = 0)
    (hempty : ∀ id, primary.store.database.rows.get? id = none) : SoundFor ctx primary := by
  intro startFaults report replica hstart remote answer fault faults hanswers result hdone hready id
  obtain ⟨hdb, hzero, hdocuments⟩ := SearchEngine.initializeEngine_fresh hstart
  rcases hanswers.remote with rfl | ⟨error, rfl⟩
  · have hequal : result = _ := synchronize_equal (hzero.trans hgeneration.symm) answer fault faults
    rw [hequal, hempty]
    exact ⟨by rw [show replica.markReady.store = replica.store from rfl, hdb]; rfl, hdocuments id⟩
  · cases hdone

-- A primary at generation 0 that has documents is taken for an empty one.
theorem not_soundFor (hgeneration : primary.generation = 0) {id : String} {document : Document}
    (hrow : primary.store.database.rows.get? id = some document) : ¬ SoundFor ctx primary := by
  intro hsound
  obtain ⟨report, replica, hstart⟩ := SearchEngine.initializeEngine_empty ctx
  obtain ⟨-, hzero, hdocuments⟩ := SearchEngine.initializeEngine_fresh hstart
  have hanswers : Answers primary (.ok primary.generation) primary.exportSnapshot :=
    ⟨.inl rfl, .inl rfl⟩
  have hequal := @synchronize_equal _ _ _ ctx _ _ (hzero.trans hgeneration.symm)
    primary.exportSnapshot false .none
  have hsame := hsound .none report replica hstart _ _ false .none hanswers (by rw [hequal])
    (by rw [hequal]; rfl) id
  rw [hequal, hrow] at hsame
  have hnone : replica.markReady.derived.documents.get? id = none := hdocuments id
  rw [hnone] at hsame
  cases hsame.2

-- Whatever file the primary is opened on and whatever is written to it afterwards, a replica
-- that starts empty is told apart from it exactly when the generation of the file and the
-- number of the committed writes do not add up to 0, or no document is left.
theorem synchronization_sound_iff (file : DatabaseFile) {faults : RebuildFaults}
    {report : RebuildReport} {started : SearchEngine α}
    (hstart : SearchEngine.initializeEngine ctx (.new ctx (.openFile file)) faults =
      (.ok report, started))
    (calls : List (Mutation × Faults)) :
    let committed := SearchEngine.committedMutations ctx started calls
    SoundFor ctx (started.writes ctx calls) ↔
      file.withSchema.generation + committed.length ≠ 0 ∨
        (file.withSchema.extended committed).rows.size = 0 := by
  intro committed
  obtain ⟨hstore, -, hexact⟩ := SearchEngine.initializeEngine_ok hstart
  have hdb : started.store.database = file.withSchema := by
    rw [hstore]
    rfl
  have hgeneration : (started.writes ctx calls).generation =
      file.withSchema.generation + committed.length := by
    rw [SearchEngine.writes_generation, hexact.generation, hdb]
  have hstored := SearchEngine.writes_extended calls fun _ => hexact
  rw [hdb] at hstored
  have hprimary := SearchEngine.writes_exact calls fun _ => hexact
  rcases lt_trichotomy (started.writes ctx calls).generation 0 with hahead | hzero | hbehind
  · exact iff_of_true (soundFor_of_ahead hahead) (.inl (by omega))
  · have hsum : ¬ file.withSchema.generation + committed.length ≠ 0 := by omega
    rw [or_iff_right hsum, ← hstored, Dict.size_eq_zero_iff]
    constructor
    · intro hsound id
      by_contra hrow
      obtain ⟨document, hdocument⟩ := Option.ne_none_iff_exists'.mp hrow
      exact not_soundFor hzero hdocument hsound
    · exact soundFor_of_empty hzero
  · exact iff_of_true (soundFor_of_behind hprimary hbehind) (.inl (by omega))

section Example

attribute [local instance] rationalArith

def upgradeContext : EngineContext ℚ := ⟨.ascii, defaultBM25Params, some .constant⟩

-- A file with one document, and with what is given of a generation.
def storedFile (shardMetadata : Option (Option Int)) : DatabaseFile where
  documents := some (Database.replay [.put redFox]).rows
  shardMetadata := shardMetadata
  keyed := by
    intro rows h
    cases h
    exact (Database.replay [.put redFox]).keyed

theorem storedFile_starts (shardMetadata : Option (Option Int)) : ∃ report started,
    SearchEngine.initializeEngine upgradeContext (.new upgradeContext
      (.openFile (storedFile shardMetadata))) .none = (.ok report, started) ∧
    started.Healthy upgradeContext ∧
    started.store.database = (storedFile shardMetadata).withSchema :=
  SearchEngine.initializeEngine_healthy
    (EngineContext.contract_of_some rfl Embedder.constant_contract) _

-- Without a table for the generation, an empty replica is taken for a copy of the document.
theorem unnumberedFile_unsound : ∃ report started,
    SearchEngine.initializeEngine upgradeContext (.new upgradeContext
      (.openFile (storedFile none))) .none = (.ok report, started) ∧
    ¬ SoundFor upgradeContext (started.writes upgradeContext []) := by
  obtain ⟨report, started, hstart, hhealthy, hdb⟩ := storedFile_starts none
  refine ⟨report, started, hstart, ?_⟩
  have hgeneration : started.generation = 0 := by
    rw [hhealthy.exact.generation, hdb]
    rfl
  have hrow : started.store.database.rows.get? "a" = some redFox := by
    rw [hdb]
    decide +kernel
  exact not_soundFor hgeneration hrow

-- A generation below 0 is of no help once writes have brought it to 0.
example : ∃ report started,
    SearchEngine.initializeEngine upgradeContext (.new upgradeContext
      (.openFile (storedFile (some (some (-1)))))) .none = (.ok report, started) ∧
    ¬ SoundFor upgradeContext (started.writes upgradeContext [(.put red, .none)]) := by
  obtain ⟨report, started, hstart, hhealthy, hdb⟩ := storedFile_starts (some (some (-1)))
  refine ⟨report, started, hstart, ?_⟩
  obtain ⟨after, hwrite, hafter, hstored⟩ :=
    hhealthy.indexDocument (EngineContext.contract_of_some rfl Embedder.constant_contract) red
  have hwrites : started.writes upgradeContext [(.put red, .none)] = after :=
    congrArg Prod.snd hwrite
  have hgeneration : after.generation = 0 := by
    rw [hafter.exact.generation, hstored, Database.apply_generation, hhealthy.exact.generation,
      hdb]
    rfl
  have hrow : after.store.database.rows.get? "a" = some redFox := by
    rw [hstored, Database.apply_get?, hdb]
    decide +kernel
  rw [hwrites]
  exact not_soundFor hgeneration hrow

theorem numberedFile_sound : ∃ report started,
    SearchEngine.initializeEngine upgradeContext (.new upgradeContext
      (.openFile (storedFile (some (some 1))))) .none = (.ok report, started) ∧
    SoundFor upgradeContext (started.writes upgradeContext []) := by
  obtain ⟨report, started, hstart, -, -⟩ := storedFile_starts (some (some 1))
  exact ⟨report, started, hstart,
    (synchronization_sound_iff (storedFile (some (some 1))) hstart []).mpr
      (.inl (show (1 : Int) + 0 ≠ 0 by decide))⟩

end Example

end ReplicaSynchronizer

end PySearch
