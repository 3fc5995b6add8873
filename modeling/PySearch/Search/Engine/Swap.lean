import PySearch.Search.Engine.Theorems

namespace PySearch

namespace SearchEngine

variable {α : Type}

-- A call that raises leaves the engine as it found it.
def KeepsOnFailure
    (call : SearchEngine α → RebuildFaults → Except PyError RebuildReport × SearchEngine α)
    (engine : SearchEngine α) (faults : RebuildFaults) : Prop :=
  ∀ error after, call engine faults = (.error error, after) → after = engine

-- One of the calls in front of the swap raises: the read of the documents, the validation
-- of the index, or the embedding of one of the batches that the stored documents fill.
def FailsBeforeSwap (ctx : EngineContext α) (engine : SearchEngine α) (faults : RebuildFaults) :
    Prop :=
  engine.store.unavailable faults.read = true ∨ faults.validate = true ∨
    ctx.embedder.isSome ∧ ∃ batch, faults.embed = some batch ∧
      batch * embeddingBatchSize < engine.store.database.rows.size

theorem batches_length (size : Nat) (hsize : 0 < size) (ids : List String) (batch : Nat) :
    batch < (batches size ids).length ↔ batch * size < ids.length := by
  rw [batches, List.length_map, List.length_range, Nat.lt_iff_add_one_le,
    Nat.le_div_iff_mul_le hsize, Nat.add_one_mul]
  omega

section Batches

variable [Arith α] (embedder : Embedder α) (documents : Dict String Document) {fault : Option Nat}

-- A fault that hits none of the batches changes nothing.
theorem rebuildBatches_unharmed (parts : List (List String × Nat))
    (hparts : ∀ part ∈ parts, fault ≠ some part.2) (vectors : ExactVectorIndex α) :
    parts.foldlM (rebuildBatch embedder documents fault) vectors =
      parts.foldlM (rebuildBatch embedder documents none) vectors := by
  induction parts generalizing vectors with
  | nil => rfl
  | cons part rest ih =>
      have hbatch : rebuildBatch embedder documents fault vectors part =
          rebuildBatch embedder documents none vectors part := by
        rw [rebuildBatch, rebuildBatch, if_neg (hparts part (.head _)), if_neg (by simp)]
      rw [List.foldlM_cons, List.foldlM_cons, hbatch]
      exact congrArg _ (funext (ih fun other ho => hparts other (.tail _ ho)))

theorem rebuildBatches_fault (parts : List (List String × Nat))
    (hparts : ∃ part ∈ parts, fault = some part.2) (vectors : ExactVectorIndex α) :
    ∃ error, parts.foldlM (rebuildBatch embedder documents fault) vectors = .error error := by
  induction parts generalizing vectors with
  | nil =>
      obtain ⟨part, hpart, -⟩ := hparts
      cases hpart
  | cons part rest ih =>
      rw [List.foldlM_cons]
      by_cases hhit : fault = some part.2
      · refine ⟨.embedding "embedding failed", ?_⟩
        rw [rebuildBatch, if_pos hhit]
        rfl
      · obtain ⟨other, hother, hfault⟩ := hparts
        have hrest : other ∈ rest := by
          rcases List.mem_cons.mp hother with rfl | h
          · exact absurd hfault hhit
          · exact h
        cases rebuildBatch embedder documents fault vectors part with
        | error error => exact ⟨error, rfl⟩
        | ok next => exact ih ⟨other, hrest, hfault⟩ next

end Batches

variable [Arith α] [LinearOrder α] {ctx : EngineContext α}

theorem rebuildVectors_unharmed {documents : Dict String Document} {fault : Option Nat}
    (h : ctx.embedder.isSome → ∀ batch, fault = some batch →
      documents.size ≤ batch * embeddingBatchSize) :
    rebuildVectors ctx documents fault = rebuildVectors ctx documents none := by
  unfold rebuildVectors
  cases he : ctx.embedder with
  | none => rfl
  | some embedder =>
      dsimp only
      rw [rebuildBatches_unharmed embedder documents]
      intro part hpart hfault
      have hbound := List.snd_lt_of_mem_zipIdx hpart
      rw [Nat.add_zero, batches_length _ (by decide), KeySort.length_sortedBy, Dict.keys,
        List.length_map] at hbound
      have hsize := h (by simp [he]) part.2 hfault
      rw [Dict.size] at hsize
      omega

theorem rebuildVectors_fault {documents : Dict String Document} {batch : Nat}
    (he : ctx.embedder.isSome) (h : batch * embeddingBatchSize < documents.size) :
    ∃ error, rebuildVectors ctx documents (some batch) = .error error := by
  obtain ⟨embedder, hembedder⟩ := Option.isSome_iff_exists.mp he
  have hlength : batch < (batches embeddingBatchSize
      (KeySort.sortedBy id documents.keys)).length := by
    rw [batches_length _ (by decide), KeySort.length_sortedBy, Dict.keys, List.length_map]
    exact h
  have hmem := List.mk_mem_zipIdx_iff_getElem?.mpr (List.getElem?_eq_getElem hlength)
  obtain ⟨error, herror⟩ := rebuildBatches_fault embedder documents
    (batches embeddingBatchSize (KeySort.sortedBy id documents.keys)).zipIdx
    ⟨_, hmem, rfl⟩ (.new embedder.identity.dimension)
  refine ⟨error, ?_⟩
  unfold rebuildVectors
  simp only [hembedder, herror]
  rfl

-- What the part in front of the swap computes, once the documents are read.
theorem rebuildStructures_read (ctx : EngineContext α) (engine : SearchEngine α) :
    ∃ index, index.validate = .ok () ∧ ∀ faults,
      engine.store.unavailable faults.read = false →
      rebuildStructures ctx engine faults = do
        validateIndex index faults.validate
        let vectors ← rebuildVectors ctx (Database.insertAll engine.store.database.documents)
          faults.embed
        return ⟨Database.insertAll engine.store.database.documents, index, vectors⟩ := by
  obtain ⟨index, hok, himage⟩ := @rebuildDocuments_ok _ ctx engine.store.database.documents
    (.empty, .empty) InvertedIndex.image_empty
  refine ⟨index, himage.validate, ?_⟩
  intro faults hopen
  unfold rebuildStructures
  rw [SqliteDocumentStore.iterDocuments, hopen, if_neg (by decide)]
  simp only [hok, Bind.bind, Except.bind]
  rfl

variable {engine : SearchEngine α} {faults : RebuildFaults}

theorem rebuildStructures_unharmed (h : ¬ FailsBeforeSwap ctx engine faults) :
    rebuildStructures ctx engine faults = rebuildStructures ctx engine .none := by
  simp only [FailsBeforeSwap, not_or, Bool.not_eq_true, not_and, not_exists] at h
  obtain ⟨hread, hvalidate, hembed⟩ := h
  have hopen : engine.store.unavailable RebuildFaults.none.read = false := by
    simp only [SqliteDocumentStore.unavailable, Bool.or_eq_false_iff] at hread ⊢
    exact ⟨hread.1, rfl⟩
  have hsize := Dict.size_eq engine.store.database.insertAll_documents
  have hvectors : rebuildVectors ctx (Database.insertAll engine.store.database.documents)
      faults.embed = rebuildVectors ctx (Database.insertAll engine.store.database.documents)
        none := by
    apply rebuildVectors_unharmed
    intro he batch hbatch
    have hlate := hembed he batch hbatch
    omega
  obtain ⟨index, -, hrest⟩ := rebuildStructures_read ctx engine
  rw [hrest faults hread, hrest .none hopen, hvalidate, hvectors]
  rfl

theorem rebuildStructures_fault (h : FailsBeforeSwap ctx engine faults) :
    ∃ error, rebuildStructures ctx engine faults = .error error := by
  by_cases hread : engine.store.unavailable faults.read = true
  · refine ⟨.storage "failed to read documents", ?_⟩
    rw [rebuildStructures, SqliteDocumentStore.iterDocuments, if_pos hread]
    rfl
  obtain ⟨index, hindex, hrest⟩ := rebuildStructures_read ctx engine
  rw [hrest faults (Bool.not_eq_true _ ▸ hread), validateIndex]
  by_cases hvalidate : faults.validate = true
  · exact ⟨.unexpected, by rw [if_pos hvalidate]; rfl⟩
  obtain ⟨he, batch, hbatch, hsize⟩ := (h.resolve_left hread).resolve_left hvalidate
  rw [← Dict.size_eq engine.store.database.insertAll_documents] at hsize
  obtain ⟨error, herror⟩ := rebuildVectors_fault he hsize
  refine ⟨error, ?_⟩
  rw [if_neg hvalidate, hindex, hbatch, herror]
  rfl

-- The structures are assigned before the generation is read.
theorem rebuild_swapped {fresh : Derived α} (hcalls : faults.swap = none)
    (hgeneration : faults.generation = true)
    (hfresh : rebuildStructures ctx engine faults = .ok fresh) :
    rebuild ctx engine faults =
      (.error (.storage "failed to read the generation"), { engine with derived := fresh }) := by
  have hread : engine.store.generation faults.generation =
      .error (.storage "failed to read the generation") := by
    simp [SqliteDocumentStore.generation, SqliteDocumentStore.unavailable, hgeneration]
  unfold rebuild
  simp [hfresh, hcalls, swapScript, Script.run, hread, Except.map]

theorem rebuild_completes {fresh : Derived α} (hcalls : faults.swap = none)
    (hgeneration : faults.generation = false) (hopen : engine.store.closed = false)
    (hfresh : rebuildStructures ctx engine faults = .ok fresh) :
    ∃ report after, rebuild ctx engine faults = (.ok report, after) := by
  have hread : engine.store.generation faults.generation =
      .ok engine.store.database.generation := by
    simp [SqliteDocumentStore.generation, SqliteDocumentStore.unavailable, hgeneration, hopen]
  unfold rebuild
  simp only [hfresh, hcalls, swapScript, Script.run, hread, Except.map, Option.map_none]
  exact ⟨_, _, rfl⟩

omit [Arith α] [LinearOrder α] in
theorem keepsOnFailure_of_error
    {call : SearchEngine α → RebuildFaults → Except PyError RebuildReport × SearchEngine α}
    {error : PyError} (h : call engine faults = (.error error, engine)) :
    KeepsOnFailure call engine faults := by
  intro other after hcall
  rw [h] at hcall
  exact (Prod.mk.inj hcall).2.symm

omit [Arith α] [LinearOrder α] in
theorem keepsOnFailure_of_ok
    {call : SearchEngine α → RebuildFaults → Except PyError RebuildReport × SearchEngine α}
    {report : RebuildReport} {done : SearchEngine α} (h : call engine faults = (.ok report, done)) :
    KeepsOnFailure call engine faults := by
  intro error after hcall
  rw [h] at hcall
  cases hcall

theorem rebuild_keeps_iff (hcalls : faults.swap = none) :
    KeepsOnFailure (rebuild ctx) engine faults ↔
      faults.generation = false ∨ FailsBeforeSwap ctx engine faults ∨
        ∀ fresh, rebuildStructures ctx engine .none = .ok fresh → fresh = engine.derived := by
  by_cases hearly : FailsBeforeSwap ctx engine faults
  · obtain ⟨raised, hraised⟩ := rebuildStructures_fault hearly
    exact iff_of_true (keepsOnFailure_of_error (by rw [rebuild, hraised])) (.inr (.inl hearly))
  have hopen : engine.store.closed = false := by
    by_contra hclosed
    exact hearly (.inl (by simp [SqliteDocumentStore.unavailable, Bool.not_eq_false _ ▸ hclosed]))
  have hunharmed := rebuildStructures_unharmed hearly
  cases hfresh : rebuildStructures ctx engine .none with
  | error raised =>
      -- The vectors of the embedder do not form an index.
      rw [hfresh] at hunharmed
      exact iff_of_true (keepsOnFailure_of_error (by rw [rebuild, hunharmed])) (by simp)
  | ok fresh =>
      rw [hfresh] at hunharmed
      by_cases hgeneration : faults.generation = true
      · have hrebuild := rebuild_swapped hcalls hgeneration hunharmed
        simp only [hearly, hgeneration, Bool.true_eq_false, false_or, Except.ok.injEq,
          forall_eq']
        constructor
        · intro hkeeps
          exact congrArg SearchEngine.derived (hkeeps _ _ hrebuild)
        · intro hsame
          rw [hsame] at hrebuild
          exact keepsOnFailure_of_error hrebuild
      · rw [Bool.not_eq_true] at hgeneration
        obtain ⟨report, done, hrebuild⟩ := rebuild_completes hcalls hgeneration hopen hunharmed
        exact iff_of_true (keepsOnFailure_of_ok hrebuild) (.inl hgeneration)

-- `initialize` raises when the rebuild does, and then changes nothing more.
theorem initializeEngine_keeps_iff :
    KeepsOnFailure (initializeEngine ctx) engine faults ↔
      KeepsOnFailure (rebuild ctx) engine faults := by
  unfold KeepsOnFailure initializeEngine
  cases hrebuild : rebuild ctx engine faults with
  | mk result rebuilt => cases result <;> simp

-- Whatever call of a rebuild raises, the engine is left as it was exactly when that call is
-- not the read of the generation, or the new structures equal the ones they replace.
theorem failed_rebuild_untouched_iff (engine : SearchEngine α) (faults : RebuildFaults)
    (hcalls : faults.swap = none) :
    (KeepsOnFailure (rebuild ctx) engine faults ∧
      KeepsOnFailure (initializeEngine ctx) engine faults) ↔
      faults.generation = false ∨ FailsBeforeSwap ctx engine faults ∨
        ∀ fresh, rebuildStructures ctx engine .none = .ok fresh → fresh = engine.derived := by
  rw [initializeEngine_keeps_iff, and_self, rebuild_keeps_iff hcalls]

section Example

attribute [local instance] rationalArith

-- An engine is started on the given database, and its read of the generation fails.
def startedContext : EngineContext ℚ := ⟨.ascii, defaultBM25Params, some .constant⟩

def startedOn (database : Database) : SearchEngine ℚ := .new startedContext (.openDatabase database)

def unreadGeneration : RebuildFaults := ⟨false, false, none, true, none⟩

-- The cache is filled and the exception is raised, with the generation and the state of an
-- engine that was never initialized.
theorem unreadGeneration_swapped :
    ¬ KeepsOnFailure (initializeEngine startedContext) (startedOn (.replay [.put redFox]))
      unreadGeneration := by
  have hraised : (initializeEngine startedContext (startedOn (.replay [.put redFox]))
      unreadGeneration).1.toBool = false := by decide +kernel
  have hfilled : (initializeEngine startedContext (startedOn (.replay [.put redFox]))
      unreadGeneration).2.derived.documents.size ≠
        (startedOn (.replay [.put redFox])).derived.documents.size := by decide +kernel
  intro hkeeps
  cases hresult : initializeEngine startedContext (startedOn (.replay [.put redFox]))
      unreadGeneration with
  | mk result after =>
      rw [hresult] at hraised hfilled
      cases result with
      | error error => exact hfilled (congrArg (fun engine => engine.derived.documents.size)
          (hkeeps error after hresult))
      | ok report => cases hraised

-- An engine that serves one document and has committed a second one that it does not serve.
def behindItsStore : SearchEngine ℚ :=
  ((initializeEngine startedContext (startedOn (.replay [.put redFox])) .none).2.indexDocument
    startedContext red { Faults.none with derived := some (0, .unexpected) }).2

-- The first batch of embeddings raises, as the read of the generation would after it.
def unembeddedBatch : RebuildFaults := ⟨false, false, some 0, true, none⟩

-- The rebuild that would repair the engine raises and leaves what was served before.
theorem unembeddedBatch_untouched :
    behindItsStore.derived.documents.size = 1 ∧
      (rebuild startedContext behindItsStore unembeddedBatch).1.toBool = false ∧
      KeepsOnFailure (rebuild startedContext) behindItsStore unembeddedBatch ∧
      KeepsOnFailure (initializeEngine startedContext) behindItsStore unembeddedBatch := by
  have hstored : behindItsStore.store.database.rows.size = 2 := by decide +kernel
  refine ⟨by decide +kernel, by decide +kernel,
    (failed_rebuild_untouched_iff behindItsStore unembeddedBatch rfl).mpr (.inr (.inl ?_))⟩
  refine .inr (.inr ⟨rfl, 0, rfl, ?_⟩)
  rw [hstored]
  decide

end Example

end SearchEngine

end PySearch
