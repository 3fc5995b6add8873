import PySearch.Search.Engine.Derived

namespace PySearch

open ExactVectorIndex (Admissible)

section Storage

theorem Database.insertAll_get? {documents : List Document}
    (hnodup : (documents.map Document.documentId).Nodup) (id : String) (document : Document) :
    (insertAll documents).get? id = some document ↔
      document ∈ documents ∧ document.documentId = id := by
  rw [insertAll, Dict.get?_foldl_set documents Document.documentId (fun document => document)
    .empty id fun a ha b hb h => List.inj_on_of_nodup_map hnodup ha hb h]
  cases hf : documents.find? (fun document => document.documentId = id) with
  | none =>
      rw [List.find?_eq_none] at hf
      simp only [Dict.get?_empty, reduceCtorEq, false_iff, not_and]
      intro hm he
      exact hf document hm (by simpa using he)
  | some found =>
      have hm := List.mem_of_find?_eq_some hf
      have hk : found.documentId = id := by simpa using List.find?_some hf
      simp only [Option.some.injEq]
      constructor
      · rintro rfl
        exact ⟨hm, hk⟩
      · rintro ⟨hd, he⟩
        exact List.inj_on_of_nodup_map hnodup hm hd (hk.trans he.symm)

variable (database : Database)

theorem Database.mem_documents (document : Document) :
    document ∈ database.documents ↔
      database.rows.get? document.documentId = some document := by
  rw [documents, KeySort.mem_sortedBy, Dict.mem_values]
  constructor
  · rintro ⟨id, h⟩
    rwa [database.keyed id document h]
  · exact fun h => ⟨_, h⟩

theorem Database.documents_nodup : (database.documents.map Document.documentId).Nodup := by
  have hkeys : database.rows.values.map Document.documentId = database.rows.keys := by
    rw [Dict.values, Dict.keys, List.map_map]
    apply List.map_congr_left
    rintro ⟨id, document⟩ hm
    exact database.keyed id document (Dict.mem_entries.mp hm)
  have hperm := (KeySort.sortedBy_perm Document.documentId database.rows.values).map
    Document.documentId
  rw [hkeys] at hperm
  exact hperm.nodup_iff.mpr database.rows.keys_nodup

-- Reading the table back gives the rows that were stored.
theorem Database.insertAll_documents (id : String) :
    (insertAll database.documents).get? id = database.rows.get? id := by
  apply Option.ext
  intro document
  rw [insertAll_get? database.documents_nodup, mem_documents]
  constructor
  · rintro ⟨h, rfl⟩
    exact h
  · intro h
    have hk := database.keyed id document h
    exact ⟨hk ▸ h, hk⟩

-- Inserting the stored documents in any order gives the stored rows.
theorem Database.insertAll_perm {documents : List Document}
    (h : documents.Perm database.documents) (id : String) :
    (insertAll documents).get? id = database.rows.get? id := by
  have hnodup : (documents.map Document.documentId).Nodup :=
    (h.map Document.documentId).nodup_iff.mpr database.documents_nodup
  rw [← insertAll_documents]
  apply Option.ext
  intro document
  rw [insertAll_get? hnodup, insertAll_get? database.documents_nodup, h.mem_iff]

end Storage

namespace SearchEngine

variable {α : Type} {ctx : EngineContext α}

theorem rebuildDocument_ok (built : Dict String Document × InvertedIndex)
    (h : built.2.Image (ctx.corpus built.1)) (document : Document) :
    ∃ index, rebuildDocument ctx built document =
        .ok (built.1.set document.documentId document, index) ∧
      index.Image (ctx.corpus (built.1.set document.documentId document)) := by
  obtain ⟨index, hadd, himage⟩ := InvertedIndex.image_addDocument document.documentId
    (Analysis.analyze ctx.unicode document.text) h
  refine ⟨index, ?_, by rwa [ctx.corpus_set]⟩
  rw [rebuildDocument, hadd]
  rfl

theorem rebuildDocuments_ok (documents : List Document)
    (built : Dict String Document × InvertedIndex) (h : built.2.Image (ctx.corpus built.1)) :
    ∃ index, documents.foldlM (rebuildDocument ctx) built =
        .ok (documents.foldl (fun rows document => rows.set document.documentId document) built.1,
          index) ∧
      index.Image (ctx.corpus
        (documents.foldl (fun rows document => rows.set document.documentId document) built.1)) := by
  induction documents generalizing built with
  | nil => exact ⟨built.2, rfl, h⟩
  | cons document rest ih =>
      obtain ⟨middle, hstep, himage⟩ := rebuildDocument_ok built h document
      obtain ⟨index, hrest, hfinal⟩ := ih (built.1.set document.documentId document, middle) himage
      refine ⟨index, ?_, hfinal⟩
      rw [List.foldlM_cons, hstep]
      exact hrest

-- The batches cut the sorted identifiers without losing or repeating one.
theorem batches_flatten (size : Nat) (hsize : 0 < size) (ids : List String) :
    (batches size ids).flatten = ids := by
  have htake : ∀ count, ((List.range count).map fun i =>
      (ids.drop (i * size)).take size).flatten = ids.take (count * size) := by
    intro count
    induction count with
    | zero => simp
    | succ count ih =>
        rw [List.range_succ, List.map_append, List.flatten_append, ih]
        simp only [List.map_cons, List.map_nil, List.flatten_cons, List.flatten_nil,
          List.append_nil]
        rw [Nat.succ_mul, List.take_add]
  rw [batches, htake, List.take_of_length_le]
  have h := Nat.lt_div_mul_add (a := ids.length + (size - 1)) hsize
  omega

section Vectors

variable [Arith α] (embedder : Embedder α) (documents : Dict String Document)

-- The vectors of the documents embedded so far.
def embedded (done : List String) : String → Option (List α) :=
  fun id => if id ∈ done then embedder.stored documents id else none

omit [Arith α] in
theorem embedded_append (done : List String) {id : String} {document : Document}
    (h : documents.get? id = some document) :
    embedded embedder documents (done ++ [id]) =
      Function.update (embedded embedder documents done) id (some (embedder.embed document.text)) := by
  funext other
  by_cases ho : other = id
  · subst ho
    simp [embedded, Embedder.stored, h]
  · simp [embedded, ho]

theorem addBatch_image {done batch : List String} {texts : List String}
    {vectors after : ExactVectorIndex α}
    (h : vectors.Image embedder.identity.dimension (embedded embedder documents done))
    (htexts : batch.map (fun id => (documents.get? id).map Document.text) = texts.map some)
    (hadd : (batch.zip (embedder.embedDocuments texts)).foldlM
      (fun vectors entry => vectors.add entry.1 entry.2) vectors = .ok after) :
    after.Image embedder.identity.dimension (embedded embedder documents (done ++ batch)) := by
  induction batch generalizing done texts vectors with
  | nil =>
      rw [List.append_nil]
      cases hadd
      exact h
  | cons id rest ih =>
      cases texts with
      | nil => simp at htexts
      | cons text texts =>
          simp only [List.map_cons, List.cons.injEq] at htexts
          obtain ⟨hid, hrest⟩ := htexts
          obtain ⟨document, hdoc, rfl⟩ := Option.map_eq_some_iff.mp hid
          simp only [Embedder.embedDocuments, List.map_cons, List.zip_cons_cons,
            List.foldlM_cons] at hadd
          cases hx : vectors.add id (embedder.embed document.text) with
          | error error => simp [hx, Bind.bind, Except.bind] at hadd
          | ok next =>
              have hadm := ExactVectorIndex.admissible_of_add hx
              rw [h.dimension] at hadm
              obtain ⟨image, hok, himage⟩ := ExactVectorIndex.image_add h id hadm
              rw [hx] at hok
              rw [← Except.ok.inj hok, ← embedded_append embedder documents done hdoc] at himage
              rw [hx] at hadd
              have hfinal := ih himage hrest hadd
              rwa [List.append_assoc] at hfinal

theorem addBatch_ok {done batch : List String} {texts : List String}
    {vectors : ExactVectorIndex α}
    (hadm : ∀ id document, documents.get? id = some document →
      Admissible embedder.identity.dimension (embedder.embed document.text))
    (h : vectors.Image embedder.identity.dimension (embedded embedder documents done))
    (htexts : batch.map (fun id => (documents.get? id).map Document.text) = texts.map some) :
    ∃ after, (batch.zip (embedder.embedDocuments texts)).foldlM
      (fun vectors entry => vectors.add entry.1 entry.2) vectors = .ok after := by
  induction batch generalizing done texts vectors with
  | nil => exact ⟨vectors, rfl⟩
  | cons id rest ih =>
      cases texts with
      | nil => simp at htexts
      | cons text texts =>
          simp only [List.map_cons, List.cons.injEq] at htexts
          obtain ⟨hid, hrest⟩ := htexts
          obtain ⟨document, hdoc, rfl⟩ := Option.map_eq_some_iff.mp hid
          obtain ⟨next, hx, himage⟩ := ExactVectorIndex.image_add h id (hadm id document hdoc)
          rw [← embedded_append embedder documents done hdoc] at himage
          obtain ⟨after, hafter⟩ := ih himage hrest
          refine ⟨after, ?_⟩
          simp only [Embedder.embedDocuments, List.map_cons, List.zip_cons_cons, List.foldlM_cons,
            hx]
          exact hafter

theorem image_embedded_nil : (ExactVectorIndex.new embedder.identity.dimension).Image
    embedder.identity.dimension (embedded embedder documents []) := by
  have h : embedded embedder documents [] = fun _ => none := by
    funext id
    simp [embedded]
  rw [h]
  exact ExactVectorIndex.image_new _

omit [Arith α] in
theorem embedded_keys :
    embedded embedder documents (KeySort.sortedBy id documents.keys) =
      embedder.stored documents := by
  funext id
  unfold embedded
  split
  · rfl
  · rename_i hid
    rw [KeySort.mem_sortedBy, Dict.mem_keys, Bool.not_eq_true, Option.isSome_eq_false_iff,
      Option.isNone_iff_eq_none] at hid
    simp [Embedder.stored, hid]

omit [Arith α] in
theorem mapM_texts {documents : Dict String Document} {batch texts : List String}
    (h : batch.mapM (textOf documents) = .ok texts) :
    batch.map (fun id => (documents.get? id).map Document.text) = texts.map some := by
  induction batch generalizing texts with
  | nil =>
      cases h
      rfl
  | cons id rest ih =>
      rw [List.mapM_cons] at h
      obtain ⟨text, hid, hbind⟩ := bind_ok h
      obtain ⟨others, hr, hcons⟩ := bind_ok hbind
      cases hcons
      unfold textOf at hid
      split at hid
      · cases hid
      · rename_i document hdoc
        cases hid
        simp [hdoc, ih hr]

omit [Arith α] in
theorem mapM_texts_ok {documents : Dict String Document} {batch : List String}
    (h : ∀ id ∈ batch, (documents.get? id).isSome) :
    ∃ texts, batch.mapM (textOf documents) = .ok texts := by
  induction batch with
  | nil => exact ⟨[], rfl⟩
  | cons id rest ih =>
      obtain ⟨document, hid⟩ := Option.isSome_iff_exists.mp (h id (.head _))
      obtain ⟨texts, hrest⟩ := ih fun other ho => h other (.tail _ ho)
      refine ⟨document.text :: texts, ?_⟩
      rw [List.mapM_cons, hrest, textOf, hid]
      rfl

variable {fault : Option Nat}

theorem rebuildBatch_image {done : List String} {batch : List String × Nat}
    {vectors after : ExactVectorIndex α}
    (h : vectors.Image embedder.identity.dimension (embedded embedder documents done))
    (hbatch : rebuildBatch embedder documents fault vectors batch = .ok after) :
    after.Image embedder.identity.dimension (embedded embedder documents (done ++ batch.1)) := by
  unfold rebuildBatch at hbatch
  split at hbatch
  · cases hbatch
  · obtain ⟨texts, htexts, hadd⟩ := bind_ok hbatch
    exact addBatch_image embedder documents h (mapM_texts htexts) hadd

theorem rebuildBatches_image (parts : List (List String × Nat)) {done : List String}
    {vectors after : ExactVectorIndex α}
    (h : vectors.Image embedder.identity.dimension (embedded embedder documents done))
    (hparts : parts.foldlM (rebuildBatch embedder documents fault) vectors = .ok after) :
    after.Image embedder.identity.dimension
      (embedded embedder documents (done ++ (parts.map Prod.fst).flatten)) := by
  induction parts generalizing done vectors with
  | nil =>
      cases hparts
      simpa using h
  | cons part rest ih =>
      rw [List.foldlM_cons] at hparts
      obtain ⟨next, hnext, hrest⟩ := bind_ok hparts
      have hfinal := ih (rebuildBatch_image embedder documents h hnext) hrest
      rwa [List.append_assoc] at hfinal

theorem rebuildBatches_ok (parts : List (List String × Nat)) {done : List String}
    {vectors : ExactVectorIndex α}
    (hadm : ∀ id document, documents.get? id = some document →
      Admissible embedder.identity.dimension (embedder.embed document.text))
    (hids : ∀ part ∈ parts, ∀ id ∈ part.1, (documents.get? id).isSome)
    (h : vectors.Image embedder.identity.dimension (embedded embedder documents done)) :
    ∃ after, parts.foldlM (rebuildBatch embedder documents none) vectors = .ok after := by
  induction parts generalizing done vectors with
  | nil => exact ⟨vectors, rfl⟩
  | cons part rest ih =>
      obtain ⟨texts, htexts⟩ := mapM_texts_ok (hids part (.head _))
      obtain ⟨next, hnext⟩ := addBatch_ok embedder documents hadm h (mapM_texts htexts)
      have hbatch : rebuildBatch embedder documents none vectors part = .ok next := by
        rw [rebuildBatch, if_neg (by simp), htexts]
        exact hnext
      obtain ⟨after, hafter⟩ := ih (fun part hp => hids part (.tail _ hp))
        (rebuildBatch_image embedder documents h hbatch)
      refine ⟨after, ?_⟩
      rw [List.foldlM_cons, hbatch]
      exact hafter

theorem batches_ids (size : Nat) (hsize : 0 < size) (ids : List String) :
    ((batches size ids).zipIdx.map Prod.fst).flatten = ids := by
  rw [List.zipIdx_map_fst, batches_flatten size hsize]

end Vectors

variable [Arith α] [LinearOrder α]

theorem rebuildVectors_exact {documents : Dict String Document} {fault : Option Nat}
    {vectors : Option (ExactVectorIndex α)}
    (h : rebuildVectors ctx documents fault = .ok vectors) :
    VectorsExact ctx documents vectors := by
  unfold rebuildVectors at h
  cases he : ctx.embedder with
  | none =>
      rw [he] at h
      cases h
      simp [VectorsExact, he]
  | some embedder =>
      simp only [he] at h
      obtain ⟨built, hbuilt, hrest⟩ := bind_ok h
      obtain ⟨_, _, hreturn⟩ := bind_ok hrest
      cases hreturn
      have himage := rebuildBatches_image embedder documents _ (image_embedded_nil embedder documents)
        hbuilt
      rw [List.nil_append, batches_ids _ (by decide), embedded_keys] at himage
      simpa [VectorsExact, he] using himage

-- Vectors of the right shape are all added, and then it is up to the validation.
theorem rebuildVectors_built {embedder : Embedder α} (he : ctx.embedder = some embedder)
    {documents : Dict String Document}
    (hadm : ∀ id document, documents.get? id = some document →
      Admissible embedder.identity.dimension (embedder.embed document.text)) :
    ∃ built : ExactVectorIndex α,
      built.Image embedder.identity.dimension (embedder.stored documents) ∧
      rebuildVectors ctx documents none = built.validate.map fun _ => some built := by
  have hids : ∀ part ∈ (batches embeddingBatchSize
      (KeySort.sortedBy id documents.keys)).zipIdx,
      ∀ key ∈ part.1, (documents.get? key).isSome := by
    intro part hpart key hkey
    have hmem : key ∈ KeySort.sortedBy id documents.keys := by
      rw [← batches_ids embeddingBatchSize (by decide) (KeySort.sortedBy id documents.keys)]
      exact List.mem_flatten.mpr ⟨part.1, List.mem_map.mpr ⟨part, hpart, rfl⟩, hkey⟩
    exact Dict.mem_keys.mp (KeySort.mem_sortedBy.mp hmem)
  obtain ⟨built, hbuilt⟩ := rebuildBatches_ok embedder documents _ hadm hids
    (image_embedded_nil embedder documents)
  have himage := rebuildBatches_image embedder documents _ (image_embedded_nil embedder documents)
    hbuilt
  rw [List.nil_append, batches_ids _ (by decide), embedded_keys] at himage
  refine ⟨built, himage, ?_⟩
  unfold rebuildVectors
  simp only [he, hbuilt, Bind.bind, Except.bind]
  cases built.validate <;> rfl

theorem rebuildVectors_ok (hc : ctx.Contract) (documents : Dict String Document) :
    ∃ vectors, rebuildVectors ctx documents none = .ok vectors := by
  cases he : ctx.embedder with
  | none => exact ⟨none, by rw [rebuildVectors, he]⟩
  | some embedder =>
      have hdocuments := (hc embedder he).documents
      obtain ⟨built, himage, hrebuild⟩ := @rebuildVectors_built _ _ _ _ _ he documents
        fun _ document _ => (hdocuments document.text).1
      have hvalid := himage.validate (by
        intro id vector hv
        obtain ⟨document, -, rfl⟩ := Option.map_eq_some_iff.mp hv
        exact hdocuments document.text)
      exact ⟨some built, by rw [hrebuild, hvalid]; rfl⟩

section Structures

variable {engine after : SearchEngine α} {faults : RebuildFaults}

theorem rebuildStructures_exact {fresh : Derived α}
    (h : rebuildStructures ctx engine faults = .ok fresh) :
    fresh.Exact ctx engine.store.database.rows := by
  unfold rebuildStructures at h
  obtain ⟨stored, hstored, hrest⟩ := bind_ok h
  obtain ⟨built, hbuilt, hrest⟩ := bind_ok hrest
  obtain ⟨_, _, hrest⟩ := bind_ok hrest
  obtain ⟨vectors, hvectors, hreturn⟩ := bind_ok hrest
  cases hreturn
  unfold SqliteDocumentStore.iterDocuments at hstored
  split at hstored
  · cases hstored
  · cases hstored
    obtain ⟨index, hok, himage⟩ := rebuildDocuments_ok engine.store.database.documents
      (.empty, .empty) InvertedIndex.image_empty
    rw [hok] at hbuilt
    cases hbuilt
    have hexact : Derived.Exact ctx ⟨_, index, vectors⟩
        (Database.insertAll engine.store.database.documents) :=
      ⟨fun _ => rfl, himage, rebuildVectors_exact hvectors⟩
    exact hexact.congr engine.store.database.insertAll_documents

theorem rebuildStructures_ok (hc : ctx.Contract) (hopen : engine.store.closed = false) :
    ∃ fresh, rebuildStructures ctx engine .none = .ok fresh := by
  obtain ⟨index, hok, himage⟩ := @rebuildDocuments_ok _ ctx engine.store.database.documents
    (.empty, .empty) InvertedIndex.image_empty
  obtain ⟨vectors, hvectors⟩ := rebuildVectors_ok hc
    (Database.insertAll engine.store.database.documents)
  refine ⟨⟨Database.insertAll engine.store.database.documents, index, vectors⟩, ?_⟩
  have hread : engine.store.iterDocuments false = .ok engine.store.database.documents := by
    simp [SqliteDocumentStore.iterDocuments, SqliteDocumentStore.unavailable, hopen]
  unfold rebuildStructures
  simp only [RebuildFaults.none, hread, hok, validateIndex, if_false, Bool.false_eq_true,
    himage.validate, Bind.bind, Except.bind]
  rw [Database.insertAll] at hvectors
  rw [hvectors]
  rfl

-- A rebuild that succeeds has read every structure and the generation from the store.
theorem rebuild_ok {report : RebuildReport} (h : rebuild ctx engine faults = (.ok report, after)) :
    ∃ fresh, fresh.Exact ctx engine.store.database.rows ∧
      after = { engine with
        derived := fresh
        generation := engine.store.database.generation } := by
  unfold rebuild at h
  cases hs : rebuildStructures ctx engine faults with
  | error error => simp [hs] at h
  | ok fresh =>
      simp only [hs] at h
      split at h
      · simp at h
      · rename_i final hrun
        refine ⟨fresh, rebuildStructures_exact hs, ?_⟩
        obtain ⟨-, rfl⟩ := Prod.mk.inj h
        have hexec := Script.exec_of_run hrun
        simp only [swapScript, Script.exec_cons, Except.bind, SqliteDocumentStore.generation]
          at hexec
        split_ifs at hexec
        · exact absurd hexec (by simp [Except.map])
        · exact (Except.ok.inj hexec).symm

-- A rebuild touches the structures and the generation only, and whatever generation it
-- leaves behind was either there before or is the stored one.
structure Rebuilding (engine after : SearchEngine α) : Prop where
  store : after.store = engine.store
  state : after.state = engine.state
  generation : after.generation = engine.generation ∨
    after.generation = engine.store.database.generation

theorem rebuild_frame {result : Except PyError RebuildReport}
    (h : rebuild ctx engine faults = (result, after)) : Rebuilding engine after := by
  rw [← show (rebuild ctx engine faults).2 = after from congrArg Prod.snd h]
  unfold rebuild
  cases hs : rebuildStructures ctx engine faults with
  | error error => exact ⟨rfl, rfl, .inl rfl⟩
  | ok fresh =>
      have hinv := @Script.run_invariant _ _ (Rebuilding engine) (swapScript fresh faults) (by
        intro stmt hstmt before next hstep hi
        simp only [swapScript, List.mem_cons, List.not_mem_nil, or_false] at hstmt
        obtain rfl | rfl | rfl | rfl := hstmt
        · cases hstep
          exact ⟨hi.store, hi.state, hi.generation⟩
        · cases hstep
          exact ⟨hi.store, hi.state, hi.generation⟩
        · cases hstep
          exact ⟨hi.store, hi.state, hi.generation⟩
        · simp only [SqliteDocumentStore.generation] at hstep
          split at hstep
          · cases hstep
          · cases hstep
            exact ⟨hi.store, hi.state, .inr (by rw [hi.store])⟩)
        faults.swap engine ⟨rfl, rfl, .inl rfl⟩
      dsimp only
      split
      · rename_i hrun
        rwa [hrun] at hinv
      · rename_i hrun
        rwa [hrun] at hinv

theorem rebuild_total (hc : ctx.Contract) (hopen : engine.store.closed = false) :
    ∃ report after, rebuild ctx engine .none = (.ok report, after) := by
  obtain ⟨fresh, hfresh⟩ := rebuildStructures_ok hc hopen
  have hgeneration : engine.store.generation false = .ok engine.store.database.generation := by
    simp [SqliteDocumentStore.generation, SqliteDocumentStore.unavailable, hopen]
  have hexec : Script.exec (swapScript fresh .none) engine = .ok { engine with
      derived := fresh
      generation := engine.store.database.generation } := by
    simp only [swapScript, RebuildFaults.none, Script.exec_cons, Except.bind, hgeneration]
    rfl
  unfold rebuild
  simp only [hfresh]
  rw [RebuildFaults.none] at hexec ⊢
  rw [Script.run_of_exec hexec]
  exact ⟨_, _, rfl⟩

end Structures

end SearchEngine

end PySearch
