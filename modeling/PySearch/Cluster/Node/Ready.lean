import PySearch.Cluster.Node.Theorems
import PySearch.Search.Engine.Answers

namespace PySearch

variable {α : Type}

-- The index built from nothing by adding the given documents in the given order.
def scratchIndex (ctx : EngineContext α) (documents : List Document) :
    Except PyError InvertedIndex :=
  documents.foldlM (fun index document =>
    index.addDocument document.documentId (Analysis.analyze ctx.unicode document.text)) .empty

theorem scratchIndex_image (ctx : EngineContext α) (documents : List Document) :
    ∃ index, scratchIndex ctx documents = .ok index ∧
      index.Image (ctx.corpus (Database.insertAll documents)) := by
  have hfold : ∀ (documents : List Document) (rows : Dict String Document) (start : InvertedIndex),
      start.Image (ctx.corpus rows) → ∃ index,
        documents.foldlM (fun index document => index.addDocument document.documentId
          (Analysis.analyze ctx.unicode document.text)) start = .ok index ∧
        index.Image (ctx.corpus (documents.foldl (fun rows document =>
          rows.set document.documentId document) rows)) := by
    intro documents
    induction documents with
    | nil => exact fun rows start h => ⟨start, rfl, h⟩
    | cons document rest ih =>
        intro rows start h
        obtain ⟨next, hadd, hnext⟩ := InvertedIndex.image_addDocument document.documentId
          (Analysis.analyze ctx.unicode document.text) h
        obtain ⟨index, hrest, himage⟩ := ih (rows.set document.documentId document) next
          (by rwa [ctx.corpus_set])
        refine ⟨index, ?_, himage⟩
        rw [List.foldlM_cons, hadd]
        exact hrest
  exact hfold documents .empty .empty InvertedIndex.image_empty

namespace SearchEngine

variable [Arith α] [LinearOrder α] {ctx : EngineContext α} {engine : SearchEngine α}
  {rows : Dict String Document}

def NoKeyError {β : Type} (result : Except PyError β) : Prop :=
  ∀ key, result ≠ .error (.keyError key)

omit [Arith α] [LinearOrder α] in
theorem noKeyError_bind {β γ : Type} {x : Except PyError β} {f : β → Except PyError γ}
    (hx : NoKeyError x) (hf : ∀ value, x = .ok value → NoKeyError (f value)) :
    NoKeyError (x >>= f) := by
  intro key h
  cases x with
  | error error =>
      cases h
      exact hx key rfl
  | ok value => exact hf value rfl key h

omit [Arith α] [LinearOrder α] in
theorem noKeyError_require : NoKeyError engine.requireOperational := by
  intro key h
  unfold requireOperational at h
  split at h <;> cases h

theorem noKeyError_searchLocked (h : engine.derived.Exact ctx rows) (terms : List String)
    (limit : Int) (stats : Option CorpusStats) :
    NoKeyError (searchLocked ctx engine terms limit stats) := by
  intro key herror
  by_cases hterms : terms = []
  · simp [searchLocked, hterms] at herror
  · simp [searchLocked_eq h hterms] at herror

theorem noKeyError_vectorSearch (vectors : ExactVectorIndex α) (vector : List α) (limit : Int) :
    NoKeyError (vectors.search vector limit) := by
  intro key herror
  unfold ExactVectorIndex.search ExactVectorIndex.check at herror
  split_ifs at herror <;> simp [Bind.bind, Except.bind, pure, Except.pure] at herror
  split_ifs at herror
  cases herror

theorem vectorSearch_ids {vectors : ExactVectorIndex α} {vector : List α} {limit : Int}
    {hits : List (ScoredDocument α)} (h : vectors.search vector limit = .ok hits) :
    ∀ hit ∈ hits, hit.documentId ∈ vectors.ids := by
  unfold ExactVectorIndex.search at h
  split_ifs at h with hlimit hempty
  · cases h
    simp
  · obtain ⟨checked, -, hrest⟩ := bind_ok h
    dsimp only at hrest
    split_ifs at hrest
    · cases hrest
    · cases hrest
      intro hit hm
      obtain ⟨⟨id, score⟩, hpair, rfl⟩ := List.mem_map.mp hm
      have hzip := KeySort.mem_sortedBy.mp (KeySort.mem_of_mem_sliceTo hpair)
      exact (List.of_mem_zip hzip).1

theorem noKeyError_semanticLocked (h : engine.derived.Exact ctx rows) (vector : List α)
    (limit : Int) : NoKeyError (engine.semanticSearchLocked vector limit) := by
  unfold semanticSearchLocked
  cases he : ctx.embedder with
  | none =>
      rw [Derived.vectorsExact_none h.vectors he]
      intro key herror
      cases herror
  | some embedder =>
      obtain ⟨vectors, hs, hv⟩ := Derived.vectorsExact_some h.vectors he
      rw [hs]
      refine noKeyError_bind (noKeyError_vectorSearch vectors vector limit) fun hits hhits => ?_
      have hlookup : ∀ hit ∈ hits, ∃ document,
          engine.derived.documents.get? hit.documentId = some document := by
        intro hit hm
        have hstored := (hv.stored _).mpr (vectorSearch_ids hhits hit hm)
        rw [Embedder.stored, Option.isSome_map] at hstored
        rw [h.documents]
        exact Option.isSome_iff_exists.mp hstored
      have hresults : hits.mapM (fun hit => engine.toResult hit.documentId hit.score) =
          .ok (hits.map fun hit => ⟨hit.documentId, hit.score,
            ((engine.derived.documents.get? hit.documentId).map Document.text).getD ""⟩) := by
        apply mapM_hits
        intro hit hm
        obtain ⟨document, hdoc⟩ := hlookup hit hm
        simp [toResult, hdoc]
      rw [hresults]
      intro key herror
      cases herror

theorem noKeyError_hybrid (h : engine.derived.Exact ctx rows) (query : String) (limit : Int)
    (config : FusionConfig) : NoKeyError (hybridSearch ctx engine query limit config) := by
  unfold hybridSearch hybridSearchWith
  dsimp only
  split
  · intro key herror
    cases herror
  · split
    · intro key herror
      cases herror
    · refine noKeyError_bind noKeyError_require fun _ _ => ?_
      refine noKeyError_bind (noKeyError_searchLocked h _ _ _) fun lexical _ => ?_
      refine noKeyError_bind (noKeyError_semanticLocked h _ _) fun semantic _ => ?_
      intro key herror
      unfold reciprocalRankFusion at herror
      split at herror <;> cases herror

-- What a ready engine must be: each structure is the one its stored rows determine, and
-- no lookup that relies on their agreement fails.
structure Trusted (ctx : EngineContext α) (engine : SearchEngine α) : Prop where
  documents : ∀ id, engine.derived.documents.get? id = engine.store.database.rows.get? id
  index : ∀ order : List Document, order.Perm engine.store.database.documents →
    ∃ scratch, scratchIndex ctx order = .ok scratch ∧ engine.derived.index.Same scratch
  noVectors : ctx.embedder = none → engine.derived.vectors = none
  vectors : ∀ embedder, ctx.embedder = some embedder → ∃ vectors,
    engine.derived.vectors = some vectors ∧ vectors.count = engine.store.database.rows.size ∧
      ∀ id, vectors.vectorOf id =
        (engine.store.database.rows.get? id).map fun document => embedder.embed document.text
  generation : engine.generation = engine.store.database.generation
  search : ∀ query limit stats, NoKeyError (search ctx engine query limit stats)
  semanticSearch : ∀ vector limit, NoKeyError (engine.semanticSearch vector limit)
  hybridSearch : ∀ query limit config, NoKeyError (hybridSearch ctx engine query limit config)
  removeDocument : ∀ id, engine.derived.index.contains id = true →
    ∃ after, engine.derived.index.removeDocument id = .ok after

theorem Exact.trusted (h : engine.Exact ctx) : Trusted ctx engine where
  documents := h.derived.documents
  index order horder := by
    obtain ⟨scratch, hscratch, himage⟩ := scratchIndex_image ctx order
    rw [ctx.corpus_congr (engine.store.database.insertAll_perm horder)] at himage
    exact ⟨scratch, hscratch, h.derived.index.same himage⟩
  noVectors := Derived.vectorsExact_none h.derived.vectors
  vectors embedder he := by
    obtain ⟨vectors, hs, hv⟩ := Derived.vectorsExact_some h.derived.vectors he
    refine ⟨vectors, hs, ?_, hv.vectorOf_eq⟩
    rw [ExactVectorIndex.count, (ids_perm_keys hv).length_eq, Dict.keys, List.length_map, Dict.size]
  generation := h.generation
  search query limit stats :=
    noKeyError_bind noKeyError_require fun _ _ => noKeyError_searchLocked h.derived _ _ _
  semanticSearch vector limit :=
    noKeyError_bind noKeyError_require fun _ _ => noKeyError_semanticLocked h.derived _ _
  hybridSearch := noKeyError_hybrid h.derived
  removeDocument id hid := by
    obtain ⟨length, hl⟩ := Option.isSome_iff_exists.mp hid
    obtain ⟨tokens, hc, -⟩ := h.derived.index.corpus_of_length hl
    obtain ⟨after, hremove, -⟩ := InvertedIndex.image_removeDocument h.derived.index hc
    exact ⟨after, hremove⟩

end SearchEngine

namespace Node

variable [Arith α] [LinearOrder α] {ctx : EngineContext α} {role : Role}

theorem reaches_sound {database : Database} {node : Node α}
    (h : Run.Reaches (step ctx role) (fun _ _ => True) (down database) node) : Sound ctx node :=
  Run.invariant (fun _ _ _ _ hstep hs => step_sound (step_moves hstep) hs) h trivial

-- Whatever fails on the way, a node that calls itself ready can be trusted.
theorem ready_node_trusted {database : Database} {engine : SearchEngine α} {phase : Phase}
    {resyncs : List Resync}
    (h : Run.Reaches (step ctx role) (fun _ _ => True) (down database) (up engine phase resyncs))
    (hready : engine.state = .ready) : engine.Trusted ctx :=
  SearchEngine.Exact.trusted (reaches_sound h (.inl hready))

section Example

attribute [local instance] rationalArith

-- A replica that starts on an empty database, finds itself synchronized and applies a
-- replicated write.
def replicaRun (document : Document) : List NodeAction :=
  [.start, .initializeEngine .none, .synchronize, .generation (.ok 0), .compare,
    .applyReplicatedPut document 1 .none]

theorem replicaRun_trusted :
    ∃ engine : SearchEngine ℚ, ∃ phase resyncs,
      Run.exec (step ⟨.ascii, defaultBM25Params, some .constant⟩ .replica) (down .empty)
        (replicaRun redFox) = some (up engine phase resyncs) ∧
      engine.state = .ready ∧ engine.generation = 1 ∧
      engine.Trusted ⟨.ascii, defaultBM25Params, some .constant⟩ := by
  have hrun : (Run.exec (step (α := ℚ) ⟨.ascii, defaultBM25Params, some .constant⟩ .replica)
      (down .empty) (replicaRun redFox)).map (fun
        | up engine _ _ => decide (engine.state = .ready ∧ engine.generation = 1)
        | down _ => false) = some true := by decide +kernel
  obtain ⟨node, hexec, hnode⟩ := Option.map_eq_some_iff.mp hrun
  match node with
  | up engine phase resyncs =>
      have hstate := of_decide_eq_true hnode
      exact ⟨engine, phase, resyncs, hexec, hstate.1, hstate.2,
        ready_node_trusted ⟨_, hexec, Run.along_true _ _⟩ hstate.1⟩

end Example

end Node

end PySearch
