import PySearch.Hybrid.Fusion
import PySearch.Search.Analysis
import PySearch.Search.Ranking
import PySearch.Semantic.Embedder
import PySearch.Semantic.VectorIndex
import PySearch.Storage.SqliteStore

namespace PySearch

open Script (Stmt)

-- What an engine is built with and never changes.
structure EngineContext (α : Type) where
  unicode : Unicode
  params : BM25Params α
  embedder : Option (Embedder α)

-- The in-memory structures that are rebuilt from storage at startup.
structure Derived (α : Type) where
  documents : Dict String Document
  index : InvertedIndex
  vectors : Option (ExactVectorIndex α)

structure SearchEngine (α : Type) where
  store : SqliteDocumentStore
  derived : Derived α
  state : NodeState
  detail : String
  generation : Int

structure RebuildReport where
  documentCount : Nat
  vectorCount : Nat

inductive ReplicationOutcome
  | applied
  | duplicate
  | gap
  deriving DecidableEq

structure EngineStatus where
  state : NodeState
  ready : Bool
  detail : String
  generation : Int

-- Where exceptions are raised during one mutation: by the analysis, by the embedder, by
-- the store transaction, or in front of one statement of the derived update.
structure Faults where
  analysis : Bool
  embed : Bool
  store : Bool
  derived : Option (Nat × PyError)
  deriving DecidableEq

def Faults.none : Faults := ⟨false, false, false, .none⟩

-- Where exceptions are raised during one rebuild: while the documents are read, while the
-- index is validated, on one batch of the embedder, while the generation is read, or in
-- front of one of the assignments that swap the new structures in.
structure RebuildFaults where
  read : Bool
  validate : Bool
  embed : Option Nat
  generation : Bool
  swap : Option (Nat × PyError)
  deriving DecidableEq

def RebuildFaults.none : RebuildFaults := ⟨false, false, .none, false, .none⟩

-- Where the store raises during one validation: while the generation, the count or the
-- documents are read.
structure ReadFaults where
  generation : Bool
  count : Bool
  documents : Bool
  deriving DecidableEq

def ReadFaults.none : ReadFaults := ⟨false, false, false⟩

def NodeState.name : NodeState → String
  | starting => "starting"
  | recovering => "recovering"
  | ready => "ready"
  | degraded => "degraded"
  | outOfSync => "out_of_sync"

variable {α : Type}

namespace Derived

def empty (embedder : Option (Embedder α)) [Arith α] : Derived α :=
  ⟨.empty, .empty, embedder.map fun embedder => .new embedder.identity.dimension⟩

def setDocument (document : Document) : Stmt (Derived α) PyError := fun derived =>
  .ok { derived with documents := derived.documents.set document.documentId document }

def deleteDocument (documentId : String) : Stmt (Derived α) PyError := fun derived =>
  if derived.documents.contains documentId then
    .ok { derived with documents := derived.documents.erase documentId }
  else .error (.keyError documentId)

def onIndex (stmt : Stmt InvertedIndex PyError) : Stmt (Derived α) PyError := fun derived =>
  (stmt derived.index).map fun index => { derived with index := index }

def onVectors (stmt : Stmt (ExactVectorIndex α) PyError) : Stmt (Derived α) PyError :=
  fun derived =>
    match derived.vectors with
    | none => .ok derived
    | some vectors => (stmt vectors).map fun vectors => { derived with vectors := some vectors }

-- The statements of `_apply_derived_locked`.
def applyScript [Arith α] (derived : Derived α) (document : Document) (tokens : List String)
    (vector : Option (List α)) : List (Stmt (Derived α) PyError) :=
  setDocument document ::
    (derived.index.addDocumentScript document.documentId tokens).map onIndex ++
    match derived.vectors, vector with
    | some vectors, some vector =>
        (vectors.addScript document.documentId vector).map onVectors
    | _, _ => []

-- The statements of `_remove_derived_locked`.
def removeScript (derived : Derived α) (documentId : String) : List (Stmt (Derived α) PyError) :=
  deleteDocument documentId ::
    (derived.index.removeDocumentScript documentId).map onIndex ++
    match derived.vectors with
    | some vectors => (vectors.removeScript documentId).map onVectors
    | none => []

end Derived

namespace SearchEngine

variable [Arith α] (ctx : EngineContext α)

def new (store : SqliteDocumentStore) : SearchEngine α :=
  ⟨store, .empty ctx.embedder, .starting, "not initialized", 0⟩

def status (engine : SearchEngine α) : EngineStatus where
  state := engine.state
  ready := engine.state = .ready
  detail :=
    if engine.state = .ready then engine.detail else engine.state.name ++ ": " ++ engine.detail
  generation := engine.generation

def markRecovering (engine : SearchEngine α) (detail : String) : SearchEngine α :=
  { engine with state := .recovering, detail := detail }

def markOutOfSync (engine : SearchEngine α) (detail : String) : SearchEngine α :=
  { engine with state := .outOfSync, detail := detail }

def markReady (engine : SearchEngine α) : SearchEngine α :=
  { engine with state := .ready, detail := "ready" }

def close (engine : SearchEngine α) : SearchEngine α :=
  { engine with state := .starting, detail := "closed", store := engine.store.close }

def requireOperational (engine : SearchEngine α) : Except PyError Unit :=
  if engine.state = .ready then .ok () else .error (.engineNotReady engine.state engine.detail)

def analyzeDocument (text : String) (fault : Bool) : Except PyError (List String) :=
  if fault then .error .unexpected else .ok (Analysis.analyze ctx.unicode text)

def embedDocument (text : String) (fault : Bool) : Except PyError (Option (List α)) :=
  match ctx.embedder with
  | none => .ok none
  | some embedder =>
      if fault then .error (.embedding "embedding failed")
      else .ok (embedder.embedDocuments [text]).head?

-- Any exception inside the block leaves the engine degraded and is reported as such.
def degradeOnFailure (reason : String) (script : List (Stmt (Derived α) PyError))
    (fault : Option (Nat × PyError)) (engine : SearchEngine α) :
    Except PyError Unit × SearchEngine α :=
  match Script.run script fault engine.derived with
  | (derived, none) => (.ok (), { engine with derived := derived })
  | (derived, some _) =>
      (.error (.engineNotReady .degraded reason),
        { engine with derived := derived, state := .degraded, detail := reason })

def indexDocument (engine : SearchEngine α) (document : Document) (faults : Faults) :
    Except PyError Bool × SearchEngine α :=
  match analyzeDocument ctx document.text faults.analysis with
  | .error error => (.error error, engine)
  | .ok tokens =>
  match embedDocument ctx document.text faults.embed with
  | .error error => (.error error, engine)
  | .ok vector =>
  match engine.requireOperational with
  | .error error => (.error error, engine)
  | .ok () =>
  let generation := engine.generation + 1
  match engine.store.put document generation faults.store with
  | .error error => (.error error, engine)
  | .ok (created, store) =>
  -- Past this point the durable corpus has changed.
  match degradeOnFailure "failed to update derived state after a durable write"
    (engine.derived.applyScript document tokens vector) faults.derived
    { engine with store := store, generation := generation } with
  | (.error error, engine) => (.error error, engine)
  | (.ok (), engine) => (.ok created, engine)

def deleteDocument (engine : SearchEngine α) (documentId : String) (faults : Faults) :
    Except PyError Unit × SearchEngine α :=
  match engine.requireOperational with
  | .error error => (.error error, engine)
  | .ok () =>
  -- A delete that matches nothing must not consume a generation.
  if !engine.derived.documents.contains documentId then
    (.error (.documentNotFound documentId), engine)
  else
  let generation := engine.generation + 1
  match engine.store.delete documentId generation faults.store with
  | .error error => (.error error, engine)
  | .ok (_, store) =>
      degradeOnFailure "failed to update derived state after a durable delete"
        (engine.derived.removeScript documentId) faults.derived
        { engine with store := store, generation := generation }

def classifyGeneration (engine : SearchEngine α) (generation : Int) :
    Except PyError ReplicationOutcome × SearchEngine α :=
  if generation ≤ engine.generation then (.ok .duplicate, engine)
  else if generation > engine.generation + 1 then
    (.ok .gap, { engine with
      state := .outOfSync
      detail := "generation gap: local " ++ toString engine.generation ++
        ", received " ++ toString generation })
  else
    match engine.requireOperational with
    | .error error => (.error error, engine)
    | .ok () => (.ok .applied, engine)

-- The replica's generation advances after the derived update, the primary's before it.
def applyReplicatedPut (engine : SearchEngine α) (document : Document) (generation : Int)
    (faults : Faults) : Except PyError ReplicationOutcome × SearchEngine α :=
  match engine.classifyGeneration generation with
  | (.ok .applied, engine) =>
      match analyzeDocument ctx document.text faults.analysis with
      | .error error => (.error error, engine)
      | .ok tokens =>
      match embedDocument ctx document.text faults.embed with
      | .error error => (.error error, engine)
      | .ok vector =>
      match engine.store.put document generation faults.store with
      | .error error => (.error error, engine)
      | .ok (_, store) =>
      match degradeOnFailure "failed to update derived state after a replicated write"
        (engine.derived.applyScript document tokens vector) faults.derived
        { engine with store := store } with
      | (.error error, engine) => (.error error, engine)
      | (.ok (), engine) => (.ok .applied, { engine with generation := generation })
  | other => other

-- Deleting an absent document is not an error here.
def applyReplicatedDelete (engine : SearchEngine α) (documentId : String) (generation : Int)
    (faults : Faults) : Except PyError ReplicationOutcome × SearchEngine α :=
  match engine.classifyGeneration generation with
  | (.ok .applied, engine) =>
      match engine.store.delete documentId generation faults.store with
      | .error error => (.error error, engine)
      | .ok (_, store) =>
      match degradeOnFailure "failed to update derived state after a replicated delete"
        (if engine.derived.documents.contains documentId then
          engine.derived.removeScript documentId else [])
        faults.derived { engine with store := store } with
      | (.error error, engine) => (.error error, engine)
      | (.ok (), engine) => (.ok .applied, { engine with generation := generation })
  | other => other

def exportSnapshot (engine : SearchEngine α) : Except PyError (List Document × Int) := do
  engine.requireOperational
  return (engine.derived.documents.values, engine.generation)

def embeddingBatchSize : Nat := 64

-- The slices `ids[start : start + size]` for `start in range(0, len(ids), size)`.
def batches (size : Nat) (ids : List String) : List (List String) :=
  (List.range ((ids.length + (size - 1)) / size)).map fun i => (ids.drop (i * size)).take size

-- `documents[key].text`
def textOf (documents : Dict String Document) (key : String) : Except PyError String :=
  match documents.get? key with
  | none => .error (.keyError key)
  | some document => .ok document.text

-- One round of the loop of `_rebuild_vectors`: embed a batch, add its vectors.
def rebuildBatch (embedder : Embedder α) (documents : Dict String Document)
    (fault : Option Nat) (vectors : ExactVectorIndex α) (batch : List String × Nat) :
    Except PyError (ExactVectorIndex α) := do
  if fault = some batch.2 then .error (.embedding "embedding failed")
  let texts ← batch.1.mapM (textOf documents)
  let embedded := embedder.embedDocuments texts
  (batch.1.zip embedded).foldlM (fun vectors entry => vectors.add entry.1 entry.2) vectors

variable [LinearOrder α]

def rebuildVectors (documents : Dict String Document) (fault : Option Nat) :
    Except PyError (Option (ExactVectorIndex α)) :=
  match ctx.embedder with
  | none => .ok none
  | some embedder => do
      let documentIds := KeySort.sortedBy id documents.keys
      let vectors ← (batches embeddingBatchSize documentIds).zipIdx.foldlM
        (rebuildBatch embedder documents fault) (.new embedder.identity.dimension)
      vectors.validate
      return some vectors

-- One round of the loop of `_rebuild_locked` over the stored documents.
def rebuildDocument (built : Dict String Document × InvertedIndex) (document : Document) :
    Except PyError (Dict String Document × InvertedIndex) := do
  let index ← built.2.addDocument document.documentId
    (Analysis.analyze ctx.unicode document.text)
  return (built.1.set document.documentId document, index)

def validateIndex (index : InvertedIndex) (fault : Bool) : Except PyError Unit :=
  if fault then .error .unexpected else index.validate

-- Everything `_rebuild_locked` computes before it assigns anything.
def rebuildStructures (engine : SearchEngine α) (faults : RebuildFaults) :
    Except PyError (Derived α) := do
  let stored ← engine.store.iterDocuments faults.read
  let built ← stored.foldlM (rebuildDocument ctx) (.empty, .empty)
  validateIndex built.2 faults.validate
  let vectors ← rebuildVectors ctx built.1 faults.embed
  return ⟨built.1, built.2, vectors⟩

-- The four assignments that swap the new structures in.
def swapScript (fresh : Derived α) (faults : RebuildFaults) :
    List (Stmt (SearchEngine α) PyError) :=
  [fun engine => .ok { engine with derived := { engine.derived with index := fresh.index } },
    fun engine => .ok { engine with derived := { engine.derived with documents := fresh.documents } },
    fun engine => .ok { engine with derived := { engine.derived with vectors := fresh.vectors } },
    fun engine => (engine.store.generation faults.generation).map fun generation =>
      { engine with generation := generation }]

def rebuild (engine : SearchEngine α) (faults : RebuildFaults) :
    Except PyError RebuildReport × SearchEngine α :=
  match rebuildStructures ctx engine faults with
  | .error error => (.error error, engine)
  | .ok fresh =>
  match Script.run (swapScript fresh faults) faults.swap engine with
  | (engine, some error) => (.error error, engine)
  | (engine, none) =>
      (.ok ⟨fresh.documents.size, (fresh.vectors.map ExactVectorIndex.count).getD 0⟩, engine)

def initializeEngine (engine : SearchEngine α) (faults : RebuildFaults) :
    Except PyError RebuildReport × SearchEngine α :=
  match rebuild ctx engine faults with
  | (.error error, engine) => (.error error, engine)
  | (.ok report, engine) => (.ok report, engine.markReady)

-- `fault` is a failure of the `replace_all` transaction.
def resynchronize (engine : SearchEngine α) (documents : List Document) (generation : Int)
    (fault : Bool) (faults : RebuildFaults) : Except PyError RebuildReport × SearchEngine α :=
  let engine := engine.markRecovering ("resynchronizing to generation " ++ toString generation)
  match engine.store.replaceAll documents generation fault with
  | .error error => (.error error, engine)
  | .ok store =>
  match rebuild ctx { engine with store := store } faults with
  | (.error error, engine) => (.error error, engine)
  | (.ok report, engine) =>
      if engine.generation ≠ generation then
        (.error (.indexInvariant (.resynchronized generation engine.generation)), engine)
      else (.ok report, engine.markReady)

def toResult (engine : SearchEngine α) (documentId : String) (score : α) :
    Except PyError (SearchResult α) :=
  match engine.derived.documents.get? documentId with
  | none => .error (.keyError documentId)
  | some document => .ok ⟨documentId, score, document.text⟩

def searchLocked (engine : SearchEngine α) (terms : List String) (limit : Int)
    (corpusStats : Option CorpusStats) : Except PyError (SearchResults α) :=
  if terms = [] then .ok ⟨0, []⟩
  else do
    let scores := BM25Scorer.scoreQuery ctx.params engine.derived.index terms corpusStats
    let ranked := KeySort.sortedBy (fun item : String × α => rankKey item.2 item.1) scores.entries
    let results ← (KeySort.sliceTo ranked limit).mapM fun item => engine.toResult item.1 item.2
    return ⟨ranked.length, results⟩

def search (engine : SearchEngine α) (query : String) (limit : Int)
    (corpusStats : Option CorpusStats) : Except PyError (SearchResults α) := do
  let terms := Analysis.analyze ctx.unicode query
  engine.requireOperational
  searchLocked ctx engine terms limit corpusStats

omit [LinearOrder α] in
def corpusStats (engine : SearchEngine α) (terms : List String) : Except PyError CorpusStats := do
  engine.requireOperational
  return engine.derived.index.corpusStats terms

omit [LinearOrder α] in
def stats (engine : SearchEngine α) : Except PyError (IndexStats α) := do
  engine.requireOperational
  return engine.derived.index.stats

omit [LinearOrder α] in
-- `fault` says that the model fails on the query.
def embedQuery (text : String) (fault : Bool) : Except PyError (List α) :=
  match ctx.embedder with
  | none => .error (.semanticDisabled "semantic search is not enabled on this node")
  | some embedder =>
      if fault then .error (.embedding "embedding failed") else .ok (embedder.embedQuery text)

def semanticSearchLocked (engine : SearchEngine α) (vector : List α) (limit : Int) :
    Except PyError (SearchResults α) :=
  match engine.derived.vectors with
  | none => .error (.semanticDisabled "semantic search is not enabled on this node")
  | some vectors => do
      let hits ← vectors.search vector limit
      let results ← hits.mapM fun hit => engine.toResult hit.documentId hit.score
      return ⟨vectors.count, results⟩

def semanticSearch (engine : SearchEngine α) (vector : List α) (limit : Int) :
    Except PyError (SearchResults α) := do
  engine.requireOperational
  engine.semanticSearchLocked vector limit

def hybridSearchWith (engine : SearchEngine α) (fault : Bool) (query : String) (limit : Int)
    (config : FusionConfig) : Except PyError (HybridResults α) :=
  let terms := Analysis.analyze ctx.unicode query
  -- A query with no terms is answered without asking the model.
  if terms = [] then .ok ⟨0, []⟩
  else match ctx.embedder with
  | none => .error (.semanticDisabled
      "hybrid search requires semantic search, which is not enabled on this node")
  | some embedder => do
      if fault then .error (.embedding "embedding failed")
      let vector := embedder.embedQuery query
      let depth := config.candidateDepth limit
      engine.requireOperational
      let lexical ← searchLocked ctx engine terms depth none
      let semantic ← engine.semanticSearchLocked vector depth
      reciprocalRankFusion lexical semantic limit config

-- The model does not fail on the query.
def hybridSearch (engine : SearchEngine α) (query : String) (limit : Int) (config : FusionConfig) :
    Except PyError (HybridResults α) := engine.hybridSearchWith ctx false query limit config

-- `self._vectors.validate()` and the comparison behind it, when there are vectors.
def validateVectors (derived : Derived α) : Except PyError Unit :=
  match derived.vectors with
  | none => .ok ()
  | some vectors => do
      vectors.validate
      InvertedIndex.require (vectors.documentIds.same (.ofKeys derived.documents)) .vectorsAndCache

omit [Arith α] [LinearOrder α] in
-- One round of the loop over the stored documents.
def validateStored (documents : Dict String Document) (document : Document) :
    Except PyError Unit :=
  match documents.get? document.documentId with
  | none => .error (.indexInvariant (.missingFromCache document.documentId))
  | some cached =>
      InvertedIndex.require (cached.text = document.text) (.cachedText document.documentId)

-- It works in every state, also while degraded.
def validate (engine : SearchEngine α) (faults : ReadFaults) : Except PyError Unit := do
  engine.derived.index.validate
  InvertedIndex.require
    ((FrozenSet.ofKeys engine.derived.documents).same engine.derived.index.documentIds)
    .cacheAndIndex
  validateVectors engine.derived
  let storedGeneration ← engine.store.generation faults.generation
  InvertedIndex.require (storedGeneration = engine.generation)
    (.storedGeneration storedGeneration engine.generation)
  let storedCount ← engine.store.count faults.count
  InvertedIndex.require (storedCount = engine.derived.documents.size)
    (.storedCount storedCount engine.derived.documents.size)
  let stored ← engine.store.iterDocuments faults.documents
  stored.forM (validateStored engine.derived.documents)

end SearchEngine

end PySearch
