import PySearch.Search.Engine.Theorems
import PySearch.Search.Ranking.Theorems

namespace PySearch

open KeySort (sortedBy sliceTo)

variable {α : Type} [Arith α]

def hitKey (hit : SearchResult α) : α ×ₗ String := rankKey hit.score hit.documentId

-- What every search of the program returns, given all its hits in any order.
def answer [LinearOrder α] (hits : List (SearchResult α)) (limit : Int) : SearchResults α :=
  ⟨hits.length, sliceTo (sortedBy hitKey hits) limit⟩

theorem hitKeys_nodup {hits : List (SearchResult α)}
    (h : (hits.map SearchResult.documentId).Nodup) : (hits.map hitKey).Nodup := by
  apply List.Nodup.of_map (fun key => (ofLex key).2)
  rwa [List.map_map]

theorem answer_perm [LinearOrder α] {hits other : List (SearchResult α)} (limit : Int)
    (hnodup : (hits.map SearchResult.documentId).Nodup) (h : hits.Perm other) :
    answer hits limit = answer other limit := by
  rw [answer, answer, h.length_eq, KeySort.sortedBy_eq_of_perm (hitKeys_nodup hnodup) h]

namespace EngineContext

variable (ctx : EngineContext α) (rows : Dict String Document)

omit [Arith α] in
def tokens (document : Document) : List String := Analysis.analyze ctx.unicode document.text

-- The statistics of the stored documents, counted directly.
omit [Arith α] in
def statistics (terms : List String) : CorpusStats where
  documentCount := rows.size
  totalDocumentLength := (rows.values.map fun document => ((ctx.tokens document).length : Int)).sum
  documentFrequencies := Dict.comprehension terms id fun term =>
    (rows.values.countP fun document => term ∈ ctx.tokens document : Nat)

omit [Arith α] in
theorem statistics_frequency {terms : List String} {term : String} (h : term ∈ terms) :
    (ctx.statistics rows terms).documentFrequency term =
      (rows.values.countP fun document => term ∈ ctx.tokens document : Nat) := by
  rw [CorpusStats.documentFrequency, statistics, Dict.getD, Dict.get?_comprehension, if_pos h]
  rfl

variable [LinearOrder α]

def lexicalHit (terms : List String) (stats : CorpusStats) (entry : String × Document) :
    Option (SearchResult α) :=
  (BM25Scorer.documentScore ctx.params stats terms (ctx.tokens entry.2)).map fun score =>
    ⟨entry.1, score, entry.2.text⟩

-- Every stored document that matches, scored from its own tokens.
def lexicalHits (terms : List String) (stats : CorpusStats) : List (SearchResult α) :=
  rows.entries.filterMap (ctx.lexicalHit terms stats)

end EngineContext

-- Every stored document with its similarity to the query.
def Embedder.semanticHits (embedder : Embedder α) (rows : Dict String Document)
    (query : List α) : List (SearchResult α) :=
  rows.entries.map fun entry =>
    ⟨entry.1, Arith.dot (embedder.embed entry.2.text) query, entry.2.text⟩

section Hits

variable {ctx : EngineContext α} {rows : Dict String Document}

theorem lexicalHits_ids [LinearOrder α] (terms : List String) (stats : CorpusStats) :
    ((ctx.lexicalHits rows terms stats).map SearchResult.documentId).Sublist rows.keys := by
  rw [EngineContext.lexicalHits, Dict.keys]
  induction rows.entries with
  | nil => simp
  | cons entry rest ih =>
      cases hf : ctx.lexicalHit terms stats entry with
      | none => simpa [hf] using ih.cons _
      | some hit =>
          obtain ⟨score, -, rfl⟩ := Option.map_eq_some_iff.mp hf
          simpa [hf] using ih

theorem lexicalHits_nodup [LinearOrder α] (terms : List String) (stats : CorpusStats) :
    ((ctx.lexicalHits rows terms stats).map SearchResult.documentId).Nodup :=
  rows.keys_nodup.sublist (lexicalHits_ids terms stats)

theorem semanticHits_nodup (embedder : Embedder α) (query : List α) :
    ((embedder.semanticHits rows query).map SearchResult.documentId).Nodup := by
  rw [Embedder.semanticHits, List.map_map]
  exact rows.keys_nodup

theorem lexicalHits_rows [LinearOrder α] {other : Dict String Document}
    (h : ∀ id, rows.get? id = other.get? id) (terms : List String) (stats : CorpusStats)
    (limit : Int) : answer (ctx.lexicalHits rows terms stats) limit =
      answer (ctx.lexicalHits other terms stats) limit :=
  answer_perm limit (lexicalHits_nodup terms stats) ((Dict.entries_perm h).filterMap _)

end Hits

section Statistics

variable {ctx : EngineContext α} {rows : Dict String Document} {index : InvertedIndex}

omit [Arith α] in
theorem corpusStats_eq_statistics (h : index.Image (ctx.corpus rows)) (terms : List String) :
    index.corpusStats terms = ctx.statistics rows terms := by
  have himage : index.Image fun id => (rows.get? id).map ctx.tokens := h
  simp only [InvertedIndex.corpusStats, EngineContext.statistics, himage.documentCount_size,
    himage.totalLength_sum, funext himage.documentFrequency_count]

end Statistics

namespace SearchEngine

variable [LinearOrder α] {ctx : EngineContext α} {engine : SearchEngine α}
  {rows : Dict String Document}

omit [Arith α] [LinearOrder α] in
theorem mapM_hits {ι : Type} (f : ι → Except PyError (SearchResult α)) (g : ι → SearchResult α)
    (items : List ι) (h : ∀ item ∈ items, f item = .ok (g item)) :
    items.mapM f = .ok (items.map g) := by
  induction items with
  | nil => rfl
  | cons item rest ih =>
      rw [List.mapM_cons, h item (.head _), ih fun other ho => h other (.tail _ ho)]
      rfl

omit [Arith α] [LinearOrder α] in
-- Looking up the text of a hit never fails.
theorem toResult_hit (h : ∀ id, engine.derived.documents.get? id = rows.get? id)
    {hit : SearchResult α} {document : Document}
    (hrow : rows.get? hit.documentId = some document) (htext : hit.text = document.text) :
    engine.toResult hit.documentId hit.score = .ok hit := by
  simp only [toResult, h, hrow, ← htext]

theorem lexicalHits_row {terms : List String} {stats : CorpusStats} {hit : SearchResult α}
    (h : hit ∈ ctx.lexicalHits rows terms stats) :
    ∃ document, rows.get? hit.documentId = some document ∧ hit.text = document.text := by
  obtain ⟨⟨id, document⟩, hm, hf⟩ := List.mem_filterMap.mp h
  obtain ⟨score, -, rfl⟩ := Option.map_eq_some_iff.mp hf
  exact ⟨document, Dict.mem_entries.mp hm, rfl⟩

-- A lexical search returns the best hits among the stored documents.
theorem searchLocked_eq (h : engine.derived.Exact ctx rows) {terms : List String}
    (hterms : terms ≠ []) (limit : Int) (corpusStats : Option CorpusStats) :
    searchLocked ctx engine terms limit corpusStats = .ok (answer
      (ctx.lexicalHits rows terms (corpusStats.getD (ctx.statistics rows terms))) limit) := by
  generalize hstats : corpusStats.getD (ctx.statistics rows terms) = stats
  let pair : SearchResult α → String × α := fun hit => (hit.documentId, hit.score)
  have hscores : (BM25Scorer.scoreQuery ctx.params engine.derived.index terms
      corpusStats).entries.Perm ((ctx.lexicalHits rows terms stats).map pair) := by
    refine (Dict.entries_perm_bind (e := rows) (f := fun document =>
      BM25Scorer.documentScore ctx.params stats terms (ctx.tokens document)) fun id => ?_).trans ?_
    · rw [BM25Scorer.scoreQuery_get? h.index, corpusStats_eq_statistics h.index, hstats,
        EngineContext.corpus]
      cases rows.get? id <;> rfl
    · rw [EngineContext.lexicalHits, List.map_filterMap]
      apply List.Perm.of_eq
      congr 1
      funext entry
      rw [EngineContext.lexicalHit, Option.map_map]
      rfl
  have hkeys : ((ctx.lexicalHits rows terms stats).map pair).map
      (fun item : String × α => rankKey item.2 item.1) =
      (ctx.lexicalHits rows terms stats).map hitKey := by
    rw [List.map_map]
    rfl
  have hranked := KeySort.sortedBy_eq_of_perm (by
    rw [(hscores.map _).nodup_iff, hkeys]
    exact hitKeys_nodup (lexicalHits_nodup terms stats)) hscores
  rw [KeySort.sortedBy_map] at hranked
  have hresults : (sliceTo ((sortedBy hitKey (ctx.lexicalHits rows terms stats)).map pair)
      limit).mapM (fun item => engine.toResult item.1 item.2) =
      .ok (sliceTo (sortedBy hitKey (ctx.lexicalHits rows terms stats)) limit) := by
    rw [KeySort.sliceTo_map, List.mapM_map]
    refine (mapM_hits _ (fun hit => hit) _ ?_).trans (by rw [List.map_id'])
    intro hit hm
    have hmem := KeySort.mem_sortedBy.mp (KeySort.mem_of_mem_sliceTo hm)
    obtain ⟨document, hrow, htext⟩ := lexicalHits_row hmem
    exact toResult_hit h.documents hrow htext
  unfold searchLocked
  rw [if_neg hterms]
  simp only [hranked]
  rw [show ((fun item : String × α => rankKey item.2 item.1) ∘ pair) = hitKey from rfl, hresults]
  simp only [Bind.bind, Except.bind, List.length_map, KeySort.length_sortedBy]
  rfl

theorem lexicalHits_nil (ctx : EngineContext α) (rows : Dict String Document)
    (stats : CorpusStats) : ctx.lexicalHits rows [] stats = [] := by
  rw [EngineContext.lexicalHits, List.filterMap_eq_nil_iff]
  intro entry _
  rw [EngineContext.lexicalHit, BM25Scorer.documentScore]
  split <;> rfl

theorem search_eq (hready : engine.state = .ready) (h : engine.derived.Exact ctx rows)
    (query : String) (limit : Int) (corpusStats : CorpusStats) :
    search ctx engine query limit (some corpusStats) = .ok (answer
      (ctx.lexicalHits rows (Analysis.analyze ctx.unicode query) corpusStats) limit) := by
  simp only [search, requireOperational_of_ready hready, Bind.bind, Except.bind]
  by_cases hterms : Analysis.analyze ctx.unicode query = []
  · rw [hterms, lexicalHits_nil, searchLocked, if_pos rfl]
    simp [answer, sortedBy, sliceTo]
  · exact searchLocked_eq h hterms limit (some corpusStats)

theorem search_total (hready : engine.state = .ready) (h : engine.derived.Exact ctx rows)
    (query : String) (limit : Int) :
    ∃ results, search ctx engine query limit none = .ok results := by
  simp only [search, requireOperational_of_ready hready, Bind.bind, Except.bind]
  by_cases hterms : Analysis.analyze ctx.unicode query = []
  · exact ⟨_, by rw [hterms, searchLocked, if_pos rfl]⟩
  · exact ⟨_, searchLocked_eq h hterms limit none⟩

omit [Arith α] [LinearOrder α] in
theorem corpusStats_eq (hready : engine.state = .ready) (h : engine.derived.Exact ctx rows)
    (terms : List String) : engine.corpusStats terms = .ok (ctx.statistics rows terms) := by
  simp only [corpusStats, requireOperational_of_ready hready, Bind.bind, Except.bind]
  rw [corpusStats_eq_statistics h.index]
  rfl

section Semantic

variable {embedder : Embedder α} {vectors : ExactVectorIndex α}

omit [Arith α] [LinearOrder α] in
theorem ids_perm_keys
    (h : vectors.Image embedder.identity.dimension (embedder.stored rows)) :
    vectors.ids.Perm rows.keys := by
  apply (List.perm_ext_iff_of_nodup h.nodup rows.keys_nodup).mpr
  intro id
  rw [← h.stored, Dict.mem_keys, Embedder.stored, Option.isSome_map]

-- A semantic search ranks every stored document by its similarity.
theorem semanticSearchLocked_eq (h : engine.derived.Exact ctx rows)
    (he : ctx.embedder = some embedder) {query : List α}
    (hq : ExactVectorIndex.Admissible embedder.identity.dimension query) {limit : Int}
    (hlimit : 1 ≤ limit) :
    engine.semanticSearchLocked query limit =
      .ok (answer (embedder.semanticHits rows query) limit) := by
  obtain ⟨vectors, hsome, himage⟩ := Derived.vectorsExact_some h.vectors he
  have hids := ids_perm_keys himage
  let pair : SearchResult α → String × α := fun hit => (hit.documentId, hit.score)
  have hpairs : (ExactVectorIndex.similarities vectors.ids (embedder.stored rows) query).Perm
      ((embedder.semanticHits rows query).map pair) := by
    refine (hids.map fun id => (id, Arith.dot ((embedder.stored rows id).getD []) query)).trans ?_
    rw [Embedder.semanticHits, Dict.keys, List.map_map, List.map_map]
    apply List.Perm.of_eq
    apply List.map_congr_left
    rintro ⟨id, document⟩ hm
    simp [pair, Embedder.stored, Dict.mem_entries.mp hm]
  have hranked := KeySort.sortedBy_eq_of_perm
    (ExactVectorIndex.similarities_keys vectors.ids himage.nodup _ query) hpairs
  rw [KeySort.sortedBy_map] at hranked
  have hcount : vectors.count = (embedder.semanticHits rows query).length := by
    rw [ExactVectorIndex.count, hids.length_eq, Dict.keys, Embedder.semanticHits,
      List.length_map, List.length_map]
  unfold semanticSearchLocked
  rw [hsome]
  dsimp only
  by_cases hempty : vectors.ids = []
  · have hnil : embedder.semanticHits rows query = [] := by
      rw [← List.length_eq_zero_iff, ← hcount, ExactVectorIndex.count, hempty]
      rfl
    rw [ExactVectorIndex.search, if_neg (by omega), if_pos hempty, hnil, ExactVectorIndex.count,
      hempty, answer, KeySort.sliceTo_of_nonneg _ (by omega)]
    simp [KeySort.sortedBy, Bind.bind, Except.bind, pure, Except.pure]
  · rw [himage.search_eq query hlimit hempty hq, hranked, KeySort.sliceTo_map, List.map_map]
    simp only [Bind.bind, Except.bind, List.mapM_map]
    rw [mapM_hits _ (fun hit => hit) _ ?_]
    · simp only [List.map_id', hcount]
      rfl
    · intro hit hm
      have hmem := KeySort.mem_sortedBy.mp (KeySort.mem_of_mem_sliceTo hm)
      obtain ⟨⟨id, document⟩, hentry, rfl⟩ := List.mem_map.mp hmem
      have hrow : rows.get? id = some document := Dict.mem_entries.mp hentry
      exact @toResult_hit _ _ _ h.documents ⟨id, _, document.text⟩ document hrow rfl

theorem semanticSearch_eq (hready : engine.state = .ready) (h : engine.derived.Exact ctx rows)
    (he : ctx.embedder = some embedder) {query : List α}
    (hq : ExactVectorIndex.Admissible embedder.identity.dimension query) {limit : Int}
    (hlimit : 1 ≤ limit) :
    engine.semanticSearch query limit = .ok (answer (embedder.semanticHits rows query) limit) := by
  simp only [semanticSearch, requireOperational_of_ready hready, Bind.bind, Except.bind]
  exact semanticSearchLocked_eq h he hq hlimit

theorem hybridSearch_total (hready : engine.state = .ready) (h : engine.derived.Exact ctx rows)
    (he : ctx.embedder = some embedder) (hc : embedder.Contract) (query : String) {limit : Int}
    (hlimit : 1 ≤ limit) {config : FusionConfig} (hdepth : 1 ≤ config.candidateDepth limit) :
    ∃ results, hybridSearch ctx engine query limit config = .ok results := by
  unfold hybridSearch hybridSearchWith
  by_cases hterms : Analysis.analyze ctx.unicode query = []
  · exact ⟨_, if_pos hterms⟩
  · simp only [if_neg hterms, he, Bool.false_eq_true, if_false,
      requireOperational_of_ready hready, Bind.bind, Except.bind, searchLocked_eq h hterms,
      semanticSearchLocked_eq h he (hc.queries query) hdepth]
    exact ⟨_, if_neg (by omega)⟩

end Semantic

-- Two engines that nobody can tell apart by asking.
structure SameAnswers (ctx : EngineContext α) (engine other : SearchEngine α) : Prop where
  search : ∀ query limit stats,
    search ctx engine query limit stats = search ctx other query limit stats
  corpusStats : ∀ terms, engine.corpusStats terms = other.corpusStats terms
  stats : engine.stats = other.stats
  semanticSearch : ∀ vector limit,
    engine.semanticSearch vector limit = other.semanticSearch vector limit
  hybridSearch : ∀ query limit config,
    hybridSearch ctx engine query limit config = hybridSearch ctx other query limit config

section Congruence

variable {other : SearchEngine α}

theorem searchLocked_congr (h : engine.derived.Exact ctx rows) (ho : other.derived.Exact ctx rows)
    (terms : List String) (limit : Int) (stats : Option CorpusStats) :
    searchLocked ctx engine terms limit stats = searchLocked ctx other terms limit stats := by
  by_cases hterms : terms = []
  · rw [searchLocked, searchLocked, if_pos hterms, if_pos hterms]
  · rw [searchLocked_eq h hterms, searchLocked_eq ho hterms]

omit [Arith α] [LinearOrder α] in
theorem toResult_congr (h : engine.derived.Exact ctx rows) (ho : other.derived.Exact ctx rows) :
    engine.toResult = other.toResult := by
  funext id score
  rw [toResult, toResult, h.documents, ho.documents]

theorem semanticSearchLocked_congr (h : engine.derived.Exact ctx rows)
    (ho : other.derived.Exact ctx rows) (vector : List α) (limit : Int) :
    engine.semanticSearchLocked vector limit = other.semanticSearchLocked vector limit := by
  unfold semanticSearchLocked
  cases he : ctx.embedder with
  | none =>
      rw [Derived.vectorsExact_none h.vectors he, Derived.vectorsExact_none ho.vectors he]
  | some embedder =>
      obtain ⟨vectors, hs, hv⟩ := Derived.vectorsExact_some h.vectors he
      obtain ⟨vectors', hs', hv'⟩ := Derived.vectorsExact_some ho.vectors he
      rw [hs, hs']
      dsimp only
      rw [hv.search_congr hv', hv.count_eq hv', toResult_congr h ho]

theorem sameAnswers (h : engine.derived.Exact ctx rows) (ho : other.derived.Exact ctx rows)
    (hstate : engine.state = .ready) (hother : other.state = .ready) :
    SameAnswers ctx engine other := by
  have hop : engine.requireOperational = other.requireOperational := by
    rw [requireOperational_of_ready hstate, requireOperational_of_ready hother]
  refine ⟨fun query limit stats => ?_, fun terms => ?_, ?_, fun vector limit => ?_,
    fun query limit config => ?_⟩
  · simp only [search, hop, searchLocked_congr h ho]
  · simp only [corpusStats, hop, h.index.corpusStats_eq ho.index]
  · simp only [stats, hop, h.index.stats_eq ho.index]
  · simp only [semanticSearch, hop, semanticSearchLocked_congr h ho]
  · simp only [hybridSearch, hybridSearchWith, hop, searchLocked_congr h ho,
      semanticSearchLocked_congr h ho]

end Congruence

end SearchEngine

end PySearch
