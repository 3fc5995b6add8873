import PySearch.Cluster.Node.Ready
import PySearch.Semantic.Model2Vec.Theorems

namespace PySearch

open KeySort (sortedBy sliceTo)

section Cosine

attribute [local instance] realArith

variable {model2vec : Model2VecEmbedder ℝ} {vector : String → List ℝ}
  {rows : Dict String Document}

-- Every stored document with the cosine between what the model makes of its text and what it
-- makes of the query.
noncomputable def cosineHits (vector : String → List ℝ) (rows : Dict String Document)
    (query : String) : List (SearchResult ℝ) :=
  rows.entries.map fun entry =>
    ⟨entry.1, RealVector.cosine (vector entry.2.text) (vector query), entry.2.text⟩

theorem semanticHits_cosine (positive : 1 ≤ model2vec.identity.dimension) (query : String) :
    (model2vec.embedder vector positive).semanticHits rows
      ((model2vec.embedder vector positive).embedQuery query) = cosineHits vector rows query := by
  apply List.map_congr_left
  intro entry _
  have hdot : RealVector.dot (normalizeRow (vector entry.2.text)) (normalizeRow (vector query)) =
      RealVector.cosine (vector entry.2.text) (vector query) := by
    rw [normalizeRow_eq, normalizeRow_eq, RealVector.dot_normalize]
  exact congrArg (fun score : ℝ => (⟨entry.1, score, entry.2.text⟩ : SearchResult ℝ)) hdot

theorem cosineHit_score {query : String} {hit : SearchResult ℝ}
    (h : hit ∈ cosineHits vector rows query) :
    hit.score = RealVector.cosine (vector hit.text) (vector query) := by
  obtain ⟨entry, -, rfl⟩ := List.mem_map.mp h
  rfl

theorem answer_cosine_mem {query : String} {limit : Int} {hit : SearchResult ℝ}
    (h : hit ∈ (answer (cosineHits vector rows query) limit).results) :
    hit ∈ cosineHits vector rows query :=
  KeySort.mem_sortedBy.mp (KeySort.mem_of_mem_sliceTo h)

-- A document with the text of the query is not beaten by any other.
theorem answer_cosine_head {query id : String} {document : Document} {limit : Int}
    (hlimit : 1 ≤ limit) (hrow : rows.get? id = some document) (htext : document.text = query)
    (hdirection : RealVector.norm (vector query) ≠ 0) :
    ∃ best rest, (answer (cosineHits vector rows query) limit).results = best :: rest ∧
      best.score = 1 := by
  have hown : (⟨id, RealVector.cosine (vector document.text) (vector query), document.text⟩ :
      SearchResult ℝ) ∈ cosineHits vector rows query :=
    List.mem_map.mpr ⟨(id, document), Dict.mem_entries.mpr hrow, rfl⟩
  cases hsorted : sortedBy hitKey (cosineHits vector rows query) with
  | nil =>
      have hlength := KeySort.length_sortedBy hitKey (cosineHits vector rows query)
      rw [hsorted, eq_comm] at hlength
      rw [List.length_eq_zero_iff.mp hlength] at hown
      cases hown
  | cons best rest =>
      have hbest : best ∈ cosineHits vector rows query := by
        apply (KeySort.sortedBy_perm hitKey _).mem_iff.mp
        rw [hsorted]
        exact .head _
      refine ⟨best, rest.take (limit.toNat - 1), ?_, ?_⟩
      · rw [answer, hsorted, KeySort.sliceTo_of_nonneg _ (by omega)]
        obtain ⟨count, hcount⟩ : ∃ count, limit.toNat = count + 1 := ⟨limit.toNat - 1, by omega⟩
        rw [hcount, List.take_succ_cons, Nat.add_sub_cancel]
      · have hle := Prod.Lex.monotone_fst _ _ (KeySort.head_sortedBy_le hsorted hown)
        have hone : RealVector.cosine (vector document.text) (vector query) = 1 := by
          rw [htext, RealVector.cosine_self _ hdirection]
        have hmost := (abs_le.mp (RealVector.abs_cosine_le_one (vector best.text)
          (vector query))).2
        rw [cosineHit_score hbest]
        have hge : -(best.score) ≤
            -(RealVector.cosine (vector document.text) (vector query)) := hle
        rw [hone, cosineHit_score hbest] at hge
        linarith

-- It is on the page with the largest score there is, unless documents that score as much fill
-- the page.
theorem answer_cosine_own {query id : String} {document : Document} {limit : Int}
    (hlimit : 1 ≤ limit) (hrow : rows.get? id = some document) (htext : document.text = query)
    (hdirection : RealVector.norm (vector query) ≠ 0) :
    let results := (answer (cosineHits vector rows query) limit).results
    ⟨id, 1, query⟩ ∈ results ∨
      (results.length : Int) = limit ∧ ∀ hit ∈ results, hit.score = 1 := by
  have hown : (⟨id, 1, query⟩ : SearchResult ℝ) ∈ cosineHits vector rows query := by
    refine List.mem_map.mpr ⟨(id, document), Dict.mem_entries.mpr hrow, ?_⟩
    rw [htext, RealVector.cosine_self _ hdirection]
  intro results
  have hresults : results = (sortedBy hitKey (cosineHits vector rows query)).take limit.toNat :=
    KeySort.sliceTo_of_nonneg _ (by omega)
  rw [hresults]
  refine (KeySort.mem_take_sortedBy_or hitKey limit.toNat hown).imp_right ?_
  rintro ⟨hlength, hkeys⟩
  refine ⟨by rw [hlength]; omega, fun hit hmem => ?_⟩
  have hcosine := cosineHit_score (KeySort.mem_sortedBy.mp (List.mem_of_mem_take hmem))
  have hmost := (abs_le.mp (RealVector.abs_cosine_le_one (vector hit.text) (vector query))).2
  have hleast : -(hit.score) ≤ -(1 : ℝ) := Prod.Lex.monotone_fst _ _ (hkeys hit hmem)
  rw [← hcosine] at hmost
  linarith

end Cosine

namespace Node

open SearchEngine (Healthy)

section Cosine

attribute [local instance] realArith

variable {ctx : EngineContext ℝ} {role : Role} {database : Database} {engine : SearchEngine ℝ}
  {phase : Phase} {resyncs : List Resync} {model2vec : Model2VecEmbedder ℝ}
  {vector : String → List ℝ}

-- Whatever happened to the node before, a semantic search of a ready node ranks its stored
-- documents by the cosine between the model's own vectors.
theorem ready_semantic_cosine {library : Option (String → String → Option (StaticModel ℝ))}
    {modelId revision : String}
    (hload : Model2VecEmbedder.load library modelId revision = .ok model2vec)
    (hmodel : model2vec.model.Documented vector) (positive : 1 ≤ model2vec.identity.dimension)
    (he : ctx.embedder = some (model2vec.embedder vector positive))
    (h : Run.Reaches (step ctx role) (fun _ _ => True) (down database) (up engine phase resyncs))
    (hready : engine.state = .ready) {query : String} {embedded : List ℝ}
    (hquery : model2vec.embedQuery query = .ok embedded) {limit : Int} (hlimit : 1 ≤ limit) :
    let rows := engine.store.database.rows
    let page := answer (cosineHits vector rows query) limit
    (∀ texts vectors, model2vec.embedDocuments texts = .ok vectors →
        vectors.rows = (model2vec.embedder vector positive).embedDocuments texts) ∧
      engine.semanticSearch embedded limit = .ok page ∧
      page.total = rows.size ∧
      (∀ hit ∈ page.results, -1 ≤ hit.score ∧ hit.score ≤ 1 ∧
        (hit.score = 1 ↔ RealVector.norm (vector hit.text) ≠ 0 ∧
          RealVector.normalize (vector hit.text) = RealVector.normalize (vector query))) ∧
      ∀ id document, rows.get? id = some document → document.text = query →
        RealVector.norm (vector query) ≠ 0 →
        (∃ best rest, page.results = best :: rest ∧ best.score = 1) ∧
        (⟨id, 1, query⟩ ∈ page.results ∨
          (page.results.length : Int) = limit ∧ ∀ hit ∈ page.results, hit.score = 1) := by
  intro rows page
  have hdim := Model2VecEmbedder.load_dim hload
  have hcontract := Model2VecEmbedder.embedder_contract hdim hmodel positive
  have hvector : embedded = (model2vec.embedder vector positive).embedQuery query := by
    rcases Model2VecEmbedder.embedQuery_eq hdim hmodel positive query with hfailed | hok
    · rw [hquery] at hfailed
      cases hfailed
    · rw [hquery] at hok
      exact Except.ok.inj hok
  have hanswer := SearchEngine.semanticSearch_eq hready (reaches_sound h (.inl hready)).derived he
    (hcontract.queries query) hlimit
  rw [semanticHits_cosine, ← hvector] at hanswer
  refine ⟨?_, hanswer, List.length_map _, ?_, ?_⟩
  · intro texts vectors hembedded
    rcases Model2VecEmbedder.embedDocuments_eq hdim hmodel positive texts with
      hfailed | ⟨_, hok, -, hrows⟩
    · rw [hembedded] at hfailed
      cases hfailed
    · rw [hembedded] at hok
      cases hok
      exact hrows
  · intro hit hmem
    have hscore := cosineHit_score (answer_cosine_mem hmem)
    have hbounds := abs_le.mp (RealVector.abs_cosine_le_one (vector hit.text) (vector query))
    rw [← hscore] at hbounds
    refine ⟨hbounds.1, hbounds.2, ?_⟩
    rw [hscore]
    exact RealVector.cosine_eq_one_iff _ _ ((hmodel.length _).trans (hmodel.length _).symm)
  · intro id document hrow htext hdirection
    exact ⟨answer_cosine_head hlimit hrow htext hdirection,
      answer_cosine_own hlimit hrow htext hdirection⟩

end Cosine

section Example

attribute [local instance] realArith

-- A model of two dimensions that knows one word.
noncomputable def wordVector (text : String) : List ℝ := if text = "red" then [3, 4] else [0, 0]

noncomputable def wordModel : StaticModel ℝ where
  dim := 2
  encode texts := some (.vectors ⟨2, texts.map wordVector, by
    intro row hrow
    obtain ⟨text, -, rfl⟩ := List.mem_map.mp hrow
    unfold wordVector
    split <;> rfl⟩)

theorem wordModel_documented : wordModel.Documented wordVector := by
  refine ⟨fun text => ?_, fun text => List.all_eq_true.mpr fun _ _ => rfl, ?_⟩
  · unfold wordVector
    split <;> rfl
  · intro texts raw h
    exact ⟨_, (Option.some.inj h).symm, rfl, rfl⟩

noncomputable def wordEmbedder : Model2VecEmbedder ℝ :=
  ⟨wordModel, ⟨"model2vec", "words", "1", 2, l2Normalization⟩⟩

noncomputable def wordContext : EngineContext ℝ :=
  ⟨.ascii, defaultBM25Params, some (wordEmbedder.embedder wordVector (by decide))⟩

theorem wordContext_contract : wordContext.Contract :=
  EngineContext.contract_of_some rfl
    (Model2VecEmbedder.embedder_contract rfl wordModel_documented (by decide))

-- A fresh node that has stored the word.
theorem word_indexed : ∃ engine : SearchEngine ℝ,
    Run.Reaches (step wordContext .single) (fun _ _ => True) (down .empty)
      (up engine .serving []) ∧
      Healthy wordContext engine ∧ engine.store.database = Database.empty.apply (.put red) 1 := by
  obtain ⟨report, first, hinit, hfirst, hempty⟩ :=
    SearchEngine.initializeEngine_healthy wordContext_contract .empty
  obtain ⟨engine, hindex, hengine, hdatabase⟩ := hfirst.indexDocument wordContext_contract red
  have hgeneration : first.generation = 0 := by
    rw [hfirst.exact.generation, hempty]
    rfl
  rw [hempty, hgeneration] at hdatabase
  refine ⟨engine, ⟨[.start, .initializeEngine .none, .indexDocument red .none], ?_,
    Run.along_true _ _⟩, hengine, hdatabase⟩
  have hstart : step wordContext .single (down .empty) .start =
      some (up (.new wordContext (.openDatabase .empty)) .created []) := rfl
  have hready : step wordContext .single (up (.new wordContext (.openDatabase .empty)) .created [])
      (.initializeEngine .none) = some (up first .serving []) := by
    simp only [step, hinit]
    rfl
  have hput : step wordContext .single (up first .serving []) (.indexDocument red .none) =
      some (up engine .serving []) := by
    simp only [step, hindex]
    rfl
  simp only [Run.exec, hstart, hready, hput, Option.bind_some]

-- The word is found by itself, with the largest score there is.
theorem word_finds_itself : ∃ engine : SearchEngine ℝ, ∃ page,
    engine.store.database.rows.size = 1 ∧
      engine.semanticSearch (normalizeRow (wordVector "red")) 10 = .ok page ∧
      ⟨"b", 1, "red"⟩ ∈ page.results := by
  obtain ⟨engine, hrun, hengine, hdatabase⟩ := word_indexed
  have hdirection : RealVector.norm (wordVector "red") ≠ 0 := by
    rw [Ne, RealVector.norm_eq_zero_iff]
    intro hzero
    have hthree := hzero 3 (by simp [wordVector])
    norm_num at hthree
  obtain ⟨-, hpage, -, -, hfirst⟩ := @ready_semantic_cosine wordContext .single .empty engine
    .serving [] wordEmbedder wordVector (some fun _ _ => some wordModel) "words" "1" rfl
    wordModel_documented (by decide) rfl hrun hengine.ready "red" _ rfl 10 (by decide)
  have hrows : engine.store.database.rows.size = 1 := by rw [hdatabase]; decide
  refine ⟨engine, _, hrows, hpage, ?_⟩
  -- One stored document cannot fill a page of ten.
  refine (hfirst "b" red (by rw [hdatabase]; decide) rfl hdirection).2.resolve_right ?_
  rintro ⟨hfull, -⟩
  have hhits : (cosineHits wordVector engine.store.database.rows "red").length = 1 :=
    (List.length_map _).trans hrows
  rw [answer, KeySort.sliceTo_of_nonneg _ (by decide), List.length_take, KeySort.length_sortedBy,
    hhits] at hfull
  exact absurd hfull (by decide)

end Example

end Node

end PySearch
