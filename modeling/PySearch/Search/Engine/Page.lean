import PySearch.Hybrid.Fusion.Theorems
import PySearch.Search.Engine.Answers

namespace PySearch

open Fusion
open KeySort (sortedBy)

variable {α : Type} [Arith α]

-- The default depth is never below the limit.
theorem FusionConfig.le_candidateDepth {limit : Int} (hlow : 1 ≤ limit) (hhigh : limit ≤ 100) :
    limit ≤ FusionConfig.default.candidateDepth limit := by
  simp only [candidateDepth, default]
  omega

section Union

variable {lexical semantic : SearchResults α} {rows : Dict String Document}

omit [Arith α] in
theorem unionIds_length_le
    (hlexical : ∀ id ∈ lexical.results.map SearchResult.documentId, id ∈ rows.keys)
    (hsemantic : ∀ id ∈ semantic.results.map SearchResult.documentId, id ∈ rows.keys) :
    (unionIds lexical semantic).length ≤ rows.size := by
  have hsub : unionIds lexical semantic ⊆ rows.keys := by
    intro id hid
    rw [unionIds, List.mem_dedup, List.map_append, List.mem_append] at hid
    exact hid.elim (hlexical id) (hsemantic id)
  have hle := (List.subperm_of_subset (List.nodup_dedup _) hsub).length_le
  rwa [Dict.keys, List.length_map] at hle

omit [Arith α] in
theorem semantic_length_le
    (hnodup : (semantic.results.map SearchResult.documentId).Nodup) :
    semantic.results.length ≤ (unionIds lexical semantic).length := by
  have hsub : semantic.results.map SearchResult.documentId ⊆ unionIds lexical semantic := by
    intro id hid
    rw [unionIds, List.mem_dedup, List.map_append, List.mem_append]
    exact .inr hid
  have hle := (List.subperm_of_subset hnodup hsub).length_le
  rwa [List.length_map] at hle

end Union

section Answer

variable [LinearOrder α] {hits : List (SearchResult α)} {limit : Int}

theorem answer_ids_nodup (hnodup : (hits.map SearchResult.documentId).Nodup) (limit : Int)
    (hlimit : 0 ≤ limit) : ((answer hits limit).results.map SearchResult.documentId).Nodup := by
  have hsorted := ((KeySort.sortedBy_perm hitKey hits).map SearchResult.documentId).nodup_iff.mpr
    hnodup
  rw [answer, KeySort.sliceTo_of_nonneg _ hlimit]
  exact hsorted.sublist ((List.take_sublist _ _).map _)

-- A shallower answer is the beginning of a deeper one that misses nothing.
theorem answer_take {depth whole : Int} (hdepth : 0 ≤ depth) (hwhole : (hits.length : Int) ≤ whole) :
    (answer hits depth).results = (answer hits whole).results.take depth.toNat := by
  have hall : (sortedBy hitKey hits).take whole.toNat = sortedBy hitKey hits := by
    apply List.take_of_length_le
    rw [KeySort.length_sortedBy]
    omega
  rw [answer, answer, KeySort.sliceTo_of_nonneg _ hdepth, KeySort.sliceTo_of_nonneg _ (by omega),
    hall]

-- An answer as deep as the ranking leaves nothing out.
theorem answer_whole {whole : Int} (hwhole : (hits.length : Int) ≤ whole) :
    (answer hits whole).results.length = (answer hits whole).total := by
  rw [answer, KeySort.sliceTo_of_nonneg _ (by omega), List.length_take, KeySort.length_sortedBy]
  dsimp only
  omega

theorem mem_answer {hit : SearchResult α} (h : hit ∈ (answer hits limit).results) : hit ∈ hits :=
  KeySort.mem_sortedBy.mp (KeySort.mem_of_mem_sliceTo h)

-- Every hit is a stored document with its text.
def Stored (rows : Dict String Document) (hits : List (SearchResult α)) : Prop :=
  ∀ hit ∈ hits, ∃ document, rows.get? hit.documentId = some document ∧ hit.text = document.text

variable {lexical semantic : List (SearchResult α)} {rows : Dict String Document}

theorem answer_ids (hstored : Stored rows hits) (limit : Int) :
    ∀ id ∈ (answer hits limit).results.map SearchResult.documentId, id ∈ rows.keys := by
  intro id hid
  obtain ⟨hit, hmem, rfl⟩ := List.mem_map.mp hid
  obtain ⟨document, hrow, -⟩ := hstored hit (mem_answer hmem)
  exact Dict.mem_keys.mpr (by simp [hrow])

theorem standing_stored (hstored : Stored rows hits) {id : String} {entry : SearchResult α × Nat}
    (h : standing (answer hits limit).results id = some entry) :
    ∃ document, rows.get? id = some document ∧ entry.1.text = document.text := by
  have hmem := List.fst_mem_of_mem_zipIdx (List.mem_of_find?_eq_some h)
  rw [← standing_id h]
  exact hstored entry.1 (mem_answer hmem)

-- Fusing the beginnings of two rankings of the same rows, one of which ranks them all, fills
-- the page as far as there are rows.
theorem fused_page
    (hlexical : (lexical.map SearchResult.documentId).Nodup)
    (hsemantic : (semantic.map SearchResult.documentId).Nodup)
    (hlexicalStored : Stored rows lexical) (hsemanticStored : Stored rows semantic)
    (hall : semantic.length = rows.size) {depth whole : Int} (hlow : 1 ≤ limit)
    (hdepth : limit ≤ depth) (hlexicalWhole : (lexical.length : Int) ≤ whole)
    (hwhole : (rows.size : Int) ≤ whole) (config : FusionConfig) :
    ∃ page, reciprocalRankFusion (answer lexical depth) (answer semantic depth) limit config =
        .ok page ∧
      page.results.length = min limit.toNat rows.size ∧
      (page.results.map HybridHit.documentId).Nodup ∧
      ∀ hit ∈ page.results,
        (∃ document, rows.get? hit.documentId = some document ∧ hit.text = document.text) ∧
        hit.lexicalRank = (rankIn (answer lexical whole).results hit.documentId).filter
          (fun rank => rank ≤ depth.toNat) ∧
        hit.semanticRank = (rankIn (answer semantic whole).results hit.documentId).filter
          (fun rank => rank ≤ depth.toNat) := by
  have hfirst := answer_ids_nodup hlexical depth (by omega)
  have hsecond := answer_ids_nodup hsemantic depth (by omega)
  have hupper := unionIds_length_le (answer_ids hlexicalStored depth)
    (answer_ids hsemanticStored depth)
  have hlower := @semantic_length_le _ (answer lexical depth) _ hsecond
  have hlength : (answer semantic depth).results.length = min depth.toNat rows.size := by
    rw [answer, KeySort.sliceTo_of_nonneg _ (by omega), List.length_take,
      KeySort.length_sortedBy, hall]
  refine ⟨_, reciprocalRankFusion_eq hfirst hsecond hlow config, ?_, ?_, ?_⟩
  · rw [List.length_map, List.length_take, fusedOrder, KeySort.length_sortedBy]
    omega
  · rw [List.map_map]
    have horder := ((KeySort.sortedBy_perm (fun id => rankKey (candidateOf config.rrfK
      (answer lexical depth) (answer semantic depth) id).score id)
      (unionIds (answer lexical depth) (answer semantic depth))).nodup_iff).mpr (List.nodup_dedup _)
    have hmap := (horder.sublist (List.take_sublist limit.toNat _)).map (f := id) fun _ _ h => h
    exact hmap
  · intro hit hmem
    obtain ⟨id, hid, rfl⟩ := List.mem_map.mp hmem
    have hunion := KeySort.mem_sortedBy.mp (List.mem_of_mem_take hid)
    refine ⟨?_, ?_, ?_⟩
    · -- The text is the one of the first list that has the document.
      cases hl : standing (answer lexical depth).results id with
      | some entry =>
          obtain ⟨document, hrow, htext⟩ := standing_stored hlexicalStored hl
          exact ⟨document, hrow, by simp [fusedHit, candidateOf, merged, toHit, hl, htext]⟩
      | none =>
          rw [mem_unionIds, hl] at hunion
          obtain ⟨entry, hs⟩ := Option.isSome_iff_exists.mp (hunion.resolve_left (by simp))
          obtain ⟨document, hrow, htext⟩ := standing_stored hsemanticStored hs
          exact ⟨document, hrow, by simp [fusedHit, candidateOf, merged, toHit, hl, hs, htext]⟩
    · rw [← rankIn_take (answer_ids_nodup hlexical whole (by omega)),
        ← answer_take (by omega) hlexicalWhole]
      rfl
    · rw [← rankIn_take (answer_ids_nodup hsemantic whole (by omega)),
        ← answer_take (by omega) (by omega)]
      rfl

end Answer

namespace SearchEngine

variable [LinearOrder α] {ctx : EngineContext α} {engine : SearchEngine α}
  {rows : Dict String Document} {embedder : Embedder α}

theorem lexicalHits_length (terms : List String) (stats : CorpusStats) :
    (ctx.lexicalHits rows terms stats).length ≤ rows.size := by
  have hle := (@lexicalHits_ids _ _ ctx rows _ terms stats).length_le
  rwa [List.length_map, Dict.keys, List.length_map] at hle

omit [LinearOrder α] in
theorem semanticHits_stored (query : List α) : Stored rows (embedder.semanticHits rows query) := by
  intro hit hmem
  obtain ⟨⟨id, document⟩, hentry, rfl⟩ := List.mem_map.mp hmem
  exact ⟨document, Dict.mem_entries.mp hentry, rfl⟩

-- A hybrid page is as long as the limit and the corpus allow. Its ranks are the positions in
-- the two full rankings, as far as the candidates go.
theorem hybridSearch_page (hready : engine.state = .ready) (h : engine.derived.Exact ctx rows)
    (he : ctx.embedder = some embedder) {query : String}
    (hq : ExactVectorIndex.Admissible embedder.identity.dimension (embedder.embedQuery query))
    (hterms : Analysis.analyze ctx.unicode query ≠ []) {limit : Int} (hlow : 1 ≤ limit)
    (hhigh : limit ≤ 100) {whole : Int} (hone : 1 ≤ whole) (hwhole : (rows.size : Int) ≤ whole) :
    ∃ lexical semantic page,
      search ctx engine query whole none = .ok lexical ∧
      lexical.results.length = lexical.total ∧
      engine.semanticSearch (embedder.embedQuery query) whole = .ok semantic ∧
      semantic.results.length = rows.size ∧
      hybridSearch ctx engine query limit .default = .ok page ∧
      page.results.length = min limit.toNat rows.size ∧
      (page.results.map HybridHit.documentId).Nodup ∧
      ∀ hit ∈ page.results,
        (∃ document, rows.get? hit.documentId = some document ∧ hit.text = document.text) ∧
        hit.lexicalRank = (rankIn lexical.results hit.documentId).filter
          (fun rank => rank ≤ (FusionConfig.default.candidateDepth limit).toNat) ∧
        hit.semanticRank = (rankIn semantic.results hit.documentId).filter
          (fun rank => rank ≤ (FusionConfig.default.candidateDepth limit).toNat) := by
  have hdepth := FusionConfig.le_candidateDepth hlow hhigh
  have hlexical : ((ctx.lexicalHits rows (Analysis.analyze ctx.unicode query) (ctx.statistics rows
      (Analysis.analyze ctx.unicode query))).length : Int) ≤ whole :=
    Int.le_trans (Int.ofNat_le.mpr (lexicalHits_length _ _)) hwhole
  have hsemantic : (embedder.semanticHits rows (embedder.embedQuery query)).length = rows.size :=
    List.length_map _
  obtain ⟨page, hpage, hrest⟩ := fused_page (lexicalHits_nodup _ _)
    (semanticHits_nodup embedder (embedder.embedQuery query))
    (fun hit hmem => lexicalHits_row hmem) (semanticHits_stored (embedder.embedQuery query))
    hsemantic hlow hdepth hlexical hwhole .default
  refine ⟨_, _, page, ?_, answer_whole hlexical, semanticSearch_eq hready h he hq hone, ?_, ?_,
    hrest⟩
  · simp only [search, requireOperational_of_ready hready, Bind.bind, Except.bind]
    exact searchLocked_eq h hterms whole none
  · rw [answer_whole (by omega), answer, hsemantic]
  · unfold hybridSearch hybridSearchWith
    simp only [if_neg hterms, he, Bool.false_eq_true, if_false,
      requireOperational_of_ready hready, Bind.bind, Except.bind, searchLocked_eq h hterms,
      semanticSearchLocked_eq h he hq (by omega : 1 ≤ FusionConfig.default.candidateDepth limit)]
    exact hpage

end SearchEngine

end PySearch
