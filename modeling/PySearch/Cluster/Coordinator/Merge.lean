import PySearch.Cluster.Coordinator
import PySearch.Search.Engine.Answers
import PySearch.Search.Ranking.Statistics

namespace PySearch

open KeySort (sortedBy sliceTo)

-- The whole corpus is the disjoint union of the parts.
def Partition (parts : List (Dict String Document)) (whole : Dict String Document) : Prop :=
  whole.entries.Perm (parts.flatMap Dict.entries)

-- Parts that each hold the documents of their own identifiers make up the whole.
theorem partition_of_owner {parts : List (Dict String Document)} {whole : Dict String Document}
    (owner : String → Nat)
    (howned : ∀ (index : Nat) rows id document, parts[index]? = some rows →
      rows.get? id = some document → owner id = index)
    (hwhole : ∀ id document, whole.get? id = some document ↔
      ∃ rows, parts[owner id]? = some rows ∧ rows.get? id = some document) :
    Partition parts whole := by
  have hdisjoint : parts.Pairwise fun rows others => rows.entries.Disjoint others.entries := by
    rw [List.pairwise_iff_getElem]
    rintro i j hi hj hij ⟨id, document⟩ hm hm'
    have hfirst := howned i _ id document (List.getElem?_eq_getElem hi) (Dict.mem_entries.mp hm)
    have hsecond := howned j _ id document (List.getElem?_eq_getElem hj) (Dict.mem_entries.mp hm')
    omega
  have hnodup : (parts.flatMap Dict.entries).Nodup :=
    List.nodup_flatMap.mpr ⟨fun rows _ => rows.entries_nodup, hdisjoint⟩
  apply (List.perm_ext_iff_of_nodup whole.entries_nodup hnodup).mpr
  rintro ⟨id, document⟩
  rw [Dict.mem_entries, hwhole, List.mem_flatMap]
  constructor
  · rintro ⟨rows, hrows, hfound⟩
    exact ⟨rows, List.mem_of_getElem? hrows, Dict.mem_entries.mpr hfound⟩
  · rintro ⟨rows, hmem, hm⟩
    obtain ⟨index, hindex⟩ := List.mem_iff_getElem?.mp hmem
    have hfound := Dict.mem_entries.mp hm
    exact ⟨rows, by rw [howned index rows id document hindex hfound]; exact hindex, hfound⟩

-- Documents of disjoint parts, stored together, make up a whole.
theorem partition_insertAll {parts : List (Dict String Document)}
    (hkeyed : ∀ rows ∈ parts, ∀ id document, rows.get? id = some document →
      document.documentId = id)
    (hdisjoint : parts.Pairwise fun rows others =>
      ∀ id, rows.contains id → others.contains id = false) :
    Partition parts (Database.insertAll (parts.flatMap Dict.values)) := by
  have hids : (parts.flatMap Dict.values).map Document.documentId = parts.flatMap Dict.keys := by
    rw [List.map_flatMap, List.flatMap_def, List.flatMap_def]
    congr 1
    apply List.map_congr_left
    intro rows hrows
    rw [Dict.values, Dict.keys, List.map_map]
    apply List.map_congr_left
    rintro ⟨id, document⟩ hm
    exact hkeyed rows hrows id document (Dict.mem_entries.mp hm)
  have hapart : parts.Pairwise fun rows others => rows.keys.Disjoint others.keys := by
    refine hdisjoint.imp ?_
    intro rows others h id hm hm'
    have habsent := h id (Dict.mem_keys.mp hm)
    rw [Dict.contains, Dict.mem_keys.mp hm'] at habsent
    cases habsent
  have hkeys : (parts.flatMap Dict.keys).Nodup :=
    List.nodup_flatMap.mpr ⟨fun rows _ => rows.keys_nodup, hapart⟩
  have hnodup : (parts.flatMap Dict.entries).Nodup := by
    refine List.Nodup.of_map Prod.fst ?_
    rwa [List.map_flatMap]
  apply (List.perm_ext_iff_of_nodup (Dict.entries_nodup _) hnodup).mpr
  rintro ⟨id, document⟩
  rw [Dict.mem_entries, Database.insertAll_get? (hids ▸ hkeys), List.mem_flatMap, List.mem_flatMap]
  constructor
  · rintro ⟨⟨rows, hrows, hm⟩, rfl⟩
    obtain ⟨key, hfound⟩ := Dict.mem_values.mp hm
    rw [hkeyed rows hrows key document hfound]
    exact ⟨rows, hrows, Dict.mem_entries.mpr hfound⟩
  · rintro ⟨rows, hrows, hm⟩
    have hfound := Dict.mem_entries.mp hm
    exact ⟨⟨rows, hrows, Dict.mem_values.mpr ⟨id, hfound⟩⟩, hkeyed rows hrows id document hfound⟩

section Statistics

variable {α : Type} {ctx : EngineContext α} {parts : List (Dict String Document)}
  {whole : Dict String Document}

theorem statistics_documentFrequency (rows : Dict String Document) {terms : List String}
    {term : String} (h : term ∈ terms) :
    (ctx.statistics rows terms).documentFrequency term =
      (rows.entries.countP fun entry => term ∈ ctx.tokens entry.2 : Nat) := by
  rw [ctx.statistics_frequency rows h, Dict.values, List.countP_map]
  rfl

-- The sums over the parts are the statistics of the whole.
theorem merge_statistics (h : Partition parts whole) {terms unique : List String}
    (hunique : ∀ term ∈ terms, term ∈ unique) :
    CorpusStats.Agree terms
      (mergeCorpusStats (parts.map fun rows => ctx.statistics rows unique))
      (ctx.statistics whole terms) := by
  refine ⟨?_, ?_, ?_⟩
  · rw [(mergeCorpusStats_eq _ "").1, List.map_map]
    rw [show (ctx.statistics whole terms).documentCount = (whole.entries.length : Int) from rfl,
      h.length_eq]
    clear h
    induction parts with
    | nil => rfl
    | cons part rest ih =>
        simp only [List.map_cons, List.sum_cons, ih, List.flatMap_cons, List.length_append,
          Function.comp_apply, Nat.cast_add]
        rfl
  · rw [(mergeCorpusStats_eq _ "").2.1, List.map_map]
    simp only [EngineContext.statistics, Dict.values, List.map_map]
    rw [(h.map _).sum_eq]
    clear h
    induction parts with
    | nil => rfl
    | cons part rest ih =>
        simp only [List.map_cons, List.sum_cons, ih, List.flatMap_cons, List.map_append,
          List.sum_append, Function.comp_apply]
  · intro term hterm
    rw [(mergeCorpusStats_eq _ term).2.2, List.map_map, statistics_documentFrequency whole hterm,
      h.countP_eq]
    clear h
    induction parts with
    | nil => rfl
    | cons part rest ih =>
        simp only [List.map_cons, List.sum_cons, ih, List.flatMap_cons, List.countP_append,
          Function.comp_apply, Nat.cast_add, statistics_documentFrequency part (hunique term hterm)]

variable [Arith α] [LinearOrder α]

theorem lexicalHits_congr {terms : List String} {stats other : CorpusStats}
    (h : stats.Agree terms other) (rows : Dict String Document) :
    ctx.lexicalHits rows terms stats = ctx.lexicalHits rows terms other := by
  unfold EngineContext.lexicalHits
  congr 1
  funext entry
  rw [EngineContext.lexicalHit, EngineContext.lexicalHit, documentScore_congr h]

end Statistics

section Ranking

variable {α : Type} [Arith α] [LinearOrder α]

-- Merging the best hits of each part gives the best hits of all of them.
theorem merge_answers (parts : List (List (SearchResult α)))
    (hnodup : (parts.flatten.map SearchResult.documentId).Nodup) {limit : Int} (hlimit : 0 ≤ limit) :
    Coordinator.merge (parts.map fun hits => answer hits limit) limit =
      answer parts.flatten limit := by
  have htotal : ((parts.map fun hits => answer hits limit).map SearchResults.total).sum =
      parts.flatten.length := by
    rw [List.map_map, List.length_flatten]
    rfl
  have hcandidates : (parts.map fun hits => answer hits limit).flatMap SearchResults.results =
      (parts.map fun hits => (sortedBy hitKey hits).take limit.toNat).flatten := by
    rw [List.flatMap_map, List.flatMap_def]
    congr 1
    apply List.map_congr_left
    intro hits _
    exact KeySort.sliceTo_of_nonneg _ hlimit
  have htop := KeySort.take_sortedBy_flatten limit.toNat parts (hitKeys_nodup hnodup)
  rw [Coordinator.merge, htotal, hcandidates, answer]
  congr 1
  rw [KeySort.sliceTo_of_nonneg _ hlimit, KeySort.sliceTo_of_nonneg _ hlimit]
  exact htop

variable {ctx : EngineContext α} {parts : List (Dict String Document)}
  {whole : Dict String Document}

theorem lexicalHits_partition (h : Partition parts whole) (terms : List String)
    (stats : CorpusStats) :
    (ctx.lexicalHits whole terms stats).Perm
      (parts.map fun rows => ctx.lexicalHits rows terms stats).flatten := by
  refine (h.filterMap _).trans (List.Perm.of_eq ?_)
  rw [List.flatMap_def, List.filterMap_flatten, List.map_map]
  rfl

theorem merge_lexical (h : Partition parts whole) (terms : List String) (stats : CorpusStats)
    {limit : Int} (hlimit : 0 ≤ limit) :
    Coordinator.merge (parts.map fun rows => answer (ctx.lexicalHits rows terms stats) limit) limit =
      answer (ctx.lexicalHits whole terms stats) limit := by
  have hperm := @lexicalHits_partition _ _ _ ctx _ _ h terms stats
  have hwhole := @lexicalHits_nodup _ _ ctx whole _ terms stats
  have hnodup := (hperm.map SearchResult.documentId).nodup_iff.mp hwhole
  rw [answer_perm limit hwhole hperm, ← merge_answers _ hnodup hlimit, List.map_map]
  rfl

omit [LinearOrder α] in
theorem semanticHits_partition (h : Partition parts whole) (embedder : Embedder α)
    (query : List α) :
    (embedder.semanticHits whole query).Perm
      (parts.map fun rows => embedder.semanticHits rows query).flatten := by
  refine (h.map _).trans (List.Perm.of_eq ?_)
  rw [List.flatMap_def, List.map_flatten, List.map_map]
  rfl

theorem merge_semantic (h : Partition parts whole) (embedder : Embedder α) (query : List α)
    {limit : Int} (hlimit : 0 ≤ limit) :
    Coordinator.merge (parts.map fun rows => answer (embedder.semanticHits rows query) limit) limit =
      answer (embedder.semanticHits whole query) limit := by
  have hperm := semanticHits_partition h embedder query
  have hwhole := @semanticHits_nodup _ _ whole embedder query
  have hnodup := (hperm.map SearchResult.documentId).nodup_iff.mp hwhole
  rw [answer_perm limit hwhole hperm, ← merge_answers _ hnodup hlimit, List.map_map]
  rfl

end Ranking

end PySearch
