import PySearch.Cluster.Coordinator.Fallback
import PySearch.Lib.Distinct

namespace PySearch

variable {α : Type}

namespace EngineContext

variable (ctx : EngineContext α) (rows : Dict String Document)

-- The terms of the stored documents.
def vocabulary : Finset String := (rows.values.flatMap ctx.tokens).toFinset

def totalTokens : Int := (rows.values.map fun document => ((ctx.tokens document).length : Int)).sum

variable {ctx rows}

theorem mem_vocabulary {term : String} :
    term ∈ ctx.vocabulary rows ↔ ∃ id document, rows.get? id = some document ∧
      term ∈ ctx.tokens document := by
  simp only [vocabulary, List.mem_toFinset, List.mem_flatMap, Dict.mem_values]
  constructor
  · rintro ⟨document, ⟨id, hrow⟩, hterm⟩
    exact ⟨id, document, hrow, hterm⟩
  · rintro ⟨id, document, hrow, hterm⟩
    exact ⟨document, ⟨id, hrow⟩, hterm⟩

theorem uniqueTermCount_eq {index : InvertedIndex} (h : index.Image (ctx.corpus rows)) :
    index.uniqueTermCount = (ctx.vocabulary rows).card := by
  have hterms : index.postings.keys.toFinset = ctx.vocabulary rows := by
    ext term
    rw [List.mem_toFinset, h.mem_vocabulary, mem_vocabulary]
    constructor
    · rintro ⟨id, tokens, htokens, hterm⟩
      obtain ⟨document, hrow, rfl⟩ := Option.map_eq_some_iff.mp htokens
      exact ⟨id, document, hrow, hterm⟩
    · rintro ⟨id, document, hrow, hterm⟩
      exact ⟨id, ctx.tokens document, by rw [corpus, hrow]; rfl, hterm⟩
  rw [← hterms, List.toFinset_card_of_nodup index.postings.keys_nodup, Dict.keys, List.length_map]
  rfl

-- The index statistics of the stored documents, counted directly.
def indexStatistics [Arith α] (ctx : EngineContext α) (rows : Dict String Document) :
    IndexStats α where
  documentCount := rows.size
  uniqueTermCount := (ctx.vocabulary rows).card
  averageDocumentLength :=
    if rows.size = 0 then 0.0 else Arith.intDiv (ctx.totalTokens rows) rows.size
  totalTokenCount := ctx.totalTokens rows

end EngineContext

section Parts

variable {ctx : EngineContext α} {parts : List (Dict String Document)}
  {whole : Dict String Document}

theorem Partition.size_eq (h : Partition parts whole) :
    whole.size = (parts.map Dict.size).sum := by
  rw [Dict.size, h.length_eq, List.length_flatMap]
  rfl

theorem Partition.totalTokens_eq (h : Partition parts whole) :
    ctx.totalTokens whole = (parts.map ctx.totalTokens).sum := by
  have hsum := ((h.map Prod.snd).map fun document => ((ctx.tokens document).length : Int)).sum_eq
  rw [EngineContext.totalTokens, Dict.values, hsum]
  clear h hsum
  induction parts with
  | nil => rfl
  | cons part rest ih =>
      rw [List.flatMap_cons, List.map_append, List.map_append, List.sum_append, ih, List.map_cons,
        List.sum_cons]
      rfl

theorem Partition.vocabulary_eq (h : Partition parts whole) :
    ctx.vocabulary whole = Distinct.union (parts.map ctx.vocabulary) := by
  ext term
  simp only [EngineContext.mem_vocabulary, Distinct.mem_union, List.mem_map,
    exists_exists_and_eq_and]
  constructor
  · rintro ⟨id, document, hrow, hterm⟩
    obtain ⟨part, hpart, hentry⟩ := List.mem_flatMap.mp (h.mem_iff.mp (Dict.mem_entries.mpr hrow))
    exact ⟨part, hpart, id, document, Dict.mem_entries.mp hentry, hterm⟩
  · rintro ⟨part, hpart, id, document, hrow, hterm⟩
    have hentry := h.mem_iff.mpr (List.mem_flatMap.mpr ⟨part, hpart, Dict.mem_entries.mpr hrow⟩)
    exact ⟨id, document, Dict.mem_entries.mp hentry, hterm⟩

end Parts

namespace SearchEngine

variable [Arith α] {ctx : EngineContext α} {engine : SearchEngine α} {rows : Dict String Document}

theorem stats_eq (hready : engine.state = .ready) (h : engine.derived.Exact ctx rows) :
    engine.stats = .ok (ctx.indexStatistics rows) := by
  have himage : engine.derived.index.Image fun id => (rows.get? id).map ctx.tokens := h.index
  have hsize : engine.derived.index.documentLengths.size = rows.size := himage.documentCount_size
  have htotal : engine.derived.index.totalLength = ctx.totalTokens rows := himage.totalLength_sum
  simp only [stats, requireOperational_of_ready hready, Bind.bind, Except.bind]
  simp only [InvertedIndex.stats, EngineContext.indexStatistics, himage.documentCount_size,
    EngineContext.uniqueTermCount_eq h.index, InvertedIndex.averageDocumentLength, hsize,
    InvertedIndex.totalTokenCount, htotal]
  rfl

end SearchEngine

namespace Coordinator

variable [Arith α] {ctx : EngineContext α} {coordinator : Coordinator α}

-- One copy of the shard reports the statistics of the given rows.
def Reports (ctx : EngineContext α) (copies : ShardCopies (ShardClient α))
    (rows : Dict String Document) : Prop :=
  indexStatsFromAnyCopy copies = .ok (ctx.indexStatistics rows)

-- One line of the report for each part, and the figures of the whole above them.
def report (ctx : EngineContext α) (parts : List (Dict String Document))
    (whole : Dict String Document) : ClusterStats α where
  documentCount := whole.size
  averageDocumentLength := (ctx.indexStatistics whole).averageDocumentLength
  shardCount := parts.length
  shards := parts.zipIdx.map fun (rows, shardId) =>
    let stats := ctx.indexStatistics rows
    ⟨shardId, stats.documentCount, stats.uniqueTermCount, stats.averageDocumentLength⟩

theorem map_indexStatsFromAnyCopy {shards : List (ShardCopies (ShardClient α))}
    {parts : List (Dict String Document)} (h : List.Forall₂ (Reports ctx) shards parts) :
    shards.map indexStatsFromAnyCopy = (parts.map ctx.indexStatistics).map .ok := by
  induction h with
  | nil => rfl
  | cons hreport _ ih =>
      simp only [List.map_cons, ih]
      rw [hreport]

theorem indexStats_ok {parts : List (Dict String Document)}
    (hreports : List.Forall₂ (Reports ctx) coordinator.topology.shards parts) :
    ∃ stats, coordinator.indexStats = .ok stats := by
  unfold indexStats
  rw [map_indexStatsFromAnyCopy hreports, gather_ok]
  exact ⟨_, rfl⟩

-- The sums over the shards are the figures of one index over the whole corpus.
theorem indexStats_eq {parts : List (Dict String Document)} {whole : Dict String Document}
    (hreports : List.Forall₂ (Reports ctx) coordinator.topology.shards parts)
    (hwhole : Partition parts whole) :
    coordinator.indexStats = .ok (report ctx parts whole) := by
  have hcount : ((parts.map ctx.indexStatistics).map IndexStats.documentCount).sum =
      whole.size := by
    rw [hwhole.size_eq, List.map_map]
    rfl
  have htokens : ((parts.map ctx.indexStatistics).map IndexStats.totalTokenCount).sum =
      ctx.totalTokens whole := by
    rw [hwhole.totalTokens_eq, List.map_map]
    rfl
  have hshards : coordinator.router.shardCount = parts.length := by
    rw [← coordinator.matched, ClusterTopology.shardCount, hreports.length_eq]
  unfold indexStats
  rw [map_indexStatsFromAnyCopy hreports, gather_ok]
  simp only [Bind.bind, Except.bind, pure, Except.pure, hcount, htokens, hshards]
  simp only [report, EngineContext.indexStatistics, List.zipIdx_map, List.map_map, ite_not]
  rfl

variable {parts : List (Dict String Document)} {whole : Dict String Document}

-- Every document is counted on exactly one line.
theorem report_documents (hwhole : Partition parts whole) :
    ((report ctx parts whole).shards.map ShardIndexStats.documentCount).sum =
      (report ctx parts whole).documentCount := by
  have hlines : (report ctx parts whole).shards.map ShardIndexStats.documentCount =
      (parts.zipIdx.map Prod.fst).map Dict.size := by
    rw [report, List.map_map, List.map_map]
    rfl
  rw [hlines, List.zipIdx_map_fst, ← hwhole.size_eq]
  rfl

theorem report_terms : (report ctx parts whole).shards.map ShardIndexStats.uniqueTermCount =
    (parts.map ctx.vocabulary).map Finset.card := by
  have hlines : (report ctx parts whole).shards.map ShardIndexStats.uniqueTermCount =
      (parts.zipIdx.map Prod.fst).map fun rows => (ctx.vocabulary rows).card := by
    rw [report, List.map_map, List.map_map]
    rfl
  rw [hlines, List.zipIdx_map_fst, List.map_map]
  rfl

end Coordinator

namespace Deployment

variable [Arith α] [LinearOrder α] {ctx : EngineContext α}

-- A serving copy reports its rows, any other copy refuses.
def statsQuestion (ctx : EngineContext α) : Question ctx (IndexStats α) where
  ask := ShardClient.indexStats
  answer copy := ctx.indexStatistics copy.rows
  serves copy h := by
    obtain ⟨hfailure, hready⟩ := copy.serving_iff.mp h
    have hanswer := SearchEngine.stats_eq hready (copy.exact hready).derived
    simp only [PhysicalCopy.client, ShardClient.http, Transport.all, hfailure, hanswer]
    rfl
  refuses copy h := by
    simp only [PhysicalCopy.client, ShardClient.http, Transport.all]
    cases hfailure : copy.failure with
    | some failure => cases failure <;> exact ⟨_, rfl, rfl⟩
    | none =>
        have hstate : copy.engine.state ≠ .ready := by
          intro hready
          simp [PhysicalCopy.serving, hfailure, hready] at h
        simp only [SearchEngine.stats, SearchEngine.requireOperational, hstate, if_false]
        exact ⟨_, rfl, rfl⟩

variable {deployment : Deployment ctx}

theorem forall₂_reports (hall : ∀ copies ∈ deployment.topology.shards, HasServingCopy copies) :
    List.Forall₂ (Coordinator.Reports ctx) deployment.coordinator.topology.shards
      (deployment.selected.map PhysicalCopy.rows) := by
  rw [List.forall₂_map_right_iff]
  exact forall₂_asked (statsQuestion ctx) hall

theorem indexStats_unavailable
    (hnot : ¬∀ copies ∈ deployment.topology.shards, HasServingCopy copies) :
    ∃ ids, deployment.coordinator.indexStats =
      .error (.distributedSearch "collecting index statistics" ids) ∧
      deployment.IdleShards ids := by
  obtain ⟨ids, hgather, hids⟩ := gather_unavailable (statsQuestion ctx)
    "collecting index statistics" hnot
  refine ⟨ids, ?_, hids⟩
  have houtcomes : deployment.coordinator.topology.shards.map Coordinator.indexStatsFromAnyCopy =
      outcomes (statsQuestion ctx) deployment := rfl
  rw [Coordinator.indexStats, houtcomes, hgather]
  rfl

-- The statistics are reported exactly when every shard has a copy that serves. When no
-- document is on two shards, the figures are then those of a single engine over the selected
-- corpora, the average the one over all documents. The vocabularies are another matter: added
-- up they overstate the vocabulary of the cluster unless no term is on two shards.
theorem index_stats_all_or_nothing (hc : ctx.Contract) (deployment : Deployment ctx) :
    let available := ∀ copies ∈ deployment.topology.shards, HasServingCopy copies
    ((∃ stats, deployment.coordinator.indexStats = .ok stats) ↔ available) ∧
    (available → deployment.Disjoint → ∃ stats single,
      deployment.coordinator.indexStats = .ok stats ∧
      deployment.singleEngine.stats = .ok single ∧
      stats.documentCount = single.documentCount ∧
      stats.averageDocumentLength = single.averageDocumentLength ∧
      stats.shardCount = stats.shards.length ∧
      (stats.shards.map ShardIndexStats.documentCount).sum = single.documentCount ∧
      single.uniqueTermCount ≤ (stats.shards.map ShardIndexStats.uniqueTermCount).sum ∧
      (single.uniqueTermCount = (stats.shards.map ShardIndexStats.uniqueTermCount).sum ↔
        (deployment.selected.map fun copy => ctx.vocabulary copy.rows).Pairwise
          fun (terms others : Finset String) => terms ∩ others = ∅)) ∧
    (¬available → ∃ action ids, deployment.coordinator.indexStats =
      .error (.distributedSearch action ids) ∧ deployment.IdleShards ids) := by
  intro available
  refine ⟨⟨?_, fun hall => Coordinator.indexStats_ok (forall₂_reports hall)⟩,
    fun hall hdisjoint => ?_, ?_⟩
  · rintro ⟨stats, hok⟩
    by_contra hnot
    obtain ⟨ids, hfailed, -⟩ := indexStats_unavailable hnot
    rw [hok] at hfailed
    cases hfailed
  · obtain ⟨hwhole, hhealthy⟩ := partition_singleEngine hc hdisjoint
    have hsingle := SearchEngine.stats_eq hhealthy.ready hhealthy.exact.derived
    refine ⟨_, _, Coordinator.indexStats_eq (forall₂_reports hall) hwhole, hsingle, rfl, rfl, ?_,
      Coordinator.report_documents hwhole, ?_⟩
    · simp [Coordinator.report]
    · have hvocabulary : (ctx.indexStatistics
          deployment.singleEngine.store.database.rows).uniqueTermCount =
            (Distinct.union ((deployment.selected.map PhysicalCopy.rows).map ctx.vocabulary)).card :=
        congrArg Finset.card hwhole.vocabulary_eq
      rw [Coordinator.report_terms, hvocabulary, Distinct.card_union_eq_iff, List.map_map]
      refine ⟨Distinct.card_union_le _, ?_⟩
      exact ⟨fun h => h.imp Finset.disjoint_iff_inter_eq_empty.mp,
        fun h => h.imp Finset.disjoint_iff_inter_eq_empty.mpr⟩
  · intro hnot
    obtain ⟨ids, hids⟩ := indexStats_unavailable hnot
    exact ⟨_, ids, hids⟩

section Example

attribute [local instance] rationalArith

-- With the primary of one shard lost, its replica reports.
theorem lostPrimary_stats : ∃ stats single, lostPrimary.coordinator.indexStats = .ok stats ∧
    lostPrimary.singleEngine.stats = .ok single ∧ stats.documentCount = single.documentCount := by
  have havailable : ∀ copies ∈ lostPrimary.topology.shards, HasServingCopy copies := by
    simp [lostPrimary, ClusterTopology.ofGroups, hasServingCopy_iff, ShardCopies.servingOrder,
      servingCopy_serving]
  obtain ⟨stats, single, hstats, hsingle, hcount, -⟩ :=
    (index_stats_all_or_nothing sampleContext_contract lostPrimary).2.1 havailable
      lostPrimary_disjoint
  exact ⟨stats, single, hstats, hsingle, hcount⟩

end Example

end Deployment

end PySearch
