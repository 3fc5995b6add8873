import PySearch.Cluster.Coordinator.Failover
import PySearch.Cluster.Routing.Theorems

namespace PySearch.Deployment

variable {α : Type} [Arith α] [LinearOrder α] {ctx : EngineContext α}

-- The shards without a serving copy, in ascending order.
def IdleShards (deployment : Deployment ctx) (ids : List Nat) : Prop :=
  ids.Pairwise (· < ·) ∧ ∀ id, id ∈ ids ↔ ∃ copies ∈ deployment.topology.shards,
    copies.shardId = id ∧ ¬HasServingCopy copies

section Ask

-- A question that serving copies answer and that other copies refuse.
structure Question (ctx : EngineContext α) (β : Type) where
  ask : ShardClient α → Except PyError β
  answer : PhysicalCopy ctx → β
  serves : ∀ copy : PhysicalCopy ctx, copy.serving → ask copy.client = .ok (answer copy)
  refuses : ∀ copy : PhysicalCopy ctx, copy.serving = false →
    ∃ error, ask copy.client = .error error ∧ error.isClusterError

variable {β : Type} (question : Question ctx β) {deployment : Deployment ctx}

theorem fromAnyCopy_some {copies : ShardCopies (PhysicalCopy ctx)} {copy : PhysicalCopy ctx}
    (h : firstServing copies = some copy) :
    Coordinator.fromAnyCopy copies.shardId question.ask
      (copies.servingOrder.map PhysicalCopy.client) = .ok (question.answer copy) := by
  obtain ⟨hserving, skipped, rest, horder, hskipped⟩ := List.find?_eq_some_iff_append.mp h
  rw [horder, List.map_append, List.map_cons]
  refine Coordinator.fromAnyCopy_of_first ?_ (question.serves copy hserving)
  intro other ho
  obtain ⟨skip, hskip, rfl⟩ := List.mem_map.mp ho
  exact question.refuses skip (by simpa using hskipped skip hskip)

theorem fromAnyCopy_none {copies : ShardCopies (PhysicalCopy ctx)}
    (h : firstServing copies = none) :
    Coordinator.fromAnyCopy copies.shardId question.ask
      (copies.servingOrder.map PhysicalCopy.client) =
        .error (.shardCopiesExhausted copies.shardId) := by
  apply Coordinator.fromAnyCopy_exhausted
  intro client hm
  obtain ⟨copy, hcopy, rfl⟩ := List.mem_map.mp hm
  exact question.refuses copy (by simpa using List.find?_eq_none.mp h copy hcopy)

-- What each shard says to the question.
def outcomes (deployment : Deployment ctx) : List (Except PyError β) :=
  deployment.coordinator.topology.shards.map fun copies =>
    Coordinator.fromAnyCopy copies.shardId question.ask copies.servingOrder

theorem outcomes_eq : outcomes question deployment = deployment.topology.shards.map fun copies =>
    Coordinator.fromAnyCopy copies.shardId question.ask
      (copies.servingOrder.map PhysicalCopy.client) := by
  simp only [outcomes, coordinator, ClusterTopology.map, List.map_map]
  rfl

-- With a serving copy for every shard, the selected copy of each shard answers.
theorem forall₂_asked (hall : ∀ copies ∈ deployment.topology.shards, HasServingCopy copies) :
    List.Forall₂ (fun copies copy =>
        Coordinator.fromAnyCopy copies.shardId question.ask copies.servingOrder =
          .ok (question.answer copy))
      deployment.coordinator.topology.shards deployment.selected := by
  simp only [coordinator, ClusterTopology.map, selected]
  generalize deployment.topology.shards = shards at hall
  induction shards with
  | nil => exact .nil
  | cons copies rest ih =>
      have hrest := ih fun other ho => hall other (.tail _ ho)
      cases hfirst : firstServing copies with
      | none =>
          exact absurd (hall copies (.head _)) ((firstServing_eq_none_iff copies).mp hfirst)
      | some copy =>
          rw [List.filterMap_cons_some hfirst]
          exact .cons (fromAnyCopy_some question hfirst) hrest

-- Without one, nobody is asked any further and the report names the shards.
theorem gather_unavailable (action : String)
    (hnot : ¬∀ copies ∈ deployment.topology.shards, HasServingCopy copies) :
    ∃ ids, Coordinator.gather action (outcomes question deployment) =
      .error (.distributedSearch action ids) ∧ deployment.IdleShards ids := by
  have hget : ∀ id : Nat, (outcomes question deployment)[id]? =
      (deployment.topology.shards[id]?).map fun copies =>
        Coordinator.fromAnyCopy copies.shardId question.ask
          (copies.servingOrder.map PhysicalCopy.client) := by
    intro id
    rw [outcomes_eq, List.getElem?_map]
  refine ⟨Coordinator.failedShards (outcomes question deployment), ?_,
    Coordinator.failedShards_pairwise _, fun id => ?_⟩
  · simp only [not_forall] at hnot
    obtain ⟨copies, hmem, hnone⟩ := hnot
    obtain ⟨shardId, hshard⟩ := List.mem_iff_getElem?.mp hmem
    have hfailed : (outcomes question deployment)[shardId]? =
        some (.error (.shardCopiesExhausted copies.shardId)) := by
      rw [hget, hshard, Option.map_some,
        fromAnyCopy_none question ((firstServing_eq_none_iff copies).mpr hnone)]
    exact Coordinator.gather_error action hfailed
  · rw [Coordinator.mem_failedShards, hget]
    constructor
    · rintro ⟨error, hfailed⟩
      obtain ⟨copies, hshard, hcopies⟩ := Option.map_eq_some_iff.mp hfailed
      refine ⟨copies, List.mem_of_getElem? hshard, deployment.topology.getElem?_shardId hshard, ?_⟩
      rw [← firstServing_eq_none_iff]
      cases hfirst : firstServing copies with
      | none => rfl
      | some copy =>
          rw [fromAnyCopy_some question hfirst] at hcopies
          cases hcopies
    · rintro ⟨copies, hmem, rfl, hnone⟩
      obtain ⟨index, hshard⟩ := List.mem_iff_getElem?.mp hmem
      rw [deployment.topology.getElem?_shardId hshard, hshard, Option.map_some,
        fromAnyCopy_none question ((firstServing_eq_none_iff copies).mpr hnone)]
      exact ⟨_, rfl⟩

end Ask

section Whole

variable {deployment : Deployment ctx}

-- The corpora of the selected copies make up the corpus of the single engine.
theorem partition_singleEngine (hc : ctx.Contract) (hdisjoint : deployment.Disjoint) :
    Partition (deployment.selected.map PhysicalCopy.rows)
        deployment.singleEngine.store.database.rows ∧
      deployment.singleEngine.Healthy ctx := by
  have hkeyed : ∀ rows ∈ deployment.selected.map PhysicalCopy.rows, ∀ id document,
      rows.get? id = some document → document.documentId = id := by
    intro rows hrows
    obtain ⟨copy, -, rfl⟩ := List.mem_map.mp hrows
    exact copy.engine.store.database.keyed
  have hwhole := partition_insertAll hkeyed hdisjoint
  rw [List.flatMap_map] at hwhole
  obtain ⟨hhealthy, hrows⟩ := SearchEngine.indexAll_healthy hc
    (deployment.selected.flatMap fun copy => copy.rows.values)
  exact ⟨by rwa [← hrows] at hwhole, hhealthy⟩

end Whole

section Semantic

variable {embedder : Embedder α} {query : String} {limit : Int}

-- A serving copy ranks its rows, any other copy refuses.
def semanticQuestion (he : ctx.embedder = some embedder) (hc : embedder.Contract) (query : String)
    (hlimit : 1 ≤ limit ∧ limit ≤ maxLimit) : Question ctx (SearchResults α) where
  ask client := client.semanticSearch (embedder.embedQuery query) limit embedder.identity
  answer copy := answer (embedder.semanticHits copy.rows (embedder.embedQuery query)) limit
  serves copy h := by
    obtain ⟨hfailure, hready⟩ := copy.serving_iff.mp h
    have hanswer := SearchEngine.semanticSearch_eq hready (copy.exact hready).derived he
      (hc.queries query) hlimit.1
    simp only [PhysicalCopy.client, ShardClient.http, Transport.all, hfailure,
      HttpShardClient.semanticRoute, hlimit, and_self, if_true, he,
      SemanticIdentity.isCompatibleWith, decide_true, hanswer]
    rfl
  refuses copy h := by
    simp only [PhysicalCopy.client, ShardClient.http, Transport.all]
    cases hfailure : copy.failure with
    | some failure => cases failure <;> exact ⟨_, rfl, rfl⟩
    | none =>
        have hstate : copy.engine.state ≠ .ready := by
          intro hready
          simp [PhysicalCopy.serving, hfailure, hready] at h
        simp only [HttpShardClient.semanticRoute, hlimit, and_self, if_true, he,
          SemanticIdentity.isCompatibleWith, decide_true, SearchEngine.semanticSearch,
          SearchEngine.requireOperational, hstate, if_false]
        exact ⟨_, rfl, rfl⟩

variable {deployment : Deployment ctx}

theorem forall₂_answers (he : ctx.embedder = some embedder) (hc : embedder.Contract)
    (hall : ∀ copies ∈ deployment.topology.shards, HasServingCopy copies) (query : String)
    (hlimit : 1 ≤ limit ∧ limit ≤ maxLimit) :
    List.Forall₂ (Coordinator.Answers embedder (embedder.embedQuery query) limit)
      deployment.coordinator.topology.shards (deployment.selected.map PhysicalCopy.rows) := by
  rw [List.forall₂_map_right_iff]
  exact forall₂_asked (semanticQuestion he hc query hlimit) hall

theorem semanticSearch_unavailable (he : ctx.embedder = some embedder) (hc : embedder.Contract)
    (hnot : ¬∀ copies ∈ deployment.topology.shards, HasServingCopy copies) (query : String)
    (hlimit : 1 ≤ limit ∧ limit ≤ maxLimit) :
    ∃ ids, deployment.coordinator.semanticSearchLocked (embedder.embedQuery query) limit
        embedder.identity =
      .error (.distributedSearch "executing distributed semantic search" ids) ∧
      deployment.IdleShards ids := by
  obtain ⟨ids, hgather, hids⟩ := gather_unavailable (semanticQuestion he hc query hlimit)
    "executing distributed semantic search" hnot
  refine ⟨ids, ?_, hids⟩
  have houtcomes : deployment.coordinator.topology.shards.map (Coordinator.semanticFromAnyCopy
      (embedder.embedQuery query) limit embedder.identity) =
        outcomes (semanticQuestion he hc query hlimit) deployment := rfl
  rw [Coordinator.semanticSearchLocked, houtcomes, hgather]
  rfl

-- A shard without a serving copy fails the lexical half, and with it the whole request.
theorem hybridSearch_unavailable (he : ctx.embedder = some embedder)
    (hterms : Analysis.analyze ctx.unicode query ≠ [])
    (hnot : ¬∀ copies ∈ deployment.topology.shards, HasServingCopy copies) (limit : Int)
    (config : FusionConfig) :
    ∃ ids, deployment.coordinator.hybridSearch query limit config =
      .error (.distributedSearch "collecting corpus statistics" ids) ∧
      deployment.IdleShards ids := by
  simp only [not_forall] at hnot
  obtain ⟨copies, hmem, hnone⟩ := hnot
  obtain ⟨shardId, hshard⟩ := List.mem_iff_getElem?.mp hmem
  obtain ⟨ids, hlexical, hids⟩ := search_of_unavailable hterms (config.candidateDepth limit)
    hshard ((firstServing_eq_none_iff copies).mpr hnone)
  have hlocked : deployment.coordinator.search query (config.candidateDepth limit) =
      deployment.coordinator.searchLocked query
        (Coordinator.uniqueTerms (Analysis.analyze ctx.unicode query))
        (config.candidateDepth limit) := if_neg hterms
  have hunicode : deployment.coordinator.unicode = ctx.unicode := rfl
  have hembedder : deployment.coordinator.embedder = some embedder := he
  refine ⟨ids, ?_, hids⟩
  rw [hlocked] at hlexical
  simp only [Coordinator.hybridSearch, hunicode, hembedder, hterms, if_false, hlexical]

-- The other two kinds of search are answered under the same condition as the lexical one,
-- with what a single engine over the selected corpora answers, save that a hybrid query
-- without terms asks no shard. Neither half of a hybrid search is ever returned alone.
theorem semantic_and_hybrid_all_or_nothing (he : ctx.embedder = some embedder)
    (hc : embedder.Contract) (deployment : Deployment ctx) (hdisjoint : deployment.Disjoint)
    (query : String) (limit : Int) (hlimit : 1 ≤ limit ∧ limit ≤ 100) (config : FusionConfig)
    (hdepth : 1 ≤ config.maxCandidateDepth ∧ config.maxCandidateDepth ≤ 100) :
    let available := ∀ copies ∈ deployment.topology.shards, HasServingCopy copies
    let answered := Analysis.analyze ctx.unicode query = [] ∨ available
    ((∃ results, deployment.coordinator.semanticSearch query limit = .ok results) ↔ available) ∧
    ((∃ results, deployment.coordinator.hybridSearch query limit config = .ok results) ↔
      answered) ∧
    (available → deployment.coordinator.semanticSearch query limit =
      deployment.singleEngine.semanticSearch (embedder.embedQuery query) limit) ∧
    (answered → deployment.coordinator.hybridSearch query limit config =
      deployment.singleEngine.hybridSearch ctx query limit config) ∧
    (¬available → ∃ operation ids, deployment.coordinator.semanticSearch query limit =
      .error (.distributedSearch operation ids) ∧ deployment.IdleShards ids) ∧
    (¬answered → ∃ operation ids, deployment.coordinator.hybridSearch query limit config =
      .error (.distributedSearch operation ids) ∧ deployment.IdleShards ids) := by
  intro available answered
  have hembedder : deployment.coordinator.embedder = some embedder := he
  have hbounds := Cluster.candidateDepth_bounds config hlimit.1 hdepth
  obtain ⟨hwhole, hhealthy⟩ := partition_singleEngine (EngineContext.contract_of_some he hc)
    hdisjoint
  have hsemantic : available → deployment.coordinator.semanticSearch query limit =
      deployment.singleEngine.semanticSearch (embedder.embedQuery query) limit := fun hall =>
    Coordinator.semanticSearch_eq hembedder he hc (forall₂_answers he hc hall query hlimit) hwhole
      hlimit.1 hhealthy.ready hhealthy.exact.derived
  have hhybrid : answered → deployment.coordinator.hybridSearch query limit config =
      deployment.singleEngine.hybridSearch ctx query limit config := by
    rintro (hterms | hall)
    · have hunicode : deployment.coordinator.unicode = ctx.unicode := rfl
      rw [Coordinator.hybridSearch, SearchEngine.hybridSearch, SearchEngine.hybridSearchWith,
        hunicode]
      simp only [hterms, if_true]
    · exact Coordinator.hybridSearch_eq rfl hembedder he hc (forall₂_pins hall query hbounds)
        (forall₂_answers he hc hall query hbounds) hwhole hbounds.1 hhealthy.ready
        hhealthy.exact.derived
  have hsemanticRefused : ¬available → ∃ operation ids,
      deployment.coordinator.semanticSearch query limit =
        .error (.distributedSearch operation ids) ∧ deployment.IdleShards ids := by
    intro hnot
    obtain ⟨ids, hfailed, hids⟩ := semanticSearch_unavailable he hc hnot query hlimit
    refine ⟨"executing distributed semantic search", ids, ?_, hids⟩
    rw [Coordinator.semanticSearch, hembedder]
    exact hfailed
  have hhybridRefused : ¬answered → ∃ operation ids,
      deployment.coordinator.hybridSearch query limit config =
        .error (.distributedSearch operation ids) ∧ deployment.IdleShards ids := by
    intro hnot
    obtain ⟨hterms, hidle⟩ := not_or.mp hnot
    obtain ⟨ids, hfailed, hids⟩ := hybridSearch_unavailable he hterms hidle limit config
    exact ⟨"collecting corpus statistics", ids, hfailed, hids⟩
  have hsemanticTotal := SearchEngine.semanticSearch_eq hhealthy.ready hhealthy.exact.derived he
    (hc.queries query) hlimit.1
  obtain ⟨fused, hhybridTotal⟩ := SearchEngine.hybridSearch_total hhealthy.ready
    hhealthy.exact.derived he hc query hlimit.1 hbounds.1
  refine ⟨⟨?_, ?_⟩, ⟨?_, ?_⟩, hsemantic, hhybrid, hsemanticRefused, hhybridRefused⟩
  · rintro ⟨results, hok⟩
    by_contra hnot
    obtain ⟨_, _, hfailed, -⟩ := hsemanticRefused hnot
    rw [hok] at hfailed
    cases hfailed
  · exact fun hall => ⟨_, (hsemantic hall).trans hsemanticTotal⟩
  · rintro ⟨results, hok⟩
    by_contra hnot
    obtain ⟨_, _, hfailed, -⟩ := hhybridRefused hnot
    rw [hok] at hfailed
    cases hfailed
  · exact fun hserved => ⟨fused, (hhybrid hserved).trans hhybridTotal⟩

section Example

attribute [local instance] rationalArith

-- With the primary of one shard lost, both searches are answered by its replica.
theorem lostPrimary_semantic_and_hybrid :
    (∃ results, lostPrimary.coordinator.semanticSearch "red" 1 = .ok results) ∧
      ∃ results, lostPrimary.coordinator.hybridSearch "red" 1 .default = .ok results := by
  have havailable : ∀ copies ∈ lostPrimary.topology.shards, HasServingCopy copies := by
    simp [lostPrimary, ClusterTopology.ofGroups, hasServingCopy_iff, ShardCopies.servingOrder,
      servingCopy_serving]
  have h := @semantic_and_hybrid_all_or_nothing _ _ _ sampleContext .constant rfl
    Embedder.constant_contract lostPrimary lostPrimary_disjoint "red" 1 (by decide) .default
    (by decide)
  exact ⟨h.1.mpr havailable, h.2.1.mpr (.inr havailable)⟩

end Example

end Semantic

end PySearch.Deployment
