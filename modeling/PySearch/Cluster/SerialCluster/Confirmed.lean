import PySearch.Cluster.SerialCluster.Reads

namespace PySearch

open SearchEngine (Healthy)

variable {α : Type} [Arith α] [LinearOrder α] {ctx : EngineContext α}

namespace SearchEngine

-- A single engine whose corpus accounts for everything known.
structure Informed (ctx : EngineContext α) (known : Knowledge) (requests : List Mutation)
    (engine : SearchEngine α) : Prop where
  healthy : engine.Healthy ctx
  accounts : Accounts known requests engine.store.database.rows

variable {known : Knowledge} {requests : List Mutation} {embedder : Embedder α}
  {single other : SearchEngine α} {query : String} {limit : Int}

theorem informed_indexAll (hc : ctx.Contract) {documents : List Document}
    (h : Accounts known requests (Database.insertAll documents)) :
    Informed ctx known requests (indexAll ctx documents) ∧
      (indexAll ctx documents).derived.Exact ctx (Database.insertAll documents) := by
  obtain ⟨hhealthy, hrows⟩ := indexAll_healthy hc documents
  exact ⟨⟨hhealthy, hrows ▸ h⟩, hrows ▸ hhealthy.exact.derived⟩

end SearchEngine

namespace SerialCluster

variable {cluster : SerialCluster α} {replicas : Nat → Nat} {ghosts : List (Shard α)}
  {requests : List Mutation} {known : Knowledge} {embedder : Embedder α}
  {settings : Nat → Nat → NodeSettings} {transport : Nat → Nat → Transport}
  {query : String} {limit : Int}

theorem Shadows.consistent (h : Shadows ctx stack replicas requests cluster known ghosts) :
    ∀ shard ∈ (view cluster.router ghosts (h.length.trans cluster.matched) settings
      transport).shards, shard.shard.Consistent ctx := by
  intro shard hshard
  obtain ⟨⟨ghost, shardId⟩, hentry, rfl⟩ := List.mem_map.mp hshard
  have hghost := List.mk_mem_zipIdx_iff_getElem?.mp hentry
  have hlt : shardId < cluster.shards.length := by
    rw [← h.length]
    exact (List.getElem?_eq_some_iff.mp hghost).1
  obtain ⟨-, hfresh, -⟩ := h.shards shardId _ ghost (List.getElem?_eq_getElem hlt) hghost
  exact (Shard.reaches_settled hfresh).consistent

-- The lexical protocol finds what an informed engine finds.
theorem Shadows.searchLocked (h : Shadows ctx stack replicas requests cluster known ghosts)
    (hc : ctx.Contract) (hterms : Analysis.analyze ctx.unicode query ≠ []) (hlimit : 1 ≤ limit)
    {results : SearchResults α}
    (hok : (cluster.coordinator ctx settings transport).searchLocked query
      (Coordinator.uniqueTerms (Analysis.analyze ctx.unicode query)) limit = .ok results) :
    ∃ single, SearchEngine.Informed ctx known requests single ∧
      single.search ctx query limit none = .ok results := by
  rw [h.coordinator_eq] at hok
  obtain ⟨nodes, hnodes, hfound⟩ := ClusterView.searchLocked_reads h.consistent hok
  obtain ⟨hpartition, haccounts⟩ := h.accounts settings transport hnodes
    fun view hview => ⟨_, ShardView.lexicalCopy_eq hview _⟩
  obtain ⟨hinformed, hexact⟩ := SearchEngine.informed_indexAll hc haccounts
  refine ⟨_, hinformed, ?_⟩
  have hlocked := SearchEngine.searchLocked_eq hexact hterms limit none
  rw [SearchEngine.search, SearchEngine.requireOperational_of_ready hinformed.healthy.ready]
  refine hlocked.trans ?_
  rw [hfound, Option.getD_none]
  split
  · rename_i hzero
    rw [Coordinator.answer_of_empty hpartition hzero]
  · rw [Coordinator.merge_rounds hpartition (by omega) rfl]

-- The semantic protocol finds what an informed engine finds.
theorem Shadows.semanticSearchLocked (h : Shadows ctx stack replicas requests cluster known ghosts)
    (he : ctx.embedder = some embedder) (hc : embedder.Contract) {results : SearchResults α}
    (hok : (cluster.coordinator ctx settings transport).semanticSearchLocked
      (embedder.embedQuery query) limit embedder.identity = .ok results) :
    1 ≤ limit ∧ ∃ single, SearchEngine.Informed ctx known requests single ∧
      single.semanticSearch (embedder.embedQuery query) limit = .ok results := by
  rw [h.coordinator_eq] at hok
  obtain ⟨nodes, hnodes, hfound, hbounds⟩ :=
    ClusterView.semanticSearchLocked_reads h.consistent he hc hok
  have hsome : (view cluster.router ghosts (h.length.trans cluster.matched) settings
      transport).shards ≠ [] := by
    have hpositive := cluster.router.positive
    rw [← List.length_pos_iff, (view _ _ _ settings transport).matched]
    exact hpositive
  have hlimit := hbounds hsome
  obtain ⟨hpartition, haccounts⟩ := h.accounts settings transport hnodes
    fun view hview => ⟨_, ShardView.semanticCopy_eq hview he hc query hlimit⟩
  obtain ⟨hinformed, hexact⟩ := SearchEngine.informed_indexAll
    (EngineContext.contract_of_some he hc) haccounts
  refine ⟨hlimit.1, _, hinformed, ?_⟩
  rw [SearchEngine.semanticSearch_eq hinformed.healthy.ready hexact he (hc.queries query) hlimit.1,
    hfound, ← merge_semantic hpartition embedder _ (by omega), List.map_map]
  rfl

section Example

attribute [local instance] rationalArith

open HttpStack (pathStack)
open SerialShard (fairRepair)

end Example

end SerialCluster

end PySearch
