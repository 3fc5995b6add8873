import PySearch.Cluster.Coordinator.Theorems
import PySearch.Cluster.Routing
import PySearch.Lib.Run

namespace PySearch

open Coordinator (Pins Answers Serves)
open SearchEngine (Healthy)

namespace Mutation

-- What a call without failures answers, given what is stored under the identifier.
def outcome : Mutation → Option Document → Except PyError (Option Bool)
  | put _, found => .ok (some found.isNone)
  | delete _, some _ => .ok none
  | delete documentId, none => .error (.documentNotFound documentId)

end Mutation

variable {α : Type} [Arith α] [LinearOrder α] {ctx : EngineContext α}

theorem SearchEngine.Healthy.commit (hc : ctx.Contract) {engine : SearchEngine α}
    (h : Healthy ctx engine) (mutation : Mutation) :
    ∃ after, Shard.commit ctx engine mutation .none =
        (mutation.outcome (engine.store.database.rows.get? mutation.documentId), after) ∧
      Healthy ctx after ∧ ∀ id, after.store.database.rows.get? id =
        if id = mutation.documentId then mutation.stored else engine.store.database.rows.get? id := by
  cases mutation with
  | put document =>
      obtain ⟨after, hcall, hafter, hdb⟩ := h.indexDocument hc document
      refine ⟨after, ?_, hafter, fun id => ?_⟩
      · simp only [Shard.commit, hcall, Mutation.outcome, Mutation.documentId, Dict.contains]
        cases engine.store.database.rows.get? document.documentId <;> rfl
      · rw [hdb, Database.apply_get?]
  | delete documentId =>
      cases hrow : engine.store.database.rows.get? documentId with
      | none =>
          refine ⟨engine, ?_, h, fun id => ?_⟩
          · simp only [Shard.commit, h.deleteDocument_absent hrow, Mutation.outcome,
              Mutation.documentId, hrow]
            rfl
          · split
            · rename_i he
              rw [he]
              exact hrow
            · rfl
      | some document =>
          obtain ⟨after, hcall, hafter, hdb⟩ := h.deleteDocument hrow
          refine ⟨after, ?_, hafter, fun id => ?_⟩
          · simp only [Shard.commit, hcall, Mutation.outcome, Mutation.documentId, hrow]
            rfl
          · rw [hdb, Database.apply_get?]

namespace Link

variable {link : Link} {engine after : SearchEngine α}

omit [LinearOrder α] in
-- A link that carries the identifier hands on what the primary answers.
theorem putDocument_carried {document : Document} {created : Bool}
    (hcarried : link.Carries document.documentId)
    (hcall : engine.indexDocument ctx document .none = (.ok created, after)) :
    link.putDocument ctx engine document = (.ok created, after) := by
  cases link with
  | direct => exact hcall
  | http stack settings =>
      have hid : stack.primaryId document.documentId = some document.documentId := hcarried
      simp only [putDocument, hid, Internal.indexDocument, Document.create_self, hcall]
      rfl

omit [LinearOrder α] in
theorem deleteDocument_carried {documentId : String} {result : Except PyError Unit}
    (hcarried : link.Carries documentId)
    (hcall : engine.deleteDocument documentId .none = (result, after))
    (hresult : result = .ok () ∨ result = .error (.documentNotFound documentId)) :
    link.deleteDocument engine documentId = (result, after) := by
  cases link with
  | direct => exact hcall
  | http stack settings =>
      have hid : stack.primaryId documentId = some documentId := hcarried
      simp only [deleteDocument, hid, Internal.deleteDocument, hcall]
      rcases hresult with rfl | rfl <;> rfl

end Link

namespace Cluster

omit [LinearOrder α] in
-- The coordinator hands back what the primary answered.
theorem write_of_commit {cluster : Cluster α} {mutation : Mutation} {found : Option Document}
    {after : SearchEngine α}
    (hcarried : (cluster.link mutation.documentId).Carries mutation.documentId)
    (h : Shard.commit ctx (cluster.primary mutation.documentId) mutation .none =
      (mutation.outcome found, after)) :
    cluster.write ctx mutation =
      (mutation.outcome found, cluster.setPrimary mutation.documentId after) := by
  cases mutation with
  | put document =>
      simp only [Shard.commit, Mutation.outcome, Mutation.documentId] at h hcarried
      cases hcall : (cluster.primary document.documentId).indexDocument ctx document .none with
      | mk result engine =>
          rw [hcall] at h
          obtain ⟨hresult, rfl⟩ := Prod.mk.inj h
          cases result with
          | error error => cases hresult
          | ok created =>
              obtain rfl : created = found.isNone := by
                simpa [Except.map] using hresult
              have hlink := Link.putDocument_carried hcarried hcall
              simp only [write, indexDocument, hlink, Mutation.outcome, Mutation.documentId]
              rfl
  | delete documentId =>
      simp only [Shard.commit, Mutation.documentId] at h hcarried
      cases hcall : (cluster.primary documentId).deleteDocument documentId .none with
      | mk result engine =>
          rw [hcall] at h
          obtain ⟨hresult, rfl⟩ := Prod.mk.inj h
          have hanswer : result = .ok () ∨ result = .error (.documentNotFound documentId) := by
            cases result with
            | ok value => exact .inl rfl
            | error error =>
                cases found with
                | some document => cases hresult
                | none => simpa [Except.map, Mutation.outcome] using hresult
          have hlink := Link.deleteDocument_carried hcarried hcall hanswer
          simp only [write, deleteDocument, hlink, Mutation.documentId, ← hresult]

-- The shards serve the corpus of the single engine, each the documents it owns.
structure Refines (ctx : EngineContext α) (router : ShardRouter) (links : Nat → Link)
    (cluster : Cluster α) (single : SearchEngine α) : Prop where
  routed : cluster.router = router
  linked : cluster.links = links
  whole : Healthy ctx single
  shards : ∀ engine ∈ cluster.engines, Healthy ctx engine
  owned : ∀ (shardId : Nat) engine id document, cluster.engines[shardId]? = some engine →
    engine.store.database.rows.get? id = some document → cluster.router.shardFor id = shardId
  rows : ∀ id, single.store.database.rows.get? id =
    (cluster.primary id).store.database.rows.get? id

variable {router : ShardRouter} {links : Nat → Link} {cluster : Cluster α}
  {single : SearchEngine α}

omit [Arith α] [LinearOrder α] in
theorem getElem?_shardFor (cluster : Cluster α) (id : String) :
    cluster.engines[cluster.router.shardFor id]? = some (cluster.primary id) := by
  rw [primary, List.get_eq_getElem, List.getElem?_eq_getElem]

omit [Arith α] [LinearOrder α] in
theorem primary_mem (cluster : Cluster α) (id : String) : cluster.primary id ∈ cluster.engines :=
  List.get_mem _ _

omit [Arith α] [LinearOrder α] in
theorem primary_setPrimary (cluster : Cluster α) (documentId id : String)
    (engine : SearchEngine α) : (cluster.setPrimary documentId engine).primary id =
      if cluster.router.shardFor documentId = cluster.router.shardFor id then engine
      else cluster.primary id := by
  simp only [primary, setPrimary, List.get_eq_getElem, List.getElem_set]

-- One call keeps the cluster a refinement, and both sides give the same answer.
theorem Refines.write (hc : ctx.Contract) (h : Refines ctx router links cluster single)
    {mutation : Mutation}
    (hcarried : (links (router.shardFor mutation.documentId)).Carries mutation.documentId) :
    (cluster.write ctx mutation).1 = (Shard.commit ctx single mutation .none).1 ∧
      Refines ctx router links (cluster.write ctx mutation).2
        (Shard.commit ctx single mutation .none).2 := by
  obtain ⟨after, hsingle, hafter, hrows⟩ := h.whole.commit hc mutation
  obtain ⟨engine, hshard, hengine, hshardRows⟩ :=
    (h.shards _ (cluster.primary_mem mutation.documentId)).commit hc mutation
  rw [← h.linked, ← h.routed] at hcarried
  rw [hsingle, write_of_commit hcarried hshard, h.rows]
  refine ⟨rfl, h.routed, h.linked, hafter, ?_, ?_, ?_⟩
  · intro other ho
    rcases List.mem_or_eq_of_mem_set ho with hm | rfl
    · exact h.shards other hm
    · exact hengine
  · intro shardId other id document hget hfound
    have hset := hget
    simp only [setPrimary, List.getElem?_set] at hset
    split at hset
    · rename_i hsame
      split at hset
      · cases hset
        rw [hshardRows] at hfound
        split at hfound
        · rename_i hid
          exact (congrArg _ hid).trans hsame
        · have howned := h.owned _ _ id document
            (cluster.getElem?_shardFor mutation.documentId) hfound
          exact howned.trans hsame
      · cases hset
    · exact h.owned shardId other id document hset hfound
  · intro id
    rw [hrows, primary_setPrimary, h.rows]
    split
    · rename_i hid
      rw [if_pos (congrArg _ hid.symm), hshardRows, if_pos hid]
    · rename_i hid
      split
      · rename_i hsame
        have heq : cluster.primary mutation.documentId = cluster.primary id := by
          simp only [primary, hsame]
        rw [hshardRows, if_neg hid, heq]
      · rfl

theorem start_refines (hc : ctx.Contract) (router : ShardRouter) (links : Nat → Link)
    (replicas : Nat → List (ShardClient α)) :
    Refines ctx router links (start ctx router links replicas)
      (SearchEngine.initializeEngine ctx (.new ctx (.openDatabase .empty)) .none).2 := by
  obtain ⟨report, engine, hinit, hhealthy, hdb⟩ := SearchEngine.initializeEngine_healthy hc .empty
  have hempty : ∀ id, engine.store.database.rows.get? id = none := by
    intro id
    rw [hdb]
    rfl
  have hengines : ∀ other ∈ (start ctx router links replicas).engines, other = engine := by
    intro other ho
    exact (List.eq_of_mem_replicate ho).trans (congrArg Prod.snd hinit)
  rw [hinit]
  refine ⟨rfl, rfl, hhealthy, ?_, ?_, ?_⟩
  · intro other ho
    exact hengines other ho ▸ hhealthy
  · intro shardId other id document hget hfound
    rw [hengines other (List.mem_of_getElem? hget), hempty] at hfound
    cases hfound
  · intro id
    rw [hengines _ (primary_mem _ id)]

-- The rows that the shards hold, shard by shard.
def corpora (cluster : Cluster α) : List (Dict String Document) :=
  cluster.engines.map fun engine => engine.store.database.rows

omit [Arith α] [LinearOrder α] in
theorem Refines.partition (h : Refines ctx router links cluster single) :
    Partition cluster.corpora single.store.database.rows := by
  apply partition_of_owner cluster.router.shardFor
  · intro index rows id document hget hfound
    rw [corpora, List.getElem?_map, Option.map_eq_some_iff] at hget
    obtain ⟨engine, hengine, rfl⟩ := hget
    exact h.owned index engine id document hengine hfound
  · intro id document
    rw [h.rows, corpora, List.getElem?_map, getElem?_shardFor]
    simp

section Clients

variable {engine : SearchEngine α} {rows : Dict String Document}

theorem serves_link (link : Link) (hready : engine.state = .ready)
    (hexact : engine.derived.Exact ctx rows) (query : String) {limit : Int}
    (hlimit : 1 ≤ limit ∧ limit ≤ maxLimit) :
    Serves ctx query limit (link.client ctx engine) rows := by
  cases link with
  | direct => exact Coordinator.serves_direct hready hexact query limit
  | http stack settings => exact Coordinator.serves_http hready hexact settings query hlimit

theorem semanticSearch_link {embedder : Embedder α} (link : Link) (hready : engine.state = .ready)
    (hexact : engine.derived.Exact ctx rows) (he : ctx.embedder = some embedder)
    (hc : embedder.Contract) (query : String) {limit : Int}
    (hlimit : 1 ≤ limit ∧ limit ≤ maxLimit) :
    (link.client ctx engine).semanticSearch (embedder.embedQuery query) limit embedder.identity =
      .ok (answer (embedder.semanticHits rows (embedder.embedQuery query)) limit) := by
  have hanswer := SearchEngine.semanticSearch_eq hready hexact he (hc.queries query) hlimit.1
  cases link with
  | direct => exact hanswer
  | http stack settings =>
      simp only [Link.client, ShardClient.http, HttpShardClient.semanticRoute, hlimit, and_self,
        if_true, he, SemanticIdentity.isCompatibleWith, decide_true, hanswer]
      rfl

end Clients

-- A property of every primary with its rows is one of every shard of the topology.
theorem forall₂_shards {R : ShardCopies (ShardClient α) → Dict String Document → Prop}
    (h : ∀ (shardId : Nat) engine, cluster.engines[shardId]? = some engine →
      R ⟨shardId, (cluster.links shardId).client ctx engine, cluster.replicas shardId⟩
        engine.store.database.rows) :
    List.Forall₂ R (cluster.coordinator ctx).topology.shards cluster.corpora := by
  rw [List.forall₂_iff_get]
  refine ⟨by simp [coordinator, ClusterTopology.ofGroups, corpora], fun index hleft hright => ?_⟩
  have hindex : index < cluster.engines.length := by simpa [corpora] using hright
  have hget := List.getElem?_eq_getElem hindex
  simpa [coordinator, ClusterTopology.ofGroups, corpora] using h index _ hget

theorem feed_refines (hc : ctx.Contract) (router : ShardRouter) (links : Nat → Link)
    (replicas : Nat → List (ShardClient α)) (calls : List Mutation)
    (hcarried : ∀ mutation ∈ calls,
      (links (router.shardFor mutation.documentId)).Carries mutation.documentId) :
    let cluster := Run.feed (write ctx) (start ctx router links replicas) calls
    let single := Run.feed (fun engine mutation => Shard.commit ctx engine mutation .none)
      (SearchEngine.initializeEngine ctx (.new ctx (.openDatabase .empty)) .none).2 calls
    cluster.1 = single.1 ∧ Refines ctx router links cluster.2 single.2 :=
  Run.feed_simulates (fun _ _ mutation hmem h => h.write hc (hcarried mutation hmem))
    (start_refines hc router links replicas)

-- Whatever was written through the coordinator, in whatever order, the cluster searches
-- like one engine that received the same calls, and every call was answered alike.
theorem search_refines_single_node (hc : ctx.Contract) (router : ShardRouter)
    (replicas : Nat → List (ShardClient α)) (calls : List Mutation) (query : String) (limit : Int)
    (hlimit : 1 ≤ limit) :
    let cluster := Run.feed (write ctx) (start ctx router (fun _ => .direct) replicas) calls
    let single := Run.feed (fun engine mutation => Shard.commit ctx engine mutation .none)
      (SearchEngine.initializeEngine ctx (.new ctx (.openDatabase .empty)) .none).2 calls
    cluster.1 = single.1 ∧
      ∃ results, (cluster.2.coordinator ctx).search query limit = .ok results ∧
        single.2.search ctx query limit none = .ok results := by
  intro cluster single
  obtain ⟨hanswers, hrefines⟩ := feed_refines hc router (fun _ => .direct) replicas calls
    fun _ _ => trivial
  have hpins : List.Forall₂ (Pins ctx query limit)
      (cluster.2.coordinator ctx).topology.shards cluster.2.corpora := by
    apply forall₂_shards
    intro shardId engine hget
    have hengine := hrefines.shards engine (List.mem_of_getElem? hget)
    rw [hrefines.linked]
    exact Coordinator.pins_of_primary
      (Coordinator.serves_direct hengine.ready hengine.exact.derived query limit)
  have hsearch := Coordinator.search_eq rfl hpins hrefines.partition (by omega)
    hrefines.whole.ready hrefines.whole.exact.derived
  obtain ⟨results, htotal⟩ :=
    SearchEngine.search_total hrefines.whole.ready hrefines.whole.exact.derived query limit
  exact ⟨hanswers, results, hsearch.trans htotal, htotal⟩

theorem candidateDepth_bounds (config : FusionConfig) {limit : Int} (hlimit : 1 ≤ limit)
    (hdepth : 1 ≤ config.maxCandidateDepth ∧ config.maxCandidateDepth ≤ maxLimit) :
    1 ≤ config.candidateDepth limit ∧ config.candidateDepth limit ≤ maxLimit := by
  have hproduct : 1 * 1 ≤ limit * config.candidateMultiplier :=
    Int.mul_le_mul hlimit config.multiplier_pos (by omega) (by omega)
  unfold FusionConfig.candidateDepth
  omega

-- The same for the other two kinds of search, over any links to the nodes that carry the
-- identifiers that are written.
theorem semantic_and_hybrid_refine_single_node {embedder : Embedder α}
    (he : ctx.embedder = some embedder) (hc : embedder.Contract) (router : ShardRouter)
    (links : Nat → Link) (replicas : Nat → List (ShardClient α)) (calls : List Mutation)
    (hcarried : ∀ mutation ∈ calls,
      (links (router.shardFor mutation.documentId)).Carries mutation.documentId)
    (query : String) (limit : Int) (hlimit : 1 ≤ limit ∧ limit ≤ 100) (config : FusionConfig)
    (hdepth : 1 ≤ config.maxCandidateDepth ∧ config.maxCandidateDepth ≤ 100) :
    let cluster := Run.feed (write ctx) (start ctx router links replicas) calls
    let single := Run.feed (fun engine mutation => Shard.commit ctx engine mutation .none)
      (SearchEngine.initializeEngine ctx (.new ctx (.openDatabase .empty)) .none).2 calls
    (∃ results, (cluster.2.coordinator ctx).semanticSearch query limit = .ok results ∧
        single.2.semanticSearch (embedder.embedQuery query) limit = .ok results) ∧
      ∃ results, (cluster.2.coordinator ctx).hybridSearch query limit config = .ok results ∧
        single.2.hybridSearch ctx query limit config = .ok results := by
  intro cluster single
  obtain ⟨-, hrefines⟩ :=
    feed_refines (EngineContext.contract_of_some he hc) router links replicas calls hcarried
  have hbounds := candidateDepth_bounds config hlimit.1 hdepth
  have hanswers : ∀ depth : Int, 1 ≤ depth ∧ depth ≤ maxLimit →
      List.Forall₂ (Answers embedder (embedder.embedQuery query) depth)
        (cluster.2.coordinator ctx).topology.shards cluster.2.corpora := by
    intro depth hd
    apply forall₂_shards
    intro shardId engine hget
    have hengine := hrefines.shards engine (List.mem_of_getElem? hget)
    exact Coordinator.answers_of_primary
      (semanticSearch_link _ hengine.ready hengine.exact.derived he hc query hd)
  have hpins : List.Forall₂ (Pins ctx query (config.candidateDepth limit))
      (cluster.2.coordinator ctx).topology.shards cluster.2.corpora := by
    apply forall₂_shards
    intro shardId engine hget
    have hengine := hrefines.shards engine (List.mem_of_getElem? hget)
    exact Coordinator.pins_of_primary
      (serves_link _ hengine.ready hengine.exact.derived query hbounds)
  have hready := hrefines.whole.ready
  have hexact := hrefines.whole.exact.derived
  have hsemantic := Coordinator.semanticSearch_eq he he hc (hanswers limit hlimit)
    hrefines.partition hlimit.1 hready hexact
  have hhybrid := Coordinator.hybridSearch_eq rfl he he hc hpins (hanswers _ hbounds)
    hrefines.partition hbounds.1 hready hexact
  have hanswer := SearchEngine.semanticSearch_eq hready hexact he (hc.queries query) hlimit.1
  obtain ⟨fused, htotal⟩ :=
    SearchEngine.hybridSearch_total hready hexact he hc query hlimit.1 hbounds.1
  exact ⟨⟨_, hsemantic.trans hanswer, hanswer⟩, fused, hhybrid.trans htotal, htotal⟩

section Example

attribute [local instance] rationalArith

def routedCalls : List Mutation := [.put redFox, .put red, .put redFox, .delete "c"]

theorem routedCalls_search :
    let ctx : EngineContext ℚ := ⟨.ascii, defaultBM25Params, some .constant⟩
    let cluster := Run.feed (write ctx) (start ctx twoShards (fun _ => .direct) fun _ => [])
      routedCalls
    let single := Run.feed (fun engine mutation => Shard.commit ctx engine mutation .none)
      (SearchEngine.initializeEngine ctx (.new ctx (.openDatabase .empty)) .none).2 routedCalls
    cluster.1 = [.ok (some true), .ok (some true), .ok (some false),
      .error (.documentNotFound "c")] ∧
    cluster.1 = single.1 ∧
      ∃ results, (cluster.2.coordinator ctx).search "red" 1 = .ok results ∧
        single.2.search ctx "red" 1 none = .ok results :=
  ⟨by decide +kernel, search_refines_single_node
    (EngineContext.contract_of_some rfl Embedder.constant_contract) _ _ _ _ _ (by decide)⟩

theorem routedCalls_carried : ∀ mutation ∈ routedCalls,
    HttpStack.pathStack.primaryId mutation.documentId = some mutation.documentId := by
  have hids : ∀ mutation ∈ routedCalls, mutation.documentId ∈ ["a", "b", "c", " "] := by decide
  exact fun mutation hmem => (HttpStack.pathStack_survives (hids mutation hmem)).1

theorem routedCalls_semantic_and_hybrid :
    let ctx : EngineContext ℚ := ⟨.ascii, defaultBM25Params, some .constant⟩
    let links := fun shardId => .http .pathStack ⟨"", "node", shardId, "primary"⟩
    let cluster := Run.feed (write ctx) (start ctx twoShards links fun _ => []) routedCalls
    let single := Run.feed (fun engine mutation => Shard.commit ctx engine mutation .none)
      (SearchEngine.initializeEngine ctx (.new ctx (.openDatabase .empty)) .none).2 routedCalls
    (∃ results, (cluster.2.coordinator ctx).semanticSearch "red" 2 = .ok results ∧
        single.2.semanticSearch (Embedder.constant.embedQuery "red") 2 = .ok results) ∧
      ∃ results, (cluster.2.coordinator ctx).hybridSearch "red" 2 .default = .ok results ∧
        single.2.hybridSearch ctx "red" 2 .default = .ok results :=
  @semantic_and_hybrid_refine_single_node ℚ _ _ _ _ rfl Embedder.constant_contract twoShards
    (fun shardId => .http .pathStack ⟨"", "node", shardId, "primary"⟩) (fun _ => []) routedCalls
    routedCalls_carried "red" 2 (by decide) .default (by decide)

end Example

end Cluster

end PySearch
