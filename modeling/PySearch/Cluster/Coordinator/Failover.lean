import PySearch.Cluster.Coordinator.Theorems
import PySearch.Search.Engine.Recovery

namespace PySearch

variable {α : Type}

-- One physical copy of a shard, for as long as nothing about it changes: whether requests
-- reach it, and the engine it runs. A ready engine is exact in every run of its node.
structure PhysicalCopy (ctx : EngineContext α) where
  settings : NodeSettings
  failure : Option TransportFailure
  engine : SearchEngine α
  exact : engine.state = .ready → engine.Exact ctx

namespace PhysicalCopy

variable {ctx : EngineContext α}

def serving (copy : PhysicalCopy ctx) : Bool :=
  copy.failure.isNone && copy.engine.state = .ready

def rows (copy : PhysicalCopy ctx) : Dict String Document := copy.engine.store.database.rows

variable [Arith α] [LinearOrder α]

def client (copy : PhysicalCopy ctx) : ShardClient α :=
  .http ctx copy.settings (.all copy.failure) copy.engine

omit [Arith α] [LinearOrder α] in
theorem serving_iff (copy : PhysicalCopy ctx) :
    copy.serving ↔ copy.failure = none ∧ copy.engine.state = .ready := by
  simp [serving]

theorem serves (copy : PhysicalCopy ctx) (h : copy.serving) (query : String) {limit : Int}
    (hlimit : 1 ≤ limit ∧ limit ≤ maxLimit) :
    Coordinator.Serves ctx query limit copy.client copy.rows := by
  obtain ⟨hfailure, hready⟩ := copy.serving_iff.mp h
  rw [client, hfailure]
  exact Coordinator.serves_http hready (copy.exact hready).derived copy.settings query hlimit

-- A copy that does not serve refuses in a way that makes the coordinator move on.
theorem refuses (copy : PhysicalCopy ctx) (h : copy.serving = false) (terms : List String) :
    ∃ error, copy.client.corpusStats terms = .error error ∧ error.isClusterError := by
  simp only [client, ShardClient.http, Transport.all]
  cases hf : copy.failure with
  | some failure => cases failure <;> exact ⟨_, rfl, rfl⟩
  | none =>
      have hstate : copy.engine.state ≠ .ready := by
        intro hready
        simp [serving, hf, hready] at h
      simp only [SearchEngine.corpusStats, SearchEngine.requireOperational, hstate, if_false]
      exact ⟨_, rfl, rfl⟩

theorem isReady (copy : PhysicalCopy ctx) : copy.client.isReady = .ok copy.serving := by
  cases hf : copy.failure <;>
    simp [client, ShardClient.http, Transport.all, serving, hf, SearchEngine.status]

theorem copyStatus_ready (copy : PhysicalCopy ctx) (role : String) :
    (Coordinator.copyStatus role copy.client.nodeStatus).ready = copy.serving := by
  cases hf : copy.failure with
  | none =>
      simp [client, ShardClient.http, Transport.all, serving, hf, SearchEngine.status,
        Coordinator.copyStatus, HttpShardClient.request]
  | some failure =>
      cases failure <;>
        simp [client, ShardClient.http, Transport.all, serving, hf, Coordinator.copyStatus,
          HttpShardClient.request]

end PhysicalCopy

-- A coordinator over physical copies.
structure Deployment (ctx : EngineContext α) where
  router : ShardRouter
  topology : ClusterTopology (PhysicalCopy ctx)
  matched : topology.shardCount = router.shardCount

namespace Deployment

variable {ctx : EngineContext α}

def firstServing (copies : ShardCopies (PhysicalCopy ctx)) : Option (PhysicalCopy ctx) :=
  copies.servingOrder.find? PhysicalCopy.serving

-- The first serving copy of each shard that has one.
def selected (deployment : Deployment ctx) : List (PhysicalCopy ctx) :=
  deployment.topology.shards.filterMap firstServing

def HasServingCopy (copies : ShardCopies (PhysicalCopy ctx)) : Prop :=
  ∃ copy ∈ copies.servingOrder, copy.failure = none ∧ copy.engine.state = .ready

variable [Arith α] [LinearOrder α]

def coordinator (deployment : Deployment ctx) : Coordinator α where
  router := deployment.router
  topology := deployment.topology.map PhysicalCopy.client
  embedder := ctx.embedder
  unicode := ctx.unicode
  matched := by
    rw [← deployment.matched]
    simp [ClusterTopology.shardCount, ClusterTopology.map]

omit [Arith α] [LinearOrder α] in
theorem hasServingCopy_iff (copies : ShardCopies (PhysicalCopy ctx)) :
    HasServingCopy copies ↔ (copies.servingOrder.any PhysicalCopy.serving) = true := by
  simp only [HasServingCopy, List.any_eq_true, PhysicalCopy.serving_iff]

omit [Arith α] [LinearOrder α] in
theorem firstServing_eq_none_iff (copies : ShardCopies (PhysicalCopy ctx)) :
    firstServing copies = none ↔ ¬HasServingCopy copies := by
  rw [hasServingCopy_iff, firstServing, List.find?_eq_none, List.any_eq_true]
  push Not
  rfl

theorem pins {copies : ShardCopies (PhysicalCopy ctx)} {copy : PhysicalCopy ctx}
    (h : firstServing copies = some copy) (query : String) {limit : Int}
    (hlimit : 1 ≤ limit ∧ limit ≤ maxLimit) :
    Coordinator.Pins ctx query limit (copies.map PhysicalCopy.client) copy.rows := by
  obtain ⟨hserving, skipped, rest, horder, hskipped⟩ := List.find?_eq_some_iff_append.mp h
  have hclients : (copies.map PhysicalCopy.client).servingOrder =
      skipped.map PhysicalCopy.client ++ copy.client :: rest.map PhysicalCopy.client := by
    rw [ShardCopies.servingOrder_map, horder, List.map_append, List.map_cons]
  refine Coordinator.pins_of_first hclients ?_ (copy.serves hserving query hlimit)
  intro other ho terms
  obtain ⟨skip, hskip, rfl⟩ := List.mem_map.mp ho
  exact skip.refuses (by simpa using hskipped skip hskip) terms

theorem exhausted {copies : ShardCopies (PhysicalCopy ctx)} (h : firstServing copies = none)
    (terms : List String) :
    Coordinator.statsFromAnyCopy terms (copies.map PhysicalCopy.client) =
      .error (.shardCopiesExhausted copies.shardId) := by
  apply Coordinator.fromAnyCopy_exhausted
  rw [ShardCopies.servingOrder_map]
  intro client hm
  obtain ⟨copy, hcopy, rfl⟩ := List.mem_map.mp hm
  have hidle : copy.serving = false := by simpa using List.find?_eq_none.mp h copy hcopy
  obtain ⟨error, hrefused, hcluster⟩ := copy.refuses hidle terms
  exact ⟨error, by rw [hrefused]; rfl, hcluster⟩

theorem forall₂_pins {shards : List (ShardCopies (PhysicalCopy ctx))}
    (hall : ∀ copies ∈ shards, HasServingCopy copies) (query : String) {limit : Int}
    (hlimit : 1 ≤ limit ∧ limit ≤ maxLimit) :
    List.Forall₂ (Coordinator.Pins ctx query limit)
      (shards.map (ShardCopies.map PhysicalCopy.client))
      ((shards.filterMap firstServing).map PhysicalCopy.rows) := by
  induction shards with
  | nil => exact .nil
  | cons copies rest ih =>
      have hrest := ih fun other ho => hall other (.tail _ ho)
      cases hfirst : firstServing copies with
      | none =>
          exact absurd (hall copies (.head _)) ((firstServing_eq_none_iff copies).mp hfirst)
      | some copy =>
          rw [List.filterMap_cons_some hfirst]
          exact .cons (pins hfirst query hlimit) hrest

section Search

variable (deployment : Deployment ctx)

-- The corpora of the selected copies have no document in common.
def Disjoint : Prop :=
  (deployment.selected.map PhysicalCopy.rows).Pairwise fun rows others =>
    ∀ id, rows.contains id → others.contains id = false

-- One engine that indexes the documents of the selected copies and no others.
def singleEngine : SearchEngine α :=
  SearchEngine.indexAll ctx (deployment.selected.flatMap fun copy => copy.rows.values)

variable {deployment}

theorem search_of_available (hc : ctx.Contract) (hdisjoint : deployment.Disjoint)
    (hall : ∀ copies ∈ deployment.topology.shards, HasServingCopy copies) (query : String)
    {limit : Int} (hlimit : 1 ≤ limit ∧ limit ≤ maxLimit) :
    deployment.coordinator.search query limit =
      deployment.singleEngine.search ctx query limit none := by
  have hkeyed : ∀ rows ∈ deployment.selected.map PhysicalCopy.rows, ∀ id document,
      rows.get? id = some document → document.documentId = id := by
    intro rows hrows
    obtain ⟨copy, -, rfl⟩ := List.mem_map.mp hrows
    exact copy.engine.store.database.keyed
  have hwhole := partition_insertAll hkeyed hdisjoint
  rw [List.flatMap_map] at hwhole
  obtain ⟨hhealthy, hrows⟩ := SearchEngine.indexAll_healthy hc
    (deployment.selected.flatMap fun copy => copy.rows.values)
  rw [← hrows] at hwhole
  exact Coordinator.search_eq rfl (forall₂_pins hall query hlimit) hwhole (by omega)
    hhealthy.ready hhealthy.exact.derived

theorem search_of_unavailable {query : String} (hterms : Analysis.analyze ctx.unicode query ≠ [])
    (limit : Int) {shardId : Nat} {copies : ShardCopies (PhysicalCopy ctx)}
    (hget : deployment.topology.shards[shardId]? = some copies)
    (hidle : firstServing copies = none) :
    ∃ ids, deployment.coordinator.search query limit =
        .error (.distributedSearch "collecting corpus statistics" ids) ∧
      ids.Pairwise (· < ·) ∧
      ∀ id, id ∈ ids ↔ ∃ copies ∈ deployment.topology.shards,
        copies.shardId = id ∧ ¬HasServingCopy copies := by
  let terms := Coordinator.uniqueTerms (Analysis.analyze ctx.unicode query)
  let outcomes := deployment.coordinator.topology.shards.map (Coordinator.statsFromAnyCopy terms)
  have houtcome : ∀ id : Nat, outcomes[id]? = (deployment.topology.shards[id]?).map
      fun copies : ShardCopies (PhysicalCopy ctx) =>
        Coordinator.statsFromAnyCopy terms (copies.map PhysicalCopy.client) := by
    intro id
    simp [outcomes, coordinator, ClusterTopology.map, Function.comp_def]
  refine ⟨Coordinator.failedShards outcomes, ?_, Coordinator.failedShards_pairwise _, fun id => ?_⟩
  · have hfailed : outcomes[shardId]? = some (.error (.shardCopiesExhausted copies.shardId)) := by
      rw [houtcome, hget, Option.map_some, exhausted hidle]
    have hgather := Coordinator.gather_error "collecting corpus statistics" hfailed
    have hsearch : deployment.coordinator.search query limit =
        deployment.coordinator.searchLocked query terms limit := if_neg hterms
    rw [hsearch, Coordinator.searchLocked, Coordinator.selectAndCollect, hgather]
    rfl
  · rw [Coordinator.mem_failedShards, houtcome]
    constructor
    · rintro ⟨error, hfailed⟩
      obtain ⟨other, hother, hstats⟩ := Option.map_eq_some_iff.mp hfailed
      refine ⟨other, List.mem_of_getElem? hother, deployment.topology.getElem?_shardId hother, ?_⟩
      rw [← firstServing_eq_none_iff]
      cases hfirst : firstServing other with
      | none => rfl
      | some copy =>
          have hpinned := pins hfirst query (show 1 ≤ (1 : Int) ∧ 1 ≤ maxLimit by decide)
          obtain ⟨client, hanswered, -⟩ := hpinned
          rw [hanswered] at hstats
          cases hstats
    · rintro ⟨other, hmem, rfl, hnone⟩
      obtain ⟨index, hother⟩ := List.mem_iff_getElem?.mp hmem
      have hfirst := (firstServing_eq_none_iff other).mpr hnone
      rw [deployment.topology.getElem?_shardId hother, hother, Option.map_some, exhausted hfirst]
      exact ⟨_, rfl⟩

theorem shardHasServingCopy_eq (copies : List (PhysicalCopy ctx)) :
    Coordinator.shardHasServingCopy (copies.map PhysicalCopy.client) =
      .ok (copies.any PhysicalCopy.serving) := by
  induction copies with
  | nil => rfl
  | cons copy rest ih =>
      rw [List.map_cons, Coordinator.shardHasServingCopy, copy.isReady, List.any_cons]
      cases copy.serving with
      | true => rfl
      | false => exact ih

theorem readiness_ready_iff : deployment.coordinator.readiness.ready = true ↔
    ∀ copies ∈ deployment.topology.shards, HasServingCopy copies := by
  rw [Coordinator.readiness_ready]
  simp only [coordinator, ClusterTopology.map, List.forall_mem_map, ShardCopies.servingOrder_map,
    shardHasServingCopy_eq, hasServingCopy_iff]
  refine forall₂_congr fun copies _ => ?_
  cases copies.servingOrder.any PhysicalCopy.serving <;> simp [Coordinator.outcomeReady]

theorem searchAvailable_iff : deployment.coordinator.clusterStatus.searchAvailable = true ↔
    ∀ copies ∈ deployment.topology.shards, HasServingCopy copies := by
  have hshard : ∀ copies : ShardCopies (PhysicalCopy ctx),
      (Coordinator.shardHealth (copies.map PhysicalCopy.client)).searchAvailable =
        copies.servingOrder.any PhysicalCopy.serving := by
    intro copies
    simp [Coordinator.shardHealth, ShardCopies.map, ShardCopies.servingOrder,
      PhysicalCopy.copyStatus_ready, Function.comp_def]
  simp only [Coordinator.clusterStatus, coordinator, ClusterTopology.map, List.map_map,
    List.all_map, List.all_eq_true, Function.comp_apply, hshard, hasServingCopy_iff]

-- A search is answered exactly when every shard has a copy that serves, which is what the
-- probe and the status report say. The answer is the one of a single engine over the selected
-- corpora, and the refusal names the shards that have no such copy.
theorem search_all_or_nothing (hc : ctx.Contract) (deployment : Deployment ctx)
    (hdisjoint : deployment.Disjoint) (query : String)
    (hterms : Analysis.analyze ctx.unicode query ≠ []) (limit : Int)
    (hlimit : 1 ≤ limit ∧ limit ≤ 100) :
    let available := ∀ copies ∈ deployment.topology.shards, HasServingCopy copies
    ((∃ results, deployment.coordinator.search query limit = .ok results) ↔ available) ∧
    (deployment.coordinator.readiness.ready = true ↔ available) ∧
    (deployment.coordinator.clusterStatus.searchAvailable = true ↔ available) ∧
    (available → deployment.coordinator.search query limit =
      deployment.singleEngine.search ctx query limit none) ∧
    (¬available → ∃ action ids,
      deployment.coordinator.search query limit = .error (.distributedSearch action ids) ∧
      ids.Pairwise (· < ·) ∧
      ∀ id, id ∈ ids ↔ ∃ copies ∈ deployment.topology.shards,
        copies.shardId = id ∧ ¬HasServingCopy copies) := by
  intro available
  have hanswered : available → deployment.coordinator.search query limit =
      deployment.singleEngine.search ctx query limit none :=
    fun hall => search_of_available hc hdisjoint hall query hlimit
  have hrefused : ¬available → ∃ ids, deployment.coordinator.search query limit =
        .error (.distributedSearch "collecting corpus statistics" ids) ∧
      ids.Pairwise (· < ·) ∧
      ∀ id, id ∈ ids ↔ ∃ copies ∈ deployment.topology.shards,
        copies.shardId = id ∧ ¬HasServingCopy copies := by
    intro hnot
    simp only [available, not_forall] at hnot
    obtain ⟨copies, hm, hnone⟩ := hnot
    obtain ⟨shardId, hget⟩ := List.mem_iff_getElem?.mp hm
    exact search_of_unavailable hterms limit hget ((firstServing_eq_none_iff copies).mpr hnone)
  refine ⟨⟨?_, ?_⟩, readiness_ready_iff, searchAvailable_iff, hanswered, ?_⟩
  · rintro ⟨results, hok⟩
    by_contra hnot
    obtain ⟨ids, herror, -⟩ := hrefused hnot
    rw [hok] at herror
    cases herror
  · intro hall
    obtain ⟨hhealthy, -⟩ := SearchEngine.indexAll_healthy hc
      (deployment.selected.flatMap fun copy => copy.rows.values)
    obtain ⟨results, htotal⟩ :=
      SearchEngine.search_total hhealthy.ready hhealthy.exact.derived query limit
    exact ⟨results, (hanswered hall).trans htotal⟩
  · intro hnot
    obtain ⟨ids, hids⟩ := hrefused hnot
    exact ⟨_, ids, hids⟩

end Search

section Example

attribute [local instance] rationalArith

def sampleContext : EngineContext ℚ := ⟨.ascii, defaultBM25Params, some .constant⟩

theorem sampleContext_contract : sampleContext.Contract :=
  EngineContext.contract_of_some rfl Embedder.constant_contract

def servingCopy (documents : List Document) : PhysicalCopy sampleContext where
  settings := ⟨"", "serving", 0, "replica"⟩
  failure := none
  engine := SearchEngine.indexAll sampleContext documents
  exact _ := (SearchEngine.indexAll_healthy sampleContext_contract documents).1.exact

def lostCopy : PhysicalCopy sampleContext where
  settings := ⟨"", "lost", 0, "primary"⟩
  failure := some .timeout
  engine := .new sampleContext (.openDatabase .empty)
  exact h := by cases h

-- Two shards, the first of which has lost its primary.
def lostPrimary : Deployment sampleContext where
  router := twoShards
  topology := ClusterTopology.ofGroups [(lostCopy, [servingCopy [redFox]]), (servingCopy [red], [])]
  matched := rfl

theorem servingCopy_serving (documents : List Document) : (servingCopy documents).serving :=
  (PhysicalCopy.serving_iff _).mpr
    ⟨rfl, (SearchEngine.indexAll_healthy sampleContext_contract documents).1.ready⟩

theorem lostPrimary_disjoint : lostPrimary.Disjoint := by
  have hfirst : firstServing ⟨0, lostCopy, [servingCopy [redFox]]⟩ =
      some (servingCopy [redFox]) := by
    have hlost : lostCopy.serving = false := rfl
    simp [firstServing, ShardCopies.servingOrder, hlost, servingCopy_serving]
  have hsecond : firstServing ⟨1, servingCopy [red], []⟩ = some (servingCopy [red]) := by
    simp [firstServing, ShardCopies.servingOrder, servingCopy_serving]
  have hselected : lostPrimary.selected = [servingCopy [redFox], servingCopy [red]] := by
    show List.filterMap firstServing
      [⟨0, lostCopy, [servingCopy [redFox]]⟩, ⟨1, servingCopy [red], []⟩] = _
    rw [List.filterMap_cons_some hfirst, List.filterMap_cons_some hsecond, List.filterMap_nil]
  have hrows : ∀ documents, (servingCopy documents).rows = Database.insertAll documents :=
    fun documents => (SearchEngine.indexAll_healthy sampleContext_contract documents).2
  simp only [Disjoint, hselected, List.map_cons, List.map_nil, hrows, List.pairwise_cons]
  simp [Database.insertAll, Dict.contains, Dict.get?_set, redFox, red]

theorem lostPrimary_search :
    (∃ results, lostPrimary.coordinator.search "red" 1 = .ok results) ∧
      lostPrimary.coordinator.search "red" 1 =
        lostPrimary.singleEngine.search sampleContext "red" 1 none := by
  have havailable : ∀ copies ∈ lostPrimary.topology.shards, HasServingCopy copies := by
    simp [lostPrimary, ClusterTopology.ofGroups, hasServingCopy_iff, ShardCopies.servingOrder,
      servingCopy_serving]
  have h := search_all_or_nothing sampleContext_contract lostPrimary lostPrimary_disjoint "red"
    (by decide) 1 (by decide)
  exact ⟨h.1.mpr havailable, h.2.2.2.1 havailable⟩

end Example

end Deployment

end PySearch
