import PySearch.Api.Public
import PySearch.Cluster.Coordinator.IndexStats

namespace PySearch

open Api
open SearchEngine (Healthy)

variable {α : Type}

namespace Api

-- What a client of either kind of process relies on. The number of the shard, the lines of
-- the single shards, the size of the vocabulary, the explanation of a readiness probe and
-- the name of the process that has no embedder are left out.
def Body.view : Body α → Body α
  | .document documentId created _ => .document documentId created none
  | .indexStats documentCount _ averageDocumentLength =>
      .clusterStats ⟨documentCount, averageDocumentLength, 0, []⟩
  | .clusterStats stats => .clusterStats ⟨stats.documentCount, stats.averageDocumentLength, 0, []⟩
  | .readiness status _ => .readiness status ""
  | .raised (.semanticDisabled _) => .raised (.semanticDisabled "")
  | body => body

-- The identifier that a request writes to.
def Request.documentId? : Request → Option String
  | .putDocument documentId _ | .deleteDocument documentId => some documentId
  | _ => none

def Response.view (response : Response α) : Response α := ⟨response.status, response.body.view⟩

theorem view_withLimit {limit : Option Int} {route other : Int → Response α}
    (h : ∀ limit, 1 ≤ limit ∧ limit ≤ maxLimit → (route limit).view = (other limit).view) :
    (withLimit limit route).view = (withLimit limit other).view := by
  unfold withLimit
  dsimp only
  split
  · rename_i hlimit
    exact h _ hlimit
  · rfl

theorem map_injective {β γ : Type} {f : β → γ} (hf : Function.Injective f)
    {result other : Except PyError β} (h : result.map f = other.map f) : result = other := by
  cases result <;> cases other <;> simp_all [Except.map]
  exact hf h

end Api

namespace Cluster

variable [Arith α] [LinearOrder α] {ctx : EngineContext α} {router : ShardRouter}
  {links : Nat → Link} {cluster : Cluster α} {single : SearchEngine α}

section Queries

variable {query : String} {limit : Int}

theorem Refines.forall₂_pins (h : Refines ctx router links cluster single)
    (hlimit : 1 ≤ limit ∧ limit ≤ PySearch.maxLimit) :
    List.Forall₂ (Coordinator.Pins ctx query limit)
      (cluster.coordinator ctx).topology.shards cluster.corpora := by
  apply forall₂_shards
  intro shardId engine hget
  have hengine := h.shards engine (List.mem_of_getElem? hget)
  exact Coordinator.pins_of_primary
    (serves_link _ hengine.ready hengine.exact.derived query hlimit)

theorem Refines.forall₂_answers {embedder : Embedder α}
    (h : Refines ctx router links cluster single) (he : ctx.embedder = some embedder)
    (hc : embedder.Contract) (hlimit : 1 ≤ limit ∧ limit ≤ PySearch.maxLimit) :
    List.Forall₂ (Coordinator.Answers embedder (embedder.embedQuery query) limit)
      (cluster.coordinator ctx).topology.shards cluster.corpora := by
  apply forall₂_shards
  intro shardId engine hget
  have hengine := h.shards engine (List.mem_of_getElem? hget)
  exact Coordinator.answers_of_primary
    (semanticSearch_link _ hengine.ready hengine.exact.derived he hc query hlimit)

theorem Refines.search_view (h : Refines ctx router links cluster single)
    (hlimit : 1 ≤ limit ∧ limit ≤ maxLimit) :
    (cluster.coordinator ctx).search query limit = single.search ctx query limit none :=
  Coordinator.search_eq rfl (h.forall₂_pins hlimit) h.partition (by omega) h.whole.ready
    h.whole.exact.derived

theorem Refines.semantic_view (hc : ctx.Contract) (h : Refines ctx router links cluster single)
    (hlimit : 1 ≤ limit ∧ limit ≤ maxLimit) :
    (respond (searchResponse query) ((cluster.coordinator ctx).semanticSearch query limit)).view =
      (respond (searchResponse query) do
        single.semanticSearch (← SearchEngine.embedQuery ctx query false) limit).view := by
  cases he : ctx.embedder with
  | none =>
      have hcoordinator : (cluster.coordinator ctx).embedder = none := he
      simp only [Coordinator.semanticSearch, hcoordinator, SearchEngine.embedQuery, he]
      rfl
  | some embedder =>
      rw [Coordinator.semanticSearch_eq he he (hc embedder he)
        (h.forall₂_answers he (hc embedder he) hlimit) h.partition hlimit.1 h.whole.ready
        h.whole.exact.derived]
      simp only [SearchEngine.embedQuery, he]
      rfl

theorem Refines.hybrid_view (hc : ctx.Contract) (h : Refines ctx router links cluster single)
    (explain : Bool) (hlimit : 1 ≤ limit ∧ limit ≤ maxLimit) :
    (respond (toResponse query explain)
        ((cluster.coordinator ctx).hybridSearch query limit .default)).view =
      (respond (toResponse query explain) (single.hybridSearch ctx query limit .default)).view := by
  cases he : ctx.embedder with
  | none =>
      have hcoordinator : (cluster.coordinator ctx).embedder = none := he
      have hunicode : (cluster.coordinator ctx).unicode = ctx.unicode := rfl
      by_cases hterms : Analysis.analyze ctx.unicode query = []
      · simp only [Coordinator.hybridSearch, SearchEngine.hybridSearch,
          SearchEngine.hybridSearchWith, hunicode, hterms, if_true]
      · simp only [Coordinator.hybridSearch, SearchEngine.hybridSearch,
          SearchEngine.hybridSearchWith, hunicode, hterms, if_false, hcoordinator, he]
        rfl
  | some embedder =>
      have hbounds := candidateDepth_bounds .default hlimit.1 (by decide)
      rw [Coordinator.hybridSearch_eq rfl he he (hc embedder he) (h.forall₂_pins hbounds)
        (h.forall₂_answers he (hc embedder he) hbounds) h.partition hbounds.1 h.whole.ready
        h.whole.exact.derived]

end Queries

-- The figures of the cluster are those of the single index.
theorem Refines.stats_view (h : Refines ctx router links cluster single) :
    (respond (fun stats => (⟨200, .clusterStats stats⟩ : Response α))
        (cluster.coordinator ctx).indexStats).view =
      (respond (fun stats => ⟨200, .indexStats stats.documentCount stats.uniqueTermCount
        stats.averageDocumentLength⟩) single.stats).view := by
  have hreports : List.Forall₂ (Coordinator.Reports ctx)
      (cluster.coordinator ctx).topology.shards cluster.corpora := by
    apply forall₂_shards
    intro shardId engine hget
    have hengine := h.shards engine (List.mem_of_getElem? hget)
    have hstats := SearchEngine.stats_eq hengine.ready hengine.exact.derived
    rw [Coordinator.Reports, Coordinator.indexStatsFromAnyCopy, ShardCopies.servingOrder,
      Coordinator.fromAnyCopy]
    cases cluster.links shardId with
    | direct => simp only [Link.client, ShardClient.direct, hstats]
    | http stack settings =>
        simp only [Link.client, ShardClient.http, hstats]
        rfl
  rw [Coordinator.indexStats_eq hreports h.partition,
    SearchEngine.stats_eq h.whole.ready h.whole.exact.derived]
  rfl

theorem Refines.ready_view (h : Refines ctx router links cluster single) :
    (cluster.coordinator ctx).readiness.ready = true ∧ single.status.ready = true := by
  refine ⟨(Coordinator.readiness_ready _).mpr fun copies hcopies => ?_, by
    simp [SearchEngine.status, h.whole.ready]⟩
  have hready : List.Forall₂ (fun copies _ =>
        Coordinator.outcomeReady (Coordinator.shardHasServingCopy copies.servingOrder) = true)
      (cluster.coordinator ctx).topology.shards cluster.corpora := by
    apply forall₂_shards
    intro shardId engine hget
    have hengine := h.shards engine (List.mem_of_getElem? hget)
    have hanswer : ((cluster.links shardId).client ctx engine).isReady = .ok true := by
      cases cluster.links shardId with
      | direct => simp [Link.client, ShardClient.direct, SearchEngine.status, hengine.ready]
      | http stack settings =>
          simp [Link.client, ShardClient.http, Transport.all, SearchEngine.status, hengine.ready]
    rw [ShardCopies.servingOrder, Coordinator.shardHasServingCopy, hanswer]
    rfl
  obtain ⟨index, hindex⟩ := List.mem_iff_getElem?.mp hcopies
  obtain ⟨hlt, rfl⟩ := List.getElem?_eq_some_iff.mp hindex
  exact (List.forall₂_iff_get.mp hready).2 index hlt (by rw [← hready.length_eq]; exact hlt)

-- One request keeps the cluster a refinement, and the two answers look alike.
theorem Refines.serve (hc : ctx.Contract) (h : Refines ctx router links cluster single)
    (request : Request) (hcarried : ∀ documentId, request.documentId? = some documentId →
      (links (router.shardFor documentId)).Carries documentId) :
    (cluster.serve ctx request).1.view = (single.serve ctx .none request).1.view ∧
      Refines ctx router links (cluster.serve ctx request).2
        (single.serve ctx .none request).2 := by
  cases request with
  | putDocument documentId text =>
      simp only [Cluster.serve, SearchEngine.serve]
      cases hdocument : Document.create documentId text with
      | error error => exact ⟨rfl, h⟩
      | ok document =>
          dsimp only
          have hid : document.documentId = documentId := Document.create_documentId hdocument
          obtain ⟨hanswer, hnext⟩ := @Refines.write _ _ _ _ _ _ _ _ hc h (.put document)
            (hcarried _ (congrArg some hid.symm))
          simp only [Cluster.write, Shard.commit] at hanswer hnext
          generalize cluster.indexDocument ctx document = routed at hanswer hnext ⊢
          generalize single.indexDocument ctx document .none = direct at hanswer hnext ⊢
          obtain ⟨result, after⟩ := routed
          obtain ⟨outcome, engine⟩ := direct
          obtain rfl : result = outcome := map_injective (Option.some_injective _) hanswer
          exact ⟨by cases result <;> rfl, hnext⟩
  | deleteDocument documentId =>
      obtain ⟨hanswer, hnext⟩ := @Refines.write _ _ _ _ _ _ _ _ hc h (.delete documentId)
        (hcarried documentId rfl)
      simp only [Cluster.write, Shard.commit] at hanswer hnext
      simp only [Cluster.serve, SearchEngine.serve]
      generalize cluster.deleteDocument documentId = routed at hanswer hnext ⊢
      generalize single.deleteDocument documentId .none = direct at hanswer hnext ⊢
      obtain ⟨result, after⟩ := routed
      obtain ⟨outcome, engine⟩ := direct
      obtain rfl : result = outcome :=
        map_injective (fun _ _ _ => Subsingleton.elim _ _) hanswer
      exact ⟨rfl, hnext⟩
  | search q limit =>
      refine ⟨view_withLimit fun limit hlimit => ?_, h⟩
      rw [h.search_view hlimit]
  | semanticSearch q limit =>
      exact ⟨view_withLimit fun limit hlimit => h.semantic_view hc hlimit, h⟩
  | hybridSearch q limit explain =>
      exact ⟨view_withLimit fun limit hlimit => h.hybrid_view hc _ hlimit, h⟩
  | indexStats => exact ⟨h.stats_view, h⟩
  | health => exact ⟨rfl, h⟩
  | ready =>
      obtain ⟨hcluster, hsingle⟩ := h.ready_view
      simp only [Cluster.serve, SearchEngine.serve, hcluster, hsingle, readinessResponse]
      exact ⟨rfl, h⟩

section Example

attribute [local instance] rationalArith

end Example

end Cluster

end PySearch
