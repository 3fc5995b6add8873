import PySearch.Cluster.Client
import PySearch.Cluster.Node.Theorems
import PySearch.Search.Engine.Answers

namespace PySearch

variable {α : Type}

namespace HttpShardClient

variable {β : Type} {baseUrl : String} {failure : Option TransportFailure}

theorem request_ok {response : Except Nat β} {value : β}
    (h : request baseUrl failure response = .ok value) : failure = none ∧ response = .ok value := by
  unfold request at h
  split at h <;> cases h
  exact ⟨rfl, rfl⟩

theorem respond_ok {result : Except PyError β} {value : β} (h : respond result = .ok value) :
    result = .ok value := by
  cases result <;> cases h
  rfl

end HttpShardClient

namespace Node

variable [Arith α] [LinearOrder α] (ctx : EngineContext α) (settings : NodeSettings)
  (transport : Transport)

-- The coordinator's client for a node. Without a process that has finished starting up, no
-- request gets through.
def client : Node α → ShardClient α
  | up engine .serving _ => .http ctx settings transport engine
  | node => .http ctx settings (.all (some .unreachable)) (.new ctx (.openDatabase node.database))

-- The node's engine, if it answers questions.
def serving : Node α → Option (SearchEngine α)
  | up engine .serving _ => if engine.state = .ready then some engine else none
  | _ => none

variable {ctx settings transport} {node : Node α}

omit [Arith α] [LinearOrder α] in
theorem serving_some {engine : SearchEngine α} (h : node.serving = some engine) :
    ∃ resyncs, node = up engine .serving resyncs ∧ engine.state = .ready := by
  unfold serving at h
  split at h
  · split at h
    · rename_i hready
      cases h
      exact ⟨_, rfl, hready⟩
    · cases h
  · cases h

omit [Arith α] [LinearOrder α] in
theorem serving_exact {engine : SearchEngine α} (hs : node.Sound ctx)
    (h : node.serving = some engine) : engine.derived.Exact ctx node.database.rows := by
  obtain ⟨resyncs, rfl, hready⟩ := serving_some h
  exact (hs (.inl hready)).derived

omit [Arith α] [LinearOrder α] in
-- A question that needs a ready engine is answered by such an engine or not at all.
theorem serving_of_operational {engine : SearchEngine α} {resyncs : List Resync}
    (h : engine.requireOperational = .ok ()) :
    (up engine .serving resyncs).serving = some engine :=
  if_pos (SearchEngine.requireOperational_ok h)

section Answers

variable {terms : List String} {query : String} {limit : Int}

-- Statistics come from a node that serves, and describe its rows.
theorem corpusStats_ok_iff (hs : node.Sound ctx) {stats : CorpusStats} :
    (node.client ctx settings transport).corpusStats terms = .ok stats ↔
      (∃ engine, node.serving = some engine) ∧ transport.corpusStats = none ∧
        stats = ctx.statistics node.database.rows terms := by
  constructor
  · intro h
    unfold client at h
    split at h
    · rename_i engine resyncs
      obtain ⟨hfailure, hresponse⟩ := HttpShardClient.request_ok h
      have hanswer := HttpShardClient.respond_ok hresponse
      obtain ⟨_, hoperational, -⟩ := bind_ok hanswer
      have hserving := @serving_of_operational _ engine resyncs hoperational
      have hready := SearchEngine.requireOperational_ok hoperational
      have heq := SearchEngine.corpusStats_eq hready (serving_exact hs hserving) terms
      rw [hanswer] at heq
      exact ⟨⟨engine, hserving⟩, hfailure, Except.ok.inj heq⟩
    · have hrefused : (Except.error _ : Except PyError CorpusStats) = .ok stats := h
      cases hrefused
  · rintro ⟨⟨engine, hserving⟩, hfailure, rfl⟩
    have hexact := serving_exact hs hserving
    obtain ⟨resyncs, rfl, hready⟩ := serving_some hserving
    simp only [client, ShardClient.http, hfailure, SearchEngine.corpusStats_eq hready hexact]
    rfl

theorem search_ok (hs : node.Sound ctx) {stats : CorpusStats} {results : SearchResults α}
    (h : (node.client ctx settings transport).search query limit stats = .ok results) :
    1 ≤ limit ∧ results = answer (ctx.lexicalHits node.database.rows
      (Analysis.analyze ctx.unicode query) stats) limit := by
  unfold client at h
  split at h
  · rename_i engine resyncs
    obtain ⟨-, hresponse⟩ := HttpShardClient.request_ok h
    unfold HttpShardClient.respondWithin at hresponse
    split at hresponse
    · rename_i hlimit
      have hanswer := HttpShardClient.respond_ok hresponse
      obtain ⟨_, hoperational, -⟩ := bind_ok hanswer
      have hserving := @serving_of_operational _ engine resyncs hoperational
      have hready := SearchEngine.requireOperational_ok hoperational
      have heq := SearchEngine.search_eq hready (serving_exact hs hserving) query limit stats
      rw [hanswer] at heq
      exact ⟨hlimit.1, Except.ok.inj heq⟩
    · cases hresponse
  · have hrefused : (Except.error _ : Except PyError (SearchResults α)) = .ok results := h
    cases hrefused

-- Similarities come from a node that serves and embeds alike, and rank its rows.
theorem semanticSearch_ok_iff (hs : node.Sound ctx) {embedder : Embedder α}
    (he : ctx.embedder = some embedder) (hc : embedder.Contract) {results : SearchResults α} :
    (node.client ctx settings transport).semanticSearch (embedder.embedQuery query) limit
        embedder.identity = .ok results ↔
      (∃ engine, node.serving = some engine) ∧ transport.semanticSearch = none ∧
        (1 ≤ limit ∧ limit ≤ maxLimit) ∧
        results = answer (embedder.semanticHits node.database.rows
          (embedder.embedQuery query)) limit := by
  constructor
  · intro h
    unfold client at h
    split at h
    · rename_i engine resyncs
      obtain ⟨hfailure, hresponse⟩ := HttpShardClient.request_ok h
      unfold HttpShardClient.semanticRoute at hresponse
      split at hresponse
      · rename_i hlimit
        simp only [he, SemanticIdentity.isCompatibleWith, decide_true, if_true] at hresponse
        have hanswer := HttpShardClient.respond_ok hresponse
        obtain ⟨_, hoperational, -⟩ := bind_ok hanswer
        have hserving := @serving_of_operational _ engine resyncs hoperational
        have hready := SearchEngine.requireOperational_ok hoperational
        have heq := SearchEngine.semanticSearch_eq hready (serving_exact hs hserving) he
          (hc.queries query) hlimit.1
        rw [hanswer] at heq
        exact ⟨⟨engine, hserving⟩, hfailure, hlimit, Except.ok.inj heq⟩
      · cases hresponse
    · have hrefused : (Except.error _ : Except PyError (SearchResults α)) = .ok results := h
      cases hrefused
  · rintro ⟨⟨engine, hserving⟩, hfailure, hlimit, rfl⟩
    have hexact := serving_exact hs hserving
    obtain ⟨resyncs, rfl, hready⟩ := serving_some hserving
    simp only [client, ShardClient.http, hfailure, HttpShardClient.semanticRoute, hlimit, and_self,
      if_true, he, SemanticIdentity.isCompatibleWith, decide_true,
      SearchEngine.semanticSearch_eq hready hexact he (hc.queries query) hlimit.1]
    rfl

end Answers

end Node

end PySearch
