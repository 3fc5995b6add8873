import PySearch.Cluster.Coordinator.Merge

namespace PySearch.Coordinator

variable {α : Type}

section Gather

variable {β : Type}

theorem gather_ok (action : String) (results : List β) :
    gather action (results.map .ok) = .ok results := by
  have hfailed : failedShards (results.map (Except.ok (ε := PyError))) = [] := by
    rw [failedShards, List.filterMap_eq_nil_iff]
    rintro ⟨outcome, shardId⟩ hm
    obtain ⟨result, -, rfl⟩ := List.mem_map.mp (List.fst_mem_of_mem_zipIdx hm)
    rfl
  rw [gather, hfailed, if_pos rfl, List.filterMap_map]
  simp

theorem gather_ok_iff {action : String} {outcomes : List (Except PyError β)} {results : List β} :
    gather action outcomes = .ok results ↔ outcomes = results.map .ok := by
  constructor
  · intro h
    unfold gather at h
    dsimp only at h
    split at h
    · rename_i hfailed
      rw [failedShards, List.filterMap_eq_nil_iff] at hfailed
      rw [← Except.ok.inj h]
      clear h
      have hall : ∀ outcome ∈ outcomes, ∃ result, outcome = .ok result := by
        intro outcome hm
        obtain ⟨shardId, hget⟩ := List.mem_iff_getElem?.mp hm
        have hz := List.mk_mem_zipIdx_iff_getElem?.mpr hget
        cases outcome with
        | error error => simpa using hfailed (.error error, shardId) hz
        | ok result => exact ⟨result, rfl⟩
      clear hfailed
      induction outcomes with
      | nil => rfl
      | cons outcome rest ih =>
          obtain ⟨result, rfl⟩ := hall outcome (.head _)
          simp only [List.filterMap_cons, List.map_cons, List.cons.injEq, true_and]
          exact ih fun other ho => hall other (.tail _ ho)
    · cases h
  · rintro rfl
    exact gather_ok action results

theorem mem_failedShards {outcomes : List (Except PyError β)} {shardId : Nat} :
    shardId ∈ failedShards outcomes ↔ ∃ error, outcomes[shardId]? = some (.error error) := by
  simp only [failedShards, List.mem_filterMap]
  constructor
  · rintro ⟨⟨outcome, index⟩, hm, hf⟩
    have hget := List.mk_mem_zipIdx_iff_getElem?.mp hm
    cases outcome with
    | ok result => cases hf
    | error error =>
        cases hf
        exact ⟨error, hget⟩
  · rintro ⟨error, hget⟩
    exact ⟨(.error error, shardId), List.mk_mem_zipIdx_iff_getElem?.mpr hget, rfl⟩

-- The failed shards are reported in ascending order.
theorem failedShards_pairwise (outcomes : List (Except PyError β)) :
    (failedShards outcomes).Pairwise (· < ·) := by
  rw [failedShards, List.pairwise_filterMap, List.pairwise_iff_getElem]
  intro i j hi hj hij shardId hf other hf'
  simp only [List.getElem_zipIdx, Nat.zero_add] at hf hf'
  split at hf
  · split at hf'
    · rename_i hfirst _ _ _ hsecond
      cases hf
      cases hf'
      have hi' := (Prod.mk.inj hfirst).2
      have hj' := (Prod.mk.inj hsecond).2
      omega
    · cases hf'
  · cases hf

theorem gather_error {outcomes : List (Except PyError β)} {shardId : Nat} {error : PyError}
    (action : String) (h : outcomes[shardId]? = some (.error error)) :
    gather action outcomes = .error (.distributedSearch action (failedShards outcomes)) := by
  have hm : shardId ∈ failedShards outcomes := mem_failedShards.mpr ⟨error, h⟩
  exact if_neg (List.ne_nil_of_mem hm)

end Gather

-- The probe reports ready when no shard is left out.
theorem readiness_ready (coordinator : Coordinator α) : coordinator.readiness.ready = true ↔
    ∀ copies ∈ coordinator.topology.shards,
      outcomeReady (shardHasServingCopy copies.servingOrder) = true := by
  unfold readiness
  dsimp only
  rw [decide_eq_true_iff, List.filterMap_eq_nil_iff]
  constructor
  · intro h copies hm
    obtain ⟨shardId, hget⟩ := List.mem_iff_getElem?.mp hm
    have hz := h (shardHasServingCopy copies.servingOrder, shardId)
      (List.mk_mem_zipIdx_iff_getElem?.mpr (by rw [List.getElem?_map, hget]; rfl))
    by_contra hnot
    simp [hnot] at hz
  · rintro h ⟨outcome, shardId⟩ hm
    obtain ⟨copies, hcopies, rfl⟩ := List.mem_map.mp (List.fst_mem_of_mem_zipIdx hm)
    exact if_pos (h copies hcopies)

section Selection

variable [Arith α] [LinearOrder α] {ctx : EngineContext α} {coordinator : Coordinator α}

-- One copy of the shard answers the statistics request, and that copy answers both rounds
-- from the given rows.
def Pins (ctx : EngineContext α) (query : String) (limit : Int)
    (copies : ShardCopies (ShardClient α)) (rows : Dict String Document) : Prop :=
  ∃ client, (∀ terms, statsFromAnyCopy terms copies =
      .ok (client, ctx.statistics rows terms)) ∧
    ∀ stats, client.search query limit stats =
      .ok (answer (ctx.lexicalHits rows (Analysis.analyze ctx.unicode query) stats) limit)

-- One copy of the shard answers the semantic request, from the given rows.
def Answers (embedder : Embedder α) (vector : List α) (limit : Int)
    (copies : ShardCopies (ShardClient α)) (rows : Dict String Document) : Prop :=
  semanticFromAnyCopy vector limit embedder.identity copies =
    .ok (answer (embedder.semanticHits rows vector) limit)

omit [Arith α] [LinearOrder α] in
-- The first copy that does not fail with a `ClusterError` decides.
theorem fromAnyCopy_of_first {β : Type} {shardId : Nat} {ask : ShardClient α → Except PyError β}
    {skipped : List (ShardClient α)} {client : ShardClient α} {rest : List (ShardClient α)}
    (hskipped : ∀ other ∈ skipped, ∃ error, ask other = .error error ∧ error.isClusterError)
    {value : β} (hclient : ask client = .ok value) :
    fromAnyCopy shardId ask (skipped ++ client :: rest) = .ok value := by
  induction skipped with
  | nil => rw [List.nil_append, fromAnyCopy, hclient]
  | cons other skipped ih =>
      obtain ⟨error, hfailed, hcluster⟩ := hskipped other (.head _)
      rw [List.cons_append, fromAnyCopy, hfailed]
      simp only [hcluster, if_true]
      exact ih fun other ho => hskipped other (.tail _ ho)

omit [Arith α] [LinearOrder α] in
-- An answer is the one of the first copy that gives any.
theorem fromAnyCopy_ok {ι β : Type} {shardId : Nat} {ask : ShardClient α → Except PyError β}
    (client : ι → ShardClient α) {items : List ι} {value : β}
    (h : fromAnyCopy shardId ask (items.map client) = .ok value) :
    ∃ item, items.find? (fun item => (ask (client item)).isOk) = some item ∧
      ask (client item) = .ok value := by
  induction items with
  | nil => cases h
  | cons item rest ih =>
      rw [List.map_cons, fromAnyCopy] at h
      cases hask : ask (client item) with
      | ok answer =>
          rw [hask] at h
          exact ⟨item, by simp [hask, Except.isOk, Except.toBool], hask.trans h⟩
      | error error =>
          rw [hask] at h
          dsimp only at h
          split at h
          · obtain ⟨found, hfind, hfound⟩ := ih h
            refine ⟨found, ?_, hfound⟩
            rw [List.find?_cons_of_neg (by simp [hask, Except.isOk, Except.toBool]), hfind]
          · cases h

omit [Arith α] [LinearOrder α] in
theorem fromAnyCopy_exhausted {β : Type} {shardId : Nat} {ask : ShardClient α → Except PyError β}
    {clients : List (ShardClient α)}
    (h : ∀ client ∈ clients, ∃ error, ask client = .error error ∧ error.isClusterError) :
    fromAnyCopy shardId ask clients = .error (.shardCopiesExhausted shardId) := by
  induction clients with
  | nil => rfl
  | cons client rest ih =>
      obtain ⟨error, hfailed, hcluster⟩ := h client (.head _)
      rw [fromAnyCopy, hfailed]
      simp only [hcluster, if_true]
      exact ih fun other ho => h other (.tail _ ho)

-- The copy answers both rounds from the given rows.
structure Serves (ctx : EngineContext α) (query : String) (limit : Int) (client : ShardClient α)
    (rows : Dict String Document) : Prop where
  corpusStats : ∀ terms, client.corpusStats terms = .ok (ctx.statistics rows terms)
  search : ∀ stats, client.search query limit stats =
    .ok (answer (ctx.lexicalHits rows (Analysis.analyze ctx.unicode query) stats) limit)

section Clients

variable {engine : SearchEngine α} {rows : Dict String Document}

theorem serves_direct (hready : engine.state = .ready) (hexact : engine.derived.Exact ctx rows)
    (query : String) (limit : Int) :
    Serves ctx query limit (.direct ctx engine) rows :=
  ⟨SearchEngine.corpusStats_eq hready hexact, SearchEngine.search_eq hready hexact query limit⟩

-- A healthy node that can be reached answers what its engine answers.
theorem serves_http (hready : engine.state = .ready) (hexact : engine.derived.Exact ctx rows)
    (settings : NodeSettings) (query : String) {limit : Int} (hlimit : 1 ≤ limit ∧ limit ≤ maxLimit) :
    Serves ctx query limit (.http ctx settings (.all none) engine) rows := by
  refine ⟨fun terms => ?_, fun stats => ?_⟩
  · simp only [ShardClient.http, SearchEngine.corpusStats_eq hready hexact]
    rfl
  · simp only [ShardClient.http, SearchEngine.search_eq hready hexact,
      HttpShardClient.respondWithin, hlimit, and_self, if_true]
    rfl

end Clients

theorem pins_of_first {query : String} {limit : Int} {copies : ShardCopies (ShardClient α)}
    {skipped rest : List (ShardClient α)} {client : ShardClient α} {rows : Dict String Document}
    (horder : copies.servingOrder = skipped ++ client :: rest)
    (hskipped : ∀ other ∈ skipped, ∀ terms, ∃ error,
      other.corpusStats terms = .error error ∧ error.isClusterError)
    (hserves : Serves ctx query limit client rows) : Pins ctx query limit copies rows := by
  refine ⟨client, fun terms => ?_, hserves.search⟩
  rw [statsFromAnyCopy, horder]
  apply fromAnyCopy_of_first
  · intro other ho
    obtain ⟨error, hfailed, hcluster⟩ := hskipped other ho terms
    exact ⟨error, by rw [hfailed]; rfl, hcluster⟩
  · rw [hserves.corpusStats]
    rfl

theorem pins_of_primary {query : String} {limit : Int} {copies : ShardCopies (ShardClient α)}
    {rows : Dict String Document} (h : Serves ctx query limit copies.primary rows) :
    Pins ctx query limit copies rows :=
  pins_of_first (List.nil_append _).symm (fun _ ho => nomatch ho) h

theorem answers_of_primary {embedder : Embedder α} {vector : List α} {limit : Int}
    {copies : ShardCopies (ShardClient α)} {rows : Dict String Document}
    (h : copies.primary.semanticSearch vector limit embedder.identity =
      .ok (answer (embedder.semanticHits rows vector) limit)) :
    Answers embedder vector limit copies rows := by
  rw [Answers, semanticFromAnyCopy, ShardCopies.servingOrder, fromAnyCopy, h]

theorem selection_of_pins {query : String} {limit : Int}
    {shards : List (ShardCopies (ShardClient α))} {parts : List (Dict String Document)}
    (h : List.Forall₂ (Pins ctx query limit) shards parts) (terms : List String) :
    ∃ selection : List (ShardClient α × CorpusStats),
      shards.map (statsFromAnyCopy terms) = selection.map .ok ∧
      selection.map Prod.snd = parts.map (fun rows => ctx.statistics rows terms) ∧
      ∀ stats, (selection.map Prod.fst).map (fun client => client.search query limit stats) =
        (parts.map fun rows => answer
          (ctx.lexicalHits rows (Analysis.analyze ctx.unicode query) stats) limit).map .ok := by
  induction h with
  | nil => exact ⟨[], rfl, rfl, fun _ => rfl⟩
  | @cons copies rows shards parts hpin _ ih =>
      obtain ⟨client, hstats, hsearch⟩ := hpin
      obtain ⟨selection, hselected, hcollected, hfanned⟩ := ih
      refine ⟨(client, ctx.statistics rows terms) :: selection, ?_, ?_, fun stats => ?_⟩
      · rw [List.map_cons, hstats, hselected]
        rfl
      · rw [List.map_cons, hcollected]
        rfl
      · simp only [List.map_cons, hsearch stats, hfanned stats]

theorem mem_uniqueTerms {terms : List String} {term : String} :
    term ∈ uniqueTerms terms ↔ term ∈ terms := by
  rw [uniqueTerms, KeySort.mem_sortedBy, List.mem_dedup]

section Rounds

variable {parts : List (Dict String Document)} {whole : Dict String Document} {terms : List String}
  {limit : Int}

omit [Arith α] [LinearOrder α] in
theorem agree_of_partition (hwhole : Partition parts whole) (terms : List String) :
    CorpusStats.Agree terms
      (mergeCorpusStats (parts.map fun rows => ctx.statistics rows (uniqueTerms terms)))
      (ctx.statistics whole terms) :=
  merge_statistics hwhole fun _ ht => mem_uniqueTerms.mpr ht

-- Scored with the sums over the parts, the merged ranking is the one of the whole.
theorem merge_rounds (hwhole : Partition parts whole) (hlimit : 0 ≤ limit) {stats : CorpusStats}
    (hstats : stats =
      mergeCorpusStats (parts.map fun rows => ctx.statistics rows (uniqueTerms terms))) :
    merge (parts.map fun rows => answer (ctx.lexicalHits rows terms stats) limit) limit =
      answer (ctx.lexicalHits whole terms (ctx.statistics whole terms)) limit := by
  rw [merge_lexical hwhole terms stats hlimit, hstats,
    lexicalHits_congr (agree_of_partition hwhole terms)]

-- Without documents there is nothing to find.
theorem answer_of_empty (hwhole : Partition parts whole)
    (hzero : (mergeCorpusStats (parts.map fun rows =>
      ctx.statistics rows (uniqueTerms terms))).documentCount = 0) (limit : Int) :
    answer (ctx.lexicalHits whole terms (ctx.statistics whole terms)) limit = ⟨0, []⟩ := by
  rw [(agree_of_partition hwhole terms).documentCount] at hzero
  have hempty : whole.entries = [] := by
    have hsize : (whole.entries.length : Int) = 0 := hzero
    exact List.length_eq_zero_iff.mp (by omega)
  rw [EngineContext.lexicalHits, hempty]
  simp [answer, KeySort.sortedBy, KeySort.sliceTo]

end Rounds

-- Two rounds over the parts find what one search over the whole finds.
theorem searchLocked_eq {query : String} {limit : Int} {parts : List (Dict String Document)}
    {whole : Dict String Document}
    (hpins : List.Forall₂ (Pins ctx query limit) coordinator.topology.shards parts)
    (hwhole : Partition parts whole) (hlimit : 0 ≤ limit) :
    coordinator.searchLocked query (uniqueTerms (Analysis.analyze ctx.unicode query)) limit =
      .ok (answer (ctx.lexicalHits whole (Analysis.analyze ctx.unicode query)
        (ctx.statistics whole (Analysis.analyze ctx.unicode query))) limit) := by
  obtain ⟨selection, hselected, hcollected, hfanned⟩ :=
    selection_of_pins hpins (uniqueTerms (Analysis.analyze ctx.unicode query))
  unfold searchLocked selectAndCollect
  rw [hselected, gather_ok]
  simp only [Bind.bind, Except.bind, hcollected]
  split
  · rename_i hzero
    rw [answer_of_empty hwhole hzero]
    rfl
  · rw [fanOutSearch, hfanned, gather_ok]
    simp only [pure, Except.pure]
    rw [merge_rounds hwhole hlimit rfl]

theorem search_eq {query : String} {limit : Int} {parts : List (Dict String Document)}
    {whole : Dict String Document} (hunicode : coordinator.unicode = ctx.unicode)
    (hpins : List.Forall₂ (Pins ctx query limit) coordinator.topology.shards parts)
    (hwhole : Partition parts whole) (hlimit : 0 ≤ limit) {engine : SearchEngine α}
    (hready : engine.state = .ready) (hexact : engine.derived.Exact ctx whole) :
    coordinator.search query limit = engine.search ctx query limit none := by
  unfold search SearchEngine.search
  rw [hunicode, SearchEngine.requireOperational_of_ready hready]
  by_cases hterms : Analysis.analyze ctx.unicode query = []
  · simp [hterms, SearchEngine.searchLocked, Bind.bind, Except.bind]
  · simp only [hterms, if_false, Bind.bind, Except.bind]
    rw [searchLocked_eq hpins hwhole hlimit, SearchEngine.searchLocked_eq hexact hterms]
    rfl

theorem map_semanticFromAnyCopy {embedder : Embedder α} {vector : List α} {limit : Int}
    {shards : List (ShardCopies (ShardClient α))} {parts : List (Dict String Document)}
    (h : List.Forall₂ (Answers embedder vector limit) shards parts) :
    shards.map (semanticFromAnyCopy vector limit embedder.identity) =
      (parts.map fun rows => answer (embedder.semanticHits rows vector) limit).map .ok := by
  induction h with
  | nil => rfl
  | cons hanswer _ ih =>
      simp only [List.map_cons, ih]
      rw [hanswer]

-- One round over the parts ranks what one search over the whole ranks.
theorem semanticSearchLocked_eq {embedder : Embedder α} {vector : List α} {limit : Int}
    {parts : List (Dict String Document)} {whole : Dict String Document}
    (hanswers : List.Forall₂ (Answers embedder vector limit) coordinator.topology.shards parts)
    (hwhole : Partition parts whole) (hlimit : 0 ≤ limit) :
    coordinator.semanticSearchLocked vector limit embedder.identity =
      .ok (answer (embedder.semanticHits whole vector) limit) := by
  unfold semanticSearchLocked
  rw [map_semanticFromAnyCopy hanswers, gather_ok]
  simp only [Bind.bind, Except.bind, pure, Except.pure]
  rw [merge_semantic hwhole embedder vector hlimit]

section Semantic

variable {embedder : Embedder α} {parts : List (Dict String Document)}
  {whole : Dict String Document} {engine : SearchEngine α}

theorem semanticSearch_eq (hembedder : coordinator.embedder = some embedder)
    (he : ctx.embedder = some embedder) (hc : embedder.Contract) {query : String} {limit : Int}
    (hanswers : List.Forall₂ (Answers embedder (embedder.embedQuery query) limit)
      coordinator.topology.shards parts)
    (hwhole : Partition parts whole) (hlimit : 1 ≤ limit)
    (hready : engine.state = .ready) (hexact : engine.derived.Exact ctx whole) :
    coordinator.semanticSearch query limit =
      engine.semanticSearch (embedder.embedQuery query) limit := by
  unfold semanticSearch SearchEngine.semanticSearch
  rw [hembedder, SearchEngine.requireOperational_of_ready hready]
  simp only [Bind.bind, Except.bind]
  rw [semanticSearchLocked_eq hanswers hwhole (by omega),
    SearchEngine.semanticSearchLocked_eq hexact he (hc.queries query) hlimit]

-- Both retrievals hand the fusion the lists that the single engine hands it.
theorem hybridSearch_eq (hunicode : coordinator.unicode = ctx.unicode)
    (hembedder : coordinator.embedder = some embedder)
    (he : ctx.embedder = some embedder) (hc : embedder.Contract) {query : String} {limit : Int}
    {config : FusionConfig}
    (hpins : List.Forall₂ (Pins ctx query (config.candidateDepth limit))
      coordinator.topology.shards parts)
    (hanswers : List.Forall₂
      (Answers embedder (embedder.embedQuery query) (config.candidateDepth limit))
      coordinator.topology.shards parts)
    (hwhole : Partition parts whole) (hdepth : 1 ≤ config.candidateDepth limit)
    (hready : engine.state = .ready) (hexact : engine.derived.Exact ctx whole) :
    coordinator.hybridSearch query limit config = engine.hybridSearch ctx query limit config := by
  unfold hybridSearch SearchEngine.hybridSearch SearchEngine.hybridSearchWith
  rw [hunicode, hembedder, he]
  by_cases hterms : Analysis.analyze ctx.unicode query = []
  · simp [hterms]
  · simp only [hterms, if_false]
    rw [searchLocked_eq hpins hwhole (by omega),
      semanticSearchLocked_eq hanswers hwhole (by omega),
      SearchEngine.searchLocked_eq hexact hterms,
      SearchEngine.semanticSearchLocked_eq hexact he (hc.queries query) hdepth,
      SearchEngine.requireOperational_of_ready hready]
    rfl

end Semantic

end Selection

end PySearch.Coordinator
