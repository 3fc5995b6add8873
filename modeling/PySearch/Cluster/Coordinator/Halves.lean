import PySearch.Cluster.Coordinator.Theorems
import PySearch.Cluster.Replication.History
import PySearch.Cluster.Serving
import Mathlib.Data.List.Find

namespace PySearch

variable {α : Type}

-- One logical shard during one operation: its state, and what the requests of the operation
-- meet on their way to each copy. Copies are numbered in serving order.
structure ShardView (α : Type) where
  shard : Shard α
  settings : Nat → NodeSettings
  transport : Nat → Transport

namespace ShardView

-- Two copies were chosen, and they hold the same.
def Agree (chosen other : Option (Node α)) (content : Node α → List Document) : Prop :=
  ∃ node twin, chosen = some node ∧ other = some twin ∧ content node = content twin

instance (chosen other : Option (Node α)) (content : Node α → List Document) :
    Decidable (Agree chosen other content) :=
  match chosen, other with
  | some node, some twin => decidable_of_iff (content node = content twin)
      ⟨fun h => ⟨node, twin, rfl, rfl, h⟩, by rintro ⟨_, _, ⟨⟩, ⟨⟩, h⟩; exact h⟩
  | none, _ => isFalse (by rintro ⟨_, _, ⟨⟩, _⟩)
  | some _, none => isFalse (by rintro ⟨_, _, _, ⟨⟩, _⟩)

variable [Arith α] [LinearOrder α] (ctx : EngineContext α) (view : ShardView α)

def client (copy : Node α × Nat) : ShardClient α :=
  copy.1.client ctx (view.settings copy.2) (view.transport copy.2)

def group : ShardClient α × List (ShardClient α) :=
  (view.client ctx (view.shard.primary, 0), (view.shard.replicas.zipIdx 1).map (view.client ctx))

-- The copy whose statistics are used, which the second round is pinned to.
def lexicalCopy (terms : List String) : Option (Node α) :=
  (view.shard.copies.zipIdx.find? fun copy =>
    ((view.client ctx copy).corpusStats terms).isOk).map Prod.fst

-- The copy whose similarities are used.
def semanticCopy (vector : List α) (limit : Int) (identity : SemanticIdentity) :
    Option (Node α) :=
  (view.shard.copies.zipIdx.find? fun copy =>
    ((view.client ctx copy).semanticSearch vector limit identity).isOk).map Prod.fst

omit [Arith α] [LinearOrder α] in
-- The first copy that serves and that the given request gets through to.
def reached (request : Transport → Option TransportFailure) : Option (Node α) :=
  (view.shard.copies.zipIdx.find? fun copy =>
    copy.1.serving.isSome && (request (view.transport copy.2)).isNone).map Prod.fst

-- Both halves of a hybrid search read the same documents of the shard.
def SameCorpus (terms : List String) (vector : List α) (limit : Int)
    (identity : SemanticIdentity) : Prop :=
  Agree (view.lexicalCopy ctx terms) (view.semanticCopy ctx vector limit identity)
    fun node => node.database.documents

omit [Arith α] [LinearOrder α] in
-- The copies that the two kinds of requests reach are at generations between which the
-- primary's history has no effect, such as one and the same generation.
def SameReach : Prop :=
  Agree (view.reached Transport.corpusStats) (view.reached Transport.semanticSearch)
    fun node => (Database.replay (view.shard.history.take node.database.generation.toNat)).documents

instance : Decidable view.SameReach := inferInstanceAs (Decidable (Agree _ _ _))

instance (terms : List String) (vector : List α) (limit : Int) (identity : SemanticIdentity) :
    Decidable (view.SameCorpus ctx terms vector limit identity) :=
  inferInstanceAs (Decidable (Agree _ _ _))

end ShardView

-- All logical shards during one operation of the coordinator.
structure ClusterView (α : Type) where
  router : ShardRouter
  shards : List (ShardView α)
  matched : shards.length = router.shardCount

def ClusterView.coordinator [Arith α] [LinearOrder α] (ctx : EngineContext α)
    (view : ClusterView α) : Coordinator α where
  router := view.router
  topology := ClusterTopology.ofGroups (view.shards.map fun shard => shard.group ctx)
  embedder := ctx.embedder
  unicode := ctx.unicode
  matched := by
    rw [← view.matched]
    simp [ClusterTopology.shardCount, ClusterTopology.ofGroups]

variable [Arith α] [LinearOrder α] {ctx : EngineContext α}

namespace ShardView

variable {view : ShardView α}

theorem servingOrder_group (shardId : Nat) :
    (⟨shardId, (view.group ctx).1, (view.group ctx).2⟩ : ShardCopies (ShardClient α)).servingOrder =
      view.shard.copies.zipIdx.map (view.client ctx) := rfl

theorem isOk_iff {ε β : Type} {result : Except ε β} :
    result.isOk = true ↔ ∃ value, result = .ok value := by
  cases result <;> simp [Except.isOk, Except.toBool]

theorem lexicalCopy_eq (h : view.shard.Consistent ctx) (terms : List String) :
    view.lexicalCopy ctx terms = view.reached Transport.corpusStats := by
  unfold lexicalCopy reached
  rw [List.find?_congr]
  rintro ⟨node, number⟩ hm
  have hsound := (h.copy (List.fst_mem_of_mem_zipIdx hm)).1
  rw [Bool.eq_iff_iff, isOk_iff]
  simp [client, Node.corpusStats_ok_iff hsound, Option.isSome_iff_exists]

theorem semanticCopy_eq (h : view.shard.Consistent ctx) {embedder : Embedder α}
    (he : ctx.embedder = some embedder) (hc : embedder.Contract) (query : String) {limit : Int}
    (hlimit : 1 ≤ limit ∧ limit ≤ maxLimit) :
    view.semanticCopy ctx (embedder.embedQuery query) limit embedder.identity =
      view.reached Transport.semanticSearch := by
  unfold semanticCopy reached
  rw [List.find?_congr]
  rintro ⟨node, number⟩ hm
  have hsound := (h.copy (List.fst_mem_of_mem_zipIdx hm)).1
  rw [Bool.eq_iff_iff, isOk_iff]
  simp [client, Node.semanticSearch_ok_iff hsound he hc, Option.isSome_iff_exists, hlimit]

omit [Arith α] [LinearOrder α] in
theorem reached_mem {request : Transport → Option TransportFailure} {node : Node α}
    (h : view.reached request = some node) : node ∈ view.shard.copies := by
  obtain ⟨copy, hfind, rfl⟩ := Option.map_eq_some_iff.mp h
  exact List.fst_mem_of_mem_zipIdx (List.mem_of_find?_eq_some hfind)

omit [Arith α] [LinearOrder α] in
-- A copy holds the documents that its generation stands for.
theorem documents_of_copy (h : view.shard.Consistent ctx) {node : Node α}
    (hn : node ∈ view.shard.copies) : node.database.documents =
      (Database.replay (view.shard.history.take node.database.generation.toNat)).documents :=
  Database.documents_congr (h.copy hn).2.rows

theorem sameCorpus_iff (h : view.shard.Consistent ctx) {embedder : Embedder α}
    (he : ctx.embedder = some embedder) (hc : embedder.Contract) (terms : List String)
    (query : String) {limit : Int} (hlimit : 1 ≤ limit ∧ limit ≤ maxLimit) :
    view.SameCorpus ctx terms (embedder.embedQuery query) limit embedder.identity ↔
      view.SameReach := by
  unfold SameCorpus SameReach Agree
  rw [lexicalCopy_eq h, semanticCopy_eq h he hc query hlimit]
  refine exists₂_congr fun node other => and_congr_right fun hn => and_congr_right fun ho => ?_
  dsimp only
  rw [documents_of_copy h (reached_mem hn), documents_of_copy h (reached_mem ho)]

end ShardView

namespace ClusterView

-- What a hybrid search makes of the rows that its two halves read.
def fused (ctx : EngineContext α) (embedder : Embedder α) (query : String) (limit : Int)
    (config : FusionConfig) (lexical semantic : List (Dict String Document)) :
    Except PyError (HybridResults α) :=
  let terms := Analysis.analyze ctx.unicode query
  let depth := config.candidateDepth limit
  let stats := mergeCorpusStats
    (lexical.map fun rows => ctx.statistics rows (Coordinator.uniqueTerms terms))
  reciprocalRankFusion
    (if stats.documentCount = 0 then ⟨0, []⟩
      else Coordinator.merge
        (lexical.map fun rows => answer (ctx.lexicalHits rows terms stats) depth) depth)
    (Coordinator.merge (semantic.map fun rows =>
      answer (embedder.semanticHits rows (embedder.embedQuery query)) depth) depth)
    limit config

variable {view : ClusterView α}

-- What every shard answered, one copy of it answered.
theorem answered {β : Type} {ask : ShardClient α → Except PyError β} {answers : List β}
    (h : (view.coordinator ctx).topology.shards.map
      (fun copies => Coordinator.fromAnyCopy copies.shardId ask copies.servingOrder) =
        answers.map .ok) :
    List.Forall₂ (fun shard value => ∃ copy,
        shard.shard.copies.zipIdx.find? (fun copy => (ask (shard.client ctx copy)).isOk) =
          some copy ∧ ask (shard.client ctx copy) = .ok value)
      view.shards answers := by
  have hlength : view.shards.length = answers.length := by
    simpa [coordinator, ClusterTopology.ofGroups] using congrArg List.length h
  refine List.forall₂_iff_get.mpr ⟨hlength, fun index hshard hanswer => ?_⟩
  have hvalue := congrArg (fun outcomes => outcomes[index]?) h
  simp only [List.getElem?_map, coordinator, ClusterTopology.ofGroups, List.getElem?_zipIdx,
    List.getElem?_eq_getElem hshard, List.getElem?_eq_getElem hanswer, Option.map_some,
    Nat.zero_add, ShardView.servingOrder_group] at hvalue
  exact Coordinator.fromAnyCopy_ok _ (Option.some.inj hvalue)

omit [Arith α] [LinearOrder α] in
-- The copies that were chosen for the shards, one by one, are a list.
theorem chosen_of_answered {β : Type} {shards : List (ShardView α)} {answers : List β}
    {choose : ShardView α → Option (Node α)} {R : ShardView α → β → Prop} {P : Node α → β → Prop}
    (h : List.Forall₂ R shards answers)
    (hchosen : ∀ shard ∈ shards, ∀ value, R shard value →
      ∃ node, choose shard = some node ∧ P node value) :
    ∃ nodes, shards.map choose = nodes.map some ∧ List.Forall₂ P nodes answers := by
  induction h with
  | nil => exact ⟨[], rfl, .nil⟩
  | @cons shard value shards answers hfirst hrest ih =>
      obtain ⟨nodes, hnodes, hall⟩ := ih fun other ho => hchosen other (.tail _ ho)
      obtain ⟨node, hnode, hp⟩ := hchosen shard (.head _) value hfirst
      exact ⟨node :: nodes, by simp [hnode, hnodes], .cons hp hall⟩

-- Answers that are known one by one are known as a list.
theorem eq_map_of_answers {ι κ γ : Type} {items : List ι} {asked : List κ} {answers : List γ}
    {ask : κ → Except PyError γ} {f : ι → γ}
    (h : List.Forall₂ (fun item other => ∀ value, ask other = .ok value → value = f item)
      items asked)
    (hanswers : asked.map ask = answers.map .ok) : answers = items.map f := by
  induction h generalizing answers with
  | nil => exact List.map_eq_nil_iff.mp hanswers.symm
  | cons hfirst _ ih =>
      cases answers with
      | nil => cases hanswers
      | cons value rest =>
          rw [List.map_cons, List.map_cons] at hanswers
          obtain ⟨hvalue, hrest⟩ := List.cons.inj hanswers
          rw [List.map_cons, hfirst value hvalue, ih hrest]

section Hybrid

variable {embedder : Embedder α} {query : String} {limit : Int} {config : FusionConfig}
  {results : HybridResults α}

-- The copies that the lexical half chose, and what it found in them.
theorem searchLocked_reads (hconsistent : ∀ shard ∈ view.shards, shard.shard.Consistent ctx)
    {depth : Int} {lexical : SearchResults α}
    (hok : (view.coordinator ctx).searchLocked query
      (Coordinator.uniqueTerms (Analysis.analyze ctx.unicode query)) depth = .ok lexical) :
    let terms := Analysis.analyze ctx.unicode query
    ∃ nodes : List (Node α),
      view.shards.map (fun shard => shard.lexicalCopy ctx (Coordinator.uniqueTerms terms)) =
        nodes.map some ∧
      let parts := nodes.map fun node => node.database.rows
      let stats := mergeCorpusStats
        (parts.map fun rows => ctx.statistics rows (Coordinator.uniqueTerms terms))
      lexical = if stats.documentCount = 0 then ⟨0, []⟩
        else Coordinator.merge
          (parts.map fun rows => answer (ctx.lexicalHits rows terms stats) depth) depth := by
  intro terms
  obtain ⟨selection, hselected, hscored⟩ := bind_ok hok
  obtain ⟨nodes, hnodes, hall⟩ := @chosen_of_answered _ _ _ _
    (fun shard => shard.lexicalCopy ctx (Coordinator.uniqueTerms terms)) _
    (fun node pin => pin.2 = ctx.statistics node.database.rows (Coordinator.uniqueTerms terms) ∧
      ∀ stats hits, pin.1.search query depth stats = .ok hits →
        hits = answer (ctx.lexicalHits node.database.rows terms stats) depth)
    (answered (Coordinator.gather_ok_iff.mp hselected)) (by
      rintro shard hm pin ⟨copy, hfind, hcopy⟩
      have hnode := List.fst_mem_of_mem_zipIdx (List.mem_of_find?_eq_some hfind)
      have hsound := ((hconsistent shard hm).copy hnode).1
      cases hstats : (shard.client ctx copy).corpusStats (Coordinator.uniqueTerms terms) with
      | error error =>
          rw [hstats] at hcopy
          cases hcopy
      | ok stats =>
          rw [hstats] at hcopy
          cases hcopy
          refine ⟨copy.1, Option.map_eq_some_iff.mpr ⟨copy, ?_, rfl⟩,
            ((Node.corpusStats_ok_iff hsound).mp hstats).2.2,
            fun _ _ h => (Node.search_ok hsound h).2⟩
          rw [← hfind]
          congr 1
          funext other
          cases (shard.client ctx other).corpusStats _ <;> rfl)
  refine ⟨nodes, hnodes, ?_⟩
  have hcollected : selection.map Prod.snd = nodes.map fun node =>
      ctx.statistics node.database.rows (Coordinator.uniqueTerms terms) := by
    refine @eq_map_of_answers _ _ _ _ selection _ (fun pin => .ok pin.2) _ ?_ (by simp)
    refine hall.imp ?_
    rintro node pin ⟨hstats, -⟩ value ⟨⟩
    exact hstats
  dsimp only at hscored ⊢
  rw [List.map_map, List.map_map, Function.comp_def, ← hcollected]
  split at hscored
  · rename_i hzero
    cases hscored
    rw [if_pos hzero]
  · rename_i hsome
    obtain ⟨found, hfanned, hmerged⟩ := bind_ok hscored
    have hanswers := Coordinator.gather_ok_iff.mp hfanned
    rw [List.map_map] at hanswers
    have hfound := eq_map_of_answers (hall.imp fun _ _ h => h.2 _) hanswers
    cases hmerged
    rw [if_neg hsome, hfound]
    rfl

-- The copies that the semantic half chose, and what it found in them.
theorem semanticSearchLocked_reads
    (hconsistent : ∀ shard ∈ view.shards, shard.shard.Consistent ctx)
    (he : ctx.embedder = some embedder) (hc : embedder.Contract) {depth : Int}
    {semantic : SearchResults α}
    (hok : (view.coordinator ctx).semanticSearchLocked (embedder.embedQuery query) depth
      embedder.identity = .ok semantic) :
    ∃ nodes : List (Node α),
      view.shards.map (fun shard => shard.semanticCopy ctx (embedder.embedQuery query) depth
        embedder.identity) = nodes.map some ∧
      semantic = Coordinator.merge (nodes.map fun node =>
        answer (embedder.semanticHits node.database.rows (embedder.embedQuery query)) depth) depth ∧
      (view.shards ≠ [] → 1 ≤ depth ∧ depth ≤ maxLimit) := by
  obtain ⟨answers, hgathered, hmerged⟩ := bind_ok hok
  obtain ⟨nodes, hnodes, hall⟩ := @chosen_of_answered _ _ _ _
    (fun shard => shard.semanticCopy ctx (embedder.embedQuery query) depth embedder.identity) _
    (fun node found => (1 ≤ depth ∧ depth ≤ maxLimit) ∧ found =
      answer (embedder.semanticHits node.database.rows (embedder.embedQuery query)) depth)
    (answered (Coordinator.gather_ok_iff.mp hgathered)) (by
      rintro shard hm found ⟨copy, hfind, hcopy⟩
      have hnode := List.fst_mem_of_mem_zipIdx (List.mem_of_find?_eq_some hfind)
      have hsound := ((hconsistent shard hm).copy hnode).1
      exact ⟨copy.1, Option.map_eq_some_iff.mpr ⟨copy, hfind, rfl⟩,
        ((Node.semanticSearch_ok_iff hsound he hc).mp hcopy).2.2⟩)
  refine ⟨nodes, hnodes, ?_, fun hsome => ?_⟩
  · have hanswers : answers = nodes.map fun node =>
        answer (embedder.semanticHits node.database.rows (embedder.embedQuery query)) depth := by
      refine @eq_map_of_answers _ _ _ _ answers _ .ok _ ?_ rfl
      refine hall.imp ?_
      rintro node found ⟨-, hfound⟩ value ⟨⟩
      exact hfound
    cases hmerged
    rw [hanswers]
  · cases hall with
    | nil => exact absurd (List.map_eq_nil_iff.mp hnodes) hsome
    | cons hfirst _ => exact hfirst.1

theorem hybridSearch_halves (he : ctx.embedder = some embedder)
    (hterms : Analysis.analyze ctx.unicode query ≠ [])
    (hok : (view.coordinator ctx).hybridSearch query limit config = .ok results) :
    ∃ lexical semantic,
      (view.coordinator ctx).searchLocked query
        (Coordinator.uniqueTerms (Analysis.analyze ctx.unicode query))
        (config.candidateDepth limit) = .ok lexical ∧
      (view.coordinator ctx).semanticSearchLocked (embedder.embedQuery query)
        (config.candidateDepth limit) embedder.identity = .ok semantic ∧
      reciprocalRankFusion lexical semantic limit config = .ok results := by
  have hembedder : (view.coordinator ctx).embedder = some embedder := he
  have hunicode : (view.coordinator ctx).unicode = ctx.unicode := rfl
  unfold Coordinator.hybridSearch at hok
  rw [hunicode, hembedder] at hok
  simp only [if_neg hterms] at hok
  split at hok
  · cases hok
  · cases hok
  · rename_i lexical semantic hlexical hsemantic
    exact ⟨lexical, semantic, hlexical, hsemantic, hok⟩

end Hybrid

-- A hybrid search that returns fuses what its halves read in one copy of every shard each.
-- The two readings describe the same corpus exactly when the copies that the requests reached
-- do. For a query without terms there is nothing to read.
theorem hybrid_same_corpus_iff {embedder : Embedder α} (he : ctx.embedder = some embedder)
    (hc : embedder.Contract) (view : ClusterView α)
    (hreach : ∀ shard ∈ view.shards, ∃ replicas,
      Run.Reaches (Shard.step ctx) (fun _ _ => True) (.initial replicas) shard.shard)
    (query : String) (limit : Int) (config : FusionConfig) (results : HybridResults α)
    (hok : (view.coordinator ctx).hybridSearch query limit config = .ok results) :
    let terms := Analysis.analyze ctx.unicode query
    let unique := Coordinator.uniqueTerms terms
    let vector := embedder.embedQuery query
    let depth := config.candidateDepth limit
    (terms = [] → results = ⟨0, []⟩) ∧
    (terms ≠ [] → ∃ lexical semantic : List (Node α),
      view.shards.map (fun shard => shard.lexicalCopy ctx unique) = lexical.map some ∧
      view.shards.map (fun shard => shard.semanticCopy ctx vector depth embedder.identity) =
        semantic.map some ∧
      fused ctx embedder query limit config (lexical.map fun node => node.database.rows)
        (semantic.map fun node => node.database.rows) = .ok results) ∧
    ((terms = [] ∨
        ∀ shard ∈ view.shards, shard.SameCorpus ctx unique vector depth embedder.identity) ↔
      terms = [] ∨ ∀ shard ∈ view.shards, shard.SameReach) := by
  intro terms unique vector depth
  have hconsistent : ∀ shard ∈ view.shards, shard.shard.Consistent ctx := by
    intro shard hm
    obtain ⟨replicas, hreached⟩ := hreach shard hm
    exact Shard.reaches_consistent hreached
  by_cases hterms : terms = []
  · have hempty : (view.coordinator ctx).hybridSearch query limit config = .ok ⟨0, []⟩ :=
      if_pos hterms
    rw [hempty] at hok
    cases hok
    exact ⟨fun _ => rfl, fun hsome => absurd hterms hsome,
      iff_of_true (.inl hterms) (.inl hterms)⟩
  obtain ⟨lexical, semantic, hlexical, hsemantic, hfusion⟩ := hybridSearch_halves he hterms hok
  obtain ⟨lexicalNodes, hlexicalNodes, hfound⟩ := searchLocked_reads hconsistent hlexical
  obtain ⟨semanticNodes, hsemanticNodes, hsimilar, hdepth⟩ :=
    semanticSearchLocked_reads hconsistent he hc hsemantic
  refine ⟨fun hnone => absurd hnone hterms, fun _ => ⟨lexicalNodes, semanticNodes, hlexicalNodes,
    hsemanticNodes, ?_⟩, ?_⟩
  · rw [hfound, hsimilar] at hfusion
    simpa only [fused, List.map_map, Function.comp_def] using hfusion
  · rw [or_iff_right hterms, or_iff_right hterms]
    refine forall₂_congr fun shard hm => ?_
    exact ShardView.sameCorpus_iff (hconsistent shard hm) he hc unique query
      (hdepth (List.ne_nil_of_mem hm))

section Example

attribute [local instance] rationalArith

-- A primary and a replica, both ready, and a write that has not reached the replica.
def unacknowledgedWrite : List ShardAction :=
  Shard.startActions ++ [.write (.put redFox) .none, .send, .replicationError]

-- One shard, whose primary does or does not get the semantic request.
def oneShard (shard : Shard ℚ) (failure : Option TransportFailure) : ClusterView ℚ where
  router := ⟨fun _ => 0, 1, by decide⟩
  shards := [⟨shard, fun number => ⟨"", "", number, ""⟩, fun number =>
    { Transport.all none with semanticSearch := if number = 0 then failure else none }⟩]
  matched := rfl

theorem unacknowledgedWrite_same_corpus :
    let ctx : EngineContext ℚ := ⟨.ascii, defaultBM25Params, some .constant⟩
    ∃ shard, Run.Reaches (Shard.step ctx) (fun _ _ => True) (.initial 1) shard ∧
      (∃ results, ((oneShard shard none).coordinator ctx).hybridSearch "red" 1 .default =
        .ok results) ∧
      ∀ view ∈ (oneShard shard none).shards, view.SameCorpus ctx
        (Coordinator.uniqueTerms (Analysis.analyze ctx.unicode "red"))
        ((Embedder.constant : Embedder ℚ).embedQuery "red")
        (FusionConfig.default.candidateDepth 1) (Embedder.constant : Embedder ℚ).identity := by
  intro ctx
  have hrun : (Run.exec (Shard.step ctx) (.initial 1) unacknowledgedWrite).map (fun shard =>
      (((oneShard shard none).coordinator ctx).hybridSearch "red" 1 .default).isOk &&
        decide (∀ view ∈ (oneShard shard none).shards, view.SameReach)) = some true := by
    decide +kernel
  obtain ⟨shard, hreach, hcheck⟩ := Run.reaches_of_exec hrun
  obtain ⟨hreturned, hsame⟩ := Bool.and_eq_true_iff.mp hcheck
  obtain ⟨results, hok⟩ := ShardView.isOk_iff.mp hreturned
  refine ⟨shard, hreach, ⟨results, hok⟩, ?_⟩
  have hiff := (hybrid_same_corpus_iff rfl Embedder.constant_contract (oneShard shard none)
    (by simpa [oneShard] using ⟨1, hreach⟩) "red" 1 .default results hok).2.2
  exact (hiff.mpr (.inr (of_decide_eq_true hsame))).resolve_left (by decide)

-- The primary times out on the semantic request only, and the replica that answers it
-- instead has never heard of the document.
theorem timedOutSemanticRequest_splits_corpora :
    let ctx : EngineContext ℚ := ⟨.ascii, defaultBM25Params, some .constant⟩
    ∃ shard, Run.Reaches (Shard.step ctx) (fun _ _ => True) (.initial 1) shard ∧
      (∃ results, ((oneShard shard (some .timeout)).coordinator ctx).hybridSearch "red" 1
        .default = .ok results) ∧
      ¬∀ view ∈ (oneShard shard (some .timeout)).shards, view.SameCorpus ctx
        (Coordinator.uniqueTerms (Analysis.analyze ctx.unicode "red"))
        ((Embedder.constant : Embedder ℚ).embedQuery "red")
        (FusionConfig.default.candidateDepth 1) (Embedder.constant : Embedder ℚ).identity := by
  intro ctx
  have hrun : (Run.exec (Shard.step ctx) (.initial 1) unacknowledgedWrite).map (fun shard =>
      (((oneShard shard (some .timeout)).coordinator ctx).hybridSearch "red" 1 .default).isOk &&
        decide (¬∀ view ∈ (oneShard shard (some .timeout)).shards, view.SameCorpus ctx
          (Coordinator.uniqueTerms (Analysis.analyze ctx.unicode "red"))
          ((Embedder.constant : Embedder ℚ).embedQuery "red")
          (FusionConfig.default.candidateDepth 1)
          (Embedder.constant : Embedder ℚ).identity)) = some true := by decide +kernel
  obtain ⟨shard, hreach, hcheck⟩ := Run.reaches_of_exec hrun
  obtain ⟨hok, hsplit⟩ := Bool.and_eq_true_iff.mp hcheck
  exact ⟨shard, hreach, ShardView.isOk_iff.mp hok, of_decide_eq_true hsplit⟩

end Example

end ClusterView

end PySearch
