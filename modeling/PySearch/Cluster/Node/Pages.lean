import PySearch.Cluster.Node.Ready
import PySearch.Search.Engine.Page
import PySearch.Search.Engine.Scan

namespace PySearch.Node

open KeySort (sortedBy)
open SearchEngine (search hybridSearch)

variable {α : Type} [Arith α] [LinearOrder α] {ctx : EngineContext α} {role : Role}
  {database : Database} {engine : SearchEngine α} {phase : Phase} {resyncs : List Resync}

-- Whatever was written, replaced, deleted, resynchronized or rebuilt before, a ready node
-- answers a query as a scan of its stored documents would.
theorem ready_search_scan (hdiv : DividesPositive α engine.store.database.rows.size)
    (h : Run.Reaches (step ctx role) (fun _ _ => True) (down database) (up engine phase resyncs))
    (hready : engine.state = .ready) (query : String) {limit : Int} (hlimit : 1 ≤ limit) :
    search ctx engine query limit none =
      let rows := engine.store.database.rows
      let terms := Analysis.analyze ctx.unicode query
      .ok ⟨rows.values.countP fun document => terms.any fun term => term ∈ ctx.tokens document,
        (sortedBy hitKey (ctx.scanHits rows terms)).take limit.toNat⟩ :=
  SearchEngine.search_scan hdiv hready (reaches_sound h (.inl hready)).derived query hlimit

section Example

attribute [local instance] rationalArith

def exactContext : EngineContext ℚ := ⟨.ascii, defaultBM25Params, some .constant⟩

-- A fresh node writes two documents and replaces the first one.
def writtenRun : List NodeAction :=
  [.start, .initializeEngine .none, .indexDocument red .none, .indexDocument redFox .none,
    .indexDocument red .none]

def writtenNode : Option (Node ℚ) := Run.exec (step exactContext .single) (down .empty) writtenRun

theorem writtenRun_ready : ∃ engine : SearchEngine ℚ, ∃ phase resyncs,
    writtenNode = some (up engine phase resyncs) ∧ engine.state = .ready ∧
      engine.store.database.rows.size = 2 := by
  have hrun : writtenNode.map (fun
      | up engine _ _ => decide (engine.state = .ready ∧ engine.store.database.rows.size = 2)
      | down _ => false) = some true := by decide +kernel
  obtain ⟨node, hexec, hnode⟩ := Option.map_eq_some_iff.mp hrun
  match node with
  | up engine phase resyncs => exact ⟨engine, phase, resyncs, hexec, of_decide_eq_true hnode⟩

theorem writtenRun_scanned : ∃ engine : SearchEngine ℚ,
    engine.store.database.rows.size = 2 ∧
    search exactContext engine "red" 1 none =
      let rows := engine.store.database.rows
      let terms := Analysis.analyze .ascii "red"
      .ok ⟨rows.values.countP fun document => terms.any fun term =>
          term ∈ exactContext.tokens document,
        (sortedBy hitKey (exactContext.scanHits rows terms)).take 1⟩ := by
  obtain ⟨engine, phase, resyncs, hexec, hready, hsize⟩ := writtenRun_ready
  exact ⟨engine, hsize, ready_search_scan (dividesPositive_rational _)
    ⟨writtenRun, hexec, Run.along_true _ _⟩ hready "red" (by decide)⟩

end Example

-- A hybrid page of a ready node is full as far as its corpus allows and its ranks are the
-- positions in the two rankings of the whole corpus.
theorem ready_hybrid_page {embedder : Embedder α} (he : ctx.embedder = some embedder)
    (h : Run.Reaches (step ctx role) (fun _ _ => True) (down database) (up engine phase resyncs))
    (hready : engine.state = .ready) {query : String}
    (hq : ExactVectorIndex.Admissible embedder.identity.dimension (embedder.embedQuery query))
    (hterms : Analysis.analyze ctx.unicode query ≠ []) {limit : Int} (hlow : 1 ≤ limit)
    (hhigh : limit ≤ 100) :
    let rows := engine.store.database.rows
    let depth := (FusionConfig.default.candidateDepth limit).toNat
    ∃ lexical semantic page,
      search ctx engine query (max 1 rows.size) none = .ok lexical ∧
      lexical.results.length = lexical.total ∧
      engine.semanticSearch (embedder.embedQuery query) (max 1 rows.size) = .ok semantic ∧
      semantic.results.length = rows.size ∧
      hybridSearch ctx engine query limit .default = .ok page ∧
      page.results.length = min limit.toNat rows.size ∧
      (page.results.map HybridHit.documentId).Nodup ∧
      ∀ hit ∈ page.results,
        (∃ document, rows.get? hit.documentId = some document ∧ hit.text = document.text) ∧
        hit.lexicalRank =
          (rankIn lexical.results hit.documentId).filter (fun rank => rank ≤ depth) ∧
        hit.semanticRank =
          (rankIn semantic.results hit.documentId).filter (fun rank => rank ≤ depth) :=
  SearchEngine.hybridSearch_page hready (reaches_sound h (.inl hready)).derived he hq hterms hlow
    hhigh (by omega) (by omega)

section Example

attribute [local instance] rationalArith

theorem writtenRun_page : ∃ engine : SearchEngine ℚ, ∃ page,
    engine.store.database.rows.size = 2 ∧
    hybridSearch exactContext engine "red" 10 .default = .ok page ∧
    page.results.length = 2 ∧ (page.results.map HybridHit.documentId).Nodup := by
  obtain ⟨engine, phase, resyncs, hexec, hready, hsize⟩ := writtenRun_ready
  obtain ⟨_, _, page, -, -, -, -, hpage, hlength, hnodup, -⟩ :=
    @ready_hybrid_page _ _ _ exactContext .single _ _ _ _ .constant rfl
      ⟨writtenRun, hexec, Run.along_true _ _⟩ hready "red" ⟨rfl, rfl⟩ (by decide) 10 (by decide)
      (by decide)
  exact ⟨engine, page, hsize, hpage, by simpa [hsize] using hlength, hnodup⟩

end Example

end PySearch.Node
