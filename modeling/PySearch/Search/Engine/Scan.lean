import PySearch.Search.Engine.Answers
import Mathlib.Algebra.Order.BigOperators.Group.List

namespace PySearch

open KeySort (sortedBy)
open BM25Scorer (inverseDocumentFrequency addTerm documentScore)

variable {α : Type} [Arith α]

namespace EngineContext

variable (ctx : EngineContext α) (rows : Dict String Document)

-- What a term of the query adds to a document that contains it, with every number counted
-- over the stored documents.
def termScore (document : Document) (term : String) : α :=
  let tokens := ctx.tokens document
  let documentFrequency := rows.values.countP fun other => term ∈ ctx.tokens other
  let totalLength : Int := (rows.values.map fun other => ((ctx.tokens other).length : Int)).sum
  let averageLength : α := Arith.intDiv totalLength rows.size
  let idf : α := inverseDocumentFrequency documentFrequency rows.size
  let termFrequency : α := Arith.ofInt (tokens.count term)
  idf * (termFrequency * (ctx.params.k1 + 1.0)) /
    (termFrequency + ctx.params.k1 *
      (1.0 - ctx.params.b + ctx.params.b * (Arith.ofInt tokens.length / averageLength)))

-- The terms of the query that a document contains, in order and with their repetitions.
omit [Arith α] in
def matched (terms : List String) (document : Document) : List String :=
  terms.filter fun term => term ∈ ctx.tokens document

def scanScore (terms : List String) (document : Document) : α :=
  (ctx.matched terms document).foldl
    (fun score term => score + ctx.termScore rows document term) 0.0

-- Every stored document that contains a term of the query.
def scanHits (terms : List String) : List (SearchResult α) :=
  (rows.entries.filter fun entry => ctx.matched terms entry.2 ≠ []).map fun entry =>
    ⟨entry.1, ctx.scanScore rows terms entry.2, entry.2.text⟩

end EngineContext

-- A positive integer is not zero on average, over as many documents as the corpus has.
def DividesPositive (α : Type) [Arith α] (size : Nat) : Prop :=
  ∀ total count : Int, 0 < total → 0 < count → count ≤ size →
    (Arith.intDiv total count : α) ≠ 0.0

section Scan

variable {ctx : EngineContext α} {rows : Dict String Document} {terms : List String}
  {document : Document}

theorem foldl_addTerm (params : BM25Params α) (stats : CorpusStats) (averageLength : α)
    (terms tokens : List String) (score : Option α) :
    terms.foldl (addTerm params stats averageLength tokens) score =
      if terms.filter (fun term => term ∈ tokens) = [] then score
      else some ((terms.filter fun term => term ∈ tokens).foldl (fun score term =>
        score + BM25Scorer.contribution params
          (inverseDocumentFrequency (stats.documentFrequency term) stats.documentCount)
          averageLength (tokens.count term) tokens.length) (score.getD 0.0)) := by
  induction terms generalizing score with
  | nil => rfl
  | cons term rest ih =>
      rw [List.foldl_cons, ih]
      by_cases hterm : term ∈ tokens
      · have hadded : addTerm params stats averageLength tokens score term =
            some (score.getD 0.0 + BM25Scorer.contribution params
              (inverseDocumentFrequency (stats.documentFrequency term) stats.documentCount)
              averageLength (tokens.count term) tokens.length) := by
          simp [addTerm, InvertedIndex.occurrences, hterm]
        rw [List.filter_cons_of_pos (by simpa using hterm), if_neg (List.cons_ne_nil _ _),
          List.foldl_cons, hadded]
        split
        · rename_i hrest
          rw [hrest]
          rfl
        · rfl
      · have hkept : addTerm params stats averageLength tokens score term = score := by
          simp [addTerm, InvertedIndex.occurrences, hterm]
        rw [List.filter_cons_of_neg (by simpa using hterm), hkept]

omit [Arith α] in
-- A document with a term makes the corpus non-empty and its average length positive.
theorem matched_positive (hrow : document ∈ rows.values) (h : ctx.matched terms document ≠ []) :
    0 < rows.size ∧ 0 < (rows.values.map fun other => ((ctx.tokens other).length : Int)).sum := by
  obtain ⟨term, hterm⟩ := List.exists_mem_of_ne_nil _ h
  have htokens : term ∈ ctx.tokens document := by simpa using (List.mem_filter.mp hterm).2
  have hlength : 0 < ((ctx.tokens document).length : Int) := by
    exact_mod_cast List.length_pos_of_mem htokens
  refine ⟨?_, ?_⟩
  · have hpos := List.length_pos_of_mem hrow
    simpa [Dict.values, Dict.size] using hpos
  · have hle := List.single_le_sum (l := rows.values.map fun other =>
      ((ctx.tokens other).length : Int)) (by simp) _ (List.mem_map_of_mem hrow)
    omega

theorem statistics_averageLength (ctx : EngineContext α) (terms : List String)
    (hsize : 0 < rows.size) :
    ((ctx.statistics rows terms).averageDocumentLength : α) =
      Arith.intDiv (rows.values.map fun other => ((ctx.tokens other).length : Int)).sum rows.size := by
  rw [CorpusStats.averageDocumentLength, if_neg (by simp [EngineContext.statistics]; omega)]
  rfl

variable [LinearOrder α]

-- Scoring with the statistics of the corpus is scoring by scanning it.
theorem documentScore_scan (hdiv : DividesPositive α rows.size) (hrow : document ∈ rows.values) :
    documentScore ctx.params (ctx.statistics rows terms) terms (ctx.tokens document) =
      if ctx.matched terms document = [] then none
      else some (ctx.scanScore rows terms document) := by
  rw [documentScore, foldl_addTerm]
  by_cases hmatched : ctx.matched terms document = []
  · rw [if_pos hmatched]
    unfold EngineContext.matched at hmatched
    simp only [hmatched, if_true]
    split <;> rfl
  · obtain ⟨hsize, htotal⟩ := matched_positive hrow hmatched
    have haverage := statistics_averageLength ctx terms hsize
    have hcount : (ctx.statistics rows terms).documentCount = rows.size := rfl
    have hnonzero := hdiv _ (rows.size : Int) htotal (by omega) (le_refl _)
    rw [if_neg hmatched, if_neg (by rw [haverage, hcount]; simp [hnonzero]; omega)]
    unfold EngineContext.matched at hmatched
    rw [if_neg hmatched, haverage, hcount, EngineContext.scanScore]
    congr 1
    apply List.foldl_ext
    intro score term hterm
    have hquery : term ∈ terms := (List.mem_filter.mp hterm).1
    rw [ctx.statistics_frequency rows hquery]
    rfl

theorem lexicalHits_scan (ctx : EngineContext α) (rows : Dict String Document)
    (hdiv : DividesPositive α rows.size) (terms : List String) :
    ctx.lexicalHits rows terms (ctx.statistics rows terms) = ctx.scanHits rows terms := by
  have hhits : ∀ entries : List (String × Document), (∀ entry ∈ entries, entry.2 ∈ rows.values) →
      entries.filterMap (ctx.lexicalHit terms (ctx.statistics rows terms)) =
        (entries.filter fun entry => ctx.matched terms entry.2 ≠ []).map fun entry =>
          ⟨entry.1, ctx.scanScore rows terms entry.2, entry.2.text⟩ := by
    intro entries hentries
    induction entries with
    | nil => rfl
    | cons entry rest ih =>
        have hscore := @documentScore_scan _ _ ctx rows terms entry.2 _ hdiv
          (hentries entry (.head _))
        have hrest := ih fun other ho => hentries other (.tail _ ho)
        by_cases hmatched : ctx.matched terms entry.2 = []
        · have hnone : ctx.lexicalHit terms (ctx.statistics rows terms) entry = none := by
            rw [EngineContext.lexicalHit, hscore, if_pos hmatched]
            rfl
          rw [List.filterMap_cons_none hnone, hrest,
            List.filter_cons_of_neg (by simpa using hmatched)]
        · have hsome : ctx.lexicalHit terms (ctx.statistics rows terms) entry =
              some ⟨entry.1, ctx.scanScore rows terms entry.2, entry.2.text⟩ := by
            rw [EngineContext.lexicalHit, hscore, if_neg hmatched]
            rfl
          rw [List.filterMap_cons_some hsome, hrest,
            List.filter_cons_of_pos (by simpa using hmatched), List.map_cons]
  exact hhits rows.entries fun entry hentry => List.mem_map_of_mem hentry

omit [LinearOrder α] in
-- The number of stored documents that contain a term of the query.
theorem scanHits_length (ctx : EngineContext α) (rows : Dict String Document)
    (terms : List String) : (ctx.scanHits rows terms).length =
      rows.values.countP fun document => terms.any fun term => term ∈ ctx.tokens document := by
  rw [EngineContext.scanHits, List.length_map, ← List.countP_eq_length_filter, Dict.values,
    List.countP_map]
  congr 1
  funext entry
  apply Bool.eq_iff_iff.mpr
  simp [EngineContext.matched, List.filter_eq_nil_iff]

end Scan

namespace SearchEngine

variable [LinearOrder α] {ctx : EngineContext α} {engine : SearchEngine α}
  {rows : Dict String Document}

-- A search of the index is a scan of the stored documents.
theorem search_scan (hdiv : DividesPositive α rows.size) (hready : engine.state = .ready)
    (h : engine.derived.Exact ctx rows) (query : String) {limit : Int} (hlimit : 1 ≤ limit) :
    search ctx engine query limit none =
      let terms := Analysis.analyze ctx.unicode query
      .ok ⟨rows.values.countP fun document => terms.any fun term => term ∈ ctx.tokens document,
        (sortedBy hitKey (ctx.scanHits rows terms)).take limit.toNat⟩ := by
  dsimp only
  rw [← scanHits_length]
  simp only [search, requireOperational_of_ready hready, Bind.bind, Except.bind]
  by_cases hterms : Analysis.analyze ctx.unicode query = []
  · have hnone : ctx.scanHits rows [] = [] := by
      simp [EngineContext.scanHits, EngineContext.matched]
    rw [hterms, searchLocked, if_pos rfl, hnone]
    simp [sortedBy]
  · rw [searchLocked_eq h hterms, Option.getD_none, lexicalHits_scan ctx rows hdiv, answer,
      KeySort.sliceTo_of_nonneg _ (by omega)]

end SearchEngine

section Example

attribute [local instance] rationalArith

theorem dividesPositive_rational (size : Nat) : DividesPositive ℚ size := by
  intro total count htotal hcount _ hzero
  rw [rationalArith_ofScientific] at hzero
  have hquotient : (total : ℚ) / count = 0 := hzero.trans (by simp)
  exact div_ne_zero (by exact_mod_cast htotal.ne') (by exact_mod_cast hcount.ne') hquotient

end Example

end PySearch
