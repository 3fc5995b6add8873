import PySearch.Search.Index.History
import PySearch.Search.Ranking.Theorems
import Mathlib.Algebra.Order.BigOperators.Group.List

namespace PySearch

section Merge

-- Statistics that score every query made of the given terms alike.
structure CorpusStats.Agree (terms : List String) (stats other : CorpusStats) : Prop where
  documentCount : stats.documentCount = other.documentCount
  totalDocumentLength : stats.totalDocumentLength = other.totalDocumentLength
  documentFrequency : ∀ term ∈ terms, stats.documentFrequency term = other.documentFrequency term

theorem CorpusStats.add_documentFrequency (sum part : CorpusStats) (term : String) :
    (sum.add part).documentFrequency term =
      sum.documentFrequency term + part.documentFrequency term := by
  have h := Dict.get?_foldl_update part.documentFrequencies
    (fun _ frequency previous => previous.getD 0 + frequency) sum.documentFrequencies term
  simp only [documentFrequency, Dict.getD, add]
  refine (congrArg (fun found => Option.getD found 0) h).trans ?_
  cases part.documentFrequencies.get? term <;> simp

theorem mergeCorpusStats_eq (parts : List CorpusStats) (term : String) :
    (mergeCorpusStats parts).documentCount = (parts.map CorpusStats.documentCount).sum ∧
    (mergeCorpusStats parts).totalDocumentLength =
      (parts.map CorpusStats.totalDocumentLength).sum ∧
    (mergeCorpusStats parts).documentFrequency term =
      (parts.map fun part => part.documentFrequency term).sum := by
  have hfold : ∀ (parts : List CorpusStats) (start : CorpusStats),
      (parts.foldl CorpusStats.add start).documentCount =
        start.documentCount + (parts.map CorpusStats.documentCount).sum ∧
      (parts.foldl CorpusStats.add start).totalDocumentLength =
        start.totalDocumentLength + (parts.map CorpusStats.totalDocumentLength).sum ∧
      (parts.foldl CorpusStats.add start).documentFrequency term =
        start.documentFrequency term + (parts.map fun part => part.documentFrequency term).sum := by
    intro parts
    induction parts with
    | nil => simp
    | cons part rest ih =>
        intro start
        obtain ⟨hcount, hlength, hfrequency⟩ := ih (start.add part)
        rw [CorpusStats.add_documentFrequency] at hfrequency
        rw [show (start.add part).documentCount = start.documentCount + part.documentCount from rfl]
          at hcount
        rw [show (start.add part).totalDocumentLength =
          start.totalDocumentLength + part.totalDocumentLength from rfl] at hlength
        simp only [List.foldl_cons, List.map_cons, List.sum_cons]
        omega
  have h := hfold parts .empty
  simpa [mergeCorpusStats, CorpusStats.empty, CorpusStats.documentFrequency, Dict.getD] using h

variable {α : Type} [Arith α] [LinearOrder α]

theorem documentScore_congr {terms : List String} {stats other : CorpusStats}
    (h : stats.Agree terms other) (params : BM25Params α) (tokens : List String) :
    BM25Scorer.documentScore params stats terms tokens =
      BM25Scorer.documentScore params other terms tokens := by
  have haverage : (stats.averageDocumentLength : α) = other.averageDocumentLength := by
    rw [CorpusStats.averageDocumentLength, CorpusStats.averageDocumentLength, h.documentCount,
      h.totalDocumentLength]
  have hfold : ∀ (remaining : List String) (score : Option α), (∀ term ∈ remaining, term ∈ terms) →
      remaining.foldl (BM25Scorer.addTerm params stats stats.averageDocumentLength tokens) score =
        remaining.foldl (BM25Scorer.addTerm params other other.averageDocumentLength tokens) score := by
    intro remaining
    induction remaining with
    | nil => exact fun _ _ => rfl
    | cons term rest ih =>
        intro score hsub
        rw [List.foldl_cons, List.foldl_cons, ih _ fun t ht => hsub t (.tail _ ht)]
        congr 1
        simp only [BM25Scorer.addTerm, haverage, h.documentCount,
          h.documentFrequency term (hsub term (.head _))]
  simp only [BM25Scorer.documentScore, h.documentCount, haverage]
  split
  · rfl
  · rw [← haverage]
    exact (hfold terms none fun _ ht => ht).trans (by rw [haverage])

end Merge

namespace CorpusStats

-- Counts are not negative.
structure NonNegative (stats : CorpusStats) : Prop where
  documentCount : 0 ≤ stats.documentCount
  totalDocumentLength : 0 ≤ stats.totalDocumentLength
  documentFrequency : ∀ term, 0 ≤ stats.documentFrequency term

-- No more documents contain a term than there are.
structure Counted (stats : CorpusStats) : Prop extends NonNegative stats where
  bounded : ∀ term, stats.documentFrequency term ≤ stats.documentCount

end CorpusStats

-- Sums of statistics keep what each part has.
theorem mergeCorpusStats_counted {parts : List CorpusStats} (h : ∀ part ∈ parts, part.Counted) :
    (mergeCorpusStats parts).Counted where
  documentCount := by
    rw [(mergeCorpusStats_eq parts "").1]
    exact List.sum_nonneg (List.forall_mem_map.mpr fun part hp => (h part hp).documentCount)
  totalDocumentLength := by
    rw [(mergeCorpusStats_eq parts "").2.1]
    exact List.sum_nonneg (List.forall_mem_map.mpr fun part hp => (h part hp).totalDocumentLength)
  documentFrequency term := by
    rw [(mergeCorpusStats_eq parts term).2.2]
    exact List.sum_nonneg (List.forall_mem_map.mpr fun part hp => (h part hp).documentFrequency term)
  bounded term := by
    rw [(mergeCorpusStats_eq parts term).1, (mergeCorpusStats_eq parts term).2.2]
    exact List.sum_le_sum fun part hp => (h part hp).bounded term

namespace InvertedIndex

section Statistics

variable {index : InvertedIndex} {corpus : Dict String (List String)}

theorem Image.corpusStats_counted (h : index.Image corpus.get?) (terms : List String) :
    (index.corpusStats terms).Counted := by
  have hfrequency : ∀ term, (index.corpusStats terms).documentFrequency term =
      if term ∈ terms then ((corpus.values.countP fun tokens => term ∈ tokens : Nat) : Int)
      else 0 := by
    intro term
    rw [CorpusStats.documentFrequency, corpusStats, Dict.getD, Dict.get?_comprehension]
    by_cases hterm : term ∈ terms
    · rw [if_pos hterm, if_pos hterm, Option.getD_some, h.tokens.documentFrequency_count]
      rfl
    · rw [if_neg hterm, if_neg hterm]
      rfl
  have hcount : (index.corpusStats terms).documentCount = (corpus.values.length : Nat) := by
    rw [corpusStats, h.tokens.documentCount_size, Dict.values, List.length_map]
    rfl
  refine ⟨⟨?_, ?_, ?_⟩, ?_⟩
  · rw [hcount]
    omega
  · rw [corpusStats, h.tokens.totalLength_sum]
    exact List.sum_nonneg (by simp)
  · intro term
    rw [hfrequency]
    split <;> omega
  · intro term
    have hle := @List.countP_le_length _ (fun tokens => term ∈ tokens) corpus.values
    rw [hfrequency, hcount]
    split <;> omega

-- An index that has a token counts a document and a positive length.
theorem Image.corpusStats_positive (h : index.Image corpus.get?) {id term : String}
    {tokens : List String} (hid : corpus.get? id = some tokens) (hterm : term ∈ tokens)
    (terms : List String) : 0 < (index.corpusStats terms).documentCount ∧
      0 < (index.corpusStats terms).totalDocumentLength := by
  have hvalue : tokens ∈ corpus.values := Dict.mem_values.mpr ⟨id, hid⟩
  refine ⟨?_, ?_⟩
  · have hpos := List.length_pos_of_mem hvalue
    rw [corpusStats, h.tokens.documentCount_size]
    rw [Dict.values, List.length_map] at hpos
    exact Int.ofNat_lt.mpr hpos
  · have hle := List.single_le_sum (l := corpus.values.map fun other => (other.length : Int))
      (by simp) _ (List.mem_map_of_mem hvalue)
    have hlength := List.length_pos_of_mem hterm
    rw [corpusStats, h.tokens.totalLength_sum]
    exact Int.lt_of_lt_of_le (by exact_mod_cast hlength) hle

-- The corpus-wide statistics of a collection of indexes, for the terms of a query.
def mergedStats (collection : List (List Call)) (terms : List String) : CorpusStats :=
  mergeCorpusStats (collection.map fun calls => (performAll calls).corpusStats terms)

variable {collection : List (List Call)}

theorem mergedStats_counted (collection : List (List Call)) (terms : List String) :
    (mergedStats collection terms).Counted := by
  apply mergeCorpusStats_counted
  intro part hpart
  obtain ⟨calls, -, rfl⟩ := List.mem_map.mp hpart
  exact (performAll_image calls).corpusStats_counted terms

theorem mergedStats_positive {calls : List Call} (hcalls : calls ∈ collection) {id term : String}
    {tokens : List String} (hid : (remaining calls).get? id = some tokens) (hterm : term ∈ tokens)
    (terms : List String) : 0 < (mergedStats collection terms).documentCount ∧
      0 < (mergedStats collection terms).totalDocumentLength := by
  have hparts : ∀ part ∈ collection.map fun calls => (performAll calls).corpusStats terms,
      part.Counted := by
    intro part hpart
    obtain ⟨calls, -, rfl⟩ := List.mem_map.mp hpart
    exact (performAll_image calls).corpusStats_counted terms
  have hmem : (performAll calls).corpusStats terms ∈
      collection.map fun calls => (performAll calls).corpusStats terms :=
    List.mem_map_of_mem hcalls
  obtain ⟨hcount, hlength⟩ := (performAll_image calls).corpusStats_positive hid hterm terms
  have hcounts := List.single_le_sum (List.forall_mem_map.mpr fun part hp =>
    (hparts part hp).documentCount) _ (List.mem_map_of_mem (f := CorpusStats.documentCount) hmem)
  have hlengths := List.single_le_sum (List.forall_mem_map.mpr fun part hp =>
    (hparts part hp).totalDocumentLength) _
    (List.mem_map_of_mem (f := CorpusStats.totalDocumentLength) hmem)
  rw [mergedStats, (mergeCorpusStats_eq _ "").1, (mergeCorpusStats_eq _ "").2.1]
  omega

-- The statistics for a longer query count the terms of the shorter one alike.
theorem mergedStats_agree (collection : List (List Call)) {terms more : List String}
    (hsub : terms ⊆ more) :
    (mergedStats collection terms).Agree terms (mergedStats collection more) := by
  refine ⟨?_, ?_, ?_⟩
  · rw [mergedStats, mergedStats, (mergeCorpusStats_eq _ "").1, (mergeCorpusStats_eq _ "").1,
      List.map_map, List.map_map]
    rfl
  · rw [mergedStats, mergedStats, (mergeCorpusStats_eq _ "").2.1, (mergeCorpusStats_eq _ "").2.1,
      List.map_map, List.map_map]
    rfl
  · intro term hterm
    rw [mergedStats, mergedStats, (mergeCorpusStats_eq _ term).2.2,
      (mergeCorpusStats_eq _ term).2.2, List.map_map, List.map_map]
    congr 1
    apply List.map_congr_left
    intro calls _
    simp only [Function.comp_apply, CorpusStats.documentFrequency, corpusStats, Dict.getD,
      Dict.get?_comprehension, if_pos hterm, if_pos (hsub hterm)]

end Statistics

end InvertedIndex

end PySearch
