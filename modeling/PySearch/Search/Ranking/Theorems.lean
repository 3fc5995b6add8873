import PySearch.Search.Ranking
import PySearch.Search.Index.Theorems

namespace PySearch.BM25Scorer

open InvertedIndex

variable {α : Type} [Arith α]

-- The score of one document, given corpus statistics: a sum over the query's terms in
-- order that reads nothing but the document's own tokens.
def addTerm (params : BM25Params α) (stats : CorpusStats) (averageLength : α)
    (tokens : List String) (score : Option α) (term : String) : Option α :=
  match occurrences term tokens with
  | none => score
  | some frequency => some (score.getD 0.0 + contribution params
      (inverseDocumentFrequency (stats.documentFrequency term) stats.documentCount)
      averageLength frequency tokens.length)

def documentScore [LinearOrder α] (params : BM25Params α) (stats : CorpusStats)
    (terms tokens : List String) : Option α :=
  let averageLength : α := stats.averageDocumentLength
  if stats.documentCount = 0 ∨ averageLength = 0.0 then none
  else terms.foldl (addTerm params stats averageLength tokens) none

variable {index : InvertedIndex} {corpus : Corpus}

theorem scoreTerm_get? (h : Image index corpus) (params : BM25Params α) (stats : CorpusStats)
    (averageLength : α) (scores : Dict String α) (term id : String) :
    (scoreTerm params index stats averageLength scores term).get? id =
      match corpus id with
      | none => scores.get? id
      | some tokens => addTerm params stats averageLength tokens (scores.get? id) term := by
  have hpost := h.posting term id
  rw [scoreTerm]
  dsimp only
  split
  · rename_i he
    rw [Dict.size_eq_zero_iff.mp he id] at hpost
    cases hc : corpus id with
    | none => rfl
    | some tokens =>
        simp only [hc, Option.bind_some] at hpost
        simp [addTerm, ← hpost]
  · refine (Dict.get?_foldl_update (index.postingMap term) (fun documentId frequency score =>
      score.getD 0.0 + contribution params (inverseDocumentFrequency
        (stats.documentFrequency term) stats.documentCount) averageLength frequency
        (index.documentLength documentId)) scores id).trans ?_
    rw [hpost]
    cases hc : corpus id with
    | none => rfl
    | some tokens =>
        have hl : index.documentLength id = tokens.length := by
          simp [documentLength, Dict.getD, h.lengths, hc]
        simp only [Option.bind_some, addTerm, hl]
        cases occurrences term tokens <;> rfl

-- Scoring through the postings gives each document the score of its own tokens.
theorem scoreQuery_get? [LinearOrder α] (h : Image index corpus) (params : BM25Params α)
    (terms : List String) (corpusStats : Option CorpusStats) (id : String) :
    (scoreQuery params index terms corpusStats).get? id =
      (corpus id).bind (documentScore params (corpusStats.getD (index.corpusStats terms)) terms) := by
  rw [scoreQuery]
  generalize corpusStats.getD (index.corpusStats terms) = stats
  split
  · rename_i hzero
    cases corpus id with
    | none => rfl
    | some tokens => exact (if_pos hzero).symm
  · rename_i hzero
    have hfold : ∀ scores : Dict String α,
        (terms.foldl (scoreTerm params index stats stats.averageDocumentLength) scores).get? id =
          match corpus id with
          | none => scores.get? id
          | some tokens =>
              terms.foldl (addTerm params stats stats.averageDocumentLength tokens)
                (scores.get? id) := by
      induction terms with
      | nil => intro scores; cases corpus id <;> rfl
      | cons term rest ih =>
          intro scores
          rw [List.foldl_cons, ih, scoreTerm_get? h]
          cases corpus id <;> rfl
    rw [hfold]
    cases corpus id with
    | none => rfl
    | some tokens => exact (if_neg hzero).symm

end PySearch.BM25Scorer
