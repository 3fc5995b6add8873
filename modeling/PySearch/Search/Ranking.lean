import PySearch.Search.Index

namespace PySearch

structure BM25Params (α : Type) where
  k1 : α
  b : α

variable {α : Type} [Arith α]

def defaultBM25Params : BM25Params α := ⟨1.2, 0.75⟩

namespace BM25Scorer

def inverseDocumentFrequency (documentFrequency documentCount : Int) : α :=
  let numerator : α := Arith.ofInt (documentCount - documentFrequency) + 0.5
  let denominator : α := Arith.ofInt documentFrequency + 0.5
  Arith.log (1.0 + numerator / denominator)

-- What one occurrence of a query term adds to the score of one document.
def contribution (params : BM25Params α) (idf averageLength : α)
    (termFrequency documentLength : Int) : α :=
  let lengthRatio := Arith.ofInt documentLength / averageLength
  let saturation := Arith.ofInt termFrequency +
    params.k1 * (1.0 - params.b + params.b * lengthRatio)
  idf * (Arith.ofInt termFrequency * (params.k1 + 1.0)) / saturation

-- One round of the loop over the query terms.
def scoreTerm (params : BM25Params α) (index : InvertedIndex) (stats : CorpusStats)
    (averageLength : α) (scores : Dict String α) (term : String) : Dict String α :=
  let postings := index.postingMap term
  if postings.size = 0 then scores
  else
    let idf := inverseDocumentFrequency (stats.documentFrequency term) stats.documentCount
    postings.entries.foldl
      (fun scores (documentId, termFrequency) =>
        scores.set documentId (scores.getD documentId 0.0 +
          contribution params idf averageLength termFrequency (index.documentLength documentId)))
      scores

variable [LinearOrder α]

-- Statistics left out are read from the index, which is the single-node case.
def scoreQuery (params : BM25Params α) (index : InvertedIndex) (terms : List String)
    (corpusStats : Option CorpusStats) : Dict String α :=
  let stats := corpusStats.getD (index.corpusStats terms)
  let averageLength : α := stats.averageDocumentLength
  if stats.documentCount = 0 ∨ averageLength = 0.0 then .empty
  else terms.foldl (scoreTerm params index stats averageLength) .empty

end BM25Scorer

end PySearch
