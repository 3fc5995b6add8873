import PySearch.Lib.Dict
import PySearch.Search.Errors
import PySearch.Search.Results

namespace PySearch

-- How the two rankings are combined. The constructor refuses a constant or a multiplier
-- below one.
structure FusionConfig where
  rrfK : Int
  candidateMultiplier : Int
  maxCandidateDepth : Int
  rrfK_pos : 1 ≤ rrfK
  multiplier_pos : 1 ≤ candidateMultiplier

namespace FusionConfig

def default : FusionConfig := ⟨60, 5, 100, by decide, by decide⟩

-- How many candidates to ask each retrieval path for.
def candidateDepth (config : FusionConfig) (limit : Int) : Int :=
  min (limit * config.candidateMultiplier) config.maxCandidateDepth

end FusionConfig

structure HybridHit (α : Type) where
  documentId : String
  score : α
  text : String
  lexicalRank : Option Nat
  semanticRank : Option Nat
  lexicalScore : Option α
  semanticScore : Option α
  deriving DecidableEq

structure HybridResults (α : Type) where
  total : Nat
  results : List (HybridHit α)
  deriving DecidableEq

-- One document's contributions while the lists are walked.
structure Candidate (α : Type) where
  documentId : String
  text : String
  lexicalRank : Option Nat
  semanticRank : Option Nat
  lexicalScore : Option α
  semanticScore : Option α
  score : α

variable {α : Type} [Arith α]

namespace Fusion

def setdefault (candidates : Dict String (Candidate α)) (hit : SearchResult α) : Candidate α :=
  candidates.getD hit.documentId ⟨hit.documentId, hit.text, none, none, none, none, 0.0⟩

def reciprocal (rrfK : Int) (rank : Nat) : α := 1.0 / Arith.ofInt (rrfK + rank)

def addLexical (rrfK : Int) (candidates : Dict String (Candidate α))
    (entry : SearchResult α × Nat) : Dict String (Candidate α) :=
  let candidate := setdefault candidates entry.1
  candidates.set entry.1.documentId { candidate with
    lexicalRank := some entry.2
    lexicalScore := some entry.1.score
    score := candidate.score + reciprocal rrfK entry.2 }

def addSemantic (rrfK : Int) (candidates : Dict String (Candidate α))
    (entry : SearchResult α × Nat) : Dict String (Candidate α) :=
  let candidate := setdefault candidates entry.1
  candidates.set entry.1.documentId { candidate with
    semanticRank := some entry.2
    semanticScore := some entry.1.score
    score := candidate.score + reciprocal rrfK entry.2 }

-- Ranks are one-based.
def candidates (rrfK : Int) (lexical semantic : SearchResults α) : Dict String (Candidate α) :=
  (semantic.results.zipIdx 1).foldl (addSemantic rrfK)
    ((lexical.results.zipIdx 1).foldl (addLexical rrfK) .empty)

def toHit (candidate : Candidate α) : HybridHit α where
  documentId := candidate.documentId
  score := candidate.score
  text := candidate.text
  lexicalRank := candidate.lexicalRank
  semanticRank := candidate.semanticRank
  lexicalScore := candidate.lexicalScore
  semanticScore := candidate.semanticScore

end Fusion

open Fusion in
def reciprocalRankFusion [LinearOrder α] (lexical semantic : SearchResults α) (limit : Int)
    (config : FusionConfig) : Except PyError (HybridResults α) :=
  if limit < 1 then .error (.valueError ("limit must be at least 1, got " ++ toString limit))
  else
    let candidates := candidates config.rrfK lexical semantic
    let ordered := KeySort.sortedBy
      (fun candidate : Candidate α => rankKey candidate.score candidate.documentId)
      candidates.values
    .ok ⟨candidates.size, (KeySort.sliceTo ordered limit).map toHit⟩

end PySearch
