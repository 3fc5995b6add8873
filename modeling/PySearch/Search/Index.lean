import PySearch.Lib.Dict
import PySearch.Lib.Script
import PySearch.Search.Arith
import PySearch.Search.Errors
import Mathlib.Order.Defs.LinearOrder

namespace PySearch

variable {α : Type} [Arith α]

-- The corpus-level inputs of BM25 for one set of terms.
structure CorpusStats where
  documentCount : Int
  totalDocumentLength : Int
  documentFrequencies : Dict String Int

namespace CorpusStats

def averageDocumentLength (stats : CorpusStats) : α :=
  if stats.documentCount = 0 then 0.0
  else Arith.intDiv stats.totalDocumentLength stats.documentCount

def documentFrequency (stats : CorpusStats) (term : String) : Int :=
  stats.documentFrequencies.getD term 0

def empty : CorpusStats := ⟨0, 0, .empty⟩

-- One round of the loop of `merge_corpus_stats`.
def add (sum part : CorpusStats) : CorpusStats where
  documentCount := sum.documentCount + part.documentCount
  totalDocumentLength := sum.totalDocumentLength + part.totalDocumentLength
  documentFrequencies := part.documentFrequencies.entries.foldl
    (fun d (term, frequency) => d.set term (d.getD term 0 + frequency)) sum.documentFrequencies

end CorpusStats

def mergeCorpusStats (parts : List CorpusStats) : CorpusStats :=
  parts.foldl CorpusStats.add .empty

structure IndexStats (α : Type) where
  documentCount : Nat
  uniqueTermCount : Nat
  averageDocumentLength : α
  totalTokenCount : Int

-- `postings` maps a term to the documents that contain it and its frequency there,
-- `documentTerms` is the forward map that makes deletion cheap.
structure InvertedIndex where
  postings : Dict String (Dict String Int)
  documentTerms : Dict String (FrozenSet String)
  documentLengths : Dict String Int
  totalLength : Int

-- `collections.Counter`.
def counter (tokens : List String) : Dict String Int :=
  tokens.foldl (fun d token => d.set token (d.getD token 0 + 1)) .empty

namespace InvertedIndex

open Script (Stmt)

def empty : InvertedIndex := ⟨.empty, .empty, .empty, 0⟩

def documentCount (index : InvertedIndex) : Nat := index.documentLengths.size

def uniqueTermCount (index : InvertedIndex) : Nat := index.postings.size

def totalTokenCount (index : InvertedIndex) : Int := index.totalLength

def averageDocumentLength (index : InvertedIndex) : α :=
  if index.documentLengths.size = 0 then 0.0
  else Arith.intDiv index.totalLength index.documentLengths.size

def contains (index : InvertedIndex) (documentId : String) : Bool :=
  index.documentLengths.contains documentId

def documentIds (index : InvertedIndex) : FrozenSet String := .ofKeys index.documentLengths

def documentLength (index : InvertedIndex) (documentId : String) : Int :=
  index.documentLengths.getD documentId 0

def postingMap (index : InvertedIndex) (term : String) : Dict String Int :=
  index.postings.getD term .empty

def documentFrequency (index : InvertedIndex) (term : String) : Int :=
  (index.postingMap term).size

def termFrequency (index : InvertedIndex) (term documentId : String) : Int :=
  (index.postingMap term).getD documentId 0

def corpusStats (index : InvertedIndex) (terms : List String) : CorpusStats where
  documentCount := index.documentCount
  totalDocumentLength := index.totalLength
  documentFrequencies := Dict.comprehension terms id index.documentFrequency

def stats (index : InvertedIndex) : IndexStats α where
  documentCount := index.documentCount
  uniqueTermCount := index.uniqueTermCount
  averageDocumentLength := index.averageDocumentLength
  totalTokenCount := index.totalTokenCount

-- `del self._postings[term][document_id]`
def deletePosting (documentId term : String) : Stmt InvertedIndex PyError := fun index =>
  match index.postings.get? term with
  | none => .error (.keyError term)
  | some postings =>
      if postings.contains documentId then
        .ok { index with postings := index.postings.set term (postings.erase documentId) }
      else .error (.keyError documentId)

-- A term nobody contains is not part of the vocabulary any more.
def dropIfEmpty (term : String) : Stmt InvertedIndex PyError := fun index =>
  match index.postings.get? term with
  | none => .ok index
  | some postings =>
      if postings.size = 0 then .ok { index with postings := index.postings.erase term }
      else .ok index

def requireIndexed (documentId : String) : Stmt InvertedIndex PyError := fun index =>
  if index.documentLengths.contains documentId then .ok index
  else .error (.keyError documentId)

def popTerms (documentId : String) : Stmt InvertedIndex PyError := fun index =>
  if index.documentTerms.contains documentId then
    .ok { index with documentTerms := index.documentTerms.erase documentId }
  else .error (.keyError documentId)

def popLength (documentId : String) : Stmt InvertedIndex PyError := fun index =>
  match index.documentLengths.get? documentId with
  | none => .error (.keyError documentId)
  | some length =>
      .ok { index with
        documentLengths := index.documentLengths.erase documentId
        totalLength := index.totalLength - length }

def recordedTerms (index : InvertedIndex) (documentId : String) : List String :=
  match index.documentTerms.get? documentId with
  | none => []
  | some terms => terms.elems

-- The statements of `remove_document`, in the order in which they run.
def removeDocumentScript (index : InvertedIndex) (documentId : String) :
    List (Stmt InvertedIndex PyError) :=
  [requireIndexed documentId, popTerms documentId] ++
    (index.recordedTerms documentId).flatMap
      (fun term => [deletePosting documentId term, dropIfEmpty term]) ++
    [popLength documentId]

def removeDocument (index : InvertedIndex) (documentId : String) : Except PyError InvertedIndex :=
  Script.exec (removeDocumentScript index documentId) index

-- `self._postings.setdefault(term, {})[document_id] = term_frequency`
def setPosting (documentId : String) (entry : String × Int) : Stmt InvertedIndex PyError :=
  fun index => .ok { index with
    postings := index.postings.set entry.1 ((index.postingMap entry.1).set documentId entry.2) }

def setTerms (documentId : String) (terms : FrozenSet String) : Stmt InvertedIndex PyError :=
  fun index => .ok { index with documentTerms := index.documentTerms.set documentId terms }

def setLength (documentId : String) (length : Int) : Stmt InvertedIndex PyError :=
  fun index => .ok { index with documentLengths := index.documentLengths.set documentId length }

def addLength (length : Int) : Stmt InvertedIndex PyError :=
  fun index => .ok { index with totalLength := index.totalLength + length }

def insertScript (documentId : String) (tokens : List String) :
    List (Stmt InvertedIndex PyError) :=
  (counter tokens).entries.map (setPosting documentId) ++
    [setTerms documentId (.ofKeys (counter tokens)), setLength documentId tokens.length,
      addLength tokens.length]

-- The statements of `add_document`: a replacement is a removal followed by an insertion.
def addDocumentScript (index : InvertedIndex) (documentId : String) (tokens : List String) :
    List (Stmt InvertedIndex PyError) :=
  (if index.contains documentId then removeDocumentScript index documentId else []) ++
    insertScript documentId tokens

def addDocument (index : InvertedIndex) (documentId : String) (tokens : List String) :
    Except PyError InvertedIndex :=
  Script.exec (addDocumentScript index documentId tokens) index

def require (condition : Bool) (violation : IndexViolation) : Except PyError Unit :=
  if condition then .ok () else .error (.indexInvariant violation)

def validateCoverage (index : InvertedIndex) : Except PyError Unit :=
  require (index.documentTerms.keys.all index.documentLengths.contains &&
    index.documentLengths.keys.all index.documentTerms.contains) .coverage

def validateTotal (index : InvertedIndex) : Except PyError Unit :=
  require (index.totalLength = index.documentLengths.values.sum)
    (.totalLength index.totalLength index.documentLengths.values.sum)

def validateLengths (index : InvertedIndex) : Except PyError Unit :=
  require (index.documentLengths.values.all fun length => 0 ≤ length) .negativeLength

def validatePosting (index : InvertedIndex) (term : String) (entry : String × Int) :
    Except PyError Unit := do
  require (index.documentLengths.contains entry.1) (.unknownDocument term entry.1)
  require (1 ≤ entry.2) (.termFrequency term entry.1 entry.2)
  match index.documentTerms.get? entry.1 with
  | none => .error (.keyError entry.1)
  | some terms => require (term ∈ terms) (.missingTerm entry.1 term)

def validatePostings (index : InvertedIndex) (entry : String × Dict String Int) :
    Except PyError Unit := do
  require (entry.2.size ≠ 0) (.emptyPostings entry.1)
  entry.2.entries.forM (validatePosting index entry.1)

def sumFrequency (index : InvertedIndex) (documentId : String) (summed : Int) (term : String) :
    Except PyError Int :=
  match (index.postingMap term).get? documentId with
  | none => .error (.indexInvariant (.missingPosting term documentId))
  | some frequency => .ok (summed + frequency)

def validateDocument (index : InvertedIndex) (entry : String × FrozenSet String) :
    Except PyError Unit := do
  let summed ← entry.2.elems.foldlM (sumFrequency index entry.1) 0
  match index.documentLengths.get? entry.1 with
  | none => .error (.keyError entry.1)
  | some length => require (summed = length) (.lengthMismatch entry.1 length summed)

def validate (index : InvertedIndex) : Except PyError Unit := do
  validateCoverage index
  validateTotal index
  validateLengths index
  index.postings.entries.forM (validatePostings index)
  index.documentTerms.entries.forM (validateDocument index)

end InvertedIndex

end PySearch
