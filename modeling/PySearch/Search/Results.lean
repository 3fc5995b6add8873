import PySearch.Lib.KeySort
import PySearch.Search.Arith
import Mathlib.Data.String.Basic

namespace PySearch

structure SearchResult (α : Type) where
  documentId : String
  score : α
  text : String
  deriving DecidableEq

structure SearchResults (α : Type) where
  total : Nat
  results : List (SearchResult α)
  deriving DecidableEq

-- The sort key of every ranking of the program: score descending, identifier ascending.
def rankKey {α : Type} [Arith α] (score : α) (documentId : String) : α ×ₗ String :=
  toLex (-score, documentId)

theorem rankKey_id {α : Type} [Arith α] {a b : α} {id other : String}
    (h : rankKey a id = rankKey b other) : id = other :=
  congrArg (fun key => (ofLex key).2) h

end PySearch
