import PySearch.Search.Arith

namespace PySearch

-- Everything that must match for two copies' vectors to be comparable.
structure SemanticIdentity where
  implementation : String
  modelId : String
  modelRevision : String
  dimension : Nat
  normalization : String
  deriving DecidableEq

def SemanticIdentity.isCompatibleWith (self other : SemanticIdentity) : Bool := self = other

-- An embedder, when it answers: one vector for each text, whatever batch the text is in.
-- The vector index refuses a dimension below one, so such an embedder has no engine.
structure Embedder (α : Type) where
  identity : SemanticIdentity
  embed : String → List α
  embedQuery : String → List α
  positive : 1 ≤ identity.dimension

def Embedder.embedDocuments {α : Type} (embedder : Embedder α) (texts : List String) :
    List (List α) := texts.map embedder.embed

-- The one-dimensional embedder that gives every text the same unit vector.
def Embedder.constant {α : Type} [Arith α] : Embedder α where
  identity := ⟨"constant", "constant", "1", 1, "l2"⟩
  embed _ := [1.0]
  embedQuery _ := [1.0]
  positive := by decide

end PySearch
