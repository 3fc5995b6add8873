import PySearch.Search.Errors
import PySearch.Semantic.Embedder

namespace PySearch

def defaultModelId : String := "minishlab/potion-base-8M"

def defaultModelRevision : String := "bf8b056651a2c21b8d2565580b8569da283cab23"

def l2Normalization : String := "l2"

-- A two-dimensional array: every row is as wide as the array.
structure Vectors (α : Type) where
  width : Nat
  rows : List (List α)
  shaped : ∀ row ∈ rows, row.length = width

-- What a model returns, of which only the two-dimensional arrays are of use.
inductive NDArray (α : Type)
  | vectors (vectors : Vectors α)
  | other (ndim : Nat)

-- The model of the library. `none` is an exception, whichever it is.
structure StaticModel (α : Type) where
  dim : Nat
  encode : List String → Option (NDArray α)

structure Model2VecEmbedder (α : Type) where
  model : StaticModel α
  identity : SemanticIdentity

variable {α : Type} [Arith α]

-- The vectors, when the vector index may be asked to hold them.
def validateVectors (vectors : NDArray α) (dimension : Nat) : Except PyError (Vectors α) :=
  match vectors with
  | .other ndim => .error (.embedding
      ("expected a 2-D array of vectors, got " ++ toString ndim ++ " dimensions"))
  | .vectors vectors =>
      if vectors.width ≠ dimension then .error (.embedding ("expected vectors of dimension " ++
        toString dimension ++ ", got " ++ toString vectors.width))
      else if vectors.rows.all fun row => row.all Arith.isFinite then .ok vectors
      else .error (.embedding "embedding produced non-finite values")

variable [LinearOrder α]

-- A zero row has no direction, so it is left at zero rather than divided by zero.
def normalizeRow (row : List α) : List α :=
  let norm : α := Arith.norm row
  let safe : α := if norm = 0.0 then 1.0 else norm
  row.map fun value => value / safe

def normalizeRows (vectors : Vectors α) : Vectors α where
  width := vectors.width
  rows := vectors.rows.map normalizeRow
  shaped := by
    intro row hrow
    obtain ⟨raw, hraw, rfl⟩ := List.mem_map.mp hrow
    rw [normalizeRow, List.length_map, vectors.shaped raw hraw]

namespace Model2VecEmbedder

-- `load`: `library` is what the import gives, `none` where the extra is not installed, and it
-- fetches one revision of one model.
def load (library : Option (String → String → Option (StaticModel α)))
    (modelId : String := defaultModelId) (revision : String := defaultModelRevision) :
    Except PyError (Model2VecEmbedder α) :=
  match library with
  | none => .error (.embedding ("semantic search is enabled but its dependencies are not " ++
      "installed; install the 'semantic' extra"))
  | some fetch =>
      match fetch modelId revision with
      | none => .error (.embedding ("could not load embedding model " ++ modelId ++ "@" ++ revision))
      | some model =>
          .ok ⟨model, ⟨"model2vec", modelId, revision, model.dim, l2Normalization⟩⟩

-- `_encode`: the model runs, then the normalization policy of the module is enforced.
def encode (self : Model2VecEmbedder α) (texts : List String) : Except PyError (Vectors α) :=
  match self.model.encode texts with
  | none => .error (.embedding "embedding failed")
  | some raw => (validateVectors raw self.identity.dimension).map normalizeRows

def embedDocuments (self : Model2VecEmbedder α) (texts : List String) :
    Except PyError (Vectors α) :=
  if texts = [] then .ok ⟨self.identity.dimension, [], by simp⟩ else self.encode texts

def embedQuery (self : Model2VecEmbedder α) (text : String) : Except PyError (List α) := do
  let vectors ← self.encode [text]
  match vectors.rows.head? with
  | some row => return row
  | none => .error .unexpected

end Model2VecEmbedder

end PySearch
