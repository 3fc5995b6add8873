import PySearch.Lib.Dict
import PySearch.Lib.Script
import PySearch.Search.Errors
import PySearch.Search.Results

namespace PySearch

-- `ids` lists the documents by row, `positions` is the way back, and the rows of
-- `matrix` past the number of documents hold nothing of interest.
structure ExactVectorIndex (α : Type) where
  dimension : Nat
  ids : List String
  positions : Dict String Nat
  matrix : List (List α)

structure ScoredDocument (α : Type) where
  documentId : String
  score : α

variable {α : Type} [Arith α]

namespace ExactVectorIndex

open Script (Stmt)

def initialCapacity : Nat := 64

def normTolerance : α := 1e-3

def zeros (rows dimension : Nat) : List (List α) :=
  List.replicate rows (List.replicate dimension 0.0)

def new (dimension : Nat) : ExactVectorIndex α :=
  ⟨dimension, [], .empty, zeros initialCapacity dimension⟩

def count (vectors : ExactVectorIndex α) : Nat := vectors.ids.length

-- The row that `positions` gives a document.
def vectorOf (vectors : ExactVectorIndex α) (documentId : String) : Option (List α) :=
  (vectors.positions.get? documentId).bind fun position => vectors.matrix[position]?

def documentIds (vectors : ExactVectorIndex α) : FrozenSet String := .ofKeys vectors.positions

-- `_validate`: the shape and the values one vector must have.
def check (dimension : Nat) (vector : List α) : Except PyError (List α) :=
  if vector.length ≠ dimension then .error (.vectorIndex (.width vector.length dimension))
  else if vector.all Arith.isFinite then .ok vector
  else .error (.vectorIndex .nonFinite)

def checkVector (vector : List α) : Stmt (ExactVectorIndex α) PyError := fun vectors =>
  (check vectors.dimension vector).map fun _ => vectors

def growIfNeeded (required : Nat) : Stmt (ExactVectorIndex α) PyError := fun vectors =>
  let capacity := vectors.matrix.length
  if required ≤ capacity then .ok vectors
  else .ok { vectors with
    matrix := vectors.matrix ++ zeros (max required (capacity * 2) - capacity) vectors.dimension }

def appendId (documentId : String) : Stmt (ExactVectorIndex α) PyError := fun vectors =>
  .ok { vectors with ids := vectors.ids ++ [documentId] }

def setPosition (documentId : String) (position : Nat) : Stmt (ExactVectorIndex α) PyError :=
  fun vectors => .ok { vectors with positions := vectors.positions.set documentId position }

def setRow (position : Nat) (row : List α) : Stmt (ExactVectorIndex α) PyError := fun vectors =>
  if position < vectors.matrix.length then
    .ok { vectors with matrix := vectors.matrix.set position row }
  else .error .unexpected

-- The statements of `add`. A vector the document already had is replaced in place.
def addScript (vectors : ExactVectorIndex α) (documentId : String) (vector : List α) :
    List (Stmt (ExactVectorIndex α) PyError) :=
  checkVector vector ::
    match vectors.positions.get? documentId with
    | none =>
        [growIfNeeded (vectors.ids.length + 1), appendId documentId,
          setPosition documentId vectors.ids.length, setRow vectors.ids.length vector]
    | some position => [setRow position vector]

def add (vectors : ExactVectorIndex α) (documentId : String) (vector : List α) :
    Except PyError (ExactVectorIndex α) :=
  Script.exec (addScript vectors documentId vector) vectors

def popPosition (documentId : String) : Stmt (ExactVectorIndex α) PyError := fun vectors =>
  .ok { vectors with positions := vectors.positions.erase documentId }

def copyRow (source position : Nat) : Stmt (ExactVectorIndex α) PyError := fun vectors =>
  match vectors.matrix[source]? with
  | none => .error .unexpected
  | some row => setRow position row vectors

def setId (position : Nat) (documentId : String) : Stmt (ExactVectorIndex α) PyError :=
  fun vectors => .ok { vectors with ids := vectors.ids.set position documentId }

def popId : Stmt (ExactVectorIndex α) PyError := fun vectors =>
  .ok { vectors with ids := vectors.ids.dropLast }

-- The statements of `remove`: the last live row moves into the hole.
def removeScript (vectors : ExactVectorIndex α) (documentId : String) :
    List (Stmt (ExactVectorIndex α) PyError) :=
  match vectors.positions.get? documentId, vectors.ids.getLast? with
  | none, _ => []
  | some _, none => [popPosition documentId, fun _ => .error .unexpected]
  | some position, some moved =>
      let last := vectors.ids.length - 1
      [popPosition documentId] ++
        (if position ≠ last then
          [copyRow last position, setId position moved, setPosition moved position]
        else []) ++
        [popId]

-- `remove` also reports whether there was a vector.
def remove (vectors : ExactVectorIndex α) (documentId : String) :
    Except PyError (ExactVectorIndex α × Bool) :=
  (Script.exec (removeScript vectors documentId) vectors).map fun after =>
    (after, vectors.positions.contains documentId)

def clear (vectors : ExactVectorIndex α) : ExactVectorIndex α := new vectors.dimension

def misplaced (vectors : ExactVectorIndex α) (entry : String × Nat) : Bool :=
  vectors.positions.get? entry.1 ≠ some entry.2

variable [LinearOrder α]

def search (vectors : ExactVectorIndex α) (query : List α) (limit : Int) :
    Except PyError (List (ScoredDocument α)) :=
  if limit < 1 then .error (.valueError ("limit must be at least 1, got " ++ toString limit))
  else if vectors.ids = [] then .ok []
  else do
    let checked ← check vectors.dimension query
    let scores := (vectors.matrix.take vectors.ids.length).map fun row => Arith.dot row checked
    if scores.length ≠ vectors.ids.length then
      .error (.valueError "zip() argument 2 is shorter than argument 1")
    let ranked := KeySort.sortedBy (fun hit : String × α => rankKey hit.2 hit.1)
      (vectors.ids.zip scores)
    return (KeySort.sliceTo ranked limit).map fun hit => ⟨hit.1, hit.2⟩

-- A zero vector is allowed: text that embeds to nothing has no direction.
def unit (row : List α) : Bool :=
  let norm : α := Arith.norm row
  norm = 0.0 || Arith.abs (norm - 1.0) ≤ normTolerance

def validate (vectors : ExactVectorIndex α) : Except PyError Unit := do
  if vectors.ids.length ≠ vectors.positions.size then
    .error (.vectorIndex (.positionCount vectors.ids.length vectors.positions.size))
  match vectors.ids.zipIdx.find? vectors.misplaced with
  | some (documentId, row) => .error (.vectorIndex (.misplaced documentId row))
  | none => .ok ()
  let live := vectors.matrix.take vectors.ids.length
  match live.find? fun row => row.length ≠ vectors.dimension with
  | some row => .error (.vectorIndex (.width row.length vectors.dimension))
  | none => .ok ()
  if !live.all fun row => row.all Arith.isFinite then .error (.vectorIndex .nonFinite)
  match (vectors.ids.zip live).find? fun entry => !unit entry.2 with
  | some (documentId, _) => .error (.vectorIndex (.notUnit documentId))
  | none => .ok ()

end ExactVectorIndex

end PySearch
