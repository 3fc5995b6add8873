import PySearch.Lib.Dict
import PySearch.Lib.KeySort
import PySearch.Search.Document
import Mathlib.Data.String.Basic

namespace PySearch

-- What one database file holds: the rows of `documents` by primary key, and the
-- generation of `shard_metadata`. A transaction replaces the whole value.
structure Database where
  rows : Dict String Document
  generation : Int
  keyed : ∀ id document, rows.get? id = some document → document.documentId = id

namespace Database

def empty : Database := ⟨.empty, 0, by simp⟩

def put (database : Database) (document : Document) (generation : Int) : Database where
  rows := database.rows.set document.documentId document
  generation := generation
  keyed := by
    intro id found h
    rw [Dict.get?_set] at h
    split at h
    · rename_i he
      cases h
      exact he.symm
    · exact database.keyed id found h

def delete (database : Database) (documentId : String) (generation : Int) : Database where
  rows := database.rows.erase documentId
  generation := generation
  keyed := by
    intro id found h
    rw [Dict.get?_erase] at h
    split at h
    · cases h
    · exact database.keyed id found h

def insertAll (documents : List Document) : Dict String Document :=
  documents.foldl (fun rows document => rows.set document.documentId document) .empty

def replaceAll (documents : List Document) (generation : Int) : Database where
  rows := insertAll documents
  generation := generation
  keyed := by
    have hkeep : ∀ (documents : List Document) (rows : Dict String Document),
        (∀ id found, rows.get? id = some found → found.documentId = id) →
        ∀ id found, (documents.foldl (fun rows document => rows.set document.documentId document)
          rows).get? id = some found → found.documentId = id := by
      intro documents
      induction documents with
      | nil => exact fun _ h => h
      | cons document rest ih =>
          intro rows h
          apply ih
          intro id found hf
          rw [Dict.get?_set] at hf
          split at hf
          · rename_i he
            cases hf
            exact he.symm
          · exact h id found hf
    exact hkeep documents .empty (by simp)

-- The rows in the order of `ORDER BY document_id`.
def documents (database : Database) : List Document :=
  KeySort.sortedBy Document.documentId database.rows.values

end Database

-- One committed change of a corpus.
inductive Mutation
  | put (document : Document)
  | delete (documentId : String)
  deriving DecidableEq

def Mutation.documentId : Mutation → String
  | put document => document.documentId
  | delete documentId => documentId

-- What is stored under the identifier afterwards.
def Mutation.stored : Mutation → Option Document
  | put document => some document
  | delete _ => none

def Database.apply (database : Database) : Mutation → Int → Database
  | .put document, generation => database.put document generation
  | .delete documentId, generation => database.delete documentId generation

@[simp] theorem Database.apply_generation (database : Database) (mutation : Mutation)
    (generation : Int) : (database.apply mutation generation).generation = generation := by
  cases mutation <;> rfl

theorem Database.apply_get? (database : Database) (mutation : Mutation) (generation : Int)
    (id : String) : (database.apply mutation generation).rows.get? id =
      if id = mutation.documentId then mutation.stored else database.rows.get? id := by
  cases mutation with
  | put document => exact Dict.get?_set _ _ _ _
  | delete documentId => exact Dict.get?_erase _ _ _

-- What a database holds after further mutations, committed one by one.
def Database.extended (database : Database) (mutations : List Mutation) : Database :=
  mutations.foldl (fun database mutation => database.apply mutation (database.generation + 1))
    database

def Database.replay (history : List Mutation) : Database := Database.empty.extended history

theorem Database.extended_append (database : Database) (mutations later : List Mutation) :
    database.extended (mutations ++ later) = (database.extended mutations).extended later :=
  List.foldl_append

theorem Database.replay_append (history : List Mutation) (mutation : Mutation) :
    replay (history ++ [mutation]) =
      (replay history).apply mutation ((replay history).generation + 1) :=
  extended_append .empty history [mutation]

theorem Database.extended_generation (database : Database) (mutations : List Mutation) :
    (database.extended mutations).generation = database.generation + mutations.length := by
  induction mutations generalizing database with
  | nil => exact (Int.add_zero _).symm
  | cons mutation rest ih =>
      have hrest := ih (database.apply mutation (database.generation + 1))
      rw [apply_generation] at hrest
      rw [extended, List.foldl_cons, List.length_cons]
      refine hrest.trans ?_
      omega

@[simp] theorem Database.replay_generation (history : List Mutation) :
    (replay history).generation = history.length :=
  (extended_generation .empty history).trans (Int.zero_add _)

-- What a file may hold before it is opened: either table may be missing, and the table of
-- the generation may have no row.
structure DatabaseFile where
  documents : Option (Dict String Document)
  shardMetadata : Option (Option Int)
  keyed : ∀ rows, documents = some rows → ∀ id document, rows.get? id = some document →
    document.documentId = id

-- `CREATE TABLE IF NOT EXISTS` for both tables, and `INSERT OR IGNORE` of generation 0.
def DatabaseFile.withSchema (file : DatabaseFile) : Database where
  rows := file.documents.getD .empty
  generation := (file.shardMetadata.getD none).getD 0
  keyed := by
    cases hrows : file.documents with
    | none => simp
    | some rows => exact file.keyed rows hrows

structure SqliteDocumentStore where
  database : Database
  closed : Bool

namespace SqliteDocumentStore

-- Opening creates nothing but missing tables, so it keeps what the file holds.
def openDatabase (database : Database) : SqliteDocumentStore := ⟨database, false⟩

def openFile (file : DatabaseFile) : SqliteDocumentStore := openDatabase file.withSchema

-- A call on a closed connection raises, as does a call that meets a database failure.
-- Either way the transaction is rolled back.
def unavailable (store : SqliteDocumentStore) (fault : Bool) : Bool := store.closed || fault

def put (store : SqliteDocumentStore) (document : Document) (generation : Int) (fault : Bool) :
    Except PyError (Bool × SqliteDocumentStore) :=
  if store.unavailable fault then .error (.storage "failed to store document")
  else .ok (!store.database.rows.contains document.documentId,
    { store with database := store.database.put document generation })

def delete (store : SqliteDocumentStore) (documentId : String) (generation : Int) (fault : Bool) :
    Except PyError (Bool × SqliteDocumentStore) :=
  if store.unavailable fault then .error (.storage "failed to delete document")
  else .ok (store.database.rows.contains documentId,
    { store with database := store.database.delete documentId generation })

-- A plain `INSERT` refuses a repeated primary key.
def replaceAll (store : SqliteDocumentStore) (documents : List Document) (generation : Int)
    (fault : Bool) : Except PyError SqliteDocumentStore :=
  if store.unavailable fault then .error (.storage "failed to replace the corpus")
  else if (documents.map Document.documentId).Nodup then
    .ok { store with database := .replaceAll documents generation }
  else .error (.storage "failed to replace the corpus")

def generation (store : SqliteDocumentStore) (fault : Bool) : Except PyError Int :=
  if store.unavailable fault then .error (.storage "failed to read the generation")
  else .ok store.database.generation

def iterDocuments (store : SqliteDocumentStore) (fault : Bool) : Except PyError (List Document) :=
  if store.unavailable fault then .error (.storage "failed to read documents")
  else .ok store.database.documents

def count (store : SqliteDocumentStore) (fault : Bool) : Except PyError Nat :=
  if store.unavailable fault then .error (.storage "failed to count documents")
  else .ok store.database.rows.size

def close (store : SqliteDocumentStore) : SqliteDocumentStore := { store with closed := true }

end SqliteDocumentStore

end PySearch
