import PySearch.Lib.Transaction
import PySearch.Search.Errors
import PySearch.Storage.SqliteStore

namespace PySearch

open Script (Stmt)
open Transaction (Connection select modify direct)

-- What `sqlite3.Error` covers.
inductive SqlError
  | noSuchTable
  | constraint
  | failure
  deriving DecidableEq

-- The tables of a database file, either of which may be missing. The second one can have no
-- other row than the one with id 0.
structure SqlFile where
  documents : Option (Dict String String)
  shardMetadata : Option (Option Int)

namespace SqlFile

def rows (file : SqlFile) : Dict String String := file.documents.getD .empty

def hasDocuments (file : SqlFile) : Except SqlError Unit :=
  if file.documents.isSome then .ok () else .error .noSuchTable

def onDocuments (change : Stmt (Dict String String) SqlError) : Stmt SqlFile SqlError := fun file =>
  match file.documents with
  | none => .error .noSuchTable
  | some rows => (change rows).map fun rows => { file with documents := some rows }

def onShardMetadata (change : Option Int → Option Int) : Stmt SqlFile SqlError := fun file =>
  match file.shardMetadata with
  | none => .error .noSuchTable
  | some row => .ok { file with shardMetadata := some (change row) }

-- `CREATE TABLE IF NOT EXISTS`
def createDocuments : Stmt SqlFile SqlError := fun file =>
  .ok { file with documents := some file.rows }

def createShardMetadata : Stmt SqlFile SqlError := fun file =>
  .ok { file with shardMetadata := some (file.shardMetadata.getD none) }

-- `INSERT OR IGNORE INTO shard_metadata (id, generation) VALUES (0, 0)`
def insertOrIgnore : Stmt SqlFile SqlError := onShardMetadata fun row => some (row.getD 0)

def insertOrReplace (document : Document) : Stmt SqlFile SqlError := onDocuments fun rows =>
  .ok (rows.set document.documentId document.text)

-- A plain `INSERT` refuses a repeated primary key.
def insert (document : Document) : Stmt SqlFile SqlError := onDocuments fun rows =>
  if rows.contains document.documentId then .error .constraint
  else .ok (rows.set document.documentId document.text)

def deleteFrom (documentId : String) : Stmt SqlFile SqlError := onDocuments fun rows =>
  .ok (rows.erase documentId)

def deleteAll : Stmt SqlFile SqlError := onDocuments fun _ => .ok .empty

-- `UPDATE shard_metadata SET generation = ? WHERE id = 0`
def setGeneration (generation : Int) : Stmt SqlFile SqlError := onShardMetadata fun row =>
  row.map fun _ => generation

end SqlFile

-- The store as its statements: one connection, with the transaction it has open.
structure SqlStore where
  connection : Connection SqlFile
  closed : Bool

namespace SqlStore

open SqlFile (createDocuments createShardMetadata insertOrIgnore insertOrReplace insert deleteFrom
  deleteAll setGeneration hasDocuments)

-- `open`: the two pragmas do nothing to the tables, `CREATE` runs outside of any transaction,
-- and the last statement commits.
def openScript : List (Stmt (Connection SqlFile) SqlError) :=
  [.ok, direct createDocuments, direct createShardMetadata, modify insertOrIgnore, .ok,
    fun connection => .ok connection.commit]

-- The second component is the file that is left.
def openFile (location : String) (file : SqlFile) (fault : Option (Nat × SqlError)) :
    Except PyError SqlStore × SqlFile :=
  match Script.run openScript fault (.ofFile file) with
  | (connection, none) => (.ok ⟨connection, false⟩, connection.file)
  | (connection, some _) =>
      (.error (.storage ("could not open storage at " ++ location)), connection.file)

-- `with self._connection:` around some statements. A closed connection refuses.
def transaction (store : SqlStore) (block : List (Stmt (Connection SqlFile) SqlError))
    (fault : Option (Nat × SqlError)) : Option SqlError × SqlStore :=
  if store.closed then (some .failure, store)
  else
    let (connection, raised) := Transaction.withConnection block fault store.connection
    (raised, { store with connection := connection })

def putBlock (document : Document) (generation : Int) :
    List (Stmt (Connection SqlFile) SqlError) :=
  [select hasDocuments, modify (insertOrReplace document), modify (setGeneration generation)]

def deleteBlock (documentId : String) (generation : Int) :
    List (Stmt (Connection SqlFile) SqlError) :=
  [modify (deleteFrom documentId), modify (setGeneration generation)]

def replaceBlock (documents : List Document) (generation : Int) :
    List (Stmt (Connection SqlFile) SqlError) :=
  (deleteAll :: documents.map insert ++ [setGeneration generation]).map modify

def put (store : SqlStore) (document : Document) (generation : Int)
    (fault : Option (Nat × SqlError)) : Except PyError Bool × SqlStore :=
  let existing := store.connection.view.rows.get? document.documentId
  match store.transaction (putBlock document generation) fault with
  | (some _, store) => (.error (.storage "failed to store document"), store)
  | (none, store) => (.ok existing.isNone, store)

def delete (store : SqlStore) (documentId : String) (generation : Int)
    (fault : Option (Nat × SqlError)) : Except PyError Bool × SqlStore :=
  -- `cursor.rowcount > 0`
  let matched := store.connection.view.rows.contains documentId
  match store.transaction (deleteBlock documentId generation) fault with
  | (some _, store) => (.error (.storage "failed to delete document"), store)
  | (none, store) => (.ok matched, store)

def replaceAll (store : SqlStore) (documents : List Document) (generation : Int)
    (fault : Option (Nat × SqlError)) : Except PyError Unit × SqlStore :=
  match store.transaction (replaceBlock documents generation) fault with
  | (some _, store) => (.error (.storage "failed to replace the corpus"), store)
  | (none, store) => (.ok (), store)

-- A query raises on a closed connection, without its table, or when the database fails.
def query {β : Type} (store : SqlStore) (table : SqlFile → Option β) (fault : Bool)
    (message : String) : Except PyError β :=
  if store.closed || fault then .error (.storage message)
  else match table store.connection.view with
  | none => .error (.storage message)
  | some value => .ok value

def get (store : SqlStore) (documentId : String) (fault : Bool) :
    Except PyError (Option Document) := do
  let rows ← store.query SqlFile.documents fault "failed to read document"
  match rows.get? documentId with
  | none => return none
  | some text => return some (← Document.create documentId text)

def generation (store : SqlStore) (fault : Bool) : Except PyError Int := do
  match ← store.query SqlFile.shardMetadata fault "failed to read the generation" with
  | none => .error .unexpected
  | some generation => return generation

-- `ORDER BY document_id`
def iterDocuments (store : SqlStore) (fault : Bool) : Except PyError (List Document) := do
  let rows ← store.query SqlFile.documents fault "failed to read documents"
  (KeySort.sortedBy Prod.fst rows.entries).mapM fun row => Document.create row.1 row.2

def count (store : SqlStore) (fault : Bool) : Except PyError Nat := do
  let rows ← store.query SqlFile.documents fault "failed to count documents"
  return rows.size

-- An open transaction is lost.
def close (store : SqlStore) : SqlStore := ⟨store.connection.rollback, true⟩

end SqlStore

-- What is asked of a store, at either level.
inductive StoreCall
  | put (document : Document) (generation : Int)
  | delete (documentId : String) (generation : Int)
  | replaceAll (documents : List Document) (generation : Int)

inductive StoreQuery
  | get (documentId : String)
  | generation
  | iterDocuments
  | count

inductive StoreAnswer
  | done
  | flag (value : Bool)
  | generation (value : Int)
  | number (value : Nat)
  | document (document : Option Document)
  | documents (documents : List Document)

-- A call fails in front of one of its statements, at its commit, or not at all. The process
-- may die with some of its statements done. After that the file is opened again, some
-- attempts at which may fail.
inductive StoreEvent
  | call (call : StoreCall) (fault : Option (Nat × SqlError))
  | query (query : StoreQuery) (fault : Bool)
  | close
  | die (call : StoreCall) (done : Nat) (attempts : List (Nat × SqlError))

namespace SqlStore

def block : StoreCall → List (Stmt (Connection SqlFile) SqlError)
  | .put document generation => putBlock document generation
  | .delete documentId generation => deleteBlock documentId generation
  | .replaceAll documents generation => replaceBlock documents generation

def perform (store : SqlStore) (fault : Option (Nat × SqlError)) :
    StoreCall → Except PyError StoreAnswer × SqlStore
  | .put document generation =>
      let (result, store) := store.put document generation fault
      (result.map .flag, store)
  | .delete documentId generation =>
      let (result, store) := store.delete documentId generation fault
      (result.map .flag, store)
  | .replaceAll documents generation =>
      let (result, store) := store.replaceAll documents generation fault
      (result.map fun _ => .done, store)

def ask (store : SqlStore) (fault : Bool) : StoreQuery → Except PyError StoreAnswer
  | .get documentId => (store.get documentId fault).map .document
  | .generation => (store.generation fault).map .generation
  | .iterDocuments => (store.iterDocuments fault).map .documents
  | .count => (store.count fault).map .number

-- The file after some attempts at opening it, each of which meets a fault.
def attempt (location : String) (file : SqlFile) (attempts : List (Nat × SqlError)) : SqlFile :=
  attempts.foldl (fun file fault => (openFile location file (some fault)).2) file

def abandoned (store : SqlStore) (call : StoreCall) (done : Nat) : SqlFile :=
  if store.closed then store.connection.file
  else Transaction.abandoned (block call) done store.connection

def react (location : String) (store : SqlStore) :
    StoreEvent → Option (Except PyError StoreAnswer) × SqlStore
  | .call call fault =>
      let (answer, store) := store.perform fault call
      (some answer, store)
  | .query query fault => (some (store.ask fault query), store)
  | .close => (none, store.close)
  | .die call done attempts =>
      match openFile location (attempt location (store.abandoned call done) attempts) none with
      | (.ok store, _) => (none, store)
      | (.error error, file) => (some (.error error), ⟨.ofFile file, true⟩)

end SqlStore

end PySearch
