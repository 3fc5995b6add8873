import PySearch.Lib.Run
import PySearch.Storage.Sql.Theorems

namespace PySearch

-- The file that a database file of documents stands for.
def DatabaseFile.tables (file : DatabaseFile) : SqlFile where
  documents := file.documents.map fun rows =>
    Dict.comprehension rows.keys id fun id => ((rows.get? id).map Document.text).getD ""
  shardMetadata := file.shardMetadata

-- The store of the engine's model, to which the same things happen.
namespace SqliteDocumentStore

def get (store : SqliteDocumentStore) (documentId : String) (fault : Bool) :
    Except PyError (Option Document) :=
  if store.unavailable fault then .error (.storage "failed to read document")
  else .ok (store.database.rows.get? documentId)

def perform (store : SqliteDocumentStore) (fault : Bool) :
    StoreCall → Except PyError StoreAnswer × SqliteDocumentStore
  | .put document generation =>
      match store.put document generation fault with
      | .error error => (.error error, store)
      | .ok (created, store) => (.ok (.flag created), store)
  | .delete documentId generation =>
      match store.delete documentId generation fault with
      | .error error => (.error error, store)
      | .ok (removed, store) => (.ok (.flag removed), store)
  | .replaceAll documents generation =>
      match store.replaceAll documents generation fault with
      | .error error => (.error error, store)
      | .ok store => (.ok .done, store)

def ask (store : SqliteDocumentStore) (fault : Bool) : StoreQuery → Except PyError StoreAnswer
  | .get documentId => (store.get documentId fault).map .document
  | .generation => (store.generation fault).map .generation
  | .iterDocuments => (store.iterDocuments fault).map .documents
  | .count => (store.count fault).map .number

-- A call that meets a fault does nothing, one that a dying process leaves behind is done or
-- not done, and opening keeps what there is.
def react (store : SqliteDocumentStore) :
    StoreEvent → Option (Except PyError StoreAnswer) × SqliteDocumentStore
  | .call call fault =>
      let (answer, store) := store.perform (SqlStore.meets call fault) call
      (some answer, store)
  | .query query fault => (some (store.ask fault query), store)
  | .close => (none, store.close)
  | .die call done _ =>
      let store := if (SqlStore.block call).length < done then (store.perform false call).2 else store
      (none, openDatabase store.database)

end SqliteDocumentStore

-- No transaction is open between two calls, and the file holds the database.
structure SqlStore.Refines (sql : SqlStore) (store : SqliteDocumentStore) : Prop where
  idle : sql.connection.pending = none
  closed : sql.closed = store.closed
  holds : sql.connection.file.Holds store.database

namespace SqlStore

open Transaction (Connection)

variable {sql : SqlStore} {store : SqliteDocumentStore}

theorem Refines.connection (h : Refines sql store) :
    sql.connection = .ofFile sql.connection.file := by
  rcases hc : sql.connection with ⟨file, pending⟩
  have hidle := h.idle
  rw [hc] at hidle
  subst hidle
  rfl

theorem Refines.view (h : Refines sql store) : sql.connection.view = sql.connection.file := by
  rw [h.connection]
  rfl

-- What the statements of a call do at either level.
theorem Refines.transaction (h : Refines sql store) (hopen : store.closed = false)
    (call : StoreCall) (fault : Option (Nat × SqlError)) :
    (∀ after, meets call fault = false → store.database.perform call = some after →
      ∃ next, sql.transaction (block call) fault = (none, next) ∧
        Refines next { store with database := after }) ∧
    (meets call fault = true ∨ store.database.perform call = none →
      ∃ error, sql.transaction (block call) fault = (some error, sql)) := by
  obtain ⟨hdone, hfailed⟩ := withConnection_call h.holds call fault
  rw [← h.connection] at hdone hfailed
  have hrun : sql.transaction (block call) fault =
      ((Transaction.withConnection (block call) fault sql.connection).2,
        ⟨(Transaction.withConnection (block call) fault sql.connection).1, sql.closed⟩) := by
    rw [SqlStore.transaction, h.closed, hopen]
    rfl
  constructor
  · intro after hmeets hperform
    obtain ⟨final, hcommitted, hfinal⟩ := hdone after hmeets hperform
    rw [hrun, hcommitted]
    exact ⟨_, rfl, rfl, h.closed, hfinal⟩
  · intro hcause
    obtain ⟨error, hrolled⟩ := hfailed hcause
    rw [hrun, hrolled]
    exact ⟨error, rfl⟩

-- What a call raises when it fails, and what it answers when it succeeds.
def failure : StoreCall → PyError
  | .put _ _ => .storage "failed to store document"
  | .delete _ _ => .storage "failed to delete document"
  | .replaceAll _ _ => .storage "failed to replace the corpus"

def reply (present : String → Bool) : StoreCall → StoreAnswer
  | .put document _ => .flag (!present document.documentId)
  | .delete documentId _ => .flag (present documentId)
  | .replaceAll _ _ => .done

theorem perform_eq (sql : SqlStore) (fault : Option (Nat × SqlError)) (call : StoreCall) :
    sql.perform fault call = match sql.transaction (block call) fault with
      | (some _, after) => (.error (failure call), after)
      | (none, after) => (.ok (reply sql.connection.view.rows.contains call), after) := by
  cases call with
  | put document generation =>
      have hisNone : (sql.connection.view.rows.get? document.documentId).isNone =
          !sql.connection.view.rows.contains document.documentId := by
        rw [Dict.contains, Option.not_isSome]
      simp only [perform, put, block, reply, failure, hisNone]
      rcases sql.transaction (putBlock document generation) fault with ⟨_ | _, after⟩ <;> rfl
  | delete documentId generation =>
      simp only [perform, delete, block, reply, failure]
      rcases sql.transaction (deleteBlock documentId generation) fault with ⟨_ | _, after⟩ <;> rfl
  | replaceAll documents generation =>
      simp only [perform, replaceAll, block, reply, failure]
      rcases sql.transaction (replaceBlock documents generation) fault with ⟨_ | _, after⟩ <;> rfl

theorem perform_after (sql : SqlStore) (fault : Option (Nat × SqlError)) (call : StoreCall) :
    (sql.perform fault call).2 = (sql.transaction (block call) fault).2 := by
  rw [perform_eq]
  rcases sql.transaction (block call) fault with ⟨_ | _, after⟩ <;> rfl

theorem atomic_perform_eq (store : SqliteDocumentStore) (fault : Bool) (call : StoreCall) :
    store.perform fault call =
      match if store.unavailable fault then none else store.database.perform call with
      | none => (.error (failure call), store)
      | some after => (.ok (reply store.database.rows.contains call),
          { store with database := after }) := by
  cases call with
  | put document generation =>
      simp only [SqliteDocumentStore.perform, SqliteDocumentStore.put, Database.perform]
      by_cases h : store.unavailable fault = true
      · simp only [h, if_true]
        rfl
      · simp only [h]
        rfl
  | delete documentId generation =>
      simp only [SqliteDocumentStore.perform, SqliteDocumentStore.delete, Database.perform]
      by_cases h : store.unavailable fault = true
      · simp only [h, if_true]
        rfl
      · simp only [h]
        rfl
  | replaceAll documents generation =>
      simp only [SqliteDocumentStore.perform, SqliteDocumentStore.replaceAll, Database.perform]
      by_cases h : store.unavailable fault = true
      · simp only [h, if_true]
        rfl
      · by_cases hnodup : (documents.map Document.documentId).Nodup
        · simp only [h, hnodup, if_true]
          rfl
        · simp only [h, hnodup]
          rfl

theorem reply_congr {present other : String → Bool} (h : ∀ id, present id = other id)
    (call : StoreCall) : reply present call = reply other call := by rw [funext h]

theorem Refines.perform (h : Refines sql store) (call : StoreCall)
    (fault : Option (Nat × SqlError)) :
    (sql.perform fault call).1 = (store.perform (meets call fault) call).1 ∧
      Refines (sql.perform fault call).2 (store.perform (meets call fault) call).2 := by
  have hreply := reply_congr (fun id => h.holds.rows.contains id) call
  rw [← h.view] at hreply
  rw [perform_eq, atomic_perform_eq, hreply]
  by_cases hclosed : store.closed = true
  · have hrefused : sql.transaction (block call) fault = (some .failure, sql) := by
      rw [SqlStore.transaction, h.closed, if_pos hclosed]
    have hunavailable : store.unavailable (meets call fault) = true := by
      rw [SqliteDocumentStore.unavailable, hclosed, Bool.true_or]
    rw [hrefused, if_pos hunavailable]
    exact ⟨rfl, h⟩
  · have hopen : store.closed = false := by simpa using hclosed
    obtain ⟨hdone, hfailed⟩ := h.transaction hopen call fault
    have havailable : store.unavailable (meets call fault) = meets call fault := by
      rw [SqliteDocumentStore.unavailable, hopen, Bool.false_or]
    rw [havailable]
    by_cases hmeets : meets call fault = true
    · obtain ⟨error, hrun⟩ := hfailed (.inl hmeets)
      rw [hrun, if_pos hmeets]
      exact ⟨rfl, h⟩
    · rw [if_neg hmeets]
      cases hperform : store.database.perform call with
      | none =>
          obtain ⟨error, hrun⟩ := hfailed (.inr hperform)
          rw [hrun]
          exact ⟨rfl, h⟩
      | some after =>
          obtain ⟨next, hrun, hnext⟩ := hdone after (by simpa using hmeets) hperform
          rw [hrun]
          exact ⟨rfl, hnext⟩

-- A query that is not refused reads the tables.
theorem Refines.query {β : Type} (h : Refines sql store) {table : SqlFile → Option β} {value : β}
    (htable : table sql.connection.file = some value) (fault : Bool) (message : String) :
    sql.query table fault message =
      if store.unavailable fault then .error (.storage message) else .ok value := by
  rw [SqlStore.query, h.closed, h.view, htable, SqliteDocumentStore.unavailable]

theorem create_row {database : Database} {id : String} {document : Document}
    (h : database.rows.get? id = some document) :
    Document.create id document.text = .ok document := by
  have hid := database.keyed id document h
  subst hid
  exact dif_pos document.nonblank

-- Sorting the rows by their key sorts the documents by their identifier.
theorem documents_eq (database : Database) :
    database.documents = (KeySort.sortedBy Prod.fst database.rows.entries).map Prod.snd := by
  have hkeyed : ∀ entry ∈ database.rows.entries, entry.2.documentId = entry.1 := by
    intro entry hentry
    exact database.keyed entry.1 entry.2 (Dict.mem_entries.mp hentry)
  have hids : database.rows.values.map Document.documentId = database.rows.keys := by
    rw [Dict.values, Dict.keys, List.map_map]
    exact List.map_congr_left hkeyed
  have hperm : database.rows.values.Perm
      ((KeySort.sortedBy Prod.fst database.rows.entries).map Prod.snd) :=
    ((KeySort.sortedBy_perm Prod.fst database.rows.entries).map Prod.snd).symm
  rw [Database.documents, KeySort.sortedBy_eq_of_perm (hids ▸ database.rows.keys_nodup) hperm]
  apply KeySort.sortedBy_of_pairwise
  rw [List.pairwise_map]
  apply (KeySort.sortedBy_pairwise Prod.fst database.rows.entries).imp_of_mem
  intro entry other hentry hother hle
  rw [hkeyed entry (KeySort.mem_sortedBy.mp hentry), hkeyed other (KeySort.mem_sortedBy.mp hother)]
  exact hle

theorem create_rows {database : Database} {entries : List (String × Document)}
    (h : ∀ entry ∈ entries, database.rows.get? entry.1 = some entry.2) :
    (entries.mapM fun entry => Document.create entry.1 entry.2.text) =
      .ok (entries.map Prod.snd) := by
  induction entries with
  | nil => rfl
  | cons entry rest ih =>
      rw [List.mapM_cons, create_row (h entry (.head _)), ih fun other ho => h other (.tail _ ho)]
      rfl

-- The rows in the order of their identifiers are the documents in that order.
theorem sorted_rows {rows : Dict String String} {database : Database}
    (h : Texts rows database.rows) :
    (KeySort.sortedBy Prod.fst rows.entries).mapM (fun row => Document.create row.1 row.2) =
      .ok database.documents := by
  have hsorted : KeySort.sortedBy Prod.fst rows.entries =
      (KeySort.sortedBy Prod.fst database.rows.entries).map fun entry =>
        (entry.1, entry.2.text) := by
    rw [KeySort.sortedBy_eq_of_perm rows.keys_nodup h.entries_perm, KeySort.sortedBy_map]
    rfl
  rw [hsorted, List.mapM_map, documents_eq]
  apply create_rows
  intro entry hentry
  exact Dict.mem_entries.mp (KeySort.mem_sortedBy.mp hentry)

theorem Refines.ask (h : Refines sql store) (query : StoreQuery) (fault : Bool) :
    sql.ask fault query = store.ask fault query := by
  cases query with
  | get documentId =>
      simp only [SqlStore.ask, SqliteDocumentStore.ask, SqlStore.get, SqliteDocumentStore.get,
        h.query h.holds.documents]
      by_cases hfault : store.unavailable fault = true
      · simp only [hfault, if_true]
        rfl
      · simp only [hfault]
        rw [if_neg Bool.false_ne_true, if_neg Bool.false_ne_true]
        simp only [Bind.bind, Except.bind, h.holds.rows documentId]
        cases hrow : store.database.rows.get? documentId with
        | none => rfl
        | some document =>
            simp only [Option.map_some, create_row hrow]
            rfl
  | generation =>
      simp only [SqlStore.ask, SqliteDocumentStore.ask, SqlStore.generation,
        SqliteDocumentStore.generation, h.query h.holds.shardMetadata]
      by_cases hfault : store.unavailable fault = true
      · simp only [hfault, if_true]
        rfl
      · simp only [hfault]
        rfl
  | iterDocuments =>
      simp only [SqlStore.ask, SqliteDocumentStore.ask, SqlStore.iterDocuments,
        SqliteDocumentStore.iterDocuments, h.query h.holds.documents]
      by_cases hfault : store.unavailable fault = true
      · simp only [hfault, if_true]
        rfl
      · simp only [hfault]
        rw [if_neg Bool.false_ne_true, if_neg Bool.false_ne_true]
        simp only [Bind.bind, Except.bind, sorted_rows h.holds.rows]
  | count =>
      simp only [SqlStore.ask, SqliteDocumentStore.ask, SqlStore.count, SqliteDocumentStore.count,
        h.query h.holds.documents]
      by_cases hfault : store.unavailable fault = true
      · simp only [hfault, if_true]
        rfl
      · simp only [hfault]
        rw [if_neg Bool.false_ne_true, if_neg Bool.false_ne_true]
        simp only [Bind.bind, Except.bind, h.holds.rows.size]
        rfl

-- Whether the process dies before its commit or behind it decides what the next one finds.
theorem Refines.abandoned (h : Refines sql store) (call : StoreCall) (done : Nat) :
    (sql.abandoned call done).Holds
      (if (block call).length < done then (store.perform false call).2 else store).database := by
  unfold SqlStore.abandoned
  by_cases hclosed : store.closed = true
  · have hunavailable : store.unavailable false = true := by
      rw [SqliteDocumentStore.unavailable, hclosed, Bool.true_or]
    have hunchanged : (store.perform false call).2 = store := by
      rw [atomic_perform_eq, if_pos hunavailable]
    rw [hunchanged, ite_self, if_pos (h.closed.trans hclosed)]
    exact h.holds
  · have hopen : store.closed = false := by simpa using hclosed
    rw [if_neg (by rw [h.closed]; exact hclosed), h.connection,
      Transaction.abandoned_eq (block_acts call)]
    by_cases hdone : (block call).length < done
    · rw [if_pos hdone, if_pos hdone]
      have hperform := (h.perform call none).2.holds
      have hafter : (sql.perform none call).2.connection =
          (Transaction.withConnection (block call) none sql.connection).1 := by
        rw [perform_after, SqlStore.transaction, h.closed, hopen]
        rfl
      rw [hafter, h.connection] at hperform
      exact hperform
    · rw [if_neg hdone, if_neg hdone]
      exact h.holds

theorem Refines.react (location : String) (h : Refines sql store) (event : StoreEvent) :
    (sql.react location event).1 = (store.react event).1 ∧
      Refines (sql.react location event).2 (store.react event).2 := by
  cases event with
  | call call fault =>
      obtain ⟨hanswer, hnext⟩ := h.perform call fault
      exact ⟨congrArg some hanswer, hnext⟩
  | query query fault => exact ⟨congrArg some (h.ask query fault), h⟩
  | close => exact ⟨rfl, rfl, rfl, h.holds⟩
  | die call done attempts =>
      obtain ⟨final, hopened, hfinal⟩ := openFile_ok location
        (attempt_reads location attempts (h.abandoned call done).reads)
      simp only [SqlStore.react, hopened]
      exact ⟨rfl, rfl, rfl, hfinal⟩

-- The store, statement by statement, is the atomic store that the engine is modelled over:
-- through faults in front of any statement or commit, deaths of the process at any moment and
-- interrupted openings it gives the same answers and keeps the same documents and generation.
theorem atomic_refinement (location : String) (file : DatabaseFile) (events : List StoreEvent) :
    ∃ start, (openFile location file.tables none).1 = .ok start ∧
      let sql := Run.feed (react location) start events
      let atomic := Run.feed SqliteDocumentStore.react (.openFile file) events
      sql.1 = atomic.1 ∧ Refines sql.2 atomic.2 := by
  have hreads : SqlFile.Reads file.tables file.withSchema := by
    refine ⟨fun id => ?_, rfl⟩
    have hrows : file.withSchema.rows = file.documents.getD .empty := rfl
    rw [hrows]
    unfold SqlFile.rows DatabaseFile.tables
    cases hdocuments : file.documents with
    | none => rfl
    | some rows =>
        simp only [Option.map_some, Option.getD_some]
        simp only [Dict.get?_comprehension, Dict.mem_keys]
        cases rows.get? id <;> rfl
  obtain ⟨final, hopened, hfinal⟩ := openFile_ok location hreads
  refine ⟨_, by rw [hopened], ?_⟩
  exact Run.feed_simulates (fun _ _ event _ h => h.react location event) ⟨rfl, rfl, hfinal⟩

end SqlStore

end PySearch
