import PySearch.Storage.Sql

namespace PySearch

open Script (Stmt exec)
open Transaction (Connection Acts)

-- The rows of one dictionary are the texts of the other.
def Texts (rows : Dict String String) (documents : Dict String Document) : Prop :=
  ∀ id, rows.get? id = (documents.get? id).map Document.text

namespace Texts

variable {rows : Dict String String} {documents : Dict String Document}

theorem empty : Texts .empty .empty := fun _ => rfl

theorem set (h : Texts rows documents) (document : Document) :
    Texts (rows.set document.documentId document.text)
      (documents.set document.documentId document) := by
  intro id
  rw [Dict.get?_set, Dict.get?_set, h]
  split <;> rfl

theorem erase (h : Texts rows documents) (id : String) :
    Texts (rows.erase id) (documents.erase id) := by
  intro other
  rw [Dict.get?_erase, Dict.get?_erase, h]
  split <;> rfl

theorem contains (h : Texts rows documents) (id : String) :
    rows.contains id = documents.contains id := by
  rw [Dict.contains, Dict.contains, h id, Option.isSome_map]

theorem foldl_set (h : Texts rows documents) (added : List Document) :
    Texts (added.foldl (fun rows document => rows.set document.documentId document.text) rows)
      (added.foldl (fun rows document => rows.set document.documentId document) documents) := by
  induction added generalizing rows documents with
  | nil => exact h
  | cons document rest ih => exact ih (h.set document)

theorem entries_perm (h : Texts rows documents) :
    rows.entries.Perm (documents.entries.map fun entry => (entry.1, entry.2.text)) := by
  have hbind : ∀ id, rows.get? id = (documents.get? id).bind fun document =>
      some document.text := by
    intro id
    rw [h, Option.map_eq_bind]
    rfl
  refine (Dict.entries_perm_bind hbind).trans (.of_eq ?_)
  rw [← List.filterMap_eq_map]
  rfl

theorem size (h : Texts rows documents) : rows.size = documents.size := by
  rw [Dict.size, h.entries_perm.length_eq, List.length_map, Dict.size]

end Texts

namespace SqlFile

-- Opening the file brings the database to light, and the file that has its tables.
structure Reads (file : SqlFile) (database : Database) : Prop where
  rows : Texts file.rows database.rows
  generation : (file.shardMetadata.getD none).getD 0 = database.generation

structure Holds (file : SqlFile) (database : Database) : Prop where
  documents : file.documents = some file.rows
  shardMetadata : file.shardMetadata = some (some database.generation)
  rows : Texts file.rows database.rows

variable {file : SqlFile} {database : Database}

theorem Holds.reads (h : Holds file database) : Reads file database :=
  ⟨h.rows, by rw [h.shardMetadata]; rfl⟩

theorem onDocuments_ok (h : Holds file database)
    {change : Stmt (Dict String String) SqlError} {rows : Dict String String}
    (hchange : change file.rows = .ok rows) :
    onDocuments change file = .ok { file with documents := some rows } := by
  unfold onDocuments
  rw [h.documents]
  dsimp only
  rw [hchange]
  rfl

theorem setGeneration_ok {row : Int} (h : file.shardMetadata = some (some row))
    (generation : Int) :
    setGeneration generation file = .ok { file with shardMetadata := some (some generation) } := by
  unfold setGeneration onShardMetadata
  rw [h]
  rfl

-- The rows after one `INSERT` for each document.
def inserted (rows : Dict String String) (documents : List Document) : Dict String String :=
  documents.foldl (fun rows document => rows.set document.documentId document.text) rows

-- No identifier is stored already or repeats.
def Insertable (rows : Dict String String) (documents : List Document) : Prop :=
  (documents.map Document.documentId).Nodup ∧
    ∀ document ∈ documents, rows.get? document.documentId = none

theorem insertable_cons {rows : Dict String String} {document : Document} {rest : List Document}
    (habsent : rows.get? document.documentId = none) : Insertable rows (document :: rest) ↔
      Insertable (rows.set document.documentId document.text) rest := by
  unfold Insertable
  rw [List.map_cons, List.nodup_cons, List.forall_mem_cons]
  constructor
  · rintro ⟨⟨hnotin, hnodup⟩, -, hfresh⟩
    refine ⟨hnodup, fun other ho => ?_⟩
    rw [Dict.get?_set, if_neg, hfresh other ho]
    intro hid
    exact hnotin (hid ▸ List.mem_map_of_mem ho)
  · rintro ⟨hnodup, hfresh⟩
    refine ⟨⟨?_, hnodup⟩, habsent, fun other ho => ?_⟩
    · intro hmem
      obtain ⟨other, ho, hid⟩ := List.mem_map.mp hmem
      have hnone := hfresh other ho
      rw [hid, Dict.get?_set_self] at hnone
      cases hnone
    · have hnone := hfresh other ho
      rw [Dict.get?_set] at hnone
      split at hnone
      · cases hnone
      · exact hnone

theorem insert_absent {rows : Dict String String} (h : file.documents = some rows)
    {document : Document} (habsent : rows.get? document.documentId = none) :
    insert document file =
      .ok { file with documents := some (rows.set document.documentId document.text) } := by
  have hcontains : rows.contains document.documentId = false := by
    rw [Dict.contains, habsent]
    rfl
  unfold insert onDocuments
  rw [h]
  simp only [hcontains, Bool.false_eq_true, if_false]
  rfl

theorem insert_present {rows : Dict String String} (h : file.documents = some rows)
    {document : Document} (hpresent : rows.get? document.documentId ≠ none) :
    insert document file = .error .constraint := by
  have hcontains : rows.contains document.documentId = true := by
    rw [Dict.contains, Option.isSome_iff_ne_none]
    exact hpresent
  unfold insert onDocuments
  rw [h]
  simp only [hcontains, if_true]
  rfl

-- `executemany` stops at the first repeated identifier.
theorem exec_insert (documents : List Document) {rows : Dict String String}
    (h : file.documents = some rows) :
    (Insertable rows documents → exec (documents.map insert) file =
      .ok { file with documents := some (inserted rows documents) }) ∧
    (¬Insertable rows documents → exec (documents.map insert) file = .error .constraint) := by
  induction documents generalizing file rows with
  | nil =>
      refine ⟨fun _ => ?_, fun hnot => absurd ⟨List.nodup_nil, by simp⟩ hnot⟩
      rw [List.map_nil, Script.exec_nil, inserted, List.foldl_nil, ← h]
  | cons document rest ih =>
      have hcons : exec ((document :: rest).map insert) file =
          (insert document file).bind (exec (rest.map insert)) := rfl
      rw [hcons]
      by_cases habsent : rows.get? document.documentId = none
      · rw [insertable_cons habsent, insert_absent h habsent]
        exact ih rfl
      · rw [insert_present h habsent]
        exact ⟨fun hall => absurd (hall.2 document (.head _)) habsent, fun _ => rfl⟩

end SqlFile

-- What the atomic store makes of a call, when it succeeds.
def Database.perform (database : Database) : StoreCall → Option Database
  | .put document generation => some (database.put document generation)
  | .delete documentId generation => some (database.delete documentId generation)
  | .replaceAll documents generation =>
      if (documents.map Document.documentId).Nodup then some (.replaceAll documents generation)
      else none

namespace SqlStore

open SqlFile

-- The statements of a call, as the changes they make to the tables.
def changes : StoreCall → List (Stmt SqlFile SqlError)
  | .put document generation =>
      [fun file => file.hasDocuments.map fun _ => file, insertOrReplace document,
        setGeneration generation]
  | .delete documentId generation => [deleteFrom documentId, setGeneration generation]
  | .replaceAll documents generation =>
      deleteAll :: documents.map insert ++ [setGeneration generation]

theorem block_acts (call : StoreCall) : List.Forall₂ Acts (block call) (changes call) := by
  cases call with
  | put document generation =>
      exact .cons (Transaction.acts_select hasDocuments)
        (Transaction.acts_map [insertOrReplace document, setGeneration generation])
  | delete documentId generation =>
      exact Transaction.acts_map [deleteFrom documentId, setGeneration generation]
  | replaceAll documents generation => exact Transaction.acts_map _

variable {file : SqlFile} {database : Database}

-- One spec for the statements of every call.
theorem exec_changes (h : Holds file database) (call : StoreCall) :
    match database.perform call with
    | some after => ∃ final, exec (changes call) file = .ok final ∧ Holds final after
    | none => ∃ error, exec (changes call) file = .error error := by
  have htables : ∀ rows generation, setGeneration generation ⟨some rows, file.shardMetadata⟩ =
      .ok ⟨some rows, some (some generation)⟩ := by
    intro rows generation
    exact @setGeneration_ok ⟨some rows, file.shardMetadata⟩ _ h.shardMetadata generation
  cases call with
  | put document generation =>
      have hread : file.hasDocuments = .ok () := by
        unfold hasDocuments
        rw [h.documents]
        rfl
      have hwrite := @onDocuments_ok _ _ h (fun rows =>
        .ok (rows.set document.documentId document.text)) _ rfl
      refine ⟨⟨some (file.rows.set document.documentId document.text), some (some generation)⟩,
        ?_, rfl, rfl, h.rows.set document⟩
      simp only [changes, Script.exec_cons, hread, Except.map, Except.bind, insertOrReplace, hwrite]
      rw [htables]
      rfl
  | delete documentId generation =>
      have hwrite := @onDocuments_ok _ _ h (fun rows => .ok (rows.erase documentId)) _ rfl
      refine ⟨⟨some (file.rows.erase documentId), some (some generation)⟩, ?_, rfl, rfl,
        h.rows.erase documentId⟩
      simp only [changes, Script.exec_cons, deleteFrom, hwrite, Except.bind]
      rw [htables]
      rfl
  | replaceAll documents generation =>
      have hclear := @onDocuments_ok _ _ h (fun _ => .ok .empty) _ rfl
      obtain ⟨hall, hrepeated⟩ := @exec_insert { file with documents := some .empty } documents _ rfl
      have hinsertable : Insertable .empty documents ↔
          (documents.map Document.documentId).Nodup := by
        simp [Insertable]
      simp only [changes, List.cons_append, Script.exec_cons, deleteAll, hclear, Except.bind,
        Script.exec_append, Database.perform]
      by_cases hnodup : (documents.map Document.documentId).Nodup
      · rw [if_pos hnodup, hall (hinsertable.mpr hnodup)]
        refine ⟨⟨some (inserted .empty documents), some (some generation)⟩, ?_, rfl, rfl,
          Texts.empty.foldl_set documents⟩
        dsimp only
        rw [htables]
        rfl
      · rw [if_neg hnodup, hrepeated (fun hok => hnodup (hinsertable.mp hok))]
        exact ⟨_, rfl⟩

theorem block_length (call : StoreCall) : (block call).length = (changes call).length :=
  (block_acts call).length_eq

-- Whether a fault is met in front of a statement of the call or at its commit.
def meets (call : StoreCall) : Option (Nat × SqlError) → Bool
  | none => false
  | some (n, _) => n ≤ (block call).length

-- A call is all or nothing.
theorem withConnection_call (h : Holds file database) (call : StoreCall)
    (fault : Option (Nat × SqlError)) :
    (∀ after, meets call fault = false → database.perform call = some after → ∃ final,
        Transaction.withConnection (block call) fault (.ofFile file) = (.ofFile final, none) ∧
          Holds final after) ∧
    (meets call fault = true ∨ database.perform call = none → ∃ error,
        Transaction.withConnection (block call) fault (.ofFile file) =
          (.ofFile file, some error)) := by
  rw [Transaction.withConnection_eq (block_acts call)]
  have hclean := exec_changes h call
  have hlate : meets call fault = false →
      Script.run (changes call) fault file = Script.run (changes call) none file := by
    intro hmeets
    cases fault with
    | none => rfl
    | some fault =>
        have hlt : (changes call).length < fault.1 := by
          rw [← block_length]
          simpa [meets] using hmeets
        exact Script.run_late hlt fault.2 file
  have hraised : meets call fault = true → ∃ last raised,
      Script.run (changes call) fault file = (last, some raised) := by
    intro hmeets
    cases fault with
    | none => cases hmeets
    | some fault =>
        have hle : fault.1 ≤ (changes call).length := by
          rw [← block_length]
          simpa [meets] using hmeets
        exact Script.run_raises hle fault.2 file
  constructor
  · intro after hmeets hperform
    rw [hperform] at hclean
    obtain ⟨final, hexec, hfinal⟩ := hclean
    exact ⟨final, by rw [hlate hmeets, Script.run_of_exec hexec], hfinal⟩
  · intro hcause
    by_cases hmeets : meets call fault = true
    · obtain ⟨last, raised, hrun⟩ := hraised hmeets
      exact ⟨raised, by rw [hrun]⟩
    · rw [hcause.resolve_left hmeets] at hclean
      obtain ⟨error, hexec⟩ := hclean
      rw [hlate (by simpa using hmeets)]
      rcases hrun : Script.run (changes call) none file with ⟨last, raised⟩
      cases raised with
      | some raised => exact ⟨raised, rfl⟩
      | none =>
          rw [Script.exec_of_run hrun] at hexec
          cases hexec

section Open

theorem reads_direct {change : Stmt SqlFile SqlError}
    (hkeep : ∀ file next, change file = .ok next → Reads file database → Reads next database)
    {before after : Connection SqlFile} (h : Transaction.direct change before = .ok after)
    (hfile : Reads before.view database) : Reads after.file database ∧ Reads after.view database := by
  unfold Transaction.direct at h
  cases hchange : change before.view with
  | error error =>
      rw [hchange] at h
      cases h
  | ok next =>
      rw [hchange] at h
      cases h
      have hnext := hkeep _ next hchange hfile
      exact ⟨hnext, hnext⟩

theorem reads_createDocuments (next : SqlFile) (h : createDocuments file = .ok next)
    (hreads : Reads file database) : Reads next database := by
  cases h
  exact ⟨hreads.rows, hreads.generation⟩

theorem reads_createShardMetadata (next : SqlFile) (h : createShardMetadata file = .ok next)
    (hreads : Reads file database) : Reads next database := by
  cases h
  exact ⟨hreads.rows, hreads.generation⟩

theorem reads_insertOrIgnore (next : SqlFile) (h : insertOrIgnore file = .ok next)
    (hreads : Reads file database) : Reads next database := by
  unfold insertOrIgnore onShardMetadata at h
  cases hmetadata : file.shardMetadata with
  | none =>
      rw [hmetadata] at h
      cases h
  | some row =>
      rw [hmetadata] at h
      cases h
      have hgeneration := hreads.generation
      rw [hmetadata] at hgeneration
      exact ⟨hreads.rows, hgeneration⟩

-- Each statement of `open` brings the same database to light.
theorem openScript_step {stmt : Stmt (Connection SqlFile) SqlError} (hstmt : stmt ∈ openScript)
    {before after : Connection SqlFile} (h : stmt before = .ok after)
    (hfile : Reads before.file database) (hview : Reads before.view database) :
    Reads after.file database ∧ Reads after.view database := by
  simp only [openScript, List.mem_cons, List.not_mem_nil, or_false] at hstmt
  rcases hstmt with rfl | rfl | rfl | rfl | rfl | rfl
  · cases h
    exact ⟨hfile, hview⟩
  · exact reads_direct (fun _ => reads_createDocuments) h hview
  · exact reads_direct (fun _ => reads_createShardMetadata) h hview
  · unfold Transaction.modify at h
    cases hinsert : insertOrIgnore before.view with
    | error error =>
        rw [hinsert] at h
        cases h
    | ok next =>
        rw [hinsert] at h
        cases h
        exact ⟨hfile, reads_insertOrIgnore next hinsert hview⟩
  · cases h
    exact ⟨hfile, hview⟩
  · cases h
    exact ⟨hview, hview⟩

-- Wherever opening stops, opening again finds the same documents and the same generation.
theorem openFile_reads (location : String) (fault : Option (Nat × SqlError))
    (h : Reads file database) : Reads (openFile location file fault).2 database := by
  have hrun := @Script.run_invariant (Connection SqlFile) SqlError
    (fun connection => Reads connection.file database ∧ Reads connection.view database) openScript
    (fun _ hstmt _ _ hok hboth => openScript_step hstmt hok hboth.1 hboth.2) fault (.ofFile file)
    ⟨h, h⟩
  unfold openFile
  split
  all_goals
    rename_i hscript
    rw [hscript] at hrun
    exact hrun.1

theorem attempt_reads (location : String) (attempts : List (Nat × SqlError))
    (h : Reads file database) : Reads (attempt location file attempts) database := by
  induction attempts generalizing file with
  | nil => exact h
  | cons fault rest ih => exact ih (openFile_reads location (some fault) h)

theorem openFile_ok (location : String) (h : Reads file database) :
    ∃ final, openFile location file none = (.ok ⟨.ofFile final, false⟩, final) ∧
      Holds final database := by
  refine ⟨⟨some file.rows, some (some database.generation)⟩, ?_, rfl, rfl, h.rows⟩
  rw [← h.generation]
  rfl

end Open

end SqlStore

end PySearch
