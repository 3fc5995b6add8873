import PySearch.Search.Engine.Theorems
import PySearch.Semantic.VectorIndex.Stops
import PySearch.Search.Index.Stops

namespace PySearch

variable {α : Type} [Arith α] [LinearOrder α]

-- What the validation compares, one fact for each check.
structure Derived.Validated (derived : Derived α) (rows : Dict String Document) : Prop where
  index : derived.index.validate = .ok ()
  ids : ∀ id, (derived.documents.get? id).isSome ↔
    (derived.index.documentLengths.get? id).isSome
  vectors : ∀ vectors, derived.vectors = some vectors → vectors.validate = .ok () ∧
    ∀ id, (vectors.positions.get? id).isSome ↔ (derived.documents.get? id).isSome
  count : rows.size = derived.documents.size
  texts : ∀ id document, rows.get? id = some document →
    ∃ cached, derived.documents.get? id = some cached ∧ cached.text = document.text

namespace SearchEngine

variable {engine : SearchEngine α}

theorem mem_documents {database : Database} {document : Document} :
    document ∈ database.documents ↔ ∃ id, database.rows.get? id = some document := by
  rw [Database.documents, KeySort.mem_sortedBy, Dict.mem_values]

theorem validateStored_ok_iff {documents : Dict String Document} {document : Document} :
    validateStored documents document = .ok () ↔
      ∃ cached, documents.get? document.documentId = some cached ∧ cached.text = document.text := by
  unfold validateStored
  cases documents.get? document.documentId with
  | none => simp
  | some cached => simp [InvertedIndex.require]

theorem require_ok_iff {condition : Bool} {violation : IndexViolation} :
    InvertedIndex.require condition violation = .ok () ↔ condition = true := by
  unfold InvertedIndex.require
  cases condition <;> simp

-- When the validation returns, every comparison came out equal.
theorem validated_of_validate {faults : ReadFaults} (h : engine.validate faults = .ok ()) :
    engine.derived.Validated engine.store.database.rows ∧
      engine.generation = engine.store.database.generation := by
  obtain ⟨⟨⟩, hindex, h⟩ := bind_ok h
  obtain ⟨⟨⟩, hids, h⟩ := bind_ok h
  obtain ⟨⟨⟩, hvectors, h⟩ := bind_ok h
  obtain ⟨generation, hread, h⟩ := bind_ok h
  obtain ⟨⟨⟩, hgeneration, h⟩ := bind_ok h
  obtain ⟨count, hcounted, h⟩ := bind_ok h
  obtain ⟨⟨⟩, hcount, h⟩ := bind_ok h
  obtain ⟨stored, hstored, htexts⟩ := bind_ok h
  unfold SqliteDocumentStore.generation at hread
  unfold SqliteDocumentStore.count at hcounted
  unfold SqliteDocumentStore.iterDocuments at hstored
  split_ifs at hread hcounted hstored
  cases hread
  cases hcounted
  cases hstored
  refine ⟨⟨hindex, ?_, ?_, of_decide_eq_true (require_ok_iff.mp hcount), ?_⟩,
    (of_decide_eq_true (require_ok_iff.mp hgeneration)).symm⟩
  · intro id
    have hsame := FrozenSet.same_iff.mp (require_ok_iff.mp hids) id
    rwa [InvertedIndex.documentIds, FrozenSet.mem_ofKeys, FrozenSet.mem_ofKeys] at hsame
  · intro vectors hsome
    unfold validateVectors at hvectors
    rw [hsome] at hvectors
    obtain ⟨⟨⟩, hvalid, hcovers⟩ := bind_ok hvectors
    refine ⟨hvalid, fun id => ?_⟩
    have hsame := FrozenSet.same_iff.mp (require_ok_iff.mp hcovers) id
    rwa [ExactVectorIndex.documentIds, FrozenSet.mem_ofKeys, FrozenSet.mem_ofKeys] at hsame
  · intro id document hrow
    have hid := engine.store.database.keyed id document hrow
    have hchecked := of_forM_ok htexts document (mem_documents.mpr ⟨id, hrow⟩)
    exact hid ▸ validateStored_ok_iff.mp hchecked

-- And it returns when they are equal and the database can be read.
theorem validate_of_validated (hopen : engine.store.closed = false)
    (h : engine.derived.Validated engine.store.database.rows)
    (hgeneration : engine.generation = engine.store.database.generation) :
    engine.validate .none = .ok () := by
  have hids : ((FrozenSet.ofKeys engine.derived.documents).same
      engine.derived.index.documentIds) = true := by
    rw [FrozenSet.same_iff]
    intro id
    rw [InvertedIndex.documentIds, FrozenSet.mem_ofKeys, FrozenSet.mem_ofKeys]
    exact h.ids id
  have hvectors : validateVectors engine.derived = .ok () := by
    unfold validateVectors
    cases hsome : engine.derived.vectors with
    | none => rfl
    | some vectors =>
        obtain ⟨hvalid, hcovers⟩ := h.vectors vectors hsome
        have hsame : vectors.documentIds.same (.ofKeys engine.derived.documents) = true := by
          rw [FrozenSet.same_iff]
          intro id
          rw [ExactVectorIndex.documentIds, FrozenSet.mem_ofKeys, FrozenSet.mem_ofKeys]
          exact hcovers id
        simp only [hvalid, hsame, Bind.bind, Except.bind]
        rfl
  have htexts : engine.store.database.documents.forM
      (validateStored engine.derived.documents) = .ok () := by
    apply forM_ok
    intro document hdocument
    obtain ⟨id, hrow⟩ := mem_documents.mp hdocument
    have hid := engine.store.database.keyed id document hrow
    exact validateStored_ok_iff.mpr (hid ▸ h.texts id document hrow)
  have hread : engine.store.unavailable false = false := by
    simp [SqliteDocumentStore.unavailable, hopen]
  unfold validate
  simp only [h.index, hids, hvectors, SqliteDocumentStore.generation, SqliteDocumentStore.count,
    SqliteDocumentStore.iterDocuments, ReadFaults.none, hread, Bind.bind, Except.bind,
    InvertedIndex.require, hgeneration, h.count, if_true, if_false, decide_true,
    Bool.false_eq_true]
  exact htexts

end SearchEngine

end PySearch
