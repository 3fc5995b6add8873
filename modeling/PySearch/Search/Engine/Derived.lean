import PySearch.Search.Engine
import PySearch.Search.Index.Theorems
import PySearch.Semantic.VectorIndex.Theorems

namespace PySearch

open Script (exec)

variable {α : Type}

-- The tokens of every stored document.
def EngineContext.corpus (ctx : EngineContext α) (rows : Dict String Document) :
    InvertedIndex.Corpus :=
  fun id => (rows.get? id).map fun document => Analysis.analyze ctx.unicode document.text

-- The embedding of every stored document.
def Embedder.stored (embedder : Embedder α) (rows : Dict String Document) :
    String → Option (List α) :=
  fun id => (rows.get? id).map fun document => embedder.embed document.text

-- The vector index, when there is an embedder, holds the embeddings of the rows.
def VectorsExact (ctx : EngineContext α) (rows : Dict String Document)
    (vectors : Option (ExactVectorIndex α)) : Prop :=
  match ctx.embedder, vectors with
  | none, none => True
  | some embedder, some vectors =>
      vectors.Image embedder.identity.dimension (embedder.stored rows)
  | _, _ => False

-- What an embedder promises: one finite unit vector of its dimension for each text, or
-- the zero vector for a document that embeds to nothing.
structure Embedder.Contract [Arith α] [LinearOrder α] (embedder : Embedder α) : Prop where
  documents : ∀ text,
    ExactVectorIndex.Admissible embedder.identity.dimension (embedder.embed text) ∧
      ExactVectorIndex.unit (embedder.embed text)
  queries : ∀ text,
    ExactVectorIndex.Admissible embedder.identity.dimension (embedder.embedQuery text)

def EngineContext.Contract [Arith α] [LinearOrder α] (ctx : EngineContext α) : Prop :=
  ∀ embedder, ctx.embedder = some embedder → embedder.Contract

theorem EngineContext.contract_of_some [Arith α] [LinearOrder α] {ctx : EngineContext α}
    {embedder : Embedder α} (he : ctx.embedder = some embedder) (hc : embedder.Contract) :
    ctx.Contract := by
  intro other ho
  cases he.symm.trans ho
  exact hc

section Example

attribute [local instance] rationalArith

theorem Embedder.constant_contract : (Embedder.constant : Embedder ℚ).Contract := by
  have hunit : ExactVectorIndex.unit ((Embedder.constant : Embedder ℚ).embed "") = true := by
    decide +kernel
  exact ⟨fun text => ⟨⟨rfl, rfl⟩, hunit⟩, fun text => ⟨rfl, rfl⟩⟩

end Example

-- Every derived structure is what the rows determine.
structure Derived.Exact (ctx : EngineContext α) (derived : Derived α)
    (rows : Dict String Document) : Prop where
  documents : ∀ id, derived.documents.get? id = rows.get? id
  index : derived.index.Image (ctx.corpus rows)
  vectors : VectorsExact ctx rows derived.vectors

variable {ctx : EngineContext α} {rows other : Dict String Document}

theorem EngineContext.corpus_congr (h : ∀ id, rows.get? id = other.get? id) :
    ctx.corpus rows = ctx.corpus other := by
  funext id
  rw [corpus, corpus, h]

theorem Embedder.stored_congr (embedder : Embedder α) (h : ∀ id, rows.get? id = other.get? id) :
    embedder.stored rows = embedder.stored other := by
  funext id
  rw [stored, stored, h]

theorem Derived.Exact.congr {derived : Derived α} (h : derived.Exact ctx rows)
    (hrows : ∀ id, rows.get? id = other.get? id) : derived.Exact ctx other where
  documents id := (h.documents id).trans (hrows id)
  index := ctx.corpus_congr hrows ▸ h.index
  vectors := by
    have hv := h.vectors
    unfold VectorsExact at hv ⊢
    split at hv
    · trivial
    · rename_i embedder _ _ _
      rwa [← embedder.stored_congr hrows]
    · exact hv

theorem EngineContext.corpus_set (document : Document) :
    ctx.corpus (rows.set document.documentId document) =
      Function.update (ctx.corpus rows) document.documentId
        (some (Analysis.analyze ctx.unicode document.text)) := by
  funext id
  by_cases h : id = document.documentId
  · subst h
    simp [corpus]
  · simp [corpus, Dict.get?_set, h]

theorem EngineContext.corpus_erase (documentId : String) :
    ctx.corpus (rows.erase documentId) =
      Function.update (ctx.corpus rows) documentId none := by
  funext id
  by_cases h : id = documentId
  · subst h
    simp [corpus, Dict.get?_erase]
  · simp [corpus, Dict.get?_erase, h]

theorem Embedder.stored_set (embedder : Embedder α) (document : Document) :
    embedder.stored (rows.set document.documentId document) =
      Function.update (embedder.stored rows) document.documentId
        (some (embedder.embed document.text)) := by
  funext id
  by_cases h : id = document.documentId
  · subst h
    simp [stored]
  · simp [stored, Dict.get?_set, h]

theorem Embedder.stored_erase (embedder : Embedder α) (documentId : String) :
    embedder.stored (rows.erase documentId) =
      Function.update (embedder.stored rows) documentId none := by
  funext id
  by_cases h : id = documentId
  · subst h
    simp [stored, Dict.get?_erase]
  · simp [stored, Dict.get?_erase, h]

namespace Derived

theorem exec_onIndex (stmts : List (Script.Stmt InvertedIndex PyError)) (derived : Derived α) :
    exec (stmts.map onIndex) derived =
      (exec stmts derived.index).map fun index => { derived with index := index } :=
  @Script.exec_on _ _ _ Derived.index (fun index derived => { derived with index := index })
    (fun _ _ => rfl) (fun _ _ _ => rfl) (fun _ => rfl) stmts derived

theorem exec_onVectors (stmts : List (Script.Stmt (ExactVectorIndex α) PyError))
    (derived : Derived α) {vectors : ExactVectorIndex α} (h : derived.vectors = some vectors) :
    exec (stmts.map onVectors) derived =
      (exec stmts vectors).map fun vectors => { derived with vectors := some vectors } := by
  induction stmts generalizing derived vectors with
  | nil =>
      obtain ⟨documents, index, found⟩ := derived
      cases h
      rfl
  | cons stmt rest ih =>
      rw [List.map_cons, Script.exec_cons, Script.exec_cons, onVectors, h]
      dsimp only
      cases hs : stmt vectors with
      | error error => rfl
      | ok next =>
          simp only [Except.map, Except.bind]
          rw [ih { derived with vectors := some next } rfl]
          cases exec rest next <;> rfl

-- The cache and the index part of a derived update always run to their end.
theorem exec_apply_lexical {derived : Derived α} (document : Document)
    (h : derived.Exact ctx rows) :
    ∃ index, exec (setDocument document :: (derived.index.addDocumentScript document.documentId
        (Analysis.analyze ctx.unicode document.text)).map onIndex) derived =
        .ok ⟨derived.documents.set document.documentId document, index, derived.vectors⟩ ∧
      index.Image (ctx.corpus (rows.set document.documentId document)) := by
  obtain ⟨index, hadd, himage⟩ := InvertedIndex.image_addDocument document.documentId
    (Analysis.analyze ctx.unicode document.text) h.index
  refine ⟨index, ?_, by rwa [ctx.corpus_set]⟩
  rw [InvertedIndex.addDocument] at hadd
  rw [Script.exec_cons, setDocument]
  simp only [Except.bind]
  rw [exec_onIndex, hadd]
  rfl

theorem exec_remove_lexical {derived : Derived α} {documentId : String} {document : Document}
    (h : derived.Exact ctx rows) (hrow : rows.get? documentId = some document) :
    ∃ index, exec (deleteDocument documentId ::
        (derived.index.removeDocumentScript documentId).map onIndex) derived =
        .ok ⟨derived.documents.erase documentId, index, derived.vectors⟩ ∧
      index.Image (ctx.corpus (rows.erase documentId)) := by
  have hcorpus : ctx.corpus rows documentId =
      some (Analysis.analyze ctx.unicode document.text) := by
    simp [EngineContext.corpus, hrow]
  obtain ⟨index, hremove, himage⟩ := InvertedIndex.image_removeDocument h.index hcorpus
  refine ⟨index, ?_, by rwa [ctx.corpus_erase]⟩
  rw [InvertedIndex.removeDocument] at hremove
  rw [Script.exec_cons, deleteDocument, if_pos (by simp [h.documents, hrow])]
  simp only [Except.bind]
  rw [exec_onIndex, hremove]
  rfl

theorem vectorsExact_none {vectors : Option (ExactVectorIndex α)}
    (h : VectorsExact ctx rows vectors) (he : ctx.embedder = none) : vectors = none := by
  cases vectors with
  | none => rfl
  | some vectors => simp [VectorsExact, he] at h

theorem vectorsExact_some {embedder : Embedder α} {vectors : Option (ExactVectorIndex α)}
    (h : VectorsExact ctx rows vectors) (he : ctx.embedder = some embedder) :
    ∃ index, vectors = some index ∧
      index.Image embedder.identity.dimension (embedder.stored rows) := by
  cases vectors with
  | none => simp [VectorsExact, he] at h
  | some index => exact ⟨index, rfl, by simpa [VectorsExact, he] using h⟩

theorem exact_erase {derived : Derived α} {documentId : String} {document : Document}
    (h : derived.Exact ctx rows) (hrow : rows.get? documentId = some document) :
    ∃ after, exec (derived.removeScript documentId) derived = .ok after ∧
      after.Exact ctx (rows.erase documentId) := by
  obtain ⟨index, hexec, himage⟩ := exec_remove_lexical h hrow
  have hdocuments : ∀ id, (derived.documents.erase documentId).get? id =
      (rows.erase documentId).get? id := by
    intro id
    rw [Dict.get?_erase, Dict.get?_erase, h.documents]
  unfold removeScript
  rw [Script.exec_append, hexec]
  cases he : ctx.embedder with
  | none =>
      have hn := vectorsExact_none h.vectors he
      refine ⟨⟨derived.documents.erase documentId, index, none⟩, ?_, hdocuments, himage, ?_⟩
      · rw [hn]; rfl
      · simp [VectorsExact, he]
  | some embedder =>
      obtain ⟨vectors, hs, hvectors⟩ := vectorsExact_some h.vectors he
      obtain ⟨final, hremove, hfinal⟩ := ExactVectorIndex.image_remove hvectors documentId
      refine ⟨⟨derived.documents.erase documentId, index, some final⟩, ?_, hdocuments, himage, ?_⟩
      · simp only [hs, Except.bind]
        rw [exec_onVectors _ _ rfl, hremove]
        rfl
      · simpa [VectorsExact, he, embedder.stored_erase] using hfinal

variable [Arith α]

-- A derived update that runs to its end leaves every structure exact for the new rows.
theorem exact_set {derived after : Derived α} {document : Document} {vector : Option (List α)}
    (h : derived.Exact ctx rows)
    (hv : ∀ embedder, ctx.embedder = some embedder → vector = some (embedder.embed document.text))
    (hexec : exec (derived.applyScript document
      (Analysis.analyze ctx.unicode document.text) vector) derived = .ok after) :
    after.Exact ctx (rows.set document.documentId document) := by
  obtain ⟨index, hlexical, himage⟩ := exec_apply_lexical document h
  have hdocuments : ∀ id, (derived.documents.set document.documentId document).get? id =
      (rows.set document.documentId document).get? id := by
    intro id
    rw [Dict.get?_set, Dict.get?_set, h.documents]
  unfold applyScript at hexec
  rw [Script.exec_append, hlexical] at hexec
  cases he : ctx.embedder with
  | none =>
      have hn := vectorsExact_none h.vectors he
      rw [hn] at hexec
      rw [← Except.ok.inj hexec]
      exact ⟨hdocuments, himage, by simp [VectorsExact, he]⟩
  | some embedder =>
      obtain ⟨vectors, hs, hvectors⟩ := vectorsExact_some h.vectors he
      simp only [hs, hv embedder he, Except.bind] at hexec
      rw [exec_onVectors _ _ rfl] at hexec
      cases hx : exec (vectors.addScript document.documentId (embedder.embed document.text))
          vectors with
      | error error => simp [hx, Except.map] at hexec
      | ok final =>
          have hadm := @ExactVectorIndex.admissible_of_add _ _ _ _ document.documentId _ hx
          rw [hvectors.dimension] at hadm
          obtain ⟨image, hok, hi⟩ := ExactVectorIndex.image_add hvectors document.documentId hadm
          rw [ExactVectorIndex.add, hx] at hok
          rw [hx] at hexec
          rw [← Except.ok.inj hexec, Except.ok.inj hok]
          exact ⟨hdocuments, himage, by simpa [VectorsExact, he, embedder.stored_set] using hi⟩

-- With an admissible vector the derived update does run to its end.
theorem exec_apply {derived : Derived α} {document : Document} {vector : Option (List α)}
    (h : derived.Exact ctx rows)
    (hv : ∀ embedder, ctx.embedder = some embedder →
      vector = some (embedder.embed document.text) ∧
        ExactVectorIndex.Admissible embedder.identity.dimension (embedder.embed document.text)) :
    ∃ after, exec (derived.applyScript document
      (Analysis.analyze ctx.unicode document.text) vector) derived = .ok after := by
  obtain ⟨index, hlexical, -⟩ := exec_apply_lexical document h
  unfold applyScript
  rw [Script.exec_append, hlexical]
  cases he : ctx.embedder with
  | none =>
      rw [vectorsExact_none h.vectors he]
      exact ⟨_, rfl⟩
  | some embedder =>
      obtain ⟨vectors, hs, hvectors⟩ := vectorsExact_some h.vectors he
      obtain ⟨hvec, hadm⟩ := hv embedder he
      obtain ⟨final, hadd, -⟩ := ExactVectorIndex.image_add hvectors document.documentId hadm
      rw [ExactVectorIndex.add] at hadd
      simp only [hs, hvec, Except.bind]
      rw [exec_onVectors _ _ rfl, hadd]
      exact ⟨_, rfl⟩

end Derived

end PySearch
