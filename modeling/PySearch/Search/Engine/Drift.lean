import PySearch.Search.Engine.Mutations
import PySearch.Search.Engine.Validate

namespace PySearch

open Script (exec)
open ExactVectorIndex (Admissible)
open InvertedIndex (Settled)

variable {α : Type} [Arith α]

-- The vector that is added for a document, if there is an embedder.
def EngineContext.vectorOf (ctx : EngineContext α) (document : Document) : Option (List α) :=
  ctx.embedder.map fun embedder => embedder.embed document.text

-- The stored documents embed to what an embedder promises.
def EngineContext.EmbedsToUnits [LinearOrder α] (ctx : EngineContext α)
    (rows : Dict String Document) : Prop :=
  ∀ embedder id document, ctx.embedder = some embedder → rows.get? id = some document →
    Admissible embedder.identity.dimension (embedder.embed document.text) ∧
      ExactVectorIndex.unit (embedder.embed document.text)

namespace Derived

-- The statements of a derived update up to the last one on the index.
def lexicalLength (ctx : EngineContext α) (derived : Derived α) (document : Document) : Nat :=
  1 + (derived.index.addDocumentScript document.documentId
    (Analysis.analyze ctx.unicode document.text)).length

-- What the first statements of an update have done, at least the one on the cache.
structure Begun (ctx : EngineContext α) (derived : Derived α) (document : Document) (count : Nat)
    (middle : Derived α) : Prop where
  documents : middle.documents = derived.documents.set document.documentId document
  index : exec ((derived.index.addDocumentScript document.documentId
    (Analysis.analyze ctx.unicode document.text)).take (count - 1)) derived.index =
      .ok middle.index
  noVectors : ctx.embedder = none → middle.vectors = none
  vectors : ∀ embedder vectors, ctx.embedder = some embedder → derived.vectors = some vectors →
    ∃ after, middle.vectors = some after ∧
      exec ((vectors.addScript document.documentId (embedder.embed document.text)).take
        (count - derived.lexicalLength ctx document)) vectors = .ok after

-- A replacement that stops after so many statements leaves the old tokens or the old vector
-- in place, and they are not those of the new text.
def HalfReplaced (ctx : EngineContext α) (derived : Derived α) (old document : Document)
    (count : Nat) : Prop :=
  ((count = 1 ∨ count = 2) ∧ ¬ (Analysis.analyze ctx.unicode old.text).Perm
    (Analysis.analyze ctx.unicode document.text)) ∨
  ((count = 1 ∨ count = 2 ∨ Settled derived.index document.documentId
      (Analysis.analyze ctx.unicode document.text) (count - 1) ∧
        count < derived.lexicalLength ctx document + 2) ∧
    ∃ embedder, ctx.embedder = some embedder ∧
      embedder.embed old.text ≠ embedder.embed document.text)

variable [LinearOrder α]

-- An insertion that stops in front of its last statement gives the document whatever its row
-- held before, and that passes for a vector.
def HalfInserted (ctx : EngineContext α) (derived : Derived α) (document : Document)
    (count : Nat) : Prop :=
  count = derived.lexicalLength ctx document + 4 ∧
    ∃ embedder vectors, ctx.embedder = some embedder ∧ derived.vectors = some vectors ∧
      Admissible embedder.identity.dimension vectors.leftover ∧
      ExactVectorIndex.unit vectors.leftover ∧
      vectors.leftover ≠ embedder.embed document.text

def HalfWritten (ctx : EngineContext α) (derived : Derived α) (old : Option Document)
    (document : Document) (count : Nat) : Prop :=
  match old with
  | some old => derived.HalfReplaced ctx old document count
  | none => derived.HalfInserted ctx document count

section Write

variable {ctx : EngineContext α} {derived middle : Derived α} {rows : Dict String Document}
  {document : Document} {vector : Option (List α)} {count : Nat}

omit [Arith α] [LinearOrder α] in
-- What the first statements of an update of all structures have done, component by component.
theorem exec_begun {start : Script.Stmt (Derived α) PyError} {started : Derived α}
    {onlyIndex : List (Script.Stmt InvertedIndex PyError)} {index : InvertedIndex}
    {onlyVectors : List (Script.Stmt (ExactVectorIndex α) PyError)}
    (hstart : start derived = .ok started) (hall : exec onlyIndex started.index = .ok index)
    (hnone : started.vectors = none → onlyVectors = [])
    (hexec : exec ((start :: onlyIndex.map onIndex ++ onlyVectors.map onVectors).take (count + 1))
      derived = .ok middle) :
    middle.documents = started.documents ∧
    exec (onlyIndex.take count) started.index = .ok middle.index ∧
    (started.vectors = none → middle.vectors = none) ∧
    ∀ vectors, started.vectors = some vectors → ∃ after, middle.vectors = some after ∧
      exec (onlyVectors.take (count - onlyIndex.length)) vectors = .ok after := by
  have hlength : (start :: onlyIndex.map onIndex).length = onlyIndex.length + 1 := by simp
  by_cases hlexical : count ≤ onlyIndex.length
  · rw [Script.exec_take_append_left _ (by omega), List.take_succ_cons, Script.exec_cons, hstart,
      ← List.map_take] at hexec
    simp only [Except.bind] at hexec
    rw [exec_onIndex] at hexec
    cases hindex : exec (onlyIndex.take count) started.index with
    | error error => simp [hindex, Except.map] at hexec
    | ok after =>
        simp only [hindex, Except.map] at hexec
        cases hexec
        exact ⟨rfl, rfl, id, fun vectors hs =>
          ⟨vectors, hs, by rw [Nat.sub_eq_zero_of_le hlexical]; rfl⟩⟩
  · have hfirst : exec (start :: onlyIndex.map onIndex) derived =
        .ok { started with index := index } := by
      rw [Script.exec_cons, hstart]
      simp only [Except.bind]
      rw [exec_onIndex, hall]
      rfl
    rw [Script.exec_take_append hfirst (by omega), hlength, Nat.add_sub_add_right,
      ← List.map_take] at hexec
    have hindex : exec (onlyIndex.take count) started.index = .ok index := by
      rwa [List.take_of_length_le (by omega)]
    cases hs : started.vectors with
    | none =>
        rw [hnone hs, List.take_nil] at hexec
        cases hexec
        exact ⟨rfl, hindex, fun _ => hs, by simp [hs]⟩
    | some vectors =>
        rw [exec_onVectors _ { started with index := index } hs] at hexec
        cases hvectors : exec (onlyVectors.take (count - onlyIndex.length)) vectors with
        | error error => simp [hvectors, Except.map] at hexec
        | ok after =>
            simp only [hvectors, Except.map] at hexec
            cases hexec
            refine ⟨rfl, hindex, by simp, fun found hf => ?_⟩
            cases hf
            exact ⟨after, rfl, hvectors⟩

omit [LinearOrder α] in
theorem apply_begun (h : derived.Exact ctx rows) (hcount : 1 ≤ count)
    (hexec : exec ((derived.applyScript document (Analysis.analyze ctx.unicode document.text)
      (ctx.vectorOf document)).take count) derived = .ok middle) :
    derived.Begun ctx document count middle := by
  obtain ⟨count, rfl⟩ := Nat.exists_eq_add_of_le' hcount
  obtain ⟨index, hadd, -⟩ := InvertedIndex.image_addDocument document.documentId
    (Analysis.analyze ctx.unicode document.text) h.index
  have hstart : setDocument document derived =
      .ok { derived with documents := derived.documents.set document.documentId document } := rfl
  cases he : ctx.embedder with
  | none =>
      have hn := vectorsExact_none h.vectors he
      unfold applyScript at hexec
      rw [hn] at hexec
      obtain ⟨hset, hindex, hnone, -⟩ := @exec_begun _ _ _ _ _ _ _ _ [] hstart hadd
        (fun _ => rfl) hexec
      exact ⟨hset, hindex, fun _ => hnone hn, by simp [he]⟩
  | some embedder =>
      obtain ⟨vectors, hs, -⟩ := vectorsExact_some h.vectors he
      unfold applyScript EngineContext.vectorOf at hexec
      rw [hs, he] at hexec
      obtain ⟨hset, hindex, -, hsome⟩ := exec_begun hstart hadd
        (fun hn => by cases hs.symm.trans hn) hexec
      refine ⟨hset, hindex, by simp [he], fun other found ho hf => ?_⟩
      cases he.symm.trans ho
      cases hs.symm.trans hf
      obtain ⟨after, hafter, hvectors⟩ := hsome vectors hs
      refine ⟨after, hafter, ?_⟩
      rwa [lexicalLength, Nat.add_comm 1, Nat.add_sub_add_right]

omit [LinearOrder α] in
theorem Begun.written (hb : derived.Begun ctx document count middle) (h : derived.Exact ctx rows)
    (id : String) :
    middle.documents.get? id = (rows.set document.documentId document).get? id := by
  rw [hb.documents, Dict.get?_set, Dict.get?_set, h.documents]

omit [Arith α] [LinearOrder α] in
theorem vectorsExact_of_image {embedder : Embedder α} {after : ExactVectorIndex α}
    (he : ctx.embedder = some embedder) (hs : middle.vectors = some after)
    (hi : after.Image embedder.identity.dimension (Function.update (embedder.stored rows)
      document.documentId (some (embedder.embed document.text)))) :
    VectorsExact ctx (rows.set document.documentId document) middle.vectors := by
  rw [hs]
  simpa [VectorsExact, he, embedder.stored_set] using hi

omit [Arith α] [LinearOrder α] in
theorem vectorsExact_of_none (he : ctx.embedder = none) (hs : middle.vectors = none)
    (rows : Dict String Document) : VectorsExact ctx rows middle.vectors := by
  rw [hs]
  simp [VectorsExact, he]

omit [Arith α] [LinearOrder α] in
-- A vector that is already the one of the new text needs no writing.
theorem stored_unchanged {embedder : Embedder α} {old : Document}
    (hold : rows.get? document.documentId = some old)
    (hsame : embedder.embed old.text = embedder.embed document.text) :
    Function.update (embedder.stored rows) document.documentId
      (some (embedder.embed document.text)) = embedder.stored rows := by
  rw [Function.update_eq_self_iff, Embedder.stored, hold, Option.map_some, hsame]

omit [Arith α] [LinearOrder α] in
theorem position_of_row {embedder : Embedder α} {vectors : ExactVectorIndex α} {id : String}
    (h : vectors.Image embedder.identity.dimension (embedder.stored rows)) {old : Document}
    (hold : rows.get? id = some old) : ∃ position, vectors.positions.get? id = some position := by
  have hid : id ∈ vectors.ids := (h.stored id).mp (by simp [Embedder.stored, hold])
  obtain ⟨position, hposition⟩ := List.mem_iff_getElem?.mp hid
  exact ⟨position, (h.positions id position).mpr hposition⟩

omit [Arith α] [LinearOrder α] in
theorem position_of_no_row {embedder : Embedder α} {vectors : ExactVectorIndex α} {id : String}
    (h : vectors.Image embedder.identity.dimension (embedder.stored rows))
    (hrow : rows.get? id = none) : vectors.positions.get? id = none := by
  cases hposition : vectors.positions.get? id with
  | none => rfl
  | some position =>
      have hid := List.mem_of_getElem? ((h.positions id position).mp hposition)
      simp [← h.stored, Embedder.stored, hrow] at hid

-- An update that has done nothing passes only if there was nothing to do.
theorem unwritten_exact (h : derived.Exact ctx rows)
    (hkeyed : ∀ id found, rows.get? id = some found → found.documentId = id)
    (hvalid : derived.Validated (rows.set document.documentId document)) :
    derived.Exact ctx (rows.set document.documentId document) := by
  have hsize := Dict.size_eq h.documents
  have hcount := hvalid.count
  cases hold : rows.get? document.documentId with
  | none =>
      rw [Dict.size_set_of_none hold] at hcount
      omega
  | some old =>
      obtain ⟨cached, hcached, htext⟩ := hvalid.texts _ document (Dict.get?_set_self ..)
      have hfound : cached = old :=
        Option.some.inj (hcached.symm.trans ((h.documents _).trans hold))
      have hid := hkeyed _ _ hold
      have hsame : old = document := by
        rw [hfound] at htext
        cases old
        cases document
        simp_all
      refine h.congr fun id => ?_
      rw [Dict.get?_set]
      by_cases heq : id = document.documentId
      · rw [if_pos heq, heq, hold, hsame]
      · rw [if_neg heq]

omit [LinearOrder α] in
-- The vector part of a stopped replacement is exact, unless it was not written and has to.
theorem Begun.vectors_replaced (hb : derived.Begun ctx document count middle)
    (h : derived.Exact ctx rows) {old : Document}
    (hold : rows.get? document.documentId = some old) :
    VectorsExact ctx (rows.set document.documentId document) middle.vectors ∨
      (count < derived.lexicalLength ctx document + 2 ∧ ∃ embedder, ctx.embedder = some embedder ∧
        embedder.embed old.text ≠ embedder.embed document.text) := by
  cases he : ctx.embedder with
  | none => exact .inl (vectorsExact_of_none he (hb.noVectors he) _)
  | some embedder =>
      obtain ⟨vectors, hs, himage⟩ := vectorsExact_some h.vectors he
      obtain ⟨after, hafter, hexec⟩ := hb.vectors embedder vectors he hs
      obtain ⟨position, hposition⟩ := position_of_row himage hold
      rcases ExactVectorIndex.add_stopped_present himage hposition hexec with
        ⟨hfew, hkept⟩ | ⟨-, hwritten⟩
      · by_cases hsame : embedder.embed old.text = embedder.embed document.text
        · refine .inl (vectorsExact_of_image he hafter ?_)
          rwa [stored_unchanged hold hsame, hkept]
        · exact .inr ⟨by omega, embedder, rfl, hsame⟩
      · exact .inl (vectorsExact_of_image he hafter hwritten)

-- The vector part of a stopped insertion that passes the validation is exact, unless its
-- row was not written and passes for a vector.
theorem Begun.vectors_inserted (hb : derived.Begun ctx document count middle)
    (h : derived.Exact ctx rows) (hrow : rows.get? document.documentId = none)
    (hvalid : middle.Validated (rows.set document.documentId document)) :
    VectorsExact ctx (rows.set document.documentId document) middle.vectors ∨
      derived.HalfInserted ctx document count := by
  cases he : ctx.embedder with
  | none => exact .inl (vectorsExact_of_none he (hb.noVectors he) _)
  | some embedder =>
      obtain ⟨vectors, hs, himage⟩ := vectorsExact_some h.vectors he
      obtain ⟨after, hafter, hexec⟩ := hb.vectors embedder vectors he hs
      obtain ⟨hpassed, hcovers⟩ := hvalid.vectors after hafter
      rcases ExactVectorIndex.add_stopped_new himage (position_of_no_row himage hrow) hexec with
        ⟨-, hmissing⟩ | ⟨hcount, hleft⟩ | ⟨-, hwritten⟩
      · have hid := hcovers document.documentId
        rw [hmissing, hb.written h, Dict.get?_set_self] at hid
        simp at hid
      · by_cases hsame : vectors.leftover = embedder.embed document.text
        · exact .inl (vectorsExact_of_image he hafter (hsame ▸ hleft))
        · obtain ⟨hadmissible, hunit⟩ := hleft.validate_ok_iff.mp hpassed document.documentId
            vectors.leftover (Function.update_self ..)
          exact .inr ⟨by omega, embedder, vectors, he, hs, hadmissible, hunit, hsame⟩
      · exact .inl (vectorsExact_of_image he hafter hwritten)

-- A stopped write that passes the validation is as good as complete, or leaves a half.
theorem written_exact_or_half (h : derived.Exact ctx rows)
    (hkeyed : ∀ id found, rows.get? id = some found → found.documentId = id)
    (hexec : exec ((derived.applyScript document (Analysis.analyze ctx.unicode document.text)
      (ctx.vectorOf document)).take count) derived = .ok middle)
    (hvalid : middle.Validated (rows.set document.documentId document)) :
    middle.Exact ctx (rows.set document.documentId document) ∨
      derived.HalfWritten ctx (rows.get? document.documentId) document count := by
  by_cases hzero : count = 0
  · subst hzero
    cases hexec
    exact .inl (unwritten_exact h hkeyed hvalid)
  have hb := apply_begun h (by omega) hexec
  have hdocuments := hb.written h
  rcases InvertedIndex.addDocument_stopped h.index hb.index with
    ⟨hthere, hfew, hsame, -⟩ | ⟨hbroken, -, -⟩ | ⟨hsettled, himage⟩
  · obtain ⟨old, hold⟩ : ∃ old, rows.get? document.documentId = some old := by
      rwa [EngineContext.corpus, Option.isSome_map, Option.isSome_iff_exists] at hthere
    rw [hold]
    by_cases hperm : (Analysis.analyze ctx.unicode old.text).Perm
        (Analysis.analyze ctx.unicode document.text)
    · have himage : middle.index.Image (ctx.corpus (rows.set document.documentId document)) := by
        rw [ctx.corpus_set, hsame]
        exact h.index.update_perm (by simp [EngineContext.corpus, hold]) hperm
      rcases hb.vectors_replaced h hold with hvectors | ⟨hlate, hchanged⟩
      · exact .inl ⟨hdocuments, himage, hvectors⟩
      · exact .inr (.inr ⟨by omega, hchanged⟩)
    · exact .inr (.inl ⟨by omega, hperm⟩)
  · -- The cache has the document, so the index must have it too.
    rcases hbroken with hmissing | hinvalid
    · have hids := hvalid.ids document.documentId
      rw [hmissing, hdocuments, Dict.get?_set_self] at hids
      simp at hids
    · exact absurd hvalid.index hinvalid
  · rw [← ctx.corpus_set] at himage
    cases hold : rows.get? document.documentId with
    | some old =>
        rcases hb.vectors_replaced h hold with hvectors | ⟨hlate, hchanged⟩
        · exact .inl ⟨hdocuments, himage, hvectors⟩
        · exact .inr (.inr ⟨.inr (.inr ⟨hsettled, hlate⟩), hchanged⟩)
    | none =>
        rcases hb.vectors_inserted h hold hvalid with hvectors | hhalf
        · exact .inl ⟨hdocuments, himage, hvectors⟩
        · exact .inr hhalf

-- Structures that are about the documents of the rows pass, whatever they say about them.
theorem validated_of_images {corpus : InvertedIndex.Corpus}
    (hdocuments : ∀ id, middle.documents.get? id = rows.get? id)
    (hindex : middle.index.Image corpus)
    (hcorpus : ∀ id, (corpus id).isSome ↔ (rows.get? id).isSome)
    (hvectors : ∀ vectors, middle.vectors = some vectors → vectors.validate = .ok () ∧
      ∀ id, (vectors.positions.get? id).isSome ↔ (rows.get? id).isSome) :
    middle.Validated rows where
  index := hindex.validate
  ids id := by
    rw [hdocuments, hindex.lengths, ← hcorpus]
    cases corpus id <;> simp
  vectors vectors hs := by
    refine ⟨(hvectors vectors hs).1, fun id => ?_⟩
    rw [hdocuments]
    exact (hvectors vectors hs).2 id
  count := (Dict.size_eq hdocuments).symm
  texts id document hrow := ⟨document, (hdocuments id).trans hrow, rfl⟩

omit [Arith α] [LinearOrder α] in
theorem covers_of_image {embedder : Embedder α} {vectors : ExactVectorIndex α}
    {stored : String → Option (List α)}
    (h : vectors.Image embedder.identity.dimension stored)
    (hstored : ∀ id, (stored id).isSome ↔ (rows.get? id).isSome) (id : String) :
    (vectors.positions.get? id).isSome ↔ (rows.get? id).isSome := by
  rw [← hstored, h.stored, List.mem_iff_getElem?, Option.isSome_iff_exists]
  exact exists_congr fun position => h.positions id position

omit [Arith α] [LinearOrder α] in
theorem isSome_set_of_row {old : Document} (hold : rows.get? document.documentId = some old)
    (id : String) : (rows.get? id).isSome ↔
      ((rows.set document.documentId document).get? id).isSome := by
  rw [Dict.get?_set]
  by_cases hid : id = document.documentId
  · simp [hid, hold]
  · rw [if_neg hid]

omit [LinearOrder α] in
theorem Begun.index_kept (hb : derived.Begun ctx document count middle)
    (h : derived.Exact ctx rows) {old : Document}
    (hold : rows.get? document.documentId = some old) (hcount : count ≤ 2) :
    middle.index = derived.index := by
  have hlength := derived.index.addDocumentScript_length document.documentId
    (Analysis.analyze ctx.unicode document.text)
  rcases InvertedIndex.addDocument_stopped h.index hb.index with ⟨-, -, hsame, -⟩ |
    ⟨-, -, hmany⟩ | ⟨hsettled, -⟩
  · exact hsame
  · have htwo := hmany (by simp [EngineContext.corpus, hold])
    omega
  · rcases hsettled with hall | ⟨-, hall⟩ <;> omega

omit [LinearOrder α] in
theorem Begun.vectors_kept (hb : derived.Begun ctx document count middle)
    (h : derived.Exact ctx rows) {old : Document}
    (hold : rows.get? document.documentId = some old)
    (hcount : count < derived.lexicalLength ctx document + 2) :
    middle.vectors = derived.vectors := by
  cases he : ctx.embedder with
  | none => rw [hb.noVectors he, vectorsExact_none h.vectors he]
  | some embedder =>
      obtain ⟨vectors, hs, himage⟩ := vectorsExact_some h.vectors he
      obtain ⟨after, hafter, hexec⟩ := hb.vectors embedder vectors he hs
      obtain ⟨position, hposition⟩ := position_of_row himage hold
      rcases ExactVectorIndex.add_stopped_present himage hposition hexec with
        ⟨-, hkept⟩ | ⟨hmany, -⟩
      · rw [hafter, hs, hkept]
      · omega

-- Old vectors pass for the new rows of a replacement.
theorem Begun.validated {corpus : InvertedIndex.Corpus}
    (hb : derived.Begun ctx document count middle) (h : derived.Exact ctx rows)
    {old : Document} (hold : rows.get? document.documentId = some old)
    (hpassed : ∀ vectors, derived.vectors = some vectors → vectors.validate = .ok ())
    (hindex : middle.index.Image corpus)
    (hcorpus : ∀ id, (corpus id).isSome ↔
      ((rows.set document.documentId document).get? id).isSome)
    (hkept : middle.vectors = derived.vectors) :
    middle.Validated (rows.set document.documentId document) := by
  refine validated_of_images (hb.written h) hindex hcorpus fun vectors hs => ?_
  rw [hkept] at hs
  refine ⟨hpassed vectors hs, fun id => ?_⟩
  rw [← isSome_set_of_row hold]
  cases he : ctx.embedder with
  | none =>
      rw [vectorsExact_none h.vectors he] at hs
      cases hs
  | some embedder =>
      obtain ⟨found, hf, himage⟩ := vectorsExact_some h.vectors he
      cases hs.symm.trans hf
      exact covers_of_image himage (fun id => by simp [Embedder.stored]) id

omit [Arith α] [LinearOrder α] in
theorem HalfReplaced.bounds {old : Document} (h : derived.HalfReplaced ctx old document count) :
    1 ≤ count ∧ count < derived.lexicalLength ctx document + 2 := by
  have hlength := derived.index.addDocumentScript_length document.documentId
    (Analysis.analyze ctx.unicode document.text)
  unfold HalfReplaced at h
  rw [lexicalLength] at h ⊢
  rcases h with ⟨hfew, -⟩ | ⟨hfew | hfew | ⟨hsettled, hlate⟩, -⟩
  · omega
  · omega
  · omega
  · rcases hsettled with hall | ⟨-, hall⟩ <;> omega

-- The row of a new document holds what was left in it.
theorem HalfInserted.image {embedder : Embedder α} {vectors after : ExactVectorIndex α}
    (hhalf : derived.HalfInserted ctx document count)
    (hrow : rows.get? document.documentId = none)
    (himage : vectors.Image embedder.identity.dimension (embedder.stored rows))
    (hadd : exec ((vectors.addScript document.documentId (embedder.embed document.text)).take
      (count - derived.lexicalLength ctx document)) vectors = .ok after) :
    after.Image embedder.identity.dimension (Function.update (embedder.stored rows)
      document.documentId (some vectors.leftover)) := by
  rw [hhalf.1, Nat.add_sub_cancel_left] at hadd
  rcases ExactVectorIndex.add_stopped_new himage (position_of_no_row himage hrow) hadd with
    ⟨hfew, -⟩ | ⟨-, hleft⟩ | ⟨hmany, -⟩
  · omega
  · exact hleft
  · omega

omit [Arith α] [LinearOrder α] in
-- Exact vectors are the embeddings of the rows.
theorem Exact.stored_eq {embedder : Embedder α} {vectors : ExactVectorIndex α}
    {stored : String → Option (List α)} (h : middle.Exact ctx rows)
    (he : ctx.embedder = some embedder) (hs : middle.vectors = some vectors)
    (himage : vectors.Image embedder.identity.dimension stored) (id : String) :
    stored id = embedder.stored rows id := by
  obtain ⟨exact, hsame, hstored⟩ := vectorsExact_some h.vectors he
  cases hs.symm.trans hsame
  exact (himage.vectorOf_eq id).symm.trans (hstored.vectorOf_eq id)

-- A half that is left by a replacement passes the validation.
theorem half_replaced_overlooked (h : derived.Exact ctx rows) {old : Document}
    (hold : rows.get? document.documentId = some old)
    (hpassed : ∀ vectors, derived.vectors = some vectors → vectors.validate = .ok ())
    (hexec : exec ((derived.applyScript document (Analysis.analyze ctx.unicode document.text)
      (ctx.vectorOf document)).take count) derived = .ok middle)
    (hhalf : derived.HalfReplaced ctx old document count) :
    middle.Validated (rows.set document.documentId document) ∧
      ¬ middle.Exact ctx (rows.set document.documentId document) := by
  obtain ⟨hpositive, hlate⟩ := hhalf.bounds
  have hb := apply_begun h hpositive hexec
  have hold' : ctx.corpus rows document.documentId =
      some (Analysis.analyze ctx.unicode old.text) := by simp [EngineContext.corpus, hold]
  have hnew : ctx.corpus (rows.set document.documentId document) document.documentId =
      some (Analysis.analyze ctx.unicode document.text) := by simp [EngineContext.corpus]
  have hids : ∀ id, (ctx.corpus rows id).isSome ↔
      ((rows.set document.documentId document).get? id).isSome := by
    intro id
    rw [EngineContext.corpus, Option.isSome_map]
    exact isSome_set_of_row hold id
  have hkept := hb.vectors_kept h hold hlate
  rcases hhalf with ⟨hfew, hperm⟩ | ⟨hwhen, embedder, he, hchanged⟩
  · have hsame := hb.index_kept h hold (by omega)
    refine ⟨hb.validated h hold hpassed (hsame ▸ h.index) hids hkept, fun hexact => ?_⟩
    have himage := hexact.index
    rw [hsame] at himage
    exact hperm (h.index.tokens_perm himage hold' hnew)
  · refine ⟨?_, fun hexact => ?_⟩
    · by_cases hfew : count ≤ 2
      · have hsame := hb.index_kept h hold hfew
        exact hb.validated h hold hpassed (hsame ▸ h.index) hids hkept
      · have hsettled := (hwhen.resolve_left (by omega)).resolve_left (by omega)
        rcases InvertedIndex.addDocument_stopped h.index hb.index with ⟨-, hfew', -⟩ |
          ⟨-, hunsettled, -⟩ | ⟨-, himage⟩
        · omega
        · exact absurd hsettled.1 hunsettled
        · rw [← ctx.corpus_set] at himage
          exact hb.validated h hold hpassed himage (fun id => by simp [EngineContext.corpus]) hkept
    · obtain ⟨vectors, hs, himage⟩ := vectorsExact_some h.vectors he
      have hvector := hexact.stored_eq he (hkept.trans hs) himage document.documentId
      rw [Embedder.stored, Embedder.stored, hold, Dict.get?_set_self] at hvector
      exact hchanged (Option.some.inj hvector)

theorem half_inserted_overlooked (h : derived.Exact ctx rows)
    (hrow : rows.get? document.documentId = none)
    (hpassed : ∀ vectors, derived.vectors = some vectors → vectors.validate = .ok ())
    (hexec : exec ((derived.applyScript document (Analysis.analyze ctx.unicode document.text)
      (ctx.vectorOf document)).take count) derived = .ok middle)
    (hhalf : derived.HalfInserted ctx document count) :
    middle.Validated (rows.set document.documentId document) ∧
      ¬ middle.Exact ctx (rows.set document.documentId document) := by
  obtain ⟨hcount, embedder, vectors, he, hs, hadmissible, hunit, hother⟩ := id hhalf
  obtain ⟨found, hf, himage⟩ := vectorsExact_some h.vectors he
  cases hs.symm.trans hf
  have hb := apply_begun h (by omega) hexec
  have hindex := hb.index
  obtain ⟨after, hafter, hadd⟩ := hb.vectors embedder vectors he hs
  have hleft := hhalf.image hrow himage hadd
  have hcorpus : middle.index.Image (ctx.corpus (rows.set document.documentId document)) := by
    rw [ctx.corpus_set]
    rw [List.take_of_length_le (by rw [lexicalLength] at hcount; omega)] at hindex
    obtain ⟨index, hadded, himage⟩ := InvertedIndex.image_addDocument document.documentId
      (Analysis.analyze ctx.unicode document.text) h.index
    cases hadded.symm.trans hindex
    exact himage
  refine ⟨validated_of_images (hb.written h) hcorpus (fun id => by simp [EngineContext.corpus])
    fun other ho => ?_, fun hexact => ?_⟩
  · cases hafter.symm.trans ho
    refine ⟨hleft.validate fun id vector hv => ?_, covers_of_image hleft fun id => ?_⟩
    · by_cases hid : id = document.documentId
      · rw [hid, Function.update_self] at hv
        cases hv
        exact ⟨hadmissible, hunit⟩
      · rw [Function.update_of_ne hid] at hv
        exact himage.validate_ok_iff.mp (hpassed vectors hs) id vector hv
    · by_cases hid : id = document.documentId
      · simp [hid]
      · simp [hid, Dict.get?_set, Embedder.stored]
  · have hvector := hexact.stored_eq he hafter hleft document.documentId
    rw [Function.update_self, Embedder.stored, Dict.get?_set_self] at hvector
    exact hother (Option.some.inj hvector)

theorem passed_of_units (h : derived.Exact ctx rows)
    (hunits : ctx.EmbedsToUnits rows) (vectors : ExactVectorIndex α)
    (hs : derived.vectors = some vectors) : vectors.validate = .ok () := by
  cases he : ctx.embedder with
  | none =>
      rw [vectorsExact_none h.vectors he] at hs
      cases hs
  | some embedder =>
      obtain ⟨found, hf, himage⟩ := vectorsExact_some h.vectors he
      cases hs.symm.trans hf
      refine himage.validate fun id vector hv => ?_
      obtain ⟨document, hrow, rfl⟩ := Option.map_eq_some_iff.mp hv
      exact hunits embedder id document he hrow

-- A half passes the validation, whichever way it was left.
theorem half_overlooked (h : derived.Exact ctx rows) (hunits : ctx.EmbedsToUnits rows)
    (hexec : exec ((derived.applyScript document (Analysis.analyze ctx.unicode document.text)
      (ctx.vectorOf document)).take count) derived = .ok middle)
    (hhalf : derived.HalfWritten ctx (rows.get? document.documentId) document count) :
    middle.Validated (rows.set document.documentId document) ∧
      ¬ middle.Exact ctx (rows.set document.documentId document) := by
  have hpassed := passed_of_units h hunits
  cases hold : rows.get? document.documentId with
  | some old =>
      rw [hold] at hhalf
      exact half_replaced_overlooked h hold hpassed hexec hhalf
  | none =>
      rw [hold] at hhalf
      exact half_inserted_overlooked h hold hpassed hexec hhalf

-- It is seen when the other vectors do not pass.
theorem units_of_half (h : derived.Exact ctx rows)
    (hexec : exec ((derived.applyScript document (Analysis.analyze ctx.unicode document.text)
      (ctx.vectorOf document)).take count) derived = .ok middle)
    (hvalid : middle.Validated (rows.set document.documentId document))
    (hhalf : derived.HalfWritten ctx (rows.get? document.documentId) document count) :
    ctx.EmbedsToUnits rows := by
  intro embedder id row he hrow
  have hstored : embedder.stored rows id = some (embedder.embed row.text) := by
    rw [Embedder.stored, hrow, Option.map_some]
  obtain ⟨vectors, hs, himage⟩ := vectorsExact_some h.vectors he
  cases hold : rows.get? document.documentId with
  | some old =>
      rw [hold] at hhalf
      obtain ⟨hpositive, hlate⟩ := hhalf.bounds
      have hkept := (apply_begun h hpositive hexec).vectors_kept h hold hlate
      have hpassed := (hvalid.vectors vectors (hkept.trans hs)).1
      exact himage.validate_ok_iff.mp hpassed id _ hstored
  | none =>
      rw [hold] at hhalf
      have hcount := hhalf.1
      obtain ⟨after, hafter, hadd⟩ :=
        (apply_begun h (by omega) hexec).vectors embedder vectors he hs
      have hid : id ≠ document.documentId := by
        intro heq
        rw [heq, hold] at hrow
        cases hrow
      have hpassed := (hvalid.vectors after hafter).1
      refine (hhalf.image hold himage hadd).validate_ok_iff.mp hpassed id _ ?_
      rw [Function.update_of_ne hid, hstored]

omit [Arith α] [LinearOrder α] in
theorem remove_begun {documentId : String} {old : Document} (h : derived.Exact ctx rows)
    (hold : rows.get? documentId = some old)
    (hexec : exec ((derived.removeScript documentId).take (count + 1)) derived = .ok middle) :
    middle.documents = derived.documents.erase documentId ∧
    exec ((derived.index.removeDocumentScript documentId).take count) derived.index =
        .ok middle.index ∧
    (derived.vectors = none → middle.vectors = none) ∧
    ∀ vectors, derived.vectors = some vectors → ∃ after, middle.vectors = some after ∧
      exec ((vectors.removeScript documentId).take
        (count - (derived.index.removeDocumentScript documentId).length)) vectors = .ok after := by
  have hcorpus : ctx.corpus rows documentId =
      some (Analysis.analyze ctx.unicode old.text) := by simp [EngineContext.corpus, hold]
  obtain ⟨index, hremove, -⟩ := InvertedIndex.image_removeDocument h.index hcorpus
  have hstart : deleteDocument documentId derived =
      .ok { derived with documents := derived.documents.erase documentId } := by
    rw [deleteDocument, if_pos (by simp [h.documents, hold])]
  cases hs : derived.vectors with
  | none =>
      unfold removeScript at hexec
      rw [hs] at hexec
      obtain ⟨herase, hindex, hnone, -⟩ := @exec_begun _ _ _ _ _ _ _ _ [] hstart hremove
        (fun _ => rfl) hexec
      exact ⟨herase, hindex, fun _ => hnone hs, by simp⟩
  | some vectors =>
      unfold removeScript at hexec
      rw [hs] at hexec
      obtain ⟨herase, hindex, -, hsome⟩ := exec_begun hstart hremove
        (fun hn => by cases hs.symm.trans hn) hexec
      refine ⟨herase, hindex, by simp, fun found hf => ?_⟩
      cases hf
      exact hsome vectors hs

omit [Arith α] [LinearOrder α] in
-- The cache does not have the document any more, so the index must not have it either.
theorem removed_index {documentId : String} {tokens : List String} {index : InvertedIndex}
    (h : derived.index.Image (ctx.corpus rows)) (hcorpus : ctx.corpus rows documentId = some tokens)
    (hexec : exec ((derived.index.removeDocumentScript documentId).take count) derived.index =
      .ok index) (hmissing : index.documentLengths.get? documentId = none) :
    index.Image (ctx.corpus (rows.erase documentId)) := by
  rw [ctx.corpus_erase]
  by_cases hcount : count < (derived.index.removeDocumentScript documentId).length
  · have hthere := InvertedIndex.removeDocument_incomplete h hcorpus hexec hcount
    rw [hmissing] at hthere
    cases hthere
  · rcases InvertedIndex.removeDocument_stopped h hcorpus hexec with ⟨hfew, -⟩ | ⟨-, hless, -⟩ |
      ⟨-, himage⟩
    · simp only [InvertedIndex.removeDocumentScript, List.length_append, List.length_cons,
        List.length_nil] at hcount
      omega
    · exact absurd hless hcount
    · exact himage

-- Vectors that pass for what the cache holds have lost the document as a whole.
theorem removed_vectors {documentId : String} {embedder : Embedder α}
    {vectors after : ExactVectorIndex α}
    (h : vectors.Image embedder.identity.dimension (embedder.stored rows)) {old : Document}
    (hold : rows.get? documentId = some old)
    (hexec : exec ((vectors.removeScript documentId).take count) vectors = .ok after)
    (hpassed : after.validate = .ok ()) (hmissing : after.positions.get? documentId = none) :
    after.Image embedder.identity.dimension (embedder.stored (rows.erase documentId)) := by
  rcases ExactVectorIndex.remove_stopped h hexec with hsame | hshort | ⟨-, hfinal⟩
  · obtain ⟨position, hposition⟩ := position_of_row h hold
    rw [hsame, hposition] at hmissing
    cases hmissing
  · have hsize := (ExactVectorIndex.facts_of_validate hpassed).1
    omega
  · rwa [embedder.stored_erase]

-- A stopped deletion that passes the validation is as good as complete.
theorem removed_exact {documentId : String} {old : Document} (h : derived.Exact ctx rows)
    (hold : rows.get? documentId = some old)
    (hexec : exec ((derived.removeScript documentId).take count) derived = .ok middle)
    (hvalid : middle.Validated (rows.erase documentId)) :
    middle.Exact ctx (rows.erase documentId) := by
  cases count with
  | zero =>
      cases hexec
      have hcount := hvalid.count
      have hsize := Dict.size_eq h.documents
      have herased := Dict.size_erase hold
      omega
  | succ count =>
      obtain ⟨herase, hindex, hnone, hsome⟩ := remove_begun h hold hexec
      have hcorpus : ctx.corpus rows documentId =
          some (Analysis.analyze ctx.unicode old.text) := by simp [EngineContext.corpus, hold]
      have habsent : (middle.documents.get? documentId).isSome = false := by
        rw [herase, Dict.get?_erase, if_pos rfl]
        rfl
      have hdocuments : ∀ id, middle.documents.get? id = (rows.erase documentId).get? id := by
        intro id
        rw [herase, Dict.get?_erase, Dict.get?_erase, h.documents]
      have hmissing : middle.index.documentLengths.get? documentId = none := by
        simpa [habsent] using hvalid.ids documentId
      refine ⟨hdocuments, removed_index h.index hcorpus hindex hmissing, ?_⟩
      cases he : ctx.embedder with
      | none => exact vectorsExact_of_none he (hnone (vectorsExact_none h.vectors he)) _
      | some embedder =>
          obtain ⟨vectors, hs, hstored⟩ := vectorsExact_some h.vectors he
          obtain ⟨after, hafter, hremoved⟩ := hsome vectors hs
          obtain ⟨hpassed, hcovers⟩ := hvalid.vectors after hafter
          have hlost : after.positions.get? documentId = none := by
            simpa [habsent] using hcovers documentId
          rw [hafter]
          simpa [VectorsExact, he] using removed_vectors hstored hold hremoved hpassed hlost

end Write

end Derived

end PySearch
