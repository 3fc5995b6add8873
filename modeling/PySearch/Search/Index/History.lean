import PySearch.Search.Index.Theorems

namespace PySearch.InvertedIndex

section Statistics

variable {index : InvertedIndex} {corpus : Dict String (List String)}

theorem Image.tokens (h : index.Image corpus.get?) :
    index.Image fun key => (corpus.get? key).map id := by
  simpa using h

theorem Image.uniqueTermCount_dedup (h : index.Image corpus.get?) :
    index.uniqueTermCount = corpus.values.flatten.dedup.length := by
  have hperm : index.postings.keys.Perm corpus.values.flatten.dedup := by
    apply (List.perm_ext_iff_of_nodup index.postings.nodup (List.nodup_dedup _)).mpr
    intro term
    rw [List.mem_dedup, List.mem_flatten]
    refine (h.mem_vocabulary term).trans ⟨?_, ?_⟩
    · rintro ⟨id, tokens, hid, ht⟩
      exact ⟨tokens, Dict.mem_values.mpr ⟨id, hid⟩, ht⟩
    · rintro ⟨tokens, hm, ht⟩
      obtain ⟨id, hid⟩ := Dict.mem_values.mp hm
      exact ⟨id, tokens, hid, ht⟩
  simpa [Dict.keys, uniqueTermCount, Dict.size] using hperm.length_eq

end Statistics

-- Everything the index keeps and reports, told over the documents it holds.
structure Mirrors (index : InvertedIndex) (corpus : Dict String (List String)) : Prop where
  postings : ∀ term id, ((index.postings.get? term).bind fun postings => postings.get? id) =
    (corpus.get? id).bind (occurrences term)
  nonempty : ∀ term postings, index.postings.get? term = some postings → postings.size ≠ 0
  documentTerms : ∀ id, Option.Rel (fun set tokens => ∀ term, term ∈ set ↔ term ∈ tokens)
    (index.documentTerms.get? id) (corpus.get? id)
  documentLengths : ∀ id, index.documentLengths.get? id =
    (corpus.get? id).map fun tokens => (tokens.length : Int)
  totalLength : index.totalLength = (corpus.values.map fun tokens => (tokens.length : Int)).sum
  documentFrequency : ∀ term, index.documentFrequency term =
    (corpus.values.countP fun tokens => term ∈ tokens : Nat)
  uniqueTermCount : index.uniqueTermCount = corpus.values.flatten.dedup.length
  corpusStats : ∀ terms, index.corpusStats terms = ⟨corpus.size,
    (corpus.values.map fun tokens => (tokens.length : Int)).sum,
    Dict.comprehension terms id fun term =>
      (corpus.values.countP fun tokens => term ∈ tokens : Nat)⟩
  stats : ∀ {α : Type} [Arith α], (index.stats : IndexStats α) = ⟨corpus.size,
    corpus.values.flatten.dedup.length,
    if corpus.size = 0 then 0.0
      else Arith.intDiv (corpus.values.map fun tokens => (tokens.length : Int)).sum corpus.size,
    (corpus.values.map fun tokens => (tokens.length : Int)).sum⟩

theorem Image.mirrors {index : InvertedIndex} {corpus : Dict String (List String)}
    (h : index.Image corpus.get?) : Mirrors index corpus where
  postings term id := by
    rw [← h.posting term id, postingMap, Dict.getD]
    cases index.postings.get? term <;> rfl
  nonempty := h.nonempty
  documentTerms := h.terms
  documentLengths id := by
    rw [h.lengths id]
    cases corpus.get? id <;> rfl
  totalLength := h.tokens.totalLength_sum
  documentFrequency := h.tokens.documentFrequency_count
  uniqueTermCount := h.uniqueTermCount_dedup
  corpusStats terms := by
    simp only [InvertedIndex.corpusStats, h.tokens.documentCount_size, h.tokens.totalLength_sum,
      funext h.tokens.documentFrequency_count, id]
  stats := by
    intro α _
    have hsize : index.documentLengths.size = corpus.size := h.tokens.documentCount_size
    simp only [InvertedIndex.stats, documentCount, averageDocumentLength, totalTokenCount, hsize,
      h.uniqueTermCount_dedup, h.tokens.totalLength_sum, id]

-- One call on an index.
inductive Call
  | add (documentId : String) (tokens : List String)
  | remove (documentId : String)

-- The documents that are left when a call has been made.
def Call.apply (corpus : Dict String (List String)) : Call → Dict String (List String)
  | add documentId tokens => corpus.set documentId tokens
  | remove documentId => corpus.erase documentId

def Call.script (index : InvertedIndex) : Call → List (Script.Stmt InvertedIndex PyError)
  | add documentId tokens => index.addDocumentScript documentId tokens
  | remove documentId => index.removeDocumentScript documentId

-- The index that a call leaves behind, and what it raised.
def perform (index : InvertedIndex) (call : Call) : InvertedIndex × Option PyError :=
  Script.run (call.script index) none index

def performAll (calls : List Call) : InvertedIndex :=
  calls.foldl (fun index call => (perform index call).1) empty

def remaining (calls : List Call) : Dict String (List String) :=
  calls.foldl Call.apply .empty

-- A fresh index that is given the documents in order.
def fill (order : List (String × List String)) : Except PyError InvertedIndex :=
  order.foldlM (fun index entry => index.addDocument entry.1 entry.2) empty

section Runs

variable {index : InvertedIndex} {corpus : Dict String (List String)}

theorem get?_apply_add (corpus : Dict String (List String)) (id : String) (tokens : List String) :
    ((Call.add id tokens).apply corpus).get? = Function.update corpus.get? id (some tokens) := by
  funext other
  rw [Function.update_apply]
  exact Dict.get?_set corpus id other tokens

theorem get?_apply_remove (corpus : Dict String (List String)) (id : String) :
    ((Call.remove id).apply corpus).get? = Function.update corpus.get? id none := by
  funext other
  rw [Function.update_apply]
  exact Dict.get?_erase corpus id other

theorem perform_remove_absent (h : index.Image corpus.get?) {id : String}
    (hid : corpus.get? id = none) : perform index (.remove id) = (index, some (.keyError id)) := by
  have habsent : index.documentLengths.contains id = false := by
    rw [Dict.contains, h.lengths, hid]
    rfl
  have hraised : requireIndexed id index = .error (.keyError id) := by
    rw [requireIndexed, habsent]
    rfl
  simp only [perform, Call.script, removeDocumentScript, List.cons_append, Script.run, hraised]

-- A call keeps the index an image of what is left, and only the removal of an absent
-- document raises.
theorem perform_image (h : index.Image corpus.get?) (call : Call) :
    (perform index call).1.Image (call.apply corpus).get? ∧
      ((perform index call).2 = none ∨
        ∃ id, call = .remove id ∧ corpus.get? id = none) := by
  cases call with
  | add id tokens =>
      obtain ⟨after, hadded, himage⟩ := image_addDocument id tokens h
      have hrun : perform index (.add id tokens) = (after, none) := Script.run_of_exec hadded
      rw [hrun, get?_apply_add]
      exact ⟨himage, .inl rfl⟩
  | remove id =>
      cases hid : corpus.get? id with
      | none =>
          have hraised := perform_remove_absent h hid
          have hsame : ((Call.remove id).apply corpus).get? = corpus.get? := by
            funext other
            exact Dict.get?_erase_of_none hid other
          rw [hraised, hsame]
          exact ⟨h, .inr ⟨id, rfl, hid⟩⟩
      | some tokens =>
          obtain ⟨after, hremoved, himage⟩ := image_removeDocument h hid
          have hrun : perform index (.remove id) = (after, none) := Script.run_of_exec hremoved
          rw [hrun, get?_apply_remove]
          exact ⟨himage, .inl rfl⟩

theorem performAll_image (calls : List Call) :
    (performAll calls).Image (remaining calls).get? := by
  have hrun : ∀ (calls : List Call) (index : InvertedIndex) (corpus : Dict String (List String)),
      index.Image corpus.get? →
      (calls.foldl (fun index call => (perform index call).1) index).Image
        (calls.foldl Call.apply corpus).get? := by
    intro calls
    induction calls with
    | nil => exact fun _ _ h => h
    | cons call rest ih => exact fun index corpus h => ih _ _ (perform_image h call).1
  exact hrun calls empty .empty image_empty

theorem fill_image {order : List (String × List String)} (hperm : order.Perm corpus.entries) :
    ∃ index, fill order = .ok index ∧ index.Image corpus.get? := by
  have hrun : ∀ (order : List (String × List String)) (index : InvertedIndex)
      (start : Dict String (List String)), index.Image start.get? →
      ∃ after, order.foldlM (fun index entry => index.addDocument entry.1 entry.2) index =
        .ok after ∧ after.Image (order.foldl (fun d entry => d.set entry.1 entry.2) start).get? := by
    intro order
    induction order with
    | nil => exact fun index start h => ⟨index, rfl, h⟩
    | cons entry rest ih =>
        intro index start h
        obtain ⟨next, hadded, himage⟩ := image_addDocument entry.1 entry.2 h
        rw [← get?_apply_add] at himage
        obtain ⟨after, hrest, hafter⟩ := ih next _ himage
        refine ⟨after, ?_, hafter⟩
        rw [List.foldlM_cons, hadded]
        exact hrest
  obtain ⟨index, hfill, himage⟩ := hrun order empty .empty image_empty
  rw [funext (Dict.get?_foldl_entries hperm)] at himage
  exact ⟨index, hfill, himage⟩

-- Whatever calls were made, the index mirrors the documents that are left. Only the removal
-- of an absent document raises, and it changes nothing. A fresh index that is given the same
-- documents in any order is the same index.
theorem index_mirrors_corpus (calls : List Call) :
    Mirrors (performAll calls) (remaining calls) ∧
    (∀ id, (remaining calls).get? id = none →
      perform (performAll calls) (.remove id) = (performAll calls, some (.keyError id))) ∧
    (∀ call, (∀ id, call = .remove id → (remaining calls).get? id ≠ none) →
      (perform (performAll calls) call).2 = none) ∧
    ∀ order, order.Perm (remaining calls).entries →
      ∃ fresh, fill order = .ok fresh ∧ Same (performAll calls) fresh := by
  have himage := performAll_image calls
  refine ⟨himage.mirrors, fun id hid => perform_remove_absent himage hid, ?_, ?_⟩
  · intro call hpresent
    rcases (perform_image himage call).2 with hnone | ⟨id, rfl, habsent⟩
    · exact hnone
    · exact absurd habsent (hpresent id rfl)
  · intro order hperm
    obtain ⟨fresh, hfill, hfresh⟩ := fill_image hperm
    exact ⟨fresh, hfill, himage.same hfresh⟩

end Runs

end PySearch.InvertedIndex
