import PySearch.Semantic.VectorIndex.Theorems

namespace PySearch.ExactVectorIndex

open KeySort (sortedBy)

-- One call that changes a vector index.
inductive VectorCall (α : Type)
  | add (documentId : String) (vector : List α)
  | remove (documentId : String)
  | clear

variable {α : Type} [Arith α]

-- The index that a call leaves behind, and what it raised.
def perform (vectors : ExactVectorIndex α) : VectorCall α → ExactVectorIndex α × Option PyError
  | .add documentId vector => Script.run (vectors.addScript documentId vector) none vectors
  | .remove documentId => Script.run (vectors.removeScript documentId) none vectors
  | .clear => (vectors.clear, none)

def performAll (dimension : Nat) (calls : List (VectorCall α)) : ExactVectorIndex α :=
  calls.foldl (fun vectors call => (perform vectors call).1) (new dimension)

-- The map that a call leaves behind. A vector that is refused is not stored.
def VectorCall.apply (dimension : Nat) (stored : Dict String (List α)) :
    VectorCall α → Dict String (List α)
  | add documentId vector =>
      match check dimension vector with
      | .ok checked => stored.set documentId checked
      | .error _ => stored
  | remove documentId => stored.erase documentId
  | clear => .empty

def remaining (dimension : Nat) (calls : List (VectorCall α)) : Dict String (List α) :=
  calls.foldl (VectorCall.apply dimension) .empty

-- Rows and identifiers correspond one to one, and the row of a document is its vector.
structure Holds (vectors : ExactVectorIndex α) (stored : Dict String (List α)) : Prop where
  nodup : vectors.ids.Nodup
  inverse : ∀ id position,
    vectors.positions.get? id = some position ↔ vectors.ids[position]? = some id
  rows : ∀ id position, vectors.positions.get? id = some position →
    vectors.matrix[position]? = stored.get? id
  present : ∀ id, id ∈ vectors.ids ↔ (stored.get? id).isSome

-- The documents of a map with the highest similarity to the query.
def bestMatches [LinearOrder α] (stored : Dict String (List α)) (query : List α) (limit : Int) :
    List (ScoredDocument α) :=
  let similar := stored.entries.map fun entry => (entry.1, Arith.dot entry.2 query)
  let ranked := sortedBy (fun hit : String × α => rankKey hit.2 hit.1) similar
  (ranked.take limit.toNat).map fun hit => ⟨hit.1, hit.2⟩

section Calls

variable {vectors : ExactVectorIndex α} {dimension : Nat} {stored : Dict String (List α)}

-- A vector of the wrong shape is refused before anything is changed.
theorem perform_refused {id : String} {vector : List α} {error : PyError}
    (h : check vectors.dimension vector = .error error) :
    perform vectors (.add id vector) = (vectors, some error) := by
  have hraised : checkVector vector vectors = .error error := by
    rw [checkVector, h]
    rfl
  simp only [perform, addScript, Script.run, hraised]

theorem perform_added {id : String} {vector checked : List α}
    (h : vectors.Image dimension stored.get?) (hcheck : check dimension vector = .ok checked) :
    ∃ after, perform vectors (.add id vector) = (after, none) ∧
      after.Image dimension (stored.set id checked).get? := by
  obtain ⟨hadmissible, rfl⟩ := admissible_of_check hcheck
  obtain ⟨after, hadd, himage⟩ := image_add h id hadmissible
  refine ⟨after, Script.run_of_exec hadd, ?_⟩
  have hset : (stored.set id checked).get? = Function.update stored.get? id (some checked) := by
    funext other
    rw [Function.update_apply]
    exact Dict.get?_set stored id other checked
  rwa [hset]

theorem perform_removed (h : vectors.Image dimension stored.get?) (id : String) :
    ∃ after, remove vectors id = .ok (after, stored.contains id) ∧
      perform vectors (.remove id) = (after, none) ∧
      after.Image dimension (stored.erase id).get? := by
  obtain ⟨after, hremove, himage⟩ := image_remove h id
  have hcontains : vectors.positions.contains id = stored.contains id := by
    have hstored := h.vectorOf_eq id
    rw [Dict.contains, Dict.contains, ← hstored, vectorOf]
    cases hp : vectors.positions.get? id with
    | none => rfl
    | some position =>
        have hid := (h.positions id position).mp hp
        have hlt := h.lt_matrix_length (List.getElem?_eq_some_iff.mp hid).1
        simp [hlt]
  refine ⟨after, ?_, Script.run_of_exec hremove, ?_⟩
  · rw [remove, hremove, hcontains]
    rfl
  · have herase : (stored.erase id).get? = Function.update stored.get? id none := by
      funext other
      rw [Function.update_apply]
      exact Dict.get?_erase stored id other
    rwa [herase]

-- Every call keeps the index an image of the map.
theorem perform_image (h : vectors.Image dimension stored.get?) (call : VectorCall α) :
    (perform vectors call).1.Image dimension (call.apply dimension stored).get? := by
  cases call with
  | add id vector =>
      cases hcheck : check dimension vector with
      | error error =>
          have hkept : (VectorCall.add id vector).apply dimension stored = stored := by
            simp only [VectorCall.apply, hcheck]
          rw [← h.dimension] at hcheck
          rwa [perform_refused hcheck, hkept]
      | ok checked =>
          obtain ⟨after, hperform, himage⟩ := @perform_added _ _ _ _ _ id _ _ h hcheck
          have hset : (VectorCall.add id vector).apply dimension stored =
              stored.set id checked := by simp only [VectorCall.apply, hcheck]
          rwa [hperform, hset]
  | remove id =>
      obtain ⟨after, -, hperform, himage⟩ := perform_removed h id
      rwa [hperform]
  | clear =>
      have hnew : (perform vectors .clear).1 = new dimension := by rw [← h.dimension]; rfl
      rw [hnew]
      exact image_new dimension

theorem performAll_image (dimension : Nat) (calls : List (VectorCall α)) :
    (performAll dimension calls).Image dimension (remaining dimension calls).get? := by
  have hrun : ∀ (calls : List (VectorCall α)) (vectors : ExactVectorIndex α)
      (stored : Dict String (List α)), vectors.Image dimension stored.get? →
      (calls.foldl (fun vectors call => (perform vectors call).1) vectors).Image dimension
        (calls.foldl (VectorCall.apply dimension) stored).get? := by
    intro calls
    induction calls with
    | nil => exact fun _ _ h => h
    | cons call rest ih => exact fun vectors stored h => ih _ _ (perform_image h call)
  exact hrun calls (new dimension) .empty (image_new dimension)

omit [Arith α] in
theorem Image.holds (h : vectors.Image dimension stored.get?) : Holds vectors stored where
  nodup := h.nodup
  inverse := h.positions
  rows id position hp := h.rows id position ((h.positions id position).mp hp)
  present id := (h.stored id).symm

variable [LinearOrder α]

theorem Image.search_bestMatches (h : vectors.Image dimension stored.get?) {query : List α}
    (hq : Admissible dimension query) {limit : Int} (hlimit : 1 ≤ limit) :
    search vectors query limit = .ok (bestMatches stored query limit) := by
  have hids : vectors.ids.Perm stored.keys := by
    apply (List.perm_ext_iff_of_nodup h.nodup stored.keys_nodup).mpr
    intro id
    rw [← h.stored, Dict.mem_keys]
  have hsimilar : (similarities vectors.ids stored.get? query).Perm
      (stored.entries.map fun entry => (entry.1, Arith.dot entry.2 query)) := by
    refine (hids.map _).trans (List.Perm.of_eq ?_)
    rw [Dict.keys, List.map_map]
    apply List.map_congr_left
    rintro ⟨id, vector⟩ hm
    simp [Dict.mem_entries.mp hm]
  by_cases hempty : vectors.ids = []
  · have hentries : stored.entries = [] := by
      have hkeys := hids.length_eq
      simpa [hempty, Dict.keys] using hkeys.symm
    rw [search, if_neg (by omega), if_pos hempty, bestMatches, hentries]
    simp [sortedBy]
  · rw [h.search_eq query hlimit hempty hq, bestMatches,
      KeySort.sortedBy_eq_of_perm (similarities_keys _ h.nodup stored.get? query) hsimilar,
      KeySort.sliceTo_of_nonneg _ (by omega)]

end Calls

variable [LinearOrder α]

-- Whatever calls were made, the index is the finite map of the vectors that are left: its
-- rows and identifiers correspond, only a refused vector raises and then nothing changes, a
-- removal tells whether there was a vector, and a search ranks the map.
theorem vector_index_refines_map (dimension : Nat) (calls : List (VectorCall α)) :
    let vectors := performAll dimension calls
    let stored := remaining dimension calls
    Holds vectors stored ∧
    (∀ call error, (perform vectors call).2 = some error → (perform vectors call).1 = vectors ∧
      ∃ id vector, call = .add id vector ∧ check dimension vector = .error error) ∧
    (∀ id, remove vectors id = .ok ((perform vectors (.remove id)).1, stored.contains id)) ∧
    (∀ query limit, Admissible dimension query → 1 ≤ limit →
      vectors.search query limit = .ok (bestMatches stored query limit)) ∧
    ∀ others : List (VectorCall α),
      (∀ id, (remaining dimension others).get? id = stored.get? id) →
      ∀ query limit, (performAll dimension others).search query limit =
        vectors.search query limit := by
  intro vectors stored
  have himage : vectors.Image dimension stored.get? := performAll_image dimension calls
  refine ⟨himage.holds, ?_, ?_, fun query limit hq hlimit => himage.search_bestMatches hq hlimit, ?_⟩
  · intro call error herror
    cases call with
    | add id vector =>
        cases hcheck : check dimension vector with
        | error refused =>
            rw [← himage.dimension] at hcheck
            rw [perform_refused hcheck] at herror ⊢
            cases herror
            exact ⟨rfl, id, vector, rfl, himage.dimension ▸ hcheck⟩
        | ok checked =>
            obtain ⟨after, hperform, -⟩ := @perform_added _ _ _ _ _ id _ _ himage hcheck
            rw [hperform] at herror
            cases herror
    | remove id =>
        obtain ⟨after, -, hperform, -⟩ := perform_removed himage id
        rw [hperform] at herror
        cases herror
    | clear => cases herror
  · intro id
    obtain ⟨after, hremove, hperform, -⟩ := perform_removed himage id
    rw [hremove, hperform]
  · intro others hsame query limit
    have hother := performAll_image dimension others
    rw [funext hsame] at hother
    exact hother.search_congr himage query limit

section Example

attribute [local instance] rationalArith

-- A removed row is filled by the last one, and its document comes back.
def churn : List (VectorCall ℚ) :=
  [.add "a" [1, 0], .add "b" [0, 1], .add "c" [3/5, 4/5], .remove "a", .add "d" [1], .add "a" [0, 1]]

theorem churn_ranked :
    (performAll 2 churn).search [0, 1] 2 = .ok (bestMatches (remaining 2 churn) [0, 1] 2) ∧
    (performAll 2 churn).ids = ["c", "b", "a"] ∧
    ((bestMatches (remaining 2 churn) [0, 1] 2).map ScoredDocument.documentId) = ["a", "b"] :=
  ⟨(vector_index_refines_map 2 churn).2.2.2.1 [0, 1] 2 ⟨rfl, rfl⟩ (by decide),
    by decide +kernel, by decide +kernel⟩

end Example

end PySearch.ExactVectorIndex
