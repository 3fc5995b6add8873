import PySearch.Search.Arith.Real
import PySearch.Search.Engine.Theorems
import PySearch.Semantic.VectorIndex.History

namespace PySearch

open ExactVectorIndex

variable {α : Type} [Arith α]

namespace ExactVectorIndex

-- No call of the sequence raises.
def AllReturn (dimension : Nat) (calls : List (VectorCall α)) : Prop :=
  ∀ before call behind, calls = before ++ call :: behind →
    (perform (performAll dimension before) call).2 = none

-- Calls whose vectors all have the right shape return, whatever is stored when they are made.
theorem allReturn_of_admissible {dimension : Nat} {calls : List (VectorCall α)}
    (h : ∀ id vector, .add id vector ∈ calls → Admissible dimension vector) :
    AllReturn dimension calls := by
  rintro before call behind rfl
  have himage := performAll_image dimension before
  cases call with
  | add id vector =>
      have hadmissible := h id vector (List.mem_append_right _ List.mem_cons_self)
      obtain ⟨after, hperform, -⟩ :=
        @perform_added _ _ _ _ _ id _ _ himage (check_of_admissible hadmissible)
      rw [hperform]
  | remove id =>
      obtain ⟨after, -, hperform, -⟩ := perform_removed himage id
      rw [hperform]
  | clear => rfl

-- Nothing but vectors of the right shape is stored.
theorem remaining_admissible (dimension : Nat) (calls : List (VectorCall α)) {id : String}
    {vector : List α} (h : (remaining dimension calls).get? id = some vector) :
    Admissible dimension vector := by
  have hrun : ∀ (calls : List (VectorCall α)) (stored : Dict String (List α)),
      (∀ id vector, stored.get? id = some vector → Admissible dimension vector) →
      ∀ id vector, (calls.foldl (VectorCall.apply dimension) stored).get? id = some vector →
        Admissible dimension vector := by
    intro calls
    induction calls with
    | nil => exact fun _ hstored => hstored
    | cons call rest ih =>
        intro stored hstored
        apply ih
        intro id vector hv
        cases call with
        | add added given =>
            cases hcheck : check dimension given with
            | error error =>
                simp only [VectorCall.apply, hcheck] at hv
                exact hstored id vector hv
            | ok checked =>
                obtain ⟨hadmissible, rfl⟩ := admissible_of_check hcheck
                simp only [VectorCall.apply, hcheck, Dict.get?_set] at hv
                split at hv
                · cases hv
                  exact hadmissible
                · exact hstored id vector hv
        | remove removed =>
            simp only [VectorCall.apply, Dict.get?_erase] at hv
            split at hv
            · cases hv
            · exact hstored id vector hv
        | clear => simp [VectorCall.apply] at hv
  exact hrun calls .empty (by simp) id vector h

theorem validate_performAll_iff [LinearOrder α] (dimension : Nat) (calls : List (VectorCall α)) :
    (performAll dimension calls).validate = .ok () ↔
      ∀ id vector, (remaining dimension calls).get? id = some vector → unit vector :=
  (performAll_image dimension calls).validate_iff fun _ _ h => remaining_admissible dimension calls h

end ExactVectorIndex

namespace SearchEngine

-- The write path accepted the vectors of these documents: each of them was added to an
-- index of the embedder's dimension.
def WritesAccepted (embedder : Embedder α) (documents : Dict String Document) : Prop :=
  ∀ id document, documents.get? id = some document →
    ∃ before after : ExactVectorIndex α, before.dimension = embedder.identity.dimension ∧
      before.add id (embedder.embed document.text) = .ok after

variable [LinearOrder α]

theorem rebuildVectors_ok_iff {ctx : EngineContext α} {embedder : Embedder α}
    (he : ctx.embedder = some embedder) {documents : Dict String Document}
    (haccepted : WritesAccepted embedder documents) :
    (∃ vectors, rebuildVectors ctx documents none = .ok vectors) ↔
      ∀ id document, documents.get? id = some document → unit (embedder.embed document.text) := by
  have hadmissible : ∀ id document, documents.get? id = some document →
      Admissible embedder.identity.dimension (embedder.embed document.text) := by
    intro id document hdocument
    obtain ⟨before, after, hdimension, hadd⟩ := haccepted id document hdocument
    rw [← hdimension]
    exact admissible_of_add hadd
  obtain ⟨built, himage, hrebuild⟩ := rebuildVectors_built he hadmissible
  have hvalidate : built.validate = .ok () ↔
      ∀ id document, documents.get? id = some document → unit (embedder.embed document.text) := by
    rw [himage.validate_iff]
    · constructor
      · intro hunit id document hdocument
        exact hunit id _ (by simp [Embedder.stored, hdocument])
      · intro hunit id vector hvector
        obtain ⟨document, hdocument, rfl⟩ := Option.map_eq_some_iff.mp hvector
        exact hunit id document hdocument
    · intro id vector hvector
      obtain ⟨document, hdocument, rfl⟩ := Option.map_eq_some_iff.mp hvector
      exact hadmissible id document hdocument
  rw [← hvalidate, hrebuild]
  cases built.validate with
  | error error => simp [Except.map]
  | ok checked => simp [Except.map]

-- The validation accepts what was added exactly when every vector that is left is zero or
-- of length one, and so does the rebuild of what the write path accepted.
theorem accepted_vectors_valid_iff :
    (∀ (dimension : Nat) (calls : List (VectorCall α)), 1 ≤ dimension → AllReturn dimension calls →
      ((performAll dimension calls).validate = .ok () ↔
        ∀ id vector, (remaining dimension calls).get? id = some vector → unit vector)) ∧
    ∀ (ctx : EngineContext α) (embedder : Embedder α) (documents : Dict String Document),
      ctx.embedder = some embedder → WritesAccepted embedder documents →
      ((∃ vectors, rebuildVectors ctx documents none = .ok vectors) ↔
        ∀ id document, documents.get? id = some document →
          unit (embedder.embed document.text)) :=
  ⟨fun dimension calls _ _ => validate_performAll_iff dimension calls,
    fun _ _ _ he haccepted => rebuildVectors_ok_iff he haccepted⟩

section Example

attribute [local instance] realArith

-- A vector of length three is accepted, and the validation refuses what holds it.
theorem unnormalized_accepted :
    AllReturn 1 [(.add "a" [3] : VectorCall ℝ)] ∧
    (performAll 1 [(.add "a" [3] : VectorCall ℝ)]).validate ≠ .ok () := by
  have hnorm : (Arith.norm [3] : ℝ) = 3 := by
    show √((3 : ℝ) * 3 + 0) = 3
    rw [add_zero, Real.sqrt_mul_self (by norm_num)]
  refine ⟨allReturn_of_admissible ?_, fun hvalid => ?_⟩
  · intro id vector hadd
    rw [List.mem_singleton] at hadd
    cases hadd
    exact ⟨rfl, rfl⟩
  have hunit := (validate_performAll_iff 1 _).mp hvalid "a" [3] rfl
  rw [unit, hnorm] at hunit
  norm_num [normTolerance, Arith.abs] at hunit

def storedRedFox : Dict String Document := Dict.empty.set "a" redFox

noncomputable def lexicalAndConstant : EngineContext ℝ := ⟨.ascii, ⟨1.2, 0.75⟩, some .constant⟩

theorem storedRedFox_accepted :
    WritesAccepted (Embedder.constant : Embedder ℝ) storedRedFox := by
  intro id document h
  rw [storedRedFox, Dict.get?_set] at h
  split at h
  · cases h
    obtain ⟨after, hadd, -⟩ := @image_add _ _ _ 1 _ [(1.0 : ℝ)] (image_new 1) id ⟨rfl, rfl⟩
    exact ⟨.new 1, after, rfl, hadd⟩
  · cases h

-- A vector of length three is replaced, and one of length two is removed again.
noncomputable def replacedVectors : List (VectorCall ℝ) :=
  [.add "a" [3.0], .add "b" [2.0], .add "c" [1.0], .add "a" [1.0], .remove "b"]

-- What is left has length one, before and after a rebuild.
theorem replacedVectors_valid :
    ((performAll 1 replacedVectors).validate = .ok () ↔
      ∀ id vector, (remaining 1 replacedVectors).get? id = some vector → unit vector) ∧
    (∀ id vector, (remaining 1 replacedVectors).get? id = some vector → unit vector) ∧
    ∃ vectors, rebuildVectors lexicalAndConstant storedRedFox none = .ok vectors := by
  have hreturn : AllReturn 1 replacedVectors := by
    apply allReturn_of_admissible
    intro id vector hadd
    simp only [replacedVectors, List.mem_cons, VectorCall.add.injEq, List.not_mem_nil,
      reduceCtorEq, or_false] at hadd
    rcases hadd with ⟨-, rfl⟩ | ⟨-, rfl⟩ | ⟨-, rfl⟩ | ⟨-, rfl⟩ <;> exact ⟨rfl, rfl⟩
  have hnorm : (Arith.norm [(1.0 : ℝ)] : ℝ) = 1 := by
    show √(((1.0 : ℝ) * 1.0) + 0) = 1
    norm_num
  have hunit : unit [(1.0 : ℝ)] = true := by
    rw [unit, hnorm]
    norm_num [normTolerance, Arith.abs]
  refine ⟨accepted_vectors_valid_iff.1 1 replacedVectors (by decide) hreturn, ?_,
    (accepted_vectors_valid_iff.2 lexicalAndConstant .constant storedRedFox rfl
      storedRedFox_accepted).mpr fun id document _ => hunit⟩
  intro id vector hleft
  have hchecked : ∀ x : ℝ, check 1 [x] = .ok [x] := fun x => check_of_admissible ⟨rfl, rfl⟩
  simp only [remaining, replacedVectors, List.foldl_cons, List.foldl_nil, VectorCall.apply,
    hchecked, Dict.get?_set, Dict.get?_erase, Dict.get?_empty] at hleft
  have hone : vector = [1.0] := by
    split_ifs at hleft <;> simp_all
  rw [hone]
  exact hunit

end Example

end SearchEngine

end PySearch
