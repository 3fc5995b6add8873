import Mathlib.Data.List.Basic

namespace MaximalRuns

variable {ι : Type*} (p : ι → Bool)

-- No item meets the predicate.
def Free (items : List ι) : Prop := ∀ item ∈ items, p item = false

-- Every item meets it, and there is at least one.
def Solid (items : List ι) : Prop := items ≠ [] ∧ ∀ item ∈ items, p item = true

-- A gap, then runs that are each followed by a gap.
def weave (first : List ι) (pieces : List (List ι × List ι)) : List ι :=
  first ++ pieces.flatMap fun piece => piece.1 ++ piece.2

-- The runs of a sequence together with what lies between them. Only the first and the last
-- gap may be empty, so no run can be continued.
structure Separated (first : List ι) (pieces : List (List ι × List ι)) : Prop where
  first : Free p first
  runs : ∀ piece ∈ pieces, Solid p piece.1
  gaps : ∀ piece ∈ pieces, Free p piece.2
  inner : ∀ piece ∈ pieces.dropLast, piece.2 ≠ []

variable {p} {first gap run : List ι} {pieces : List (List ι × List ι)} {item : ι}

theorem free_nil : Free p ([] : List ι) := fun _ h => nomatch h

theorem Free.cons (hitem : p item = false) (h : Free p gap) : Free p (item :: gap) := by
  intro other hm
  rcases List.mem_cons.mp hm with rfl | hrest
  · exact hitem
  · exact h other hrest

theorem solid_singleton (hitem : p item = true) : Solid p [item] := by
  refine ⟨by simp, fun other hm => ?_⟩
  rw [List.mem_singleton.mp hm]
  exact hitem

theorem Solid.cons (hitem : p item = true) (h : Solid p run) : Solid p (item :: run) := by
  refine ⟨by simp, fun other hm => ?_⟩
  rcases List.mem_cons.mp hm with rfl | hrest
  · exact hitem
  · exact h.2 other hrest

theorem separated_nil (hfirst : Free p first) : Separated p first [] :=
  ⟨hfirst, by simp, by simp, by simp⟩

-- One more run in front. A gap before other runs is not empty.
theorem Separated.cons (hfirst : Free p first) (hrun : Solid p run) (h : Separated p gap pieces)
    (hgap : pieces ≠ [] → gap ≠ []) : Separated p first ((run, gap) :: pieces) where
  first := hfirst
  runs piece hm := by
    rcases List.mem_cons.mp hm with rfl | hrest
    · exact hrun
    · exact h.runs piece hrest
  gaps piece hm := by
    rcases List.mem_cons.mp hm with rfl | hrest
    · exact h.first
    · exact h.gaps piece hrest
  inner piece hm := by
    by_cases hpieces : pieces = []
    · simp [hpieces] at hm
    · rw [List.dropLast_cons_of_ne_nil hpieces] at hm
      rcases List.mem_cons.mp hm with rfl | hrest
      · exact hgap hpieces
      · exact h.inner piece hrest

theorem Separated.tail (h : Separated p first ((run, gap) :: pieces)) :
    Separated p gap pieces ∧ (pieces ≠ [] → gap ≠ []) := by
  refine ⟨⟨h.gaps (run, gap) (.head _), fun piece hm => h.runs piece (.tail _ hm),
    fun piece hm => h.gaps piece (.tail _ hm), fun piece hm => ?_⟩, fun hpieces => ?_⟩
  · have hpieces : pieces ≠ [] := by
      rintro rfl
      simp at hm
    apply h.inner piece
    rw [List.dropLast_cons_of_ne_nil hpieces]
    exact .tail _ hm
  · apply h.inner (run, gap)
    rw [List.dropLast_cons_of_ne_nil hpieces]
    exact .head _

-- Every sequence is woven from runs and gaps.
theorem exists_separated (p : ι → Bool) (items : List ι) :
    ∃ first pieces, Separated p first pieces ∧ weave first pieces = items := by
  induction items with
  | nil => exact ⟨[], [], separated_nil free_nil, rfl⟩
  | cons item rest ih =>
      obtain ⟨first, pieces, hrest, hweave⟩ := ih
      by_cases hitem : p item = true
      · by_cases hnew : pieces ≠ [] → first ≠ []
        · exact ⟨[], (([item], first) :: pieces), .cons free_nil (solid_singleton hitem) hrest hnew,
            congrArg (item :: ·) hweave⟩
        · -- The item belongs to the run that starts right behind it.
          obtain ⟨hpieces, hfirst⟩ : pieces ≠ [] ∧ first = [] := by simpa using hnew
          obtain ⟨⟨run, gap⟩, more, rfl⟩ := List.exists_cons_of_ne_nil hpieces
          have hrun := (hrest.runs (run, gap) (.head _)).cons hitem
          obtain ⟨htail, hgap⟩ := hrest.tail
          refine ⟨[], (item :: run, gap) :: more, .cons free_nil hrun htail hgap, ?_⟩
          rw [← hweave, hfirst]
          rfl
      · have hfree := hrest.first.cons (Bool.not_eq_true _ ▸ hitem)
        exact ⟨item :: first, pieces, ⟨hfree, hrest.runs, hrest.gaps, hrest.inner⟩,
          congrArg (item :: ·) hweave⟩

end MaximalRuns
