import Mathlib.Algebra.Ring.Nat
import Mathlib.Data.Finset.Card

namespace Distinct

variable {ι : Type*} [DecidableEq ι]

-- Everything that one of the sets holds.
def union (parts : List (Finset ι)) : Finset ι := parts.foldr (· ∪ ·) ∅

@[simp] theorem union_nil : union ([] : List (Finset ι)) = ∅ := rfl

@[simp] theorem union_cons (part : Finset ι) (rest : List (Finset ι)) :
    union (part :: rest) = part ∪ union rest := rfl

@[simp] theorem mem_union {parts : List (Finset ι)} {item : ι} :
    item ∈ union parts ↔ ∃ part ∈ parts, item ∈ part := by
  induction parts with
  | nil => simp
  | cons part rest ih => simp [ih]

theorem disjoint_union_iff {part : Finset ι} {rest : List (Finset ι)} :
    Disjoint part (union rest) ↔ ∀ other ∈ rest, Disjoint part other := by
  simp only [Finset.disjoint_left, mem_union, not_exists, not_and]
  constructor
  · exact fun h other ho item hitem => h hitem other ho
  · exact fun h item hitem other ho => h other ho hitem

theorem card_union_le (parts : List (Finset ι)) :
    (union parts).card ≤ (parts.map Finset.card).sum := by
  induction parts with
  | nil => exact le_refl 0
  | cons part rest ih =>
      have hunion := Finset.card_union_le part (union rest)
      simp only [union_cons, List.map_cons, List.sum_cons]
      omega

-- Adding up the sizes counts nothing twice exactly when no two of the sets meet.
theorem card_union_eq_iff (parts : List (Finset ι)) :
    (union parts).card = (parts.map Finset.card).sum ↔ parts.Pairwise Disjoint := by
  induction parts with
  | nil => exact iff_of_true rfl .nil
  | cons part rest ih =>
      have hrest := card_union_le rest
      have hcount := Finset.card_union_add_card_inter part (union rest)
      rw [List.pairwise_cons, ← ih, ← disjoint_union_iff, Finset.disjoint_iff_inter_eq_empty,
        ← Finset.card_eq_zero]
      simp only [union_cons, List.map_cons, List.sum_cons]
      omega

end Distinct
