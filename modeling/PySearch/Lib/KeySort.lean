import Mathlib.Data.List.Sort
import Mathlib.Order.Lex
import Mathlib.Data.Prod.Lex

namespace KeySort

variable {ι ι' κ : Type*} [LinearOrder κ]

-- A stable sort by a key.
def sortedBy (key : ι → κ) (items : List ι) : List ι :=
  items.insertionSort fun a b => key a ≤ key b

-- `items[:limit]`: a negative limit drops entries from the end.
def sliceTo (items : List ι) (limit : Int) : List ι :=
  if 0 ≤ limit then items.take limit.toNat else items.take (items.length - (-limit).toNat)

theorem sliceTo_of_nonneg (items : List ι) {limit : Int} (h : 0 ≤ limit) :
    sliceTo items limit = items.take limit.toNat := if_pos h

theorem sliceTo_map (f : ι → ι') (items : List ι) (limit : Int) :
    sliceTo (items.map f) limit = (sliceTo items limit).map f := by
  simp only [sliceTo, List.length_map]
  split <;> rw [List.map_take]

theorem mem_of_mem_sliceTo {items : List ι} {limit : Int} {item : ι}
    (h : item ∈ sliceTo items limit) : item ∈ items := by
  unfold sliceTo at h
  split at h <;> exact List.mem_of_mem_take h

theorem sortedBy_perm (key : ι → κ) (items : List ι) : (sortedBy key items).Perm items :=
  List.perm_insertionSort _ items

@[simp] theorem mem_sortedBy {key : ι → κ} {items : List ι} {item : ι} :
    item ∈ sortedBy key items ↔ item ∈ items := (sortedBy_perm key items).mem_iff

@[simp] theorem length_sortedBy (key : ι → κ) (items : List ι) :
    (sortedBy key items).length = items.length := (sortedBy_perm key items).length_eq

theorem sortedBy_pairwise (key : ι → κ) (items : List ι) :
    (sortedBy key items).Pairwise fun a b => key a ≤ key b :=
  have : Std.Total fun a b : ι => key a ≤ key b := ⟨fun a b => le_total (key a) (key b)⟩
  have : IsTrans ι fun a b => key a ≤ key b := ⟨fun _ _ _ => le_trans⟩
  List.pairwise_insertionSort _ items

theorem head_sortedBy_le {key : ι → κ} {items rest : List ι} {first item : ι}
    (h : sortedBy key items = first :: rest) (hitem : item ∈ items) : key first ≤ key item := by
  have hsorted := sortedBy_pairwise key items
  rw [h, List.pairwise_cons] at hsorted
  have hmem : item ∈ first :: rest := by rw [← h]; exact mem_sortedBy.mpr hitem
  rcases List.mem_cons.mp hmem with rfl | hrest
  · exact le_refl _
  · exact hsorted.1 item hrest

-- An item is among the first ones, or there are as many of these as were asked for and none of
-- them has a larger key.
theorem mem_take_sortedBy_or (key : ι → κ) {items : List ι} {item : ι} (count : Nat)
    (h : item ∈ items) :
    item ∈ (sortedBy key items).take count ∨
      ((sortedBy key items).take count).length = count ∧
        ∀ other ∈ (sortedBy key items).take count, key other ≤ key item := by
  have hsplit := List.take_append_drop count (sortedBy key items)
  have hitem : item ∈ sortedBy key items := mem_sortedBy.mpr h
  rw [← hsplit, List.mem_append] at hitem
  rcases hitem with hfirst | hrest
  · exact .inl hfirst
  · have hpairs := sortedBy_pairwise key items
    rw [← hsplit, List.pairwise_append] at hpairs
    refine .inr ⟨?_, fun other hother => hpairs.2.2 other hother item hrest⟩
    have hlength := List.length_pos_of_mem hrest
    rw [List.length_drop] at hlength
    rw [List.length_take]
    omega

theorem sortedBy_of_pairwise (key : ι → κ) {items : List ι}
    (h : items.Pairwise fun a b => key a ≤ key b) : sortedBy key items = items :=
  h.insertionSort_eq

-- When no two items share a key, the sorted list depends on the items alone.
theorem sortedBy_eq_of_perm {key : ι → κ} {items others : List ι}
    (hkeys : (items.map key).Nodup) (hperm : items.Perm others) :
    sortedBy key items = sortedBy key others := by
  apply List.Perm.eq_of_pairwise ?_ (sortedBy_pairwise key items) (sortedBy_pairwise key others)
  · exact (sortedBy_perm key items).trans (hperm.trans (sortedBy_perm key others).symm)
  · intro a b ha hb hab hba
    exact List.inj_on_of_nodup_map hkeys (mem_sortedBy.mp ha)
      (hperm.mem_iff.mpr (mem_sortedBy.mp hb)) (le_antisymm hab hba)

theorem sortedBy_map (f : ι → ι') (key : ι' → κ) (items : List ι) :
    sortedBy key (items.map f) = (sortedBy (key ∘ f) items).map f :=
  (List.map_insertionSort _ _ f items fun _ _ _ _ => Iff.rfl).symm

-- The first item stands somewhere in front of the second.
def Precedes (items : List ι) (first second : ι) : Prop :=
  ∃ i j : Nat, i < j ∧ items[i]? = some first ∧ items[j]? = some second

-- The items with the smaller keys come first, also in what is left by a cut.
theorem precedes_take_sortedBy {key : ι → κ} {items : List ι} {first second : ι} {count : Nat}
    (hfirst : first ∈ items) (hsecond : second ∈ (sortedBy key items).take count)
    (hkey : key first < key second) : Precedes ((sortedBy key items).take count) first second := by
  obtain ⟨i, hi⟩ := List.mem_iff_getElem?.mp (@mem_sortedBy _ _ _ key items first |>.mpr hfirst)
  obtain ⟨j, hj⟩ := List.mem_iff_getElem?.mp hsecond
  rw [List.getElem?_take] at hj
  split at hj
  · rename_i hcut
    have hij : i < j := by
      by_contra hge
      have hsorted := List.pairwise_iff_getElem.mp (sortedBy_pairwise key items)
      obtain ⟨hilt, higet⟩ := List.getElem?_eq_some_iff.mp hi
      obtain ⟨hjlt, hjget⟩ := List.getElem?_eq_some_iff.mp hj
      by_cases hsame : i = j
      · subst hsame
        rw [← higet, ← hjget] at hkey
        exact lt_irrefl _ hkey
      · have hle := hsorted j i hjlt hilt (by omega)
        rw [higet, hjget] at hle
        exact absurd hkey (not_lt.mpr hle)
    refine ⟨i, j, hij, ?_, ?_⟩
    · rw [List.getElem?_take, if_pos (by omega), hi]
    · rw [List.getElem?_take, if_pos hcut, hj]
  · cases hj

private theorem take_orderedInsert (le : ι → ι → Prop) [DecidableRel le] (count : Nat) (item : ι)
    (items : List ι) :
    (items.orderedInsert le item).take count =
      ((items.take count).orderedInsert le item).take count := by
  induction items generalizing count with
  | nil => simp
  | cons head rest ih =>
      cases count with
      | zero => simp
      | succ count =>
          by_cases h : le item head
          · cases count with
            | zero => simp [h]
            | succ count =>
                simp [h, List.take_take]
          · simpa [h] using ih count

private theorem take_foldr_insert (le : ι → ι → Prop) [DecidableRel le] (count : Nat)
    (items base : List ι) :
    (items.foldr (List.orderedInsert le) base).take count =
      (items.foldr (List.orderedInsert le) (base.take count)).take count := by
  induction items with
  | nil => simp [List.take_take]
  | cons item rest ih =>
      simp only [List.foldr_cons]
      rw [take_orderedInsert, ih, ← take_orderedInsert]

theorem sortedBy_append (key : ι → κ) (items base : List ι) :
    sortedBy key (items ++ base) =
      items.foldr (List.orderedInsert fun a b => key a ≤ key b) (sortedBy key base) := by
  simp only [sortedBy, List.insertionSort, List.foldr_append]

-- Cutting one part down to its own best `count` items keeps the overall best `count`.
theorem take_sortedBy_append (key : ι → κ) (count : Nat) (items base : List ι) :
    (sortedBy key (items ++ (sortedBy key base).take count)).take count =
      (sortedBy key (items ++ base)).take count := by
  have hs : sortedBy key ((sortedBy key base).take count) = (sortedBy key base).take count :=
    sortedBy_of_pairwise key ((sortedBy_pairwise key base).sublist (List.take_sublist _ _))
  rw [sortedBy_append, sortedBy_append, hs, ← take_foldr_insert]

-- The best `count` items of several parts are found among the best `count` of each part.
theorem take_sortedBy_flatten {key : ι → κ} (count : Nat) (parts : List (List ι))
    (hkeys : (parts.flatten.map key).Nodup) :
    (sortedBy key (parts.map fun part => (sortedBy key part).take count).flatten).take count =
      (sortedBy key parts.flatten).take count := by
  induction parts with
  | nil => rfl
  | cons part rest ih =>
      rw [List.flatten_cons] at hkeys ⊢
      have hrest : (rest.flatten.map key).Nodup := by
        rw [List.map_append] at hkeys
        exact hkeys.of_append_right
      let best := (sortedBy key part).take count
      have hbest : ((best ++ rest.flatten).map key).Nodup := by
        have hp := (((sortedBy_perm key part).append_right rest.flatten).map key).nodup_iff
        exact (hp.mpr hkeys).sublist
          (((List.take_sublist _ _).append (List.Sublist.refl _)).map key)
      calc
        _ = (sortedBy key (best ++ (sortedBy key (rest.map fun part =>
              (sortedBy key part).take count).flatten).take count)).take count :=
          (take_sortedBy_append key count best _).symm
        _ = (sortedBy key (best ++ (sortedBy key rest.flatten).take count)).take count := by
          rw [ih hrest]
        _ = (sortedBy key (best ++ rest.flatten)).take count :=
          take_sortedBy_append key count best rest.flatten
        _ = (sortedBy key (rest.flatten ++ best)).take count := by
          rw [sortedBy_eq_of_perm hbest List.perm_append_comm]
        _ = (sortedBy key (rest.flatten ++ part)).take count :=
          take_sortedBy_append key count rest.flatten part
        _ = (sortedBy key (part ++ rest.flatten)).take count := by
          rw [sortedBy_eq_of_perm hkeys List.perm_append_comm]

end KeySort
