import PySearch.Semantic.VectorIndex

namespace PySearch.ExactVectorIndex

open Script (exec)

variable {α : Type} [Arith α]

-- The index holds exactly the given map from documents to vectors: `positions` inverts
-- `ids`, and the row of a document is its vector.
structure Image (vectors : ExactVectorIndex α) (dimension : Nat)
    (stored : String → Option (List α)) : Prop where
  dimension : vectors.dimension = dimension
  positions : ∀ id position,
    vectors.positions.get? id = some position ↔ vectors.ids[position]? = some id
  rows : ∀ (id : String) (position : Nat),
    vectors.ids[position]? = some id → vectors.matrix[position]? = stored id
  stored : ∀ id, (stored id).isSome ↔ id ∈ vectors.ids

variable {vectors other : ExactVectorIndex α} {dimension : Nat} {stored : String → Option (List α)}

omit [Arith α] in
theorem Image.lt_matrix_length (h : Image vectors dimension stored) {position : Nat}
    (hp : position < vectors.ids.length) : position < vectors.matrix.length := by
  have hid : vectors.ids[position]? = some vectors.ids[position] := List.getElem?_eq_getElem hp
  have hs := (h.stored _).mpr (List.getElem_mem hp)
  rw [← h.rows _ position hid] at hs
  simpa using hs

omit [Arith α] in
theorem Image.capacity (h : Image vectors dimension stored) :
    vectors.ids.length ≤ vectors.matrix.length := by
  by_contra hn
  have hlast : vectors.ids.length - 1 < vectors.matrix.length := h.lt_matrix_length (by omega)
  omega

omit [Arith α] in
theorem Image.nodup (h : Image vectors dimension stored) : vectors.ids.Nodup := by
  apply List.nodup_iff_injective_get.mpr
  intro a b hab
  have ha : vectors.ids[a.val]? = some (vectors.ids.get b) := by
    rw [← hab]; exact List.getElem?_eq_getElem a.isLt
  have hb : vectors.ids[b.val]? = some (vectors.ids.get b) := List.getElem?_eq_getElem b.isLt
  have heq := ((h.positions _ _).mpr ha).symm.trans ((h.positions _ _).mpr hb)
  exact Fin.ext (Option.some.inj heq)

theorem image_new (dimension : Nat) :
    Image (new dimension : ExactVectorIndex α) dimension fun _ => none where
  dimension := rfl
  positions _ _ := by simp [new]
  rows _ _ h := by simp [new] at h
  stored _ := by simp [new]

def Admissible (dimension : Nat) (vector : List α) : Prop :=
  vector.length = dimension ∧ vector.all Arith.isFinite = true

theorem check_of_admissible {vector : List α} (h : Admissible dimension vector) :
    check dimension vector = .ok vector := by
  simp only [check, h.1, ne_eq, not_true_eq_false, if_false]
  rw [if_pos h.2]

theorem admissible_of_check {vector checked : List α} (h : check dimension vector = .ok checked) :
    Admissible dimension vector ∧ checked = vector := by
  unfold check at h
  split at h
  · cases h
  · rename_i hl
    split at h
    · rename_i hf
      cases h
      exact ⟨⟨not_not.mp hl, hf⟩, rfl⟩
    · cases h

-- The matrix after growing has room for one more row and keeps the rows it had.
theorem exec_grow (vectors : ExactVectorIndex α) (required : Nat) :
    ∃ matrix, growIfNeeded required vectors = .ok { vectors with matrix := matrix } ∧
      required ≤ matrix.length ∧
      ∀ position, position < vectors.matrix.length → matrix[position]? = vectors.matrix[position]? := by
  simp only [growIfNeeded]
  split
  · exact ⟨vectors.matrix, rfl, by assumption, fun _ _ => rfl⟩
  · refine ⟨_, rfl, ?_, fun position hp => List.getElem?_append_left hp⟩
    simp only [List.length_append, zeros, List.length_replicate]
    omega

omit [Arith α] in
-- A document that gets the first free row, with whatever that row holds.
theorem image_append {id : String} {row : List α} {matrix : List (List α)}
    (h : Image vectors dimension stored) (hid : vectors.positions.get? id = none)
    (hrow : matrix[vectors.ids.length]? = some row)
    (hkeep : ∀ position, position < vectors.matrix.length → position ≠ vectors.ids.length →
      matrix[position]? = vectors.matrix[position]?) :
    Image ⟨vectors.dimension, vectors.ids ++ [id], vectors.positions.set id vectors.ids.length,
      matrix⟩ dimension (Function.update stored id (some row)) := by
  have hnot : ∀ position : Nat, vectors.ids[position]? ≠ some id := by
    intro position hp
    rw [(h.positions id position).mpr hp] at hid
    cases hid
  refine ⟨h.dimension, ?_, ?_, ?_⟩
  · intro found position
    simp only [Dict.get?_set, List.getElem?_append]
    by_cases hf : found = id
    · subst hf
      simp only [if_true, Option.some.injEq]
      split
      · rename_i hlt
        exact ⟨fun he => by omega, fun he => absurd he (hnot position)⟩
      · rename_i hge
        rw [List.getElem?_singleton]
        split <;> simp <;> omega
    · rw [if_neg hf, h.positions]
      split
      · rfl
      · rename_i hge
        rw [List.getElem?_eq_none (by omega), List.getElem?_singleton]
        split <;> simp [Ne.symm hf]
  · intro found position hp
    simp only [List.getElem?_append] at hp
    split at hp
    · rename_i hlt
      have hne : found ≠ id := by rintro rfl; exact hnot position hp
      dsimp only
      rw [hkeep position (h.lt_matrix_length hlt) (by omega), h.rows found position hp,
        Function.update_of_ne hne]
    · rename_i hge
      rw [List.getElem?_singleton] at hp
      split at hp
      · cases hp
        have hpos : vectors.ids.length = position := by omega
        dsimp only
        rw [← hpos, hrow, Function.update_self]
      · cases hp
  · intro found
    by_cases hf : found = id
    · subst hf
      simp
    · simp [hf, h.stored]

theorem image_add_new {id : String} {vector : List α} (h : Image vectors dimension stored)
    (hv : Admissible dimension vector) (hid : vectors.positions.get? id = none) :
    ∃ after, add vectors id vector = .ok after ∧
      Image after dimension (Function.update stored id (some vector)) := by
  obtain ⟨matrix, hgrow, hroom, hkeep⟩ := exec_grow vectors (vectors.ids.length + 1)
  refine ⟨⟨vectors.dimension, vectors.ids ++ [id], vectors.positions.set id vectors.ids.length,
    matrix.set vectors.ids.length vector⟩, ?_, image_append h hid ?_ ?_⟩
  · have hc : checkVector vector vectors = .ok vectors := by
      rw [checkVector, h.dimension, check_of_admissible hv]; rfl
    simp [add, addScript, hid, hc, hgrow, Except.bind, appendId, setPosition, setRow,
      Nat.lt_of_succ_le hroom]
  · rw [List.getElem?_set_self (by omega)]
  · intro position hp hne
    rw [List.getElem?_set_ne (Ne.symm hne), hkeep position hp]

theorem image_add_present {id : String} {vector : List α} {position : Nat}
    (h : Image vectors dimension stored) (hv : Admissible dimension vector)
    (hid : vectors.positions.get? id = some position) :
    ∃ after, add vectors id vector = .ok after ∧
      Image after dimension (Function.update stored id (some vector)) := by
  have hp := (h.positions id position).mp hid
  have hlt : position < vectors.ids.length := (List.getElem?_eq_some_iff.mp hp).1
  refine ⟨{ vectors with matrix := vectors.matrix.set position vector }, ?_, h.dimension,
    h.positions, ?_, ?_⟩
  · have hc : checkVector vector vectors = .ok vectors := by
      rw [checkVector, h.dimension, check_of_admissible hv]; rfl
    simp [add, addScript, hid, hc, Except.bind, setRow, h.lt_matrix_length hlt]
  · intro found row hr
    rw [List.getElem?_set]
    by_cases hf : found = id
    · subst hf
      have hrow : position = row :=
        Option.some.inj (hid.symm.trans ((h.positions found row).mpr hr))
      rw [if_pos hrow, if_pos (h.lt_matrix_length hlt), Function.update_self]
    · have hrow : position ≠ row := by
        rintro rfl
        exact hf (Option.some.inj (hr.symm.trans hp))
      rw [if_neg hrow, h.rows found row hr, Function.update_of_ne hf]
  · intro found
    by_cases hf : found = id
    · subst hf
      simpa using List.mem_of_getElem? hp
    · simp [hf, h.stored]

theorem image_add {vector : List α} (h : Image vectors dimension stored) (id : String)
    (hv : Admissible dimension vector) :
    ∃ after, add vectors id vector = .ok after ∧
      Image after dimension (Function.update stored id (some vector)) := by
  cases hid : vectors.positions.get? id with
  | none => exact image_add_new h hv hid
  | some position => exact image_add_present h hv hid

theorem admissible_of_add {after : ExactVectorIndex α} {id : String} {vector : List α}
    (h : add vectors id vector = .ok after) : Admissible vectors.dimension vector := by
  rw [add, addScript, Script.exec_cons, checkVector] at h
  cases hc : check vectors.dimension vector with
  | error error => simp [hc, Except.map, Except.bind] at h
  | ok checked => exact (admissible_of_check hc).1

omit [Arith α] in
theorem Image.stored_none (h : Image vectors dimension stored) {id : String}
    (hid : vectors.positions.get? id = none) : stored id = none := by
  rw [← Option.not_isSome_iff_eq_none, h.stored]
  intro hm
  obtain ⟨position, hp⟩ := List.mem_iff_getElem?.mp hm
  rw [(h.positions id position).mpr hp] at hid
  cases hid

section Moved

variable {after : ExactVectorIndex α} {id moved : String} {position : Nat}

-- The index left by a removal: one row fewer, with the last live row in the freed place.
structure Moved (vectors after : ExactVectorIndex α) (id moved : String) (position : Nat) :
    Prop where
  held : vectors.positions.get? id = some position
  last : vectors.ids[vectors.ids.length - 1]? = some moved
  dimension : after.dimension = vectors.dimension
  ids : ∀ row : Nat, after.ids[row]? =
    if row < vectors.ids.length - 1 then
      if row = position then some moved else vectors.ids[row]?
    else none
  positions : ∀ found, after.positions.get? found =
    if found = id then none
    else if found = moved then some position else vectors.positions.get? found
  matrix : ∀ row : Nat, row < vectors.ids.length - 1 → after.matrix[row]? =
    if row = position then vectors.matrix[vectors.ids.length - 1]? else vectors.matrix[row]?

omit [Arith α] in
-- A row that survives in its place holds a document other than the removed one.
theorem Moved.kept (h : Image vectors dimension stored) (hm : Moved vectors after id moved position)
    {found : String} {row : Nat} (hf : vectors.ids[row]? = some found) (hrow : row ≠ position) :
    found ≠ id := by
  rintro rfl
  exact hrow (Option.some.inj (((h.positions found row).mpr hf).symm.trans hm.held))

omit [Arith α] in
theorem Moved.moved_ne (h : Image vectors dimension stored)
    (hm : Moved vectors after id moved position) (hp : position ≠ vectors.ids.length - 1) :
    moved ≠ id := hm.kept h hm.last (Ne.symm hp)

omit [Arith α] in
theorem Moved.ids_eq_some (h : Image vectors dimension stored)
    (hm : Moved vectors after id moved position) (found : String) (row : Nat) :
    after.ids[row]? = some found ↔
      found ≠ id ∧ (if row = position then found = moved else
        row < vectors.ids.length - 1 ∧ vectors.ids[row]? = some found) := by
  have hp := (h.positions id position).mp hm.held
  have hlt : position < vectors.ids.length := (List.getElem?_eq_some_iff.mp hp).1
  rw [hm.ids]
  by_cases hrp : row = position
  · subst hrp
    by_cases hl : row = vectors.ids.length - 1
    · have hsame : moved = id := by
        have hlast := hm.last
        rw [← hl] at hlast
        exact Option.some.inj (hlast.symm.trans hp)
      simp only [hl, lt_irrefl, if_false, if_true]
      constructor
      · intro he
        cases he
      · rintro ⟨hne, rfl⟩
        exact absurd hsame hne
    · have hne := hm.moved_ne h hl
      rw [if_pos (by omega)]
      simp only [if_true, Option.some.injEq]
      exact ⟨fun he => ⟨he ▸ hne, he.symm⟩, fun he => he.2.symm⟩
  · simp only [hrp, if_false]
    constructor
    · intro he
      split at he
      · rename_i hrow
        exact ⟨hm.kept h he hrp, hrow, he⟩
      · cases he
    · rintro ⟨-, hrow, he⟩
      rw [if_pos hrow, he]

omit [Arith α] in
theorem Moved.image (h : Image vectors dimension stored)
    (hm : Moved vectors after id moved position) :
    Image after dimension (Function.update stored id none) := by
  have hp := (h.positions id position).mp hm.held
  have hlt : position < vectors.ids.length := (List.getElem?_eq_some_iff.mp hp).1
  have hlast := (h.positions moved _).mpr hm.last
  refine ⟨hm.dimension.trans h.dimension, ?_, ?_, ?_⟩
  · intro found row
    rw [hm.ids_eq_some h, hm.positions]
    by_cases hf : found = id
    · simp [hf]
    · simp only [hf, if_false, ne_eq, not_false_eq_true, true_and]
      by_cases hfm : found = moved
      · subst hfm
        simp only [if_true, Option.some.injEq]
        by_cases hr : row = position
        · simp [hr]
        · simp only [Ne.symm hr, hr, if_false, false_iff, not_and]
          intro hrow he
          have := Option.some.inj (((h.positions found row).mpr he).symm.trans hlast)
          omega
      · simp only [hfm, if_false, h.positions]
        by_cases hr : row = position
        · subst hr
          simpa [hp] using Ne.symm hf
        · simp only [hr, if_false, iff_and_self]
          intro he
          have hrlt : row < vectors.ids.length := (List.getElem?_eq_some_iff.mp he).1
          by_contra hge
          have hre : row = vectors.ids.length - 1 := by omega
          exact hfm (Option.some.inj (he.symm.trans (hre ▸ hm.last)))
  · intro found row hr
    obtain ⟨hne, hcase⟩ := (hm.ids_eq_some h found row).mp hr
    have hrow : row < vectors.ids.length - 1 := by
      by_contra hge
      rw [hm.ids, if_neg hge] at hr
      cases hr
    rw [hm.matrix row hrow, Function.update_of_ne hne]
    split at hcase
    · rename_i he
      rw [if_pos he, hcase, h.rows moved _ hm.last]
    · rename_i he
      rw [if_neg he, h.rows found row hcase.2]
  · intro found
    simp only [List.mem_iff_getElem?, hm.ids_eq_some h]
    by_cases hf : found = id
    · simp [hf]
    · rw [Function.update_of_ne hf, h.stored, List.mem_iff_getElem?]
      simp only [ne_eq, hf, not_false_eq_true, true_and]
      constructor
      · rintro ⟨row, hr⟩
        have hrlt : row < vectors.ids.length := (List.getElem?_eq_some_iff.mp hr).1
        have hrp : row ≠ position := by
          rintro rfl
          exact hf (Option.some.inj (hr.symm.trans hp))
        by_cases hrl : row < vectors.ids.length - 1
        · exact ⟨row, by simp [hrp, hrl, hr]⟩
        · have hre : row = vectors.ids.length - 1 := by omega
          exact ⟨position, by simpa using Option.some.inj (hr.symm.trans (hre ▸ hm.last))⟩
      · rintro ⟨row, hr⟩
        split at hr
        · exact ⟨_, hr ▸ hm.last⟩
        · exact ⟨row, hr.2⟩

end Moved

omit [Arith α] in
theorem image_remove (h : Image vectors dimension stored) (id : String) :
    ∃ after, exec (removeScript vectors id) vectors = .ok after ∧
      Image after dimension (Function.update stored id none) := by
  cases hid : vectors.positions.get? id with
  | none =>
      refine ⟨vectors, by simp [removeScript, hid], ?_⟩
      rwa [Function.update_eq_self_iff.mpr (h.stored_none hid).symm]
  | some position =>
      have hp := (h.positions id position).mp hid
      have hlt : position < vectors.ids.length := (List.getElem?_eq_some_iff.mp hp).1
      have hlast : vectors.ids.length - 1 < vectors.ids.length := by omega
      obtain ⟨moved, hmoved⟩ : ∃ moved, vectors.ids[vectors.ids.length - 1]? = some moved :=
        ⟨_, List.getElem?_eq_getElem hlast⟩
      have hget : vectors.ids.getLast? = some moved := by
        rw [List.getLast?_eq_getElem?, hmoved]
      by_cases hpl : position = vectors.ids.length - 1
      · refine ⟨⟨vectors.dimension, vectors.ids.dropLast, vectors.positions.erase id,
          vectors.matrix⟩, ?_, ?_⟩
        · simp [removeScript, hid, hget, ← hpl, popPosition, popId, Except.bind]
        · have hsame : moved = id := by
            rw [← hpl] at hmoved
            exact Option.some.inj (hmoved.symm.trans hp)
          refine Moved.image h ⟨hid, hmoved, rfl, ?_, ?_, ?_⟩
          · intro row
            rw [List.getElem?_dropLast]
            split
            · rw [if_neg (by omega)]
            · rfl
          · intro found
            rw [Dict.get?_erase, hsame]
            split <;> simp_all
          · intro row hr
            rw [if_neg (by omega)]
      · obtain ⟨row, hrow⟩ : ∃ row, vectors.matrix[vectors.ids.length - 1]? = some row :=
          ⟨_, List.getElem?_eq_getElem (h.lt_matrix_length hlast)⟩
        have hne : moved ≠ id := by
          rintro rfl
          exact hpl (Option.some.inj (hid.symm.trans ((h.positions moved _).mpr hmoved)))
        refine ⟨⟨vectors.dimension, (vectors.ids.set position moved).dropLast,
          (vectors.positions.erase id).set moved position, vectors.matrix.set position row⟩, ?_, ?_⟩
        · simp [removeScript, hid, hget, hpl, popPosition, popId, copyRow, hrow, setRow, setId,
            setPosition, h.lt_matrix_length hlt, Except.bind]
        · refine Moved.image h ⟨hid, hmoved, rfl, ?_, ?_, ?_⟩
          · intro found
            rw [List.getElem?_dropLast, List.length_set, List.getElem?_set]
            split
            · by_cases he : found = position
              · simp [he]
              · rw [if_neg (Ne.symm he), if_neg he]
            · rfl
          · intro found
            rw [Dict.get?_set, Dict.get?_erase]
            by_cases hf : found = moved
            · rw [if_pos hf, if_neg (hf ▸ hne), if_pos hf]
            · rw [if_neg hf, if_neg hf]
          · intro found hf
            rw [List.getElem?_set, hrow]
            by_cases he : found = position
            · simp [he, h.lt_matrix_length hlt]
            · rw [if_neg (Ne.symm he), if_neg he]

omit [Arith α] in
theorem Image.live_eq (h : Image vectors dimension stored) :
    vectors.matrix.take vectors.ids.length = vectors.ids.map fun id => (stored id).getD [] := by
  apply List.ext_getElem?
  intro row
  rw [List.getElem?_take, List.getElem?_map]
  split
  · rename_i hlt
    have hid : vectors.ids[row]? = some vectors.ids[row] := List.getElem?_eq_getElem hlt
    have hrow := h.rows _ row hid
    obtain ⟨vector, hv⟩ := Option.isSome_iff_exists.mp ((h.stored _).mpr (List.getElem_mem hlt))
    rw [hid, hrow, hv]
    simp [hv]
  · rw [List.getElem?_eq_none (by omega)]
    rfl

omit [Arith α] in
-- Every document's vector, found through its position.
theorem Image.vectorOf_eq (h : Image vectors dimension stored) (id : String) :
    vectors.vectorOf id = stored id := by
  unfold vectorOf
  cases hp : vectors.positions.get? id with
  | none => rw [Option.bind_none, h.stored_none hp]
  | some position => exact h.rows id position ((h.positions id position).mp hp)

-- The similarity of every document that has a vector to one query.
def similarities (ids : List String) (stored : String → Option (List α)) (query : List α) :
    List (String × α) := ids.map fun id => (id, Arith.dot ((stored id).getD []) query)

theorem similarities_keys (ids : List String) (hnodup : ids.Nodup)
    (stored : String → Option (List α)) (query : List α) :
    ((similarities ids stored query).map fun hit => rankKey hit.2 hit.1).Nodup := by
  rw [similarities, List.map_map]
  exact hnodup.map fun _ _ h => rankKey_id h

omit [Arith α] in
theorem Image.ids_perm (h : Image vectors dimension stored) (h' : Image other dimension stored) :
    vectors.ids.Perm other.ids := by
  apply (List.perm_ext_iff_of_nodup h.nodup h'.nodup).mpr
  intro id
  rw [← h.stored, ← h'.stored]

omit [Arith α] in
theorem Image.count_eq (h : Image vectors dimension stored) (h' : Image other dimension stored) :
    vectors.count = other.count := (h.ids_perm h').length_eq

omit [Arith α] in
theorem Image.positions_size (h : Image vectors dimension stored) :
    vectors.ids.length = vectors.positions.size := by
  have hp : vectors.ids.Perm vectors.positions.keys := by
    apply (List.perm_ext_iff_of_nodup h.nodup vectors.positions.keys_nodup).mpr
    intro id
    rw [Dict.mem_keys, Option.isSome_iff_exists, List.mem_iff_getElem?]
    exact exists_congr fun position => (h.positions id position).symm
  simpa [Dict.keys, Dict.size] using hp.length_eq

variable [LinearOrder α]

theorem Image.search_eq (h : Image vectors dimension stored) (query : List α) {limit : Int}
    (hlimit : 1 ≤ limit) (hids : vectors.ids ≠ []) (hq : Admissible dimension query) :
    search vectors query limit =
      .ok ((KeySort.sliceTo (KeySort.sortedBy (fun hit : String × α => rankKey hit.2 hit.1)
        (similarities vectors.ids stored query)) limit).map fun hit => ⟨hit.1, hit.2⟩) := by
  rw [search, if_neg (by omega), if_neg hids, h.dimension, check_of_admissible hq]
  simp only [h.live_eq, List.map_map, List.length_map, ne_eq, not_true_eq_false, if_false]
  rw [similarities, List.map_prod_left_eq_zip]
  rfl

-- What a search answers depends on the stored map alone, not on the order of the rows.
theorem Image.search_congr (h : Image vectors dimension stored) (h' : Image other dimension stored)
    (query : List α) (limit : Int) : search vectors query limit = search other query limit := by
  have hperm := h.ids_perm h'
  by_cases hlimit : limit < 1
  · rw [search, search, if_pos hlimit, if_pos hlimit]
  by_cases hids : vectors.ids = []
  · have hids' : other.ids = [] := List.perm_nil.mp (hids ▸ hperm).symm
    rw [search, search, if_neg hlimit, if_neg hlimit, if_pos hids, if_pos hids']
  have hids' : other.ids ≠ [] := fun he => hids (List.perm_nil.mp (he ▸ hperm))
  cases hc : check dimension query with
  | error error =>
      rw [search, search, if_neg hlimit, if_neg hlimit, if_neg hids, if_neg hids', h.dimension,
        h'.dimension, hc]
      rfl
  | ok checked =>
      have hq := (admissible_of_check hc).1
      rw [h.search_eq query (by omega) hids hq, h'.search_eq query (by omega) hids' hq]
      rw [KeySort.sortedBy_eq_of_perm (similarities_keys _ h.nodup stored query)
        (hperm.map _)]
      rfl

-- With rows of the right shape, nothing but a row's length can fail the validation.
theorem Image.validate_eq (h : Image vectors dimension stored)
    (hstored : ∀ id vector, stored id = some vector → Admissible dimension vector) :
    validate vectors =
      match (vectors.ids.zip (vectors.matrix.take vectors.ids.length)).find?
        (fun entry => !unit entry.2) with
      | some (id, _) => .error (.vectorIndex (.notUnit id))
      | none => .ok () := by
  have hlive : ∀ row ∈ vectors.matrix.take vectors.ids.length, Admissible dimension row := by
    rw [h.live_eq]
    intro row hrow
    obtain ⟨id, hid, rfl⟩ := List.mem_map.mp hrow
    obtain ⟨vector, hv⟩ := Option.isSome_iff_exists.mp ((h.stored id).mpr hid)
    rw [hv]
    exact hstored id vector hv
  have hplaced : vectors.ids.zipIdx.find? vectors.misplaced = none := by
    rw [List.find?_eq_none]
    rintro ⟨id, row⟩ hm
    have hrow := (h.positions id row).mpr (by simpa [List.mem_zipIdx_iff_getElem?] using hm)
    simp [misplaced, hrow]
  have hwidth : (vectors.matrix.take vectors.ids.length).find?
      (fun row => row.length ≠ vectors.dimension) = none := by
    rw [List.find?_eq_none]
    intro row hrow
    simp [(hlive row hrow).1, h.dimension]
  have hfinite : (vectors.matrix.take vectors.ids.length).all
      (fun row => row.all Arith.isFinite) = true := by
    rw [List.all_eq_true]
    exact fun row hrow => (hlive row hrow).2
  rw [ExactVectorIndex.validate]
  simp only [h.positions_size, ne_eq, not_true_eq_false, if_false]
  rw [← h.positions_size, hplaced, hwidth, hfinite]
  rfl

theorem Image.validate_iff (h : Image vectors dimension stored)
    (hstored : ∀ id vector, stored id = some vector → Admissible dimension vector) :
    validate vectors = .ok () ↔ ∀ id vector, stored id = some vector → unit vector := by
  have hfind : (vectors.ids.zip (vectors.matrix.take vectors.ids.length)).find?
      (fun entry => !unit entry.2) = none ↔
        ∀ id vector, stored id = some vector → unit vector := by
    rw [List.find?_eq_none, h.live_eq, ← List.map_prod_left_eq_zip]
    constructor
    · intro hall id vector hv
      have hid : id ∈ vectors.ids := (h.stored id).mp (by simp [hv])
      have hunit := hall _ (List.mem_map_of_mem hid)
      simpa [hv] using hunit
    · intro hall entry hentry
      obtain ⟨id, hid, rfl⟩ := List.mem_map.mp hentry
      obtain ⟨vector, hv⟩ := Option.isSome_iff_exists.mp ((h.stored id).mpr hid)
      simp [hv, hall id vector hv]
  rw [h.validate_eq hstored, ← hfind]
  split
  · rename_i hsome
    simp [hsome]
  · rename_i hnone
    simp [hnone]

-- Vectors of the right shape and length one pass the index's own validation.
theorem Image.validate (h : Image vectors dimension stored)
    (hstored : ∀ id vector, stored id = some vector → Admissible dimension vector ∧ unit vector) :
    validate vectors = .ok () :=
  (h.validate_iff fun id vector hv => (hstored id vector hv).1).mpr
    fun id vector hv => (hstored id vector hv).2

end PySearch.ExactVectorIndex
