import PySearch.Semantic.VectorIndex.Theorems

namespace PySearch.ExactVectorIndex

open Script (exec)

variable {α : Type} [Arith α] {vectors middle : ExactVectorIndex α} {dimension : Nat}
  {stored : String → Option (List α)} {id : String} {vector : List α} {count : Nat}

section Valid

variable [LinearOrder α]

-- What the validation establishes about any index.
theorem facts_of_validate (h : validate vectors = .ok ()) :
    vectors.ids.length = vectors.positions.size ∧
      ∀ row ∈ vectors.matrix.take vectors.ids.length, Admissible vectors.dimension row := by
  unfold validate at h
  by_cases hsize : vectors.ids.length = vectors.positions.size
  · refine ⟨hsize, ?_⟩
    rw [if_neg (not_not.mpr hsize)] at h
    cases hplaced : vectors.ids.zipIdx.find? vectors.misplaced with
    | some entry => simp [hplaced, Bind.bind, Except.bind] at h
    | none =>
        cases hwidth : (vectors.matrix.take vectors.ids.length).find?
            (fun row => row.length ≠ vectors.dimension) with
        | some row => simp only [hplaced, hwidth, Bind.bind, Except.bind, reduceCtorEq] at h
        | none =>
            by_cases hfinite : ((vectors.matrix.take vectors.ids.length).all
                fun row => row.all Arith.isFinite) = true
            · intro row hrow
              have hlength := List.find?_eq_none.mp hwidth row hrow
              exact ⟨by simpa using hlength, List.all_eq_true.mp hfinite row hrow⟩
            · rw [Bool.not_eq_true] at hfinite
              simp only [hplaced, hwidth, hfinite, Bool.not_false, if_true, Bind.bind, Except.bind,
                reduceCtorEq] at h
  · simp [hsize, Bind.bind, Except.bind] at h

-- An image passes exactly when every vector has the right shape and length.
theorem Image.validate_ok_iff (h : Image vectors dimension stored) :
    ExactVectorIndex.validate vectors = .ok () ↔
      ∀ id vector, stored id = some vector → Admissible dimension vector ∧ unit vector := by
  constructor
  · intro hvalid
    have hadmissible : ∀ id vector, stored id = some vector → Admissible dimension vector := by
      intro id vector hv
      have hid : id ∈ vectors.ids := (h.stored id).mp (by simp [hv])
      have hlive : vector ∈ vectors.matrix.take vectors.ids.length := by
        rw [h.live_eq]
        exact List.mem_map.mpr ⟨id, hid, by simp [hv]⟩
      exact h.dimension ▸ (facts_of_validate hvalid).2 vector hlive
    have hunit := (h.validate_iff hadmissible).mp hvalid
    exact fun id vector hv => ⟨hadmissible id vector hv, hunit id vector hv⟩
  · exact h.validate

end Valid

-- What the next free row holds before a vector is written to it.
def leftover (vectors : ExactVectorIndex α) : List α :=
  (vectors.matrix[vectors.ids.length]?).getD (List.replicate vectors.dimension 0.0)

section Add

-- The row that a new document gets is the leftover one, also when the matrix has to grow.
theorem grow_leftover (h : Image vectors dimension stored) :
    ∃ matrix, growIfNeeded (vectors.ids.length + 1) vectors =
        .ok { vectors with matrix := matrix } ∧
      matrix[vectors.ids.length]? = some vectors.leftover ∧
      ∀ position, position < vectors.matrix.length →
        matrix[position]? = vectors.matrix[position]? := by
  have hcapacity := h.capacity
  by_cases hroom : vectors.ids.length + 1 ≤ vectors.matrix.length
  · refine ⟨vectors.matrix, if_pos hroom, ?_, fun _ _ => rfl⟩
    rw [leftover, List.getElem?_eq_getElem (by omega)]
    rfl
  · refine ⟨_, if_neg hroom, ?_, fun position hp => List.getElem?_append_left hp⟩
    have hfull : vectors.matrix.length = vectors.ids.length := by omega
    have hnone : vectors.matrix[vectors.ids.length]? = none :=
      List.getElem?_eq_none (by omega)
    rw [leftover, hnone, List.getElem?_append_right (by omega)]
    simp only [zeros, hfull, Nat.sub_self, List.getElem?_replicate, Option.getD_none]
    rw [if_pos (by omega)]

theorem check_of_exec {after : ExactVectorIndex α} (h : checkVector vector vectors = .ok after) :
    Admissible vectors.dimension vector ∧ after = vectors := by
  unfold checkVector at h
  cases hc : check vectors.dimension vector with
  | error error => simp [hc, Except.map] at h
  | ok checked =>
      rw [hc] at h
      cases h
      exact ⟨(admissible_of_check hc).1, rfl⟩

theorem add_stopped_present (h : Image vectors dimension stored) {position : Nat}
    (hid : vectors.positions.get? id = some position)
    (hexec : exec ((addScript vectors id vector).take count) vectors = .ok middle) :
    (count ≤ 1 ∧ middle = vectors) ∨
      (2 ≤ count ∧ Image middle dimension (Function.update stored id (some vector))) := by
  have hscript : addScript vectors id vector = [checkVector vector, setRow position vector] := by
    rw [addScript, hid]
  by_cases hdone : 2 ≤ count
  · rw [List.take_of_length_le (by simpa [hscript] using hdone)] at hexec
    have hv := admissible_of_add hexec
    rw [h.dimension] at hv
    obtain ⟨after, hadd, himage⟩ := image_add_present h hv hid
    cases hadd.symm.trans hexec
    exact .inr ⟨hdone, himage⟩
  · cases count with
    | zero =>
        cases hexec
        exact .inl ⟨by omega, rfl⟩
    | succ count =>
        rw [hscript, List.take_succ_cons, show count = 0 by omega, List.take_zero,
          Script.exec_cons] at hexec
        obtain ⟨next, hcheck, hnext⟩ := bind_ok hexec
        cases hnext
        exact .inl ⟨by omega, (check_of_exec hcheck).2⟩

-- A new document is not in the index until its position is set. From then on it has a row,
-- which is the leftover one until its vector is written.
theorem add_stopped_new (h : Image vectors dimension stored)
    (hid : vectors.positions.get? id = none)
    (hexec : exec ((addScript vectors id vector).take count) vectors = .ok middle) :
    (count ≤ 3 ∧ middle.positions.get? id = none) ∨
    (count = 4 ∧ Image middle dimension (Function.update stored id (some vectors.leftover))) ∨
    (5 ≤ count ∧ Image middle dimension (Function.update stored id (some vector))) := by
  obtain ⟨matrix, hgrow, hrow, hkeep⟩ := grow_leftover h
  have hscript : addScript vectors id vector = [checkVector vector,
      growIfNeeded (vectors.ids.length + 1), appendId id, setPosition id vectors.ids.length,
      setRow vectors.ids.length vector] := by
    rw [addScript, hid]
  by_cases hdone : 5 ≤ count
  · rw [List.take_of_length_le (by simpa [hscript] using hdone)] at hexec
    have hv := admissible_of_add hexec
    rw [h.dimension] at hv
    obtain ⟨after, hadd, himage⟩ := image_add_new h hv hid
    cases hadd.symm.trans hexec
    exact .inr (.inr ⟨hdone, himage⟩)
  cases count with
  | zero =>
      cases hexec
      exact .inl ⟨by omega, hid⟩
  | succ count =>
      rw [hscript, List.take_succ_cons, Script.exec_cons] at hexec
      obtain ⟨next, hcheck, hrest⟩ := bind_ok hexec
      rw [(check_of_exec hcheck).2] at hrest
      rcases (by omega : count = 0 ∨ count = 1 ∨ count = 2 ∨ count = 3) with rfl | rfl | rfl | rfl
      · cases hrest
        exact .inl ⟨by omega, hid⟩
      · simp only [List.take_succ_cons, List.take_zero, Script.exec_cons, hgrow, Except.bind,
          Script.exec_nil] at hrest
        cases hrest
        exact .inl ⟨by omega, hid⟩
      · simp only [List.take_succ_cons, List.take_zero, Script.exec_cons, hgrow, Except.bind,
          Script.exec_nil, appendId] at hrest
        cases hrest
        exact .inl ⟨by omega, hid⟩
      · simp only [List.take_succ_cons, List.take_zero, Script.exec_cons, hgrow, Except.bind,
          Script.exec_nil, appendId, setPosition] at hrest
        cases hrest
        exact .inr (.inl ⟨rfl, image_append h hid hrow fun position hp _ => hkeep position hp⟩)

end Add

section Remove

omit [Arith α] in
-- The statements that move the last row into the hole change no number of positions.
theorem moved_statement_kept {source position : Nat} {moved : String} :
    ∀ stmt ∈ [copyRow source position, setId position moved, setPosition moved position],
      ∀ before after : ExactVectorIndex α, stmt before = .ok after →
      (before.ids.length = before.positions.size + 1 ∧ (before.positions.get? moved).isSome) →
        after.ids.length = after.positions.size + 1 ∧ (after.positions.get? moved).isSome := by
  intro stmt hstmt before after hstep hinv
  simp only [List.mem_cons, List.not_mem_nil, or_false] at hstmt
  rcases hstmt with rfl | rfl | rfl
  · unfold copyRow at hstep
    split at hstep
    · cases hstep
    · unfold setRow at hstep
      split at hstep
      · cases hstep
        exact hinv
      · cases hstep
  · cases hstep
    simpa using hinv
  · cases hstep
    obtain ⟨previous, hprevious⟩ := Option.isSome_iff_exists.mp hinv.2
    simp only [Dict.size_set_of_some hprevious, Dict.get?_set_self, Option.isSome_some, and_true]
    exact hinv.1

omit [Arith α] in
-- A stopped removal has not begun, has one position too few, or is complete.
theorem remove_stopped (h : Image vectors dimension stored)
    (hexec : exec ((removeScript vectors id).take count) vectors = .ok middle) :
    middle = vectors ∨ middle.ids.length = middle.positions.size + 1 ∨
      ((removeScript vectors id).length ≤ count ∧
        Image middle dimension (Function.update stored id none)) := by
  by_cases hdone : (removeScript vectors id).length ≤ count
  · obtain ⟨after, hremove, himage⟩ := image_remove h id
    rw [List.take_of_length_le hdone] at hexec
    cases hremove.symm.trans hexec
    exact .inr (.inr ⟨hdone, himage⟩)
  cases hid : vectors.positions.get? id with
  | none => simp [removeScript, hid] at hdone
  | some position =>
      have hlt := (List.getElem?_eq_some_iff.mp ((h.positions id position).mp hid)).1
      have hlast : vectors.ids.length - 1 < vectors.ids.length := by omega
      have hmoved : vectors.ids.getLast? = some vectors.ids[vectors.ids.length - 1] := by
        rw [List.getLast?_eq_getElem?, List.getElem?_eq_getElem hlast]
      have hheld : vectors.positions.get? vectors.ids[vectors.ids.length - 1] =
          some (vectors.ids.length - 1) :=
        (h.positions _ _).mpr (List.getElem?_eq_getElem hlast)
      generalize vectors.ids[vectors.ids.length - 1] = moved at hmoved hheld
      cases count with
      | zero =>
          cases hexec
          exact .inl rfl
      | succ count =>
          right
          left
          have hsize := Dict.size_erase hid
          by_cases hp : position = vectors.ids.length - 1
          · have hscript : removeScript vectors id = [popPosition id, popId] := by
              simp [removeScript, hid, hmoved, hp]
            rw [hscript, List.length_cons, List.length_singleton] at hdone
            rw [hscript, List.take_succ_cons, show count = 0 by omega, List.take_zero] at hexec
            cases hexec
            exact h.positions_size.trans hsize
          · have hscript : removeScript vectors id = popPosition id ::
                ([copyRow (vectors.ids.length - 1) position, setId position moved,
                  setPosition moved position] ++ [popId]) := by
              simp [removeScript, hid, hmoved, hp]
            rw [hscript, List.length_cons, List.length_append, List.length_singleton] at hdone
            rw [hscript, List.take_succ_cons, Script.exec_cons, popPosition,
              List.take_append_of_le_length (by omega)] at hexec
            -- The moved document keeps a position, so their number stays.
            have hkept := @Script.exec_invariant _ _
              (fun state => state.ids.length = state.positions.size + 1 ∧
                (state.positions.get? moved).isSome) _
              (fun stmt hstmt => moved_statement_kept stmt (List.mem_of_mem_take hstmt)) _ _ hexec
            refine (hkept ⟨h.positions_size.trans hsize, ?_⟩).1
            have hne : moved ≠ id := by
              rintro rfl
              exact hp (Option.some.inj (hid.symm.trans hheld))
            simp [Dict.get?_erase, hne, hheld]

end Remove

end PySearch.ExactVectorIndex
