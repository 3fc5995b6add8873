import PySearch.Search.Index.History

namespace PySearch.InvertedIndex

variable {index other : InvertedIndex}

-- The tokens that the postings of a document stand for, in some order.
def recoveredTokens (index : InvertedIndex) (documentId : String) : List String :=
  (index.recordedTerms documentId).flatMap fun term =>
    List.replicate (index.termFrequency term documentId).toNat term

def recoveredCorpus (index : InvertedIndex) : Dict String (List String) :=
  Dict.comprehension index.documentTerms.keys id index.recoveredTokens

theorem Same.image {corpus : Corpus} (hs : Same index other) (h : Image other corpus) :
    Image index corpus where
  posting term id := by
    have hrel := hs.postings term
    rw [← h.posting term id, postingMap, postingMap, Dict.getD, Dict.getD]
    generalize index.postings.get? term = mine at hrel ⊢
    generalize other.postings.get? term = theirs at hrel ⊢
    cases hrel with
    | none => rfl
    | some hsame => exact hsame id
  nonempty term postings hp := by
    have hrel := hs.postings term
    rw [hp] at hrel
    generalize hq : other.postings.get? term = theirs at hrel
    cases hrel with
    | some hsame =>
        rw [Dict.size_eq hsame]
        exact h.nonempty term _ hq
  terms id := by
    have hrel := hs.terms id
    have hcorpus := h.terms id
    generalize index.documentTerms.get? id = mine at hrel ⊢
    generalize other.documentTerms.get? id = theirs at hrel hcorpus
    generalize corpus id = document at hcorpus ⊢
    cases hrel with
    | none => exact hcorpus
    | some hsame =>
        cases hcorpus with
        | some hmem => exact .some fun term => (hsame term).trans (hmem term)
  lengths id := by
    rw [hs.lengths id]
    exact h.lengths id
  total := by
    rw [hs.total, h.total, (Dict.values_perm hs.lengths).sum_eq]

section Checks

theorem require_ok {condition : Bool} {violation : IndexViolation}
    (h : require condition violation = .ok ()) : condition = true := by
  unfold require at h
  split at h
  · assumption
  · cases h

-- What the checks establish, one fact for each of them.
structure Checked (index : InvertedIndex) : Prop where
  coverage : ∀ id, (index.documentTerms.get? id).isSome ↔ (index.documentLengths.get? id).isSome
  total : index.totalLength = index.documentLengths.values.sum
  nonempty : ∀ term postings, index.postings.get? term = some postings → postings.size ≠ 0
  posting : ∀ term id frequency, (index.postingMap term).get? id = some frequency →
    1 ≤ frequency ∧ term ∈ index.recordedTerms id
  recorded : ∀ id term, term ∈ index.recordedTerms id →
    ((index.postingMap term).get? id).isSome
  length : ∀ id set, index.documentTerms.get? id = some set →
    index.documentLengths.get? id =
      some (set.elems.map fun term => index.termFrequency term id).sum

theorem coverage_of_validate (h : validateCoverage index = .ok ()) (id : String) :
    (index.documentTerms.get? id).isSome ↔ (index.documentLengths.get? id).isSome := by
  obtain ⟨hterms, hlengths⟩ := Bool.and_eq_true_iff.mp (require_ok h)
  rw [List.all_eq_true] at hterms hlengths
  constructor
  · intro hid
    exact hterms id (Dict.mem_keys.mpr hid)
  · intro hid
    exact hlengths id (Dict.mem_keys.mpr hid)

theorem posting_of_validate {term id : String} {frequency : Int}
    (h : validatePosting index term (id, frequency) = .ok ()) :
    1 ≤ frequency ∧ term ∈ index.recordedTerms id := by
  obtain ⟨⟨⟩, -, hrest⟩ := bind_ok h
  obtain ⟨⟨⟩, hfrequency, hterm⟩ := bind_ok hrest
  refine ⟨of_decide_eq_true (require_ok hfrequency), ?_⟩
  unfold recordedTerms
  cases hs : index.documentTerms.get? id with
  | none => simp [hs] at hterm
  | some set =>
      simp only [hs] at hterm
      exact of_decide_eq_true (require_ok hterm)

-- The loop over the terms of a document finds every posting and adds the frequencies up.
theorem sum_of_validate {id : String} {terms : List String} {start summed : Int}
    (h : terms.foldlM (sumFrequency index id) start = .ok summed) :
    (∀ term ∈ terms, ((index.postingMap term).get? id).isSome) ∧
      summed = start + (terms.map fun term => index.termFrequency term id).sum := by
  induction terms generalizing start with
  | nil =>
      cases h
      simp
  | cons term rest ih =>
      rw [List.foldlM_cons] at h
      obtain ⟨next, hnext, hrest⟩ := bind_ok h
      unfold sumFrequency at hnext
      cases hp : (index.postingMap term).get? id with
      | none => simp [hp] at hnext
      | some frequency =>
          simp only [hp] at hnext
          cases hnext
          obtain ⟨hfound, hsum⟩ := ih hrest
          have hfrequency : index.termFrequency term id = frequency := by
            rw [termFrequency, Dict.getD, hp]
            rfl
          refine ⟨?_, ?_⟩
          · intro other hm
            rcases List.mem_cons.mp hm with rfl | hother
            · simp [hp]
            · exact hfound other hother
          · rw [List.map_cons, List.sum_cons, hfrequency]
            omega

theorem document_of_validate {id : String} {set : FrozenSet String}
    (h : validateDocument index (id, set) = .ok ()) :
    (∀ term ∈ set.elems, ((index.postingMap term).get? id).isSome) ∧
      index.documentLengths.get? id =
        some (set.elems.map fun term => index.termFrequency term id).sum := by
  obtain ⟨summed, hsummed, hlength⟩ := bind_ok h
  obtain ⟨hfound, hsum⟩ := sum_of_validate hsummed
  refine ⟨hfound, ?_⟩
  cases hl : index.documentLengths.get? id with
  | none => simp [hl] at hlength
  | some length =>
      simp only [hl] at hlength
      have hequal := of_decide_eq_true (require_ok hlength)
      rw [← hequal, hsum, Int.zero_add]

theorem checked_of_validate (h : index.validate = .ok ()) : Checked index := by
  obtain ⟨⟨⟩, hcoverage, hrest⟩ := bind_ok h
  obtain ⟨⟨⟩, htotal, hrest⟩ := bind_ok hrest
  obtain ⟨⟨⟩, -, hrest⟩ := bind_ok hrest
  obtain ⟨⟨⟩, hpostings, hdocuments⟩ := bind_ok hrest
  have hposted : ∀ term postings, index.postings.get? term = some postings →
      validatePostings index (term, postings) = .ok () := fun term postings hp =>
    of_forM_ok hpostings (term, postings) (Dict.mem_entries.mpr hp)
  have hrecorded : ∀ id set, index.documentTerms.get? id = some set →
      validateDocument index (id, set) = .ok () := fun id set hs =>
    of_forM_ok hdocuments (id, set) (Dict.mem_entries.mpr hs)
  refine ⟨coverage_of_validate hcoverage, of_decide_eq_true (require_ok htotal), ?_, ?_, ?_, ?_⟩
  · intro term postings hp
    obtain ⟨⟨⟩, hsize, -⟩ := bind_ok (hposted term postings hp)
    exact of_decide_eq_true (require_ok hsize)
  · intro term id frequency hf
    have hp := get?_of_postingMap (by rw [hf]; rfl)
    obtain ⟨⟨⟩, -, hentries⟩ := bind_ok (hposted term _ hp)
    exact posting_of_validate (of_forM_ok hentries (id, frequency) (Dict.mem_entries.mpr hf))
  · intro id term ht
    unfold recordedTerms at ht
    cases hs : index.documentTerms.get? id with
    | none => simp [hs] at ht
    | some set =>
        rw [hs] at ht
        exact (document_of_validate (hrecorded id set hs)).1 term ht
  · intro id set hs
    exact (document_of_validate (hrecorded id set hs)).2

end Checks

section Recovery

theorem count_flatMap_replicate {elems : List String} (hnodup : elems.Nodup)
    (frequency : String → Nat) (term : String) :
    (elems.flatMap fun other => List.replicate (frequency other) other).count term =
      if term ∈ elems then frequency term else 0 := by
  induction elems with
  | nil => simp
  | cons first rest ih =>
      obtain ⟨hfirst, hrest⟩ := List.nodup_cons.mp hnodup
      rw [List.flatMap_cons, List.count_append, ih hrest, List.count_replicate]
      by_cases ht : term = first
      · subst ht
        simp [hfirst]
      · simp [ht, Ne.symm ht]

theorem recordedTerms_nodup (index : InvertedIndex) (id : String) :
    (index.recordedTerms id).Nodup := by
  unfold recordedTerms
  split
  · exact List.nodup_nil
  · rename_i set _
    exact set.nodup

theorem count_recoveredTokens (index : InvertedIndex) (id term : String) :
    (index.recoveredTokens id).count term =
      if term ∈ index.recordedTerms id then (index.termFrequency term id).toNat else 0 :=
  count_flatMap_replicate (index.recordedTerms_nodup id) _ term

theorem Checked.frequency_pos (h : Checked index) {id term : String}
    (ht : term ∈ index.recordedTerms id) :
    (index.postingMap term).get? id = some (index.termFrequency term id) ∧
      1 ≤ index.termFrequency term id := by
  obtain ⟨frequency, hf⟩ := Option.isSome_iff_exists.mp (h.recorded id term ht)
  have heq : index.termFrequency term id = frequency := by
    rw [termFrequency, Dict.getD, hf]
    rfl
  rw [heq]
  exact ⟨hf, (h.posting term id frequency hf).1⟩

theorem Checked.mem_recoveredTokens (h : Checked index) (id term : String) :
    term ∈ index.recoveredTokens id ↔ term ∈ index.recordedTerms id := by
  rw [← List.count_pos_iff, count_recoveredTokens]
  by_cases ht : term ∈ index.recordedTerms id
  · have hpos := (h.frequency_pos ht).2
    rw [if_pos ht]
    simp only [ht, iff_true]
    omega
  · simp [ht]

theorem Checked.occurrences_recovered (h : Checked index) (id term : String) :
    occurrences term (index.recoveredTokens id) = (index.postingMap term).get? id := by
  unfold occurrences
  by_cases ht : term ∈ index.recordedTerms id
  · obtain ⟨hf, hpos⟩ := h.frequency_pos ht
    rw [if_pos ((h.mem_recoveredTokens id term).mpr ht), count_recoveredTokens, if_pos ht, hf]
    congr 1
    omega
  · rw [if_neg (mt (h.mem_recoveredTokens id term).mp ht)]
    cases hf : (index.postingMap term).get? id with
    | none => rfl
    | some frequency => exact absurd (h.posting term id frequency hf).2 ht

theorem Checked.length_recovered (h : Checked index) {id : String} {set : FrozenSet String}
    (hs : index.documentTerms.get? id = some set) :
    ((index.recoveredTokens id).length : Int) =
      (set.elems.map fun term => index.termFrequency term id).sum := by
  have hterms : index.recordedTerms id = set.elems := by
    rw [recordedTerms, hs]
  have hsum : ∀ elems : List String, (∀ term ∈ elems, term ∈ index.recordedTerms id) →
      ((elems.flatMap fun term =>
        List.replicate (index.termFrequency term id).toNat term).length : Int) =
        (elems.map fun term => index.termFrequency term id).sum := by
    intro elems
    induction elems with
    | nil => exact fun _ => rfl
    | cons term rest ih =>
        intro hsub
        have hpos := (h.frequency_pos (hsub term (.head _))).2
        have hrest := ih fun other ho => hsub other (.tail _ ho)
        rw [List.flatMap_cons, List.length_append, List.length_replicate, List.map_cons,
          List.sum_cons, ← hrest]
        omega
  rw [recoveredTokens, hterms]
  exact hsum set.elems fun term ht => hterms ▸ ht

-- The postings of a checked index say which corpus it is an image of.
theorem Checked.image (h : Checked index) : index.Image index.recoveredCorpus.get? := by
  have hget : ∀ id, index.recoveredCorpus.get? id =
      (index.documentTerms.get? id).map fun _ => index.recoveredTokens id := by
    intro id
    simp only [recoveredCorpus, Dict.get?_comprehension, Dict.mem_keys]
    cases index.documentTerms.get? id <;> rfl
  refine ⟨fun term id => ?_, h.nonempty, fun id => ?_, fun id => ?_, h.total⟩
  · rw [hget]
    cases hs : index.documentTerms.get? id with
    | none =>
        cases hf : (index.postingMap term).get? id with
        | none => rfl
        | some frequency =>
            have hterm := (h.posting term id frequency hf).2
            simp [recordedTerms, hs] at hterm
    | some set => exact (h.occurrences_recovered id term).symm
  · rw [hget]
    cases hs : index.documentTerms.get? id with
    | none => exact .none
    | some set =>
        refine .some fun term => ?_
        rw [h.mem_recoveredTokens, recordedTerms, hs]
        rfl
  · rw [hget]
    cases hs : index.documentTerms.get? id with
    | none =>
        have hnone := h.coverage id
        rw [hs] at hnone
        simpa using hnone
    | some set =>
        rw [h.length id set hs, ← h.length_recovered hs]
        rfl

end Recovery

-- An index passes its validation exactly when indexing some corpus from scratch gives it.
theorem validate_iff_image (index : InvertedIndex) :
    index.validate = .ok () ↔ ∃ (corpus : Dict String (List String)) (built : InvertedIndex),
      fill corpus.entries = .ok built ∧ Same index built := by
  constructor
  · intro h
    have himage := (checked_of_validate h).image
    obtain ⟨built, hfill, hbuilt⟩ := fill_image (List.Perm.refl index.recoveredCorpus.entries)
    exact ⟨index.recoveredCorpus, built, hfill, himage.same hbuilt⟩
  · rintro ⟨corpus, built, hfill, hsame⟩
    obtain ⟨filled, hfilled, himage⟩ := fill_image (List.Perm.refl corpus.entries)
    cases hfill.symm.trans hfilled
    exact (hsame.image himage).validate

end PySearch.InvertedIndex
