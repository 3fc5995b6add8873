import PySearch.Search.Index.Validation

namespace PySearch.InvertedIndex

open Script (exec exec_take_append exec_take_append_left)

variable {index middle : InvertedIndex} {corpus : Corpus} {id : String} {tokens : List String}
  {count : Nat}

section Remove

-- The deletion of postings touches nothing but postings.
theorem delete_statement_kept {terms : List String} :
    ∀ stmt ∈ terms.flatMap (fun term => [deletePosting id term, dropIfEmpty term]),
      ∀ before after : InvertedIndex, stmt before = .ok after →
        after.documentTerms = before.documentTerms ∧
          after.documentLengths = before.documentLengths := by
  intro stmt hstmt before after h
  obtain ⟨term, -, hpair⟩ := List.mem_flatMap.mp hstmt
  rcases List.mem_pair.mp hpair with rfl | rfl
  · unfold deletePosting at h
    split at h
    · cases h
    · split at h
      · cases h
        exact ⟨rfl, rfl⟩
      · cases h
  · unfold dropIfEmpty at h
    split at h
    · cases h
      exact ⟨rfl, rfl⟩
    · split at h
      · cases h
        exact ⟨rfl, rfl⟩
      · cases h
        exact ⟨rfl, rfl⟩

-- Between the first two statements of a removal and its last one the document has a length
-- and no terms.
theorem removeDocument_stopped (h : Image index corpus) (hid : corpus id = some tokens)
    (hexec : exec ((removeDocumentScript index id).take count) index = .ok middle) :
    (count ≤ 1 ∧ middle = index) ∨
    (2 ≤ count ∧ count < (removeDocumentScript index id).length ∧
      middle.documentTerms.get? id = none ∧ (middle.documentLengths.get? id).isSome) ∨
    ((removeDocumentScript index id).length ≤ count ∧
      Image middle (Function.update corpus id none)) := by
  have hlength : index.documentLengths.get? id = some (tokens.length : Int) := by
    rw [h.lengths, hid]; rfl
  obtain ⟨set, hset, -⟩ := h.terms_of_some hid
  have hrequire : requireIndexed id index = .ok index := by simp [requireIndexed, hlength]
  have hpop : popTerms id index =
      .ok { index with documentTerms := index.documentTerms.erase id } := by
    simp [popTerms, hset]
  by_cases hdone : (removeDocumentScript index id).length ≤ count
  · obtain ⟨after, hremove, himage⟩ := image_removeDocument h hid
    rw [List.take_of_length_le hdone] at hexec
    cases hexec.symm.trans hremove
    exact .inr (.inr ⟨hdone, himage⟩)
  by_cases hstarted : 2 ≤ count
  · have hstart : exec [requireIndexed id, popTerms id] index =
        .ok { index with documentTerms := index.documentTerms.erase id } := by
      simp [hrequire, hpop, Except.bind]
    refine .inr (.inl ⟨hstarted, by omega, ?_⟩)
    rw [removeDocumentScript, List.append_assoc, exec_take_append hstart hstarted,
      exec_take_append_left _ (by
        simp only [removeDocumentScript, List.length_append, List.length_cons, List.length_nil]
          at hdone ⊢
        omega)] at hexec
    have hkept := @Script.exec_invariant _ _
      (fun state => state.documentTerms.get? id = none ∧ (state.documentLengths.get? id).isSome)
      _ (fun stmt hstmt before after hstep hinv => by
        obtain ⟨hterms, hlengths⟩ := delete_statement_kept stmt (List.mem_of_mem_take hstmt)
          before after hstep
        rwa [hterms, hlengths]) _ _ hexec
    exact hkept ⟨by simp [Dict.get?_erase], by simp [hlength]⟩
  · left
    have hcount : count = 0 ∨ count = 1 := by omega
    rcases hcount with rfl | rfl
    · cases hexec
      exact ⟨by omega, rfl⟩
    · simp only [removeDocumentScript, List.cons_append, List.take_succ_cons, List.take_zero,
        Script.exec_cons, hrequire, Except.bind, Script.exec_nil] at hexec
      cases hexec
      exact ⟨by omega, rfl⟩

end Remove

section Insert

theorem insertScript_length (id : String) (tokens : List String) :
    (insertScript id tokens).length = (counter tokens).entries.length + 3 := by
  simp [insertScript]

-- Until its length is set the document is not in the index.
theorem insert_stopped_early (hid : index.documentLengths.get? id = none)
    (hcount : count + 2 ≤ (insertScript id tokens).length)
    (hexec : exec ((insertScript id tokens).take count) index = .ok middle) :
    middle.documentLengths.get? id = none := by
  have hstmts : (insertScript id tokens).take count =
      ((counter tokens).entries.map (setPosting id) ++
        [setTerms id (.ofKeys (counter tokens))]).take count := by
    rw [insertScript_length] at hcount
    have hsplit : insertScript id tokens = ((counter tokens).entries.map (setPosting id) ++
        [setTerms id (.ofKeys (counter tokens))]) ++
          [setLength id tokens.length, addLength tokens.length] := by simp [insertScript]
    rw [hsplit, List.take_append_of_le_length (by simp; omega)]
  rw [hstmts] at hexec
  refine @Script.exec_invariant _ _ (fun state => state.documentLengths.get? id = none) _
    (fun stmt hstmt before after hstep hinv => ?_) _ _ hexec hid
  rcases List.mem_append.mp (List.mem_of_mem_take hstmt) with hposting | hterms
  · obtain ⟨entry, -, rfl⟩ := List.mem_map.mp hposting
    cases hstep
    exact hinv
  · cases List.mem_singleton.mp hterms
    cases hstep
    exact hinv

-- With its length set, only the total is behind.
theorem insert_stopped_late (h : Image index corpus) (hid : corpus id = none)
    (hcount : count + 1 = (insertScript id tokens).length)
    (hexec : exec ((insertScript id tokens).take count) index = .ok middle) :
    Image { middle with totalLength := middle.totalLength + tokens.length }
      (Function.update corpus id (some tokens)) := by
  obtain ⟨after, hinsert, himage⟩ := image_insert tokens h hid
  have hsplit : insertScript id tokens =
      (insertScript id tokens).take count ++ [addLength tokens.length] := by
    have hlast : (insertScript id tokens).getLast? = some (addLength tokens.length) := by
      simp [insertScript]
    have hdrop := List.take_append_getLast? (insertScript id tokens)
    rw [hlast] at hdrop
    rw [show count = (insertScript id tokens).length - 1 by omega]
    exact hdrop.symm
  rw [hsplit, Script.exec_append, hexec] at hinsert
  cases hinsert
  exact himage

end Insert

-- Whether so many statements of `add_document` bring the index to its new corpus. The last
-- one adds the number of tokens to a total.
def Settled (index : InvertedIndex) (id : String) (tokens : List String) (count : Nat) : Prop :=
  (addDocumentScript index id tokens).length ≤ count ∨
    (tokens = [] ∧ (addDocumentScript index id tokens).length ≤ count + 1)

section Add

theorem insert_stopped (h : Image index corpus) (hid : corpus id = none)
    (hexec : exec ((insertScript id tokens).take count) index = .ok middle) :
    (middle.documentLengths.get? id = none ∧ count + 2 ≤ (insertScript id tokens).length) ∨
    ((insertScript id tokens).length ≤ count + 1 ∧
      Image { middle with totalLength := middle.totalLength +
          if (insertScript id tokens).length ≤ count then 0 else (tokens.length : Int) }
        (Function.update corpus id (some tokens))) := by
  by_cases hearly : count + 2 ≤ (insertScript id tokens).length
  · exact .inl ⟨insert_stopped_early (by rw [h.lengths, hid]; rfl) hearly hexec, hearly⟩
  by_cases hdone : (insertScript id tokens).length ≤ count
  · obtain ⟨after, hinsert, himage⟩ := image_insert tokens h hid
    rw [List.take_of_length_le hdone] at hexec
    cases hexec.symm.trans hinsert
    refine .inr ⟨by omega, ?_⟩
    rw [if_pos hdone, Int.add_zero]
    exact himage
  · refine .inr ⟨by omega, ?_⟩
    rw [if_neg hdone]
    exact insert_stopped_late h hid (by omega) hexec

-- What the engine's validation finds: the document is missing, or the index is not valid.
def Broken (index : InvertedIndex) (id : String) : Prop :=
  index.documentLengths.get? id = none ∨ index.validate ≠ .ok ()

theorem insert_settled_or_broken (h : Image index corpus) (hid : corpus id = none)
    (hexec : exec ((insertScript id tokens).take count) index = .ok middle) :
    (Broken middle id ∧ ¬((insertScript id tokens).length ≤ count ∨
      (tokens = [] ∧ (insertScript id tokens).length ≤ count + 1))) ∨
    (((insertScript id tokens).length ≤ count ∨
      (tokens = [] ∧ (insertScript id tokens).length ≤ count + 1)) ∧
      Image middle (Function.update corpus id (some tokens))) := by
  rcases insert_stopped h hid hexec with ⟨hmissing, hearly⟩ | ⟨hlate, himage⟩
  · exact .inl ⟨.inl hmissing, by omega⟩
  by_cases hdone : (insertScript id tokens).length ≤ count
  · rw [if_pos hdone, Int.add_zero] at himage
    exact .inr ⟨.inl hdone, himage⟩
  rw [if_neg hdone] at himage
  by_cases hempty : tokens = []
  · subst hempty
    rw [List.length_nil, Int.natCast_zero, Int.add_zero] at himage
    exact .inr ⟨.inr ⟨rfl, hlate⟩, himage⟩
  · refine .inl ⟨.inr fun hvalid => ?_, by tauto⟩
    have htotal := (checked_of_validate hvalid).total
    have hsum := himage.total
    have hlength := List.length_pos_of_ne_nil hempty
    dsimp only at hsum
    omega

-- A stopped `add_document` has not begun, can be told from the index alone, or is as good as
-- complete.
theorem addDocument_stopped (h : Image index corpus)
    (hexec : exec ((addDocumentScript index id tokens).take count) index = .ok middle) :
    ((corpus id).isSome ∧ count ≤ 1 ∧ middle = index ∧ ¬ Settled index id tokens count) ∨
    (Broken middle id ∧ ¬ Settled index id tokens count ∧ ((corpus id).isSome → 2 ≤ count)) ∨
    (Settled index id tokens count ∧ Image middle (Function.update corpus id (some tokens))) := by
  cases hid : corpus id with
  | none =>
      have hc : index.contains id = false := by simp [contains, Dict.contains, h.lengths, hid]
      have hscript : addDocumentScript index id tokens = insertScript id tokens := by
        rw [addDocumentScript, hc]
        rfl
      rw [hscript] at hexec
      rw [Settled, hscript]
      rcases insert_settled_or_broken h hid hexec with ⟨hbroken, hearly⟩ | hsettled
      · exact .inr (.inl ⟨hbroken, hearly, by simp⟩)
      · exact .inr (.inr hsettled)
  | some previous =>
      have hc : index.contains id = true := by simp [contains, Dict.contains, h.lengths, hid]
      have hscript : addDocumentScript index id tokens =
          removeDocumentScript index id ++ insertScript id tokens := by
        rw [addDocumentScript, hc, if_pos rfl]
      have hlength : (addDocumentScript index id tokens).length =
          (removeDocumentScript index id).length + (insertScript id tokens).length := by
        rw [hscript, List.length_append]
      have hinsert := insertScript_length id tokens
      by_cases hremoved : (removeDocumentScript index id).length ≤ count
      · obtain ⟨removed, hremove, himage⟩ := image_removeDocument h hid
        rw [hscript, exec_take_append hremove hremoved] at hexec
        rw [Settled, hlength]
        rcases insert_settled_or_broken himage (Function.update_self ..) hexec with
          ⟨hbroken, hearly⟩ | ⟨hlate, hfinal⟩
        · refine .inr (.inl ⟨hbroken, fun hsettled => hearly ?_, fun _ => ?_⟩)
          · rcases hsettled with hall | ⟨hempty, hall⟩
            · exact .inl (by omega)
            · exact .inr ⟨hempty, by omega⟩
          · simp only [removeDocumentScript, List.length_append, List.length_cons,
              List.length_nil] at hremoved
            omega
        · refine .inr (.inr ⟨?_, by simpa using hfinal⟩)
          rcases hlate with hall | ⟨hempty, hall⟩
          · exact .inl (by omega)
          · exact .inr ⟨hempty, by omega⟩
      · have hunsettled : ¬ Settled index id tokens count := by
          rw [Settled, hlength]
          omega
        rw [hscript, exec_take_append_left _ (by omega)] at hexec
        rcases removeDocument_stopped h hid hexec with ⟨hfew, hsame⟩ | ⟨hmany, -, hterms, hlengths⟩ |
          ⟨hall, -⟩
        · exact .inl ⟨rfl, hfew, hsame, hunsettled⟩
        · refine .inr (.inl ⟨.inr fun hvalid => ?_, hunsettled, fun _ => hmany⟩)
          have hcoverage := (checked_of_validate hvalid).coverage id
          rw [hterms] at hcoverage
          simp [hlengths] at hcoverage
        · exact absurd hall hremoved

theorem addDocumentScript_length (index : InvertedIndex) (id : String) (tokens : List String) :
    3 ≤ (addDocumentScript index id tokens).length := by
  rw [addDocumentScript, List.length_append, insertScript_length]
  omega

-- A stopped removal of an indexed document still has the document, unless it is complete.
theorem removeDocument_incomplete (h : Image index corpus) (hid : corpus id = some tokens)
    (hexec : exec ((removeDocumentScript index id).take count) index = .ok middle)
    (hcount : count < (removeDocumentScript index id).length) :
    (middle.documentLengths.get? id).isSome := by
  rcases removeDocument_stopped h hid hexec with ⟨-, rfl⟩ | ⟨-, -, -, hlengths⟩ | ⟨hall, -⟩
  · rw [h.lengths, hid]
    rfl
  · exact hlengths
  · omega

end Add

section Tokens

variable {other : Corpus} {tokens' : List String}

-- An index says which tokens a document has, and how often.
theorem Image.tokens_perm (h : Image index corpus) (h' : Image index other)
    (hid : corpus id = some tokens) (hid' : other id = some tokens') : tokens.Perm tokens' := by
  rw [List.perm_iff_count]
  intro term
  have hposting := (h.posting term id).symm.trans (h'.posting term id)
  rw [hid, hid', Option.bind_some, Option.bind_some, occurrences, occurrences] at hposting
  by_cases hterm : term ∈ tokens
  · by_cases hterm' : term ∈ tokens'
    · simpa [hterm, hterm'] using hposting
    · simp [hterm, hterm'] at hposting
  · by_cases hterm' : term ∈ tokens'
    · simp [hterm, hterm'] at hposting
    · rw [List.count_eq_zero_of_not_mem hterm, List.count_eq_zero_of_not_mem hterm']

-- The order of the tokens is not recorded.
theorem Image.update_perm (h : Image index corpus) (hid : corpus id = some tokens)
    (hperm : tokens.Perm tokens') : Image index (Function.update corpus id (some tokens')) where
  posting term key := by
    rw [h.posting]
    by_cases hkey : key = id
    · subst hkey
      rw [Function.update_self, hid, Option.bind_some, Option.bind_some, occurrences, occurrences,
        hperm.count_eq]
      simp only [hperm.mem_iff]
    · rw [Function.update_of_ne hkey]
  nonempty := h.nonempty
  terms key := by
    by_cases hkey : key = id
    · subst hkey
      rw [Function.update_self]
      have hrel := h.terms key
      rw [hid] at hrel
      generalize index.documentTerms.get? key = set at hrel ⊢
      cases hrel with
      | some hmem => exact .some fun term => (hmem term).trans hperm.mem_iff
    · rw [Function.update_of_ne hkey]
      exact h.terms key
  lengths key := by
    rw [h.lengths]
    by_cases hkey : key = id
    · subst hkey
      rw [Function.update_self, hid, Option.map_some, Option.map_some, hperm.length_eq]
    · rw [Function.update_of_ne hkey]
  total := h.total

end Tokens

end PySearch.InvertedIndex
