import PySearch.Search.Index
import Mathlib.Algebra.BigOperators.Group.List.Basic
import Mathlib.Algebra.Order.Group.Int
import Mathlib.Data.Option.Basic
import Mathlib.Data.List.Count
import Mathlib.Algebra.BigOperators.Group.List.Lemmas

namespace PySearch.InvertedIndex

open Script (exec)

-- A corpus in the terms of the index: the tokens of every indexed document.
abbrev Corpus := String → Option (List String)

def occurrences (term : String) (tokens : List String) : Option Int :=
  if term ∈ tokens then some (tokens.count term) else none

-- The index holds exactly the given corpus: each posting is a number of occurrences,
-- no posting map is empty, and the forward map and the lengths describe the same tokens.
structure Image (index : InvertedIndex) (corpus : Corpus) : Prop where
  posting : ∀ term id, (index.postingMap term).get? id = (corpus id).bind (occurrences term)
  nonempty : ∀ term postings, index.postings.get? term = some postings → postings.size ≠ 0
  terms : ∀ id, Option.Rel (fun set tokens => ∀ term, term ∈ set ↔ term ∈ tokens)
    (index.documentTerms.get? id) (corpus id)
  lengths : ∀ id, index.documentLengths.get? id = (corpus id).map fun tokens => tokens.length
  total : index.totalLength = index.documentLengths.values.sum

theorem image_empty : Image empty fun _ => none where
  posting _ _ := rfl
  nonempty _ _ h := by simp [empty] at h
  terms _ := .none
  lengths _ := rfl
  total := rfl

theorem Image.terms_of_some {index : InvertedIndex} {corpus : Corpus}
    (h : Image index corpus) {id : String} {tokens : List String}
    (hid : corpus id = some tokens) :
    ∃ set, index.documentTerms.get? id = some set ∧ ∀ term, term ∈ set ↔ term ∈ tokens := by
  have hr := h.terms id
  rw [hid] at hr
  cases hs : index.documentTerms.get? id with
  | none => rw [hs] at hr; cases hr
  | some set =>
      rw [hs] at hr
      cases hr with
      | some hm => exact ⟨set, rfl, hm⟩

theorem Image.corpus_of_terms {index : InvertedIndex} {corpus : Corpus}
    (h : Image index corpus) {id : String} {set : FrozenSet String}
    (hs : index.documentTerms.get? id = some set) :
    ∃ tokens, corpus id = some tokens ∧ ∀ term, term ∈ set ↔ term ∈ tokens := by
  have hr := h.terms id
  rw [hs] at hr
  cases hc : corpus id with
  | none => rw [hc] at hr; cases hr
  | some tokens =>
      rw [hc] at hr
      cases hr with
      | some hm => exact ⟨tokens, rfl, hm⟩

theorem foldl_counter (tokens : List String) (d : Dict String Int) (term : String) :
    (tokens.foldl (fun d token => d.set token (d.getD token 0 + 1)) d).get? term =
      if term ∈ tokens then some (d.getD term 0 + tokens.count term) else d.get? term := by
  induction tokens generalizing d with
  | nil => simp
  | cons token rest ih =>
      rw [List.foldl_cons, ih]
      by_cases ht : term = token
      · subst ht
        by_cases hr : term ∈ rest
        · simp only [hr, if_true, List.mem_cons, true_or, Dict.getD, Dict.get?_set_self,
            Option.getD_some, List.count_cons_self]
          congr 1
          omega
        · simp [hr, Dict.getD, List.count_eq_zero_of_not_mem hr]
      · simp [ht, Ne.symm ht, Dict.getD, Dict.get?_set]

theorem counter_get? (tokens : List String) (term : String) :
    (counter tokens).get? term = occurrences term tokens := by
  rw [counter, foldl_counter]
  simp [occurrences, Dict.getD]

theorem postingMap_set (index : InvertedIndex) (term other : String) (postings : Dict String Int) :
    ({ index with postings := index.postings.set term postings }).postingMap other =
      if other = term then postings else index.postingMap other := by
  simp only [postingMap, Dict.getD, Dict.get?_set]
  split <;> rfl

theorem get?_of_postingMap {index : InvertedIndex} {term id : String}
    (h : ((index.postingMap term).get? id).isSome) :
    index.postings.get? term = some (index.postingMap term) := by
  cases hp : index.postings.get? term with
  | none => simp [postingMap, Dict.getD, hp] at h
  | some postings => simp [postingMap, Dict.getD, hp]

-- What deleting one posting leaves of a posting map: nothing when it was the last.
def remainder (id : String) (postings : Dict String Int) : Option (Dict String Int) :=
  if (postings.erase id).size = 0 then none else some (postings.erase id)

-- One round of the removal loop touches the posting map of its own term only.
theorem exec_delete_term {index : InvertedIndex} {id term : String}
    (h : ((index.postingMap term).get? id).isSome) :
    ∃ postings, exec [deletePosting id term, dropIfEmpty term] index =
        .ok { index with postings := postings } ∧
      ∀ other, postings.get? other =
        if other = term then remainder id (index.postingMap term)
        else index.postings.get? other := by
  have hp := get?_of_postingMap h
  by_cases he : ((index.postingMap term).erase id).size = 0
  · refine ⟨(index.postings.set term ((index.postingMap term).erase id)).erase term, ?_, ?_⟩
    · simp [deletePosting, dropIfEmpty, hp, h, he, Except.bind]
    · intro other
      simp only [Dict.get?_erase, Dict.get?_set, remainder, he, if_true]
      split <;> rfl
  · refine ⟨index.postings.set term ((index.postingMap term).erase id), ?_, ?_⟩
    · simp [deletePosting, dropIfEmpty, hp, h, he, Except.bind]
    · intro other
      simp only [Dict.get?_set, remainder, he, if_false]

theorem exec_delete_terms {id : String} (terms : List String) (hnodup : terms.Nodup)
    (index : InvertedIndex) (h : ∀ term ∈ terms, ((index.postingMap term).get? id).isSome) :
    ∃ postings, exec (terms.flatMap fun term => [deletePosting id term, dropIfEmpty term]) index =
        .ok { index with postings := postings } ∧
      ∀ other, postings.get? other =
        if other ∈ terms then remainder id (index.postingMap other)
        else index.postings.get? other := by
  induction terms generalizing index with
  | nil => exact ⟨index.postings, rfl, by simp⟩
  | cons term rest ih =>
      obtain ⟨hterm, hrest⟩ := List.nodup_cons.mp hnodup
      obtain ⟨middle, hexec, hmiddle⟩ := exec_delete_term (h term (.head _))
      have hsame : ∀ other, other ≠ term →
          ({ index with postings := middle }).postingMap other = index.postingMap other := by
        intro other ho
        simp [postingMap, Dict.getD, hmiddle, ho]
      obtain ⟨postings, hfinal, hget⟩ := ih hrest { index with postings := middle } (by
        intro other ho
        rw [hsame other (by rintro rfl; exact hterm ho)]
        exact h other (.tail _ ho))
      refine ⟨postings, ?_, ?_⟩
      · rw [List.flatMap_cons, Script.exec_append, hexec]
        exact hfinal
      · intro other
        rw [hget]
        by_cases ho : other = term
        · subst ho
          simp [hterm, hmiddle]
        · simp only [List.mem_cons, ho, false_or, hsame other ho, hmiddle, if_false]

theorem get?_remainder (id other : String) (postings : Dict String Int) :
    ((remainder id postings).getD .empty).get? other =
      if other = id then none else postings.get? other := by
  unfold remainder
  split
  · rename_i he
    have hnone := Dict.size_eq_zero_iff.mp he other
    rw [Dict.get?_erase] at hnone
    rw [hnone]
    rfl
  · exact Dict.get?_erase _ _ _

theorem image_removeDocument {index : InvertedIndex} {corpus : Corpus} {id : String}
    {tokens : List String} (h : Image index corpus) (hid : corpus id = some tokens) :
    ∃ after, removeDocument index id = .ok after ∧ Image after (Function.update corpus id none) := by
  have hlength : index.documentLengths.get? id = some (tokens.length : Int) := by
    rw [h.lengths, hid]; rfl
  obtain ⟨set, hset, hmem⟩ := h.terms_of_some hid
  have hposting : ∀ term ∈ set.elems, ((index.postingMap term).get? id).isSome := by
    intro term ht
    have hm := (hmem term).mp ht
    simp [h.posting, hid, occurrences, hm]
  let popped : InvertedIndex := { index with documentTerms := index.documentTerms.erase id }
  obtain ⟨postings, hloop, hget⟩ := exec_delete_terms set.elems set.nodup popped hposting
  refine ⟨⟨postings, index.documentTerms.erase id, index.documentLengths.erase id,
    index.totalLength - tokens.length⟩, ?_, ?_⟩
  · have hterms : index.recordedTerms id = set.elems := by simp [recordedTerms, hset]
    rw [removeDocument, removeDocumentScript, hterms, Script.exec_append, Script.exec_append]
    have hstart : exec [requireIndexed id, popTerms id] index = .ok popped := by
      simp [requireIndexed, popTerms, hlength, hset, Except.bind, popped]
    rw [hstart]
    simp only [Except.bind, hloop]
    simp [popLength, hlength, popped, Except.bind]
  · -- outside the removed document nothing changed, inside it nothing is left
    have hmap : ∀ term other,
        ((postings.getD term .empty).get? other) =
          if other = id then none else (index.postingMap term).get? other := by
      intro term other
      by_cases ht : term ∈ set.elems
      · simp only [Dict.getD, hget, ht, if_true]
        exact get?_remainder id other (index.postingMap term)
      · have hnone : (index.postingMap term).get? id = none := by
          rw [h.posting, hid]
          simpa [occurrences] using fun hm => ht ((hmem term).mpr hm)
        simp only [Dict.getD, hget, ht, if_false]
        by_cases ho : other = id
        · subst ho
          simpa [postingMap, Dict.getD] using hnone
        · simp [ho, postingMap, Dict.getD, popped]
    constructor
    · intro term other
      change (postings.getD term .empty).get? other = _
      rw [hmap, h.posting]
      by_cases ho : other = id <;> simp [ho]
    · intro term found hf
      rw [hget] at hf
      split at hf
      · unfold remainder at hf
        split at hf
        · cases hf
        · rename_i hne
          cases hf
          exact hne
      · exact h.nonempty term found hf
    · intro other
      simp only [Dict.get?_erase]
      by_cases ho : other = id
      · subst ho
        simp
      · simpa [ho] using h.terms other
    · intro other
      simp only [Dict.get?_erase]
      by_cases ho : other = id
      · simp [ho]
      · simpa [ho] using h.lengths other
    · have hp := (Dict.entries_perm_erase hlength).map Prod.snd
      have hs : index.documentLengths.values.sum =
          tokens.length + (index.documentLengths.erase id).values.sum := by
        rw [Dict.values, hp.sum_eq, List.map_cons, List.sum_cons, Dict.values]
      simp only [h.total, hs]
      omega

-- The insertion loop writes the new document's postings and leaves every other one alone.
theorem exec_setPostings (id : String) (entries : List (String × Int))
    (hnodup : (entries.map Prod.fst).Nodup) (index : InvertedIndex) :
    ∃ postings, exec (entries.map (setPosting id)) index =
        .ok { index with postings := postings } ∧
      ∀ term, postings.get? term =
        match Dict.lookup term entries with
        | none => index.postings.get? term
        | some frequency => some ((index.postingMap term).set id frequency) := by
  induction entries generalizing index with
  | nil => exact ⟨index.postings, rfl, fun _ => rfl⟩
  | cons entry rest ih =>
      obtain ⟨term, frequency⟩ := entry
      obtain ⟨hterm, hrest⟩ := List.nodup_cons.mp hnodup
      let middle : InvertedIndex :=
        { index with postings := index.postings.set term ((index.postingMap term).set id frequency) }
      obtain ⟨postings, hexec, hget⟩ := ih hrest middle
      refine ⟨postings, ?_, ?_⟩
      · rw [List.map_cons, Script.exec_cons]
        exact hexec
      · intro other
        rw [hget]
        by_cases ho : term = other
        · subst ho
          have hnone : Dict.lookup term rest = none := by
            simpa [Dict.keys, Dict.get?] using
              mt (@Dict.mem_keys _ _ _ ⟨rest, hrest⟩ term).mpr hterm
          simp [hnone, Dict.lookup, middle]
        · have hmap : middle.postingMap other = index.postingMap other := by
            rw [postingMap_set, if_neg (Ne.symm ho)]
          simp [Dict.lookup, ho, hmap, middle, Dict.get?_set, Ne.symm ho]

theorem image_insert {index : InvertedIndex} {corpus : Corpus} {id : String}
    (tokens : List String) (h : Image index corpus) (hid : corpus id = none) :
    ∃ after, exec (insertScript id tokens) index = .ok after ∧
      Image after (Function.update corpus id (some tokens)) := by
  obtain ⟨postings, hloop, hget⟩ :=
    exec_setPostings id (counter tokens).entries (counter tokens).nodup index
  have hlookup : ∀ term, Dict.lookup term (counter tokens).entries = occurrences term tokens :=
    counter_get? tokens
  simp only [hlookup] at hget
  have hlength : index.documentLengths.get? id = none := by rw [h.lengths, hid]; rfl
  refine ⟨⟨postings, index.documentTerms.set id (.ofKeys (counter tokens)),
    index.documentLengths.set id tokens.length, index.totalLength + tokens.length⟩, ?_, ?_⟩
  · rw [insertScript, Script.exec_append, hloop]
    simp [setTerms, setLength, addLength, Except.bind]
  · have hmap : ∀ term other, (postings.getD term .empty).get? other =
        if other = id then occurrences term tokens else (index.postingMap term).get? other := by
      intro term other
      simp only [Dict.getD, hget]
      cases ho : occurrences term tokens with
      | none =>
          have hnone : (index.postingMap term).get? id = none := by rw [h.posting, hid]; rfl
          by_cases hi : other = id
          · subst hi
            simpa [postingMap, Dict.getD] using hnone
          · simp [hi, postingMap, Dict.getD]
      | some frequency => simp [Dict.get?_set]
    constructor
    · intro term other
      change (postings.getD term .empty).get? other = _
      rw [hmap, h.posting]
      by_cases ho : other = id <;> simp [ho]
    · intro term found hf
      rw [hget] at hf
      split at hf
      · exact h.nonempty term found hf
      · intro he
        cases hf
        simpa using Dict.size_eq_zero_iff.mp he id
    · intro other
      simp only [Dict.get?_set]
      by_cases ho : other = id
      · subst ho
        simp only [if_true, Function.update_self]
        apply Option.Rel.some
        intro term
        rw [FrozenSet.mem_ofKeys, counter_get?, occurrences]
        by_cases ht : term ∈ tokens <;> simp [ht]
      · simpa [ho] using h.terms other
    · intro other
      simp only [Dict.get?_set]
      by_cases ho : other = id
      · simp [ho]
      · simpa [ho] using h.lengths other
    · have hp := (Dict.set_entries_perm index.documentLengths id (tokens.length : Int)).map Prod.snd
      have hq := (Dict.values_perm (Dict.get?_erase_of_none hlength)).sum_eq
      have hs : (index.documentLengths.set id (tokens.length : Int)).values.sum =
          tokens.length + index.documentLengths.values.sum := by
        rw [← hq, Dict.values, hp.sum_eq, List.map_cons, List.sum_cons, Dict.values]
      simp only [h.total, hs]
      omega

-- Adding a document replaces whatever the index held under its identifier.
theorem image_addDocument {index : InvertedIndex} {corpus : Corpus} (id : String)
    (tokens : List String) (h : Image index corpus) :
    ∃ after, addDocument index id tokens = .ok after ∧
      Image after (Function.update corpus id (some tokens)) := by
  cases hid : corpus id with
  | none =>
      have hc : index.contains id = false := by simp [contains, Dict.contains, h.lengths, hid]
      obtain ⟨after, hexec, himage⟩ := image_insert tokens h hid
      refine ⟨after, ?_, himage⟩
      rw [addDocument, addDocumentScript, hc]
      exact hexec
  | some previous =>
      have hc : index.contains id = true := by simp [contains, Dict.contains, h.lengths, hid]
      obtain ⟨middle, hremove, hmiddle⟩ := image_removeDocument h hid
      obtain ⟨after, hexec, himage⟩ := image_insert tokens hmiddle (Function.update_self ..)
      refine ⟨after, ?_, by simpa using himage⟩
      rw [addDocument, addDocumentScript, hc, if_pos rfl, Script.exec_append]
      rw [removeDocument] at hremove
      rw [hremove]
      exact hexec

section Statistics

variable {index other : InvertedIndex} {corpus : Corpus}

theorem Image.postingMap_eq (h : Image index corpus) (h' : Image other corpus) (term id : String) :
    (index.postingMap term).get? id = (other.postingMap term).get? id := by
  rw [h.posting, h'.posting]

theorem Image.lengths_eq (h : Image index corpus) (h' : Image other corpus) (id : String) :
    index.documentLengths.get? id = other.documentLengths.get? id := by
  rw [h.lengths, h'.lengths]

theorem Image.documentCount_eq (h : Image index corpus) (h' : Image other corpus) :
    index.documentCount = other.documentCount := Dict.size_eq (h.lengths_eq h')

theorem Image.totalLength_eq (h : Image index corpus) (h' : Image other corpus) :
    index.totalLength = other.totalLength := by
  rw [h.total, h'.total, (Dict.values_perm (h.lengths_eq h')).sum_eq]

theorem Image.documentFrequency_eq (h : Image index corpus) (h' : Image other corpus)
    (term : String) : index.documentFrequency term = other.documentFrequency term := by
  simp only [documentFrequency, Dict.size_eq (h.postingMap_eq h' term)]

theorem Image.mem_vocabulary (h : Image index corpus) (term : String) :
    term ∈ index.postings.keys ↔ ∃ id tokens, corpus id = some tokens ∧ term ∈ tokens := by
  rw [Dict.mem_keys, Option.isSome_iff_exists]
  constructor
  · rintro ⟨postings, hp⟩
    have hne := h.nonempty term postings hp
    rw [Ne, Dict.size_eq_zero_iff, not_forall] at hne
    obtain ⟨id, hid⟩ := hne
    have hpost := h.posting term id
    simp only [postingMap, Dict.getD, hp, Option.getD_some] at hpost
    rw [hpost] at hid
    cases hc : corpus id with
    | none => simp [hc] at hid
    | some tokens =>
        refine ⟨id, tokens, hc, ?_⟩
        by_contra hn
        simp [hc, occurrences, hn] at hid
  · rintro ⟨id, tokens, hc, ht⟩
    exact ⟨_, get?_of_postingMap (by rw [h.posting, hc]; simp [occurrences, ht])⟩

theorem Image.uniqueTermCount_eq (h : Image index corpus) (h' : Image other corpus) :
    index.uniqueTermCount = other.uniqueTermCount := by
  have hp : index.postings.keys.Perm other.postings.keys := by
    apply (List.perm_ext_iff_of_nodup index.postings.nodup other.postings.nodup).mpr
    intro term
    exact (h.mem_vocabulary term).trans (h'.mem_vocabulary term).symm
  simpa [Dict.keys, uniqueTermCount, Dict.size] using hp.length_eq

-- The statistics of an index depend on its corpus alone, not on how it was built.
theorem Image.corpusStats_eq (h : Image index corpus) (h' : Image other corpus)
    (terms : List String) : index.corpusStats terms = other.corpusStats terms := by
  simp only [corpusStats, h.documentCount_eq h', h.totalLength_eq h',
    funext (h.documentFrequency_eq h')]

theorem Image.stats_eq {α : Type} [Arith α] (h : Image index corpus) (h' : Image other corpus) :
    (index.stats : IndexStats α) = other.stats := by
  have hc : index.documentLengths.size = other.documentLengths.size := h.documentCount_eq h'
  simp only [stats, h.documentCount_eq h', h.uniqueTermCount_eq h', averageDocumentLength,
    totalTokenCount, h.totalLength_eq h', hc]

-- Equality as the dictionaries of the source compare: by what they hold, in any order.
structure Same (index other : InvertedIndex) : Prop where
  postings : ∀ term, Option.Rel (fun a b => ∀ id, a.get? id = b.get? id)
    (index.postings.get? term) (other.postings.get? term)
  terms : ∀ id, Option.Rel (fun a b => ∀ term, term ∈ a ↔ term ∈ b)
    (index.documentTerms.get? id) (other.documentTerms.get? id)
  lengths : ∀ id, index.documentLengths.get? id = other.documentLengths.get? id
  total : index.totalLength = other.totalLength

theorem Image.same (h : Image index corpus) (h' : Image other corpus) : Same index other where
  postings term := by
    have hiff := (h.mem_vocabulary term).trans (h'.mem_vocabulary term).symm
    have heq := h.postingMap_eq h' term
    rw [Dict.mem_keys, Dict.mem_keys] at hiff
    simp only [postingMap, Dict.getD] at heq
    cases hp : index.postings.get? term with
    | none =>
        cases hq : other.postings.get? term with
        | none => exact .none
        | some postings => simp [hp, hq] at hiff
    | some postings =>
        cases hq : other.postings.get? term with
        | none => simp [hp, hq] at hiff
        | some others => exact .some (by simpa [hp, hq] using heq)
  terms id := by
    cases hs : index.documentTerms.get? id with
    | none =>
        cases hs' : other.documentTerms.get? id with
        | none => exact .none
        | some set =>
            obtain ⟨tokens, hc, -⟩ := h'.corpus_of_terms hs'
            obtain ⟨_, hfound, -⟩ := h.terms_of_some hc
            simp [hs] at hfound
    | some set =>
        obtain ⟨tokens, hc, hmem⟩ := h.corpus_of_terms hs
        obtain ⟨set', hs', hmem'⟩ := h'.terms_of_some hc
        rw [hs']
        exact .some fun term => (hmem term).trans (hmem' term).symm
  lengths := h.lengths_eq h'
  total := h.totalLength_eq h'

end Statistics

section Validation

theorem sum_occurrences {elems tokens : List String} (hnodup : elems.Nodup)
    (hmem : ∀ term, term ∈ elems ↔ term ∈ tokens) :
    (elems.map fun term => tokens.count term).sum = tokens.length := by
  have hp : elems.Perm tokens.dedup := by
    apply (List.perm_ext_iff_of_nodup hnodup tokens.nodup_dedup).mpr
    simp [hmem]
  rw [(hp.map fun term => tokens.count term).sum_eq, List.sum_map_count_dedup_eq_length]

theorem foldlM_sumFrequency {index : InvertedIndex} {corpus : Corpus} {id : String}
    {tokens : List String} (h : Image index corpus) (hid : corpus id = some tokens)
    (elems : List String) (hmem : ∀ term ∈ elems, term ∈ tokens) (summed : Int) :
    elems.foldlM (sumFrequency index id) summed =
      .ok (summed + ((elems.map fun term => tokens.count term).sum : Nat)) := by
  induction elems generalizing summed with
  | nil => simp; rfl
  | cons term rest ih =>
      have hp : (index.postingMap term).get? id = some (tokens.count term : Int) := by
        rw [h.posting, hid]
        simp [occurrences, hmem term (.head _)]
      rw [List.foldlM_cons, sumFrequency, hp]
      change rest.foldlM (sumFrequency index id) (summed + tokens.count term) = _
      rw [ih fun other ho => hmem other (.tail _ ho)]
      simp only [List.map_cons, List.sum_cons]
      congr 1
      omega

variable {index : InvertedIndex} {corpus : Corpus}

theorem Image.corpus_of_length (h : Image index corpus) {id : String} {length : Int}
    (hl : index.documentLengths.get? id = some length) :
    ∃ tokens, corpus id = some tokens ∧ length = tokens.length := by
  rw [h.lengths] at hl
  cases hc : corpus id with
  | none => simp [hc] at hl
  | some tokens => exact ⟨tokens, rfl, by simpa [hc, eq_comm] using hl⟩

theorem Image.validateCoverage (h : Image index corpus) :
    InvertedIndex.validateCoverage index = .ok () := by
  have hterms : index.documentTerms.keys.all index.documentLengths.contains = true := by
    rw [List.all_eq_true]
    intro id hid
    obtain ⟨set, hs⟩ := Option.isSome_iff_exists.mp (Dict.mem_keys.mp hid)
    obtain ⟨tokens, hc, -⟩ := h.corpus_of_terms hs
    simp [h.lengths, hc]
  have hlengths : index.documentLengths.keys.all index.documentTerms.contains = true := by
    rw [List.all_eq_true]
    intro id hid
    obtain ⟨length, hl⟩ := Option.isSome_iff_exists.mp (Dict.mem_keys.mp hid)
    obtain ⟨tokens, hc, -⟩ := h.corpus_of_length hl
    obtain ⟨set, hs, -⟩ := h.terms_of_some hc
    simp [hs]
  simp [InvertedIndex.validateCoverage, require, hterms, hlengths]

theorem Image.validateLengths (h : Image index corpus) :
    InvertedIndex.validateLengths index = .ok () := by
  have hall : index.documentLengths.values.all (fun length => 0 ≤ length) = true := by
    rw [List.all_eq_true]
    intro length hm
    obtain ⟨id, hl⟩ := Dict.mem_values.mp hm
    obtain ⟨tokens, -, rfl⟩ := h.corpus_of_length hl
    simp
  simp [InvertedIndex.validateLengths, require, hall]

theorem Image.validatePostings (h : Image index corpus) {term : String}
    {postings : Dict String Int} (hp : index.postings.get? term = some postings) :
    InvertedIndex.validatePostings index (term, postings) = .ok () := by
  have hposting : ∀ entry ∈ postings.entries, validatePosting index term entry = .ok () := by
    rintro ⟨id, frequency⟩ hm
    have hf := h.posting term id
    simp only [postingMap, Dict.getD, hp, Option.getD_some, Dict.mem_entries.mp hm] at hf
    cases hc : corpus id with
    | none => simp [hc] at hf
    | some tokens =>
        obtain ⟨set, hs, hset⟩ := h.terms_of_some hc
        by_cases ht : term ∈ tokens
        · have hpos : 1 ≤ frequency := by
            have hcount := List.count_pos_iff.mpr ht
            simp only [hc, Option.bind_some, occurrences, ht, if_true, Option.some.injEq] at hf
            omega
          have hlength : index.documentLengths.contains id = true := by simp [h.lengths, hc]
          have hmem : term ∈ set := (hset term).mpr ht
          simp [validatePosting, require, hlength, hpos, hs, hmem, Bind.bind, Except.bind]
        · simp [hc, occurrences, ht] at hf
  have hne : postings.size ≠ 0 := h.nonempty term postings hp
  have hsize : require (postings.size ≠ 0) (.emptyPostings term) = .ok () := by simp [require, hne]
  rw [InvertedIndex.validatePostings, hsize]
  exact forM_ok _ _ hposting

theorem Image.validateDocument (h : Image index corpus) {id : String} {set : FrozenSet String}
    (hs : index.documentTerms.get? id = some set) :
    InvertedIndex.validateDocument index (id, set) = .ok () := by
  obtain ⟨tokens, hc, hmem⟩ := h.corpus_of_terms hs
  have hl : index.documentLengths.get? id = some (tokens.length : Int) := by
    rw [h.lengths, hc]; rfl
  have hsum := foldlM_sumFrequency h hc set.elems (fun term ht => (hmem term).mp ht) 0
  rw [sum_occurrences set.nodup hmem, Int.zero_add] at hsum
  simp [InvertedIndex.validateDocument, hsum, hl, require, Bind.bind, Except.bind]

-- An index that holds a corpus passes its own validation.
theorem Image.validate (h : Image index corpus) : InvertedIndex.validate index = .ok () := by
  have htotal : InvertedIndex.validateTotal index = .ok () := by
    simp [InvertedIndex.validateTotal, require, h.total]
  have hpostings := forM_ok index.postings.entries (InvertedIndex.validatePostings index)
    fun _ hm => h.validatePostings (Dict.mem_entries.mp hm)
  have hdocuments := forM_ok index.documentTerms.entries (InvertedIndex.validateDocument index)
    fun _ hm => h.validateDocument (Dict.mem_entries.mp hm)
  rw [InvertedIndex.validate, h.validateCoverage, htotal, h.validateLengths, hpostings, hdocuments]
  rfl

end Validation

section Statistics

variable {δ : Type} {index : InvertedIndex} {rows : Dict String δ} {tokens : δ → List String}

-- The recorded lengths are those of the documents, in some order.
theorem Image.lengths_perm (h : index.Image fun id => (rows.get? id).map tokens) :
    index.documentLengths.entries.Perm
      (rows.entries.map fun entry => (entry.1, ((tokens entry.2).length : Int))) := by
  have hperm := Dict.entries_perm_bind (f := fun document =>
      some ((tokens document).length : Int)) fun id => by
    rw [h.lengths id, Option.map_map]
    cases rows.get? id <;> rfl
  simpa using hperm

theorem Image.documentCount_size (h : index.Image fun id => (rows.get? id).map tokens) :
    index.documentCount = rows.size := by
  simpa [documentCount, Dict.size] using h.lengths_perm.length_eq

theorem Image.totalLength_sum (h : index.Image fun id => (rows.get? id).map tokens) :
    index.totalLength = (rows.values.map fun document => ((tokens document).length : Int)).sum := by
  rw [h.total, Dict.values, (h.lengths_perm.map Prod.snd).sum_eq]
  simp [Dict.values, Function.comp_def]

theorem Image.documentFrequency_count (h : index.Image fun id => (rows.get? id).map tokens)
    (term : String) : index.documentFrequency term =
      (rows.values.countP fun document => term ∈ tokens document : Nat) := by
  have hposting := Dict.entries_perm_bind (f := fun document =>
      occurrences term (tokens document)) fun id => by
    rw [h.posting term id]
    cases rows.get? id <;> rfl
  rw [documentFrequency, Dict.size, hposting.length_eq, List.length_filterMap_eq_countP,
    Dict.values, List.countP_map]
  congr 2
  funext entry
  simp only [occurrences, Function.comp_def]
  split <;> simp_all

end Statistics

end PySearch.InvertedIndex
