import PySearch.Hybrid.Fusion
import Mathlib.Data.List.Dedup

namespace PySearch

open KeySort (sortedBy)

variable {α : Type}

-- The entry of a document in a ranked list, with its one-based rank.
def standing (hits : List (SearchResult α)) (documentId : String) :
    Option (SearchResult α × Nat) :=
  (hits.zipIdx 1).find? fun entry => entry.1.documentId = documentId

def rankIn (hits : List (SearchResult α)) (documentId : String) : Option Nat :=
  (standing hits documentId).map Prod.snd

def scoreIn (hits : List (SearchResult α)) (documentId : String) : Option α :=
  (standing hits documentId).map fun entry => entry.1.score

section Standing

variable {hits : List (SearchResult α)} {hit : SearchResult α} {rank : Nat} {id : String}

theorem standing_eq_some_iff (hnodup : (hits.map SearchResult.documentId).Nodup) :
    standing hits id = some (hit, rank) ↔
      hit.documentId = id ∧ 1 ≤ rank ∧ hits[rank - 1]? = some hit := by
  constructor
  · intro h
    have hid : hit.documentId = id := by simpa using List.find?_some h
    have hmem := List.mem_of_find?_eq_some h
    rw [List.mk_mem_zipIdx_iff_le_and_getElem?_sub] at hmem
    exact ⟨hid, hmem⟩
  · rintro ⟨hid, hrank⟩
    have hmem := List.mk_mem_zipIdx_iff_le_and_getElem?_sub.mpr hrank
    cases hfound : standing hits id with
    | none =>
        have hnone := List.find?_eq_none.mp hfound _ hmem
        simp [hid] at hnone
    | some found =>
        -- No other position carries the identifier.
        obtain ⟨other, position⟩ := found
        have hother : other.documentId = id := by simpa using List.find?_some hfound
        have hposition := List.mem_of_find?_eq_some hfound
        rw [List.mk_mem_zipIdx_iff_le_and_getElem?_sub] at hposition
        have hsame : (hits.map SearchResult.documentId)[position - 1]? =
            (hits.map SearchResult.documentId)[rank - 1]? := by
          rw [List.getElem?_map, List.getElem?_map, hposition.2, hrank.2]
          simp [hother, hid]
        have hlt : position - 1 < (hits.map SearchResult.documentId).length := by
          simpa using (List.getElem?_eq_some_iff.mp hposition.2).1
        have hindex := (List.getElem?_inj hlt hnodup).mp hsame
        have hequal : position = rank := by omega
        rw [hequal, hrank.2] at hposition
        simp [hequal, Option.some.inj hposition.2]

theorem standing_isSome : (standing hits id).isSome ↔ id ∈ hits.map SearchResult.documentId := by
  rw [standing, List.find?_isSome, List.mem_map]
  constructor
  · rintro ⟨⟨hit, rank⟩, hmem, hid⟩
    exact ⟨hit, List.fst_mem_of_mem_zipIdx hmem, by simpa using hid⟩
  · rintro ⟨hit, hmem, hid⟩
    obtain ⟨index, hindex⟩ := List.mem_iff_getElem?.mp hmem
    refine ⟨(hit, index + 1), List.mk_mem_zipIdx_iff_le_and_getElem?_sub.mpr ⟨by omega, ?_⟩, ?_⟩
    · simpa using hindex
    · simpa using hid

-- Cutting a list keeps the standings within the cut.
theorem standing_take (hnodup : (hits.map SearchResult.documentId).Nodup) (depth : Nat)
    (id : String) :
    standing (hits.take depth) id = (standing hits id).filter fun entry => entry.2 ≤ depth := by
  have htake : ((hits.take depth).map SearchResult.documentId).Nodup :=
    hnodup.sublist ((List.take_sublist _ _).map _)
  apply Option.ext
  rintro ⟨hit, rank⟩
  rw [standing_eq_some_iff htake, Option.filter_eq_some_iff, standing_eq_some_iff hnodup,
    List.getElem?_take]
  simp only [decide_eq_true_eq]
  constructor
  · rintro ⟨hid, hrank, hget⟩
    split at hget
    · exact ⟨⟨hid, hrank, hget⟩, by omega⟩
    · cases hget
  · rintro ⟨⟨hid, hrank, hget⟩, hdepth⟩
    rw [if_pos (by omega)]
    exact ⟨hid, hrank, hget⟩

theorem rankIn_take (hnodup : (hits.map SearchResult.documentId).Nodup) (depth : Nat) (id : String) :
    rankIn (hits.take depth) id = (rankIn hits id).filter fun rank => rank ≤ depth := by
  rw [rankIn, standing_take hnodup, rankIn]
  cases standing hits id with
  | none => rfl
  | some entry => by_cases h : entry.2 ≤ depth <;> simp [Option.filter, h]

end Standing

namespace Fusion

variable [Arith α]

-- The identifiers of either list, each once.
def unionIds (lexical semantic : SearchResults α) : List String :=
  ((lexical.results ++ semantic.results).map SearchResult.documentId).dedup

-- What a document contributes, given its standings in the two lists.
def merged (rrfK : Int) (lexical semantic : Option (SearchResult α × Nat)) (documentId : String) :
    Candidate α where
  documentId := documentId
  text := ((lexical <|> semantic).map fun entry => entry.1.text).getD ""
  lexicalRank := lexical.map Prod.snd
  semanticRank := semantic.map Prod.snd
  lexicalScore := lexical.map fun entry => entry.1.score
  semanticScore := semantic.map fun entry => entry.1.score
  score := (lexical.toList ++ semantic.toList).foldl
    (fun score entry => score + reciprocal rrfK entry.2) 0.0

def candidateOf (rrfK : Int) (lexical semantic : SearchResults α) (documentId : String) :
    Candidate α :=
  merged rrfK (standing lexical.results documentId) (standing semantic.results documentId)
    documentId

variable {lexical semantic : SearchResults α}

omit [Arith α] in
theorem zipIdx_ids (hits : List (SearchResult α)) :
    (hits.zipIdx 1).map (fun entry => entry.1.documentId) = hits.map SearchResult.documentId := by
  have hcomp : (fun entry : SearchResult α × Nat => entry.1.documentId) =
      SearchResult.documentId ∘ Prod.fst := rfl
  rw [hcomp, ← List.map_map, List.zipIdx_map_fst]

omit [Arith α] in
theorem mem_unionIds {id : String} : id ∈ unionIds lexical semantic ↔
    (standing lexical.results id).isSome ∨ (standing semantic.results id).isSome := by
  rw [unionIds, List.mem_dedup, List.map_append, List.mem_append, standing_isSome, standing_isSome]

-- One round of each loop, as an update of the document's own candidate.
def started (entry : SearchResult α × Nat) (found : Option (Candidate α)) : Candidate α :=
  found.getD ⟨entry.1.documentId, entry.1.text, none, none, none, none, 0.0⟩

def withLexical (rrfK : Int) (entry : SearchResult α × Nat) (found : Option (Candidate α)) :
    Candidate α :=
  { started entry found with
    lexicalRank := some entry.2
    lexicalScore := some entry.1.score
    score := (started entry found).score + reciprocal rrfK entry.2 }

def withSemantic (rrfK : Int) (entry : SearchResult α × Nat) (found : Option (Candidate α)) :
    Candidate α :=
  { started entry found with
    semanticRank := some entry.2
    semanticScore := some entry.1.score
    score := (started entry found).score + reciprocal rrfK entry.2 }

theorem addLexical_eq (rrfK : Int) : addLexical rrfK = fun (acc : Dict String (Candidate α)) entry =>
    acc.set entry.1.documentId (withLexical rrfK entry (acc.get? entry.1.documentId)) := rfl

theorem addSemantic_eq (rrfK : Int) :
    addSemantic rrfK = fun (acc : Dict String (Candidate α)) entry =>
      acc.set entry.1.documentId (withSemantic rrfK entry (acc.get? entry.1.documentId)) := rfl

omit [Arith α] in
-- A loop over a list touches each document at its standing, and no other.
theorem walk_get? (update : SearchResult α × Nat → Option (Candidate α) → Candidate α)
    {hits : List (SearchResult α)} (hnodup : (hits.map SearchResult.documentId).Nodup)
    (acc : Dict String (Candidate α)) (id : String) :
    ((hits.zipIdx 1).foldl (fun acc entry => acc.set entry.1.documentId
      (update entry (acc.get? entry.1.documentId))) acc).get? id =
      match standing hits id with
      | none => acc.get? id
      | some entry => some (update entry (acc.get? id)) := by
  have hids : ((hits.zipIdx 1).map fun entry => entry.1.documentId).Nodup := by
    rwa [zipIdx_ids]
  rw [Dict.get?_foldl_keyed (hits.zipIdx 1) _ update hids acc id]
  cases hfound : standing hits id with
  | none =>
      rw [standing] at hfound
      rw [hfound]
  | some entry =>
      rw [standing] at hfound
      rw [hfound]

omit [Arith α] in
theorem standing_id {hits : List (SearchResult α)} {id : String} {entry : SearchResult α × Nat}
    (h : standing hits id = some entry) : entry.1.documentId = id := by
  simpa using List.find?_some h

-- Walking the two lists leaves every document of the union with its merged contributions.
theorem candidates_get? (rrfK : Int)
    (hlexical : (lexical.results.map SearchResult.documentId).Nodup)
    (hsemantic : (semantic.results.map SearchResult.documentId).Nodup) (id : String) :
    (candidates rrfK lexical semantic).get? id =
      if id ∈ unionIds lexical semantic then some (candidateOf rrfK lexical semantic id)
      else none := by
  rw [candidates, addSemantic_eq, addLexical_eq, walk_get? _ hsemantic, walk_get? _ hlexical,
    candidateOf]
  simp only [mem_unionIds]
  cases hl : standing lexical.results id with
  | none =>
      cases hs : standing semantic.results id with
      | none => simp
      | some entry => simp [withSemantic, started, merged, standing_id hs]
  | some entry =>
      cases hs : standing semantic.results id with
      | none => simp [withLexical, started, merged, standing_id hl]
      | some other => simp [withLexical, withSemantic, started, merged, standing_id hl]

section Ranking

variable [LinearOrder α] {rrfK : Int}
  (hlexical : (lexical.results.map SearchResult.documentId).Nodup)
  (hsemantic : (semantic.results.map SearchResult.documentId).Nodup)

include hlexical hsemantic

omit [LinearOrder α] in
theorem candidates_values :
    (candidates rrfK lexical semantic).values.Perm
      ((unionIds lexical semantic).map (candidateOf rrfK lexical semantic)) := by
  have hget := candidates_get? rrfK hlexical hsemantic
  have hkeys : (candidates rrfK lexical semantic).keys.Perm (unionIds lexical semantic) := by
    apply (List.perm_ext_iff_of_nodup (Dict.keys_nodup _) (List.nodup_dedup _)).mpr
    intro id
    rw [Dict.mem_keys, hget]
    split
    · rename_i hid
      exact iff_of_true rfl hid
    · rename_i hid
      exact iff_of_false (by simp) hid
  refine List.Perm.trans (List.Perm.of_eq ?_) (hkeys.map (candidateOf rrfK lexical semantic))
  rw [Dict.values, Dict.keys, List.map_map]
  apply List.map_congr_left
  rintro ⟨id, candidate⟩ hmem
  have hfound := Dict.mem_entries.mp hmem
  rw [hget] at hfound
  split at hfound
  · exact (Option.some.inj hfound).symm
  · cases hfound

end Ranking

-- One document of the output.
def fusedHit (rrfK : Int) (lexical semantic : SearchResults α) (documentId : String) : HybridHit α :=
  toHit (candidateOf rrfK lexical semantic documentId)

-- The documents of the union in the order of the output.
def fusedOrder [LinearOrder α] (rrfK : Int) (lexical semantic : SearchResults α) : List String :=
  sortedBy (fun id => rankKey (candidateOf rrfK lexical semantic id).score id)
    (unionIds lexical semantic)

-- The output is the beginning of the union in the order of the fused scores.
theorem reciprocalRankFusion_eq [LinearOrder α]
    (hlexical : (lexical.results.map SearchResult.documentId).Nodup)
    (hsemantic : (semantic.results.map SearchResult.documentId).Nodup)
    {limit : Int} (hlimit : 1 ≤ limit) (config : FusionConfig) :
    reciprocalRankFusion lexical semantic limit config =
      .ok ⟨(unionIds lexical semantic).length,
        ((fusedOrder config.rrfK lexical semantic).take limit.toNat).map
          (fusedHit config.rrfK lexical semantic)⟩ := by
  have hvalues := @candidates_values _ _ _ _ config.rrfK hlexical hsemantic
  have hkeys : ((candidates config.rrfK lexical semantic).values.map fun candidate =>
      rankKey candidate.score candidate.documentId).Nodup := by
    rw [(hvalues.map _).nodup_iff, List.map_map]
    exact (List.nodup_dedup _).map fun _ _ h => rankKey_id h
  have hsize : (candidates config.rrfK lexical semantic).size =
      (unionIds lexical semantic).length := by
    simpa [Dict.values, Dict.size] using hvalues.length_eq
  rw [reciprocalRankFusion, if_neg (by omega)]
  simp only [hsize, KeySort.sortedBy_eq_of_perm hkeys hvalues, KeySort.sortedBy_map,
    KeySort.sliceTo_of_nonneg _ (by omega : 0 ≤ limit), ← List.map_take, List.map_map]
  rfl

end Fusion

end PySearch
