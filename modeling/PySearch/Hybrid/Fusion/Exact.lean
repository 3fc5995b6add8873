import PySearch.Hybrid.Fusion.Theorems
import Mathlib.Algebra.Order.Field.Basic
import Mathlib.Algebra.Order.Ring.Rat
import Mathlib.Data.List.ReduceOption
import Mathlib.Tactic.Positivity

namespace PySearch

open KeySort (sortedBy Precedes)

-- What a hit says besides its text, and the same with the two lists exchanged.
def HybridHit.facts {α : Type} (hit : HybridHit α) :
    String × α × (Option Nat × Option α) × Option Nat × Option α :=
  (hit.documentId, hit.score, (hit.lexicalRank, hit.lexicalScore),
    hit.semanticRank, hit.semanticScore)

def HybridHit.exchanged {α : Type} (hit : HybridHit α) :
    String × α × (Option Nat × Option α) × Option Nat × Option α :=
  (hit.documentId, hit.score, (hit.semanticRank, hit.semanticScore),
    hit.lexicalRank, hit.lexicalScore)

namespace Fusion

-- What one list contributes to the score of a document.
def gain (rrfK : Int) : Option Nat → ℚ
  | none => 0
  | some rank => 1 / (rrfK + rank)

-- The reciprocal rank fusion score: a sum over the ranks that the document has.
def rrfScore (rrfK : Int) (ranks : List (Option Nat)) : ℚ :=
  (ranks.reduceOption.map fun rank => 1 / ((rrfK : ℚ) + rank)).sum

def exactScore (rrfK : Int) (lexical semantic : SearchResults ℚ) (documentId : String) : ℚ :=
  rrfScore rrfK [rankIn lexical.results documentId, rankIn semantic.results documentId]

-- The union, sorted by descending score and ascending identifier.
def rrfOrder (rrfK : Int) (lexical semantic : SearchResults ℚ) : List String :=
  sortedBy (fun id => toLex (-exactScore rrfK lexical semantic id, id)) (unionIds lexical semantic)

-- In each of the lists that rank the second document, the first one is ranked better.
def RankedBetter (lists : List (List (SearchResult ℚ))) (better worse : String) : Prop :=
  ∀ hits ∈ lists, ∀ rank, rankIn hits worse = some rank →
    ∃ above, rankIn hits better = some above ∧ above < rank

section Arithmetic

variable {rrfK : Int}

theorem rrfScore_pair (first second : Option Nat) :
    rrfScore rrfK [first, second] = gain rrfK first + gain rrfK second := by
  cases first with
  | none => cases second <;> simp [rrfScore, gain]
  | some rank => cases second <;> simp [rrfScore, gain]

theorem gain_nonneg (hk : 1 ≤ rrfK) (rank : Option Nat) : 0 ≤ gain rrfK rank := by
  have hpos : (0 : ℚ) < rrfK := by exact_mod_cast hk
  cases rank with
  | none => exact le_refl 0
  | some rank =>
      unfold gain
      positivity

-- A better rank contributes more.
theorem gain_lt (hk : 1 ≤ rrfK) {above rank : Nat} (h : above < rank) :
    gain rrfK (some rank) < gain rrfK (some above) := by
  have hpos : (0 : ℚ) < rrfK := by exact_mod_cast hk
  have hlt : (above : ℚ) < rank := by exact_mod_cast h
  unfold gain
  apply one_div_lt_one_div_of_lt
  · positivity
  · exact add_lt_add_right hlt _

-- The first document scores more, as soon as some list ranks the second.
theorem exactScore_lt (hk : 1 ≤ rrfK) {lexical semantic : SearchResults ℚ} {better worse : String}
    (hbetter : RankedBetter [lexical.results, semantic.results] better worse)
    (hworse : worse ∈ unionIds lexical semantic) :
    exactScore rrfK lexical semantic worse < exactScore rrfK lexical semantic better := by
  have hgain : ∀ hits ∈ [lexical.results, semantic.results],
      gain rrfK (rankIn hits worse) ≤ gain rrfK (rankIn hits better) ∧
        ((standing hits worse).isSome →
          gain rrfK (rankIn hits worse) < gain rrfK (rankIn hits better)) := by
    intro hits hhits
    cases hrank : rankIn hits worse with
    | none =>
        refine ⟨gain_nonneg hk _, fun hsome => ?_⟩
        obtain ⟨entry, hentry⟩ := Option.isSome_iff_exists.mp hsome
        simp [rankIn, hentry] at hrank
    | some rank =>
        obtain ⟨above, habove, hlt⟩ := hbetter hits hhits rank hrank
        rw [habove]
        exact ⟨(gain_lt hk hlt).le, fun _ => gain_lt hk hlt⟩
  obtain ⟨hlexical, hlexicalLt⟩ := hgain lexical.results (by simp)
  obtain ⟨hsemantic, hsemanticLt⟩ := hgain semantic.results (by simp)
  rw [exactScore, exactScore, rrfScore_pair, rrfScore_pair]
  rcases mem_unionIds.mp hworse with hsome | hsome
  · exact add_lt_add_of_lt_of_le (hlexicalLt hsome) hsemantic
  · exact add_lt_add_of_le_of_lt hlexical (hsemanticLt hsome)

theorem rankedBetter_mem {lexical semantic : SearchResults ℚ} {better worse : String}
    (hbetter : RankedBetter [lexical.results, semantic.results] better worse)
    (hworse : worse ∈ unionIds lexical semantic) : better ∈ unionIds lexical semantic := by
  have hlisted : ∀ hits ∈ [lexical.results, semantic.results], (standing hits worse).isSome →
      (standing hits better).isSome := by
    intro hits hhits hsome
    obtain ⟨entry, hentry⟩ := Option.isSome_iff_exists.mp hsome
    obtain ⟨above, habove, -⟩ := hbetter hits hhits entry.2 (by simp [rankIn, hentry])
    rw [rankIn, Option.map_eq_some_iff] at habove
    obtain ⟨found, hfound, -⟩ := habove
    simp [hfound]
  rw [mem_unionIds] at hworse ⊢
  exact hworse.imp (hlisted _ (by simp)) (hlisted _ (by simp))

theorem unionIds_perm (lexical semantic : SearchResults ℚ) :
    (unionIds lexical semantic).Perm (unionIds semantic lexical) := by
  apply (List.perm_ext_iff_of_nodup (List.nodup_dedup _) (List.nodup_dedup _)).mpr
  intro id
  show id ∈ unionIds lexical semantic ↔ id ∈ unionIds semantic lexical
  rw [mem_unionIds, mem_unionIds, or_comm]

theorem exactScore_comm (lexical semantic : SearchResults ℚ) (id : String) :
    exactScore rrfK lexical semantic id = exactScore rrfK semantic lexical id := by
  rw [exactScore, exactScore, rrfScore_pair, rrfScore_pair, add_comm]

theorem rrfOrder_comm (lexical semantic : SearchResults ℚ) :
    rrfOrder rrfK lexical semantic = rrfOrder rrfK semantic lexical := by
  have hkeys : ((unionIds lexical semantic).map fun id =>
      toLex (-exactScore rrfK lexical semantic id, id)).Nodup :=
    (List.nodup_dedup _).map fun _ _ h => congrArg (fun key => (ofLex key).2) h
  rw [rrfOrder, KeySort.sortedBy_eq_of_perm hkeys (unionIds_perm lexical semantic), rrfOrder]
  simp only [exactScore_comm]

end Arithmetic

section Rational

attribute [local instance] rationalArith

variable {rrfK : Int} {lexical semantic : SearchResults ℚ}

theorem reciprocal_eq (rrfK : Int) (rank : Nat) :
    (reciprocal rrfK rank : ℚ) = gain rrfK (some rank) := by
  have hsum : (Arith.ofInt (rrfK + (rank : Int)) : ℚ) = rrfK + rank := by
    show ((rrfK + (rank : Int) : Int) : ℚ) = rrfK + rank
    push_cast
    rfl
  rw [reciprocal, hsum, rationalArith_ofScientific, gain]
  norm_num

theorem candidateOf_score (id : String) : (candidateOf rrfK lexical semantic id).score =
    exactScore rrfK lexical semantic id := by
  rw [candidateOf, exactScore, rrfScore_pair, rankIn, rankIn, merged]
  cases standing lexical.results id with
  | none =>
      cases standing semantic.results id with
      | none => simp [rationalArith_ofScientific, gain]
      | some entry => simp [rationalArith_ofScientific, reciprocal_eq, gain]
  | some entry =>
      cases standing semantic.results id with
      | none => simp [rationalArith_ofScientific, reciprocal_eq, gain]
      | some other => simp [rationalArith_ofScientific, reciprocal_eq, gain]

theorem fusedOrder_eq (rrfK : Int) (lexical semantic : SearchResults ℚ) :
    fusedOrder rrfK lexical semantic = rrfOrder rrfK lexical semantic := by
  unfold fusedOrder rrfOrder
  congr 1
  funext id
  rw [candidateOf_score]
  rfl

theorem fusedHit_facts (id : String) :
    (fusedHit rrfK lexical semantic id).facts =
      (id, exactScore rrfK lexical semantic id,
        (rankIn lexical.results id, scoreIn lexical.results id),
        rankIn semantic.results id, scoreIn semantic.results id) := by
  rw [← candidateOf_score]
  rfl

theorem fusedHit_exchanged (id : String) :
    (fusedHit rrfK lexical semantic id).exchanged = (fusedHit rrfK semantic lexical id).facts := by
  rw [fusedHit_facts, ← exactScore_comm, ← candidateOf_score]
  rfl

theorem fusion_run (hlexical : (lexical.results.map SearchResult.documentId).Nodup)
    (hsemantic : (semantic.results.map SearchResult.documentId).Nodup)
    {limit : Int} (hlimit : 1 ≤ limit) (config : FusionConfig) :
    reciprocalRankFusion lexical semantic limit config =
      .ok ⟨(unionIds lexical semantic).length,
        ((rrfOrder config.rrfK lexical semantic).take limit.toNat).map
          (fusedHit config.rrfK lexical semantic)⟩ := by
  rw [reciprocalRankFusion_eq hlexical hsemantic hlimit, fusedOrder_eq]

theorem fusedHits_ids (ids : List String) :
    (ids.map (fusedHit rrfK lexical semantic)).map HybridHit.documentId = ids := by
  rw [List.map_map]
  exact List.map_id ids

-- The output is the beginning of the union in the order of the exact scores, with the ranks
-- and scores of the lists. The lists may be exchanged, and what is ranked better by every
-- list comes first.
theorem fusion_exact (lexical semantic : SearchResults ℚ)
    (hlexical : (lexical.results.map SearchResult.documentId).Nodup)
    (hsemantic : (semantic.results.map SearchResult.documentId).Nodup)
    (limit : Int) (hlimit : 1 ≤ limit) (config : FusionConfig) :
    ∃ fused swapped,
      reciprocalRankFusion lexical semantic limit config = .ok fused ∧
      reciprocalRankFusion semantic lexical limit config = .ok swapped ∧
      fused.total = (unionIds lexical semantic).length ∧
      fused.results.map HybridHit.documentId =
        (rrfOrder config.rrfK lexical semantic).take limit.toNat ∧
      (fused.results.map HybridHit.documentId).Nodup ∧
      (∀ hit ∈ fused.results,
        hit.lexicalRank = rankIn lexical.results hit.documentId ∧
        hit.semanticRank = rankIn semantic.results hit.documentId ∧
        hit.score = rrfScore config.rrfK [hit.lexicalRank, hit.semanticRank] ∧
        hit.lexicalScore = scoreIn lexical.results hit.documentId ∧
        hit.semanticScore = scoreIn semantic.results hit.documentId) ∧
      swapped.total = fused.total ∧
      swapped.results.map HybridHit.facts = fused.results.map HybridHit.exchanged ∧
      ∀ better worse, worse ∈ fused.results.map HybridHit.documentId →
        RankedBetter [lexical.results, semantic.results] better worse →
        Precedes (fused.results.map HybridHit.documentId) better worse := by
  refine ⟨_, _, fusion_run hlexical hsemantic hlimit config,
    fusion_run hsemantic hlexical hlimit config, rfl, fusedHits_ids _, ?_, ?_,
    (unionIds_perm _ _).length_eq, ?_, ?_⟩
  · rw [fusedHits_ids]
    have hunion := (KeySort.sortedBy_perm (fun id =>
      toLex (-exactScore config.rrfK lexical semantic id, id)) (unionIds lexical semantic))
    exact (hunion.nodup_iff.mpr (List.nodup_dedup _)).sublist (List.take_sublist _ _)
  · intro hit hmem
    obtain ⟨id, -, rfl⟩ := List.mem_map.mp hmem
    exact ⟨rfl, rfl, candidateOf_score id, rfl, rfl⟩
  · rw [← rrfOrder_comm lexical semantic, List.map_map, List.map_map]
    exact List.map_congr_left fun id _ => (fusedHit_exchanged id).symm
  · intro better worse hworse hbetter
    rw [fusedHits_ids] at hworse ⊢
    have hunion := KeySort.mem_sortedBy.mp (List.mem_of_mem_take hworse)
    refine KeySort.precedes_take_sortedBy (rankedBetter_mem hbetter hunion) hworse ?_
    rw [Prod.Lex.toLex_lt_toLex]
    exact .inl (neg_lt_neg (exactScore_lt config.rrfK_pos hbetter hunion))

end Rational

section Example

attribute [local instance] rationalArith

-- The document that leads one list and the one that both lists have.
def lexicalPage : SearchResults ℚ := ⟨2, [⟨"a", 3, "red fox"⟩, ⟨"b", 2, "red"⟩]⟩

def semanticPage : SearchResults ℚ := ⟨2, [⟨"c", 1, "wolf"⟩, ⟨"b", 1/2, "red"⟩]⟩

theorem pages_fused :
    ∃ fused, reciprocalRankFusion lexicalPage semanticPage 2 .default = .ok fused ∧
      fused.total = 3 ∧ fused.results.map HybridHit.documentId = ["b", "a"] := by
  obtain ⟨fused, swapped, hfused, -, htotal, horder, -⟩ :=
    fusion_exact lexicalPage semanticPage (by decide) (by decide) 2 (by decide) .default
  refine ⟨fused, hfused, htotal.trans (by decide), horder.trans (by decide +kernel)⟩

end Example

end Fusion

end PySearch
