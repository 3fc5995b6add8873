import PySearch.Search.Arith.Real
import PySearch.Search.Ranking.Statistics
import Mathlib.Tactic.Linarith
import Mathlib.Tactic.Positivity
import Mathlib.Tactic.FieldSimp

namespace PySearch.BM25Scorer

open InvertedIndex (Call performAll remaining mergedStats)

section Saturation

variable {k1 b normalizer average frequency more : ℝ}

-- The share of the limit that a term frequency reaches.
theorem saturation_lt (hk1 : 0 < k1) (hnormalizer : 0 < normalizer) (hfrequency : 0 ≤ frequency) :
    frequency * (k1 + 1) / (frequency + normalizer) < k1 + 1 := by
  rw [div_lt_iff₀ (by linarith)]
  nlinarith [mul_pos hnormalizer (by linarith : 0 < k1 + 1)]

theorem saturation_increases (hk1 : 0 < k1) (hnormalizer : 0 < normalizer)
    (hfrequency : 0 ≤ frequency) (hmore : frequency < more) :
    frequency * (k1 + 1) / (frequency + normalizer) < more * (k1 + 1) / (more + normalizer) := by
  rw [div_lt_div_iff₀ (by linarith) (by linarith)]
  have hgain := mul_lt_mul_of_pos_right hmore (mul_pos hnormalizer (by linarith : 0 < k1 + 1))
  linarith

theorem saturation_decreases {larger : ℝ} (hk1 : 0 < k1) (hnormalizer : 0 < normalizer)
    (hlarger : normalizer < larger) (hfrequency : 0 < frequency) :
    frequency * (k1 + 1) / (frequency + larger) < frequency * (k1 + 1) / (frequency + normalizer) :=
  div_lt_div_of_pos_left (by positivity) (by linarith) (by linarith)

end Saturation

-- What the denominator adds to the term frequency.
noncomputable def normalizer (params : BM25Params ℝ) (average : ℝ) (length : Int) : ℝ :=
  params.k1 * (1 - params.b + params.b * (length / average))

-- The ranges of the parameters.
structure Proper (params : BM25Params ℝ) : Prop where
  k1 : 0 < params.k1
  b : 0 < params.b
  lt : params.b < 1

attribute [local instance] realArith partialArith

section Contribution

variable {params : BM25Params ℝ} {documentFrequency documentCount frequency length : Int}
  {idf average : ℝ}

theorem inverseDocumentFrequency_real (documentFrequency documentCount : Int) :
    (inverseDocumentFrequency documentFrequency documentCount : ℝ) =
      Real.log (1 + (documentCount - documentFrequency + 1 / 2) / (documentFrequency + 1 / 2)) := by
  simp only [inverseDocumentFrequency, realArith_ofScientific, realArith_ofInt, realArith_log,
    if_true]
  norm_num

theorem contribution_real (params : BM25Params ℝ) (idf average : ℝ) (frequency length : Int) :
    contribution params idf average frequency length =
      idf * (frequency * (params.k1 + 1) / (frequency + normalizer params average length)) := by
  simp only [contribution, normalizer, realArith_ofScientific, realArith_ofInt, if_true]
  norm_num
  rw [mul_div_assoc]

-- The argument of the logarithm, on one fraction bar.
theorem argument_eq (h : 0 ≤ documentFrequency) (documentCount : Int) :
    1 + ((documentCount : ℝ) - documentFrequency + 1 / 2) / (documentFrequency + 1 / 2) =
      (documentCount + 1) / (documentFrequency + 1 / 2) := by
  have hcast : (0 : ℝ) ≤ documentFrequency := by exact_mod_cast h
  field_simp
  ring

theorem argument_pos (h : 0 ≤ documentFrequency) (hcount : 0 ≤ documentCount) :
    0 < 1 + ((documentCount : ℝ) - documentFrequency + 1 / 2) / (documentFrequency + 1 / 2) := by
  have hcast : (0 : ℝ) ≤ documentFrequency := by exact_mod_cast h
  have hcounts : (0 : ℝ) ≤ documentCount := by exact_mod_cast hcount
  rw [argument_eq h]
  positivity

theorem inverseDocumentFrequency_pos (h : 0 ≤ documentFrequency)
    (hle : documentFrequency ≤ documentCount) :
    0 < (inverseDocumentFrequency documentFrequency documentCount : ℝ) := by
  have hcast : (0 : ℝ) ≤ documentFrequency := by exact_mod_cast h
  have hrest : (documentFrequency : ℝ) ≤ documentCount := by exact_mod_cast hle
  have hratio : 0 < ((documentCount : ℝ) - documentFrequency + 1 / 2) / (documentFrequency + 1 / 2) :=
    div_pos (by linarith) (by linarith)
  rw [inverseDocumentFrequency_real]
  exact Real.log_pos (by linarith)

-- The more documents contain a term, the less it says.
theorem inverseDocumentFrequency_decreases {more : Int} (h : 0 ≤ documentFrequency)
    (hmore : documentFrequency < more) (hcount : 0 ≤ documentCount) :
    (inverseDocumentFrequency more documentCount : ℝ) <
      inverseDocumentFrequency documentFrequency documentCount := by
  have hcast : (0 : ℝ) ≤ documentFrequency := by exact_mod_cast h
  have hcounts : (0 : ℝ) ≤ documentCount := by exact_mod_cast hcount
  have hlt : (documentFrequency : ℝ) < more := by exact_mod_cast hmore
  rw [inverseDocumentFrequency_real, inverseDocumentFrequency_real]
  apply Real.log_lt_log (argument_pos (by omega) hcount)
  rw [argument_eq h, argument_eq (by omega)]
  exact div_lt_div_of_pos_left (by linarith) (by linarith) (by linarith)

theorem normalizer_pos (hp : Proper params) (haverage : 0 < average) (hlength : 0 ≤ length) :
    0 < normalizer params average length := by
  have hcast : (0 : ℝ) ≤ length := by exact_mod_cast hlength
  have hratio : 0 ≤ params.b * (length / average) :=
    mul_nonneg hp.b.le (div_nonneg hcast haverage.le)
  have hlt := hp.lt
  exact mul_pos hp.k1 (by linarith)

theorem normalizer_increases {longer : Int} (hp : Proper params) (haverage : 0 < average)
    (h : length < longer) : normalizer params average length < normalizer params average longer := by
  have hcast : (length : ℝ) < longer := by exact_mod_cast h
  have hratio := mul_lt_mul_of_pos_left (div_lt_div_of_pos_right hcast haverage) hp.b
  exact mul_lt_mul_of_pos_left (by linarith) hp.k1

theorem contribution_pos (hp : Proper params) (hidf : 0 < idf) (haverage : 0 < average)
    (hfrequency : 1 ≤ frequency) (hlength : 0 ≤ length) :
    0 < contribution params idf average frequency length := by
  have hcast : (1 : ℝ) ≤ frequency := by exact_mod_cast hfrequency
  have hnormalizer := normalizer_pos hp haverage hlength
  have hk1 := hp.k1
  rw [contribution_real]
  exact mul_pos hidf (div_pos (mul_pos (by linarith) (by linarith)) (by linarith))

theorem contribution_lt (hp : Proper params) (hidf : 0 < idf) (haverage : 0 < average)
    (hfrequency : 0 ≤ frequency) (hlength : 0 ≤ length) :
    contribution params idf average frequency length < idf * (params.k1 + 1) := by
  rw [contribution_real]
  exact mul_lt_mul_of_pos_left (saturation_lt hp.k1 (normalizer_pos hp haverage hlength)
    (by exact_mod_cast hfrequency)) hidf

theorem contribution_frequency {more : Int} (hp : Proper params) (hidf : 0 < idf)
    (haverage : 0 < average) (hfrequency : 0 ≤ frequency) (hmore : frequency < more)
    (hlength : 0 ≤ length) : contribution params idf average frequency length <
      contribution params idf average more length := by
  rw [contribution_real, contribution_real]
  exact mul_lt_mul_of_pos_left (saturation_increases hp.k1 (normalizer_pos hp haverage hlength)
    (by exact_mod_cast hfrequency) (by exact_mod_cast hmore)) hidf

theorem contribution_length {longer : Int} (hp : Proper params) (hidf : 0 < idf)
    (haverage : 0 < average) (hfrequency : 1 ≤ frequency) (hlength : 0 ≤ length)
    (hlonger : length < longer) : contribution params idf average frequency longer <
      contribution params idf average frequency length := by
  have hcast : (1 : ℝ) ≤ frequency := by exact_mod_cast hfrequency
  rw [contribution_real, contribution_real]
  exact mul_lt_mul_of_pos_left (saturation_decreases hp.k1 (normalizer_pos hp haverage hlength)
    (normalizer_increases hp haverage hlonger) (by linarith)) hidf

theorem contribution_idf {weaker : ℝ} (hp : Proper params) (hweaker : weaker < idf)
    (haverage : 0 < average) (hfrequency : 1 ≤ frequency) (hlength : 0 ≤ length) :
    contribution params weaker average frequency length <
      contribution params idf average frequency length := by
  have hcast : (1 : ℝ) ≤ frequency := by exact_mod_cast hfrequency
  have hnormalizer := normalizer_pos hp haverage hlength
  have hk1 := hp.k1
  rw [contribution_real, contribution_real]
  exact mul_lt_mul_of_pos_right hweaker
    (div_pos (mul_pos (by linarith) (by linarith)) (by linarith))

end Contribution

section Score

variable {params : BM25Params ℝ} {stats : CorpusStats} {terms tokens : List String}

theorem averageDocumentLength_pos (hcount : 0 < stats.documentCount)
    (hlength : 0 < stats.totalDocumentLength) : 0 < (stats.averageDocumentLength : ℝ) := by
  rw [CorpusStats.averageDocumentLength, if_neg (by omega), realArith_intDiv]
  exact div_pos (by exact_mod_cast hlength) (by exact_mod_cast hcount)

-- Past the guard the average length is positive.
theorem average_pos_of_guard (hstats : stats.NonNegative)
    (h : ¬(stats.documentCount = 0 ∨ (stats.averageDocumentLength : ℝ) = 0.0)) :
    0 < stats.documentCount ∧ 0 < (stats.averageDocumentLength : ℝ) := by
  have hcount := hstats.documentCount
  obtain ⟨hzero, haverage⟩ := not_or.mp h
  have hlength : stats.totalDocumentLength ≠ 0 := by
    intro hempty
    apply haverage
    simp [CorpusStats.averageDocumentLength, hzero, hempty]
  have hlengths := hstats.totalDocumentLength
  exact ⟨by omega, averageDocumentLength_pos (by omega) (by omega)⟩

theorem occurrences_bounds {term : String} {frequency : Int}
    (h : InvertedIndex.occurrences term tokens = some frequency) : 1 ≤ frequency := by
  unfold InvertedIndex.occurrences at h
  split at h
  · rename_i hmem
    cases h
    have hcount := List.count_pos_iff.mpr hmem
    omega
  · cases h

theorem addTerm_positive (hp : Proper params) (hstats : stats.Counted) {average : ℝ}
    (haverage : 0 < average) {score : Option ℝ} (hscore : ∀ value, score = some value → 0 < value)
    (term : String) :
    (∀ value, score = some value →
      ∃ higher, addTerm params stats average tokens score term = some higher ∧ value ≤ higher) ∧
    ∀ value, addTerm params stats average tokens score term = some value → 0 < value := by
  unfold addTerm
  cases hfrequency : InvertedIndex.occurrences term tokens with
  | none => exact ⟨fun value hv => ⟨value, hv, le_rfl⟩, hscore⟩
  | some frequency =>
      have hgain := contribution_pos hp (inverseDocumentFrequency_pos
        (hstats.documentFrequency term) (hstats.bounded term)) haverage
        (occurrences_bounds hfrequency) (Int.natCast_nonneg tokens.length)
      dsimp only
      refine ⟨?_, ?_⟩
      · rintro value rfl
        exact ⟨_, rfl, by simpa using hgain.le⟩
      · intro value hv
        cases score with
        | none =>
            cases hv
            simpa using hgain
        | some earlier =>
            have hearlier := hscore earlier rfl
            cases hv
            exact add_pos hearlier hgain

theorem foldl_addTerm_positive (hp : Proper params) (hstats : stats.Counted) {average : ℝ}
    (haverage : 0 < average) (terms : List String) {score : Option ℝ}
    (hscore : ∀ value, score = some value → 0 < value) :
    ∀ value, terms.foldl (addTerm params stats average tokens) score = some value → 0 < value := by
  induction terms generalizing score with
  | nil => exact hscore
  | cons term rest ih => exact ih (addTerm_positive hp hstats haverage hscore term).2

theorem documentScore_pos (hp : Proper params) (hstats : stats.Counted) {score : ℝ}
    (h : documentScore params stats terms tokens = some score) : 0 < score := by
  unfold documentScore at h
  dsimp only at h
  split at h
  · cases h
  · rename_i hguard
    exact foldl_addTerm_positive hp hstats (average_pos_of_guard hstats.toNonNegative hguard).2
      terms (by simp) score h

-- One more term never lowers a score.
theorem documentScore_append (hp : Proper params) (hstats : stats.Counted) {score : ℝ}
    (h : documentScore params stats terms tokens = some score) (term : String) :
    ∃ higher, documentScore params stats (terms ++ [term]) tokens = some higher ∧
      score ≤ higher := by
  unfold documentScore at h ⊢
  dsimp only at h ⊢
  split at h
  · cases h
  · rename_i hguard
    have haverage := (average_pos_of_guard hstats.toNonNegative hguard).2
    rw [if_neg hguard, List.foldl_append]
    exact (addTerm_positive hp hstats haverage
      (foldl_addTerm_positive hp hstats haverage terms (by simp)) term).1 score h

end Score

noncomputable def partialParams (params : BM25Params ℝ) : BM25Params (WithBot ℝ) :=
  ⟨params.k1, params.b⟩

section Partial

variable {params : BM25Params ℝ} {stats : CorpusStats} {frequency length : Int} {average : ℝ}

theorem partialArith_literal (mantissa : ℕ) (negative : Bool) (exponent : ℕ) :
    (OfScientific.ofScientific mantissa negative exponent : WithBot ℝ) =
      ((OfScientific.ofScientific mantissa negative exponent : ℝ) : WithBot ℝ) := rfl

theorem averageDocumentLength_partialArith (stats : CorpusStats) :
    (stats.averageDocumentLength : WithBot ℝ) = ((stats.averageDocumentLength : ℝ) : WithBot ℝ) := by
  unfold CorpusStats.averageDocumentLength
  by_cases hzero : stats.documentCount = 0
  · rw [if_pos hzero, if_pos hzero]
    rfl
  · rw [if_neg hzero, if_neg hzero, partialArith_intDiv hzero]

theorem inverseDocumentFrequency_partialArith {documentFrequency documentCount : Int}
    (h : 0 ≤ documentFrequency) (hcount : 0 ≤ documentCount) :
    (inverseDocumentFrequency documentFrequency documentCount : WithBot ℝ) =
      ((inverseDocumentFrequency documentFrequency documentCount : ℝ) : WithBot ℝ) := by
  have hcast : (0 : ℝ) ≤ documentFrequency := by exact_mod_cast h
  have hdenominator : (Arith.ofInt documentFrequency + 0.5 : ℝ) ≠ 0 := by
    rw [realArith_ofScientific, realArith_ofInt, if_pos rfl]
    norm_num
    linarith
  have hargument : (0 : ℝ) < 1.0 + (Arith.ofInt (documentCount - documentFrequency) + 0.5) /
      (Arith.ofInt documentFrequency + 0.5) := by
    simp only [realArith_ofScientific, realArith_ofInt, if_true]
    norm_num
    exact argument_pos h hcount
  exact (congrArg (fun ratio : WithBot ℝ => Arith.log (1.0 + ratio))
    (partialArith_div hdenominator)).trans (partialArith_log hargument)

theorem contribution_partialArith (hp : Proper params) (idf : ℝ) (haverage : 0 < average)
    (hfrequency : 1 ≤ frequency) (hlength : 0 ≤ length) :
    contribution (partialParams params) (idf : WithBot ℝ) (average : WithBot ℝ) frequency length =
      ((contribution params idf average frequency length : ℝ) : WithBot ℝ) := by
  have hcast : (1 : ℝ) ≤ frequency := by exact_mod_cast hfrequency
  have hnormalizer := normalizer_pos hp haverage hlength
  have hsaturation : (Arith.ofInt frequency + params.k1 *
      (1.0 - params.b + params.b * (Arith.ofInt length / average)) : ℝ) ≠ 0 := by
    unfold normalizer at hnormalizer
    simp only [realArith_ofScientific, realArith_ofInt, if_true]
    norm_num
    linarith
  have hratio : (Arith.ofInt length : WithBot ℝ) / (average : WithBot ℝ) =
      ((Arith.ofInt length / average : ℝ) : WithBot ℝ) := partialArith_div haverage.ne'
  unfold contribution
  dsimp only
  rw [hratio]
  exact partialArith_div hsaturation

theorem addTerm_partialArith (hp : Proper params) (hstats : stats.NonNegative) (haverage : 0 < average)
    (tokens : List String) (score : Option ℝ) (term : String) :
    addTerm (partialParams params) stats (average : WithBot ℝ) tokens
        (score.map fun value => (value : WithBot ℝ)) term =
      (addTerm params stats average tokens score term).map fun value => (value : WithBot ℝ) := by
  unfold addTerm
  cases hfrequency : InvertedIndex.occurrences term tokens with
  | none => rfl
  | some frequency =>
      dsimp only
      rw [inverseDocumentFrequency_partialArith (hstats.documentFrequency term) hstats.documentCount,
        contribution_partialArith hp _ haverage (occurrences_bounds hfrequency)
          (Int.natCast_nonneg tokens.length)]
      cases score <;> rfl

-- No score of a document divides by zero or takes the logarithm of a number that is not
-- positive.
theorem documentScore_partialArith (hp : Proper params) (hstats : stats.NonNegative)
    (terms tokens : List String) :
    documentScore (partialParams params) stats terms tokens =
      (documentScore params stats terms tokens).map fun value => (value : WithBot ℝ) := by
  have hfold : ∀ (terms : List String) (score : Option ℝ), 0 < (stats.averageDocumentLength : ℝ) →
      terms.foldl (addTerm (partialParams params) stats
        ((stats.averageDocumentLength : ℝ) : WithBot ℝ) tokens)
          (score.map fun value => (value : WithBot ℝ)) =
        (terms.foldl (addTerm params stats stats.averageDocumentLength tokens) score).map
          fun value => (value : WithBot ℝ) := by
    intro terms score haverage
    induction terms generalizing score with
    | nil => rfl
    | cons term rest ih =>
        rw [List.foldl_cons, addTerm_partialArith hp hstats haverage]
        exact ih _
  have hguard : (stats.documentCount = 0 ∨ (stats.averageDocumentLength : WithBot ℝ) = 0.0) ↔
      (stats.documentCount = 0 ∨ (stats.averageDocumentLength : ℝ) = 0.0) := by
    rw [averageDocumentLength_partialArith, partialArith_literal, WithBot.coe_inj]
  unfold documentScore
  dsimp only
  by_cases hempty : stats.documentCount = 0 ∨ (stats.averageDocumentLength : ℝ) = 0.0
  · rw [if_pos (hguard.mpr hempty), if_pos hempty]
    rfl
  · rw [if_neg (mt hguard.mp hempty), if_neg hempty, averageDocumentLength_partialArith]
    exact hfold terms none (average_pos_of_guard hstats hempty).2

end Partial

-- The scores on one index of a collection, with the statistics of the whole collection.
noncomputable def collectionScores (params : BM25Params ℝ) (collection : List (List Call))
    (calls : List Call) (terms : List String) : Dict String ℝ :=
  scoreQuery params (performAll calls) terms (some (mergedStats collection terms))

-- What one term adds to the score of a document.
noncomputable def evidence (params : BM25Params ℝ) (documentFrequency documentCount : Int)
    (average : ℝ) (frequency length : Int) : ℝ :=
  contribution params (inverseDocumentFrequency documentFrequency documentCount) average frequency
    length

-- The scores of a query are defined, positive and monotone in the evidence.
structure Evidence (params : BM25Params ℝ) (collection : List (List Call)) (terms : List String) :
    Prop where
  defined : ∀ calls ∈ collection, ∀ stats : CorpusStats, stats.NonNegative → ∀ id,
    (scoreQuery (partialParams params) (performAll calls) terms (some stats)).get? id =
      ((scoreQuery params (performAll calls) terms (some stats)).get? id).map
        fun value => (value : WithBot ℝ)
  counted : (mergedStats collection terms).Counted
  positive : ∀ calls ∈ collection, ∀ id score,
    (collectionScores params collection calls terms).get? id = some score → 0 < score
  bounded : ∀ calls ∈ collection, ∀ term id, 1 ≤ (performAll calls).termFrequency term id →
    let stats := mergedStats collection terms
    0 < (stats.averageDocumentLength : ℝ) ∧
      evidence params (stats.documentFrequency term) stats.documentCount stats.averageDocumentLength
          ((performAll calls).termFrequency term id) ((performAll calls).documentLength id) <
        inverseDocumentFrequency (stats.documentFrequency term) stats.documentCount *
          (params.k1 + 1)
  appended : ∀ calls ∈ collection, ∀ term id score,
    (collectionScores params collection calls terms).get? id = some score →
      ∃ higher, (collectionScores params collection calls (terms ++ [term])).get? id = some higher ∧
        score ≤ higher
  frequency : ∀ (documentFrequency documentCount : Int) (average : ℝ) (frequency more length : Int),
    0 ≤ documentFrequency → documentFrequency ≤ documentCount → 0 < average → 0 ≤ frequency →
    frequency < more → 0 ≤ length →
      evidence params documentFrequency documentCount average frequency length <
        evidence params documentFrequency documentCount average more length
  length : ∀ (documentFrequency documentCount : Int) (average : ℝ) (frequency length longer : Int),
    0 ≤ documentFrequency → documentFrequency ≤ documentCount → 0 < average → 1 ≤ frequency →
    0 ≤ length → length < longer →
      evidence params documentFrequency documentCount average frequency longer <
        evidence params documentFrequency documentCount average frequency length
  rarity : ∀ (documentFrequency more documentCount : Int) (average : ℝ) (frequency length : Int),
    0 ≤ documentFrequency → documentFrequency < more → more ≤ documentCount → 0 < average →
    1 ≤ frequency → 0 ≤ length →
      evidence params more documentCount average frequency length <
        evidence params documentFrequency documentCount average frequency length

section Collection

variable {params : BM25Params ℝ} {collection : List (List Call)} {calls : List Call}

theorem collectionScores_get? (params : BM25Params ℝ) (collection : List (List Call))
    (calls : List Call) (terms : List String) (id : String) :
    (collectionScores params collection calls terms).get? id =
      ((remaining calls).get? id).bind
        (documentScore params (mergedStats collection terms) terms) :=
  scoreQuery_get? (InvertedIndex.performAll_image calls) params terms _ id

theorem collectionScores_positive (hp : Proper params) {terms : List String} {id : String}
    {score : ℝ} (h : (collectionScores params collection calls terms).get? id = some score) :
    0 < score := by
  rw [collectionScores_get?] at h
  obtain ⟨tokens, -, hscore⟩ := Option.bind_eq_some_iff.mp h
  exact documentScore_pos hp (InvertedIndex.mergedStats_counted collection terms) hscore

theorem collectionScores_append (hp : Proper params) {terms : List String} (term : String)
    {id : String} {score : ℝ}
    (h : (collectionScores params collection calls terms).get? id = some score) :
    ∃ higher, (collectionScores params collection calls (terms ++ [term])).get? id = some higher ∧
      score ≤ higher := by
  rw [collectionScores_get?] at h
  obtain ⟨tokens, hid, hscore⟩ := Option.bind_eq_some_iff.mp h
  have hagree := InvertedIndex.mergedStats_agree collection (List.subset_append_left terms [term])
  rw [documentScore_congr hagree] at hscore
  obtain ⟨higher, hhigher, hle⟩ := documentScore_append hp
    (InvertedIndex.mergedStats_counted collection (terms ++ [term])) hscore term
  refine ⟨higher, ?_, hle⟩
  rw [collectionScores_get?, hid]
  exact hhigher

-- A posting is a number of occurrences in a document of the index.
theorem termFrequency_tokens {term id : String}
    (h : 1 ≤ (performAll calls).termFrequency term id) :
    ∃ tokens, (remaining calls).get? id = some tokens ∧ term ∈ tokens ∧
      (performAll calls).documentLength id = tokens.length := by
  have himage := InvertedIndex.performAll_image calls
  rw [InvertedIndex.termFrequency, Dict.getD, himage.posting] at h
  cases hid : (remaining calls).get? id with
  | none => simp [hid] at h
  | some tokens =>
      refine ⟨tokens, rfl, ?_, ?_⟩
      · by_contra hterm
        simp [hid, InvertedIndex.occurrences, hterm] at h
      · rw [InvertedIndex.documentLength, Dict.getD, himage.lengths, hid]
        rfl

end Collection

theorem evidence_well_defined_monotone {params : BM25Params ℝ} (hp : Proper params)
    (collection : List (List Call)) (terms : List String) : Evidence params collection terms where
  defined calls _ stats hstats id := by
    have himage := InvertedIndex.performAll_image calls
    rw [scoreQuery_get? himage, scoreQuery_get? himage]
    cases (remaining calls).get? id with
    | none => rfl
    | some tokens => exact documentScore_partialArith hp hstats terms tokens
  counted := InvertedIndex.mergedStats_counted collection terms
  positive _ _ _ _ h := collectionScores_positive hp h
  bounded calls hcalls term id h := by
    have hcounted := InvertedIndex.mergedStats_counted collection terms
    obtain ⟨tokens, hid, hterm, hlength⟩ := termFrequency_tokens h
    obtain ⟨hcount, htotal⟩ := InvertedIndex.mergedStats_positive hcalls hid hterm terms
    have haverage := averageDocumentLength_pos hcount htotal
    exact ⟨haverage, contribution_lt hp (inverseDocumentFrequency_pos
      (hcounted.documentFrequency term) (hcounted.bounded term)) haverage (by omega) (by omega)⟩
  appended _ _ term _ _ h := collectionScores_append hp term h
  frequency _ _ _ _ _ _ hdf hle haverage hfrequency hmore hlength :=
    contribution_frequency hp (inverseDocumentFrequency_pos hdf hle) haverage hfrequency hmore
      hlength
  length _ _ _ _ _ _ hdf hle haverage hfrequency hlength hlonger :=
    contribution_length hp (inverseDocumentFrequency_pos hdf hle) haverage hfrequency hlength
      hlonger
  rarity _ _ _ _ _ _ hdf hmore hle haverage hfrequency hlength :=
    contribution_idf hp (inverseDocumentFrequency_decreases hdf hmore (by omega)) haverage
      hfrequency hlength

-- Two shards that hold a document each, and one that is empty.
theorem shards_evidence : Evidence ⟨6 / 5, 3 / 4⟩
    [[.add "a" ["red", "fox"]], [.add "b" ["red"], .remove "c"], []] ["red", "fox", "red"] :=
  evidence_well_defined_monotone ⟨by norm_num, by norm_num, by norm_num⟩ _ _

end PySearch.BM25Scorer
