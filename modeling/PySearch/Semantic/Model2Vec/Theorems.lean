import PySearch.Lib.RealVector
import PySearch.Search.Arith.Real
import PySearch.Search.Engine.Derived
import PySearch.Semantic.Model2Vec

namespace PySearch

variable {α : Type} [Arith α]

-- What the library says of a static model: when it returns, it returns one finite row of its
-- width for each text, and the row of a text does not depend on the batch.
structure StaticModel.Documented (model : StaticModel α) (vector : String → List α) : Prop where
  length : ∀ text, (vector text).length = model.dim
  finite : ∀ text, (vector text).all Arith.isFinite = true
  encode : ∀ texts raw, model.encode texts = some raw → ∃ vectors,
    raw = .vectors vectors ∧ vectors.width = model.dim ∧ vectors.rows = texts.map vector

variable [LinearOrder α]

namespace Model2VecEmbedder

variable {self : Model2VecEmbedder α} {vector : String → List α}

-- The embedder that the engine and the coordinator are given.
def embedder (self : Model2VecEmbedder α) (vector : String → List α)
    (positive : 1 ≤ self.identity.dimension) : Embedder α where
  identity := self.identity
  embed text := normalizeRow (vector text)
  embedQuery text := normalizeRow (vector text)
  positive := positive

omit [Arith α] [LinearOrder α] in
theorem load_dim {library : Option (String → String → Option (StaticModel α))}
    {modelId revision : String} (h : load library modelId revision = .ok self) :
    self.identity.dimension = self.model.dim := by
  unfold load at h
  split at h
  · cases h
  · split at h
    · cases h
    · cases h
      rfl

theorem encode_eq (hdim : self.identity.dimension = self.model.dim)
    (h : self.model.Documented vector) (texts : List String) :
    self.encode texts = .error (.embedding "embedding failed") ∨
      ∃ vectors, self.encode texts = .ok vectors ∧ vectors.width = self.identity.dimension ∧
        vectors.rows = texts.map fun text => normalizeRow (vector text) := by
  unfold encode
  cases hencode : self.model.encode texts with
  | none => exact .inl rfl
  | some raw =>
      obtain ⟨vectors, rfl, hwidth, hrows⟩ := h.encode texts raw hencode
      refine .inr ⟨normalizeRows vectors, ?_, hwidth.trans hdim.symm, ?_⟩
      · have hfinite : (vectors.rows.all fun row => row.all Arith.isFinite) = true := by
          rw [hrows, List.all_map, List.all_eq_true]
          exact fun text _ => h.finite text
        simp only [validateVectors, hwidth, hdim, ne_eq, not_true_eq_false, if_false, hfinite,
          if_true]
        rfl
      · have hnormal : (normalizeRows vectors).rows = vectors.rows.map normalizeRow := rfl
        rw [hnormal, hrows, List.map_map]
        rfl

theorem embedDocuments_eq (hdim : self.identity.dimension = self.model.dim)
    (h : self.model.Documented vector) (positive : 1 ≤ self.identity.dimension)
    (texts : List String) :
    self.embedDocuments texts = .error (.embedding "embedding failed") ∨
      ∃ vectors, self.embedDocuments texts = .ok vectors ∧
        vectors.width = self.identity.dimension ∧
        vectors.rows = (self.embedder vector positive).embedDocuments texts := by
  unfold embedDocuments
  by_cases htexts : texts = []
  · exact .inr ⟨_, if_pos htexts, rfl, by rw [htexts]; rfl⟩
  · rw [if_neg htexts]
    exact encode_eq hdim h texts

theorem embedQuery_eq (hdim : self.identity.dimension = self.model.dim)
    (h : self.model.Documented vector) (positive : 1 ≤ self.identity.dimension)
    (text : String) :
    self.embedQuery text = .error (.embedding "embedding failed") ∨
      self.embedQuery text = .ok ((self.embedder vector positive).embedQuery text) := by
  unfold embedQuery
  rcases encode_eq hdim h [text] with hfailed | ⟨vectors, hok, -, hrows⟩
  · exact .inl (by rw [hfailed]; rfl)
  · refine .inr ?_
    rw [hok]
    simp only [Bind.bind, Except.bind, hrows]
    rfl

end Model2VecEmbedder

section Real

attribute [local instance] realArith

theorem normalizeRow_eq (row : List ℝ) : normalizeRow row = RealVector.normalize row := by
  have hzero : (0.0 : ℝ) = 0 := by norm_num
  have hone : (1.0 : ℝ) = 1 := by norm_num
  unfold normalizeRow RealVector.normalize
  by_cases h : RealVector.norm row = 0
  · have hentries := (RealVector.norm_eq_zero_iff row).mp h
    apply List.map_congr_left
    intro value hv
    rw [hentries value hv, zero_div, zero_div]
  · apply List.map_congr_left
    intro value _
    rw [if_neg (by rwa [hzero])]
    rfl

theorem unit_normalize (row : List ℝ) :
    ExactVectorIndex.unit (RealVector.normalize row) = true := by
  have hnorm : RealVector.norm (RealVector.normalize row) = 0 ∨
      RealVector.norm (RealVector.normalize row) = 1 := by
    by_cases h : RealVector.norm row = 0
    · exact .inl (RealVector.norm_normalize_of_zero row h)
    · exact .inr (RealVector.norm_normalize row h)
  simp only [ExactVectorIndex.unit, Bool.or_eq_true, decide_eq_true_eq]
  rcases hnorm with hzero | hone
  · left
    change RealVector.norm (RealVector.normalize row) = _
    rw [hzero]
    norm_num
  · right
    change |RealVector.norm (RealVector.normalize row) - _| ≤ _
    rw [hone]
    norm_num [ExactVectorIndex.normTolerance]

namespace Model2VecEmbedder

variable {self : Model2VecEmbedder ℝ} {vector : String → List ℝ}

theorem embedder_contract (hdim : self.identity.dimension = self.model.dim)
    (h : self.model.Documented vector) (positive : 1 ≤ self.identity.dimension) :
    (self.embedder vector positive).Contract := by
  have hadmissible : ∀ text, ExactVectorIndex.Admissible self.identity.dimension
      (normalizeRow (vector text)) := by
    intro text
    refine ⟨?_, List.all_eq_true.mpr fun _ _ => rfl⟩
    rw [normalizeRow, List.length_map, h.length, hdim]
  refine ⟨fun text => ⟨hadmissible text, ?_⟩, hadmissible⟩
  change ExactVectorIndex.unit (normalizeRow (vector text)) = true
  rw [normalizeRow_eq]
  exact unit_normalize _

end Model2VecEmbedder

end Real

end PySearch
