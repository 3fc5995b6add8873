import Mathlib.Analysis.SpecialFunctions.Log.Basic
import Mathlib.Tactic.FieldSimp

namespace RealVector

def dot (a b : List ℝ) : ℝ := (List.zipWith (fun x y => x * y) a b).sum

noncomputable def norm (a : List ℝ) : ℝ := √(a.map fun x => x * x).sum

-- The direction of a vector. The zero vector has none and stays as it is.
noncomputable def normalize (a : List ℝ) : List ℝ := a.map fun x => x / norm a

-- The cosine of the angle between two vectors, zero when one of them has no direction.
noncomputable def cosine (a b : List ℝ) : ℝ := dot a b / (norm a * norm b)

variable (a b : List ℝ)

@[simp] theorem dot_nil_left : dot [] b = 0 := rfl

@[simp] theorem dot_nil_right : dot a [] = 0 := by rw [dot, List.zipWith_nil_right, List.sum_nil]

@[simp] theorem dot_cons (x y : ℝ) : dot (x :: a) (y :: b) = x * y + dot a b := by
  simp [dot]

theorem sumSquares_nonneg : 0 ≤ (a.map fun x => x * x).sum := by
  apply List.sum_nonneg
  intro square hs
  obtain ⟨x, -, rfl⟩ := List.mem_map.mp hs
  exact mul_self_nonneg x

theorem norm_nonneg : 0 ≤ norm a := Real.sqrt_nonneg _

theorem norm_mul_norm : norm a * norm a = (a.map fun x => x * x).sum :=
  Real.mul_self_sqrt (sumSquares_nonneg a)

theorem dot_self : dot a a = norm a * norm a := by
  rw [norm_mul_norm, dot, List.zipWith_self]

theorem norm_cons_mul (x : ℝ) : norm (x :: a) * norm (x :: a) = x * x + norm a * norm a := by
  rw [norm_mul_norm, norm_mul_norm, List.map_cons, List.sum_cons]

-- The plane is where the inequality is proved: x and the length of the rest are two sides.
theorem abs_dot_le : |dot a b| ≤ norm a * norm b := by
  induction a generalizing b with
  | nil =>
      rw [dot_nil_left, abs_zero]
      exact mul_nonneg (norm_nonneg _) (norm_nonneg _)
  | cons x a ih =>
      cases b with
      | nil =>
          rw [dot_nil_right, abs_zero]
          exact mul_nonneg (norm_nonneg _) (norm_nonneg _)
      | cons y b =>
          have hrest : |dot (x :: a) (y :: b)| ≤ |x| * |y| + norm a * norm b := by
            rw [dot_cons]
            have hsum := abs_add_le (x * y) (dot a b)
            rw [abs_mul] at hsum
            exact hsum.trans (by linarith [ih b])
          have hplane : (|x| * |y| + norm a * norm b) ^ 2 ≤
              (norm (x :: a) * norm (y :: b)) ^ 2 := by
            have hx := norm_cons_mul a x
            have hy := norm_cons_mul b y
            have hax := abs_mul_abs_self x
            have hay := abs_mul_abs_self y
            calc (|x| * |y| + norm a * norm b) ^ 2
                ≤ (|x| * |x| + norm a * norm a) * (|y| * |y| + norm b * norm b) := by
                  linarith [sq_nonneg (|x| * norm b - |y| * norm a)]
              _ = (norm (x :: a) * norm (x :: a)) * (norm (y :: b) * norm (y :: b)) := by
                  rw [hx, hy, hax, hay]
              _ = (norm (x :: a) * norm (y :: b)) ^ 2 := by ring
          exact hrest.trans ((le_abs_self _).trans (abs_le_of_sq_le_sq hplane
            (mul_nonneg (norm_nonneg _) (norm_nonneg _))))

theorem abs_cosine_le_one : |cosine a b| ≤ 1 := by
  have hnonneg := mul_nonneg (norm_nonneg a) (norm_nonneg b)
  rw [cosine, abs_div, abs_of_nonneg hnonneg]
  exact div_le_one_of_le₀ (abs_dot_le a b) hnonneg

theorem cosine_self (h : norm a ≠ 0) : cosine a a = 1 := by
  rw [cosine, dot_self]
  exact div_self (mul_ne_zero h h)

theorem dot_div_div (r s : ℝ) :
    dot (a.map fun x => x / r) (b.map fun y => y / s) = dot a b / (r * s) := by
  induction a generalizing b with
  | nil => simp
  | cons x a ih =>
      cases b with
      | nil => simp
      | cons y b =>
          rw [List.map_cons, List.map_cons, dot_cons, dot_cons, ih, add_div, div_mul_div_comm]

-- For directions the dot product is the cosine.
theorem dot_normalize : dot (normalize a) (normalize b) = cosine a b := dot_div_div a b _ _

theorem norm_normalize (h : norm a ≠ 0) : norm (normalize a) = 1 := by
  have hsquare : norm (normalize a) * norm (normalize a) = 1 := by
    rw [← dot_self, dot_normalize, cosine_self a h]
  nlinarith [norm_nonneg (normalize a)]

theorem norm_eq_zero_iff : norm a = 0 ↔ ∀ x ∈ a, x = 0 := by
  induction a with
  | nil => simp [norm]
  | cons x a ih =>
      have hcons := norm_cons_mul a x
      rw [List.forall_mem_cons, ← ih]
      constructor
      · intro h
        rw [h] at hcons
        have hx : x * x = 0 := by nlinarith [mul_self_nonneg x, mul_self_nonneg (norm a)]
        have ha : norm a * norm a = 0 := by nlinarith [mul_self_nonneg x]
        exact ⟨mul_self_eq_zero.mp hx, mul_self_eq_zero.mp ha⟩
      · rintro ⟨hx, ha⟩
        rw [hx, ha, mul_zero, add_zero] at hcons
        rw [hx]
        exact mul_self_eq_zero.mp hcons

theorem norm_normalize_of_zero (h : norm a = 0) : norm (normalize a) = 0 := by
  rw [norm_eq_zero_iff]
  intro x hx
  obtain ⟨y, -, rfl⟩ := List.mem_map.mp hx
  rw [h, div_zero]

theorem sumSquares_sub {a b : List ℝ} (hlength : a.length = b.length) :
    ((List.zipWith (fun x y => x - y) a b).map fun x => x * x).sum =
      norm a * norm a + norm b * norm b - 2 * dot a b := by
  induction a generalizing b with
  | nil =>
      cases b with
      | nil => simp [norm]
      | cons y b => cases hlength
  | cons x a ih =>
      cases b with
      | nil => cases hlength
      | cons y b =>
          rw [List.zipWith_cons_cons, List.map_cons, List.sum_cons, ih (Nat.succ.inj hlength),
            norm_cons_mul, norm_cons_mul, dot_cons]
          ring

-- Two unit vectors whose dot product is one are at distance zero.
theorem eq_of_dot_eq_one {a b : List ℝ} (hlength : a.length = b.length) (ha : norm a = 1)
    (hb : norm b = 1) (hdot : dot a b = 1) : a = b := by
  have hzero : norm (List.zipWith (fun x y => x - y) a b) = 0 := by
    have h := sumSquares_sub hlength
    rw [ha, hb, hdot, ← norm_mul_norm] at h
    exact mul_self_eq_zero.mp (by linarith)
  rw [norm_eq_zero_iff] at hzero
  apply List.ext_getElem hlength
  intro i hi hj
  have hboth : i < (List.zipWith (fun x y => x - y) a b).length := by
    rw [List.length_zipWith]
    omega
  have hget := hzero _ (List.getElem_mem hboth)
  rw [List.getElem_zipWith] at hget
  linarith

-- Only vectors of the same direction have the cosine one.
theorem cosine_eq_one_iff (hlength : a.length = b.length) :
    cosine a b = 1 ↔ norm a ≠ 0 ∧ normalize a = normalize b := by
  constructor
  · intro h
    have ha : norm a ≠ 0 := by
      intro hzero
      simp [cosine, hzero] at h
    have hb : norm b ≠ 0 := by
      intro hzero
      simp [cosine, hzero] at h
    refine ⟨ha, eq_of_dot_eq_one ?_ (norm_normalize a ha) (norm_normalize b hb) ?_⟩
    · rw [normalize, normalize, List.length_map, List.length_map, hlength]
    · rw [dot_normalize, h]
  · rintro ⟨ha, hdirection⟩
    rw [← dot_normalize, ← hdirection, dot_self, norm_normalize a ha, mul_one]

end RealVector
