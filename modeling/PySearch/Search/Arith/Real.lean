import PySearch.Search.Arith
import Mathlib.Analysis.SpecialFunctions.Log.Basic
import Mathlib.Algebra.Order.Monoid.Unbundled.WithTop

namespace PySearch

-- Exact real arithmetic. Every number is finite here.
@[reducible] noncomputable def realArith : Arith ℝ where
  ofScientific mantissa negative exponent :=
    if negative then mantissa / 10 ^ exponent else mantissa * 10 ^ exponent
  ofInt n := n
  intDiv a b := a / b
  log := Real.log
  abs x := |x|
  isFinite _ := true
  dot a b := (List.zipWith (fun x y => x * y) a b).sum
  norm a := √(a.map fun x => x * x).sum

-- The literals of the program mean what they say.
@[simp] theorem realArith_ofScientific (mantissa : ℕ) (negative : Bool) (exponent : ℕ) :
    @OfScientific.ofScientific ℝ realArith.toOfScientific mantissa negative exponent =
      if negative then (mantissa : ℝ) / 10 ^ exponent else mantissa * 10 ^ exponent := rfl

@[simp] theorem realArith_ofInt (n : Int) : realArith.ofInt n = (n : ℝ) := rfl

@[simp] theorem realArith_intDiv (a b : Int) : realArith.intDiv a b = (a / b : ℝ) := rfl

@[simp] theorem realArith_log (x : ℝ) : realArith.log x = Real.log x := rfl

-- Exact real arithmetic that raises: ⊥ stands for a division by zero or a logarithm of a
-- number that is not positive, and everything that is computed from it.
@[reducible] noncomputable def partialArith : Arith (WithBot ℝ) where
  add := WithBot.map₂ (· + ·)
  sub := WithBot.map₂ (· - ·)
  mul := WithBot.map₂ (· * ·)
  div x y := if y = 0 then ⊥ else WithBot.map₂ (· / ·) x y
  neg := WithBot.map (- ·)
  ofScientific mantissa negative exponent :=
    ((realArith.ofScientific mantissa negative exponent : ℝ) : WithBot ℝ)
  ofInt n := ((n : ℝ) : WithBot ℝ)
  intDiv a b := if b = 0 then ⊥ else ((a / b : ℝ) : WithBot ℝ)
  log x := if 0 < x then WithBot.map Real.log x else ⊥
  abs := WithBot.map (|·|)
  isFinite x := x ≠ ⊥
  dot a b := (List.zipWith (WithBot.map₂ (· * ·)) a b).foldr (WithBot.map₂ (· + ·)) 0
  norm a := WithBot.map Real.sqrt
    ((a.map fun x => WithBot.map₂ (· * ·) x x).foldr (WithBot.map₂ (· + ·)) 0)

section Partial

attribute [local instance] realArith partialArith

variable (x y : ℝ)

@[simp] theorem partialArith_add : (x : WithBot ℝ) + (y : WithBot ℝ) = ((x + y : ℝ) : WithBot ℝ) :=
  rfl

@[simp] theorem partialArith_sub : (x : WithBot ℝ) - (y : WithBot ℝ) = ((x - y : ℝ) : WithBot ℝ) :=
  rfl

@[simp] theorem partialArith_mul : (x : WithBot ℝ) * (y : WithBot ℝ) = ((x * y : ℝ) : WithBot ℝ) :=
  rfl

variable {x y}

theorem partialArith_div (hy : y ≠ 0) :
    (x : WithBot ℝ) / (y : WithBot ℝ) = ((x / y : ℝ) : WithBot ℝ) :=
  if_neg (by exact_mod_cast hy)

theorem partialArith_log (hx : 0 < x) :
    Arith.log (x : WithBot ℝ) = ((Arith.log x : ℝ) : WithBot ℝ) :=
  if_pos (by exact_mod_cast hx)

theorem partialArith_intDiv {a b : Int} (hb : b ≠ 0) :
    (Arith.intDiv a b : WithBot ℝ) = ((Arith.intDiv a b : ℝ) : WithBot ℝ) :=
  if_neg hb

end Partial

end PySearch
