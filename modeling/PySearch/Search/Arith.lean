import Mathlib.Algebra.Order.Ring.Rat

namespace PySearch

-- The numeric operations that scoring uses. Nothing is assumed of them: every result
-- about rankings holds for any fixed interpretation.
-- `ofInt` is the conversion of an integer that meets a float, `intDiv` the true
-- division of two integers, `dot` one entry of a matrix-vector product and `norm`
-- the Euclidean norm of a row.
class Arith (α : Type) extends Add α, Sub α, Mul α, Div α, Neg α, OfScientific α where
  ofInt : Int → α
  intDiv : Int → Int → α
  log : α → α
  abs : α → α
  isFinite : α → Bool
  dot : List α → List α → α
  norm : List α → α

-- Exact rationals, for evaluating rankings: the logarithm is replaced by its first Padé
-- approximant, and the norm by its square.
@[reducible] def rationalArith : Arith ℚ where
  ofScientific mantissa negative exponent :=
    if negative then mantissa / 10 ^ exponent else mantissa * 10 ^ exponent
  ofInt n := n
  intDiv a b := a / b
  log x := 2 * (x - 1) / (x + 1)
  abs x := |x|
  isFinite _ := true
  dot a b := (List.zipWith (fun x y => x * y) a b).sum
  norm a := (a.map fun x => x * x).sum

theorem rationalArith_ofScientific (mantissa : ℕ) (negative : Bool) (exponent : ℕ) :
    @OfScientific.ofScientific ℚ rationalArith.toOfScientific mantissa negative exponent =
      if negative then (mantissa : ℚ) / 10 ^ exponent else mantissa * 10 ^ exponent := rfl

end PySearch
