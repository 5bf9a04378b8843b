import Mathlib.Data.Rat.Defs
import Mathlib.Algebra.Order.Ring.Rat

namespace BikeMcu.BmiData

/-- A float of the C code, by its value if it is finite. -/
inductive ExactFloat where
  | nan
  | infinity (negative : Bool)
  | finite (q : ℚ)
  deriving DecidableEq, Repr

def ExactFloat.isnan : ExactFloat → Bool
  | .nan => true
  | _ => false

def ExactFloat.fabs : ExactFloat → ExactFloat
  | .nan => .nan
  | .infinity _ => .infinity false
  | .finite q => .finite |q|

def ExactFloat.gt (x : ExactFloat) (q : ℚ) : Bool :=
  match x with
  | .nan => false
  | .infinity negative => !negative
  | .finite p => decide (q < p)

def ExactFloat.lt : ExactFloat → ExactFloat → Bool
  | .finite p, .finite q => decide (p < q)
  | .finite _, .infinity negative => !negative
  | .infinity negative, .finite _ => negative
  | .infinity negative, .infinity negative' => negative && !negative'
  | .nan, _ | _, .nan => false

def ExactFloat.le (x : ExactFloat) (q : ℚ) : Bool :=
  match x with
  | .nan => false
  | .infinity negative => negative
  | .finite p => decide (p ≤ q)

def ExactFloat.toRat : ExactFloat → ℚ
  | .finite q => q
  | _ => 0

structure Bmi160Data where
  seq : Int32
  ax : ExactFloat
  ay : ExactFloat
  az : ExactFloat
  gx : ExactFloat
  gy : ExactFloat
  gz : ExactFloat
  deriving DecidableEq, Repr

end BikeMcu.BmiData
