import Mathlib.Algebra.Order.Round
import Mathlib.Data.Rat.Floor
import Mathlib.Tactic.FieldSimp
import QuipValidator.SpinDiversity

/-! The flip-symmetric Hamming distance is a pseudometric on the spin vectors of
one width, with a vector and its flip as one point, and the diversity of a list
is its mean, rounded to the nearest thousandth of the width. -/
namespace QuipValidator.IsingDiversity
open Fallible IsingValidation SignVectors

variable {width : Nat}

/-- The global flip. -/
def flip (spins : List Int) : List Int := spins.map Neg.neg

end QuipValidator.IsingDiversity
