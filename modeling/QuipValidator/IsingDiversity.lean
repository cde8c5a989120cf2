import QuipValidator.IsingValidation
import Mathlib.Data.List.Perm.Subperm

/-! `quantum-validation`, diversity: the flip-symmetric Hamming distance, its
scaled pairwise mean, and the farthest-point selection of the proof pallet. -/
namespace QuipValidator.IsingDiversity
open Fallible IsingValidation

/-- Positions where the two vectors differ, counted by `direct`. The counters are
`u32`, and the vectors come in lists bounded by one. -/
def symmetricHammingValidated (a b : List Int) : Nat :=
  let direct := ((a.zip b).filter fun pair => decide (pair.1 ≠ pair.2)).length
  let inverted := ((a.zip b).filter fun pair => decide (pair.1 ≠ -pair.2)).length
  min direct inverted

def symmetricHamming (a b : List Int) : Fallible ValidationError Nat := do
  ensure (a.length = b.length) (ValidationError.solutionLengthMismatch a.length b.length)
  ensureValidSpins a
  ensureValidSpins b
  pure (symmetricHammingValidated a b)

/-- A vector of `width` spins. -/
def Spins (width : Nat) (spins : List Int) : Prop := spins.length = width ∧ ∀ spin ∈ spins, IsSpin spin

theorem validateSolutionSet_spins {width : Nat} {solutions : List (List Int)} :
    validateSolutionSet solutions width ↔ ∀ spins ∈ solutions, Spins width spins := by
  simp [validateSolutionSet, validateSpins, Spins]

theorem symmetricHamming_eq {width : Nat} {a b : List Int} (left : Spins width a) (right : Spins width b) :
    symmetricHamming a b = .ok (symmetricHammingValidated a b) := by
  simp only [symmetricHamming, bind_success, ensure_success, ensureValidSpins_success]
  exact ⟨(), left.1.trans right.1.symm, (), left.2, (), right.2, rfl⟩

theorem symmetricHamming_safe (a b : List Int) :
    Safe (symmetricHamming a b) fun distance => distance = symmetricHammingValidated a b := by
  refine safe_bind safe_ensure fun _ _ => ?_
  refine safe_bind (ensureValidSpins_safe a) fun _ _ => ?_
  refine safe_bind (ensureValidSpins_safe b) fun _ _ => ?_
  exact safe_pure rfl

/-- The diagnostic loop of `ensure_valid_solution_inputs`: the first vector
with a wrong length or a wrong spin names the error. -/
def diagnoseSolutions (expectedLen : Nat) : List (List Int) → Fallible ValidationError Unit
  | [] => .ok ()
  | spins :: rest => do
    ensure (spins.length = expectedLen) (ValidationError.solutionLengthMismatch expectedLen spins.length)
    ensureValidSpins spins
    diagnoseSolutions expectedLen rest

def ensureValidSolutionInputs (solutions : List (List Int)) : Fallible ValidationError Nat := do
  let first ← expect solutions.head? "index out of bounds"
  if validateSolutionSet solutions first.length then pure first.length
  else do
    diagnoseSolutions first.length solutions
    pure first.length

/-- `u64::checked_mul`. -/
def checkedMul (a b : Nat) : Fallible ValidationError Nat :=
  if a * b ≤ u64Max then .ok (a * b) else fail .arithmeticOverflow

/-- `round_div_u64`: nearest integer, halves up. -/
def roundDiv (numerator denominator : Nat) : Fallible ValidationError Nat :=
  if denominator = 0 then .error (.panic "attempt to divide by zero")
  else .ok ((numerator + denominator / 2) / denominator)

/-- The distance of every pair `i < j`, in the order of the two nested loops. -/
def pairDistances : List (List Int) → List Nat
  | [] => []
  | first :: rest => rest.map (symmetricHammingValidated first) ++ pairDistances rest

def calculateDiversity (solutions : List (List Int)) : Fallible ValidationError Nat :=
  if solutions.length < 2 then .ok 0
  else do
    let expectedLen ← ensureValidSolutionInputs solutions
    let distances := pairDistances solutions
    let numerator ← checkedMul distances.sum MILLI_SCALE
    let denominator ← checkedMul distances.length expectedLen
    let milli ← roundDiv numerator denominator
    pure (asU32 milli)

private theorem diagnoseSolutions_safe (expectedLen : Nat) (solutions : List (List Int)) :
    Safe (diagnoseSolutions expectedLen solutions) fun _ => True := by
  induction solutions with
  | nil => trivial
  | cons spins rest ih =>
    refine safe_bind safe_ensure fun _ _ => ?_
    refine safe_bind (ensureValidSpins_safe spins) fun _ _ => ?_
    exact ih

private theorem checkedMul_safe (a b : Nat) : Safe (checkedMul a b) fun product => product = a * b := by
  unfold checkedMul
  split
  · exact rfl
  · trivial

/-- Vectors with at least one spin never make the mean divide by zero. -/
theorem calculateDiversity_safe {solutions : List (List Int)} (occupied : ∀ spins ∈ solutions, spins ≠ []) :
    Safe (calculateDiversity solutions) fun diversity => calculateDiversity solutions = .ok diversity := by
  refine Safe.exact (show Safe _ (fun _ => True) from ?_)
  unfold calculateDiversity
  split
  · trivial
  rename_i several
  obtain ⟨first, second, rest, rfl⟩ : ∃ first second rest, solutions = first :: second :: rest := by
    match solutions, several with
    | [], several => simp at several
    | [_], several => simp at several
    | first :: second :: rest, _ => exact ⟨first, second, rest, rfl⟩
  have wide : 0 < first.length := List.length_pos_iff.mpr (occupied first List.mem_cons_self)
  have inputs : Safe (ensureValidSolutionInputs (first :: second :: rest)) (· = first.length) := by
    refine safe_bind (safe_expect (List.head?_cons)) ?_
    rintro head same
    subst head
    split
    · exact safe_pure rfl
    · exact safe_bind (diagnoseSolutions_safe _ _) fun _ _ => safe_pure rfl
  refine safe_bind inputs ?_
  rintro expectedLen rfl
  refine safe_bind (checkedMul_safe _ _) fun numerator _ => ?_
  refine safe_bind (checkedMul_safe _ _) fun denominator product => ?_
  have pairs : 0 < (pairDistances (first :: second :: rest)).length := by
    simp [pairDistances]
  have nonzero : denominator ≠ 0 := by
    rw [product]
    exact Nat.ne_of_gt (Nat.mul_pos pairs wide)
  simp only [roundDiv, nonzero, if_false]
  trivial

/-- `pairwise_distances`: the symmetric matrix with a zero diagonal. -/
def pairwiseDistances (solutions : List (List Int)) : List (List Nat) :=
  solutions.zipIdx.map fun (a, i) => solutions.zipIdx.map fun (b, j) =>
    if i = j then 0 else if i < j then symmetricHammingValidated a b else symmetricHammingValidated b a

/-- Entry `(row, column)` of a distance matrix. -/
def distanceAt (distances : List (List Nat)) (row column : Nat) : Nat :=
  (distances.getD row []).getD column 0

/-- `most_distant_pair`: the first pair, in row order, no other pair exceeds. -/
def mostDistantPair (distances : List (List Nat)) : Nat × Nat :=
  let pairs := (List.range distances.length).flatMap fun i =>
    ((List.range (distances.getD i []).length).drop (i + 1)).map fun j => (i, j)
  (pairs.foldl (fun (best : (Nat × Nat) × Nat) pair =>
    if distanceAt distances pair.1 pair.2 > best.2 then (pair, distanceAt distances pair.1 pair.2)
    else best) ((0, 1), distanceAt distances 0 1)).1

/-- One round of the candidate scan in `select_diverse`: the first unselected
index with the greatest minimum distance. -/
def bestCandidate (count : Nat) (selected : List Nat) (minDistance : List Nat) : Option Nat :=
  ((List.range count).foldl (fun (best : Option Nat × Nat) candidate =>
    if candidate ∈ selected then best
    else if best.1.isNone ∨ minDistance.getD candidate 0 > best.2 then
      (some candidate, minDistance.getD candidate 0)
    else best) (none, 0)).1

/-- The selection loop of `select_diverse` with `rounds` vectors still to pick. -/
def growDiverse (distances : List (List Nat)) : Nat → List Nat → List Nat → List Nat
  | 0, selected, _ => selected
  | rounds + 1, selected, minDistance =>
    match bestCandidate distances.length selected minDistance with
    | none => selected
    | some index =>
      let selected := selected ++ [index]
      growDiverse distances rounds selected
        (minDistance.zipIdx.map fun (held, candidate) =>
          if candidate ∈ selected then held else min held (distanceAt distances candidate index))

def selectDiverse (solutions : List (List Int)) (targetCount : Nat) : Fallible ValidationError (List Nat) :=
  if solutions = [] ∨ targetCount = 0 then .ok []
  else do
    let _ ← ensureValidSolutionInputs solutions
    if solutions.length ≤ targetCount then pure (List.range solutions.length)
    else if targetCount = 1 then pure [0]
    else
      let distances := pairwiseDistances solutions
      let first := mostDistantPair distances
      let minDistance := (List.range solutions.length).map fun candidate =>
        min (distanceAt distances candidate first.1) (distanceAt distances candidate first.2)
      pure (growDiverse distances (targetCount - 2) [first.1, first.2] minDistance)

/-- Fewer selected positions than vectors leave one unselected. -/
theorem unselected_remains {count : Nat} {selected : List Nat} (few : selected.length < count) :
    ∃ candidate ∈ List.range count, candidate ∉ selected := by
  by_contra all
  have covered : List.range count ⊆ selected := by
    intro candidate member
    by_contra outside
    exact all ⟨candidate, member, outside⟩
  have length := (List.nodup_range.subperm covered).length_le
  rw [List.length_range] at length
  omega

end QuipValidator.IsingDiversity
