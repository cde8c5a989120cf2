import QuipValidator.FarthestPoint
import QuipValidator.SpinDiversity

/-! `select_diverse`: on valid vectors it is the farthest-point selection from
the first most distant pair, so it always returns, with different positions in
range and exactly the asked number of them as far as there are vectors. -/
namespace QuipValidator.IsingDiversity
open Fallible IsingValidation SignVectors FarthestPoint

variable {width : Nat}

@[simp] theorem pairwiseDistances_length (solutions : List (List Int)) :
    (pairwiseDistances solutions).length = solutions.length := by
  simp [pairwiseDistances]

theorem getElem?_eq_getD {α : Type} {items : List α} {index : Nat} (inside : index < items.length)
    (default : α) : items[index]? = some (items.getD index default) := by
  rw [List.getD_eq_getElem?_getD, List.getElem?_eq_getElem inside, Option.getD_some]

/-- The distance of the vectors at two positions, measured anew. -/
def apart (solutions : List (List Int)) (i j : Nat) : Nat :=
  symmetricHammingValidated (solutions.getD i []) (solutions.getD j [])

theorem apart_comm (solutions : List (List Int)) (i j : Nat) : apart solutions i j = apart solutions j i :=
  symmetricHammingValidated_comm _ _

/-- The matrix holds the distances. -/
private theorem distanceAt_pairwise {solutions : List (List Int)} {i j : Nat} (row : i < solutions.length)
    (column : j < solutions.length) (different : i ≠ j) :
    distanceAt (pairwiseDistances solutions) i j = apart solutions i j := by
  have entry : distanceAt (pairwiseDistances solutions) i j =
      if i < j then apart solutions i j else apart solutions j i := by
    simp [distanceAt, pairwiseDistances, apart, row, column, different]
  rw [entry, apart_comm solutions j i, ite_self]

/-- The pairs of positions, smaller one first, in lexicographic order. -/
def indexPairs (count : Nat) : List (Nat × Nat) :=
  ((List.range count).product (List.range count)).filter fun pair => pair.1 < pair.2

theorem mem_indexPairs {count : Nat} {pair : Nat × Nat} :
    pair ∈ indexPairs count ↔ pair.1 < pair.2 ∧ pair.2 < count := by
  obtain ⟨i, j⟩ := pair
  rw [indexPairs, List.mem_filter, List.pair_mem_product, List.mem_range, List.mem_range, decide_eq_true_eq]
  omega

private theorem filter_range_lt (count i : Nat) :
    (List.range count).filter (fun j => i < j) = (List.range count).drop (i + 1) := by
  induction count with
  | zero => rfl
  | succ count ih =>
    rw [List.range_succ, List.filter_append, ih, List.drop_append, List.length_range, List.filter_singleton]
    by_cases later : i < count
    · rw [decide_eq_true later, cond_true, Nat.sub_eq_zero_of_le later]
      rfl
    · have none : [count].drop (i + 1 - count) = [] := List.drop_eq_nil_of_le (by rw [List.length_singleton]; omega)
      rw [decide_eq_false later, cond_false, none]

/-- The nested loops of `most_distant_pair` visit the pairs in that order. -/
private theorem indexPairs_eq (solutions : List (List Int)) :
    ((List.range (pairwiseDistances solutions).length).flatMap fun i =>
      ((List.range ((pairwiseDistances solutions).getD i []).length).drop (i + 1)).map fun j => (i, j)) =
      indexPairs solutions.length := by
  rw [indexPairs, List.product, List.filter_flatMap, pairwiseDistances_length]
  apply List.flatMap_congr
  intro i inside
  have row : ((pairwiseDistances solutions).getD i []).length = solutions.length := by
    simp [pairwiseDistances, List.mem_range.mp inside]
  rw [row, ← filter_range_lt, List.filter_map]
  rfl

/-- The scan keeps the first most distant pair. -/
private theorem mostDistantPair_eq {solutions : List (List Int)} (several : 2 ≤ solutions.length) :
    (indexPairs solutions.length).argmax (fun pair => apart solutions pair.1 pair.2) =
      some (mostDistantPair (pairwiseDistances solutions)) := by
  have measured : ∀ pair ∈ indexPairs solutions.length,
      distanceAt (pairwiseDistances solutions) pair.1 pair.2 = apart solutions pair.1 pair.2 := by
    intro pair member
    obtain ⟨ordered, inside⟩ := mem_indexPairs.mp member
    exact distanceAt_pairwise (by omega) inside (by omega)
  obtain ⟨later, first⟩ : ∃ later, indexPairs solutions.length = (0, 1) :: later := by
    obtain ⟨count, same⟩ := Nat.exists_eq_add_of_le' several
    rw [same, indexPairs, List.range_succ_eq_map, List.range_succ_eq_map]
    exact ⟨_, rfl⟩
  rw [← argmax_congr measured, mostDistantPair, indexPairs_eq, first, List.foldl_cons, if_neg (Nat.lt_irrefl _)]
  exact foldl_greater (f := fun pair => distanceAt (pairwiseDistances solutions) pair.1 pair.2) (0, 1) later

/-- The naive selection: every round measures all distances anew. -/
def naiveSelectDiverse (solutions : List (List Int)) (targetCount : Nat) : List Nat :=
  if solutions = [] ∨ targetCount = 0 then []
  else if solutions.length ≤ targetCount then List.range solutions.length
  else if targetCount = 1 then [0]
  else
    match (indexPairs solutions.length).argmax fun pair => apart solutions pair.1 pair.2 with
    | none => []
    | some first => greedy (apart solutions) (List.range solutions.length) (targetCount - 2) [first.1, first.2]

/-- What the loop keeps: for every unselected vector its distance to the nearest selected one. -/
private structure Tracking (solutions : List (List Int)) (selected minDistance : List Nat) : Prop where
  occupied : selected ≠ []
  inRange : ∀ index ∈ selected, index < solutions.length
  measured : minDistance.length = solutions.length
  tracked : ∀ candidate, candidate < solutions.length → candidate ∉ selected →
    minDistance.getD candidate 0 = nearest (apart solutions) selected candidate

variable {solutions : List (List Int)} {selected minDistance : List Nat}

/-- The candidate scan finds the farthest vector. -/
private theorem bestCandidate_eq (tracking : Tracking solutions selected minDistance) :
    bestCandidate (pairwiseDistances solutions).length selected minDistance =
      farthest (apart solutions) (List.range solutions.length) selected := by
  have scanned := congrArg Prod.fst (@foldl_keepGreatest Nat (fun candidate => minDistance.getD candidate 0)
    (· ∈ selected) _ (List.range solutions.length))
  rw [pairwiseDistances_length, farthest, bestCandidate]
  refine scanned.trans (argmax_congr ?_)
  intro candidate member
  obtain ⟨inside, unselected⟩ := List.mem_filter.mp member
  exact tracking.tracked candidate (List.mem_range.mp inside) (by simpa using unselected)

/-- Only the distance to the vector just added is compared. -/
private theorem Tracking.push {index : Nat} (tracking : Tracking solutions selected minDistance)
    (inside : index < solutions.length) :
    Tracking solutions (selected ++ [index]) (minDistance.zipIdx.map fun entry =>
      if entry.2 ∈ selected ++ [index] then entry.1
      else min entry.1 (distanceAt (pairwiseDistances solutions) entry.2 index)) := by
  refine ⟨by simp, ?_, by simp [tracking.measured], ?_⟩
  · simpa [or_imp, forall_and] using ⟨tracking.inRange, inside⟩
  · intro candidate bounded unselected
    have sized : candidate < minDistance.length := by rwa [tracking.measured]
    rw [List.getD_eq_getElem?_getD, List.getElem?_map, List.getElem?_zipIdx, getElem?_eq_getD sized 0, Option.map_some,
      Option.map_some, Option.getD_some]
    dsimp only
    rw [Nat.zero_add, if_neg unselected]
    rw [List.mem_append, List.mem_singleton, not_or] at unselected
    rw [tracking.tracked candidate bounded unselected.1, distanceAt_pairwise bounded inside unselected.2,
      nearest_concat _ tracking.occupied]

private theorem growDiverse_eq (rounds : Nat) (tracking : Tracking solutions selected minDistance) :
    growDiverse (pairwiseDistances solutions) rounds selected minDistance =
      greedy (apart solutions) (List.range solutions.length) rounds selected := by
  induction rounds generalizing selected minDistance with
  | zero => rfl
  | succ rounds ih =>
    rw [growDiverse, greedy, bestCandidate_eq tracking]
    cases found : farthest (apart solutions) (List.range solutions.length) selected with
    | none => rfl
    | some index => exact ih (tracking.push (List.mem_range.mp (mem_of_farthest found).1))

/-- The state the loop starts in. -/
private theorem tracking_start (several : 2 ≤ solutions.length) :
    let distances := pairwiseDistances solutions
    let first := mostDistantPair distances
    Tracking solutions [first.1, first.2] ((List.range solutions.length).map fun candidate =>
      min (distanceAt distances candidate first.1) (distanceAt distances candidate first.2)) := by
  dsimp only
  obtain ⟨ordered, inside⟩ := mem_indexPairs.mp (List.argmax_mem (mostDistantPair_eq several))
  generalize mostDistantPair (pairwiseDistances solutions) = first at ordered inside ⊢
  refine ⟨by simp, ?_, by simp, ?_⟩
  · simpa using ⟨ordered.trans inside, inside⟩
  · intro candidate bounded unselected
    simp only [List.mem_cons, List.not_mem_nil, or_false, not_or] at unselected
    simp only [List.getD_eq_getElem?_getD, List.getElem?_map, List.getElem?_range bounded, Option.map_some,
      Option.getD_some]
    rw [distanceAt_pairwise bounded (ordered.trans inside) unselected.1,
      distanceAt_pairwise bounded inside unselected.2]
    rfl

/-- On valid vectors the optimised selection is the naive one. -/
theorem selectDiverse_naive (valid : ∀ spins ∈ solutions, Spins width spins) (targetCount : Nat) :
    selectDiverse solutions targetCount = .ok (naiveSelectDiverse solutions targetCount) := by
  obtain ⟨family, rfl⟩ := exists_family (validateSolutionSet_spins.mpr valid)
  unfold selectDiverse naiveSelectDiverse
  by_cases nothing : family.map spinsOf = [] ∨ targetCount = 0
  · rw [if_pos nothing, if_pos nothing]
  · have occupied : family ≠ [] := fun empty => nothing (.inl (by rw [empty]; rfl))
    rw [if_neg nothing, if_neg nothing, ensureValidSolutionInputs_family occupied, ok_bind]
    split
    · rfl
    split
    · rfl
    · have several : 2 ≤ (family.map spinsOf).length := by omega
      rw [mostDistantPair_eq several]
      exact congrArg Except.ok (growDiverse_eq _ (tracking_start several))

/-- The naive selection holds different positions in range, as many as asked for
as far as there are vectors. -/
theorem naiveSelectDiverse_spec (solutions : List (List Int)) (targetCount : Nat) :
    (naiveSelectDiverse solutions targetCount).length = min targetCount solutions.length ∧
      (naiveSelectDiverse solutions targetCount).Nodup ∧
      ∀ index ∈ naiveSelectDiverse solutions targetCount, index < solutions.length := by
  unfold naiveSelectDiverse
  split
  · rename_i nothing
    rcases nothing with rfl | rfl <;> simp
  rename_i something
  obtain ⟨occupied, positive⟩ := not_or.mp something
  have some := List.length_pos_iff.mpr occupied
  split
  · rw [List.length_range]
    exact ⟨by omega, List.nodup_range, by simp⟩
  split
  · rename_i single
    rw [single]
    exact ⟨by simp; omega, List.nodup_singleton 0, by simpa using some⟩
  have several : 2 ≤ solutions.length := by omega
  rw [mostDistantPair_eq several]
  obtain ⟨ordered, inside⟩ := mem_indexPairs.mp (List.argmax_mem (mostDistantPair_eq several))
  generalize mostDistantPair (pairwiseDistances solutions) = first at ordered inside ⊢
  have distinct : [first.1, first.2].Nodup := by simpa using ordered.ne
  have within : [first.1, first.2] ⊆ List.range solutions.length := by
    simpa using ⟨ordered.trans inside, inside⟩
  have fits : [first.1, first.2].length + (targetCount - 2) ≤ (List.range solutions.length).length := by
    simp only [List.length_cons, List.length_nil, List.length_range]
    omega
  have length := @greedy_length _ (apart solutions) _ _ _ List.nodup_range _ fits
  refine ⟨?_, greedy_nodup _ distinct, fun index member => List.mem_range.mp (greedy_subset _ within member)⟩
  simp only [length, List.length_cons, List.length_nil]
  omega

/-- The selection on valid vectors: it returns, in range and as many as asked. -/
theorem selectDiverse_family (family : List (Fin width → ℤˣ)) (target : Nat) :
    ∃ indices, selectDiverse (family.map spinsOf) target = .ok indices ∧
      indices.length = min target family.length ∧ ∀ index ∈ indices, index < family.length := by
  have valid := validateSolutionSet_spins.mp (validateSolutionSet_family family)
  obtain ⟨length, -, inRange⟩ := naiveSelectDiverse_spec (family.map spinsOf) target
  rw [List.length_map] at length inRange
  exact ⟨_, selectDiverse_naive valid target, length, inRange⟩

/-- No more vectors than asked for: all are selected, in order. -/
theorem selectDiverse_all {family : List (Fin width → ℤˣ)} {target : Nat} (few : family.length ≤ target) :
    selectDiverse (family.map spinsOf) target = .ok (List.range family.length) := by
  have valid := validateSolutionSet_spins.mp (validateSolutionSet_family family)
  rw [selectDiverse_naive valid, naiveSelectDiverse, List.length_map, if_pos few]
  split
  · rename_i nothing
    have none : family.length = 0 := by
      rcases nothing with empty | rfl
      · rw [List.map_eq_nil_iff.mp empty, List.length_nil]
      · omega
    rw [none]
    rfl
  · rfl

section Picked
variable {α β : Type}

/-- The items at the given positions. -/
def pickedFrom (items : List α) (indices : List Nat) : List α := indices.filterMap fun index => items[index]?

theorem pickedFrom_cons {items : List α} {index : Nat} {item : α} (found : items[index]? = some item)
    (rest : List Nat) : pickedFrom items (index :: rest) = item :: pickedFrom items rest :=
  List.filterMap_cons_some found

theorem pickedFrom_map (f : α → β) (items : List α) (indices : List Nat) :
    pickedFrom (items.map f) indices = (pickedFrom items indices).map f := by
  rw [pickedFrom, pickedFrom, List.map_filterMap]
  simp

theorem pickedFrom_length {items : List α} {indices : List Nat} (inRange : ∀ index ∈ indices, index < items.length) :
    (pickedFrom items indices).length = indices.length := by
  induction indices with
  | nil => rfl
  | cons index rest ih =>
    have later := ih fun other member => inRange other (List.mem_cons_of_mem _ member)
    have found := List.getElem?_eq_getElem (inRange index List.mem_cons_self)
    rw [pickedFrom_cons found, List.length_cons, List.length_cons, later]

theorem pickedFrom_range (items : List α) : pickedFrom items (List.range items.length) = items := by
  induction items with
  | nil => rfl
  | cons first rest ih =>
    rw [List.length_cons, List.range_succ_eq_map, pickedFrom, List.filterMap_cons_some List.getElem?_cons_zero,
      List.filterMap_map]
    exact congrArg (first :: ·) ih

/-- As many different positions as items pick each item once. -/
theorem pickedFrom_perm {items : List α} {indices : List Nat} (inRange : ∀ index ∈ indices, index < items.length)
    (distinct : indices.Nodup) (all : indices.length = items.length) : (pickedFrom items indices).Perm items := by
  have subset : indices ⊆ List.range items.length := fun index member => List.mem_range.mpr (inRange index member)
  have same : indices.Perm (List.range items.length) :=
    (distinct.subperm subset).perm_of_length_le (by rw [List.length_range, all])
  have picked := same.filterMap fun index => items[index]?
  rwa [← pickedFrom, ← pickedFrom, pickedFrom_range] at picked

end Picked

end QuipValidator.IsingDiversity
