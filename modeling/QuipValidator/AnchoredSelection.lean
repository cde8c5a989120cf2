import QuipValidator.DiverseSelection
import QuipValidator.MempoolSelection

/-! `select_from_best` is the farthest-point selection from the best vector. A
round compares every candidate with the last selected vector only; what it holds
from the rounds before accounts for all the others. -/
namespace QuipValidator.Mempool
open Fallible IsingValidation IsingDiversity FarthestPoint

/-- The naive best-anchored selection: every round measures all distances anew. -/
def naiveSelectFromBest (solutions : List (List Int)) (best target : Nat) : List Nat :=
  greedy (apart solutions) (List.range solutions.length) (min (max target 1) solutions.length - 1) [best]

/-- What the loop keeps between its rounds: the distance held for an unselected
vector lacks only the comparison with the last selected one. -/
private structure Lagging (solutions : List (List Int)) (earlier : List Nat) (last : Nat) (chosen : List Bool)
    (distances : List Nat) : Prop where
  inRange : last < solutions.length
  measured : distances.length = solutions.length
  flagged : ∀ index, index < solutions.length → chosen[index]? = some (decide (index ∈ earlier ++ [last]))
  lagging : ∀ candidate, candidate < solutions.length → candidate ∉ earlier ++ [last] →
    min (distances.getD candidate 0) (apart solutions candidate last) =
      nearest (apart solutions) (earlier ++ [last]) candidate

variable {width : Nat} {solutions : List (List Int)} {selected distances : List Nat} {chosen : List Bool}

private theorem symmetricHamming_apart (valid : ∀ spins ∈ solutions, Spins width spins) {i j : Nat}
    (left : i < solutions.length) (right : j < solutions.length) :
    symmetricHamming (solutions.getD i []) (solutions.getD j []) = .ok (apart solutions i j) := by
  apply @symmetricHamming_eq width
  · exact valid _ (List.mem_of_getElem? (getElem?_eq_getD left []))
  · exact valid _ (List.mem_of_getElem? (getElem?_eq_getD right []))

private theorem getD_set {items : List Nat} {index other value : Nat} (inside : index < items.length) :
    (items.set index value).getD other 0 = if other = index then value else items.getD other 0 := by
  rw [List.getD_eq_getElem?_getD, List.getD_eq_getElem?_getD, List.getElem?_set]
  by_cases same : index = other
  · simp [same, same ▸ inside]
  · simp [same, Ne.symm same]

/-- What the scan keeps: the entries of the candidates to come are as the round
found them, and the entry of the candidate it remembers is final. -/
private structure Scanning (solutions : List (List Int)) (selected : List Nat) (last : Nat) (reached : Nat → Nat)
    (candidates : List Nat) (next : Option Nat) (distances : List Nat) : Prop where
  measured : distances.length = solutions.length
  distinct : candidates.Nodup
  within : ∀ candidate ∈ candidates, candidate < solutions.length
  pending : ∀ candidate ∈ candidates, candidate ∉ selected →
    min (distances.getD candidate 0) (apart solutions candidate last) = reached candidate
  held : ∀ index, next = some index →
    index < solutions.length ∧ index ∉ candidates ∧ distances.getD index 0 = reached index

section Scan
variable {last candidate : Nat} {reached : Nat → Nat} {rest : List Nat} {next : Option Nat}

private theorem Scanning.skip (scanning : Scanning solutions selected last reached (candidate :: rest) next distances) :
    Scanning solutions selected last reached rest next distances := by
  refine ⟨scanning.measured, (List.nodup_cons.mp scanning.distinct).2, ?_, ?_, ?_⟩
  · exact fun other member => scanning.within other (List.mem_cons_of_mem _ member)
  · exact fun other member => scanning.pending other (List.mem_cons_of_mem _ member)
  · intro index found
    obtain ⟨inside, outside, value⟩ := scanning.held index found
    exact ⟨inside, fun member => outside (List.mem_cons_of_mem _ member), value⟩

private theorem Scanning.measure
    (scanning : Scanning solutions selected last reached (candidate :: rest) next distances) :
    Scanning solutions selected last reached rest (List.argAux (fun b c => reached c < reached b) next candidate)
      (distances.set candidate (reached candidate)) := by
  have inside := scanning.within candidate List.mem_cons_self
  have sized : candidate < distances.length := by rwa [scanning.measured]
  have fresh := (List.nodup_cons.mp scanning.distinct).1
  have rested := scanning.skip
  refine ⟨by rw [List.length_set, scanning.measured], rested.distinct, rested.within, ?_, ?_⟩
  · intro other member unselected
    rw [getD_set sized, if_neg (ne_of_mem_of_not_mem member fresh)]
    exact rested.pending other member unselected
  · have written : candidate < solutions.length ∧ candidate ∉ rest ∧
        (distances.set candidate (reached candidate)).getD candidate 0 = reached candidate :=
      ⟨inside, fresh, by rw [getD_set sized, if_pos rfl]⟩
    intro index found
    cases next with
    | none =>
      cases found
      exact written
    | some kept =>
      obtain ⟨keptInside, outside, value⟩ := scanning.held kept rfl
      change (if reached kept < reached candidate then some candidate else some kept) = some index at found
      by_cases better : reached kept < reached candidate
      · rw [if_pos better] at found
        cases found
        exact written
      · rw [if_neg better] at found
        cases found
        refine ⟨keptInside, fun member => outside (List.mem_cons_of_mem _ member), ?_⟩
        rw [getD_set sized, if_neg (ne_of_mem_of_not_mem List.mem_cons_self outside).symm, value]

private theorem scanCandidates_skips (taken : chosen[candidate]? = some true) (vector : List Int) :
    scanCandidates solutions vector chosen (candidate :: rest) next distances =
      scanCandidates solutions vector chosen rest next distances := by
  rw [scanCandidates, taken]
  rfl

/-- An unselected candidate is measured, and kept if nothing before is as far. -/
private theorem scanCandidates_measures (valid : ∀ spins ∈ solutions, Spins width spins)
    (anchored : last < solutions.length)
    (scanning : Scanning solutions selected last reached (candidate :: rest) next distances)
    (unselected : candidate ∉ selected) (free : chosen[candidate]? = some false) :
    scanCandidates solutions (solutions.getD last []) chosen (candidate :: rest) next distances =
      scanCandidates solutions (solutions.getD last []) chosen rest
        (List.argAux (fun b c => reached c < reached b) next candidate)
        (distances.set candidate (reached candidate)) := by
  have inside := scanning.within candidate List.mem_cons_self
  have sized : candidate < distances.length := by rwa [scanning.measured]
  have refreshed := scanning.pending candidate List.mem_cons_self unselected
  rw [scanCandidates, free, getElem?_eq_getD sized 0, getElem?_eq_getD inside []]
  simp only [expect, ok_bind, Bool.false_eq_true, if_false, symmetricHamming_apart valid inside anchored, refreshed]
  cases next with
  | none => rfl
  | some kept =>
    obtain ⟨keptInside, outside, value⟩ := scanning.held kept rfl
    have readable : (distances.set candidate (reached candidate))[kept]? = some (reached kept) := by
      have other : candidate ≠ kept := ne_of_mem_of_not_mem List.mem_cons_self outside
      rw [List.getElem?_set_ne other, getElem?_eq_getD (by rwa [scanning.measured]) 0, value]
    simp only [readable, ok_bind]
    rfl

/-- The scan writes `reached candidate` for every unselected candidate and
remembers the first greatest of these values. -/
private theorem scanCandidates_eq (valid : ∀ spins ∈ solutions, Spins width spins) (anchored : last < solutions.length)
    (flagged : ∀ index, index < solutions.length → chosen[index]? = some (decide (index ∈ selected)))
    (candidates : List Nat) (scanning : Scanning solutions selected last reached candidates next distances) :
    ∃ refreshed, scanCandidates solutions (solutions.getD last []) chosen candidates next distances =
        .ok ((candidates.filter (· ∉ selected)).foldl (List.argAux fun b c => reached c < reached b) next, refreshed) ∧
      refreshed.length = solutions.length ∧
      ∀ candidate, refreshed.getD candidate 0 =
        if candidate ∈ candidates ∧ candidate ∉ selected then reached candidate else distances.getD candidate 0 := by
  induction candidates generalizing next distances with
  | nil => exact ⟨distances, rfl, scanning.measured, by simp⟩
  | cons candidate rest ih =>
    have inside := scanning.within candidate List.mem_cons_self
    have fresh := (List.nodup_cons.mp scanning.distinct).1
    by_cases already : candidate ∈ selected
    · have taken : chosen[candidate]? = some true := by rw [flagged candidate inside, decide_eq_true already]
      obtain ⟨refreshed, scanned, length, values⟩ := ih scanning.skip
      rw [scanCandidates_skips taken, scanned, List.filter_cons_of_neg (by simpa using already)]
      refine ⟨refreshed, rfl, length, fun other => ?_⟩
      rw [values other]
      refine if_congr ?_ rfl rfl
      rw [List.mem_cons, or_and_right, iff_or_self]
      rintro ⟨rfl, unselected⟩
      exact absurd already unselected
    · have free : chosen[candidate]? = some false := by rw [flagged candidate inside, decide_eq_false already]
      have sized : candidate < distances.length := by rwa [scanning.measured]
      obtain ⟨refreshed, scanned, length, values⟩ := ih scanning.measure
      rw [scanCandidates_measures valid anchored scanning already free,
        List.filter_cons_of_pos (by simpa using already), List.foldl_cons]
      refine ⟨refreshed, scanned, length, fun other => ?_⟩
      rw [values other, getD_set sized]
      by_cases same : other = candidate
      · subst same
        rw [if_neg (fun both => fresh both.1), if_pos rfl, if_pos ⟨List.mem_cons_self, already⟩]
      · rw [if_neg same]
        refine if_congr ?_ rfl rfl
        rw [List.mem_cons, or_iff_right same]

end Scan

/-- A round appends the farthest vector. -/
private theorem growFromBest_round (valid : ∀ spins ∈ solutions, Spins width spins) {earlier : List Nat} {last : Nat}
    (lagging : Lagging solutions earlier last chosen distances) (rounds : Nat) {next : Nat}
    (found : farthest (apart solutions) (List.range solutions.length) (earlier ++ [last]) = some next) :
    ∃ refreshed, growFromBest solutions (rounds + 1) (earlier ++ [last]) chosen distances =
        growFromBest solutions rounds (earlier ++ [last] ++ [next]) (chosen.set next true) refreshed ∧
      Lagging solutions (earlier ++ [last]) next (chosen.set next true) refreshed := by
  obtain ⟨listed, unselected⟩ := mem_of_farthest found
  have inside := List.mem_range.mp listed
  have start : Scanning solutions (earlier ++ [last]) last (nearest (apart solutions) (earlier ++ [last]))
      (List.range solutions.length) none distances := by
    refine ⟨lagging.measured, List.nodup_range, by simp, ?_, by rintro _ ⟨⟩⟩
    exact fun candidate member => lagging.lagging candidate (List.mem_range.mp member)
  obtain ⟨refreshed, scanned, length, values⟩ := scanCandidates_eq valid lagging.inRange lagging.flagged _ start
  have picked : ((List.range solutions.length).filter (· ∉ earlier ++ [last])).foldl
      (List.argAux fun b c => nearest (apart solutions) (earlier ++ [last]) c <
        nearest (apart solutions) (earlier ++ [last]) b) none = some next := found
  refine ⟨refreshed, ?_, inside, length, ?_, ?_⟩
  · rw [growFromBest, List.getLast?_concat]
    simp only [expect, ok_bind, getElem?_eq_getD lagging.inRange [], scanned, picked]
  · intro index bounded
    have held := lagging.flagged index bounded
    have sized : index < chosen.length := (List.getElem?_eq_some_iff.mp held).1
    by_cases same : index = next
    · subst same
      simp [sized]
    · rw [List.getElem?_set_ne (Ne.symm same), held]
      simp [same]
  · intro candidate bounded outside
    rw [List.mem_append, List.mem_singleton, not_or] at outside
    have appended := nearest_concat (apart solutions) (List.concat_ne_nil last earlier) next candidate
    rw [values candidate, if_pos ⟨List.mem_range.mpr bounded, outside.1⟩, appended]

private theorem growFromBest_eq (valid : ∀ spins ∈ solutions, Spins width spins) (rounds : Nat) {earlier : List Nat}
    {last : Nat} (lagging : Lagging solutions earlier last chosen distances)
    (fits : (earlier ++ [last]).length + rounds ≤ solutions.length) :
    growFromBest solutions rounds (earlier ++ [last]) chosen distances =
      .ok (greedy (apart solutions) (List.range solutions.length) rounds (earlier ++ [last])) := by
  induction rounds generalizing earlier last chosen distances with
  | zero => rfl
  | succ rounds ih =>
    have few : (earlier ++ [last]).length < (List.range solutions.length).length := by
      rw [List.length_range]
      omega
    obtain ⟨next, found⟩ := @exists_farthest _ (apart solutions) _ _ _ List.nodup_range few
    obtain ⟨refreshed, grown, later⟩ := growFromBest_round valid lagging rounds found
    rw [grown, greedy_succ rounds found, ih later]
    rw [List.length_append, List.length_singleton]
    omega

/-- A distance counts positions, so the first comparison replaces the `u32::MAX`
every entry starts with. -/
private theorem apart_le (valid : ∀ spins ∈ solutions, Spins width spins) {i : Nat} (inside : i < solutions.length)
    (j : Nat) : apart solutions i j ≤ width := by
  have spins := valid _ (List.mem_of_getElem? (getElem?_eq_getD inside []))
  calc apart solutions i j ≤ ((solutions.getD i []).zip (solutions.getD j [])).length :=
        (Nat.min_le_left _ _).trans (List.length_filter_le _ _)
    _ ≤ (solutions.getD i []).length := by
        rw [List.length_zip]
        exact Nat.min_le_left _ _
    _ = width := spins.1

private theorem lagging_start (valid : ∀ spins ∈ solutions, Spins width spins) (narrow : width ≤ u32Max) {best : Nat}
    (inRange : best < solutions.length) :
    Lagging solutions [] best ((List.replicate solutions.length false).set best true)
      (List.replicate solutions.length u32Max) := by
  refine ⟨inRange, List.length_replicate, ?_, ?_⟩
  · intro index bounded
    by_cases same : index = best
    · subst same
      simp [bounded]
    · rw [List.getElem?_set_ne (Ne.symm same)]
      simp [bounded, same]
  · intro candidate bounded _
    have close := apart_le valid bounded best
    rw [List.getD_eq_getElem?_getD, List.getElem?_replicate_of_lt bounded, Option.getD_some, List.nil_append,
      nearest_singleton]
    omega

section Anchored
variable {best : Nat} (inRange : best < solutions.length) (target : Nat)
include inRange

private theorem rounds_fit :
    [best].length + (min (max target 1) solutions.length - 1) ≤ (List.range solutions.length).length := by
  rw [List.length_singleton, List.length_range]
  omega

theorem selectFromBest_naive (valid : ∀ spins ∈ solutions, Spins width spins) (narrow : width ≤ u32Max) :
    selectFromBest solutions best target = .ok (naiveSelectFromBest solutions best target) := by
  have fits := rounds_fit inRange target
  rw [List.length_range] at fits
  rw [selectFromBest, List.getElem?_eq_getElem inRange, expect, ok_bind]
  exact growFromBest_eq valid _ (lagging_start valid narrow inRange) fits

theorem naiveSelectFromBest_spec :
    (naiveSelectFromBest solutions best target).length = min (max target 1) solutions.length ∧
      (naiveSelectFromBest solutions best target).Nodup ∧
      ∀ index ∈ naiveSelectFromBest solutions best target, index < solutions.length := by
  have length := @greedy_length _ (apart solutions) _ _ _ List.nodup_range _ (rounds_fit inRange target)
  have inside : [best] ⊆ List.range solutions.length := by simpa using inRange
  refine ⟨?_, greedy_nodup _ (List.nodup_singleton best),
    fun index member => List.mem_range.mp (greedy_subset _ inside member)⟩
  rw [naiveSelectFromBest, length, List.length_singleton]
  omega

end Anchored

/-- `select_from_best` is the naive best-anchored selection and neither `expect`
fails. The distances are `u32` counts of positions, so the vectors are those
whose positions a `u32` counts; `MaxNodes` is one. -/
theorem selectFromBest_refines (valid : ∀ spins ∈ solutions, Spins width spins) (narrow : width ≤ u32Max) {best : Nat}
    (inRange : best < solutions.length) (target : Nat) :
    selectFromBest solutions best target = .ok (naiveSelectFromBest solutions best target) ∧
      [best] <+: naiveSelectFromBest solutions best target ∧
      (naiveSelectFromBest solutions best target).Nodup ∧
      (∀ index ∈ naiveSelectFromBest solutions best target, index < solutions.length) ∧
      (naiveSelectFromBest solutions best target).length = min (max target 1) solutions.length := by
  obtain ⟨length, distinct, within⟩ := naiveSelectFromBest_spec inRange target
  exact ⟨selectFromBest_naive inRange target valid narrow, greedy_starts _, distinct, within, length⟩

/-- All others are at one distance from the best, and then from the two selected: ties go by position. -/
theorem selectFromBest_tied :
    selectFromBest [[1, 1, 1, -1], [1, 1, 1, 1], [1, 1, -1, 1], [1, -1, 1, 1]] 1 3 = .ok [1, 0, 2] ∧
      (naiveSelectFromBest [[1, 1, 1, -1], [1, 1, 1, 1], [1, 1, -1, 1], [1, -1, 1, 1]] 1 3).Nodup := by
  have valid : ∀ spins ∈ [[1, 1, 1, -1], [1, 1, 1, 1], [1, 1, -1, 1], [1, -1, 1, 1]], Spins 4 spins := by
    simp [Spins, IsSpin]
  obtain ⟨selected, -, distinct, -, -⟩ := @selectFromBest_refines 4 _ valid (by simp [u32Max]) 1 (by simp) 3
  exact ⟨selected, distinct⟩

end QuipValidator.Mempool
