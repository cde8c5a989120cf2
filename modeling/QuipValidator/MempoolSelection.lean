import QuipValidator.IsingDiversity

/-! `selection.rs`: best-anchored diverse selection. The result starts with the
best vector, holds in-range positions only, and has exactly the asked number of
them; no index used on the way leaves its list. -/
namespace QuipValidator.Mempool
open Fallible IsingValidation IsingDiversity

/-- The `for candidate in 0..solutions.len()` loop: refresh the distances to
the selected set and remember the first farthest candidate. -/
def scanCandidates (solutions : List (List Int)) (last : List Int) (chosen : List Bool) :
    List Nat → Option Nat → List Nat → Fallible ValidationError (Option Nat × List Nat)
  | [], next, distances => pure (next, distances)
  | candidate :: rest, next, distances => do
    let taken ← expect chosen[candidate]? "index out of bounds"
    if taken then scanCandidates solutions last chosen rest next distances
    else do
      let held ← expect distances[candidate]? "index out of bounds"
      let vector ← expect solutions[candidate]? "index out of bounds"
      let apart ← symmetricHamming vector last
      let refreshed := distances.set candidate (min held apart)
      match next with
      | none => scanCandidates solutions last chosen rest (some candidate) refreshed
      | some index => do
        let farthest ← expect refreshed[index]? "index out of bounds"
        scanCandidates solutions last chosen rest
          (if min held apart > farthest then some candidate else next) refreshed

/-- The `while` loop with `rounds` positions still to select. -/
def growFromBest (solutions : List (List Int)) :
    Nat → List Nat → List Bool → List Nat → Fallible ValidationError (List Nat)
  | 0, selected, _, _ => pure selected
  | rounds + 1, selected, chosen, distances => do
    let last ← expect selected.getLast? "best is always selected"
    let vector ← expect solutions[last]? "index out of bounds"
    let scanned ← scanCandidates solutions vector chosen (List.range solutions.length) none distances
    let next ← expect scanned.1 "an unselected candidate remains"
    growFromBest solutions rounds (selected ++ [next]) (chosen.set next true) scanned.2

/-- Keep `best`, then greedily maximise the minimum distance to the selected set. -/
def selectFromBest (solutions : List (List Int)) (best target : Nat) :
    Fallible ValidationError (List Nat) := do
  let _ ← expect solutions[best]? "index out of bounds"
  growFromBest solutions (min (max target 1) solutions.length - 1) [best]
    ((List.replicate solutions.length false).set best true) (List.replicate solutions.length u32Max)

/-- What the loop keeps: in-range positions, flagged exactly when selected. -/
private structure Selecting (count : Nat) (selected : List Nat) (chosen : List Bool) (distances : List Nat) :
    Prop where
  measured : distances.length = count
  inRange : ∀ index ∈ selected, index < count
  flagged : ∀ index, index < count → chosen[index]? = some (decide (index ∈ selected))

variable {solutions : List (List Int)} {selected distances : List Nat} {chosen : List Bool}

/-- A remembered candidate is in range and not yet selected. -/
private def Fresh (count : Nat) (selected : List Nat) (next : Option Nat) : Prop :=
  ∀ index, next = some index → index < count ∧ index ∉ selected

private theorem scanCandidates_safe (last : List Int) (selecting : Selecting solutions.length selected chosen distances)
    (candidates : List Nat) (within : ∀ candidate ∈ candidates, candidate < solutions.length)
    (next : Option Nat) (fresh : Fresh solutions.length selected next) :
    Safe (scanCandidates solutions last chosen candidates next distances) fun scanned =>
      scanned.2.length = solutions.length ∧ Fresh solutions.length selected scanned.1 ∧
        (next.isSome ∨ (∃ candidate ∈ candidates, candidate ∉ selected) → scanned.1.isSome) := by
  induction candidates generalizing next distances with
  | nil =>
    refine safe_pure ⟨selecting.measured, fresh, ?_⟩
    rintro (found | ⟨_, impossible, _⟩)
    · exact found
    · cases impossible
  | cons candidate rest ih =>
    have bounded := within candidate List.mem_cons_self
    have later : ∀ other ∈ rest, other < solutions.length := fun other member =>
      within other (List.mem_cons_of_mem _ member)
    refine safe_bind (safe_expect (selecting.flagged candidate bounded)) ?_
    rintro taken rfl
    by_cases already : candidate ∈ selected
    · simp only [already, decide_true, if_true]
      refine (ih selecting later next fresh).mono fun scanned kept => ⟨kept.1, kept.2.1, fun reason => kept.2.2 ?_⟩
      rcases reason with found | ⟨other, member, outside⟩
      · exact .inl found
      · rcases List.mem_cons.mp member with rfl | member
        · exact absurd already outside
        · exact .inr ⟨other, member, outside⟩
    · simp only [already, decide_false, Bool.false_eq_true, if_false]
      have readable : distances[candidate]? = some (distances.getD candidate 0) := by
        rw [List.getElem?_eq_getElem (by rw [selecting.measured]; exact bounded)]
        simp [selecting.measured, bounded]
      refine safe_bind (safe_expect readable) ?_
      rintro held -
      refine safe_bind (safe_expect (List.getElem?_eq_getElem bounded)) ?_
      rintro vector -
      refine safe_bind (symmetricHamming_safe vector last) ?_
      rintro apart -
      have refreshed : Selecting solutions.length selected chosen (distances.set candidate (min held apart)) :=
        ⟨by rw [List.length_set, selecting.measured], selecting.inRange, selecting.flagged⟩
      have unselected : Fresh solutions.length selected (some candidate) := by
        rintro index ⟨⟩
        exact ⟨bounded, already⟩
      cases next with
      | none =>
        exact (ih refreshed later (some candidate) unselected).mono fun scanned kept =>
          ⟨kept.1, kept.2.1, fun _ => kept.2.2 (.inl rfl)⟩
      | some index =>
        have inside : index < (distances.set candidate (min held apart)).length := by
          rw [refreshed.measured]
          exact (fresh index rfl).1
        refine safe_bind (safe_expect (List.getElem?_eq_getElem inside)) ?_
        rintro farthest -
        refine (ih refreshed later _ ?_).mono fun scanned kept =>
          ⟨kept.1, kept.2.1, fun _ => kept.2.2 (.inl ?_)⟩
        · split
          · exact unselected
          · exact fresh
        · split <;> rfl

private theorem growFromBest_safe (rounds : Nat) (occupied : selected ≠ [])
    (fits : selected.length + rounds ≤ solutions.length) (distinct : selected.Nodup)
    (selecting : Selecting solutions.length selected chosen distances) :
    Safe (growFromBest solutions rounds selected chosen distances) fun result =>
      selected <+: result ∧ result.length = selected.length + rounds ∧
        (∀ index ∈ result, index < solutions.length) ∧ result.Nodup := by
  induction rounds generalizing selected chosen distances with
  | zero => exact safe_pure ⟨List.prefix_rfl, rfl, selecting.inRange, distinct⟩
  | succ rounds ih =>
    have tail := List.getLast?_eq_some_getLast occupied
    refine safe_bind (safe_expect tail) ?_
    rintro last rfl
    have lastInRange := selecting.inRange _ (List.getLast_mem occupied)
    refine safe_bind (safe_expect (List.getElem?_eq_getElem lastInRange)) ?_
    rintro vector -
    refine safe_bind (scanCandidates_safe vector selecting _ (by simp) none (by intro index found; cases found)) ?_
    rintro scanned ⟨measured, fresh, found⟩
    obtain ⟨next, isNext⟩ := Option.isSome_iff_exists.mp (found (.inr (unselected_remains (by omega))))
    obtain ⟨nextInRange, nextFresh⟩ := fresh next isNext
    refine safe_bind (safe_expect isNext) ?_
    rintro picked same
    subst picked
    have apart : (selected ++ [next]).Nodup := by
      rw [List.nodup_append_comm]
      exact List.nodup_cons.mpr ⟨nextFresh, distinct⟩
    refine (ih (by simp) (by simp; omega) apart ⟨measured, ?_, ?_⟩).mono ?_
    · simpa [or_imp, forall_and] using ⟨selecting.inRange, nextInRange⟩
    · intro index bounded
      by_cases same : index = next
      · subst same
        have sized : index < chosen.length := (List.getElem?_eq_some_iff.mp (selecting.flagged index bounded)).1
        simp [sized]
      · rw [List.getElem?_set_ne (Ne.symm same), selecting.flagged index bounded]
        simp [same]
    · rintro result ⟨extends_, width, inRange⟩
      refine ⟨(List.prefix_append _ _).trans extends_, ?_, inRange⟩
      rw [width, List.length_append, List.length_singleton]
      omega

/-- The selection never panics; it starts with `best`, stays in range and has
the asked number of positions, all different. -/
theorem selectFromBest_safe {best : Nat} (target : Nat) (inRange : best < solutions.length) :
    Safe (selectFromBest solutions best target) fun selected =>
      [best] <+: selected ∧ selected.length = min (max target 1) solutions.length ∧
        (∀ index ∈ selected, index < solutions.length) ∧ selected.Nodup := by
  refine safe_bind (safe_expect (List.getElem?_eq_getElem inRange)) ?_
  rintro _ -
  refine (growFromBest_safe _ (by simp) ?_ (List.nodup_singleton best) ⟨by simp, by simpa using inRange, ?_⟩).mono ?_
  · simp only [List.length_singleton]
    omega
  · intro index bounded
    by_cases same : index = best
    · subst same
      simp [bounded]
    · rw [List.getElem?_set_ne (Ne.symm same)]
      simp [bounded, same]
  · rintro selected ⟨starts, width, within⟩
    refine ⟨starts, ?_, within⟩
    rw [width, List.length_singleton]
    omega

/-- On vectors of one width with valid spins no comparison is refused. -/
private theorem symmetricHamming_avoids {width : Nat} {a b : List Int} (reason : ValidationError)
    (left : Spins width a) (right : Spins width b) : Avoids reason (symmetricHamming a b) := by
  rw [symmetricHamming_eq left right]
  exact avoids_pure _

private theorem scanCandidates_avoids {width : Nat} {last : List Int} (reason : ValidationError)
    (valid : ∀ spins ∈ solutions, Spins width spins) (anchored : Spins width last) (candidates : List Nat)
    (next : Option Nat) : Avoids reason (scanCandidates solutions last chosen candidates next distances) := by
  induction candidates generalizing next distances with
  | nil => exact avoids_pure _
  | cons candidate rest ih =>
    refine avoids_bind avoids_expect fun taken _ => ?_
    split
    · exact ih next
    refine avoids_bind avoids_expect fun held _ => ?_
    refine avoids_bind avoids_expect fun vector found => ?_
    have member := List.mem_of_getElem? (expect_success.mp found)
    refine avoids_bind (symmetricHamming_avoids reason (valid vector member) anchored) fun apart _ => ?_
    cases next with
    | none => exact ih _
    | some index => exact avoids_bind avoids_expect fun farthest _ => ih _

private theorem growFromBest_avoids {width : Nat} (reason : ValidationError)
    (valid : ∀ spins ∈ solutions, Spins width spins) (rounds : Nat) :
    Avoids reason (growFromBest solutions rounds selected chosen distances) := by
  induction rounds generalizing selected chosen distances with
  | zero => exact avoids_pure _
  | succ rounds ih =>
    refine avoids_bind avoids_expect fun last _ => ?_
    refine avoids_bind avoids_expect fun vector found => ?_
    have member := List.mem_of_getElem? (expect_success.mp found)
    refine avoids_bind (scanCandidates_avoids reason valid (valid vector member) _ _) fun scanned _ => ?_
    exact avoids_bind avoids_expect fun next _ => ih

/-- On valid vectors the selection returns. -/
theorem selectFromBest_returns {best width : Nat} (target : Nat) (inRange : best < solutions.length)
    (valid : validateSolutionSet solutions width) :
    ∃ selected, selectFromBest solutions best target = .ok selected ∧
      selected.length = min (max target 1) solutions.length ∧
        (∀ index ∈ selected, index < solutions.length) ∧ selected.Nodup := by
  have comparable := validateSolutionSet_spins.mp valid
  have safe := selectFromBest_safe target inRange
  cases ran : selectFromBest solutions best target with
  | ok selected => exact ⟨selected, rfl, (safe.result ran).2⟩
  | error fault =>
    cases fault with
    | panic message => exact absurd ran (safe.no_panic message)
    | error reason =>
      have avoided : Avoids reason (selectFromBest solutions best target) :=
        avoids_bind avoids_expect fun _ _ => growFromBest_avoids reason comparable _
      exact absurd ran avoided

end QuipValidator.Mempool
