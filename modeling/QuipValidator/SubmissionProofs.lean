import QuipValidator.MempoolSubmission

/-! What an accepted record says is true of the vectors stored with it, and no
`expect` on the way to it can fire. The VM may return any list of vectors: the
three passes over it (scoring, selection, bounding) are followed one by one. -/
namespace QuipValidator.Mempool
open Fallible IsingValidation IsingEnergy IsingDiversity

variable {T : Config}

/-- The Ising energy of a vector under an order's parameters. -/
def energyUnder (params : IsingParams T) (solution : List Int) : Int :=
  isingEnergy params.nodes.val params.edges.val params.hValues.val params.jValues.val solution

/-- One spin for each node, and below the ceiling if there is one. -/
structure Admissible (params : IsingParams T) (solution : List Int) : Prop where
  shaped : solution.length = params.nodes.val.length
  occupied : params.nodes.val ≠ []
  spins : ∀ spin ∈ solution, IsSpin spin
  ceiling : ∀ maxEnergy ∈ params.maxEnergyMilli, energyUnder params solution ≤ maxEnergy

/-- The record tells the truth about its own vectors. -/
structure Truthful (params : IsingParams T) (record : JobSolution T) : Prop where
  admissible : ∀ solution ∈ record.solutions.val, Admissible params solution.val
  least : ∀ solution ∈ record.solutions.val, record.bestEnergyMilli ≤ energyUnder params solution.val
  attained : ∃ solution ∈ record.solutions.val, energyUnder params solution.val = record.bestEnergyMilli
  counted : record.numValid = record.solutions.val.length
  occupied : 1 ≤ record.numValid
  enough : ∀ minSolutions ∈ params.minSolutions, minSolutions ≤ record.numValid
  measured : calculateDiversity (record.solutions.val.map Subtype.val) = .ok record.diversityMilli
  diverse : ∀ minDiversity ∈ params.minDiversityMilli, minDiversity ≤ record.diversityMilli

/-- The invariant of the scoring loop: the best energy is a lower bound, and
`bestIndex` attains it as soon as there is a valid vector. -/
structure SoundScore (params : IsingParams T) (scored : Scored) : Prop where
  admissible : ∀ solution ∈ scored.validSolutions, Admissible params solution
  least : ∀ solution ∈ scored.validSolutions, scored.bestEnergy ≤ energyUnder params solution
  attained : scored.validSolutions = [] ∧ scored.bestEnergy = i64Max ∧ scored.bestIndex = 0 ∨
    ∃ solution, scored.validSolutions[scored.bestIndex]? = some solution ∧
      energyUnder params solution = scored.bestEnergy

section Scoring
variable {params : IsingParams T} {topology : TopologyIndex}

/-- The accumulators after one more valid vector. -/
private def pushed (scored : Scored) (solution : List Int) (energy : Int) : Scored :=
  if energy < scored.bestEnergy then ⟨scored.validSolutions ++ [solution], energy, scored.validSolutions.length⟩
  else { scored with validSolutions := scored.validSolutions ++ [solution] }

private theorem scoreSolutions_cons (params : IsingParams T) (topology : TopologyIndex) (solution : List Int)
    (rest : List (List Int)) (scored : Scored) :
    scoreSolutions params topology (solution :: rest) scored = (do
      let energy ← validated (energyOfSolutionIndexed solution params.hValues.val params.edges.val
        params.jValues.val topology)
      if aboveCeiling params energy then scoreSolutions params topology rest scored
      else scoreSolutions params topology rest (pushed scored solution energy)) := by
  rw [scoreSolutions]
  congr
  funext energy
  unfold pushed
  split
  · rfl
  · split <;> rfl

private theorem pushed_sound {scored : Scored} {solution : List Int} (sound : SoundScore params scored)
    (admissible : Admissible params solution) (bounded : energyUnder params solution ≤ i64Max) :
    SoundScore params (pushed scored solution (energyUnder params solution)) := by
  unfold pushed
  have admitted : ∀ other ∈ scored.validSolutions ++ [solution], Admissible params other := by
    intro other member
    rcases List.mem_append.mp member with old | new
    · exact sound.admissible other old
    · rw [List.mem_singleton.mp new]
      exact admissible
  by_cases better : energyUnder params solution < scored.bestEnergy
  · rw [if_pos better]
    refine ⟨admitted, ?_, .inr ⟨solution, by simp, rfl⟩⟩
    intro other member
    rcases List.mem_append.mp member with old | new
    · exact le_of_lt (lt_of_lt_of_le better (sound.least other old))
    · rw [List.mem_singleton.mp new]
  · rw [if_neg better]
    refine ⟨admitted, ?_, .inr ?_⟩
    · intro other member
      rcases List.mem_append.mp member with old | new
      · exact sound.least other old
      · rw [List.mem_singleton.mp new]
        exact not_lt.mp better
    · -- The loop starts from `i64::MAX`, which a first vector may only equal.
      rcases sound.attained with ⟨empty, start, first⟩ | ⟨best, found, attains⟩
      · refine ⟨solution, by simp [empty, first], ?_⟩
        rw [start] at better ⊢
        omega
      · exact ⟨best, by rw [List.getElem?_append_left (List.getElem?_eq_some_iff.mp found).1]; exact found, attains⟩

theorem scoreSolutions_safe (built : TopologyIndex.new params.nodes.val params.edges.val = .ok topology)
    (solutions : List (List Int)) {scored : Scored} (sound : SoundScore params scored) :
    Safe (scoreSolutions params topology solutions scored) fun final => SoundScore params final ∧
      final.validSolutions.length ≤ scored.validSolutions.length + solutions.length := by
  induction solutions generalizing scored with
  | nil => exact ⟨sound, Nat.le_refl _⟩
  | cons solution rest ih =>
    rw [scoreSolutions_cons]
    refine safe_bind (safe_mapErr (energyOfSolutionIndexed_safe _ _ solution built)) fun energy ran => ?_
    obtain ⟨width, occupied, spins, exact, bounded⟩ := energyOfSolutionIndexed_exact built ran
    by_cases above : aboveCeiling params energy = true
    · rw [if_pos above]
      refine (ih sound).mono fun final kept => ⟨kept.1, ?_⟩
      rw [List.length_cons]
      omega
    · rw [if_neg above]
      have admissible : Admissible params solution := by
        refine ⟨width, occupied, spins, ?_⟩
        intro maxEnergy set
        rw [Option.mem_def] at set
        simp only [aboveCeiling, set, decide_eq_true_eq, not_lt] at above
        rw [energyUnder, ← exact]
        exact above
      have kept := pushed_sound sound admissible (by rw [energyUnder, ← exact]; exact bounded)
      rw [energyUnder, ← exact] at kept
      refine (ih kept).mono fun final reached => ⟨reached.1, ?_⟩
      have grown := reached.2
      have width : (pushed scored solution energy).validSolutions.length = scored.validSolutions.length + 1 := by
        unfold pushed
        split <;> simp
      rw [List.length_cons]
      omega

theorem pickSolutions_safe {valid : List (List Int)} (indices : List Nat)
    (inRange : ∀ index ∈ indices, index < valid.length) :
    Safe (pickSolutions valid indices) fun picked => picked.length = indices.length ∧
      (∀ solution ∈ picked, solution ∈ valid) ∧
      ∀ index ∈ indices, ∀ solution, valid[index]? = some solution → solution ∈ picked := by
  induction indices with
  | nil => exact ⟨rfl, by simp, by simp⟩
  | cons index rest ih =>
    have found := List.getElem?_eq_getElem (inRange index List.mem_cons_self)
    refine safe_bind (safe_expect found) ?_
    rintro solution rfl
    refine safe_bind (ih fun other member => inRange other (List.mem_cons_of_mem _ member)) ?_
    rintro picked ⟨width, listed, complete⟩
    refine safe_pure ⟨by rw [List.length_cons, List.length_cons, width], ?_, ?_⟩
    · intro solution member
      rcases List.mem_cons.mp member with rfl | later
      · exact List.getElem_mem _
      · exact listed solution later
    · intro probe member solution probed
      rcases List.mem_cons.mp member with rfl | later
      · rw [found, Option.some.injEq] at probed
        rw [probed]
        exact List.mem_cons_self
      · exact List.mem_cons_of_mem _ (complete probe later solution probed)

private theorem boundVectors_safe (selected : List (List Int))
    (fits : ∀ solution ∈ selected, solution.length ≤ T.maxNodes) :
    Safe (boundVectors T selected) fun vectors => vectors.map Subtype.val = selected := by
  induction selected with
  | nil => exact rfl
  | cons solution rest ih =>
    refine safe_bind (safe_expect (BoundedVec.tryFrom_of_le (fits solution List.mem_cons_self))) fun bounded same => ?_
    refine safe_bind (ih fun other member => fits other (List.mem_cons_of_mem _ member)) fun others mapped => ?_
    exact safe_pure (by rw [List.map_cons, mapped, same])

/-- Scoring a submission never panics, and the record it returns is truthful
and better than the one it replaces. -/
theorem scoreSubmission_safe (built : TopologyIndex.new params.nodes.val params.edges.val = .ok topology)
    (previous : Option (JobSolution T)) (solver : T.AccountId) (solverType : MinerType) (now : Nat)
    (transformed : List (List Int)) :
    Safe (scoreSubmission params topology previous solver solverType now transformed) fun record =>
      Truthful params record ∧ record.solver = solver ∧
        ∀ accepted ∈ previous, record.bestEnergyMilli < accepted.bestEnergyMilli := by
  have start : SoundScore params ⟨[], i64Max, 0⟩ := ⟨by simp, by simp, .inl ⟨rfl, rfl, rfl⟩⟩
  refine safe_bind safe_ensure fun _ _ => ?_
  refine safe_bind safe_ensure fun _ fewVectors => ?_
  refine safe_bind (scoreSolutions_safe built transformed start) fun scored reached => ?_
  obtain ⟨sound, atMost⟩ := reached
  refine safe_bind safe_ensure fun _ someValid => ?_
  refine safe_bind safe_ensure fun _ improved => ?_
  refine safe_bind safe_ensure fun _ targetFits => ?_
  obtain ⟨best, bestFound, bestAttains⟩ := sound.attained.resolve_left fun empty => someValid empty.1
  have bestInside := (List.getElem?_eq_some_iff.mp bestFound).1
  refine safe_bind (safe_mapErr (selectFromBest_safe _ bestInside)) fun indices chosen => ?_
  obtain ⟨⟨others, indicesAre⟩, chosenCount, inRange, -⟩ := chosen
  refine safe_bind (pickSolutions_safe indices inRange) fun selected picked => ?_
  obtain ⟨width, fromValid, complete⟩ := picked
  have few : selected.length ≤ T.maxSolutions := by
    simp only [List.length_nil, Nat.zero_add] at atMost
    omega
  have exactCount : asU32 selected.length = selected.length := by
    have bound := T.maxSolutions_u32
    simp only [u32Max] at bound
    exact asU32_of_lt (by omega)
  have bestSelected : best ∈ selected := complete _ (by simp [← indicesAre]) best bestFound
  refine safe_bind safe_ensure fun _ enough => ?_
  have occupied : ∀ spins ∈ selected, spins ≠ [] := by
    intro spins member empty
    have admissible := sound.admissible spins (fromValid spins member)
    exact admissible.occupied (List.eq_nil_of_length_eq_zero (by rw [← admissible.shaped, empty]; rfl))
  refine safe_bind (safe_mapErr (calculateDiversity_safe occupied)) fun diversity measured => ?_
  refine safe_bind safe_ensure fun _ diverse => ?_
  refine safe_bind (boundVectors_safe selected ?_) fun vectors vectorsAre => ?_
  · intro solution member
    rw [(sound.admissible solution (fromValid solution member)).shaped]
    exact params.nodes.property
  have bounded : BoundedVec.tryFrom T.maxSolutions vectors = some ⟨vectors, by
      rw [← List.length_map Subtype.val, vectorsAre]; exact few⟩ := BoundedVec.tryFrom_of_le _
  refine safe_bind (safe_expect bounded) fun solutions solutionsAre => ?_
  have stored : solutions.val.map Subtype.val = selected := by
    rw [solutionsAre]
    exact vectorsAre
  have listed : ∀ solution ∈ solutions.val, solution.val ∈ selected := by
    intro solution member
    rw [← stored]
    exact List.mem_map_of_mem member
  have count : asU32 selected.length = solutions.val.length := by
    rw [exactCount, ← stored, List.length_map]
  refine safe_pure ⟨⟨?_, ?_, ?_, count, ?_, enough, ?_, diverse⟩, rfl, improved⟩
  · exact fun solution member => sound.admissible _ (fromValid _ (listed solution member))
  · exact fun solution member => sound.least _ (fromValid _ (listed solution member))
  · rw [← stored] at bestSelected
    obtain ⟨solution, member, same⟩ := List.mem_map.mp bestSelected
    exact ⟨solution, member, by rw [same, bestAttains]⟩
  · show 1 ≤ asU32 selected.length
    rw [exactCount]
    exact List.length_pos_of_mem bestSelected
  · rw [stored]
    exact measured

end Scoring

private theorem checkPayee_safe (requiredChain : Option Nat) (payee : Option WinnerPayee) :
    Safe (checkPayee requiredChain payee) fun _ => True := by
  refine safe_bind safe_ensure fun _ _ => ?_
  cases requiredChain with
  | none => exact safe_pure trivial
  | some chainId =>
    refine safe_bind safe_okOr fun destination _ => ?_
    exact safe_ensure.mono fun _ _ => trivial

/-- Admission hands on the order it found with an index of its topology. -/
private theorem admitSubmission_safe (s : State T) (solver : T.AccountId) (orderId : Nat) (solutions : Solutions T)
    (payee : Option WinnerPayee) : Safe (admitSubmission s solver orderId solutions payee) fun admitted =>
      TopologyIndex.new admitted.order.isingParams.nodes.val admitted.order.isingParams.edges.val =
        .ok admitted.topology := by
  refine safe_bind safe_okOr fun solverInfo _ => ?_
  refine safe_bind safe_ensure fun _ _ => ?_
  refine safe_bind safe_okOr fun order _ => ?_
  refine safe_bind safe_okOr fun spec _ => ?_
  refine safe_bind safe_ensure fun _ _ => ?_
  refine safe_bind (checkPayee_safe _ _) fun _ _ => ?_
  refine safe_bind safe_ensure fun _ _ => ?_
  refine safe_bind (safe_mapErr (TopologyIndex.new_safe _ _)) fun topology built => ?_
  exact safe_pure built

private theorem rankTopN_safe (s : State T) (orderId n : Nat) (solver : T.AccountId) (bestEnergy : Int) :
    Safe (rankTopN s orderId n solver bestEnergy) fun _ => True := by
  refine safe_bind safe_okOr fun bounded _ => ?_
  dsimp only
  split
  · split <;> trivial
  · trivial

private theorem updateRanking_safe (s : State T) (orderId : Nat) (resolution : RewardResolution)
    (solver : T.AccountId) (bestEnergy : Int) :
    Safe (updateRanking s orderId resolution solver bestEnergy) fun _ => True := by
  cases resolution with
  | singleBest =>
    unfold updateRanking
    dsimp only
    split <;> trivial
  | topNWeighted n => exact rankTopN_safe _ _ _ _ _
  | topNEqual n => exact rankTopN_safe _ _ _ _ _

private theorem storeSubmission_safe (s : State T) (solver : T.AccountId) (solverInfo : SolverInfo T) (orderId : Nat)
    (order : JobOrder T) (payee : Option WinnerPayee) (isNewSolver : Bool) (record : JobSolution T) :
    Safe (storeSubmission s solver solverInfo orderId order payee isNewSolver record) fun _ => True :=
  safe_bind (updateRanking_safe _ _ _ _ _) fun _ _ => safe_pure trivial

/-- No submission panics, whatever the VM returns. -/
theorem submitSolutionInner_safe (s : State T) (env : Env T) (solver : T.AccountId) (orderId : Nat)
    (solutions : Solutions T) (payee : Option WinnerPayee) :
    Safe (submitSolutionInner s env solver orderId solutions payee).2 fun _ => True := by
  have admission := admitSubmission_safe s solver orderId solutions payee
  unfold submitSolutionInner
  split
  · rename_i fault refused
    rw [refused] at admission
    cases fault with
    | error reason => trivial
    | panic message => exact admission.no_panic message rfl
  · rename_i admitted ran
    have returns : ∀ result : Except Error (List (List Int)), Safe (returned result) fun _ => True := by
      intro result
      cases result <;> trivial
    refine safe_bind (returns _) fun transformed _ => ?_
    refine safe_bind (scoreSubmission_safe (admission.result ran) _ _ _ _ _) fun record _ => ?_
    exact storeSubmission_safe _ _ _ _ _ _ _ _

end QuipValidator.Mempool
