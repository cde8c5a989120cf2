import QuipValidator.DiverseSelection
import QuipValidator.MempoolRuns
import QuipValidator.PowBlocks

/-! The acceptance floors `set_difficulty` and `do_propose_job` let through, and
which of them some submission can meet. A floor is structural: it asks for a
number of vectors and for the diversity of the subset the pallet selects, and no
energy enters. Each pallet checks only a part of what makes a floor attainable. -/
namespace QuipValidator
open Fallible IsingValidation IsingDiversity SignVectors

namespace Pow

/-- `validate_proof` from the energy-valid vectors on: the diversity of the
subset `select_diverse` keeps. -/
def selectedDiversity (difficulty : DifficultyConfig) (energyValidSolutions : List (List Int)) :
    Fallible DispatchError Nat := do
  let targetCount := min energyValidSolutions.length (max difficulty.minSolutions 1)
  let selectedIndices ← reported (fun _ => .invalidSpinValues) (selectDiverse energyValidSolutions targetCount)
  let selectedSolutions ← pick energyValidSolutions selectedIndices
  reported (fun _ => .invalidSpinValues) (calculateDiversity selectedSolutions)

/-- A list of spin vectors that meets both structural floors of a difficulty. -/
structure MeetsFloors (T : Config) (nodes : Nat) (difficulty : DifficultyConfig) (solutions : List (List Int)) :
    Prop where
  bounded : solutions.length ≤ T.maxSolutions
  valid : validateSolutionSet solutions nodes
  enough : difficulty.minSolutions ≤ solutions.length
  diverse : ∃ diversity, selectedDiversity difficulty solutions = .ok diversity ∧
    difficulty.minDiversityMilli ≤ diversity

/-- Some submission meets the floors. -/
def Attainable (T : Config) (nodes : Nat) (difficulty : DifficultyConfig) : Prop :=
  ∃ solutions, MeetsFloors T nodes difficulty solutions

/-- What would have to be checked: a proof can carry the vectors, and that many
vectors can be that diverse. -/
def FloorsFit (T : Config) (nodes : Nat) (difficulty : DifficultyConfig) : Prop :=
  difficulty.minSolutions ≤ T.maxSolutions ∧
    (2 ≤ difficulty.minSolutions → DiversityReachable nodes difficulty.minSolutions difficulty.minDiversityMilli)

private theorem pick_inRange {α : Type} {items : List α} {indices : List Nat}
    (inRange : ∀ index ∈ indices, index < items.length) : pick items indices = .ok (pickedFrom items indices) := by
  induction indices with
  | nil => rfl
  | cons index rest ih =>
    have later := ih fun other member => inRange other (List.mem_cons_of_mem _ member)
    have found := List.getElem?_eq_getElem (inRange index List.mem_cons_self)
    rw [pickedFrom_cons found, pick, List.mapM_cons, found, ← pick, later]
    rfl

variable {T : Config} {nodes : Nat} {difficulty : DifficultyConfig}

/-- The diversity the pallet reads off valid vectors is that of as many of them as it asked for. -/
private theorem selectedDiversity_family {family : List (Fin nodes → ℤˣ)} {diversity : Nat}
    (measured : selectedDiversity difficulty (family.map spinsOf) = .ok diversity) :
    ∃ chosen : List (Fin nodes → ℤˣ), chosen.length = min family.length (max difficulty.minSolutions 1) ∧
      calculateDiversity (chosen.map spinsOf) = .ok diversity := by
  obtain ⟨indices, selected, count, inRange⟩ :=
    selectDiverse_family family (min family.length (max difficulty.minSolutions 1))
  have picked := @pick_inRange _ (family.map spinsOf) indices (by simpa using inRange)
  simp only [selectedDiversity, List.length_map, reported, selected, mapErr, ok_bind, picked, pickedFrom_map] at measured
  refine ⟨pickedFrom family indices, ?_, mapErr_success.mp measured⟩
  rw [pickedFrom_length inRange, count]
  omega

/-- Exactly as many vectors as asked for are all selected. -/
private theorem selectedDiversity_exact {family : List (Fin nodes → ℤˣ)} {diversity : Nat}
    (asked : family.length = difficulty.minSolutions)
    (measured : calculateDiversity (family.map spinsOf) = .ok diversity) :
    selectedDiversity difficulty (family.map spinsOf) = .ok diversity := by
  have target : min (family.map spinsOf).length (max difficulty.minSolutions 1) = family.length := by
    rw [List.length_map]
    omega
  have picked := @pick_inRange _ (family.map spinsOf) (List.range family.length) (by simp)
  rw [pickedFrom_map, pickedFrom_range] at picked
  simp only [selectedDiversity, target, selectDiverse_all (Nat.le_refl family.length), reported, mapErr, ok_bind, picked,
    measured]

/-- Any list that meets the floors shows that they fit. -/
theorem MeetsFloors.fit {solutions : List (List Int)} (met : MeetsFloors T nodes difficulty solutions) :
    FloorsFit T nodes difficulty := by
  obtain ⟨bounded, valid, enough, diversity, measured, reached⟩ := met
  refine ⟨enough.trans bounded, fun several => (diversityReachable_iff several).mpr ?_⟩
  obtain ⟨family, rfl⟩ := exists_family valid
  obtain ⟨chosen, count, diverse⟩ := selectedDiversity_family measured
  rw [List.length_map] at enough
  exact ⟨chosen, by omega, diversity, diverse, reached⟩

theorem attainable_iff (checked : difficulty.minDiversityMilli = 0 ∨ 2 ≤ difficulty.minSolutions) :
    Attainable T nodes difficulty ↔ FloorsFit T nodes difficulty := by
  constructor
  · rintro ⟨solutions, met⟩
    exact met.fit
  · rintro ⟨fits, reachable⟩
    obtain ⟨family, asked, diversity, measured, reached⟩ : ∃ family : List (Fin nodes → ℤˣ),
        family.length = difficulty.minSolutions ∧
          ∃ diversity, calculateDiversity (family.map spinsOf) = .ok diversity ∧
            difficulty.minDiversityMilli ≤ diversity := by
      by_cases several : 2 ≤ difficulty.minSolutions
      · exact (diversityReachable_iff several).mp (reachable several)
      · refine ⟨List.replicate difficulty.minSolutions 1, List.length_replicate, 0, ?_, by omega⟩
        rw [calculateDiversity, if_pos (by rw [List.length_map, List.length_replicate]; omega)]
    refine ⟨family.map spinsOf, ?_, validateSolutionSet_family family, ?_, diversity,
      selectedDiversity_exact asked measured, reached⟩
    · rwa [List.length_map, asked]
    · rw [List.length_map, asked]

/-- Where a power of two no smaller than `MaxSolutions` divides the number of
nodes, two comparisons would do. -/
theorem attainable_iff_walsh {m : Nat} (occupied : 0 < nodes) (divides : 2 ^ m ∣ nodes) (few : T.maxSolutions ≤ 2 ^ m)
    (fits : T.maxSolutions.choose 2 * nodes * 500 ≤ u64Max)
    (checked : difficulty.minDiversityMilli = 0 ∨ 2 ≤ difficulty.minSolutions) :
    Attainable T nodes difficulty ↔
      difficulty.minSolutions ≤ T.maxSolutions ∧ difficulty.minDiversityMilli ≤ 500 := by
  rw [attainable_iff checked]
  refine and_congr_right fun bounded => ?_
  by_cases several : 2 ≤ difficulty.minSolutions
  · have pairs : difficulty.minSolutions.choose 2 * nodes * 500 ≤ u64Max :=
      (Nat.mul_le_mul_right _ (Nat.mul_le_mul_right _ (Nat.choose_le_choose 2 bounded))).trans fits
    have exactly := @diversityReachable_walsh nodes m _ difficulty.minDiversityMilli several occupied divides
      (bounded.trans few) pairs
    exact ⟨fun reachable => exactly.mp (reachable several), fun low _ => exactly.mpr low⟩
  · exact ⟨fun _ => by omega, fun _ impossible => absurd impossible several⟩

/-- Decay moves the energy threshold only. -/
theorem currentDifficultyFor_floors (s : State T) (topologyHash : H256) (n : Nat) :
    (currentDifficultyFor s topologyHash n).minSolutions =
        ((s.difficulties.lookup topologyHash).getD default).minSolutions ∧
      (currentDifficultyFor s topologyHash n).minDiversityMilli =
        ((s.difficulties.lookup topologyHash).getD default).minDiversityMilli := by
  unfold currentDifficultyFor currentDifficulty
  split
  · exact ⟨rfl, rfl⟩
  dsimp only
  split
  · exact ⟨rfl, rfl⟩
  split
  · unfold applyDecay
    dsimp only
    split <;> exact ⟨rfl, rfl⟩
  · exact ⟨rfl, rfl⟩

/-- What `set_difficulty` checks of the floors, and that they stand at every later block. -/
private theorem setDifficulty_floors {s s' : State T} {origin : Origin T.AccountId} {topologyHash : H256}
    (ran : setDifficulty s origin topologyHash difficulty = .ok s') :
    (difficulty.minDiversityMilli = 0 ∨ 2 ≤ difficulty.minSolutions) ∧ ∀ n,
      (currentDifficultyFor s' topologyHash n).minSolutions = difficulty.minSolutions ∧
        (currentDifficultyFor s' topologyHash n).minDiversityMilli = difficulty.minDiversityMilli := by
  simp only [setDifficulty, bind_success, ensure_success] at ran
  obtain ⟨_, _, _, _, _, checked, stored⟩ := ran
  cases stored
  refine ⟨checked, fun n => ?_⟩
  have floors := currentDifficultyFor_floors
    (State.deposit { s with difficulties := s.difficulties.insert topologyHash difficulty }
      (.difficultyUpdated topologyHash difficulty)) topologyHash n
  have held : (State.deposit { s with difficulties := s.difficulties.insert topologyHash difficulty }
      (.difficultyUpdated topologyHash difficulty)).difficulties.lookup topologyHash = some difficulty :=
    AList.lookup_insert _
  rwa [held] at floors

end Pow

namespace Mempool
variable {T : Config}

/-- `submit_solution_inner` from the valid vectors on: the diversity of the
subset `select_from_best` keeps around the `best` one. -/
def selectedDiversity (params : IsingParams T) (best : Nat) (validSolutions : List (List Int)) :
    Fallible DispatchError Nat := do
  let target := targetCount params validSolutions.length
  let selectedIndices ← validated (selectFromBest validSolutions best target)
  let selected ← pickSolutions validSolutions selectedIndices
  validated (calculateDiversity selected)

/-- A list of spin vectors, the `best` of them marked, that meets both
structural floors of an order. -/
structure MeetsFloors (params : IsingParams T) (best : Nat) (solutions : List (List Int)) : Prop where
  bounded : solutions.length ≤ T.maxSolutions
  valid : validateSolutionSet solutions params.nodes.val.length
  enough : ∀ minSolutions ∈ params.minSolutions, minSolutions ≤ solutions.length
  diverse : ∃ diversity, selectedDiversity params best solutions = .ok diversity ∧
    ∀ minDiversity ∈ params.minDiversityMilli, minDiversity ≤ diversity

/-- Which vector of a list the energies of an order make the best one. -/
structure Ranking where
  best : List (List Int) → Nat
  inRange : ∀ solutions, solutions ≠ [] → best solutions < solutions.length

/-- Some submission meets the floors. -/
def Attainable (params : IsingParams T) (ranking : Ranking) : Prop :=
  ∃ solutions, MeetsFloors params (ranking.best solutions) solutions

/-- What would have to be checked besides what is: a submission can carry a
vector at all, and the vectors asked for (two of them, when the order leaves
their number open) can be that diverse. -/
def FloorsFit (params : IsingParams T) : Prop :=
  1 ≤ T.maxSolutions ∧
    match params.minSolutions with
    | some minSolutions =>
      2 ≤ minSolutions →
        DiversityReachable params.nodes.val.length minSolutions (params.minDiversityMilli.getD 0)
    | none =>
      0 < params.minDiversityMilli.getD 0 →
        2 ≤ T.maxSolutions ∧ DiversityReachable params.nodes.val.length 2 (params.minDiversityMilli.getD 0)

private theorem pickSolutions_inRange {items : List (List Int)} {indices : List Nat}
    (inRange : ∀ index ∈ indices, index < items.length) :
    pickSolutions items indices = .ok (pickedFrom items indices) := by
  induction indices with
  | nil => rfl
  | cons index rest ih =>
    have later := ih fun other member => inRange other (List.mem_cons_of_mem _ member)
    have found := List.getElem?_eq_getElem (inRange index List.mem_cons_self)
    rw [pickedFrom_cons found, pickSolutions, found, later]
    rfl

variable {params : IsingParams T} {best : Nat} {diversity : Nat}

/-- The diversity the pallet reads off valid vectors is that of as many of them as it asked for. -/
private theorem selectedDiversity_family {family : List (Fin params.nodes.val.length → ℤˣ)}
    (measured : selectedDiversity params best (family.map spinsOf) = .ok diversity) :
    family ≠ [] ∧ ∃ chosen : List (Fin params.nodes.val.length → ℤˣ),
      chosen.length = min (max (targetCount params family.length) 1) family.length ∧
        calculateDiversity (chosen.map spinsOf) = .ok diversity := by
  simp only [selectedDiversity, validated, bind_success, mapErr_success, List.length_map] at measured
  obtain ⟨indices, selected, chosen, picked, measured⟩ := measured
  have bestInside : best < (family.map spinsOf).length := by
    simp only [selectFromBest, bind_success, expect_success] at selected
    obtain ⟨vector, found, -⟩ := selected
    exact (List.getElem?_eq_some_iff.mp found).1
  obtain ⟨returned, same, count, inRange, -⟩ :=
    selectFromBest_returns (targetCount params family.length) bestInside (validateSolutionSet_family family)
  rw [same] at selected
  cases selected
  rw [pickSolutions_inRange inRange, pickedFrom_map] at picked
  cases picked
  rw [List.length_map] at count inRange bestInside
  refine ⟨List.ne_nil_of_length_pos (by omega), pickedFrom family indices, ?_, measured⟩
  rw [pickedFrom_length inRange, count]

/-- When every vector is asked for, every vector is selected, in the order the selection finds them. -/
private theorem selectedDiversity_exact {family : List (Fin params.nodes.val.length → ℤˣ)}
    (bestInside : best < family.length) (asked : targetCount params family.length = family.length)
    (measured : calculateDiversity (family.map spinsOf) = .ok diversity) :
    selectedDiversity params best (family.map spinsOf) = .ok diversity := by
  obtain ⟨indices, selected, count, inRange, distinct⟩ := selectFromBest_returns family.length
    (by rwa [List.length_map]) (validateSolutionSet_family family)
  have picked := pickSolutions_inRange inRange
  rw [pickedFrom_map] at picked
  rw [List.length_map] at count inRange
  have reordered := calculateDiversity_perm (pickedFrom_perm inRange distinct (by omega)).symm measured
  simp only [selectedDiversity, List.length_map, asked, validated, selected, mapErr, ok_bind, picked, reordered]

private theorem floor_le {floor : Option Nat} : (∀ minimum ∈ floor, minimum ≤ diversity) ↔ floor.getD 0 ≤ diversity := by
  cases floor <;> simp

/-- A list that is selected as a whole and diverse enough meets the floors. -/
private theorem attainable_of_family (ranking : Ranking) {family : List (Fin params.nodes.val.length → ℤˣ)}
    (occupied : 1 ≤ family.length) (bounded : family.length ≤ T.maxSolutions)
    (enough : ∀ minSolutions ∈ params.minSolutions, minSolutions ≤ family.length)
    (asked : targetCount params family.length = family.length)
    (measured : calculateDiversity (family.map spinsOf) = .ok diversity)
    (reached : params.minDiversityMilli.getD 0 ≤ diversity) : Attainable params ranking := by
  have bestInside : ranking.best (family.map spinsOf) < family.length := by
    have inside := ranking.inRange (family.map spinsOf) (List.ne_nil_of_length_pos (by rw [List.length_map]; omega))
    rwa [List.length_map] at inside
  refine ⟨family.map spinsOf, ?_, validateSolutionSet_family family, ?_, diversity,
    selectedDiversity_exact bestInside asked measured, floor_le.mpr reached⟩
  · rwa [List.length_map]
  · rwa [List.length_map]

private theorem asU32_count {count : Nat} (bounded : count ≤ T.maxSolutions) : asU32 count = count := by
  have width := T.maxSolutions_u32
  simp only [u32Max] at width
  exact asU32_of_lt (by omega)

/-- Any list that meets the floors shows that they fit. -/
theorem MeetsFloors.fit {solutions : List (List Int)} (met : MeetsFloors params best solutions) :
    FloorsFit params := by
  obtain ⟨bounded, valid, enough, diversity, measured, floors⟩ := met
  have reached := floor_le.mp floors
  obtain ⟨family, rfl⟩ := exists_family valid
  obtain ⟨occupied, chosen, count, diverse⟩ := selectedDiversity_family measured
  have positive := List.length_pos_iff.mpr occupied
  rw [List.length_map] at bounded enough
  rw [targetCount, asU32_count bounded] at count
  refine ⟨positive.trans_le bounded, ?_⟩
  cases asked : params.minSolutions with
  | some minSolutions =>
    intro several
    have least := enough minSolutions asked
    rw [asked, Option.getD_some] at count
    exact (diversityReachable_iff several).mpr ⟨chosen, by omega, diversity, diverse, reached⟩
  | none =>
    intro wanted
    rw [asked, Option.getD_none] at count
    have several : 2 ≤ chosen.length := by
      by_contra single
      rw [calculateDiversity, if_pos (by rw [List.length_map]; omega)] at diverse
      cases diverse
      omega
    have reachable := (diversityReachable_iff several).mpr ⟨chosen, rfl, diversity, diverse, reached⟩
    exact ⟨by omega, reachable.pair several⟩

/-- One vector has diversity zero, so it meets the floors where none is asked for. -/
private theorem attainable_of_single (ranking : Ranking) (room : 1 ≤ T.maxSolutions)
    (enough : ∀ minSolutions ∈ params.minSolutions, minSolutions ≤ 1) (asked : targetCount params 1 = 1)
    (free : params.minDiversityMilli.getD 0 ≤ 0) : Attainable params ranking :=
  @attainable_of_family T params 0 ranking [1] (Nat.le_refl 1) room enough asked rfl free

theorem attainable_iff (ranking : Ranking)
    (few : ∀ minSolutions ∈ params.minSolutions, minSolutions ≤ T.maxSolutions)
    (checked : 0 < params.minDiversityMilli.getD 0 → ∀ minSolutions ∈ params.minSolutions, 2 ≤ minSolutions) :
    Attainable params ranking ↔ FloorsFit params := by
  constructor
  · rintro ⟨solutions, met⟩
    exact met.fit
  · rintro ⟨room, fit⟩
    cases asked : params.minSolutions with
    | some minSolutions =>
      rw [asked] at fit
      have bounded := few minSolutions asked
      have target : ∀ count, max minSolutions 1 = count → count ≤ T.maxSolutions → targetCount params count = count := by
        intro count same within
        rw [targetCount, asU32_count within, asked, Option.getD_some]
        omega
      by_cases several : 2 ≤ minSolutions
      · obtain ⟨family, rfl, diversity, measured, reached⟩ := (diversityReachable_iff several).mp (fit several)
        refine attainable_of_family ranking (by omega) bounded ?_ (target _ (by omega) bounded) measured reached
        simp [asked]
      · have free : params.minDiversityMilli.getD 0 ≤ 0 := by
          by_contra wanted
          exact several (checked (by omega) minSolutions asked)
        refine attainable_of_single ranking room ?_ (target 1 (by omega) room) free
        intro least isLeast
        rw [asked] at isLeast
        cases isLeast
        omega
    | none =>
      rw [asked] at fit
      have target : ∀ count, 1 ≤ count → count ≤ T.maxSolutions → targetCount params count = count := by
        intro count positive within
        rw [targetCount, asU32_count within, asked, Option.getD_none]
        omega
      by_cases wanted : 0 < params.minDiversityMilli.getD 0
      · obtain ⟨roomForTwo, reachable⟩ := fit wanted
        obtain ⟨family, two, diversity, measured, reached⟩ := (diversityReachable_iff (Nat.le_refl 2)).mp reachable
        refine attainable_of_family ranking (by omega) (by omega) (by simp [asked]) ?_ measured reached
        exact target _ (by omega) (by omega)
      · exact attainable_of_single ranking room (by simp [asked]) (target 1 (Nat.le_refl 1) room) (by omega)

/-- What `do_propose_job` checks of the floors. -/
private theorem doProposeJob_floors {s : State T} {env : Env T} {proposer : T.AccountId} {proposal : Proposal T}
    {result : State T × Nat} (ran : doProposeJob s env proposer proposal = .ok result) :
    (∀ minSolutions ∈ proposal.isingParams.minSolutions, minSolutions ≤ T.maxSolutions) ∧
      (0 < proposal.isingParams.minDiversityMilli.getD 0 →
        ∀ minSolutions ∈ proposal.isingParams.minSolutions, 2 ≤ minSolutions) := by
  simp only [doProposeJob, checkProposal, bind_success, ensure_success] at ran
  obtain ⟨_, ⟨_, _, _, _, _, _, _, _, _, few, _, checked, _⟩, _⟩ := ran
  exact ⟨few, checked⟩

end Mempool

/-- An installed floor is attainable exactly when it fits: the proof pallet has
to be asked for no more vectors than a proof carries, and both pallets for no
more diversity than that many spin vectors can have. -/
theorem accepted_floors_attainable (T : Pow.Config) (M : Mempool.Config) :
    (∀ (s s' : Pow.State T) (origin : Pow.Origin T.AccountId) (topologyHash : Pow.H256)
        (difficulty : Pow.DifficultyConfig) (topology : Pow.TopologyMeta T),
      s.registeredTopologies.lookup topologyHash = some topology →
      Pow.setDifficulty s origin topologyHash difficulty = .ok s' →
        (Pow.Attainable T topology.nodes.val.length difficulty ↔ Pow.FloorsFit T topology.nodes.val.length difficulty) ∧
          ∀ n, (Pow.currentDifficultyFor s' topologyHash n).minSolutions = difficulty.minSolutions ∧
            (Pow.currentDifficultyFor s' topologyHash n).minDiversityMilli = difficulty.minDiversityMilli) ∧
    ∀ (s : Mempool.State M) (env : Mempool.Env M) (proposer : M.AccountId) (proposal : Mempool.Proposal M)
        (result : Mempool.State M × Nat) (ranking : Mempool.Ranking),
      Mempool.doProposeJob s env proposer proposal = .ok result →
        (Mempool.Attainable proposal.isingParams ranking ↔ Mempool.FloorsFit proposal.isingParams) := by
  refine ⟨?_, ?_⟩
  · intro s s' origin topologyHash difficulty topology _ ran
    obtain ⟨checked, standing⟩ := Pow.setDifficulty_floors ran
    exact ⟨Pow.attainable_iff checked, standing⟩
  · intro s env proposer proposal result ranking ran
    obtain ⟨few, checked⟩ := Mempool.doProposeJob_floors ran
    exact Mempool.attainable_iff ranking few checked

/-- The small runtime with the coupled pair registered. -/
def Pow.tinyRegistered : Pow.State Pow.tinyConfig :=
  (Pow.body Pow.tinyConfig).run Pow.tinyGenesis [.dispatch Pow.tinyEnv .root (.registerTopology Pow.tinyRegistration)]

/-- The small runtime with one job spec. -/
def Mempool.tinySpecified : Mempool.State Mempool.tinyConfig :=
  (Mempool.machine Mempool.tinyConfig).run Mempool.tinyGenesis
    [.dispatch Mempool.tinyEnv .root (.registerJobSpec (0 : Nat) default .ising none none)]

/-- The coupled pair, with floors on its solutions. -/
def Mempool.tinyFloored (minSolutions : Option Nat) (minDiversityMilli : Nat) : Mempool.Proposal Mempool.tinyConfig :=
  { Mempool.tinyProposal with
    isingParams :=
      { Mempool.tinyProposal.isingParams with minSolutions, minDiversityMilli := some minDiversityMilli } }

/-- Two vectors of two spins have a diversity of at most one half. -/
private theorem pair_reachable {floor : Nat} : DiversityReachable 2 2 floor ↔ floor ≤ 500 := by
  rw [DiversityReachable, widestSpread_pair]
  simp [milliMean, MILLI_SCALE, u64Max]

/-- `set_difficulty` accepts a floor of 501 milli and one of three vectors where
a proof carries two; `do_propose_job` accepts 501 milli with and without a
number of vectors. Nothing can meet any of them. -/
theorem unattainable_floors_accepted :
    (∃ s', Pow.setDifficulty Pow.tinyRegistered .root Pow.tinyTopology ⟨2, -1000, 501⟩ = .ok s') ∧
    ¬ Pow.Attainable Pow.tinyConfig 2 ⟨2, -1000, 501⟩ ∧
    (∃ s', Pow.setDifficulty Pow.tinyRegistered .root Pow.tinyTopology ⟨3, -1000, 0⟩ = .ok s') ∧
    ¬ Pow.Attainable Pow.tinyConfig 2 ⟨3, -1000, 0⟩ ∧
    (∃ result, Mempool.doProposeJob Mempool.tinySpecified Mempool.tinyEnv (0 : Nat)
      (Mempool.tinyFloored (some 2) 501) = .ok result) ∧
    (∀ ranking, ¬ Mempool.Attainable (Mempool.tinyFloored (some 2) 501).isingParams ranking) ∧
    (∃ result, Mempool.doProposeJob Mempool.tinySpecified Mempool.tinyEnv (0 : Nat)
      (Mempool.tinyFloored none 501) = .ok result) ∧
    ∀ ranking, ¬ Mempool.Attainable (Mempool.tinyFloored none 501).isingParams ranking := by
  refine ⟨⟨_, rfl⟩, ?_, ⟨_, rfl⟩, ?_, ⟨_, rfl⟩, ?_, ⟨_, rfl⟩, ?_⟩
  · rintro ⟨solutions, met⟩
    exact absurd (pair_reachable.mp (met.fit.2 (Nat.le_refl 2))) (by decide)
  · rintro ⟨solutions, met⟩
    exact absurd met.fit.1 (by decide)
  · rintro ranking ⟨solutions, met⟩
    exact absurd (pair_reachable.mp (met.fit.2 (Nat.le_refl 2))) (by decide)
  · rintro ranking ⟨solutions, met⟩
    exact absurd (pair_reachable.mp (met.fit.2 (by decide)).2) (by decide)

/-- The first vector is the best one. -/
def Mempool.Ranking.first : Mempool.Ranking := ⟨fun _ => 0, fun _ occupied => List.length_pos_iff.mpr occupied⟩

/-- A floor of one half is attainable for two vectors. -/
theorem half_diversity_attainable :
    Pow.Attainable Pow.tinyConfig 2 ⟨2, -1000, 500⟩ ∧
      Mempool.Attainable (Mempool.tinyFloored none 500).isingParams .first := by
  obtain ⟨proofs, orders⟩ := accepted_floors_attainable Pow.tinyConfig Mempool.tinyConfig
  have reachable : DiversityReachable 2 2 500 := pair_reachable.mpr (Nat.le_refl 500)
  refine ⟨(proofs Pow.tinyRegistered _ .root Pow.tinyTopology ⟨2, -1000, 500⟩ _ rfl rfl).1.mpr ?_,
    (orders Mempool.tinySpecified Mempool.tinyEnv (0 : Nat) (Mempool.tinyFloored none 500) _ .first rfl).mpr ?_⟩
  · exact ⟨Nat.le_refl 2, fun _ => reachable⟩
  · exact ⟨by decide, fun _ => ⟨Nat.le_refl 2, reachable⟩⟩

end QuipValidator
