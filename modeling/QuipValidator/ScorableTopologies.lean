import QuipValidator.AttainableFloors
import QuipValidator.ExactEnergy

/-! Topologies that pass the consistency check, and whether they can be scored.
`validate_solution` and the job orders both check a problem with
`validate_topology_consistency` and then rely on the energy path to accept it.
The two agree on every problem but one: the checker lets the problem without
nodes through, and the energy path refuses it. -/
namespace QuipValidator.IsingEnergy
open Fallible IsingValidation

/-- Report returned by `validate_solution`. -/
structure SolutionValidation where
  valid : Bool
  errors : List String
  energyMilli : Int
  satisfactionRateMilli : Nat

/-- `display_i8_set`: the distinct values in ascending order, in braces. -/
def displayI8Set (values : List Int) : String :=
  let unique := (values.insertionSort (· ≤ ·)).dedup
  "\x7b" ++ String.intercalate ", " (unique.map toString) ++ "\x7d"

/-- `result.expect(message)` where the callee returns a `Result`. -/
def expectOk {ε δ α : Type} (message : String) : Fallible ε α → Fallible δ α
  | .ok value => .ok value
  | .error (.error _) => .error (.panic message)
  | .error (.panic inner) => .error (.panic inner)

/-- The coupling loop: how many couplings their spins satisfy. -/
def countSatisfied (spins : List Int) (nodes : List Nat) (satisfied : Nat) :
    List ((Nat × Nat) × Int) → Fallible ValidationError Nat
  | [] => pure satisfied
  | ((u, v), coupling) :: rest => do
    let posI ← expect (nodes.idxOf? u) "validated edge endpoint"
    let posJ ← expect (nodes.idxOf? v) "validated edge endpoint"
    let spinI ← spinAt spins posI
    let spinJ ← spinAt spins posJ
    let couplingEnergy := coupling * spinI * spinJ
    countSatisfied spins nodes (if couplingEnergy < 0 then satisfied + 1 else satisfied) rest

/-- `validate_solution`; it returns a report, so only a panic can stop it. -/
def validateSolution (spins : List Int) (nodes : List Nat) (edges : List (Nat × Nat)) (h j : List Int)
    (allowedH allowedJ : Option (List Int)) : Fallible ValidationError SolutionValidation := do
  if spins.length ≠ nodes.length then
    pure ⟨false, ["Wrong solution length: " ++ toString spins.length ++ " != " ++ toString nodes.length], 0, 0⟩
  else
    let invalidValues := spins.filter fun spin => decide (¬ IsSpin spin)
    if invalidValues ≠ [] then
      pure ⟨false, ["Invalid spin values: " ++ displayI8Set invalidValues ++ " (must be -1 or +1)"], 0, 0⟩
    else
      let topologyErrors := validateTopologyConsistency nodes edges h j allowedH allowedJ
      if topologyErrors ≠ [] then pure ⟨false, topologyErrors, 0, 0⟩
      else do
        let energyMilli ← expectOk "topology validated above" (energyOfSolution spins h edges j nodes)
        let satisfied ← countSatisfied spins nodes 0 (edges.zip j)
        if j ≠ [] then do
          asserts (satisfied * MILLI_SCALE ≤ u64Max) "attempt to multiply with overflow"
          let rate ← IsingDiversity.roundDiv (satisfied * MILLI_SCALE) j.length
          pure ⟨true, [], energyMilli, asU32 rate⟩
        else pure ⟨true, [], energyMilli, 0⟩

section Consistent
variable {nodes : List Nat} {edges : List (Nat × Nat)} {h j : List Int} {allowedH allowedJ : Option (List Int)}

/-- A consistent problem with a node has an index, and an energy for every spin vector. -/
theorem energyOfSolution_runs (clean : validateTopologyConsistency nodes edges h j allowedH allowedJ = [])
    (occupied : nodes ≠ []) (few : nodes.length + edges.length < 2 ^ 32) (smallH : ∀ field ∈ h, SmallTerm field)
    (smallJ : ∀ coupling ∈ j, SmallTerm coupling) {spins : List Int} (width : spins.length = nodes.length)
    (valid : ∀ spin ∈ spins, IsSpin spin) :
    ∃ topology energy, TopologyIndex.new nodes edges = .ok topology ∧
      energyOfSolutionIndexed spins h edges j topology = .ok energy ∧
      energyOfSolution spins h edges j nodes = .ok energy := by
  obtain ⟨distinct, fields, couplings, known⟩ := validateTopologyConsistency_graph clean
  have problem : Problem.Valid ⟨nodes, edges, h, j, spins⟩ :=
    ⟨⟨width, fields, couplings⟩, distinct, known, occupied, valid, smallH, smallJ, few⟩
  obtain ⟨topology, built, indexed, plain⟩ := problem.computes
  exact ⟨topology, _, built, indexed, plain⟩

private theorem countSatisfied_safe {spins : List Int} (width : spins.length = nodes.length) (satisfied : Nat)
    (pairs : List ((Nat × Nat) × Int)) (known : ∀ pair ∈ pairs, pair.1.1 ∈ nodes ∧ pair.1.2 ∈ nodes) :
    Safe (countSatisfied spins nodes satisfied pairs) fun count => count ≤ satisfied + pairs.length := by
  induction pairs generalizing satisfied with
  | nil => exact safe_pure (Nat.le_refl _)
  | cons pair rest ih =>
    have inside : ∀ node ∈ nodes, nodes.idxOf node < spins.length := by
      intro node member
      rw [width]
      exact List.idxOf_lt_length_of_mem member
    obtain ⟨first, second⟩ := known pair List.mem_cons_self
    refine safe_bind (safe_expect (idxOf?_of_mem first)) ?_
    rintro posI rfl
    refine safe_bind (safe_expect (idxOf?_of_mem second)) ?_
    rintro posJ rfl
    refine safe_bind (safe_expect (List.getElem?_eq_getElem (inside _ first))) fun spinI _ => ?_
    refine safe_bind (safe_expect (List.getElem?_eq_getElem (inside _ second))) fun spinJ _ => ?_
    refine (ih _ fun other member => known other (List.mem_cons_of_mem _ member)).mono ?_
    intro count bounded
    rw [List.length_cons]
    split at bounded <;> omega

/-- The report panics on no problem that has a node once it is clean. -/
private theorem validateSolution_safe
    (occupied : validateTopologyConsistency nodes edges h j allowedH allowedJ = [] → nodes ≠ []) (fewNodes : nodes.length < 2 ^ 31)
    (fewEdges : edges.length < 2 ^ 31) (smallH : ∀ field ∈ h, SmallTerm field)
    (smallJ : ∀ coupling ∈ j, SmallTerm coupling) (spins : List Int) :
    Safe (validateSolution spins nodes edges h j allowedH allowedJ) fun _ => True := by
  unfold validateSolution
  dsimp only
  split
  · exact safe_pure trivial
  rename_i width
  split
  · exact safe_pure trivial
  rename_i allValid
  split
  · exact safe_pure trivial
  rename_i clean
  rw [not_not] at width allValid clean
  have valid : ∀ spin ∈ spins, IsSpin spin := by
    simpa [List.filter_eq_nil_iff] using allValid
  obtain ⟨_, energy, _, _, ran⟩ :=
    energyOfSolution_runs clean (occupied clean) (by omega) smallH smallJ width valid
  obtain ⟨_, _, couplings, known⟩ := validateTopologyConsistency_graph clean
  rw [ran, expectOk, ok_bind]
  refine safe_bind (countSatisfied_safe width 0 (edges.zip j) fun pair member =>
    known pair.1 (List.of_mem_zip member).1) fun satisfied bounded => ?_
  split
  · rename_i some
    rw [List.length_zip] at bounded
    have fits : satisfied * MILLI_SCALE ≤ u64Max := by
      simp only [MILLI_SCALE, u64Max]
      omega
    rw [asserts, if_pos fits, ok_bind, IsingDiversity.roundDiv, if_neg (by simpa using some)]
    exact safe_pure trivial
  · exact safe_pure trivial

end Consistent

end QuipValidator.IsingEnergy

namespace QuipValidator.Mempool
open Fallible IsingValidation IsingEnergy IsingDiversity

section Scoring
variable {T : Config}

/-- Submitting exactly `vector` to an order with these parameters is not refused
as an invalid topology, in any state and by any solver. -/
def ScoresVector (params : IsingParams T) (vector : List Int) : Prop :=
  ∀ (s : State T) (env : Env T) (solver : T.AccountId) (orderId : Nat) (solutions : Solutions T)
    (payee : Option WinnerPayee) (order : JobOrder T) (spec : JobSpec T),
    s.jobOrders.lookup orderId = some order → order.isingParams = params →
    s.jobSpecs.lookup order.specId = some spec →
    (env.vm.transformSolutions order.specId spec.validationProgram spec.transformProgram solver
      (solutions.val.map Subtype.val)).result = .ok [vector] →
    (submitSolutionInner s env solver orderId solutions payee).2 ≠ .error (.error (.module .invalidTopology))

private theorem pickSolutions_avoids (reason : DispatchError) (valid : List (List Int)) (indices : List Nat) :
    Avoids reason (pickSolutions valid indices) := by
  induction indices with
  | nil => exact avoids_pure _
  | cons index rest ih => exact avoids_bind avoids_expect fun _ _ => avoids_bind ih fun _ _ => avoids_pure _

private theorem boundVectors_avoids (reason : DispatchError) (vectors : List (List Int)) :
    Avoids reason (boundVectors T vectors) := by
  induction vectors with
  | nil => exact avoids_pure _
  | cons vector rest ih => exact avoids_bind avoids_expect fun _ _ => avoids_bind ih fun _ _ => avoids_pure _

/-- One vector with an energy is scored without a topology error. -/
private theorem scoreSubmission_avoids {params : IsingParams T} {topology : TopologyIndex} {vector : List Int}
    {energy : Int} (valid : ∀ spin ∈ vector, IsSpin spin)
    (ran : energyOfSolutionIndexed vector params.hValues.val params.edges.val params.jValues.val topology = .ok energy)
    (previous : Option (JobSolution T)) (solver : T.AccountId) (solverType : MinerType) (now : Nat) :
    Avoids (.module .invalidTopology) (scoreSubmission params topology previous solver solverType now [vector]) := by
  have family : validateSolutionSet [vector] vector.length := by
    simpa [validateSolutionSet, validateSpins] using valid
  refine avoids_bind (avoids_ensure (.inr (by simp))) fun _ _ => ?_
  refine avoids_bind (avoids_ensure (.inr (by simp))) fun _ _ => ?_
  have scored : ∃ scored, scoreSolutions params topology [vector] ⟨[], i64Max, 0⟩ = .ok scored ∧ scored.bestIndex = 0 ∧
      (scored.validSolutions = [] ∨ scored.validSolutions = [vector]) := by
    simp only [scoreSolutions, ran, validated, mapErr, ok_bind]
    split
    · exact ⟨_, rfl, rfl, .inl rfl⟩
    · split
      · exact ⟨_, rfl, rfl, .inr rfl⟩
      · exact ⟨_, rfl, rfl, .inr rfl⟩
  obtain ⟨scored, loop, best, found⟩ := scored
  rw [loop, ok_bind]
  refine avoids_bind (avoids_ensure (.inr (by simp))) fun _ occupied => ?_
  have only := found.resolve_left (ensure_success.mp occupied)
  have selects : ∀ target, selectFromBest [vector] 0 target = .ok [0] := by
    intro target
    obtain ⟨selected, selects, length, inRange, _⟩ :=
      selectFromBest_returns target (show 0 < [vector].length by simp) family
    obtain ⟨index, rfl⟩ := List.length_eq_one_iff.mp (length.trans (by simp))
    obtain rfl : index = 0 := by simpa using inRange
    exact selects
  refine avoids_bind (avoids_ensure (.inr (by simp))) fun _ _ => ?_
  refine avoids_bind (avoids_ensure (.inr (by simp))) fun _ _ => ?_
  have selected : validated (selectFromBest [vector] 0 (targetCount params [vector].length)) = .ok [0] := by
    rw [selects]
    rfl
  rw [only, best, selected, ok_bind, show pickSolutions [vector] [0] = .ok [vector] from rfl, ok_bind]
  refine avoids_bind (avoids_ensure (.inr (by simp))) fun _ _ => ?_
  -- One vector has no pair, so its diversity is zero.
  rw [show validated (calculateDiversity [vector]) = .ok 0 from rfl, ok_bind]
  refine avoids_bind (avoids_ensure (.inr (by simp))) fun _ _ => ?_
  exact avoids_bind (boundVectors_avoids _ _) fun _ _ => avoids_bind avoids_expect fun _ _ => avoids_pure _

private theorem checkPayee_avoids (requiredChain : Option Nat) (payee : Option WinnerPayee) :
    Avoids (.module .invalidTopology) (checkPayee requiredChain payee) := by
  refine avoids_bind (avoids_ensure (.inr (by simp))) fun _ _ => ?_
  cases requiredChain with
  | none => exact avoids_pure _
  | some chainId => exact avoids_bind (avoids_okOr (.inr (by simp))) fun _ _ => avoids_ensure (.inr (by simp))

private theorem updateRanking_avoids (s : State T) (orderId : Nat) (resolution : RewardResolution)
    (solver : T.AccountId) (bestEnergy : Int) :
    Avoids (.module .invalidTopology) (updateRanking s orderId resolution solver bestEnergy) := by
  have ranked : ∀ n, Avoids (.module .invalidTopology) (rankTopN s orderId n solver bestEnergy) := by
    intro n
    refine avoids_bind (avoids_okOr (.inr (by simp))) fun bounded _ => ?_
    dsimp only
    split
    · split <;> exact avoids_pure _
    · exact avoids_pure _
  cases resolution with
  | singleBest =>
    unfold updateRanking
    dsimp only
    split <;> exact avoids_pure _
  | topNWeighted n => exact ranked n
  | topNEqual n => exact ranked n

/-- A vector the energy path accepts is scored for every order of the problem. -/
private theorem scores_of_energy {params : IsingParams T} {topology : TopologyIndex} {vector : List Int} {energy : Int}
    (built : TopologyIndex.new params.nodes.val params.edges.val = .ok topology)
    (valid : ∀ spin ∈ vector, IsSpin spin)
    (ran : energyOfSolutionIndexed vector params.hValues.val params.edges.val params.jValues.val topology = .ok energy) :
    ScoresVector params vector := by
  intro s env solver orderId solutions payee order spec found same known transformed
  subst same
  have admission : Avoids (.module .invalidTopology) (admitSubmission s solver orderId solutions payee) := by
    refine avoids_bind (avoids_okOr (.inr (by simp))) fun solverInfo _ => ?_
    refine avoids_bind (avoids_ensure (.inr (by simp))) fun _ _ => ?_
    rw [found, okOr, ok_bind]
    refine avoids_bind (avoids_okOr (.inr (by simp))) fun _ _ => ?_
    refine avoids_bind (avoids_ensure (.inr (by simp))) fun _ _ => ?_
    refine avoids_bind (checkPayee_avoids _ _) fun _ _ => ?_
    refine avoids_bind (avoids_ensure (.inr (by simp))) fun _ _ => ?_
    rw [validated, built, mapErr, ok_bind]
    exact avoids_pure _
  unfold submitSolutionInner
  split
  · rename_i fault refused
    rw [refused] at admission
    intro returned
    cases returned
    exact admission rfl
  · rename_i admitted accepted
    simp only [admitSubmission, validated, bind_success, okOr_success, mapErr_success, found] at accepted
    obtain ⟨_, _, _, _, _, same, _, held, _, _, _, _, _, _, _, indexed, made⟩ := accepted
    cases same
    cases made
    rw [known] at held
    cases held
    rw [built] at indexed
    cases indexed
    dsimp only [settleSubmission]
    rw [transformed, returned, ok_bind]
    refine avoids_bind (scoreSubmission_avoids valid ran _ _ _ _) fun record _ => ?_
    exact avoids_bind (updateRanking_avoids _ _ _ _ _) fun _ _ => avoids_pure _

/-- No submission is ever accepted for an order without nodes: the energy path
refuses its first vector whatever it holds. -/
private theorem empty_order_unscored {s : State T} {orderId : Nat} {order : JobOrder T}
    (found : s.jobOrders.lookup orderId = some order) (empty : order.isingParams.nodes.val = [])
    (env : Env T) (solver : T.AccountId) (solutions : Solutions T) (payee : Option WinnerPayee) (after : State T) :
    (submitSolutionInner s env solver orderId solutions payee).2 ≠ .ok after := by
  unfold submitSolutionInner
  split
  · exact fun impossible => absurd impossible (by simp)
  · rename_i admitted accepted
    simp only [admitSubmission, validated, bind_success, okOr_success, mapErr_success, found] at accepted
    obtain ⟨_, _, _, _, _, same, _, _, _, _, _, _, _, _, index, indexed, made⟩ := accepted
    cases same
    cases made
    have none : index.len = 0 := by
      rw [(TopologyIndex.new_spec indexed).1, empty, List.length_nil]
    dsimp only [settleSubmission]
    intro ran
    simp only [bind_success, scoreSubmission, ensure_success] at ran
    obtain ⟨transformed, _, _, ⟨_, occupied, _, _, scored, scores, _⟩, _⟩ := ran
    obtain ⟨first, rest, rfl⟩ := List.exists_cons_of_ne_nil occupied
    simp only [scoreSolutions, validated, bind_success, mapErr_success, energyOfSolutionIndexed,
      validateShapeLengths_success, none] at scores
    obtain ⟨_, ⟨_, ⟨impossible, _⟩, _⟩, _⟩ := scores
    exact impossible rfl

end Scoring

end QuipValidator.Mempool

namespace QuipValidator
open Fallible IsingValidation IsingEnergy

/-- The checker and the energy path agree on every problem but the one without
nodes, edges, fields and couplings. On every other problem a clean report means
an index and an energy for every spin vector, `validate_solution` does not panic
on any vector, and an order accepted with it can be scored. -/
theorem consistent_topologies_scorable_iff {nodes : List Nat} {edges : List (Nat × Nat)} {h j : List Int}
    {allowedH allowedJ : Option (List Int)} (fewNodes : nodes.length < 2 ^ 31) (fewEdges : edges.length < 2 ^ 31)
    (smallH : ∀ field ∈ h, SmallTerm field) (smallJ : ∀ coupling ∈ j, SmallTerm coupling) :
    ((validateTopologyConsistency nodes edges h j allowedH allowedJ = [] →
        ∀ spins : List Int, spins.length = nodes.length → (∀ spin ∈ spins, IsSpin spin) →
          (∃ topology, TopologyIndex.new nodes edges = .ok topology) ∧
            ∃ energy, energyOfSolution spins h edges j nodes = .ok energy) ∧
      (∀ spins message, validateSolution spins nodes edges h j allowedH allowedJ ≠ .error (.panic message)) ∧
      ∀ (T : Mempool.Config) (s : Mempool.State T) (env : Mempool.Env T) (proposer : T.AccountId)
        (proposal : Mempool.Proposal T) (after : Mempool.State T) (orderId : Nat),
        proposal.isingParams.nodes.val = nodes → proposal.isingParams.edges.val = edges →
        proposal.isingParams.hValues.val = h → proposal.isingParams.jValues.val = j →
        Mempool.doProposeJob s env proposer proposal = .ok (after, orderId) →
        ∀ vector : List Int, vector.length = nodes.length → (∀ spin ∈ vector, IsSpin spin) →
          Mempool.ScoresVector proposal.isingParams vector) ↔
      ¬ (nodes = [] ∧ edges = [] ∧ h = [] ∧ j = []) := by
  constructor
  · rintro ⟨scorable, _⟩ ⟨rfl, rfl, rfl, rfl⟩
    have clean : validateTopologyConsistency [] [] [] [] allowedH allowedJ = [] := by
      cases allowedH <;> rfl
    obtain ⟨_, _, impossible⟩ := scorable clean [] rfl (by simp)
    simp only [energyOfSolution, bind_success, validateShapeLengths_success] at impossible
    obtain ⟨_, ⟨nonzero, _⟩, _⟩ := impossible
    exact nonzero rfl
  · intro some
    -- A clean report of a problem that is not wholly empty has a node.
    have occupied : ∀ {allowedH allowedJ}, validateTopologyConsistency nodes edges h j allowedH allowedJ = [] →
        nodes ≠ [] := by
      rintro allowedH allowedJ clean rfl
      obtain ⟨_, fields, couplings, known⟩ := validateTopologyConsistency_graph clean
      have noEdges : edges = [] := by
        rw [List.eq_nil_iff_forall_not_mem]
        intro edge member
        exact List.not_mem_nil (known edge member).1
      subst noEdges
      exact some ⟨rfl, rfl, List.eq_nil_of_length_eq_zero fields, List.eq_nil_of_length_eq_zero couplings⟩
    refine ⟨?_, ?_, ?_⟩
    · intro clean spins width valid
      obtain ⟨topology, energy, built, _, ran⟩ :=
        energyOfSolution_runs clean (occupied clean) (by omega) smallH smallJ width valid
      exact ⟨⟨topology, built⟩, energy, ran⟩
    · intro spins
      exact (validateSolution_safe occupied fewNodes fewEdges smallH smallJ spins).no_panic
    · rintro T s env proposer proposal after orderId rfl rfl rfl rfl proposed vector width valid
      simp only [Mempool.doProposeJob, Mempool.checkProposal, bind_success, ensure_success, List.isEmpty_iff] at proposed
      obtain ⟨_, ⟨_, _, _, _, _, _, _, _, _, _, _, _, _, clean, _⟩, _⟩ := proposed
      obtain ⟨topology, energy, built, ran, _⟩ :=
        energyOfSolution_runs clean (occupied clean) (by omega) smallH smallJ width valid
      exact Mempool.scores_of_energy built valid ran

/-- Two coupled nodes with large fields. -/
theorem consistent_topologies_scorable_pair :
    (∃ topology, TopologyIndex.new [7, 3] [(3, 7)] = .ok topology) ∧
      ∃ energy, energyOfSolution [1, -1] [2 ^ 31 - 1, -2 ^ 31] [(3, 7)] [1000] [7, 3] = .ok energy := by
  have small : ∀ field ∈ [2 ^ 31 - 1, -2 ^ 31], SmallTerm field := by simp [SmallTerm, termBound]
  have coupled : ∀ coupling ∈ [1000], SmallTerm coupling := by simp [SmallTerm, termBound]
  have exactly := @consistent_topologies_scorable_iff [7, 3] [(3, 7)] [2 ^ 31 - 1, -2 ^ 31] [1000] none none (by simp)
    (by simp) small coupled
  exact (exactly.mpr (by simp)).1 rfl [1, -1] rfl (by simp [IsSpin])

/-- The small runtime's proposal with an empty problem. -/
def Mempool.emptyProposal : Mempool.Proposal Mempool.tinyConfig :=
  { Mempool.tinyProposal with
    isingParams := ⟨⟨[], by decide⟩, ⟨[], by decide⟩, ⟨[], by decide⟩, ⟨[], by decide⟩, none, none, none⟩ }

/-- The empty problem passes the check, has no energy, makes `validate_solution`
panic, and is accepted as an order that refuses every submission. -/
theorem empty_topology_unscorable :
    validateTopologyConsistency [] [] [] [] none none = [] ∧
      energyOfSolution [] [] [] [] [] = .error (.error .emptyNodes) ∧
      (∃ message, validateSolution [] [] [] [] [] none none = .error (.panic message)) ∧
      (∃ accepted, Mempool.doProposeJob Mempool.tinySpecified Mempool.tinyEnv (0 : Nat) Mempool.emptyProposal =
        .ok accepted) ∧
      ∀ (s : Mempool.State Mempool.tinyConfig) (env : Mempool.Env Mempool.tinyConfig) (solver : Nat) (orderId : Nat)
        (solutions : Mempool.Solutions Mempool.tinyConfig) (payee : Option Mempool.WinnerPayee)
        (order : Mempool.JobOrder Mempool.tinyConfig) (after : Mempool.State Mempool.tinyConfig),
        s.jobOrders.lookup orderId = some order → order.isingParams = Mempool.emptyProposal.isingParams →
          (Mempool.submitSolutionInner s env solver orderId solutions payee).2 ≠ .ok after := by
  refine ⟨rfl, rfl, ⟨_, rfl⟩, ⟨_, rfl⟩, ?_⟩
  intro s env solver orderId solutions payee order after found same
  exact Mempool.empty_order_unscored found (by rw [same]; rfl) env solver solutions payee after

end QuipValidator
