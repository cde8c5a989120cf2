import QuipValidator.AttainableFloors
import QuipValidator.SubmissionProofs

/-! What the floors do. Every accepted proof and every accepted submission
carries a list that meets the structural floors, so a floor that does not fit
shuts the topology, or the order, to everybody: no proof clears it and no
solution is stored. -/
namespace QuipValidator
open Fallible IsingValidation IsingDiversity IsingEnergy

namespace Pow
variable {T : Config}

private theorem pick_members {α : Type} {items picked : List α} {indices : List Nat}
    (ran : pick items indices = .ok picked) : picked.length = indices.length ∧ ∀ item ∈ picked, item ∈ items := by
  obtain ⟨length, -, sources⟩ := mapM_success ran
  refine ⟨length, fun item member => ?_⟩
  obtain ⟨index, -, found⟩ := sources item member
  exact List.mem_of_getElem? (expect_success.mp found)

/-- The energy-valid vectors of a validated proof, as the floors see them. -/
private theorem validateProof_vectors {proof : QuantumProof T} {topology : TopologyMeta T} {index : TopologyIndex}
    {h j : List Int} {difficulty : DifficultyConfig} {validation : ProofValidation}
    (built : TopologyIndex.new topology.nodes.val topology.edges.val = .ok index)
    (ran : validateProof proof topology index h j difficulty = .ok validation) :
    ∃ solutions, solutions.length ≤ T.maxSolutions ∧ validateSolutionSet solutions topology.nodes.val.length ∧
      validation.validSolutionCount = asU32 solutions.length ∧
      selectedDiversity difficulty solutions = .ok validation.diversityMilli := by
  simp only [validateProof, bind_success] at ran
  obtain ⟨decoded, unpacked, energies, scored, _, _, _, _, _, _, solutions, picked, indices, selected, chosen,
    gathered, diversity, measured, same⟩ := ran
  cases same
  have decodedLength : decoded.length = (proof.solutions.val.map Subtype.val).length := (mapM_success unpacked).1
  obtain ⟨energyCount, scoring, -⟩ := mapM_success scored
  obtain ⟨pickedLength, members⟩ := pick_members picked
  refine ⟨solutions, ?_, ?_, rfl, ?_⟩
  · have bound := proof.solutions.property
    have filtered := List.length_filterMap_le
      (fun entry : Int × Nat => if entry.1 < difficulty.maxEnergyMilli then some entry.2 else none) energies.zipIdx
    rw [List.length_zipIdx] at filtered
    rw [List.length_map] at decodedLength
    omega
  · have valid : ∀ spins ∈ solutions, spins.length = topology.nodes.val.length ∧ ∀ spin ∈ spins, IsSpin spin := by
      intro spins member
      obtain ⟨energy, ran⟩ := scoring spins (members spins member)
      obtain ⟨width, -, signs, -⟩ := energyOfSolutionIndexed_exact built (mapErr_success.mp ran)
      exact ⟨width, signs⟩
    simpa [validateSolutionSet, validateSpins] using valid
  · simp only [selectedDiversity, selected, ok_bind, gathered, measured]

/-- An accepted proof meets the floors in force. -/
theorem checkProof_meets {s : State T} {who : T.AccountId} {proof : QuantumProof T} {validation : ProofValidation}
    {topology : TopologyMeta T} (registered : s.registeredTopologies.lookup proof.topologyHash = some topology)
    (ran : checkProof s who proof = .ok validation) :
    Attainable T topology.nodes.val.length (currentDifficultyFor s proof.topologyHash s.blockNumber) := by
  simp only [checkProof, bind_success, ensure_success, okOr_success] at ran
  obtain ⟨_, _, _, _, _, _, held, found, _, _, _, _, _, _, index, built, fields, _, _, validated, _, _, _, enough, _,
    diverse, same⟩ := ran
  cases same
  rw [registered] at found
  cases found
  obtain ⟨solutions, bounded, valid, counted, measured⟩ :=
    validateProof_vectors (mapErr_success.mp built) validated
  rw [counted] at enough
  exact ⟨solutions, bounded, valid, enough.trans (Nat.mod_le _ _), _, measured, diverse⟩

/-- A stored floor that does not fit refuses every proof for its topology, from whoever it comes. -/
theorem submitProof_refused {s : State T} {origin : Origin T.AccountId} {proof : QuantumProof T}
    {topology : TopologyMeta T} (registered : s.registeredTopologies.lookup proof.topologyHash = some topology)
    (unfit : ¬ FloorsFit T topology.nodes.val.length ((s.difficulties.lookup proof.topologyHash).getD default))
    (s' : State T) : submitProof s origin proof ≠ .ok s' := by
  intro ran
  simp only [submitProof, bind_success] at ran
  obtain ⟨who, _, validation, checked, _⟩ := ran
  obtain ⟨solutions, met⟩ := checkProof_meets registered checked
  obtain ⟨vectors, diversity⟩ := currentDifficultyFor_floors s proof.topologyHash s.blockNumber
  have fit := met.fit
  rw [FloorsFit, vectors, diversity] at fit
  exact unfit fit

end Pow

namespace Mempool
variable {T : Config}

/-- The vectors an accepted submission is scored by meet the order's floors. -/
theorem scoreSubmission_meets {params : IsingParams T} {topology : TopologyIndex} {previous : Option (JobSolution T)}
    {solver : T.AccountId} {solverType : MinerType} {now : Nat} {transformed : List (List Int)}
    {record : JobSolution T} (built : TopologyIndex.new params.nodes.val params.edges.val = .ok topology)
    (ran : scoreSubmission params topology previous solver solverType now transformed = .ok record) :
    ∃ best solutions, MeetsFloors params best solutions := by
  simp only [scoreSubmission, bind_success, ensure_success] at ran
  obtain ⟨_, _, _, bounded, scored, scoring, _, occupied, _, _, _, _, indices, selected, chosen, gathered, _, enough,
    diversity, measured, _, diverse, _⟩ := ran
  have start : SoundScore params ⟨[], i64Max, 0⟩ := ⟨by simp, by simp, .inl ⟨rfl, rfl, rfl⟩⟩
  obtain ⟨sound, atMost⟩ := (scoreSolutions_safe built transformed start).result scoring
  obtain ⟨best, found, -⟩ := sound.attained.resolve_left fun empty => occupied empty.1
  have bestInside := (List.getElem?_eq_some_iff.mp found).1
  obtain ⟨-, count, inRange, -⟩ :=
    (selectFromBest_safe (targetCount params scored.validSolutions.length) bestInside).result (mapErr_success.mp selected)
  have chosenCount := ((pickSolutions_safe indices inRange).result gathered).1
  refine ⟨scored.bestIndex, scored.validSolutions, ?_, ?_, ?_, diversity, ?_, diverse⟩
  · simp only [List.length_nil, Nat.zero_add] at atMost
    exact atMost.trans bounded
  · have shaped : ∀ spins ∈ scored.validSolutions,
        spins.length = params.nodes.val.length ∧ ∀ spin ∈ spins, IsSpin spin := fun spins member =>
      ⟨(sound.admissible spins member).shaped, (sound.admissible spins member).spins⟩
    simpa [validateSolutionSet, validateSpins] using shaped
  · intro minSolutions asked
    have kept : asU32 chosen.length ≤ chosen.length := Nat.mod_le _ _
    have least := enough minSolutions asked
    omega
  · simp only [selectedDiversity, selected, ok_bind, gathered, measured]

/-- An order whose floors do not fit never stores a solution. -/
theorem submitSolutionInner_refused {s : State T} {env : Env T} {solver : T.AccountId} {orderId : Nat}
    {solutions : Solutions T} {payee : Option WinnerPayee} {order : JobOrder T}
    (held : s.jobOrders.lookup orderId = some order) (unfit : ¬ FloorsFit order.isingParams) (s' : State T) :
    (submitSolutionInner s env solver orderId solutions payee).2 ≠ .ok s' := by
  unfold submitSolutionInner
  split
  · intro impossible
    cases impossible
  · rename_i admitted ran
    simp only [admitSubmission, bind_success, okOr_success, ensure_success] at ran
    obtain ⟨_, _, _, _, found, isFound, _, _, _, _, _, _, _, _, index, built, same⟩ := ran
    cases same
    rw [held] at isFound
    cases isFound
    intro stored
    simp only [settleSubmission, bind_success] at stored
    obtain ⟨_, _, record, scored, _⟩ := stored
    obtain ⟨best, vectors, met⟩ := scoreSubmission_meets (mapErr_success.mp built) scored
    exact unfit met.fit

end Mempool

end QuipValidator
