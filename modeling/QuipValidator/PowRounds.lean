import QuipValidator.PowMoves
import QuipValidator.StableRanking

/-! One block from its first dispatch to its last, and what its end does. While
a block runs, the best proof in storage is the earliest accepted proof of least
energy and the counter counts the accepted proofs (`Standing`); `block_cases`
then gives the storage after the block. -/
namespace QuipValidator.Pow
open Fallible StableRanking

variable {T : Config} {s s' start : State T}

/-- The record of an accepted proof in block `n`. -/
def AcceptedProof.record (accepted : AcceptedProof T) (n : Nat) : ProofRecord T :=
  { miner := accepted.miner
    submittedAt := n
    energyMilli := accepted.energyMilli
    salt := accepted.proof.salt
    topologyHash := accepted.proof.topologyHash
    deviceAccessTimeUs := accepted.proof.deviceAccessTimeUs }

/-- The best proof in storage belongs to the earliest proof of least energy, of
which moreover `good` holds. -/
def Leads (good : AcceptedProof T → Prop) (n : Nat) (proofs : List (AcceptedProof T)) :
    Option (ProofRecord T) → Prop
  | none => proofs = []
  | some record => ∃ best, FirstLeast AcceptedProof.energyMilli proofs best ∧ record = best.record n ∧ good best

/-- The record `submit_proof` leaves in front. -/
def frontAfter (front : Option (ProofRecord T)) (record : ProofRecord T) : Option (ProofRecord T) :=
  if (match front with
    | some existing => decide (record.energyMilli < existing.energyMilli)
    | none => true) then some record
  else front

theorem frontAfter_or (front : Option (ProofRecord T)) (record : ProofRecord T) :
    frontAfter front record = some record ∨ frontAfter front record = front := by
  unfold frontAfter
  exact ite_eq_or_eq _ _ _

/-- One more accepted proof keeps the lead where it belongs. -/
theorem Leads.accept {good : AcceptedProof T → Prop} {n : Nat} {proofs : List (AcceptedProof T)}
    {front : Option (ProofRecord T)} (leads : Leads good n proofs front) {accepted : AcceptedProof T}
    (fine : good accepted) : Leads good n (proofs ++ [accepted]) (frontAfter front (accepted.record n)) := by
  cases front with
  | none =>
    have empty : proofs = [] := leads
    subst empty
    exact ⟨accepted, firstLeast_improve _ (fun _ member => nomatch member), rfl, fine⟩
  | some existing =>
    obtain ⟨best, first, rfl, held⟩ := leads
    by_cases better : accepted.energyMilli < best.energyMilli
    · have replaced : frontAfter (some (best.record n)) (accepted.record n) = some (accepted.record n) := by
        simp [frontAfter, AcceptedProof.record, better]
      rw [replaced]
      refine ⟨accepted, firstLeast_improve _ ?_, rfl, fine⟩
      intro other member
      exact lt_of_lt_of_le better (first.least _ other member)
    · have stays : frontAfter (some (best.record n)) (accepted.record n) = some (best.record n) := by
        simp [frontAfter, AcceptedProof.record, better]
      rw [stays]
      exact ⟨best, first.keep _ (not_lt.mp better), rfl, held⟩

theorem Leads.mono {good fine : AcceptedProof T → Prop} {n : Nat} {proofs : List (AcceptedProof T)}
    {front : Option (ProofRecord T)} (leads : Leads good n proofs front)
    (weaker : ∀ best, front = some (best.record n) → good best → fine best) : Leads fine n proofs front := by
  cases front with
  | none => exact leads
  | some record =>
    obtain ⟨best, first, rfl, held⟩ := leads
    exact ⟨best, first, rfl, weaker best rfl held⟩

/-- How a block stands after the accepted proofs so far; `start` is the storage
it was initialised with. -/
structure Standing (start : State T) (proofs : List (AcceptedProof T)) (s : State T) : Prop where
  blockNumber : s.blockNumber = start.blockNumber
  lastProofBlock : s.lastProofBlock = start.lastProofBlock
  qblocks : s.qblocks = start.qblocks
  qblockCount : s.qblockCount = start.qblockCount
  qblockBlockById : s.qblockBlockById = start.qblockBlockById
  qblockIdByBlock : s.qblockIdByBlock = start.qblockIdByBlock
  count : s.blockProofCount = proofs.length
  limit : proofs.length ≤ T.maxProofsPerBlock
  leads : Leads (fun _ => True) start.blockNumber proofs s.blockBestProof

/-- The accepted proof a successful `submit_proof` adds. -/
def acceptedBy (s : State T) (who : T.AccountId) (proof : QuantumProof T) (validation : ProofValidation) :
    AcceptedProof T :=
  { miner := who, proof, validation, cleared := currentDifficultyFor s proof.topologyHash s.blockNumber }

theorem accepted_submitProof {who : T.AccountId} {proof : QuantumProof T} {validation : ProofValidation}
    (checked : checkProof s who proof = .ok validation) :
    Executed.accepted ⟨.signed who, .submitProof proof, s, s'⟩ = some (acceptedBy s who proof validation) := by
  simp [Executed.accepted, checked, acceptedBy]

theorem accepted_aside {origin : Origin T.AccountId} {call : Call T} (other : ∀ proof, call ≠ .submitProof proof) :
    Executed.accepted ⟨origin, call, s, s'⟩ = none := by
  cases call with
  | submitProof proof => exact absurd rfl (other proof)
  | _ => cases origin <;> rfl

/-- An accepted proof was below the limit. -/
theorem checkProof_limit {who : T.AccountId} {proof : QuantumProof T} {validation : ProofValidation}
    (checked : checkProof s who proof = .ok validation) : s.blockProofCount < T.maxProofsPerBlock := by
  simp only [checkProof, bind_success, ensure_success] at checked
  obtain ⟨_, _, _, below, _⟩ := checked
  exact below

theorem recordProof_blockBestProof (who : T.AccountId) (proof : QuantumProof T) (validation : ProofValidation)
    (miner : MinerInfo) :
    (recordProof s who proof validation miner).blockBestProof =
      frontAfter s.blockBestProof ((acceptedBy s who proof validation).record s.blockNumber) := rfl

/-- What one action inside a block does: accept a proof, stay aside, or leave
the round's storage as it is. -/
theorem body_cases (s : State T) (action : Action T) :
    (∃ who proof validation miner, checkProof s who proof = .ok validation ∧
      (body T).next s action = recordProof s who proof validation miner ∧
      ((body T).report s action).filterMap Executed.accepted = [acceptedBy s who proof validation]) ∨
    (((body T).report s action).filterMap Executed.accepted = [] ∧
      ((∃ balances, (body T).next s action = { s with balances }) ∨
        ∃ origin call, (body T).report s action = [⟨origin, call, s, (body T).next s action⟩] ∧
          Aside s call ((body T).next s action))) := by
  cases action with
  | external balances => exact .inr ⟨rfl, .inl ⟨balances, rfl⟩⟩
  | dispatch env origin call =>
    rcases body_dispatch s env origin call with ⟨same, quiet⟩ | ⟨after, ran, same, told⟩
    · rw [same, quiet]
      exact .inr ⟨rfl, .inl ⟨s.balances, rfl⟩⟩
    · rw [same, told]
      rcases execute_cases ran with ⟨who, proof, validation, miner, rfl, rfl, checked, recorded⟩ | ⟨other, aside⟩
      · refine .inl ⟨who, proof, validation, miner, checked, recorded, ?_⟩
        rw [List.filterMap_cons, accepted_submitProof checked, List.filterMap_nil]
      · refine .inr ⟨?_, .inr ⟨origin, call, rfl, aside⟩⟩
        rw [List.filterMap_cons, accepted_aside other, List.filterMap_nil]

private theorem standing_accept {proofs : List (AcceptedProof T)} (standing : Standing start proofs s)
    {who : T.AccountId} {proof : QuantumProof T} {validation : ProofValidation} (miner : MinerInfo)
    (checked : checkProof s who proof = .ok validation) :
    Standing start (proofs ++ [acceptedBy s who proof validation]) (recordProof s who proof validation miner) where
  blockNumber := standing.blockNumber
  lastProofBlock := standing.lastProofBlock
  qblocks := standing.qblocks
  qblockCount := standing.qblockCount
  qblockBlockById := standing.qblockBlockById
  qblockIdByBlock := standing.qblockIdByBlock
  count := by
    have below := checkProof_limit checked
    have bounded := T.maxProofsPerBlock_u32
    rw [List.length_append, List.length_singleton, ← standing.count]
    exact saturatingAdd_of_le (by omega)
  limit := by
    have below := checkProof_limit checked
    rw [standing.count] at below
    rw [List.length_append, List.length_singleton]
    exact below
  leads := by
    rw [recordProof_blockBestProof, standing.blockNumber]
    exact standing.leads.accept trivial

/-- One action keeps the standing. -/
theorem standing_step {proofs : List (AcceptedProof T)} (standing : Standing start proofs s) (action : Action T) :
    Standing start (proofs ++ ((body T).report s action).filterMap Executed.accepted) ((body T).next s action) := by
  rcases body_cases s action with ⟨who, proof, validation, miner, checked, next, reports⟩ | ⟨reports, quiet⟩
  · rw [next, reports]
    exact standing_accept standing miner checked
  · rw [reports, List.append_nil]
    rcases quiet with ⟨balances, next⟩ | ⟨_, _, _, aside⟩
    · rw [next]
      exact ⟨standing.blockNumber, standing.lastProofBlock, standing.qblocks, standing.qblockCount,
        standing.qblockBlockById, standing.qblockIdByBlock, standing.count, standing.limit, standing.leads⟩
    · exact ⟨aside.blockNumber.trans standing.blockNumber, aside.lastProofBlock.trans standing.lastProofBlock,
        aside.qblocks.trans standing.qblocks, aside.qblockCount.trans standing.qblockCount,
        aside.qblockBlockById.trans standing.qblockBlockById, aside.qblockIdByBlock.trans standing.qblockIdByBlock,
        aside.blockProofCount.trans standing.count, standing.limit, aside.blockBestProof ▸ standing.leads⟩

/-- A whole sequence of actions keeps the standing. -/
theorem standing_run (idle : start.blockBestProof = none) (empty : start.blockProofCount = 0)
    (actions : List (Action T)) :
    Standing start (acceptedProofs start actions) ((body T).run start actions) := by
  have initially : Standing start [] start :=
    ⟨rfl, rfl, rfl, rfl, rfl, rfl, empty, Nat.zero_le _, by rw [idle]; rfl⟩
  apply (body T).run_follows (fun reports s => Standing start (reports.filterMap Executed.accepted) s) initially
  intro s reports action standing
  simp only [List.filterMap_append]
  exact standing_step standing action

/-- What initialising a block leaves alone, and the two fields it sets. -/
structure Initialised (s : State T) (block : Block T) (start : State T) : Prop where
  blockNumber : start.blockNumber = s.blockNumber + block.skipped + 1
  blockProofCount : start.blockProofCount = 0
  blockBestProof : start.blockBestProof = s.blockBestProof
  qblocks : start.qblocks = s.qblocks
  qblockCount : start.qblockCount = s.qblockCount
  qblockBlockById : start.qblockBlockById = s.qblockBlockById
  qblockIdByBlock : start.qblockIdByBlock = s.qblockIdByBlock

theorem initialised_spec (s : State T) (block : Block T) : Initialised s block (initialised s block) := by
  simp only [initialised, onInitialize]
  split <;> exact ⟨rfl, rfl, rfl, rfl, rfl, rfl, rfl⟩

/-- What a block leaves as it found it until its end. -/
structure Unfinished (s : State T) (block : Block T) (s' : State T) : Prop where
  blockNumber : s'.blockNumber = Built.number ⟨s, block⟩
  qblocks : s'.qblocks = s.qblocks
  qblockCount : s'.qblockCount = s.qblockCount
  qblockBlockById : s'.qblockBlockById = s.qblockBlockById
  qblockIdByBlock : s'.qblockIdByBlock = s.qblockIdByBlock

section Block
variable (idle : s.blockBestProof = none) (block : Block T)
include idle

theorem closing_standing : Standing (initialised s block) (Built.accepted ⟨s, block⟩) (closing s block) :=
  have begun := initialised_spec s block
  standing_run (begun.blockBestProof.trans idle) begun.blockProofCount block.actions

theorem closing_unfinished : Unfinished s block (closing s block) :=
  have begun := initialised_spec s block
  have standing := closing_standing idle block
  ⟨standing.blockNumber.trans begun.blockNumber, standing.qblocks.trans begun.qblocks,
    standing.qblockCount.trans begun.qblockCount, standing.qblockBlockById.trans begun.qblockBlockById,
    standing.qblockIdByBlock.trans begun.qblockIdByBlock⟩

/-- The storage after a block built on a chain with no proof in front. -/
theorem block_cases :
    (Built.accepted ⟨s, block⟩ = [] ∧ (closing s block).blockBestProof = none ∧
      (chain T).next s block = closing s block) ∨
    ∃ best reward, FirstLeast AcceptedProof.energyMilli (Built.accepted ⟨s, block⟩) best ∧
      (closing s block).blockBestProof = some (best.record (Built.number ⟨s, block⟩)) ∧
      Settled (closing s block) (Built.number ⟨s, block⟩) (best.record (Built.number ⟨s, block⟩)) reward
        ((chain T).next s block) := by
  have leads := (closing_standing idle block).leads
  obtain ⟨after, ran, ended⟩ := onFinalize_cases (closing s block) block.pay (closing s block).blockNumber
  have next : (chain T).next s block = after := by
    simp only [chain, buildBlock, ran, committed]
  rw [next]
  rcases ended with ⟨none, same⟩ | ⟨record, reward, front, settled⟩
  · rw [none] at leads
    exact .inl ⟨leads, none, same⟩
  · rw [front, (initialised_spec s block).blockNumber] at leads
    obtain ⟨best, first, rfl, _⟩ := leads
    rw [(closing_unfinished idle block).blockNumber] at settled
    exact .inr ⟨best, reward, first, front, settled⟩

end Block

/-- The storage between two blocks: no proof in front, and no qblock of a block
that is still to come. -/
structure Between (s : State T) : Prop where
  blockBestProof : s.blockBestProof = none
  past : ∀ n q, s.qblocks.lookup n = some q → n ≤ s.blockNumber

theorem Between.lt_number (between : Between s) (block : Block T) {n : Nat} {q : QBlock T}
    (found : s.qblocks.lookup n = some q) : n < Built.number ⟨s, block⟩ := by
  have past := between.past n q found
  simp only [Built.number]
  omega

theorem between_next (between : Between s) (block : Block T) : Between ((chain T).next s block) := by
  have unfinished := closing_unfinished between.blockBestProof block
  rcases block_cases between.blockBestProof block with ⟨_, idle, next⟩ | ⟨best, reward, _, _, settled⟩
  · rw [next]
    refine ⟨idle, ?_⟩
    intro n q found
    rw [unfinished.qblocks] at found
    rw [unfinished.blockNumber]
    exact (between.lt_number block found).le
  · refine ⟨settled.blockBestProof, ?_⟩
    intro n q found
    rw [settled.qblocks, unfinished.qblocks, StorageMap.lookup_insert_ite] at found
    rw [settled.blockNumber, unfinished.blockNumber]
    split at found
    · rename_i same
      exact same.le
    · exact (between.lt_number block found).le

theorem NoQBlocks.between {s₀ : State T} (fresh : NoQBlocks s₀) : Between s₀ := by
  refine ⟨fresh.blockBestProof, ?_⟩
  intro n q found
  simp [fresh.qblocks] at found

/-- Every chain from a state without qblocks. -/
theorem run_between {s₀ : State T} (fresh : NoQBlocks s₀) (blocks : List (Block T)) :
    Between ((chain T).run s₀ blocks) := by
  apply (chain T).run_follows (fun _ s => Between s) fresh.between
  intro s _ block between
  exact between_next between block

end QuipValidator.Pow
