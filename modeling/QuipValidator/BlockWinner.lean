import QuipValidator.PowRounds

/-! Who wins a block. Whatever calls run in it and in whatever order, the qblock
is the earliest accepted proof of least energy, the transient storage is
consumed, and the end of the block touches no other topology. -/
namespace QuipValidator.Pow
open Fallible StableRanking

variable {T : Config}

/-- A successful dispatch counts as an accepted proof exactly if it is a `submit_proof`. -/
theorem executed_accepted_iff {start : State T} {actions : List (Action T)} {executed : Executed T}
    (member : executed ∈ (body T).trace start actions) :
    executed.accepted.isSome ↔ ∃ proof, executed.call = .submitProof proof := by
  obtain ⟨earlier, action, later, _, reported⟩ := (body T).mem_trace member
  generalize (body T).run start earlier = s at reported
  cases action with
  | external balances => cases reported
  | dispatch env origin call =>
    cases ran : execute s env origin call with
    | error fault =>
      simp only [body, ran] at reported
      cases reported
    | ok after =>
      simp only [body, ran] at reported
      obtain rfl := List.mem_singleton.mp reported
      rcases execute_cases ran with ⟨who, proof, validation, miner, rfl, rfl, checked, _⟩ | ⟨other, _⟩
      · simp [accepted_submitProof checked]
      · rw [accepted_aside other]
        constructor
        · intro impossible
          cases impossible
        · rintro ⟨proof, same⟩
          exact absurd same (other proof)

/-- The qblock carries the data of the accepted proof. -/
structure Carries (q : QBlock T) (best : AcceptedProof T) : Prop where
  miner : q.miner = best.miner
  salt : q.salt = best.proof.salt
  energyMilli : q.energyMilli = best.energyMilli
  topologyHash : q.topologyHash = best.proof.topologyHash
  deviceAccessTimeUs : q.deviceAccessTimeUs = best.proof.deviceAccessTimeUs

section Block
variable {s : State T} (between : Between s) (block : Block T)
include between

/-- Before its end a block has no qblock of its own. -/
private theorem closing_no_qblock : (closing s block).qblocks.lookup (Built.number ⟨s, block⟩) = none := by
  rw [(closing_unfinished between.blockBestProof block).qblocks]
  cases found : s.qblocks.lookup (Built.number ⟨s, block⟩) with
  | none => rfl
  | some q => exact absurd (between.lt_number block found) (Nat.lt_irrefl _)

private theorem qblock_iff_accepted :
    (((chain T).next s block).qblocks.lookup (Built.number ⟨s, block⟩)).isSome ↔
      Built.accepted ⟨s, block⟩ ≠ [] := by
  rcases block_cases between.blockBestProof block with ⟨empty, _, next⟩ | ⟨best, reward, first, _, settled⟩
  · rw [next, closing_no_qblock between block, empty]
    simp
  · rw [settled.qblocks, AList.lookup_insert]
    exact iff_of_true rfl (first.ne_nil _)

private theorem qblock_carries_winner {q : QBlock T}
    (found : ((chain T).next s block).qblocks.lookup (Built.number ⟨s, block⟩) = some q) :
    ∃ best, FirstLeast AcceptedProof.energyMilli (Built.accepted ⟨s, block⟩) best ∧ Carries q best := by
  rcases block_cases between.blockBestProof block with ⟨_, _, next⟩ | ⟨best, reward, first, _, settled⟩
  · rw [next, closing_no_qblock between block] at found
    cases found
  · rw [settled.qblocks, AList.lookup_insert] at found
    cases found
    exact ⟨best, first, rfl, rfl, rfl, rfl, rfl⟩

private theorem difficulties_only_winner {hash : H256}
    (changed : ((chain T).next s block).difficulties.lookup hash ≠ (closing s block).difficulties.lookup hash) :
    ∃ best, FirstLeast AcceptedProof.energyMilli (Built.accepted ⟨s, block⟩) best ∧
      hash = best.proof.topologyHash := by
  rcases block_cases between.blockBestProof block with ⟨_, _, next⟩ | ⟨best, reward, first, _, settled⟩
  · rw [next] at changed
    exact absurd rfl changed
  · obtain ⟨hardened, written⟩ := settled.difficulties
    rw [written, StorageMap.lookup_insert_ite] at changed
    split at changed
    · rename_i same
      exact ⟨best, first, same⟩
    · exact absurd rfl changed

private theorem lastProofBlock_only_winner
    (changed : ((chain T).next s block).lastProofBlock ≠ (closing s block).lastProofBlock) :
    Built.accepted ⟨s, block⟩ ≠ [] := by
  rcases block_cases between.blockBestProof block with ⟨_, _, next⟩ | ⟨best, reward, first, _, _⟩
  · rw [next] at changed
    exact absurd rfl changed
  · exact first.ne_nil _

private theorem count_after :
    ((chain T).next s block).blockProofCount = (Built.accepted ⟨s, block⟩).length := by
  have standing := closing_standing between.blockBestProof block
  rcases block_cases between.blockBestProof block with ⟨_, _, next⟩ | ⟨best, reward, _, _, settled⟩
  · rw [next]
    exact standing.count
  · rw [settled.blockProofCount]
    exact standing.count

/-- The count is right at every point of the block, not only at its end. -/
private theorem count_throughout (done : List (Action T)) :
    ((body T).run (initialised s block) done).blockProofCount = (acceptedProofs (initialised s block) done).length ∧
      (acceptedProofs (initialised s block) done).length ≤ T.maxProofsPerBlock := by
  have begun := initialised_spec s block
  have standing := standing_run (begun.blockBestProof.trans between.blockBestProof) begun.blockProofCount done
  exact ⟨standing.count, standing.limit⟩

end Block

/-- Block winner selection, for every block of every chain. The block is built;
its qblock exists exactly if some `submit_proof` succeeded in it and carries the
earliest accepted proof of least energy; the count is the number of accepted
proofs at every point and stays within the limit; no proof is in front between
blocks; and the end of the block changes only the winner's difficulty, and the
last proof block only with a winner. -/
theorem block_winner_selected {s₀ : State T} (fresh : NoQBlocks s₀) (earlier : List (Block T)) (block : Block T) :
    let s := (chain T).run s₀ earlier
    let built : Built T := ⟨s, block⟩
    let after := (chain T).next s block
    buildBlock s block = .ok after ∧
    (∀ executed ∈ (body T).trace built.initialised block.actions,
      executed.accepted.isSome ↔ ∃ proof, executed.call = .submitProof proof) ∧
    ((after.qblocks.lookup built.number).isSome ↔ built.accepted ≠ []) ∧
    (∀ q, after.qblocks.lookup built.number = some q →
      ∃ best, FirstLeast AcceptedProof.energyMilli built.accepted best ∧ Carries q best) ∧
    (∀ done rest, block.actions = done ++ rest →
      ((body T).run built.initialised done).blockProofCount = (acceptedProofs built.initialised done).length ∧
      (acceptedProofs built.initialised done).length ≤ T.maxProofsPerBlock) ∧
    after.blockProofCount = built.accepted.length ∧
    s.blockBestProof = none ∧ after.blockBestProof = none ∧
    (∀ hash, after.difficulties.lookup hash ≠ built.closing.difficulties.lookup hash →
      ∃ best, FirstLeast AcceptedProof.energyMilli built.accepted best ∧ hash = best.proof.topologyHash) ∧
    (after.lastProofBlock ≠ built.closing.lastProofBlock → built.accepted ≠ []) := by
  intro s built after
  have between : Between s := run_between fresh earlier
  refine ⟨?_, fun executed member => executed_accepted_iff member, qblock_iff_accepted between block, ?_, ?_,
    count_after between block, between.blockBestProof, (between_next between block).blockBestProof, ?_,
    lastProofBlock_only_winner between block⟩
  · obtain ⟨ended, ran, _⟩ := onFinalize_cases (closing s block) block.pay (closing s block).blockNumber
    have same : after = ended := by
      simp only [after, chain, buildBlock, ran, committed]
    rw [same]
    exact ran
  · intro q found
    exact qblock_carries_winner between block found
  · intro done _ _
    exact count_throughout between block done
  · intro hash changed
    exact difficulties_only_winner between block changed

/-- Two proofs tie in the first block; the earlier one wins. -/
theorem block_winner_selected_tinyChain :
    (Built.accepted ⟨tinyGenesis, tinyBlock 3 tinyOpening⟩).length = 2 ∧
    ((((chain tinyConfig).next tinyGenesis (tinyBlock 3 tinyOpening)).qblocks.lookup 1).map QBlock.miner :
      Option Nat) = some 1 ∧
    ((((chain tinyConfig).next tinyGenesis (tinyBlock 3 tinyOpening)).qblocks.lookup 1).isSome ↔
      Built.accepted ⟨tinyGenesis, tinyBlock 3 tinyOpening⟩ ≠ []) :=
  ⟨by decide +kernel, by decide +kernel,
    (block_winner_selected tinyGenesis_noQBlocks [] (tinyBlock 3 tinyOpening)).2.2.1⟩

end QuipValidator.Pow
