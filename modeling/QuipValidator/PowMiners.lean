import QuipValidator.PowMoves

/-! The miner records of the proof-of-work pallet and the reserve behind them. Only
`register_miner` and `deregister_miner` touch the balances; a proof and a won block
rewrite one record and keep its deposit. -/
namespace QuipValidator.Pow
open Fallible

variable {T : Config} {s s' : State T}

/-- The record of a new miner. -/
def newMiner (s : State T) : MinerInfo :=
  { registeredAt := s.blockNumber, deposit := T.minerDeposit, proofsSubmitted := 0, proofsWon := 0, rewardsEarned := 0 }

/-- What one dispatch can do to the miner records and the balances. -/
inductive MinersMove (s s' : State T) : Prop where
  | registers (who : T.AccountId) (absent : s.miners.lookup who = none)
      (affordable : T.minerDeposit ≤ s.balances.free who) (miners : s'.miners = s.miners.insert who (newMiner s))
      (balances : s'.balances =
        { free := Balances.set s.balances.free who (s.balances.free who - T.minerDeposit)
          reserved := Balances.set s.balances.reserved who (s.balances.reserved who + T.minerDeposit) })
  | deregisters (who : T.AccountId) (miner : MinerInfo) (held : s.miners.lookup who = some miner)
      (miners : s'.miners = s.miners.erase who) (balances : s'.balances = s.balances.unreserve who miner.deposit)
  | updates (who : T.AccountId) (miner updated : MinerInfo) (held : s.miners.lookup who = some miner)
      (deposit : updated.deposit = miner.deposit) (rewards : updated.rewardsEarned = miner.rewardsEarned)
      (miners : s'.miners = s.miners.insert who updated) (balances : s'.balances = s.balances)
  | keeps (miners : s'.miners = s.miners) (balances : s'.balances = s.balances)

private theorem registerMiner_miners {env : Env T} {origin : Origin T.AccountId}
    (ran : registerMiner s env origin = .ok s') : MinersMove s s' := by
  simp only [registerMiner, bind_success, ensure_success] at ran
  obtain ⟨who, _, _, absent, balances, reserved, built⟩ := ran
  simp only [Balances.reserve, bind_success, ensure_success] at reserved
  obtain ⟨_, affordable, reserved⟩ := reserved
  cases reserved
  cases built
  exact .registers who (Option.isNone_iff_eq_none.mp absent) affordable.1 rfl rfl

private theorem deregisterMiner_miners {origin : Origin T.AccountId} (ran : deregisterMiner s origin = .ok s') :
    MinersMove s s' := by
  simp only [deregisterMiner, bind_success, okOr_success] at ran
  obtain ⟨who, _, miner, held, built⟩ := ran
  cases built
  exact .deregisters who miner held rfl rfl

private theorem submitProof_miners {origin : Origin T.AccountId} {proof : QuantumProof T}
    (ran : submitProof s origin proof = .ok s') : MinersMove s s' := by
  simp only [submitProof, bind_success, okOr_success] at ran
  obtain ⟨who, _, validation, _, miner, held, built⟩ := ran
  cases built
  exact .updates who miner { miner with proofsSubmitted := saturatingAdd u32Max miner.proofsSubmitted 1 } held rfl rfl rfl rfl

/-- Every successful dispatch. -/
theorem execute_miners {env : Env T} {origin : Origin T.AccountId} {call : Call T}
    (ran : execute s env origin call = .ok s') : MinersMove s s' := by
  have moved := execute_moved ran
  cases call with
  | registerMiner => exact registerMiner_miners ran
  | deregisterMiner => exact deregisterMiner_miners ran
  | submitProof proof => exact submitProof_miners ran
  | registerTopology registration =>
    obtain ⟨_, _, _, _, _, rfl⟩ := moved
    exact .keeps rfl rfl
  | setDifficulty topologyHash difficulty =>
    obtain ⟨_, _, _, rfl⟩ := moved
    exact .keeps rfl rfl
  | setDefaultTopology topologyHash =>
    obtain ⟨_, _, _, _, rfl⟩ := moved
    exact .keeps rfl rfl
  | addMineableTopology topologyHash =>
    obtain ⟨_, _, rfl | ⟨_, _, _, rfl⟩⟩ := moved <;> exact .keeps rfl rfl
  | removeMineableTopology topologyHash =>
    obtain ⟨_, _, rfl | ⟨_, rfl⟩⟩ := moved <;> exact .keeps rfl rfl
  | setTopologyCurve topologyHash curveC =>
    obtain ⟨_, _, _, rfl⟩ := moved
    exact .keeps rfl rfl
  | setBlockReward amount =>
    obtain ⟨_, rfl⟩ := moved
    exact .keeps rfl rfl
  | setTargetProofBlocks blocks =>
    obtain ⟨_, rfl⟩ := moved
    exact .keeps rfl rfl

/-- A winner's record after a reward; the counters stop at the largest value of their type. -/
def MinerInfo.credited (miner : MinerInfo) (reward : Nat) : MinerInfo :=
  { miner with
    proofsWon := saturatingAdd u32Max miner.proofsWon 1
    rewardsEarned := saturatingAdd u128Max miner.rewardsEarned reward }

theorem creditWinner_miners (s : State T) (winner : T.AccountId) (reward : Nat) :
    (∃ miner, s.miners.lookup winner = some miner ∧
      (creditWinner s winner reward).miners = s.miners.insert winner (miner.credited reward)) ∨
    (s.miners.lookup winner = none ∧ (creditWinner s winner reward).miners = s.miners) := by
  cases found : s.miners.lookup winner with
  | none => exact .inr ⟨rfl, by simp only [creditWinner, found]⟩
  | some miner => exact .inl ⟨miner, rfl, by simp only [creditWinner, found, MinerInfo.credited]⟩

theorem initialised_miners (s : State T) (block : Block T) :
    (initialised s block).miners = s.miners ∧ (initialised s block).balances = s.balances := by
  simp only [initialised, onInitialize]
  split <;> exact ⟨rfl, rfl⟩

end QuipValidator.Pow
