import QuipValidator.PowMiners
import QuipValidator.PowRounds

/-! The miner table read off the history of a chain. A record starts with a
registration, counts the proofs accepted since, and counts and adds up the
qblocks its miner won since; a deregistration ends it. Nothing else reaches the
table, and the counters stop at the largest value of their type. -/
namespace QuipValidator.Pow
open Fallible

variable {T : Config} {s s' : State T}

/-- What the dispatches say of a registered miner: the block of its
registration and the proofs accepted since. -/
structure MinerHistory where
  since : Nat
  submitted : Nat

/-- The history of `who` after one more successful dispatch. -/
def MinerHistory.after (who : T.AccountId) (held : Option MinerHistory) (executed : Executed T) :
    Option MinerHistory :=
  match executed.origin, executed.call with
  | .signed signer, .registerMiner =>
    if who = signer then some { since := executed.before.blockNumber, submitted := 0 } else held
  | .signed signer, .deregisterMiner => if who = signer then none else held
  | .signed signer, .submitProof _ =>
    if who = signer then held.map fun history => { history with submitted := history.submitted + 1 } else held
  | _, _ => held

/-- The history of `who`, none while it is not registered. -/
def minerHistory (log : List (Executed T)) (who : T.AccountId) : Option MinerHistory :=
  log.foldl (MinerHistory.after who) none

/-- Every successful dispatch of the blocks, oldest first. -/
def dispatches (builts : List (Built T)) : List (Executed T) :=
  builts.flatMap fun built => (body T).trace built.initialised built.block.actions

/-- What the qblocks won by `who` from block `since` on add up to. -/
def wonSince (qblocks : StorageMap Nat (QBlock T)) (who : T.AccountId) (since : Nat) (weigh : QBlock T → Nat) : Nat :=
  qblocks.sum fun n q => if q.miner = who ∧ since ≤ n then weigh q else 0

/-- The record the history and the qblocks give a registered miner. -/
def MinerHistory.record (history : MinerHistory) (qblocks : StorageMap Nat (QBlock T)) (who : T.AccountId) :
    MinerInfo where
  registeredAt := history.since
  deposit := T.minerDeposit
  proofsSubmitted := min history.submitted u32Max
  proofsWon := min (wonSince qblocks who history.since fun _ => 1) u32Max
  rewardsEarned := min (wonSince qblocks who history.since QBlock.reward) u128Max

/-- A capped counter counts on. -/
theorem saturatingAdd_min (cap a b : Nat) : saturatingAdd cap (min a cap) b = min (a + b) cap := by
  unfold saturatingAdd
  omega

/-- A miner that registers now has won nothing. -/
theorem wonSince_fresh {qblocks : StorageMap Nat (QBlock T)} {since : Nat} (who : T.AccountId) (weigh : QBlock T → Nat)
    (past : ∀ n q, qblocks.lookup n = some q → n < since) : wonSince qblocks who since weigh = 0 := by
  have none : wonSince qblocks who since weigh = qblocks.sum fun _ _ => 0 := by
    apply StorageMap.sum_congr
    intro n q found
    have before := past n q found
    exact if_neg fun later => absurd later.2 (Nat.not_le.mpr before)
  simp [none, StorageMap.sum]

/-- A new qblock counts for its winner and for nobody else. -/
theorem wonSince_insert {qblocks : StorageMap Nat (QBlock T)} {n since : Nat} (who : T.AccountId)
    (weigh : QBlock T → Nat) (q : QBlock T) (new : qblocks.lookup n = none) (held : since ≤ n) :
    wonSince (qblocks.insert n q) who since weigh =
      wonSince qblocks who since weigh + if q.miner = who then weigh q else 0 := by
  have inserted := qblocks.sum_insert (fun n q => if q.miner = who ∧ since ≤ n then weigh q else 0) n q
  rw [new] at inserted
  simp only [Option.elim_none, Nat.add_zero, held, and_true] at inserted
  exact inserted

/-- What a successful dispatch does to the miner records, by its call. -/
def MinerEffect (s : State T) (origin : Origin T.AccountId) (s' : State T) : Call T → Prop
  | .registerMiner => ∃ who, origin = .signed who ∧ s'.miners = s.miners.insert who (newMiner s)
  | .deregisterMiner => ∃ who, origin = .signed who ∧ s'.miners = s.miners.erase who
  | .submitProof _ => ∃ who miner, origin = .signed who ∧ s.miners.lookup who = some miner ∧
      s'.miners = s.miners.insert who
        { miner with proofsSubmitted := saturatingAdd u32Max miner.proofsSubmitted 1 }
  | _ => s'.miners = s.miners

theorem execute_effect {env : Env T} {origin : Origin T.AccountId} {call : Call T}
    (ran : execute s env origin call = .ok s') : MinerEffect s origin s' call := by
  have moved := execute_moved ran
  cases call with
  | registerMiner =>
    simp only [execute, registerMiner, bind_success] at ran
    obtain ⟨who, signed, _, _, _, _, built⟩ := ran
    cases built
    exact ⟨who, ensureSigned_success signed, rfl⟩
  | deregisterMiner =>
    simp only [execute, deregisterMiner, bind_success] at ran
    obtain ⟨who, signed, _, _, built⟩ := ran
    cases built
    exact ⟨who, ensureSigned_success signed, rfl⟩
  | submitProof proof =>
    simp only [execute, submitProof, bind_success, okOr_success] at ran
    obtain ⟨who, signed, _, _, miner, held, built⟩ := ran
    cases built
    exact ⟨who, miner, ensureSigned_success signed, held, rfl⟩
  | registerTopology registration =>
    obtain ⟨_, _, _, _, _, rfl⟩ := moved
    rfl
  | setDifficulty topologyHash difficulty =>
    obtain ⟨_, _, _, rfl⟩ := moved
    rfl
  | setDefaultTopology topologyHash =>
    obtain ⟨_, _, _, _, rfl⟩ := moved
    rfl
  | addMineableTopology topologyHash =>
    obtain ⟨_, _, rfl | ⟨_, _, _, rfl⟩⟩ := moved <;> rfl
  | removeMineableTopology topologyHash =>
    obtain ⟨_, _, rfl | ⟨_, rfl⟩⟩ := moved <;> rfl
  | setTopologyCurve topologyHash curveC =>
    obtain ⟨_, _, _, rfl⟩ := moved
    rfl
  | setBlockReward amount =>
    obtain ⟨_, rfl⟩ := moved
    rfl
  | setTargetProofBlocks blocks =>
    obtain ⟨_, rfl⟩ := moved
    rfl

/-- The qblocks and the block number wait for the end of the block. -/
theorem execute_waits {env : Env T} {origin : Origin T.AccountId} {call : Call T}
    (ran : execute s env origin call = .ok s') : s'.qblocks = s.qblocks ∧ s'.blockNumber = s.blockNumber := by
  rcases execute_cases ran with ⟨who, proof, validation, miner, _, _, _, rfl⟩ | ⟨_, aside⟩
  · exact ⟨rfl, rfl⟩
  · exact ⟨aside.qblocks, aside.blockNumber⟩

/-- The miner table is what the history says, and no history is from the future. -/
structure Chronicled (log : List (Executed T)) (s : State T) : Prop where
  table : ∀ who, s.miners.lookup who = (minerHistory log who).map fun history => history.record s.qblocks who
  past : ∀ who history, minerHistory log who = some history → history.since ≤ s.blockNumber

theorem minerHistory_concat (log : List (Executed T)) (executed : Executed T) (who : T.AccountId) :
    minerHistory (log ++ [executed]) who = MinerHistory.after who (minerHistory log who) executed := by
  simp [minerHistory, List.foldl_append]

section Step
variable {log : List (Executed T)} (recorded : Chronicled log s)
include recorded

/-- Storage that holds the same records, qblocks and block number. -/
theorem Chronicled.keep (miners : s'.miners = s.miners) (qblocks : s'.qblocks = s.qblocks)
    (number : s.blockNumber ≤ s'.blockNumber) : Chronicled log s' := by
  refine ⟨?_, ?_⟩
  · intro who
    rw [miners, qblocks]
    exact recorded.table who
  · intro who history held
    exact Nat.le_trans (recorded.past who history held) number

/-- One successful dispatch is recorded as its call says. -/
theorem Chronicled.dispatch (past : ∀ n q, s.qblocks.lookup n = some q → n < s.blockNumber) {env : Env T}
    {origin : Origin T.AccountId} {call : Call T} (ran : execute s env origin call = .ok s') :
    Chronicled (log ++ [⟨origin, call, s, s'⟩]) s' := by
  have effect := execute_effect ran
  obtain ⟨qblocks, number⟩ := execute_waits ran
  refine ⟨?_, ?_⟩
  · intro who
    have held := recorded.table who
    rw [minerHistory_concat, qblocks]
    cases call with
    | registerMiner =>
      obtain ⟨signer, rfl, miners⟩ := effect
      rw [miners, StorageMap.lookup_insert_ite]
      simp only [MinerHistory.after]
      split
      · simp [newMiner, MinerHistory.record, wonSince_fresh _ _ past]
      · exact held
    | deregisterMiner =>
      obtain ⟨signer, rfl, miners⟩ := effect
      rw [miners, StorageMap.lookup_erase_ite]
      simp only [MinerHistory.after]
      split
      · rfl
      · exact held
    | submitProof proof =>
      obtain ⟨signer, miner, rfl, found, miners⟩ := effect
      rw [miners, StorageMap.lookup_insert_ite]
      simp only [MinerHistory.after]
      split
      · rename_i same
        subst same
        rw [found] at held
        obtain ⟨history, known, rfl⟩ := Option.map_eq_some_iff.mp held.symm
        simp [known, MinerHistory.record, saturatingAdd_min]
      · exact held
    | _ =>
      have miners : s'.miners = s.miners := effect
      rw [miners]
      cases origin <;> exact held
  · intro who history known
    rw [number]
    rw [minerHistory_concat] at known
    have earlier := recorded.past who
    unfold MinerHistory.after at known
    split at known
    · split at known
      · cases known
        exact Nat.le_refl _
      · exact earlier history known
    · split at known
      · cases known
      · exact earlier history known
    · split at known
      · obtain ⟨before, found, rfl⟩ := Option.map_eq_some_iff.mp known
        exact earlier before found
      · exact earlier history known
    · exact earlier history known

end Step

/-- A block under way: the records are up to date and its own qblock is still to come. -/
structure UnderWay (log : List (Executed T)) (s : State T) : Prop where
  recorded : Chronicled log s
  past : ∀ n q, s.qblocks.lookup n = some q → n < s.blockNumber

/-- One action inside a block. -/
theorem UnderWay.step {log : List (Executed T)} (going : UnderWay log s) (action : Action T) :
    UnderWay (log ++ (body T).report s action) ((body T).next s action) := by
  cases action with
  | external balances =>
    have quiet : (body T).report s (.external balances) = [] := rfl
    rw [quiet, List.append_nil]
    exact ⟨going.recorded.keep rfl rfl (Nat.le_refl _), going.past⟩
  | dispatch env origin call =>
    rcases body_dispatch s env origin call with ⟨same, quiet⟩ | ⟨after, ran, same, told⟩
    · rw [same, quiet, List.append_nil]
      exact going
    · rw [same, told]
      refine ⟨going.recorded.dispatch going.past ran, ?_⟩
      obtain ⟨qblocks, number⟩ := execute_waits ran
      rw [qblocks, number]
      exact going.past

/-- All actions of a block. -/
theorem UnderWay.run {log : List (Executed T)} (going : UnderWay log s) (actions : List (Action T)) :
    UnderWay (log ++ (body T).trace s actions) ((body T).run s actions) := by
  have initially : UnderWay (log ++ []) s := by
    rw [List.append_nil]
    exact going
  apply (body T).run_follows (fun reports s => UnderWay (log ++ reports) s) initially
  intro s reports action held
  rw [← List.append_assoc]
  exact held.step action

theorem initialised_underWay {log : List (Executed T)} (between : Between s) (recorded : Chronicled log s)
    (block : Block T) : UnderWay log (initialised s block) := by
  have begun := initialised_spec s block
  have later : s.blockNumber ≤ (initialised s block).blockNumber := by
    rw [begun.blockNumber]
    omega
  refine ⟨recorded.keep (initialised_miners s block).1 begun.qblocks later, ?_⟩
  intro n q found
  rw [begun.qblocks] at found
  rw [begun.blockNumber]
  exact between.lt_number block found

/-- The winner's record is credited with the qblock that is stored for it. -/
theorem Chronicled.credit {log : List (Executed T)} (going : UnderWay log s) {qblock : QBlock T}
    (miners : s'.miners = (creditWinner s qblock.miner qblock.reward).miners)
    (qblocks : s'.qblocks = s.qblocks.insert s.blockNumber qblock) (number : s'.blockNumber = s.blockNumber) :
    Chronicled log s' := by
  have new : s.qblocks.lookup s.blockNumber = none := by
    cases found : s.qblocks.lookup s.blockNumber with
    | none => rfl
    | some q => exact absurd (going.past _ q found) (Nat.lt_irrefl _)
  refine ⟨?_, ?_⟩
  · intro who
    have held := going.recorded.table who
    rw [miners, qblocks]
    cases known : minerHistory log who with
    | none =>
      rw [known] at held
      rcases creditWinner_miners s qblock.miner qblock.reward with ⟨miner, found, credited⟩ | ⟨_, credited⟩
      · rw [credited, StorageMap.lookup_insert_ite]
        split
        · rename_i same
          rw [same, found] at held
          cases held
        · exact held
      · rw [credited]
        exact held
    | some history =>
      have since := going.recorded.past who history known
      rw [known] at held
      simp only [Option.map_some, MinerHistory.record, wonSince_insert who _ qblock new since]
      rcases creditWinner_miners s qblock.miner qblock.reward with ⟨miner, found, credited⟩ | ⟨missing, credited⟩
      · rw [credited, StorageMap.lookup_insert_ite]
        by_cases same : who = qblock.miner
        · subst same
          rw [found] at held
          cases held
          simp [MinerInfo.credited, MinerHistory.record, saturatingAdd_min]
        · have other : qblock.miner ≠ who := fun equal => same equal.symm
          rw [if_neg same, if_neg other, if_neg other]
          exact held
      · have other : qblock.miner ≠ who := by
          intro equal
          rw [← equal, missing] at held
          cases held
        rw [credited, if_neg other, if_neg other]
        exact held
  · intro who history known
    rw [number]
    exact going.recorded.past who history known

/-- One block. -/
theorem Chronicled.next {log : List (Executed T)} (between : Between s) (recorded : Chronicled log s)
    (block : Block T) :
    Chronicled (log ++ (body T).trace (initialised s block) block.actions) ((chain T).next s block) := by
  have closed : UnderWay _ (closing s block) := (initialised_underWay between recorded block).run block.actions
  have next : (chain T).next s block = committed s (buildBlock s block) := rfl
  rw [next, buildBlock]
  cases front : (closing s block).blockBestProof with
  | none =>
    rw [onFinalize, front]
    exact closed.recorded
  | some record =>
    obtain ⟨_, logs, events, ran⟩ := onFinalize_pays (closing s block) block.pay (closing s block).blockNumber front
    rw [ran, committed]
    exact Chronicled.credit closed rfl rfl rfl

/-- In every chain that starts without miners and qblocks, the miner table holds
exactly the registered miners, each with the record its history and its qblocks
since then give it. -/
theorem miner_records_follow_history {s₀ : State T} (fresh : NoQBlocks s₀) (empty : s₀.miners = ∅)
    (blocks : List (Block T)) (who : T.AccountId) :
    ((chain T).run s₀ blocks).miners.lookup who =
      (minerHistory (dispatches ((chain T).trace s₀ blocks)) who).map fun history =>
        history.record ((chain T).run s₀ blocks).qblocks who := by
  have initially : Chronicled (dispatches []) s₀ := by
    refine ⟨?_, ?_⟩
    · intro who
      rw [empty]
      rfl
    · intro who history known
      cases known
  have followed : Between _ ∧ Chronicled _ _ := (chain T).run_follows
    (fun builts s => Between s ∧ Chronicled (dispatches builts) s) ⟨fresh.between, initially⟩ ?_ blocks
  · exact followed.2.table who
  · rintro s builts block ⟨between, recorded⟩
    refine ⟨between_next between block, ?_⟩
    have told : dispatches (builts ++ (chain T).report s block) =
        dispatches builts ++ (body T).trace (initialised s block) block.actions := by
      simp [dispatches, chain, Built.initialised]
    rw [told]
    exact recorded.next between block

/-- Two proofs by miner 2, one of which wins the second block. -/
theorem miner_records_follow_history_tinyChain :
    minerHistory (dispatches ((chain tinyConfig).trace tinyGenesis tinyChain)) (2 : Nat) = some ⟨1, 2⟩ ∧
      ((chain tinyConfig).run tinyGenesis tinyChain).miners.lookup (2 : Nat) =
        some (MinerHistory.record ⟨1, 2⟩ ((chain tinyConfig).run tinyGenesis tinyChain).qblocks (2 : Nat)) := by
  have known : minerHistory (dispatches ((chain tinyConfig).trace tinyGenesis tinyChain)) (2 : Nat) = some ⟨1, 2⟩ :=
    rfl
  have followed := miner_records_follow_history tinyGenesis_noQBlocks rfl tinyChain (2 : Nat)
  rw [known] at followed
  exact ⟨known, followed⟩

end QuipValidator.Pow
