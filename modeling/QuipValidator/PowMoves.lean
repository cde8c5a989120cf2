import QuipValidator.PowBlocks

/-! Everything a dispatch and the two hooks can do, said once. `Moved` gives the
storage a successful dispatch left, call by call. Of the round it says that a
dispatch either accepts a proof or stays `Aside`: it leaves the best proof, the
count and the qblock storage alone, and the difficulty inputs too unless it is
one of the three calls that retune them. `onFinalize_moves` and
`onFinalize_cases` say the same for the end of a block. -/
namespace QuipValidator.Pow
open Fallible

variable {T : Config} {s s' : State T}

/-- The three specs a registration stores. -/
abbrev StoredSpecs (T : Config) := AllowedValues T × AllowedValues T × AllowedValues T

/-- The key of a registration. -/
def Registration.hash (registration : Registration T) (specs : StoredSpecs T) : H256 :=
  hashTopology T registration.nodes.val registration.edges.val specs.1.asSlice specs.2.1.asSlice specs.2.2.asSlice

/-- The record of a registration in block `n`. -/
def Registration.topology (registration : Registration T) (specs : StoredSpecs T) (n : Nat) : TopologyMeta T :=
  { nodes := registration.nodes
    edges := registration.edges
    allowedHValues := specs.1
    allowedJValues := specs.2.1
    allowedSpinValues := specs.2.2
    registeredAt := n }

/-- What a successful dispatch found in storage and what it left there. -/
def Moved (s : State T) (origin : Origin T.AccountId) (s' : State T) : Call T → Prop
  | .registerMiner => ∃ balances miners events, s' = { s with balances, miners, events }
  | .deregisterMiner => ∃ balances miners events, s' = { s with balances, miners, events }
  | .registerTopology registration => origin = .root ∧ ∃ specs events, checkRegistration registration = .ok specs ∧
      s.registeredTopologies.lookup (registration.hash specs) = none ∧
      s' = { s with
        registeredTopologies :=
          s.registeredTopologies.insert (registration.hash specs) (registration.topology specs s.blockNumber)
        defaultTopology := some (s.defaultTopology.getD (registration.hash specs))
        mineableTopologies :=
          if s.defaultTopology.isNone then s.mineableTopologies.insert (registration.hash specs) ()
          else s.mineableTopologies
        events }
  | .setDifficulty topologyHash difficulty =>
    origin = .root ∧ (s.registeredTopologies.lookup topologyHash).isSome ∧
      ∃ events, s' = { s with difficulties := s.difficulties.insert topologyHash difficulty, events }
  | .submitProof proof => ∃ who validation miner, origin = .signed who ∧ checkProof s who proof = .ok validation ∧
      s' = recordProof s who proof validation miner
  | .setDefaultTopology topologyHash =>
    origin = .root ∧ (s.registeredTopologies.lookup topologyHash).isSome ∧
      (s.mineableTopologies.lookup topologyHash).isSome ∧
      ∃ events, s' = { s with defaultTopology := some topologyHash, events }
  | .addMineableTopology topologyHash =>
    origin = .root ∧ (s.registeredTopologies.lookup topologyHash).isSome ∧
      (s' = s ∨ s.mineableTopologies.lookup topologyHash = none ∧
        (some topologyHash = s.defaultTopology ∨ ∀ hash ∈ s.mineableTopologies.keys, some hash = s.defaultTopology) ∧
        ∃ events, s' = { s with mineableTopologies := s.mineableTopologies.insert topologyHash (), events })
  | .removeMineableTopology topologyHash =>
    origin = .root ∧ s.defaultTopology ≠ some topologyHash ∧
      (s' = s ∨ ∃ events, s' = { s with mineableTopologies := s.mineableTopologies.erase topologyHash, events })
  | .setTopologyCurve topologyHash curveC =>
    origin = .root ∧ (s.registeredTopologies.lookup topologyHash).isSome ∧
      ∃ events, s' = { s with topologyCurveC := s.topologyCurveC.insert topologyHash curveC, events }
  | .setBlockReward amount => ∃ events, s' = { s with blockRewardOverride := some amount, events }
  | .setTargetProofBlocks blocks => ∃ events, s' = { s with targetProofBlocksOverride := some blocks, events }

private theorem ensureRoot_success {origin : Origin T.AccountId} {result : Unit}
    (ran : ensureRoot origin = .ok result) : origin = .root := by
  cases origin with
  | root => rfl
  | signed who => cases ran
  | none => cases ran
  | pallet index => cases ran

theorem ensureSigned_success {origin : Origin T.AccountId} {who : T.AccountId}
    (ran : ensureSigned origin = .ok who) : origin = .signed who := by
  cases origin with
  | signed account =>
    cases ran
    rfl
  | root => cases ran
  | none => cases ran
  | pallet index => cases ran

theorem registerTopology_moved {origin : Origin T.AccountId} {registration : Registration T}
    (ran : registerTopology s origin registration = .ok s') : Moved s origin s' (.registerTopology registration) := by
  simp only [registerTopology, bind_success, ensure_success] at ran
  obtain ⟨_, root, specs, checked, _, fresh, built⟩ := ran
  have unseen : s.registeredTopologies.lookup (registration.hash specs) = none := by
    simpa [Registration.hash] using fresh
  let event : Event T := .topologyRegistered (registration.hash specs) (asU32 registration.nodes.val.length)
    (asU32 registration.edges.val.length)
  refine ⟨ensureRoot_success root, specs, s.events ++ [event], checked, unseen, ?_⟩
  cases named : s.defaultTopology with
  | none =>
    simp only [named, Option.isNone_none, if_true] at built
    cases built
    simp only [Option.getD_none, Option.isNone_none, if_true]
    rfl
  | some hash =>
    simp only [named, Option.isNone_some, Bool.false_eq_true, if_false] at built
    cases built
    simp only [Option.getD_some, Option.isNone_some, Bool.false_eq_true, if_false]
    rfl

private theorem addMineableTopology_moved {origin : Origin T.AccountId} {topologyHash : H256}
    (ran : addMineableTopology s origin topologyHash = .ok s') :
    Moved s origin s' (.addMineableTopology topologyHash) := by
  simp only [addMineableTopology, bind_success, ensure_success] at ran
  obtain ⟨_, root, _, registered, built⟩ := ran
  refine ⟨ensureRoot_success root, registered, ?_⟩
  split at built
  · cases built
    exact .inl rfl
  · rename_i absent
    simp only [bind_success, ensure_success] at built
    obtain ⟨_, room, written⟩ := built
    cases written
    refine .inr ⟨by simpa using absent, ?_, _, rfl⟩
    apply room.imp_right
    intro alone hash member
    by_contra other
    apply alone
    rw [List.any_eq_true]
    exact ⟨hash, (T.iterKeys_perm _).mem_iff.mpr member, decide_eq_true other⟩

/-- Every successful dispatch moved as its call says. -/
theorem execute_moved {env : Env T} {origin : Origin T.AccountId} {call : Call T}
    (ran : execute s env origin call = .ok s') : Moved s origin s' call := by
  cases call with
  | registerTopology registration => exact registerTopology_moved ran
  | addMineableTopology topologyHash => exact addMineableTopology_moved ran
  | submitProof proof =>
    simp only [execute, submitProof, bind_success] at ran
    obtain ⟨who, signed, validation, checked, miner, _, recorded⟩ := ran
    cases recorded
    exact ⟨who, validation, miner, ensureSigned_success signed, checked, rfl⟩
  | registerMiner =>
    simp only [execute, registerMiner, bind_success] at ran
    obtain ⟨_, _, _, _, _, _, built⟩ := ran
    cases built
    exact ⟨_, _, _, rfl⟩
  | deregisterMiner =>
    simp only [execute, deregisterMiner, bind_success] at ran
    obtain ⟨_, _, _, _, built⟩ := ran
    cases built
    exact ⟨_, _, _, rfl⟩
  | setDefaultTopology topologyHash =>
    simp only [execute, setDefaultTopology, bind_success, ensure_success] at ran
    obtain ⟨_, root, _, registered, _, mineable, built⟩ := ran
    cases built
    exact ⟨ensureRoot_success root, registered, mineable, _, rfl⟩
  | setBlockReward amount =>
    simp only [execute, setBlockReward, bind_success] at ran
    obtain ⟨_, _, _, _, built⟩ := ran
    cases built
    exact ⟨_, rfl⟩
  | removeMineableTopology topologyHash =>
    simp only [execute, removeMineableTopology, bind_success, ensure_success] at ran
    obtain ⟨_, root, _, other, built⟩ := ran
    refine ⟨ensureRoot_success root, other, ?_⟩
    split at built
    · cases built
      exact .inr ⟨_, rfl⟩
    · cases built
      exact .inl rfl
  | setDifficulty topologyHash difficulty =>
    simp only [execute, setDifficulty, bind_success, ensure_success] at ran
    obtain ⟨_, root, _, registered, _, _, built⟩ := ran
    cases built
    exact ⟨ensureRoot_success root, registered, _, rfl⟩
  | setTopologyCurve topologyHash curveC =>
    simp only [execute, setTopologyCurve, bind_success, okOr_success] at ran
    obtain ⟨_, root, topology, found, _, _, _, _, _, _, built⟩ := ran
    cases built
    exact ⟨ensureRoot_success root, by simp [found], _, rfl⟩
  | setTargetProofBlocks blocks =>
    simp only [execute, setTargetProofBlocks, bind_success] at ran
    obtain ⟨_, _, _, _, built⟩ := ran
    cases built
    exact ⟨_, rfl⟩

/-- The storage with the one difficulty input a retuning call writes. -/
def retuned (s : State T) : Call T → State T
  | .setDifficulty topologyHash difficulty =>
    { s with difficulties := s.difficulties.insert topologyHash difficulty }
  | .setTopologyCurve topologyHash curveC =>
    { s with topologyCurveC := s.topologyCurveC.insert topologyHash curveC }
  | .setTargetProofBlocks blocks => { s with targetProofBlocksOverride := some blocks }
  | _ => s

/-- What every accepted call other than `submit_proof` leaves alone. -/
structure Aside (s : State T) (call : Call T) (s' : State T) : Prop where
  blockNumber : s'.blockNumber = s.blockNumber
  blockBestProof : s'.blockBestProof = s.blockBestProof
  blockProofCount : s'.blockProofCount = s.blockProofCount
  lastProofBlock : s'.lastProofBlock = s.lastProofBlock
  qblocks : s'.qblocks = s.qblocks
  qblockCount : s'.qblockCount = s.qblockCount
  qblockBlockById : s'.qblockBlockById = s.qblockBlockById
  qblockIdByBlock : s'.qblockIdByBlock = s.qblockIdByBlock
  registered : ∀ hash topology, s.registeredTopologies.lookup hash = some topology →
    s'.registeredTopologies.lookup hash = some topology
  difficulties : s'.difficulties = (retuned s call).difficulties
  topologyCurveC : s'.topologyCurveC = (retuned s call).topologyCurveC
  targetProofBlocksOverride : s'.targetProofBlocksOverride = (retuned s call).targetProofBlocksOverride

/-- Closes the cases whose state differs only in fields no round depends on. -/
private theorem aside_of_same {call : Call T} (quiet : retuned s call = s)
    (same : s' = { s with
      balances := s'.balances
      miners := s'.miners
      mineableTopologies := s'.mineableTopologies
      defaultTopology := s'.defaultTopology
      blockRewardOverride := s'.blockRewardOverride
      events := s'.events }) : Aside s call s' := by
  rw [same]
  constructor <;> first | rfl | rw [quiet] | exact fun _ _ held => held

private theorem registerTopology_aside {origin : Origin T.AccountId} {registration : Registration T}
    (moved : Moved s origin s' (.registerTopology registration)) : Aside s (.registerTopology registration) s' := by
  obtain ⟨_, specs, events, _, fresh, rfl⟩ := moved
  refine ⟨rfl, rfl, rfl, rfl, rfl, rfl, rfl, rfl, ?_, rfl, rfl, rfl⟩
  intro hash topology found
  have other : hash ≠ registration.hash specs := by
    rintro rfl
    rw [fresh] at found
    cases found
  rw [StorageMap.lookup_insert_ite, if_neg other]
  exact found

/-- A dispatch accepts a proof or stays aside. -/
theorem execute_cases {env : Env T} {origin : Origin T.AccountId} {call : Call T}
    (ran : execute s env origin call = .ok s') :
    (∃ who proof validation miner, origin = .signed who ∧ call = .submitProof proof ∧
      checkProof s who proof = .ok validation ∧ s' = recordProof s who proof validation miner) ∨
    ((∀ proof, call ≠ .submitProof proof) ∧ Aside s call s') := by
  have moved := execute_moved ran
  cases call with
  | submitProof proof =>
    obtain ⟨who, validation, miner, rfl, checked, rfl⟩ := moved
    exact .inl ⟨who, proof, validation, miner, rfl, rfl, checked, rfl⟩
  | registerTopology registration => exact .inr ⟨by simp, registerTopology_aside moved⟩
  | registerMiner =>
    obtain ⟨_, _, _, rfl⟩ := moved
    exact .inr ⟨by simp, aside_of_same rfl rfl⟩
  | deregisterMiner =>
    obtain ⟨_, _, _, rfl⟩ := moved
    exact .inr ⟨by simp, aside_of_same rfl rfl⟩
  | setDefaultTopology topologyHash =>
    obtain ⟨_, _, _, _, rfl⟩ := moved
    exact .inr ⟨by simp, aside_of_same rfl rfl⟩
  | setBlockReward amount =>
    obtain ⟨_, rfl⟩ := moved
    exact .inr ⟨by simp, aside_of_same rfl rfl⟩
  | addMineableTopology topologyHash =>
    obtain ⟨_, _, rfl | ⟨_, _, _, rfl⟩⟩ := moved <;> exact .inr ⟨by simp, aside_of_same rfl rfl⟩
  | removeMineableTopology topologyHash =>
    obtain ⟨_, _, rfl | ⟨_, rfl⟩⟩ := moved <;> exact .inr ⟨by simp, aside_of_same rfl rfl⟩
  | setDifficulty topologyHash difficulty =>
    obtain ⟨_, _, _, rfl⟩ := moved
    exact .inr ⟨by simp, ⟨rfl, rfl, rfl, rfl, rfl, rfl, rfl, rfl, fun _ _ held => held, rfl, rfl, rfl⟩⟩
  | setTopologyCurve topologyHash curveC =>
    obtain ⟨_, _, _, rfl⟩ := moved
    exact .inr ⟨by simp, ⟨rfl, rfl, rfl, rfl, rfl, rfl, rfl, rfl, fun _ _ held => held, rfl, rfl, rfl⟩⟩
  | setTargetProofBlocks blocks =>
    obtain ⟨_, rfl⟩ := moved
    exact .inr ⟨by simp, ⟨rfl, rfl, rfl, rfl, rfl, rfl, rfl, rfl, fun _ _ held => held, rfl, rfl, rfl⟩⟩

/-- The qblock a winning record leaves, with the reward the miner received. -/
def qblockOf (s : State T) (n : Nat) (record : ProofRecord T) (reward : Nat) : QBlock T :=
  { miner := record.miner
    salt := record.salt
    energyMilli := record.energyMilli
    reward
    submittedAt := record.submittedAt
    difficulty := currentDifficultyFor s record.topologyHash n
    lastProofBlockHash := s.lastProofBlockHash
    topologyHash := record.topologyHash
    deviceAccessTimeUs := record.deviceAccessTimeUs }

/-- What the end of block `n` does with the winning record. -/
structure Settled (s : State T) (n : Nat) (record : ProofRecord T) (reward : Nat) (s' : State T) : Prop where
  blockNumber : s'.blockNumber = s.blockNumber
  blockBestProof : s'.blockBestProof = none
  blockProofCount : s'.blockProofCount = s.blockProofCount
  lastProofBlock : s'.lastProofBlock = n
  qblocks : s'.qblocks = s.qblocks.insert n (qblockOf s n record reward)
  qblockCount : s'.qblockCount = nextQblockId s
  qblockBlockById : s'.qblockBlockById = s.qblockBlockById.insert (nextQblockId s) n
  qblockIdByBlock : s'.qblockIdByBlock = s.qblockIdByBlock.insert n (nextQblockId s)
  difficulties : ∃ next, s'.difficulties = s.difficulties.insert record.topologyHash next

/-- Crediting the winner writes its miner record and nothing else. -/
theorem creditWinner_eq (s : State T) (winner : T.AccountId) (reward : Nat) :
    creditWinner s winner reward = { s with miners := (creditWinner s winner reward).miners } := by
  unfold creditWinner
  split <;> rfl

private theorem adjustDifficulty_runs (s : State T) (n : Nat) (record : ProofRecord T) (active : DifficultyConfig) :
    ∃ next logs, adjustDifficulty s n record active = .ok (next, logs) := by
  simp only [adjustDifficulty]
  split
  · rename_i curve _
    obtain ⟨next, ran⟩ := adjustOnProof_runs T.floats active record.energyMilli (miningTimeBlocks s n) curve
      (T.adjustmentSample s.parentHash record.miner n (miningTimeBlocks s n)) (targetProofBlocks s)
    exact ⟨next, s.logs, bind_success.mpr ⟨next, ran, rfl⟩⟩
  · exact ⟨_, _, rfl⟩

/-- The storage the end of block `n` leaves of a winning record. -/
def settledAs (s : State T) (n : Nat) (record : ProofRecord T) (reward : Nat) (next : DifficultyConfig)
    (miners : StorageMap T.AccountId MinerInfo) (logs : List String) (events : List (Event T)) : State T :=
  { s with
    blockBestProof := none
    miners
    logs
    events
    difficulties := s.difficulties.insert record.topologyHash next
    lastProofBlock := n
    qblockCount := nextQblockId s
    qblocks := s.qblocks.insert n (qblockOf s n record reward)
    qblockBlockById := s.qblockBlockById.insert (nextQblockId s) n
    qblockIdByBlock := s.qblockIdByBlock.insert n (nextQblockId s) }

private theorem creditWinner_taken (s : State T) (winner : T.AccountId) (reward : Nat) :
    (creditWinner { s with blockBestProof := none } winner reward).miners = (creditWinner s winner reward).miners := by
  cases found : s.miners.lookup winner <;> simp only [creditWinner, found]

/-- The end of a block with a best proof: the amount paid goes into the winner's
record and the qblock, the hardened difficulty under its topology. -/
theorem onFinalize_hardens (s : State T) (pay : T.AccountId → Nat → Nat) (n : Nat) {record : ProofRecord T}
    (front : s.blockBestProof = some record) :
    ∃ next logs events, adjustDifficulty s n record (currentDifficultyFor s record.topologyHash n) = .ok (next, logs) ∧
      onFinalize s pay n =
        .ok (settledAs s n record (pay record.miner (blockReward s)) next
          (creditWinner s record.miner (pay record.miner (blockReward s))).miners logs events) := by
  have credited := creditWinner_eq { s with blockBestProof := none } record.miner (pay record.miner (blockReward s))
  rw [creditWinner_taken] at credited
  simp only [onFinalize, front, settleWinner]
  generalize winner : creditWinner { s with blockBestProof := none } record.miner _ = paid
  obtain ⟨next, logs, adjusted⟩ := adjustDifficulty_runs paid n record
    (currentDifficultyFor paid record.topologyHash n)
  let updated : Event T := .difficultyUpdated record.topologyHash next
  let won : Event T := .blockWinner (nextQblockId s) n record.miner (pay record.miner (blockReward s))
    record.energyMilli record.submittedAt
  obtain rfl : paid = { s with
      blockBestProof := none
      miners := (creditWinner s record.miner (pay record.miner (blockReward s))).miners } := winner.symm.trans credited
  exact ⟨next, logs, s.events ++ [updated] ++ [won], adjusted, bind_success.mpr ⟨(next, logs), adjusted, rfl⟩⟩

theorem onFinalize_pays (s : State T) (pay : T.AccountId → Nat → Nat) (n : Nat) {record : ProofRecord T}
    (front : s.blockBestProof = some record) :
    ∃ next logs events, onFinalize s pay n =
      .ok (settledAs s n record (pay record.miner (blockReward s)) next
        (creditWinner s record.miner (pay record.miner (blockReward s))).miners logs events) := by
  obtain ⟨next, logs, events, -, ran⟩ := onFinalize_hardens s pay n front
  exact ⟨next, logs, events, ran⟩

/-- The end of a block, with the storage it leaves. -/
theorem onFinalize_moves (s : State T) (pay : T.AccountId → Nat → Nat) (n : Nat) :
    ∃ s', onFinalize s pay n = .ok s' ∧
      ((s.blockBestProof = none ∧ s' = s) ∨
        ∃ record reward next miners logs events, s.blockBestProof = some record ∧
          s' = settledAs s n record reward next miners logs events) := by
  cases front : s.blockBestProof with
  | none => exact ⟨s, by simp only [onFinalize, front]; rfl, .inl ⟨rfl, rfl⟩⟩
  | some record =>
    obtain ⟨next, logs, events, ran⟩ := onFinalize_pays s pay n front
    exact ⟨_, ran, .inr ⟨record, _, next, _, logs, events, rfl, rfl⟩⟩

/-- The end of a block: nothing without a best proof, otherwise the record is settled. -/
theorem onFinalize_cases (s : State T) (pay : T.AccountId → Nat → Nat) (n : Nat) :
    ∃ s', onFinalize s pay n = .ok s' ∧
      ((s.blockBestProof = none ∧ s' = s) ∨
        ∃ record reward, s.blockBestProof = some record ∧ Settled s n record reward s') := by
  obtain ⟨s', ran, ended⟩ := onFinalize_moves s pay n
  refine ⟨s', ran, ended.imp_right ?_⟩
  rintro ⟨record, reward, next, miners, logs, events, front, rfl⟩
  exact ⟨record, reward, front, rfl, rfl, rfl, rfl, rfl, rfl, rfl, rfl, next, rfl⟩

end QuipValidator.Pow
