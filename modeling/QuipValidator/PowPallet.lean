import QuipValidator.PowDifficulty
import QuipValidator.PowTopology
import QuipValidator.IsingEnergy
import QuipValidator.IsingDiversity

/-! `pallet-quantum-pow`: storage, helpers, proof validation, the eleven calls
and the block hooks. A call takes the storage it runs on and returns the storage
it leaves; a failed call returns no storage. -/
namespace QuipValidator.Pow
open Fallible IsingValidation IsingPuzzle IsingEnergy IsingDiversity

variable {T : Config}

/-- Free and reserved balances of every account. The reserve is one pool that
other pallets use too. -/
structure Balances (T : Config) where
  free : T.AccountId → Nat
  reserved : T.AccountId → Nat

/-- Whether the currency refuses a reserve it could pay for. -/
structure Env (T : Config) where
  canReserve : T.AccountId → Nat → Bool

namespace Balances

def set (balance : T.AccountId → Nat) (who : T.AccountId) (value : Nat) : T.AccountId → Nat :=
  fun probe => if probe = who then value else balance probe

/-- `Currency::reserve`. -/
def reserve (balances : Balances T) (env : Env T) (who : T.AccountId) (amount : Nat) :
    Fallible DispatchError (Balances T) := do
  ensure (amount ≤ balances.free who ∧ env.canReserve who amount) .currency
  pure { free := set balances.free who (balances.free who - amount)
         reserved := set balances.reserved who (balances.reserved who + amount) }

/-- `Currency::unreserve`: frees as much as the pool holds; the rest it returns is not used here. -/
def unreserve (balances : Balances T) (who : T.AccountId) (amount : Nat) : Balances T :=
  let actual := min amount (balances.reserved who)
  { free := set balances.free who (balances.free who + actual)
    reserved := set balances.reserved who (balances.reserved who - actual) }

end Balances

/-- The pallet's storage, the block number and parent hash the system pallet
holds, every event deposited so far, the `defensive!` log, and the currency. -/
structure State (T : Config) where
  blockNumber : Nat
  parentHash : T.Hash
  blockRewardOverride : Option Nat
  targetProofBlocksOverride : Option U32
  registeredTopologies : StorageMap H256 (TopologyMeta T)
  defaultTopology : Option H256
  difficulties : StorageMap H256 DifficultyConfig
  topologyCurveC : StorageMap H256 CurveC
  mineableTopologies : StorageMap H256 Unit
  miners : StorageMap T.AccountId MinerInfo
  blockBestProof : Option (ProofRecord T)
  lastProofBlock : Nat
  lastProofBlockHash : H256
  blockProofCount : Nat
  qblocks : StorageMap Nat (QBlock T)
  qblockCount : Nat
  qblockBlockById : StorageMap Nat Nat
  qblockIdByBlock : StorageMap Nat Nat
  events : List (Event T)
  logs : List String
  balances : Balances T

/-- `deposit_event`. -/
def State.deposit (s : State T) (event : Event T) : State T := { s with events := s.events ++ [event] }

def ensureSigned : Origin T.AccountId → Fallible DispatchError T.AccountId
  | .signed who => .ok who
  | _ => fail .badOrigin

def ensureRoot : Origin T.AccountId → Fallible DispatchError Unit
  | .root => .ok ()
  | _ => fail .badOrigin

/-- `T::AdminOrigin::ensure_origin`. -/
def ensureAdmin (origin : Origin T.AccountId) : Fallible DispatchError Unit :=
  ensure (T.isAdmin origin) .badOrigin

/-- `account_to_bytes`. -/
def accountToBytes (account : T.AccountId) : Bytes32 := T.blake2_256 (T.encodeAccount account)

/-- `hash_to_bytes_32`. -/
def hashToBytes32 (hash : T.Hash) : Bytes32 :=
  if wide : (T.encodeHash hash).length = 32 then ⟨T.encodeHash hash, wide⟩ else T.blake2_256 (T.encodeHash hash)

/-- `derive_nonce`: the digest of the three buffers, read big-endian. -/
def deriveNonce (T : Config) (lastProofBlockHash miner salt : Bytes32) : Nat :=
  (T.blake3 (lastProofBlockHash.val ++ miner.val ++ salt.val)).val.foldl (fun word byte => word * 256 + byte.toNat) 0

def blockReward (s : State T) : Nat := s.blockRewardOverride.getD T.blockReward

def targetProofBlocks (s : State T) : U32 := s.targetProofBlocksOverride.getD T.targetProofBlocks

/-- `energy_curve_for`. -/
def energyCurveFor (s : State T) (topologyHash : H256) : Option EnergyCurve :=
  match s.registeredTopologies.lookup topologyHash with
  | none => none
  | some topology =>
    let curveC := (s.topologyCurveC.lookup topologyHash).getD
      { easyMilli := T.curveCEasyMilli, kneeMilli := T.curveCKneeMilli, hardMilli := T.curveCHardMilli }
    (EnergyCurve.new T.floats (asU32 topology.nodes.val.length) (asU32 topology.edges.val.length) curveC
      topology.allowedHValues.asSlice topology.allowedJValues.asSlice).toOption

/-- Active (decay-applied) difficulty a miner must clear for a topology. -/
def currentDifficultyFor (s : State T) (topologyHash : H256) (blockNumber : Nat) : DifficultyConfig :=
  currentDifficulty T.floats (min blockNumber u32Max) ((s.difficulties.lookup topologyHash).getD default)
    (min s.lastProofBlock u32Max) (min T.epochLength u32Max) (energyCurveFor s topologyHash) (targetProofBlocks s)

/-- How `validate_proof` reports a solution it cannot unpack. -/
def unpackError : ValidationError → Error
  | .packedSolutionLengthMismatch _ _ => .packedSolutionLengthMismatch
  | .invalidEncodedValue _ => .invalidEncodedSpin
  | _ => .invalidTopology

/-- How `validate_proof` reports a solution it cannot score. -/
def energyError : ValidationError → Error
  | .solutionLengthMismatch _ _ => .solutionLengthMismatch
  | .invalidSpinValue _ _ => .invalidSpinValues
  | _ => .invalidTopology

/-- `action.map_err(convert)?` into the pallet's errors. -/
def reported {α : Type} (convert : ValidationError → Error) (action : Fallible ValidationError α) :
    Fallible DispatchError α :=
  mapErr (fun reason => .module (convert reason)) action

/-- `items[index]` for every index. -/
def pick {α : Type} (items : List α) (indices : List Nat) : Fallible DispatchError (List α) :=
  indices.mapM fun index => expect items[index]? "index out of bounds"

/-- The decoding loop of `validate_proof`. -/
def decodeSolutions (numSpins : Nat) (spinSpec : Spec) (solutions : List (List UInt8)) :
    Fallible DispatchError (List (List Int)) :=
  solutions.mapM fun packed => do
    let milli ← reported unpackError (unpackSolution packed numSpins spinSpec)
    reported (fun _ => .invalidSpinValues) (spinSigns milli)

def validateProof (proof : QuantumProof T) (topology : TopologyMeta T) (topologyIndex : TopologyIndex)
    (h j : List Int) (difficulty : DifficultyConfig) : Fallible DispatchError ProofValidation := do
  let decoded ← decodeSolutions topology.nodes.val.length topology.allowedSpinValues.asSlice
    (proof.solutions.val.map Subtype.val)
  let energies ← decoded.mapM fun spins =>
    reported energyError (energyOfSolutionIndexed spins h topology.edges.val j topologyIndex)
  let energyValidIndices := energies.zipIdx.filterMap fun (energy, index) =>
    if energy < difficulty.maxEnergyMilli then some index else none
  ensure (energyValidIndices ≠ []) Error.insufficientEnergy
  let validEnergies ← pick energies energyValidIndices
  let bestEnergyMilli ← okOr validEnergies.min? Error.insufficientEnergy
  let energyValidSolutions ← pick decoded energyValidIndices
  let targetCount := min energyValidSolutions.length (max difficulty.minSolutions 1)
  let selectedIndices ← reported (fun _ => .invalidSpinValues) (selectDiverse energyValidSolutions targetCount)
  let selectedSolutions ← pick energyValidSolutions selectedIndices
  let diversityMilli ← reported (fun _ => .invalidSpinValues) (calculateDiversity selectedSolutions)
  pure { bestEnergyMilli, diversityMilli, validSolutionCount := asU32 energyValidSolutions.length }

def registerMiner (s : State T) (env : Env T) (origin : Origin T.AccountId) : Fallible DispatchError (State T) := do
  let who ← ensureSigned origin
  ensure ((s.miners.lookup who).isNone) Error.minerAlreadyRegistered
  let deposit := T.minerDeposit
  let balances ← s.balances.reserve env who deposit
  let info : MinerInfo :=
    { registeredAt := s.blockNumber, deposit, proofsSubmitted := 0, proofsWon := 0, rewardsEarned := 0 }
  let s := { s with balances, miners := s.miners.insert who info }
  pure (s.deposit (.minerRegistered who deposit))

def deregisterMiner (s : State T) (origin : Origin T.AccountId) : Fallible DispatchError (State T) := do
  let who ← ensureSigned origin
  let miner ← okOr (s.miners.lookup who) Error.minerNotRegistered
  let s := { s with balances := s.balances.unreserve who miner.deposit, miners := s.miners.erase who }
  pure (s.deposit (.minerDeregistered who))

/-- The arguments of `register_topology`. -/
structure Registration (T : Config) where
  nodes : BoundedVec Nat T.maxNodes
  edges : BoundedVec (Nat × Nat) T.maxEdges
  allowedHValues : AllowedValues T
  allowedJValues : AllowedValues T
  allowedSpinValues : AllowedValues T

/-- The checks of `register_topology` up to the hash, with the specs it stores. -/
def checkRegistration (registration : Registration T) :
    Fallible DispatchError (AllowedValues T × AllowedValues T × AllowedValues T) := do
  let nodes := registration.nodes.val
  let edges := registration.edges.val
  ensure (T.minNodes ≤ nodes.length) Error.graphTooSmall
  checkSpec registration.allowedHValues
  checkSpec registration.allowedJValues
  checkSpec registration.allowedSpinValues
  let allowedHValues ← canonicalizeSpec registration.allowedHValues
  let allowedJValues ← canonicalizeSpec registration.allowedJValues
  let allowedSpinValues ← canonicalizeSpec registration.allowedSpinValues
  let packedBytes ← reported (fun _ => .invalidTopology)
    (packedSolutionByteLen nodes.length allowedSpinValues.asSlice)
  ensure (packedBytes ≤ T.maxNodes) Error.packedSolutionTooLarge
  ensure ((validateTopologyConsistency nodes edges (List.replicate nodes.length 0) (List.replicate edges.length 0)
    none none).isEmpty) Error.invalidTopology
  pure (allowedHValues, allowedJValues, allowedSpinValues)

def registerTopology (s : State T) (origin : Origin T.AccountId) (registration : Registration T) :
    Fallible DispatchError (State T) := do
  ensureRoot origin
  let (allowedHValues, allowedJValues, allowedSpinValues) ← checkRegistration registration
  let nodes := registration.nodes
  let edges := registration.edges
  let topologyHash := hashTopology T nodes.val edges.val allowedHValues.asSlice allowedJValues.asSlice
    allowedSpinValues.asSlice
  ensure ((s.registeredTopologies.lookup topologyHash).isNone) Error.topologyAlreadyRegistered
  let topology : TopologyMeta T :=
    { nodes, edges, allowedHValues, allowedJValues, allowedSpinValues, registeredAt := s.blockNumber }
  let s := { s with registeredTopologies := s.registeredTopologies.insert topologyHash topology }
  let s :=
    if s.defaultTopology.isNone then
      { s with
        defaultTopology := some topologyHash
        mineableTopologies := s.mineableTopologies.insert topologyHash () }
    else s
  pure (s.deposit (.topologyRegistered topologyHash (asU32 nodes.val.length) (asU32 edges.val.length)))

def setDefaultTopology (s : State T) (origin : Origin T.AccountId) (topologyHash : H256) :
    Fallible DispatchError (State T) := do
  ensureRoot origin
  ensure ((s.registeredTopologies.lookup topologyHash).isSome) Error.topologyNotRegistered
  ensure ((s.mineableTopologies.lookup topologyHash).isSome) Error.topologyNotMineable
  let s := { s with defaultTopology := some topologyHash }
  pure (s.deposit (.defaultTopologySet topologyHash))

def setDifficulty (s : State T) (origin : Origin T.AccountId) (topologyHash : H256) (difficulty : DifficultyConfig) :
    Fallible DispatchError (State T) := do
  ensureRoot origin
  ensure ((s.registeredTopologies.lookup topologyHash).isSome) Error.topologyNotRegistered
  ensure (difficulty.minDiversityMilli = 0 ∨ 2 ≤ difficulty.minSolutions) Error.invalidDiversityConfig
  let s := { s with difficulties := s.difficulties.insert topologyHash difficulty }
  pure (s.deposit (.difficultyUpdated topologyHash difficulty))

def setTopologyCurve (s : State T) (origin : Origin T.AccountId) (topologyHash : H256) (curveC : CurveC) :
    Fallible DispatchError (State T) := do
  ensureRoot origin
  let topology ← okOr (s.registeredTopologies.lookup topologyHash) Error.topologyNotRegistered
  ensure (curveC.easyMilli < curveC.kneeMilli ∧ curveC.kneeMilli < curveC.hardMilli) Error.invalidCurve
  let curve ← reported (fun _ => .invalidCurve)
    (EnergyCurve.new T.floats (asU32 topology.nodes.val.length) (asU32 topology.edges.val.length) curveC
      topology.allowedHValues.asSlice topology.allowedJValues.asSlice)
  ensure (curve.minMilli < curve.kneeMilli ∧ curve.kneeMilli < curve.maxMilli) Error.invalidCurve
  let s := { s with topologyCurveC := s.topologyCurveC.insert topologyHash curveC }
  pure (s.deposit (.topologyCurveSet topologyHash))

def setBlockReward (s : State T) (origin : Origin T.AccountId) (amount : Nat) : Fallible DispatchError (State T) := do
  ensureAdmin origin
  ensure (T.minBlockReward ≤ amount ∧ amount ≤ T.maxBlockReward) Error.blockRewardOutOfBounds
  let old := blockReward s
  let s := { s with blockRewardOverride := some amount }
  pure (s.deposit (.blockRewardChanged old amount))

def setTargetProofBlocks (s : State T) (origin : Origin T.AccountId) (blocks : U32) :
    Fallible DispatchError (State T) := do
  ensureAdmin origin
  ensure (T.minTargetProofBlocks ≤ blocks ∧ blocks ≤ T.maxTargetProofBlocks) Error.targetProofBlocksOutOfBounds
  let old := targetProofBlocks s
  let s := { s with targetProofBlocksOverride := some blocks }
  pure (s.deposit (.targetProofBlocksChanged old blocks))

/-- The checks of `submit_proof`, with what it measured. -/
def checkProof (s : State T) (who : T.AccountId) (proof : QuantumProof T) :
    Fallible DispatchError ProofValidation := do
  ensure ((s.miners.lookup who).isSome) Error.minerNotRegistered
  ensure (s.blockProofCount < T.maxProofsPerBlock) Error.proofLimitReached
  ensure (proof.solutions.val ≠ []) Error.noSolutionsSubmitted
  let topology ← okOr (s.registeredTopologies.lookup proof.topologyHash) Error.topologyNotRegistered
  ensure ((s.mineableTopologies.lookup proof.topologyHash).isSome) Error.topologyNotMineable
  ensure (T.minNodes ≤ topology.nodes.val.length) Error.graphTooSmall
  let expectedNonce := deriveNonce T s.lastProofBlockHash (accountToBytes who) proof.salt
  ensure (proof.nonce = expectedNonce) Error.invalidNonce
  let topologyIndex ← reported (fun _ => .invalidTopology)
    (TopologyIndex.new topology.nodes.val topology.edges.val)
  let (h, j) ← reported (fun _ => .invalidTopology)
    (generateIsingModelIndexed T.generator proof.nonce topology.nodes.val topology.edges.val
      topology.allowedHValues.asSlice topology.allowedJValues.asSlice topologyIndex)
  let current := currentDifficultyFor s proof.topologyHash s.blockNumber
  let validation ← validateProof proof topology topologyIndex h j current
  ensure (validation.bestEnergyMilli < current.maxEnergyMilli) Error.insufficientEnergy
  ensure (current.minSolutions ≤ validation.validSolutionCount) Error.insufficientSolutions
  ensure (current.minDiversityMilli ≤ validation.diversityMilli) Error.insufficientDiversity
  pure validation

/-- The writes of `submit_proof`. -/
def recordProof (s : State T) (who : T.AccountId) (proof : QuantumProof T) (validation : ProofValidation)
    (miner : MinerInfo) : State T :=
  let miner := { miner with proofsSubmitted := saturatingAdd u32Max miner.proofsSubmitted 1 }
  let record : ProofRecord T :=
    { miner := who
      submittedAt := s.blockNumber
      energyMilli := validation.bestEnergyMilli
      salt := proof.salt
      topologyHash := proof.topologyHash
      deviceAccessTimeUs := proof.deviceAccessTimeUs }
  let shouldReplace :=
    match s.blockBestProof with
    | some existing => decide (record.energyMilli < existing.energyMilli)
    | none => true
  let s := { s with
    miners := s.miners.insert who miner
    blockBestProof := if shouldReplace then some record else s.blockBestProof
    blockProofCount := saturatingAdd u32Max s.blockProofCount 1 }
  s.deposit (.proofAccepted who validation.bestEnergyMilli validation.diversityMilli validation.validSolutionCount)

def submitProof (s : State T) (origin : Origin T.AccountId) (proof : QuantumProof T) :
    Fallible DispatchError (State T) := do
  let who ← ensureSigned origin
  let validation ← checkProof s who proof
  let miner ← okOr (s.miners.lookup who) Error.minerNotRegistered
  pure (recordProof s who proof validation miner)

def addMineableTopology (s : State T) (origin : Origin T.AccountId) (topologyHash : H256) :
    Fallible DispatchError (State T) := do
  ensureRoot origin
  ensure ((s.registeredTopologies.lookup topologyHash).isSome) Error.topologyNotRegistered
  if (s.mineableTopologies.lookup topologyHash).isSome then pure s
  else do
    let hasOtherNonDefault := (T.iterKeys s.mineableTopologies.keys).any fun hash => decide (some hash ≠ s.defaultTopology)
    ensure (some topologyHash = s.defaultTopology ∨ ¬ hasOtherNonDefault) Error.mineableTopologyConflict
    let s := { s with mineableTopologies := s.mineableTopologies.insert topologyHash () }
    pure (s.deposit (.topologyMineableAdded topologyHash))

def removeMineableTopology (s : State T) (origin : Origin T.AccountId) (topologyHash : H256) :
    Fallible DispatchError (State T) := do
  ensureRoot origin
  ensure (s.defaultTopology ≠ some topologyHash) Error.topologyIsDefault
  if (s.mineableTopologies.lookup topologyHash).isSome then
    let s := { s with mineableTopologies := s.mineableTopologies.erase topologyHash }
    pure (s.deposit (.topologyMineableRemoved topologyHash))
  else pure s

/-- `on_initialize`, after the system pallet has set the block number and parent hash. -/
def onInitialize (s : State T) (n : Nat) : State T :=
  let s := { s with blockProofCount := 0 }
  if n = 1 ∨ (1 < n ∧ saturatingAdd T.maxBlockNumber s.lastProofBlock 1 = n) then
    { s with lastProofBlockHash := hashToBytes32 s.parentHash }
  else s

/-- `next_qblock_id`: the counter stops at the largest `u64`. -/
def nextQblockId (s : State T) : Nat := saturatingAdd u64Max s.qblockCount 1

/-- The round length `on_finalize` hardens by. -/
def miningTimeBlocks (s : State T) (n : Nat) : Nat :=
  if s.lastProofBlock = 0 ∨ n ≤ s.lastProofBlock then min T.epochLength u64Max
  else min (n - s.lastProofBlock) u64Max

/-- The win and its reward, on the miner's record if it is still registered. -/
def creditWinner (s : State T) (winner : T.AccountId) (reward : Nat) : State T :=
  match s.miners.lookup winner with
  | some miner =>
    let miner := { miner with
      proofsWon := saturatingAdd u32Max miner.proofsWon 1
      rewardsEarned := saturatingAdd u128Max miner.rewardsEarned reward }
    { s with miners := s.miners.insert winner miner }
  | none => s

/-- The next difficulty baseline of the winning topology, and the log after it. -/
def adjustDifficulty (s : State T) (n : Nat) (record : ProofRecord T) (active : DifficultyConfig) :
    Fallible DispatchError (DifficultyConfig × List String) :=
  let miningTime := miningTimeBlocks s n
  match energyCurveFor s record.topologyHash with
  | some curve => do
    let next ← adjustOnProof T.floats active record.energyMilli miningTime curve
      (T.adjustmentSample s.parentHash record.miner n miningTime) (targetProofBlocks s)
    pure (next, s.logs)
  | none => pure (active, s.logs ++ ["energy curve missing during on_finalize difficulty adjustment"])

/-- `on_finalize` once the winning record is taken from storage. `pay` is
`T::RewardPayment::pay`: what the miner received of the amount asked for. -/
def settleWinner (s : State T) (pay : T.AccountId → Nat → Nat) (n : Nat) (record : ProofRecord T) :
    Fallible DispatchError (State T) := do
  let reward := pay record.miner (blockReward s)
  let s := creditWinner s record.miner reward
  let lastProofBlockHash := s.lastProofBlockHash
  let topologyHash := record.topologyHash
  let active := currentDifficultyFor s topologyHash n
  let (next, logs) ← adjustDifficulty s n record active
  let qblockId := nextQblockId s
  let qblock : QBlock T :=
    { miner := record.miner
      salt := record.salt
      energyMilli := record.energyMilli
      reward
      submittedAt := record.submittedAt
      difficulty := active
      lastProofBlockHash
      topologyHash
      deviceAccessTimeUs := record.deviceAccessTimeUs }
  let s := { s with
    logs
    difficulties := s.difficulties.insert topologyHash next
    lastProofBlock := n
    qblockCount := qblockId
    qblocks := s.qblocks.insert n qblock
    qblockBlockById := s.qblockBlockById.insert qblockId n
    qblockIdByBlock := s.qblockIdByBlock.insert n qblockId }
  let s := s.deposit (.difficultyUpdated topologyHash next)
  pure (s.deposit (.blockWinner qblockId n record.miner reward record.energyMilli record.submittedAt))

def onFinalize (s : State T) (pay : T.AccountId → Nat → Nat) (n : Nat) : Fallible DispatchError (State T) :=
  match s.blockBestProof with
  | none => pure s
  | some record => settleWinner { s with blockBestProof := none } pay n record

/-- `latest_qblock_id`. -/
def latestQblockId (s : State T) : Option Nat := if 0 < s.qblockCount then some s.qblockCount else none

def qblockIdByBlock (s : State T) (blockNumber : Nat) : Option Nat := s.qblockIdByBlock.lookup blockNumber

def qblockBlockById (s : State T) (qblockId : Nat) : Option Nat := s.qblockBlockById.lookup qblockId

end QuipValidator.Pow
