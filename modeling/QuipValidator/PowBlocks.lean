import QuipValidator.PowPallet
import QuipValidator.Machine

/-! Whole blocks and whole chains of the proof-of-work pallet. A block sets the
block number and parent hash, runs `on_initialize`, then any dispatches by any
origin, then `on_finalize`. A failed or panicking dispatch leaves the storage as
it was. Block numbers only have to increase, so a block may skip some. -/
namespace QuipValidator.Pow
open Fallible

variable {T : Config}

inductive Call (T : Config) where
  | registerMiner
  | deregisterMiner
  | registerTopology (registration : Registration T)
  | setDifficulty (topologyHash : H256) (difficulty : DifficultyConfig)
  | submitProof (proof : QuantumProof T)
  | setDefaultTopology (topologyHash : H256)
  | addMineableTopology (topologyHash : H256)
  | removeMineableTopology (topologyHash : H256)
  | setTopologyCurve (topologyHash : H256) (curveC : CurveC)
  | setBlockReward (amount : Nat)
  | setTargetProofBlocks (blocks : U32)

/-- One dispatch, without the rollback. -/
def execute (s : State T) (env : Env T) (origin : Origin T.AccountId) : Call T → Fallible DispatchError (State T)
  | .registerMiner => registerMiner s env origin
  | .deregisterMiner => deregisterMiner s origin
  | .registerTopology registration => registerTopology s origin registration
  | .setDifficulty topologyHash difficulty => setDifficulty s origin topologyHash difficulty
  | .submitProof proof => submitProof s origin proof
  | .setDefaultTopology topologyHash => setDefaultTopology s origin topologyHash
  | .addMineableTopology topologyHash => addMineableTopology s origin topologyHash
  | .removeMineableTopology topologyHash => removeMineableTopology s origin topologyHash
  | .setTopologyCurve topologyHash curveC => setTopologyCurve s origin topologyHash curveC
  | .setBlockReward amount => setBlockReward s origin amount
  | .setTargetProofBlocks blocks => setTargetProofBlocks s origin blocks

/-- What happens inside a block: a dispatch, or anything other code does to the balances. -/
inductive Action (T : Config) where
  | dispatch (env : Env T) (origin : Origin T.AccountId) (call : Call T)
  | external (balances : Balances T)

/-- A dispatch that succeeded, with the storage before and after it. -/
structure Executed (T : Config) where
  origin : Origin T.AccountId
  call : Call T
  before : State T
  after : State T

/-- The storage after an action that may fail. -/
def committed (s : State T) : Fallible DispatchError (State T) → State T
  | .ok after => after
  | .error _ => s

/-- The inside of a block. -/
def body (T : Config) : Machine (State T) (Action T) (Executed T) where
  next s action :=
    match action with
    | .dispatch env origin call => committed s (execute s env origin call)
    | .external balances => { s with balances }
  report s action :=
    match action with
    | .dispatch env origin call =>
      match execute s env origin call with
      | .ok after => [⟨origin, call, s, after⟩]
      | .error _ => []
    | .external _ => []

/-- A dispatch fails, silently and without effect, or it runs and is reported. -/
theorem body_dispatch (s : State T) (env : Env T) (origin : Origin T.AccountId) (call : Call T) :
    ((body T).next s (.dispatch env origin call) = s ∧ (body T).report s (.dispatch env origin call) = []) ∨
      ∃ after, execute s env origin call = .ok after ∧ (body T).next s (.dispatch env origin call) = after ∧
        (body T).report s (.dispatch env origin call) = [⟨origin, call, s, after⟩] := by
  cases ran : execute s env origin call with
  | error fault => exact .inl ⟨by simp only [body, ran, committed], by simp only [body, ran]⟩
  | ok after => exact .inr ⟨after, rfl, by simp only [body, ran, committed], by simp only [body, ran]⟩

structure Block (T : Config) where
  /-- How many block numbers are skipped before this one; none on a real chain. -/
  skipped : Nat
  parentHash : T.Hash
  actions : List (Action T)
  /-- `T::RewardPayment::pay` in this block. -/
  pay : T.AccountId → Nat → Nat

/-- The storage once the block is initialised. -/
def initialised (s : State T) (block : Block T) : State T :=
  let n := s.blockNumber + block.skipped + 1
  onInitialize { s with blockNumber := n, parentHash := block.parentHash } n

/-- The storage after the block's dispatches, before `on_finalize`. -/
def closing (s : State T) (block : Block T) : State T := (body T).run (initialised s block) block.actions

/-- Initialise, execute and finalise one block. -/
def buildBlock (s : State T) (block : Block T) : Fallible DispatchError (State T) :=
  onFinalize (closing s block) block.pay (closing s block).blockNumber

/-- A block of a chain, with the storage it was built on. -/
structure Built (T : Config) where
  parent : State T
  block : Block T

/-- A chain of blocks. A block whose hook panics is not built. -/
def chain (T : Config) : Machine (State T) (Block T) (Built T) where
  next s block := committed s (buildBlock s block)
  report s block := [⟨s, block⟩]

namespace Built

def initialised (built : Built T) : State T := Pow.initialised built.parent built.block

def closing (built : Built T) : State T := Pow.closing built.parent built.block

/-- The block's own number. -/
def number (built : Built T) : Nat := built.parent.blockNumber + built.block.skipped + 1

end Built

/-- A proof that `submit_proof` accepted: who sent it, what the pallet measured,
and the difficulty it compared the measurement with. -/
structure AcceptedProof (T : Config) where
  miner : T.AccountId
  proof : QuantumProof T
  validation : ProofValidation
  cleared : DifficultyConfig

/-- The best energy of the proof. -/
def AcceptedProof.energyMilli (accepted : AcceptedProof T) : Int := accepted.validation.bestEnergyMilli

/-- The accepted proof of a successful dispatch, if it was a `submit_proof`. -/
def Executed.accepted (executed : Executed T) : Option (AcceptedProof T) :=
  match executed.origin, executed.call with
  | .signed who, .submitProof proof =>
    match checkProof executed.before who proof with
    | .ok validation =>
      some { miner := who
             proof
             validation
             cleared := currentDifficultyFor executed.before proof.topologyHash executed.before.blockNumber }
    | .error _ => none
  | _, _ => none

/-- The accepted proofs of a sequence of dispatches, oldest first. -/
def acceptedProofs (s : State T) (actions : List (Action T)) : List (AcceptedProof T) :=
  ((body T).trace s actions).filterMap Executed.accepted

/-- The accepted proofs of a block, oldest first. -/
def Built.accepted (built : Built T) : List (AcceptedProof T) :=
  acceptedProofs built.initialised built.block.actions

/-- A chain without qblocks: no proof in front and the qblock storage empty.
Miners, topologies and parameters are arbitrary. -/
structure NoQBlocks (s : State T) : Prop where
  blockBestProof : s.blockBestProof = none
  qblocks : s.qblocks = ∅
  qblockCount : s.qblockCount = 0
  qblockBlockById : s.qblockBlockById = ∅
  qblockIdByBlock : s.qblockIdByBlock = ∅

/-- The first 32 bytes, padded with zeros: a digest for concrete runs. -/
def tinyDigest (bytes : List UInt8) : Bytes32 :=
  ⟨(bytes ++ List.replicate 32 0).take 32, by simp⟩

/-- A small runtime for concrete runs: accounts and hashes are numbers. -/
def tinyConfig : Config where
  AccountId := Nat
  Hash := Nat
  decEqAccountId := inferInstance
  maxNodes := 2
  maxEdges := 1
  maxSolutions := 2
  minNodes := 2
  maxAllowedValues := 2
  epochLength := 100
  minerDeposit := 10
  blockReward := 5
  minBlockReward := 1
  maxBlockReward := 9
  targetProofBlocks := 100
  minTargetProofBlocks := 61
  maxTargetProofBlocks := 1000
  maxProofsPerBlock := 3
  maxProofsPerBlock_u32 := by decide
  curveCEasyMilli := 600
  curveCKneeMilli := 750
  curveCHardMilli := 900
  maxBlockNumber := u32Max
  encodeAccount := fun account => littleEndian 8 account
  encodeHash := fun hash => littleEndian 32 hash
  blake2_256 := tinyDigest
  blake3 := tinyDigest
  generator := fun _ _ => 0
  adjustmentSample := fun _ _ _ _ => 0
  floats :=
    { gse := fun numNodes _ cMilli _ _ => -(numNodes * cMilli : Nat)
      scaleMilli := fun value rate => (value * rate + 500) / 1000
      easedAmount := fun room _ _ => room }
  iterKeys := id
  iterKeys_perm := fun _ => List.Perm.refl _
  isAdmin := fun origin => match origin with
    | .pallet _ => true
    | _ => false

/-- Block 0 of the small runtime, with a balance of 100 for every account. -/
def tinyGenesis : State tinyConfig where
  blockNumber := 0
  parentHash := (0 : Nat)
  blockRewardOverride := none
  targetProofBlocksOverride := none
  registeredTopologies := ∅
  defaultTopology := none
  difficulties := ∅
  topologyCurveC := ∅
  mineableTopologies := ∅
  miners := ∅
  blockBestProof := none
  lastProofBlock := 0
  lastProofBlockHash := tinyDigest []
  blockProofCount := 0
  qblocks := ∅
  qblockCount := 0
  qblockBlockById := ∅
  qblockIdByBlock := ∅
  events := []
  logs := []
  balances := { free := fun _ => 100, reserved := fun _ => 0 }

def tinyEnv : Env tinyConfig where
  canReserve := fun _ _ => true

/-- Two coupled nodes without fields and with binary spins. -/
def tinyRegistration : Registration tinyConfig where
  nodes := ⟨[0, 1], by decide⟩
  edges := ⟨[(0, 1)], by decide⟩
  allowedHValues := .set ⟨[0], by decide⟩
  allowedJValues := .set ⟨[1000], by decide⟩
  allowedSpinValues := .set ⟨[-1000, 1000], by decide⟩

/-- Two isolated nodes with one field value. -/
def tinyIsolated : Registration tinyConfig where
  nodes := ⟨[0, 1], by decide⟩
  edges := ⟨[], by decide⟩
  allowedHValues := .set ⟨[1000], by decide⟩
  allowedJValues := .set ⟨[1000], by decide⟩
  allowedSpinValues := .set ⟨[-1000, 1000], by decide⟩

/-- The coupled pair with its nodes, its edge and its spin values the other way round. -/
def tinyReordered : Registration tinyConfig where
  nodes := ⟨[1, 0], by decide⟩
  edges := ⟨[(1, 0)], by decide⟩
  allowedHValues := .set ⟨[0], by decide⟩
  allowedJValues := .set ⟨[1000], by decide⟩
  allowedSpinValues := .set ⟨[1000, -1000], by decide⟩

/-- The coupled pair whose only spin value is zero. -/
def tinySpinless : Registration tinyConfig where
  nodes := ⟨[0, 1], by decide⟩
  edges := ⟨[(0, 1)], by decide⟩
  allowedHValues := .set ⟨[0], by decide⟩
  allowedJValues := .set ⟨[1000], by decide⟩
  allowedSpinValues := .set ⟨[0], by decide⟩

def tinyTopology : H256 :=
  hashTopology tinyConfig [0, 1] [(0, 1)] (.set [0]) (.set [1000]) (.set [-1000, 1000])

/-- A threshold that both antiparallel configurations clear with -1000. -/
def tinyDifficulty (maxEnergyMilli : Int) : DifficultyConfig :=
  { minSolutions := 1, maxEnergyMilli, minDiversityMilli := 0 }

/-- One antiparallel configuration by `who`, in a round seeded with the hash `seed`. -/
def tinyProof (who seed : Nat) : QuantumProof tinyConfig where
  topologyHash := tinyTopology
  nonce := deriveNonce tinyConfig (hashToBytes32 (T := tinyConfig) seed)
    (accountToBytes (T := tinyConfig) who) (tinyDigest [])
  salt := tinyDigest []
  solutions := ⟨[⟨[1], by decide⟩], by decide⟩
  deviceAccessTimeUs := 7

/-- Set-up, a threshold, and two proofs of the same energy. -/
def tinyOpening : List (Action tinyConfig) :=
  [.dispatch tinyEnv .root (.registerTopology tinyRegistration),
   .dispatch tinyEnv (.signed (1 : Nat)) .registerMiner,
   .dispatch tinyEnv (.signed (2 : Nat)) .registerMiner,
   .dispatch tinyEnv .root (.setDifficulty tinyTopology (tinyDifficulty 0)),
   .dispatch tinyEnv (.signed (1 : Nat)) (.submitProof (tinyProof 1 3)),
   .dispatch tinyEnv (.signed (2 : Nat)) (.submitProof (tinyProof 2 3))]

def tinyBlock (parentHash : Nat) (actions : List (Action tinyConfig)) : Block tinyConfig where
  skipped := 0
  parentHash := parentHash
  actions := actions
  pay := fun _ amount => amount

/-- The second block: the threshold is set anew and miner 2 wins. -/
def tinySecond : Block tinyConfig :=
  tinyBlock 4
    [.dispatch tinyEnv .root (.setDifficulty tinyTopology (tinyDifficulty 0)),
     .dispatch tinyEnv (.signed (2 : Nat)) (.submitProof (tinyProof 2 4))]

def tinyChain : List (Block tinyConfig) := [tinyBlock 3 tinyOpening, tinySecond]

theorem tinyGenesis_noQBlocks : NoQBlocks tinyGenesis := ⟨rfl, rfl, rfl, rfl, rfl⟩

end QuipValidator.Pow
