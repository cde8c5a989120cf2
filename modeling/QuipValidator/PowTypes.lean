import QuipValidator.IsingPuzzle

/-! Data types of `pallet-quantum-pow`. Everything the pallet takes from its
runtime configuration is one `Config`. The digests it calls and the float
formulas of the difficulty controller are fields of it: a digest is an arbitrary
function, a float formula an arbitrary integer function of the integers it
reads. -/
namespace QuipValidator.Pow
open IsingValidation IsingPuzzle

/-- `[u8; 32]`. -/
abbrev Bytes32 := { bytes : List UInt8 // bytes.length = 32 }

abbrev H256 := Bytes32

abbrev U32 := Fin (2 ^ 32)

/-- The float computations of the difficulty controller, each already rounded to
an `i64` as the source rounds it. -/
structure FloatMath where
  /-- The last line of `expected_gse`, for the `c` value in per mille. -/
  gse : Nat → Nat → Nat → Spec → Spec → Int
  /-- `round(value * rate_milli / 1000)`. -/
  scaleMilli : Int → Nat → Int
  /-- The closed form of `ease_room` for a room, the overdue blocks and the epoch length. -/
  easedAmount : Int → Nat → Nat → Int

/-- Who dispatches a call. `pallet` is an origin of another pallet, such as a
council vote. -/
inductive Origin (AccountId : Type) where
  | root
  | signed (who : AccountId)
  | none
  | pallet (index : Nat)

/-- The runtime configuration. -/
structure Config where
  AccountId : Type
  Hash : Type
  decEqAccountId : DecidableEq AccountId
  maxNodes : Nat
  maxEdges : Nat
  maxSolutions : Nat
  minNodes : Nat
  maxAllowedValues : Nat
  epochLength : Nat
  minerDeposit : Nat
  blockReward : Nat
  minBlockReward : Nat
  maxBlockReward : Nat
  targetProofBlocks : U32
  minTargetProofBlocks : U32
  maxTargetProofBlocks : U32
  maxProofsPerBlock : Nat
  maxProofsPerBlock_u32 : maxProofsPerBlock ≤ u32Max
  curveCEasyMilli : Nat
  curveCKneeMilli : Nat
  curveCHardMilli : Nat
  /-- The largest block number, where `saturating_add` stops. -/
  maxBlockNumber : Nat
  encodeAccount : AccountId → List UInt8
  encodeHash : Hash → List UInt8
  blake2_256 : List UInt8 → Bytes32
  blake3 : List UInt8 → Bytes32
  /-- The 32-bit draws of the generator seeded with a nonce. -/
  generator : Nat → Nat → Nat
  /-- The first eight bytes of the digest of `((parent_hash, miner, n), mining_time_blocks)`. -/
  adjustmentSample : Hash → AccountId → Nat → Nat → Nat
  floats : FloatMath
  /-- The order in which storage enumerates a set of topology hashes. -/
  iterKeys : List H256 → List H256
  iterKeys_perm : ∀ hashes, (iterKeys hashes).Perm hashes
  /-- Whether an origin passes `AdminOrigin`. -/
  isAdmin : Origin AccountId → Bool

instance (T : Config) : DecidableEq T.AccountId := T.decEqAccountId

abbrev AllowedValues (T : Config) := AllowedValueSpec (BoundedVec Int T.maxAllowedValues)

/-- A submitted proof-of-work payload. -/
structure QuantumProof (T : Config) where
  topologyHash : H256
  nonce : Nat
  salt : Bytes32
  solutions : BoundedVec (BoundedVec UInt8 T.maxNodes) T.maxSolutions
  deviceAccessTimeUs : Nat

structure DifficultyConfig where
  minSolutions : Nat
  maxEnergyMilli : Int
  minDiversityMilli : Nat
  deriving DecidableEq, Repr

/-- `DifficultyConfig::default`. -/
instance : Inhabited DifficultyConfig := ⟨⟨5, -1200000, 200⟩⟩

/-- On-chain record of a registered topology. -/
structure TopologyMeta (T : Config) where
  nodes : BoundedVec Nat T.maxNodes
  edges : BoundedVec (Nat × Nat) T.maxEdges
  allowedHValues : AllowedValues T
  allowedJValues : AllowedValues T
  allowedSpinValues : AllowedValues T
  registeredAt : Nat

structure MinerInfo where
  registeredAt : Nat
  deposit : Nat
  proofsSubmitted : Nat
  proofsWon : Nat
  rewardsEarned : Nat
  deriving DecidableEq, Repr

/-- The best accepted proof of a block so far. -/
structure ProofRecord (T : Config) where
  miner : T.AccountId
  submittedAt : Nat
  energyMilli : Int
  salt : Bytes32
  topologyHash : H256
  deviceAccessTimeUs : Nat

structure ProofValidation where
  bestEnergyMilli : Int
  diversityMilli : Nat
  validSolutionCount : Nat
  deriving DecidableEq, Repr

/-- Persisted record of a block won by a proof. -/
structure QBlock (T : Config) where
  miner : T.AccountId
  salt : Bytes32
  energyMilli : Int
  reward : Nat
  submittedAt : Nat
  difficulty : DifficultyConfig
  lastProofBlockHash : H256
  topologyHash : H256
  deviceAccessTimeUs : Nat

/-- The three per-mille `c` values that calibrate an energy curve. -/
structure CurveC where
  easyMilli : Nat
  kneeMilli : Nat
  hardMilli : Nat
  deriving DecidableEq, Repr

/-- Topology-derived bounds for the difficulty energy curve. -/
structure EnergyCurve where
  minMilli : Int
  kneeMilli : Int
  maxMilli : Int
  deriving DecidableEq, Repr

inductive Error where
  | minerAlreadyRegistered
  | blockRewardOutOfBounds
  | targetProofBlocksOutOfBounds
  | minerNotRegistered
  | topologyAlreadyRegistered
  | topologyNotRegistered
  | invalidCurve
  | graphTooSmall
  | invalidTopology
  | proofLimitReached
  | invalidNonce
  | noSolutionsSubmitted
  | invalidSpinValues
  | solutionLengthMismatch
  | insufficientEnergy
  | insufficientDiversity
  | insufficientSolutions
  | arithmeticOverflow
  | emptyAllowedValues
  | encodingTooWide
  | packedSolutionLengthMismatch
  | invalidEncodedSpin
  | packedSolutionTooLarge
  | topologyNotMineable
  | topologyIsDefault
  | mineableTopologyConflict
  | invalidDiversityConfig
  deriving DecidableEq, Repr

/-- What a call returns on failure; `currency` stands for whatever error the
currency returns. -/
inductive DispatchError where
  | badOrigin
  | module (error : Error)
  | currency
  deriving DecidableEq, Repr

instance : Coe Error DispatchError := ⟨DispatchError.module⟩

inductive Event (T : Config) where
  | minerRegistered (who : T.AccountId) (deposit : Nat)
  | minerDeregistered (who : T.AccountId)
  | topologyRegistered (topologyHash : H256) (nodeCount edgeCount : Nat)
  | blockRewardChanged (old new : Nat)
  | targetProofBlocksChanged (old new : U32)
  | difficultyUpdated (topologyHash : H256) (difficulty : DifficultyConfig)
  | defaultTopologySet (topologyHash : H256)
  | topologyCurveSet (topologyHash : H256)
  | topologyMineableAdded (topologyHash : H256)
  | topologyMineableRemoved (topologyHash : H256)
  | proofAccepted (miner : T.AccountId) (energyMilli : Int) (diversityMilli validSolutionCount : Nat)
  | blockWinner (qblockId blockNumber : Nat) (miner : T.AccountId) (reward : Nat) (energyMilli : Int)
      (submittedAt : Nat)

end QuipValidator.Pow
