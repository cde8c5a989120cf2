import QuipValidator.StorageMap
import QuipValidator.Fallible
import QuipValidator.IsingValidation

/-! Data types of `pallet-quantum-compute-mempool`. Everything the pallet takes
from its runtime configuration is one `Config`; a bounded vector keeps its
bound as a proof, so an over-long order or submission cannot be built. Order
ids (`u64`) and block numbers are natural numbers; where the source saturates,
the model saturates at the same value. -/
namespace QuipValidator.Mempool

abbrev Balance := Fin (2 ^ 128)

/-- Maximum number of solvers that can share one settled reward. -/
def MAX_REWARD_WINNERS : Nat := 32

/-- Maximum number of orders `on_initialize` finalises in one block. -/
def MAX_FINALISED_ORDERS_PER_BLOCK : Nat := 8

inductive Formulation where
  | ising
  deriving DecidableEq, Repr

inductive MinerType where
  | cpu
  | gpu
  | qpuDwave
  | qpuIbm
  | qpuIonq
  | qpuPasqal
  | asic
  deriving DecidableEq, Repr

/-- The runtime configuration. `iterKeys` is the order in which storage
enumerates a set of order ids: the hasher decides it, so it is an arbitrary
permutation. -/
structure Config where
  AccountId : Type
  Hash : Type
  decEqAccountId : DecidableEq AccountId
  decEqHash : DecidableEq Hash
  maxNodes : Nat
  maxEdges : Nat
  maxSolutions : Nat
  maxSolutions_u32 : maxSolutions ≤ u32Max
  maxBidMiners : Nat
  maxOrdersPerProposer : Nat
  maxDeadlineBlocks : Nat
  maxBlockWait : Nat
  minReward : Balance
  resultTtlBlocks : Nat
  /-- The largest block number, where `saturating_add` stops. -/
  maxBlockNumber : Nat
  /-- `T::Hashing::hash_of` on the encoded job spec tuple. -/
  hashOf : List UInt8 × Formulation × Option Hash × Option Hash → Hash
  iterKeys : List Nat → List Nat
  iterKeys_perm : ∀ ids, (iterKeys ids).Perm ids

instance (T : Config) : DecidableEq T.AccountId := T.decEqAccountId
instance (T : Config) : DecidableEq T.Hash := T.decEqHash

/-- Reward distribution strategy for a job order. -/
inductive RewardResolution where
  | singleBest
  | topNWeighted (n : Nat)
  | topNEqual (n : Nat)
  deriving DecidableEq, Repr

inductive OrderStatus where
  | opened
  | expired
  | closed
  deriving DecidableEq, Repr

abbrev Endpoint := BoundedVec UInt8 256

/-- How the proposer expects to consume final results. -/
inductive ResultDelivery where
  | onChainOnly
  | callback (endpoint : Endpoint)
  | callbackWithPoll (endpoint : Endpoint)
  deriving DecidableEq

/-- Ising problem parameters and optional acceptance thresholds. -/
structure IsingParams (T : Config) where
  nodes : BoundedVec Nat T.maxNodes
  edges : BoundedVec (Nat × Nat) T.maxEdges
  hValues : BoundedVec Int T.maxNodes
  jValues : BoundedVec Int T.maxEdges
  maxEnergyMilli : Option Int
  minDiversityMilli : Option Nat
  minSolutions : Option Nat

/-- Solver access policy for a job order. -/
inductive JobMode (T : Config) where
  | open
  | bid (miners : Option (BoundedVec T.AccountId T.maxBidMiners))
      (minerTypes : Option (BoundedVec MinerType 8))

abbrev SpecName := BoundedVec UInt8 128

structure JobSpec (T : Config) where
  builder : T.AccountId
  name : SpecName
  formulation : Formulation
  validationProgram : Option T.Hash
  transformProgram : Option T.Hash
  registeredAt : Nat
  totalOrders : Nat
  successfulOrders : Nat

structure OrderTiming where
  deadlineBlocks : Nat
  blockWait : Nat
  deriving DecidableEq, Repr

/-- Specific job instance to be solved. -/
structure JobOrder (T : Config) where
  specId : T.Hash
  proposer : T.AccountId
  isingParams : IsingParams T
  reward : Balance
  mode : JobMode T
  resolution : RewardResolution
  timing : OrderTiming
  delivery : ResultDelivery
  status : OrderStatus
  createdAt : Nat
  firstSolutionAt : Option Nat
  solutionCount : Nat

abbrev Solutions (T : Config) := BoundedVec (BoundedVec Int T.maxNodes) T.maxSolutions

/-- Accepted solver submission for an order. -/
structure JobSolution (T : Config) where
  solver : T.AccountId
  solverType : MinerType
  solutions : Solutions T
  bestEnergyMilli : Int
  diversityMilli : Nat
  numValid : Nat
  submittedAt : Nat

structure SolverInfo (T : Config) where
  account : T.AccountId
  solverType : MinerType
  registeredAt : Nat
  solutionsSubmitted : Nat
  rewardsEarned : Nat

/-- Ranked-solver entry used for Top-N order tracking. -/
structure RankedSolver (T : Config) where
  solver : T.AccountId
  energyMilli : Int

/-- SingleBest frontrunner state. -/
structure FrontRunner (T : Config) where
  solver : T.AccountId
  energyMilli : Int

structure WinnerSummary (T : Config) where
  solver : T.AccountId
  energyMilli : Int
  amount : Nat

abbrev TopSolvers (T : Config) := BoundedVec (RankedSolver T) MAX_REWARD_WINNERS
abbrev WinnerSummaries (T : Config) := BoundedVec (WinnerSummary T) MAX_REWARD_WINNERS
abbrev ProposerOrders (T : Config) := BoundedVec Nat T.maxOrdersPerProposer

/-- Persisted settlement payload for poll-based result retrieval. -/
structure StoredResult (T : Config) where
  endpoint : Endpoint
  resolution : RewardResolution
  settledAt : Nat
  winners : WinnerSummaries T

/-- `WinnerPayee::V1`: a chain id and a 20-byte address. -/
structure WinnerPayee where
  chainId : Nat
  address : BitVec 160
  deriving DecidableEq

def WinnerPayee.isValid (payee : WinnerPayee) : Bool :=
  payee.chainId != 0 && payee.address != 0

inductive Error where
  | solverAlreadyRegistered
  | solverNotRegistered
  | jobSpecAlreadyExists
  | jobSpecNotFound
  | orderNotFound
  | orderNotOpen
  | notEligibleSolver
  | invalidSpinValues
  | solutionLengthMismatch
  | insufficientEnergy
  | insufficientDiversity
  | insufficientSolutions
  | noSolutionsSubmitted
  | rewardTooLow
  | tooManySolutions
  | orderLimitReached
  | invalidDeliveryMode
  | invalidTopology
  | invalidRewardResolution
  | emptyBidCriteria
  | deadlineTooLong
  | blockWaitTooLong
  | orderNotExpired
  | notProposer
  | notWinner
  | alreadyClaimed
  | noSolutionsAccepted
  | resultNotFound
  | resultTtlNotElapsed
  | invalidDiversityConfig
  | solutionNotImproved
  | rewardReserveMissing
  | invalidPayeeChain
  | payeeRequired
  | invalidPayee
  | payeeChainMismatch
  | vmProgramNotFound
  | vmBadBytecode
  | vmVerificationFailed
  | vmOutputType
  | vmOutputLength
  | vmOutputSpin
  | vmExecutionFailed
  | vmStepLimitExceeded
  | vmMemoryLimitExceeded
  deriving DecidableEq, Repr

/-- What a call returns on failure. `currency` stands for whatever error the
currency returns; `vm` is an error the VM adapter returned. -/
inductive DispatchError where
  | badOrigin
  | module (error : Error)
  | currency
  | vm (error : Error)
  deriving DecidableEq, Repr

instance : Coe Error DispatchError := ⟨DispatchError.module⟩

inductive Event (T : Config) where
  | solverRegistered (who : T.AccountId) (solverType : MinerType)
  | solverDeregistered (who : T.AccountId)
  | jobSpecRegistered (specId : T.Hash) (builder : T.AccountId)
  | jobProposed (orderId : Nat) (specId : T.Hash) (proposer : T.AccountId) (reward : Balance)
      (deadlineBlocks blockWait : Nat)
  | solutionAccepted (orderId : Nat) (solver : T.AccountId) (energyMilli : Int)
      (diversityMilli : Nat)
  | firstSolutionReceived (orderId : Nat) (solver : T.AccountId) (effectiveExpiry : Nat)
  | blockWaitStarted (orderId : Nat) (firstSolutionAt closesAt : Nat)
  | frontRunnerChanged (orderId : Nat) (solver : T.AccountId) (energyMilli : Int)
  | orderExpired (orderId : Nat)
  | rewardClaimed (orderId : Nat) (solver : T.AccountId) (amount : Nat)
  | rewardReclaimed (orderId : Nat) (proposer : T.AccountId) (amount : Nat)
  | orderClosed (orderId : Nat) (successful : Bool)
  | resultPurged (orderId : Nat)
  | resultReady (orderId : Nat) (endpoint : Endpoint) (winners : WinnerSummaries T)
  | payeeRequirementSet (orderId : Nat) (chainId : Nat)
  | solutionPayeeSet (orderId : Nat) (solver : T.AccountId) (payee : Option WinnerPayee)

end QuipValidator.Mempool
