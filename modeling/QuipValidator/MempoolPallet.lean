import QuipValidator.MempoolRewards
import QuipValidator.MempoolSelection
import QuipValidator.IsingEnergy

/-! `pallet-quantum-compute-mempool`: storage, helpers, the ten calls and the
block hook. A call takes the storage it runs on and returns the storage it
leaves; a failed call returns no storage, which is how a dispatch rolls back. -/
namespace QuipValidator.Mempool
open Fallible IsingValidation IsingEnergy IsingDiversity

variable {T : Config}

/-- A currency operation the pallet made. -/
inductive Movement (T : Config) where
  | reserve (who : T.AccountId) (amount : Nat)
  | unreserve (who : T.AccountId) (amount : Nat)
  | transfer (source dest : T.AccountId) (amount : Nat)

/-- The currency as the pallet sees it: free and reserved balances of every
account, and the operations this pallet made on them, oldest first. The reserve
is one pool that other pallets use too. -/
structure Balances (T : Config) where
  free : T.AccountId → Nat
  reserved : T.AccountId → Nat
  movements : List (Movement T)

structure TransformOutcome where
  result : Except Error (List (List Int))
  stepsUsed : Nat

/-- The VM integration contract. -/
structure QuantumVm (T : Config) where
  validatePrograms : Option T.Hash → Option T.Hash → Except Error Unit
  transformSolutions : T.Hash → Option T.Hash → Option T.Hash → T.AccountId → List (List Int) → TransformOutcome
  validateResult : T.Hash → Option T.Hash → Option T.Hash → List (WinnerSummary T) → Except Error Unit

/-- Code outside the pallet during one dispatch: the VM, and whether the
currency refuses an operation it could pay for (locks, existential deposits). -/
structure Env (T : Config) where
  vm : QuantumVm T
  canReserve : T.AccountId → Nat → Bool
  canTransfer : T.AccountId → T.AccountId → Nat → Bool

/-- What the VM returned, in the pallet's own result type. -/
def returned {α : Type} : Except Error α → Fallible DispatchError α
  | .ok value => .ok value
  | .error reason => fail (.vm reason)

namespace Balances

def set (balance : T.AccountId → Nat) (who : T.AccountId) (value : Nat) : T.AccountId → Nat :=
  fun probe => if probe = who then value else balance probe

/-- `Currency::reserve`. -/
def reserve (balances : Balances T) (env : Env T) (who : T.AccountId) (amount : Nat) :
    Fallible DispatchError (Balances T) := do
  ensure (amount ≤ balances.free who ∧ env.canReserve who amount) .currency
  pure { free := set balances.free who (balances.free who - amount)
         reserved := set balances.reserved who (balances.reserved who + amount)
         movements := balances.movements ++ [.reserve who amount] }

/-- `Currency::unreserve`: frees as much as the pool holds and returns the rest. -/
def unreserve (balances : Balances T) (who : T.AccountId) (amount : Nat) : Nat × Balances T :=
  let actual := min amount (balances.reserved who)
  (amount - actual,
    { free := set balances.free who (balances.free who + actual)
      reserved := set balances.reserved who (balances.reserved who - actual)
      movements := balances.movements ++ [.unreserve who actual] })

/-- `Currency::transfer`. -/
def transfer (balances : Balances T) (env : Env T) (source dest : T.AccountId) (amount : Nat) :
    Fallible DispatchError (Balances T) := do
  ensure (amount ≤ balances.free source ∧ env.canTransfer source dest amount) .currency
  let debited := set balances.free source (balances.free source - amount)
  pure { balances with
    free := set debited dest (debited dest + amount)
    movements := balances.movements ++ [.transfer source dest amount] }

end Balances

/-- The pallet's storage, the block number, every event deposited so far, the
`defensive!` log, and the currency. `lastScheduled` is no storage of the pallet:
it records at which block `schedule_expiry` last ran for an order. -/
structure State (T : Config) where
  blockNumber : Nat
  jobSpecs : StorageMap T.Hash (JobSpec T)
  jobOrders : StorageMap Nat (JobOrder T)
  nextOrderId : Nat
  openOrders : StorageMap Nat Unit
  ordersExpiringAt : StorageDoubleMap Nat Nat Unit
  nextExpiryBucket : Nat
  orderSolutions : StorageDoubleMap Nat T.AccountId (JobSolution T)
  orderPayeeRequirements : StorageMap Nat Nat
  orderPayees : StorageDoubleMap Nat T.AccountId WinnerPayee
  orderFrontRunner : StorageMap Nat (FrontRunner T)
  orderTopSolvers : StorageMap Nat (TopSolvers T)
  solvers : StorageMap T.AccountId (SolverInfo T)
  proposerOrders : StorageMap T.AccountId (ProposerOrders T)
  orderResults : StorageMap Nat (StoredResult T)
  events : List (Event T)
  logs : List String
  balances : Balances T
  lastScheduled : Nat → Option Nat

/-- `deposit_event`. -/
def State.deposit (s : State T) (event : Event T) : State T := { s with events := s.events ++ [event] }

/-- `OrderTopSolvers::get`, a `ValueQuery`. -/
def State.topSolvers (s : State T) (orderId : Nat) : TopSolvers T :=
  (s.orderTopSolvers.lookup orderId).getD default

inductive Origin (T : Config) where
  | root
  | signed (who : T.AccountId)
  | none

def ensureSigned : Origin T → Fallible DispatchError T.AccountId
  | .signed who => .ok who
  | _ => fail .badOrigin

def ensureRoot : Origin T → Fallible DispatchError Unit
  | .root => .ok ()
  | _ => fail .badOrigin

/-- Effective expiry of an order under the two-phase timing model. -/
def effectiveExpiry (T : Config) (createdAt : Nat) (firstSolutionAt : Option Nat)
    (timing : OrderTiming) : Nat :=
  let hardDeadline := saturatingAdd T.maxBlockNumber createdAt timing.deadlineBlocks
  match firstSolutionAt with
  | some first => min hardDeadline (saturatingAdd T.maxBlockNumber first timing.blockWait)
  | none => hardDeadline

/-- The current block is at or past the effective expiry. -/
def isExpired (T : Config) (now createdAt : Nat) (firstSolutionAt : Option Nat)
    (timing : OrderTiming) : Bool :=
  decide (effectiveExpiry T createdAt firstSolutionAt timing ≤ now)

def JobOrder.expiry (order : JobOrder T) : Nat :=
  effectiveExpiry T order.createdAt order.firstSolutionAt order.timing

def JobOrder.hardDeadline (order : JobOrder T) : Nat :=
  saturatingAdd T.maxBlockNumber order.createdAt order.timing.deadlineBlocks

/-- Whether a delivery mode is allowed for a job mode. -/
def validateDeliveryMode : ResultDelivery → JobMode T → Bool
  | .onChainOnly, _ => true
  | .callback _, .open => true
  | .callback _, .bid none (some _) => true
  | .callbackWithPoll _, .bid (some _) none => true
  | _, _ => false

def mapValidationError : ValidationError → Error
  | .invalidSpinValue _ _ => .invalidSpinValues
  | .solutionLengthMismatch _ _ => .solutionLengthMismatch
  | .emptyNodes | .fieldLengthMismatch _ _ | .edgeWeightLengthMismatch _ _ | .duplicateNode _
  | .unknownNodeInEdge _ | .emptyFieldValues | .emptyAllowedValues | .invalidEncodedValue _
  | .encodingTooWide _ | .packedSolutionLengthMismatch _ _ | .arithmeticOverflow => .invalidTopology

/-- `.map_err(Self::map_validation_error)?`. -/
def validated {α : Type} (action : Fallible ValidationError α) : Fallible DispatchError α :=
  mapErr (fun reason => .module (mapValidationError reason)) action

def ensureValidMode : JobMode T → Fallible DispatchError Unit
  | .bid miners minerTypes => ensure (miners.isSome ∨ minerTypes.isSome) Error.emptyBidCriteria
  | .open => pure ()

def ensureValidResolution : RewardResolution → Fallible DispatchError Unit
  | .singleBest => pure ()
  | .topNWeighted n | .topNEqual n => ensure (0 < n ∧ n ≤ MAX_REWARD_WINNERS) Error.invalidRewardResolution

def solverIsEligible (solver : T.AccountId) (solverType : MinerType) : JobMode T → Bool
  | .open => true
  | .bid miners minerTypes =>
    let accountMatch := (miners.map fun allowed => allowed.val.any fun candidate => decide (candidate = solver)).getD false
    let typeMatch := (minerTypes.map fun allowed => allowed.val.any fun candidate => decide (candidate = solverType)).getD false
    accountMatch || typeMatch

/-- `mutate(key, |maybe| if let Some(value) = maybe { .. })`. -/
def mutateSome {K V : Type} [DecidableEq K] (entries : StorageMap K V) (key : K) (change : V → V) : StorageMap K V :=
  match entries.lookup key with
  | some value => entries.insert key (change value)
  | none => entries

def jobSpecId (T : Config) (name : SpecName) (formulation : Formulation)
    (validationProgram transformProgram : Option T.Hash) : T.Hash :=
  T.hashOf (name.val, formulation, validationProgram, transformProgram)

/-- The single write path for job specs. -/
def insertJobSpec (s : State T) (env : Env T) (builder : T.AccountId) (name : SpecName) (formulation : Formulation)
    (validationProgram transformProgram : Option T.Hash) (registeredAt : Nat) (emitEvent : Bool) :
    Fallible DispatchError (State T) := do
  let specId := jobSpecId T name formulation validationProgram transformProgram
  ensure ((s.jobSpecs.lookup specId).isNone) Error.jobSpecAlreadyExists
  returned (env.vm.validatePrograms validationProgram transformProgram)
  let spec : JobSpec T :=
    { builder, name, formulation, validationProgram, transformProgram, registeredAt, totalOrders := 0,
      successfulOrders := 0 }
  let s := { s with jobSpecs := s.jobSpecs.insert specId spec }
  pure (if emitEvent then s.deposit (.jobSpecRegistered specId builder) else s)

/-- The block whose `on_initialize` must finalise an order with `expiry`. -/
def expiryBucket (s : State T) (expiry : Nat) : Nat :=
  max expiry (saturatingAdd T.maxBlockNumber s.blockNumber 1)

def scheduleExpiry (s : State T) (orderId : Nat) (expiry : Nat) : State T :=
  { s with
    ordersExpiringAt := s.ordersExpiringAt.insert (expiryBucket s expiry) orderId ()
    lastScheduled := fun probe => if probe = orderId then some s.blockNumber else s.lastScheduled probe }

/-- Delete the index key after its last native closure. -/
def releaseProposerSlot (s : State T) (proposer : T.AccountId) (orderId : Nat) : State T :=
  match s.proposerOrders.lookup proposer with
  | some ids =>
    let kept := ids.retain fun id => decide (id ≠ orderId)
    if kept.val.isEmpty then { s with proposerOrders := s.proposerOrders.erase proposer }
    else { s with proposerOrders := s.proposerOrders.insert proposer kept }
  | none => s

/-- The arguments of `propose_job`. -/
structure Proposal (T : Config) where
  specId : T.Hash
  isingParams : IsingParams T
  reward : Balance
  mode : JobMode T
  resolution : RewardResolution
  deadlineBlocks : Nat
  blockWait : Nat
  delivery : ResultDelivery

/-- The order a proposal opens at block `createdAt`. -/
def Proposal.order (proposal : Proposal T) (proposer : T.AccountId) (createdAt : Nat) : JobOrder T :=
  { specId := proposal.specId
    proposer
    isingParams := proposal.isingParams
    reward := proposal.reward
    mode := proposal.mode
    resolution := proposal.resolution
    timing := { deadlineBlocks := proposal.deadlineBlocks, blockWait := proposal.blockWait }
    delivery := proposal.delivery
    status := .opened
    createdAt
    firstSolutionAt := none
    solutionCount := 0 }

/-- The checks of `do_propose_job` before it touches the proposer's slots. -/
def checkProposal (s : State T) (proposal : Proposal T) : Fallible DispatchError Unit := do
  let params := proposal.isingParams
  ensure (T.minReward ≤ proposal.reward) Error.rewardTooLow
  ensure (proposal.deadlineBlocks ≤ T.maxDeadlineBlocks) Error.deadlineTooLong
  ensure (proposal.blockWait ≤ T.maxBlockWait) Error.blockWaitTooLong
  ensure ((s.jobSpecs.lookup proposal.specId).isSome) Error.jobSpecNotFound
  ensure (∀ minSolutions ∈ params.minSolutions, minSolutions ≤ T.maxSolutions) Error.tooManySolutions
  ensure (0 < params.minDiversityMilli.getD 0 → ∀ minSolutions ∈ params.minSolutions, 2 ≤ minSolutions)
    Error.invalidDiversityConfig
  ensure ((validateTopologyConsistency params.nodes.val params.edges.val params.hValues.val params.jValues.val
    none none).isEmpty) Error.invalidTopology
  ensure (validateDeliveryMode proposal.delivery proposal.mode) Error.invalidDeliveryMode
  ensureValidMode proposal.mode
  ensureValidResolution proposal.resolution

/-- The writes of `do_propose_job` once the reward is reserved. -/
def openOrder (s : State T) (proposer : T.AccountId) (proposal : Proposal T) (slots : ProposerOrders T)
    (balances : Balances T) : State T :=
  let orderId := s.nextOrderId
  let createdAt := s.blockNumber
  let s := { s with
    balances
    nextOrderId := saturatingAdd u64Max orderId 1
    jobOrders := s.jobOrders.insert orderId (proposal.order proposer createdAt)
    openOrders := s.openOrders.insert orderId () }
  let s := scheduleExpiry s orderId (saturatingAdd T.maxBlockNumber createdAt proposal.deadlineBlocks)
  let s := { s with
    proposerOrders := s.proposerOrders.insert proposer slots
    jobSpecs := mutateSome s.jobSpecs proposal.specId fun spec =>
      { spec with totalOrders := saturatingAdd u64Max spec.totalOrders 1 } }
  s.deposit (.jobProposed orderId proposal.specId proposer proposal.reward proposal.deadlineBlocks
    proposal.blockWait)

def doProposeJob (s : State T) (env : Env T) (proposer : T.AccountId) (proposal : Proposal T) :
    Fallible DispatchError (State T × Nat) := do
  checkProposal s proposal
  let slots := (s.proposerOrders.lookup proposer).getD default
  let slots ← okOr (slots.tryPush s.nextOrderId) Error.orderLimitReached
  let balances ← s.balances.reserve env proposer proposal.reward.val
  pure (openOrder s proposer proposal slots balances, s.nextOrderId)

end QuipValidator.Mempool
