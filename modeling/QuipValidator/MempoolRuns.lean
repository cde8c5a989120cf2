import QuipValidator.MempoolSettlement
import QuipValidator.Machine

/-! Whole runs of the mempool: any dispatch by any origin, the next block with
its hook, and anything other code does to the balances. A failed or panicking
dispatch leaves the storage as it was. -/
namespace QuipValidator.Mempool
open Fallible

variable {T : Config}

inductive Call (T : Config) where
  | registerSolver (solverType : MinerType)
  | deregisterSolver
  | registerJobSpec (builder : T.AccountId) (name : SpecName) (formulation : Formulation)
      (validationProgram transformProgram : Option T.Hash)
  | proposeJob (proposal : Proposal T)
  | submitSolution (orderId : Nat) (solutions : Solutions T)
  | claimReward (orderId : Nat)
  | reclaimOrder (orderId : Nat)
  | purgeResult (orderId : Nat)
  | proposeJobWithPayeeRequirement (proposal : Proposal T) (requiredChainId : Nat)
  | submitSolutionWithPayee (orderId : Nat) (solutions : Solutions T) (payee : WinnerPayee)

def registerSolver (s : State T) (origin : Origin T) (solverType : MinerType) :
    Fallible DispatchError (State T) := do
  let who ← ensureSigned origin
  ensure ((s.solvers.lookup who).isNone) Error.solverAlreadyRegistered
  let info : SolverInfo T :=
    { account := who, solverType, registeredAt := s.blockNumber, solutionsSubmitted := 0, rewardsEarned := 0 }
  let s := { s with solvers := s.solvers.insert who info }
  pure (s.deposit (.solverRegistered who solverType))

def deregisterSolver (s : State T) (origin : Origin T) : Fallible DispatchError (State T) := do
  let who ← ensureSigned origin
  ensure ((s.solvers.lookup who).isSome) Error.solverNotRegistered
  let s := { s with solvers := s.solvers.erase who }
  pure (s.deposit (.solverDeregistered who))

def proposeJobWithPayeeRequirement (s : State T) (env : Env T) (origin : Origin T) (proposal : Proposal T)
    (requiredChainId : Nat) : Fallible DispatchError (State T) := do
  let proposer ← ensureSigned origin
  ensure (requiredChainId ≠ 0) Error.invalidPayeeChain
  let (s, orderId) ← doProposeJob s env proposer proposal
  let s := { s with orderPayeeRequirements := s.orderPayeeRequirements.insert orderId requiredChainId }
  pure (s.deposit (.payeeRequirementSet orderId requiredChainId))

/-- One dispatch, without the rollback. -/
def execute (s : State T) (env : Env T) (origin : Origin T) : Call T → Fallible DispatchError (State T)
  | .registerSolver solverType => registerSolver s origin solverType
  | .deregisterSolver => deregisterSolver s origin
  | .registerJobSpec builder name formulation validationProgram transformProgram => do
    ensureRoot origin
    insertJobSpec s env builder name formulation validationProgram transformProgram s.blockNumber true
  | .proposeJob proposal => do
    let proposer ← ensureSigned origin
    let (s, _) ← doProposeJob s env proposer proposal
    pure s
  | .submitSolution orderId solutions => do
    let solver ← ensureSigned origin
    (submitSolutionInner s env solver orderId solutions none).2
  | .claimReward orderId => claimReward s env origin orderId
  | .reclaimOrder orderId => reclaimOrder s origin orderId
  | .purgeResult orderId => purgeResult s origin orderId
  | .proposeJobWithPayeeRequirement proposal requiredChainId =>
    proposeJobWithPayeeRequirement s env origin proposal requiredChainId
  | .submitSolutionWithPayee orderId solutions payee => do
    let solver ← ensureSigned origin
    (submitSolutionInner s env solver orderId solutions (some payee)).2

/-- The amount the pallet has reserved from `who` over all its operations. -/
def reservedFrom (movements : List (Movement T)) (who : T.AccountId) : Nat :=
  (movements.map fun movement =>
    match movement with
    | .reserve account amount => if account = who then amount else 0
    | _ => 0).sum

/-- The amount the pallet has unreserved for `who` over all its operations. -/
def unreservedFor (movements : List (Movement T)) (who : T.AccountId) : Nat :=
  (movements.map fun movement =>
    match movement with
    | .unreserve account amount => if account = who then amount else 0
    | _ => 0).sum

/-- Whatever the rest of the runtime does to the balances between two steps.
It may set the free balances and its own reserves to anything; what this pallet
has reserved and not unreserved stays in the pool. -/
def externalBalances (balances : Balances T) (free others : T.AccountId → Nat) : Balances T :=
  { balances with
    free
    reserved := fun who =>
      reservedFrom balances.movements who - unreservedFor balances.movements who + others who }

/-- Build the next block and run its hook. A hook that panics builds no block. -/
def nextBlock (s : State T) : Fallible DispatchError (State T) :=
  onInitialize { s with blockNumber := s.blockNumber + 1 } (s.blockNumber + 1)

inductive Step (T : Config) where
  | dispatch (env : Env T) (origin : Origin T) (call : Call T)
  | nextBlock
  | external (free others : T.AccountId → Nat)

/-- A dispatch that succeeded, with the storage before and after it. -/
structure Executed (T : Config) where
  origin : Origin T
  call : Call T
  before : State T
  after : State T

/-- The storage after an action that may fail. -/
def committed (s : State T) : Fallible DispatchError (State T) → State T
  | .ok after => after
  | .error _ => s

def machine (T : Config) : Machine (State T) (Step T) (Executed T) where
  next s step :=
    match step with
    | .dispatch env origin call => committed s (execute s env origin call)
    | .nextBlock => committed s (nextBlock s)
    | .external free others => { s with balances := externalBalances s.balances free others }
  report s step :=
    match step with
    | .dispatch env origin call =>
      match execute s env origin call with
      | .ok after => [⟨origin, call, s, after⟩]
      | .error _ => []
    | _ => []

/-- Every executed dispatch of a run ran on the storage an earlier part of the run left. -/
theorem trace_executed {s₀ : State T} {steps : List (Step T)} {executed : Executed T}
    (member : executed ∈ (machine T).trace s₀ steps) :
    ∃ earlier env later, steps = earlier ++ .dispatch env executed.origin executed.call :: later ∧
      executed.before = (machine T).run s₀ earlier ∧
      execute executed.before env executed.origin executed.call = .ok executed.after := by
  obtain ⟨earlier, step, later, split, reported⟩ := (machine T).mem_trace member
  generalize reached : (machine T).run s₀ earlier = s at reported
  cases step with
  | dispatch env origin call =>
    cases ran : execute s env origin call with
    | error fault =>
      simp only [machine, ran] at reported
      cases reported
    | ok after =>
      simp only [machine, ran] at reported
      obtain rfl := List.mem_singleton.mp reported
      exact ⟨earlier, env, later, split, reached.symm, ran⟩
  | nextBlock => cases reported
  | external free others => cases reported

/-- A chain with no orders yet: fresh order storage, nothing escrowed, and a
cursor that has not run ahead of the next block. Specs, solvers and the balances
of other pallets are arbitrary. -/
structure NoOrders (s : State T) : Prop where
  nextOrderId : s.nextOrderId = 0
  jobOrders : s.jobOrders = ∅
  openOrders : s.openOrders = ∅
  ordersExpiringAt : s.ordersExpiringAt = ∅
  nextExpiryBucket : s.nextExpiryBucket ≤ s.blockNumber + 1
  orderSolutions : s.orderSolutions = ∅
  orderPayeeRequirements : s.orderPayeeRequirements = ∅
  orderPayees : s.orderPayees = ∅
  orderFrontRunner : s.orderFrontRunner = ∅
  orderTopSolvers : s.orderTopSolvers = ∅
  proposerOrders : s.proposerOrders = ∅
  orderResults : s.orderResults = ∅
  events : s.events = []
  logs : s.logs = []
  movements : s.balances.movements = []

/-- Order ids are `u64` and the counter saturates, so an id is given twice once
`2 ^ 64` orders exist. -/
def FewOrders (s : State T) : Prop := s.jobOrders.size < 2 ^ 64

/-- A small runtime for concrete runs: accounts and hashes are numbers. -/
def tinyConfig : Config where
  AccountId := Nat
  Hash := Nat
  decEqAccountId := inferInstance
  decEqHash := inferInstance
  maxNodes := 2
  maxEdges := 1
  maxSolutions := 2
  maxSolutions_u32 := by decide
  maxBidMiners := 1
  maxOrdersPerProposer := 2
  maxDeadlineBlocks := 10
  maxBlockWait := 10
  minReward := 1
  resultTtlBlocks := 5
  maxBlockNumber := u32Max
  hashOf := fun tuple => tuple.1.length
  iterKeys := id
  iterKeys_perm := fun _ => List.Perm.refl _

/-- Block 1 of the small runtime, with a balance of 100 for every account. -/
def tinyGenesis : State tinyConfig where
  blockNumber := 1
  jobSpecs := ∅
  jobOrders := ∅
  nextOrderId := 0
  openOrders := ∅
  ordersExpiringAt := ∅
  nextExpiryBucket := 0
  orderSolutions := ∅
  orderPayeeRequirements := ∅
  orderPayees := ∅
  orderFrontRunner := ∅
  orderTopSolvers := ∅
  solvers := ∅
  proposerOrders := ∅
  orderResults := ∅
  events := []
  logs := []
  balances := { free := fun _ => 100, reserved := fun _ => 0, movements := [] }
  lastScheduled := fun _ => none

/-- The VM without programs, and a currency that never refuses. -/
def tinyEnv : Env tinyConfig where
  vm := { validatePrograms := fun _ _ => .ok ()
          transformSolutions := fun _ _ _ _ solutions => ⟨.ok solutions, 0⟩
          validateResult := fun _ _ _ _ => .ok () }
  canReserve := fun _ _ => true
  canTransfer := fun _ _ _ => true

/-- Two coupled nodes, a reward of 7 shared by two solvers, callback delivery. -/
def tinyProposal : Proposal tinyConfig where
  specId := (0 : Nat)
  isingParams :=
    { nodes := ⟨[0, 1], by decide⟩
      edges := ⟨[(0, 1)], by decide⟩
      hValues := ⟨[0, 0], by decide⟩
      jValues := ⟨[1], by decide⟩
      maxEnergyMilli := some 0
      minDiversityMilli := none
      minSolutions := some 1 }
  reward := 7
  mode := .open
  resolution := .topNEqual 2
  deadlineBlocks := 3
  blockWait := 1
  delivery := .callback ⟨[], by decide⟩

/-- The two antiparallel configurations, both of energy -1. -/
def tinySolutions : Solutions tinyConfig := ⟨[⟨[1, -1], by decide⟩, ⟨[-1, 1], by decide⟩], by decide⟩

def tinyPayee : WinnerPayee := ⟨1, 1⟩

/-- Set-up, a proposal that requires a payee on chain 1, and a solution for it. -/
def tinyOpening : List (Step tinyConfig) :=
  [.dispatch tinyEnv .root (.registerJobSpec (0 : Nat) default .ising none none),
   .dispatch tinyEnv (.signed (1 : Nat)) (.registerSolver .cpu),
   .dispatch tinyEnv (.signed (0 : Nat)) (.proposeJobWithPayeeRequirement tinyProposal 1),
   .dispatch tinyEnv (.signed (1 : Nat)) (.submitSolutionWithPayee 0 tinySolutions tinyPayee)]

/-- The opening, the block that finalises the order, and its settlement. -/
def tinyRun : List (Step tinyConfig) :=
  tinyOpening ++ [.nextBlock, .dispatch tinyEnv (.signed (2 : Nat)) (.claimReward 0)]

theorem tinyGenesis_noOrders : NoOrders tinyGenesis :=
  ⟨rfl, rfl, rfl, rfl, by decide, rfl, rfl, rfl, rfl, rfl, rfl, rfl, rfl, rfl, rfl⟩

theorem tinyRun_fewOrders : FewOrders ((machine tinyConfig).run tinyGenesis tinyRun) := by
  unfold FewOrders
  decide +kernel

end QuipValidator.Mempool
