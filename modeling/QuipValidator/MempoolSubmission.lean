import QuipValidator.MempoolPallet

/-! `submit_solution_inner`: admission, the scoring loop over the transformed
vectors, the selection, and the writes of an accepted submission. -/
namespace QuipValidator.Mempool
open Fallible IsingValidation IsingEnergy IsingDiversity

variable {T : Config}

/-- What the admission checks read. -/
structure Admitted (T : Config) where
  solverInfo : SolverInfo T
  order : JobOrder T
  spec : JobSpec T
  topology : TopologyIndex

/-- The payee checks: a given payee must be valid, and a required chain must be matched. -/
def checkPayee (requiredChain : Option Nat) (payee : Option WinnerPayee) : Fallible DispatchError Unit := do
  ensure (∀ destination ∈ payee, destination.isValid) Error.invalidPayee
  match requiredChain with
  | none => pure ()
  | some chainId => do
    let destination ← okOr payee Error.payeeRequired
    ensure (destination.chainId = chainId) Error.payeeChainMismatch

/-- Every check before the VM runs. -/
def admitSubmission (s : State T) (solver : T.AccountId) (orderId : Nat) (solutions : Solutions T)
    (payee : Option WinnerPayee) : Fallible DispatchError (Admitted T) := do
  let solverInfo ← okOr (s.solvers.lookup solver) Error.solverNotRegistered
  ensure (solutions.val ≠ []) Error.noSolutionsSubmitted
  let order ← okOr (s.jobOrders.lookup orderId) Error.orderNotFound
  let spec ← okOr (s.jobSpecs.lookup order.specId) Error.jobSpecNotFound
  ensure (order.status = .opened ∧
    ¬ isExpired T s.blockNumber order.createdAt order.firstSolutionAt order.timing) Error.orderNotOpen
  checkPayee (s.orderPayeeRequirements.lookup orderId) payee
  ensure (solverIsEligible solver solverInfo.solverType order.mode) Error.notEligibleSolver
  let topology ← validated (TopologyIndex.new order.isingParams.nodes.val order.isingParams.edges.val)
  pure { solverInfo, order, spec, topology }

/-- The accumulators of the scoring loop. -/
structure Scored where
  validSolutions : List (List Int)
  bestEnergy : Int
  bestIndex : Nat

/-- The vector's energy is above the order's ceiling. -/
def aboveCeiling (params : IsingParams T) (energy : Int) : Bool :=
  match params.maxEnergyMilli with
  | some maxEnergy => decide (energy > maxEnergy)
  | none => false

/-- `for solution in &transformed_solutions`. -/
def scoreSolutions (params : IsingParams T) (topology : TopologyIndex) :
    List (List Int) → Scored → Fallible DispatchError Scored
  | [], scored => pure scored
  | solution :: rest, scored => do
    let energy ← validated (energyOfSolutionIndexed solution params.hValues.val params.edges.val
      params.jValues.val topology)
    if aboveCeiling params energy then scoreSolutions params topology rest scored
    else
      let scored :=
        if energy < scored.bestEnergy then
          { scored with bestEnergy := energy, bestIndex := scored.validSolutions.length }
        else scored
      scoreSolutions params topology rest { scored with validSolutions := scored.validSolutions ++ [solution] }

/-- How many of `count` valid vectors are to be selected. -/
def targetCount (params : IsingParams T) (count : Nat) : Nat :=
  min (max (params.minSolutions.getD (asU32 count)) 1) (asU32 count)

/-- `valid_solutions[index]`. -/
def pickSolutions (validSolutions : List (List Int)) : List Nat → Fallible DispatchError (List (List Int))
  | [] => pure []
  | index :: rest => do
    let solution ← expect validSolutions[index]? "index out of bounds"
    let picked ← pickSolutions validSolutions rest
    pure (solution :: picked)

/-- `BoundedVec::<i8, T::MaxNodes>::try_from(..).expect(..)` for each vector. -/
def boundVectors (T : Config) : List (List Int) → Fallible DispatchError (List (BoundedVec Int T.maxNodes))
  | [] => pure []
  | solution :: rest => do
    let bounded ← expect (BoundedVec.tryFrom T.maxNodes solution) "validated against MaxNodes"
    let others ← boundVectors T rest
    pure (bounded :: others)

/-- From the transformed vectors to the record to store: scoring, the
improvement check, the selection and the floors on the selected set. -/
def scoreSubmission (params : IsingParams T) (topology : TopologyIndex) (previous : Option (JobSolution T))
    (solver : T.AccountId) (solverType : MinerType) (now : Nat)
    (transformed : List (List Int)) : Fallible DispatchError (JobSolution T) := do
  ensure (transformed ≠ []) Error.noSolutionsSubmitted
  ensure (transformed.length ≤ T.maxSolutions) Error.tooManySolutions
  let scored ← scoreSolutions params topology transformed ⟨[], i64Max, 0⟩
  ensure (scored.validSolutions ≠ []) Error.insufficientEnergy
  ensure (∀ accepted ∈ previous, scored.bestEnergy < accepted.bestEnergyMilli) Error.solutionNotImproved
  let target := targetCount params scored.validSolutions.length
  ensure (max target 1 ≤ scored.validSolutions.length) Error.insufficientSolutions
  let selectedIndices ← validated (selectFromBest scored.validSolutions scored.bestIndex target)
  let selected ← pickSolutions scored.validSolutions selectedIndices
  ensure (∀ minSolutions ∈ params.minSolutions, minSolutions ≤ asU32 selected.length) Error.insufficientSolutions
  let diversityMilli ← validated (calculateDiversity selected)
  ensure (∀ minDiversity ∈ params.minDiversityMilli, minDiversity ≤ diversityMilli) Error.insufficientDiversity
  let vectors ← boundVectors T selected
  let solutions ← expect (BoundedVec.tryFrom T.maxSolutions vectors) "selected subset cannot exceed MaxSolutions"
  pure { solver, solverType, solutions, bestEnergyMilli := scored.bestEnergy, diversityMilli
         numValid := asU32 selected.length, submittedAt := now }

/-- `update_ranking` for the two Top-N resolutions. -/
def rankTopN (s : State T) (orderId : Nat) (n : Nat) (solver : T.AccountId) (bestEnergy : Int) :
    Fallible DispatchError (State T) := do
  let front (listed : List (RankedSolver T)) := listed.head?.map fun entry => (entry.solver, entry.energyMilli)
  let current := s.topSolvers orderId
  let updated := updateRankedSolvers current.val { solver, energyMilli := bestEnergy } n
  let bounded ← okOr (BoundedVec.tryFrom MAX_REWARD_WINNERS updated) Error.invalidRewardResolution
  let s := { s with orderTopSolvers := s.orderTopSolvers.insert orderId bounded }
  match front bounded.val with
  | some (leader, energy) =>
    if front current.val ≠ some (leader, energy) then pure (s.deposit (.frontRunnerChanged orderId leader energy))
    else pure s
  | none => pure s

def updateRanking (s : State T) (orderId : Nat) (resolution : RewardResolution) (solver : T.AccountId)
    (bestEnergy : Int) : Fallible DispatchError (State T) :=
  match resolution with
  | .singleBest =>
    if ∀ entry ∈ s.orderFrontRunner.lookup orderId, bestEnergy < entry.energyMilli then
      let s := { s with orderFrontRunner := s.orderFrontRunner.insert orderId ⟨solver, bestEnergy⟩ }
      pure (s.deposit (.frontRunnerChanged orderId solver bestEnergy))
    else pure s
  | .topNWeighted n | .topNEqual n => rankTopN s orderId n solver bestEnergy

/-- The block executed when `order.first_solution_at` is still empty: start the
`block_wait` window and move the order's expiry entry when it now ends sooner. -/
def startBlockWait (s : State T) (orderId : Nat) (solver : T.AccountId) (order : JobOrder T) :
    State T × JobOrder T :=
  match order.firstSolutionAt with
  | some _ => (s, order)
  | none =>
    let now := s.blockNumber
    let order := { order with firstSolutionAt := some now }
    let closesAt := order.expiry
    let s :=
      if closesAt < order.hardDeadline then
        scheduleExpiry { s with ordersExpiringAt := s.ordersExpiringAt.remove order.hardDeadline orderId }
          orderId closesAt
      else s
    let s := s.deposit (.firstSolutionReceived orderId solver closesAt)
    (s.deposit (.blockWaitStarted orderId now closesAt), order)

/-- The payee write: only a change is stored and announced. -/
def setPayee (s : State T) (orderId : Nat) (solver : T.AccountId) (payee : Option WinnerPayee) : State T :=
  if s.orderPayees.get orderId solver ≠ payee then
    let orderPayees :=
      match payee with
      | some destination => s.orderPayees.insert orderId solver destination
      | none => s.orderPayees.remove orderId solver
    State.deposit { s with orderPayees } (.solutionPayeeSet orderId solver payee)
  else s

/-- The writes of an accepted submission, from `OrderSolutions::insert` on. -/
def storeSubmission (s : State T) (solver : T.AccountId) (solverInfo : SolverInfo T) (orderId : Nat)
    (order : JobOrder T) (payee : Option WinnerPayee) (isNewSolver : Bool) (record : JobSolution T) :
    Fallible DispatchError (State T) := do
  let s := { s with orderSolutions := s.orderSolutions.insert orderId solver record }
  let order :=
    if isNewSolver then { order with solutionCount := saturatingAdd u32Max order.solutionCount 1 } else order
  let (s, order) := startBlockWait s orderId solver order
  let s ← updateRanking s orderId order.resolution solver record.bestEnergyMilli
  let s := setPayee s orderId solver payee
  let solverInfo :=
    { solverInfo with solutionsSubmitted := saturatingAdd u64Max solverInfo.solutionsSubmitted 1 }
  let s := { s with
    solvers := s.solvers.insert solver solverInfo
    jobOrders := s.jobOrders.insert orderId order }
  pure (s.deposit (.solutionAccepted orderId solver record.bestEnergyMilli record.diversityMilli))

/-- What `submit_solution_inner` reports for the weight refund. -/
structure VmMeter where
  vmSteps : Nat
  hasProgram : Bool

/-- The part of `submit_solution_inner` after the VM has run. -/
def settleSubmission (s : State T) (solver : T.AccountId) (orderId : Nat) (payee : Option WinnerPayee)
    (admitted : Admitted T) (outcome : TransformOutcome) : Fallible DispatchError (State T) := do
  let transformed ← returned outcome.result
  let previous := s.orderSolutions.get orderId solver
  let record ← scoreSubmission admitted.order.isingParams admitted.topology previous solver
    admitted.solverInfo.solverType s.blockNumber transformed
  storeSubmission s solver admitted.solverInfo orderId admitted.order payee previous.isNone record

def submitSolutionInner (s : State T) (env : Env T) (solver : T.AccountId) (orderId : Nat)
    (solutions : Solutions T) (payee : Option WinnerPayee) : VmMeter × Fallible DispatchError (State T) :=
  match admitSubmission s solver orderId solutions payee with
  | .error fault => (⟨0, false⟩, .error fault)
  | .ok admitted =>
    let spec := admitted.spec
    let outcome := env.vm.transformSolutions admitted.order.specId spec.validationProgram spec.transformProgram
      solver (solutions.val.map Subtype.val)
    (⟨outcome.stepsUsed, spec.transformProgram.isSome⟩, settleSubmission s solver orderId payee admitted outcome)

end QuipValidator.Mempool
