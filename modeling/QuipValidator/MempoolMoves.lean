import QuipValidator.MempoolRuns
import Mathlib.Logic.Relation

/-! Everything a step of the mempool can do, said once. `Move` is the order
book seen from outside: an order opens, a submission is accepted, an order
expires, an order settles. Each constructor gives the whole next state, with the
fields no order depends on left open. `execute_move` and `nextBlock_moves`
connect the pallet to it; every invariant is then a case analysis on moves. -/
namespace QuipValidator.Mempool
open Fallible IsingValidation StorageDoubleMap

variable {T : Config}

/-- An accepted submission: who, with which payee, and what was stored. -/
structure Accepted (T : Config) where
  solver : T.AccountId
  payee : Option WinnerPayee
  record : JobSolution T

/-- What an observer of an order learns from a dispatch. -/
inductive Label (T : Config) where
  | opened (orderId : Nat)
  | accepted (orderId : Nat) (entry : Accepted T)
  | settled (orderId : Nat) (movements : List (Movement T))

/-- A winners announcement carried by an event. -/
def Event.announcement : Event T → Option (Nat × WinnerSummaries T)
  | .resultReady orderId _ winners => some (orderId, winners)
  | _ => none

/-- Events that announce no winners. -/
def Quiet (events : List (Event T)) : Prop := ∀ event ∈ events, event.announcement = none

/-- The number of ranks a Top-N resolution keeps. -/
def RewardResolution.topN : RewardResolution → Option Nat
  | .singleBest => none
  | .topNWeighted n | .topNEqual n => some n

/-- The order after an accepted submission at block `now`. -/
def JobOrder.accepting (order : JobOrder T) (now : Nat) (isNewSolver : Bool) : JobOrder T :=
  { order with
    solutionCount := if isNewSolver then saturatingAdd u32Max order.solutionCount 1 else order.solutionCount
    firstSolutionAt := some (order.firstSolutionAt.getD now) }

/-- The first solution ends the order before its hard deadline. -/
def JobOrder.closesSooner (order : JobOrder T) (now : Nat) : Prop :=
  order.firstSolutionAt = none ∧ effectiveExpiry T order.createdAt (some now) order.timing < order.hardDeadline

instance (order : JobOrder T) (now : Nat) : Decidable (order.closesSooner now) :=
  inferInstanceAs (Decidable (_ ∧ _))

/-- The payee a submission may carry when the order requires `chain`. -/
def PayeeFits (chain : Option Nat) (payee : Option WinnerPayee) : Prop :=
  (∀ destination ∈ payee, destination.isValid) ∧
    ∀ chainId ∈ chain, ∃ destination, payee = some destination ∧ destination.chainId = chainId

/-- The record came out of scoring some vectors against the order. -/
def Scores (s : State T) (orderId : Nat) (order : JobOrder T) (solver : T.AccountId) (record : JobSolution T) :
    Prop :=
  ∃ topology solverType transformed,
    TopologyIndex.new order.isingParams.nodes.val order.isingParams.edges.val = .ok topology ∧
    scoreSubmission order.isingParams topology (s.orderSolutions.get orderId solver) solver solverType
      s.blockNumber transformed = .ok record

/-- The ranking storage after `solver` reached `energy`. -/
inductive Ranks (s : State T) (orderId : Nat) (resolution : RewardResolution) (solver : T.AccountId)
    (energy : Int) : StorageMap Nat (FrontRunner T) → StorageMap Nat (TopSolvers T) → Prop
  | leads (single : resolution.topN = none)
      (better : ∀ entry ∈ s.orderFrontRunner.lookup orderId, energy < entry.energyMilli) :
      Ranks s orderId resolution solver energy (s.orderFrontRunner.insert orderId ⟨solver, energy⟩) s.orderTopSolvers
  | trails (single : resolution.topN = none) (front : FrontRunner T)
      (held : s.orderFrontRunner.lookup orderId = some front) (behind : front.energyMilli ≤ energy) :
      Ranks s orderId resolution solver energy s.orderFrontRunner s.orderTopSolvers
  | ranks (n : Nat) (several : resolution.topN = some n) (listed : TopSolvers T)
      (updated : listed.val = updateRankedSolvers (s.topSolvers orderId).val ⟨solver, energy⟩ n) :
      Ranks s orderId resolution solver energy s.orderFrontRunner (s.orderTopSolvers.insert orderId listed)

/-- The results, events and log after an order expired. -/
inductive Announces (s : State T) (orderId : Nat) (order : JobOrder T) :
    StorageMap Nat (StoredResult T) → List (Event T) → List String → Prop
  | unsolved (none : order.solutionCount = 0) :
      Announces s orderId order s.orderResults (s.events ++ [.orderExpired orderId]) s.logs
  | onChain (some : 0 < order.solutionCount) (payouts : List (Payout T))
      (computed : computePayouts s orderId order = .ok payouts) (kept : order.delivery = .onChainOnly) :
      Announces s orderId order s.orderResults (s.events ++ [.orderExpired orderId]) s.logs
  | called (some : 0 < order.solutionCount) (payouts : List (Payout T)) (winners : WinnerSummaries T)
      (computed : computePayouts s orderId order = .ok payouts) (summary : winners.val = payouts.map summarise)
      (endpoint : Endpoint) (sent : order.delivery = .callback endpoint) :
      Announces s orderId order s.orderResults
        (s.events ++ [.orderExpired orderId] ++ [.resultReady orderId endpoint winners]) s.logs
  | polled (some : 0 < order.solutionCount) (payouts : List (Payout T)) (winners : WinnerSummaries T)
      (computed : computePayouts s orderId order = .ok payouts) (summary : winners.val = payouts.map summarise)
      (endpoint : Endpoint) (sent : order.delivery = .callbackWithPoll endpoint) :
      Announces s orderId order
        (s.orderResults.insert orderId ⟨endpoint, order.resolution, s.blockNumber, winners⟩)
        (s.events ++ [.orderExpired orderId] ++ [.resultReady orderId endpoint winners]) s.logs
  | stuck (some : 0 < order.solutionCount) (reason : DispatchError)
      (missing : computePayouts s orderId order = .error (.error reason)) :
      Announces s orderId order s.orderResults (s.events ++ [.orderExpired orderId])
        (s.logs ++ ["finalise_order: payouts unavailable"])

/-- The transfers a payout list asks for; zero amounts are skipped. -/
def transfersOf (proposer : T.AccountId) (payouts : List (Payout T)) : List (Movement T) :=
  payouts.filterMap fun payout => if payout.2.1 = 0 then none else some (.transfer proposer payout.1 payout.2.1)

/-- The two ways an expired order's reward leaves escrow, with the transfers made. -/
inductive Settles (s : State T) (orderId : Nat) (order : JobOrder T) : List (Movement T) → Prop
  | paid (solved : 0 < order.solutionCount) (payouts : List (Payout T))
      (computed : computePayouts s orderId order = .ok payouts) :
      Settles s orderId order (transfersOf order.proposer payouts)
  | reclaimed (unsolved : order.solutionCount = 0) : Settles s orderId order []

/-- The entry the expiry hook is about to take from the bucket at the cursor. -/
def Due (s : State T) (orderId : Nat) : Prop :=
  s.nextExpiryBucket ≤ s.blockNumber ∧ (s.ordersExpiringAt.get s.nextExpiryBucket orderId).isSome

/-- One move of the order book. -/
inductive Move (s : State T) : Option (Label T) → State T → Prop
  | idles {specs : StorageMap T.Hash (JobSpec T)} {solvers : StorageMap T.AccountId (SolverInfo T)}
      {added : List (Event T)} (quiet : Quiet added) :
      Move s none { s with jobSpecs := specs, solvers, events := s.events ++ added }
  | opens {proposer : T.AccountId} {proposal : Proposal T} {slots : ProposerOrders T}
      {requirements : StorageMap Nat Nat} {free : T.AccountId → Nat}
      {specs : StorageMap T.Hash (JobSpec T)} {added : List (Event T)}
      (checked : checkProposal s proposal = .ok ())
      (pushed : slots.val = ((s.proposerOrders.lookup proposer).getD default).val ++ [s.nextOrderId])
      (required : requirements = s.orderPayeeRequirements ∨
        ∃ chainId, requirements = s.orderPayeeRequirements.insert s.nextOrderId chainId)
      (quiet : Quiet added) :
      Move s (some (.opened s.nextOrderId)) { s with
        nextOrderId := saturatingAdd u64Max s.nextOrderId 1
        jobOrders := s.jobOrders.insert s.nextOrderId (proposal.order proposer s.blockNumber)
        openOrders := s.openOrders.insert s.nextOrderId ()
        ordersExpiringAt := s.ordersExpiringAt.insert
          (expiryBucket s (proposal.order proposer s.blockNumber).hardDeadline) s.nextOrderId ()
        lastScheduled := fun probe => if probe = s.nextOrderId then some s.blockNumber else s.lastScheduled probe
        proposerOrders := s.proposerOrders.insert proposer slots
        orderPayeeRequirements := requirements
        balances := { free
                      reserved := Balances.set s.balances.reserved proposer
                        (s.balances.reserved proposer + proposal.reward.val)
                      movements := s.balances.movements ++ [.reserve proposer proposal.reward.val] }
        jobSpecs := specs
        events := s.events ++ added }
  | accepts {orderId : Nat} {order : JobOrder T} {entry : Accepted T}
      {payees : StorageDoubleMap Nat T.AccountId WinnerPayee}
      {fronts : StorageMap Nat (FrontRunner T)} {tops : StorageMap Nat (TopSolvers T)}
      {solvers : StorageMap T.AccountId (SolverInfo T)} {added : List (Event T)}
      (held : s.jobOrders.lookup orderId = some order) (opened : order.status = .opened)
      (early : s.blockNumber < order.expiry)
      (fits : PayeeFits (s.orderPayeeRequirements.lookup orderId) entry.payee)
      (scores : Scores s orderId order entry.solver entry.record)
      (ranked : Ranks s orderId order.resolution entry.solver entry.record.bestEnergyMilli fronts tops)
      (bound : ∀ probe account, payees.get probe account =
        if probe = orderId ∧ account = entry.solver then entry.payee else s.orderPayees.get probe account)
      (quiet : Quiet added) :
      Move s (some (.accepted orderId entry)) { s with
        jobOrders := s.jobOrders.insert orderId
          (order.accepting s.blockNumber (s.orderSolutions.get orderId entry.solver).isNone)
        orderSolutions := s.orderSolutions.insert orderId entry.solver entry.record
        ordersExpiringAt :=
          if order.closesSooner s.blockNumber then
            (s.ordersExpiringAt.remove order.hardDeadline orderId).insert
              (expiryBucket s (effectiveExpiry T order.createdAt (some s.blockNumber) order.timing)) orderId ()
          else s.ordersExpiringAt
        lastScheduled :=
          if order.closesSooner s.blockNumber then
            fun probe => if probe = orderId then some s.blockNumber else s.lastScheduled probe
          else s.lastScheduled
        orderPayees := payees
        orderFrontRunner := fronts
        orderTopSolvers := tops
        solvers
        events := s.events ++ added }
  | closes {orderId : Nat} {order : JobOrder T} {payments : List (Movement T)} {free : T.AccountId → Nat}
      {specs : StorageMap T.Hash (JobSpec T)} {solvers : StorageMap T.AccountId (SolverInfo T)}
      {added : List (Event T)}
      (held : s.jobOrders.lookup orderId = some order) (expired : order.status = .expired)
      (funded : order.reward.val ≤ s.balances.reserved order.proposer)
      (settles : Settles s orderId order payments) (quiet : Quiet added) :
      Move s (some (.settled orderId (.unreserve order.proposer order.reward.val :: payments))) { s with
        jobOrders := s.jobOrders.insert orderId { order with status := .closed }
        openOrders := s.openOrders.erase orderId
        proposerOrders := (releaseProposerSlot s order.proposer orderId).proposerOrders
        balances := { free
                      reserved := Balances.set s.balances.reserved order.proposer
                        (s.balances.reserved order.proposer - order.reward.val)
                      movements := s.balances.movements ++
                        .unreserve order.proposer order.reward.val :: payments }
        jobSpecs := specs
        solvers
        events := s.events ++ added }
  | purges {orderId : Nat} :
      Move s none { s with
        orderResults := s.orderResults.erase orderId
        events := s.events ++ [.resultPurged orderId] }
  | rebalances {free others : T.AccountId → Nat} :
      Move s none { s with balances := externalBalances s.balances free others }
  | ticks : Move s none { s with blockNumber := s.blockNumber + 1 }
  | expires {orderId : Nat} {order : JobOrder T} {results : StorageMap Nat (StoredResult T)}
      {events : List (Event T)} {logs : List String} (due : Due s orderId)
      (held : s.jobOrders.lookup orderId = some order) (opened : order.status = .opened)
      (announced : Announces s orderId order results events logs) :
      Move s none { s with
        ordersExpiringAt := s.ordersExpiringAt.remove s.nextExpiryBucket orderId
        jobOrders := s.jobOrders.insert orderId { order with status := .expired }
        openOrders := s.openOrders.erase orderId
        orderResults := results
        events
        logs }
  | drops {orderId : Nat} (due : Due s orderId)
      (unopened : ∀ order, s.jobOrders.lookup orderId = some order → order.status ≠ .opened) :
      Move s none { s with ordersExpiringAt := s.ordersExpiringAt.remove s.nextExpiryBucket orderId }
  | advances (behind : s.nextExpiryBucket ≤ s.blockNumber)
      (drained : ∀ orderId, s.ordersExpiringAt.get s.nextExpiryBucket orderId = none) :
      Move s none { s with nextExpiryBucket := saturatingAdd T.maxBlockNumber s.nextExpiryBucket 1 }

/-- The label of a dispatch that succeeded: the id of a new order, the stored
record of an accepted submission, or the currency operations of a settlement. -/
def Executed.label (executed : Executed T) : Option (Label T) :=
  let submission (orderId : Nat) (payee : Option WinnerPayee) : Option (Label T) :=
    match executed.origin with
    | .signed solver => (executed.after.orderSolutions.get orderId solver).map fun record =>
        .accepted orderId ⟨solver, payee, record⟩
    | _ => none
  let settlement (orderId : Nat) : Option (Label T) :=
    some (.settled orderId
      (executed.after.balances.movements.drop executed.before.balances.movements.length))
  match executed.call with
  | .submitSolution orderId _ => submission orderId none
  | .submitSolutionWithPayee orderId _ payee => submission orderId (some payee)
  | .claimReward orderId | .reclaimOrder orderId => settlement orderId
  | .proposeJob _ | .proposeJobWithPayeeRequirement _ _ => some (.opened executed.before.nextOrderId)
  | .registerSolver _ | .deregisterSolver | .registerJobSpec _ _ _ _ _ | .purgeResult _ => none

section Inversion
variable {s after : State T} {env : Env T} {origin : Origin T}

@[simp] theorem ensureSigned_success {who : T.AccountId} :
    ensureSigned origin = .ok who ↔ origin = .signed who := by
  cases origin <;> simp [ensureSigned, fail]

theorem pure_success {α ε : Type} {value result : α} :
    (pure value : Fallible ε α) = .ok result ↔ value = result := by
  constructor
  · intro same
    cases same
    rfl
  · rintro rfl
    rfl

theorem quiet_one (event : Event T) (silent : event.announcement = none) : Quiet [event] := by
  intro other member
  rw [List.mem_singleton.mp member]
  exact silent

private theorem registerSolver_move {solverType : MinerType} (ran : registerSolver s origin solverType = .ok after) :
    Move s none after := by
  simp only [registerSolver, bind_success, pure_success] at ran
  obtain ⟨who, _, _, _, rfl⟩ := ran
  exact .idles (quiet_one _ rfl)

private theorem deregisterSolver_move (ran : deregisterSolver s origin = .ok after) : Move s none after := by
  simp only [deregisterSolver, bind_success, pure_success] at ran
  obtain ⟨who, _, _, _, rfl⟩ := ran
  exact .idles (quiet_one _ rfl)

private theorem insertJobSpec_move {builder : T.AccountId} {name : SpecName} {formulation : Formulation}
    {validationProgram transformProgram : Option T.Hash} {registeredAt : Nat}
    (ran : insertJobSpec s env builder name formulation validationProgram transformProgram registeredAt true =
      .ok after) : Move s none after := by
  simp only [insertJobSpec, bind_success, pure_success, if_true] at ran
  obtain ⟨_, _, _, _, rfl⟩ := ran
  exact .idles (quiet_one _ rfl)

private theorem purgeResult_move {orderId : Nat} (ran : purgeResult s origin orderId = .ok after) :
    Move s none after := by
  simp only [purgeResult, bind_success, pure_success] at ran
  obtain ⟨_, _, _, _, _, _, rfl⟩ := ran
  exact .purges

/-- A successful proposal checked everything, took the slot and reserved the reward. -/
theorem doProposeJob_success {proposer : T.AccountId} {proposal : Proposal T} {orderId : Nat}
    (ran : doProposeJob s env proposer proposal = .ok (after, orderId)) :
    orderId = s.nextOrderId ∧ checkProposal s proposal = .ok () ∧
      ∃ slots : ProposerOrders T, ∃ free,
        slots.val = ((s.proposerOrders.lookup proposer).getD default).val ++ [s.nextOrderId] ∧
        after = openOrder s proposer proposal slots
          { free
            reserved := Balances.set s.balances.reserved proposer
              (s.balances.reserved proposer + proposal.reward.val)
            movements := s.balances.movements ++ [.reserve proposer proposal.reward.val] } := by
  simp only [doProposeJob, Balances.reserve, bind_success, pure_success, okOr_success, BoundedVec.tryPush,
    BoundedVec.tryFrom_eq_some, Prod.mk.injEq] at ran
  obtain ⟨_, checked, slots, pushed, _, ⟨_, _, rfl⟩, rfl, rfl⟩ := ran
  exact ⟨rfl, checked, slots, _, pushed, rfl⟩

private theorem proposeJob_move {proposer : T.AccountId} {proposal : Proposal T} {orderId : Nat}
    (ran : doProposeJob s env proposer proposal = .ok (after, orderId)) :
    Move s (some (.opened s.nextOrderId)) after := by
  obtain ⟨_, checked, slots, free, pushed, rfl⟩ := doProposeJob_success ran
  exact .opens checked pushed (.inl rfl) (quiet_one _ rfl)

private theorem proposeJobWithPayeeRequirement_move {proposal : Proposal T} {chainId : Nat}
    (ran : proposeJobWithPayeeRequirement s env origin proposal chainId = .ok after) :
    Move s (some (.opened s.nextOrderId)) after := by
  simp only [proposeJobWithPayeeRequirement, bind_success, pure_success] at ran
  obtain ⟨proposer, _, _, _, ⟨opened, orderId⟩, proposed, rfl⟩ := ran
  obtain ⟨rfl, checked, slots, free, pushed, rfl⟩ := doProposeJob_success proposed
  simp only [openOrder, scheduleExpiry, State.deposit, List.append_assoc, List.singleton_append]
  refine .opens checked pushed (.inr ⟨chainId, rfl⟩) ?_
  intro event member
  rcases List.mem_cons.mp member with rfl | member
  · rfl
  · rw [List.mem_singleton.mp member]
    rfl

private theorem quiet_append {first second : List (Event T)} (quietFirst : Quiet first) (quietSecond : Quiet second) :
    Quiet (first ++ second) := by
  intro event member
  rcases List.mem_append.mp member with member | member
  · exact quietFirst event member
  · exact quietSecond event member

theorem startBlockWait_effect (s : State T) (orderId : Nat) (solver : T.AccountId) (order : JobOrder T) :
    ∃ added, Quiet added ∧ startBlockWait s orderId solver order =
      ({ s with
          ordersExpiringAt :=
            if order.closesSooner s.blockNumber then
              (s.ordersExpiringAt.remove order.hardDeadline orderId).insert
                (expiryBucket s (effectiveExpiry T order.createdAt (some s.blockNumber) order.timing)) orderId ()
            else s.ordersExpiringAt
          lastScheduled :=
            if order.closesSooner s.blockNumber then
              fun probe => if probe = orderId then some s.blockNumber else s.lastScheduled probe
            else s.lastScheduled
          events := s.events ++ added },
        { order with firstSolutionAt := some (order.firstSolutionAt.getD s.blockNumber) }) := by
  cases started : order.firstSolutionAt with
  | some first =>
    refine ⟨[], by simp [Quiet], ?_⟩
    have later : ¬ order.closesSooner s.blockNumber := by
      intro sooner
      rw [sooner.1] at started
      cases started
    have unchanged : { order with firstSolutionAt := some first } = order := by rw [← started]
    simp only [startBlockWait, started, later, if_false, List.append_nil, Option.getD_some, unchanged]
  | none =>
    refine ⟨[.firstSolutionReceived orderId solver (effectiveExpiry T order.createdAt (some s.blockNumber) order.timing),
      .blockWaitStarted orderId s.blockNumber (effectiveExpiry T order.createdAt (some s.blockNumber) order.timing)],
      quiet_append (quiet_one _ rfl) (quiet_one _ rfl), ?_⟩
    by_cases sooner : effectiveExpiry T order.createdAt (some s.blockNumber) order.timing < order.hardDeadline
    · have closes : order.closesSooner s.blockNumber := ⟨started, sooner⟩
      have ends : JobOrder.expiry { order with firstSolutionAt := some s.blockNumber } <
          JobOrder.hardDeadline { order with firstSolutionAt := some s.blockNumber } := sooner
      simp only [startBlockWait, started, closes, ends, if_true, State.deposit, scheduleExpiry, List.append_assoc,
        List.singleton_append, Option.getD_none]
      rfl
    · have stays : ¬ order.closesSooner s.blockNumber := fun closes => sooner closes.2
      have ends : ¬ JobOrder.expiry { order with firstSolutionAt := some s.blockNumber } <
          JobOrder.hardDeadline { order with firstSolutionAt := some s.blockNumber } := sooner
      simp only [startBlockWait, started, stays, ends, if_false, State.deposit, List.append_assoc,
        List.singleton_append, Option.getD_none]
      rfl

/-- `middle` is the storage when the ranking is updated; the ranking itself is
still the one of `s`. -/
theorem updateRanking_effect {middle : State T} {orderId : Nat} {resolution : RewardResolution}
    {solver : T.AccountId} {energy : Int} (ran : updateRanking middle orderId resolution solver energy = .ok after)
    (sameFront : middle.orderFrontRunner = s.orderFrontRunner)
    (sameTop : middle.orderTopSolvers = s.orderTopSolvers) :
    ∃ fronts tops added, Ranks s orderId resolution solver energy fronts tops ∧ Quiet added ∧
      after = { middle with
        orderFrontRunner := fronts, orderTopSolvers := tops, events := middle.events ++ added } := by
  have several : ∀ n, resolution.topN = some n → rankTopN middle orderId n solver energy = .ok after →
      ∃ fronts tops added, Ranks s orderId resolution solver energy fronts tops ∧ Quiet added ∧
        after = { middle with
          orderFrontRunner := fronts, orderTopSolvers := tops, events := middle.events ++ added } := by
    intro n isTop ran
    have current : middle.topSolvers orderId = s.topSolvers orderId := by
      rw [State.topSolvers, State.topSolvers, sameTop]
    simp only [rankTopN, bind_success, okOr_success, BoundedVec.tryFrom_eq_some, current] at ran
    obtain ⟨listed, updated, ran⟩ := ran
    have ranks : Ranks s orderId resolution solver energy _ _ := .ranks n isTop listed updated
    rw [← sameFront, ← sameTop] at ranks
    split at ran
    · split at ran
      · rw [pure_success] at ran
        exact ⟨_, _, _, ranks, quiet_one _ rfl, ran.symm⟩
      · rw [pure_success] at ran
        exact ⟨_, _, [], ranks, by simp [Quiet], by rw [List.append_nil]; exact ran.symm⟩
    · rw [pure_success] at ran
      exact ⟨_, _, [], ranks, by simp [Quiet], by rw [List.append_nil]; exact ran.symm⟩
  cases resolution with
  | singleBest =>
    simp only [updateRanking] at ran
    split at ran
    · rename_i better
      rw [pure_success] at ran
      rw [sameFront] at better
      have ranks : Ranks s orderId .singleBest solver energy _ _ := .leads rfl better
      rw [← sameFront, ← sameTop] at ranks
      exact ⟨_, _, _, ranks, quiet_one _ rfl, ran.symm⟩
    · rename_i worse
      rw [pure_success] at ran
      simp only [Option.mem_def, not_forall, not_lt, exists_prop] at worse
      obtain ⟨front, held, behind⟩ := worse
      rw [sameFront] at held
      have ranks : Ranks s orderId .singleBest solver energy _ _ := .trails rfl front held behind
      rw [← sameFront, ← sameTop] at ranks
      exact ⟨_, _, [], ranks, by simp [Quiet], by rw [List.append_nil]; exact ran.symm⟩
  | topNWeighted n => exact several n rfl ran
  | topNEqual n => exact several n rfl ran

theorem setPayee_effect (s : State T) (orderId : Nat) (solver : T.AccountId) (payee : Option WinnerPayee) :
    ∃ payees added, Quiet added ∧
      (∀ probe account, payees.get probe account =
        if probe = orderId ∧ account = solver then payee else s.orderPayees.get probe account) ∧
      setPayee s orderId solver payee = { s with orderPayees := payees, events := s.events ++ added } := by
  by_cases same : s.orderPayees.get orderId solver = payee
  · refine ⟨s.orderPayees, [], by simp [Quiet], ?_, by simp [setPayee, same]⟩
    intro probe account
    split
    · rename_i here
      rw [here.1, here.2, same]
    · rfl
  · simp only [setPayee, ne_eq, same, not_false_eq_true, if_true]
    cases payee with
    | some destination =>
      exact ⟨_, _, quiet_one _ rfl, fun probe account => get_insert _ _ _ _ _ _, rfl⟩
    | none =>
      exact ⟨_, _, quiet_one _ rfl, fun probe account => get_remove _ _ _ _ _, rfl⟩

private theorem storeSubmission_move {orderId : Nat} {order : JobOrder T} {solver : T.AccountId}
    {info : SolverInfo T} {payee : Option WinnerPayee} {record : JobSolution T}
    (held : s.jobOrders.lookup orderId = some order) (opened : order.status = .opened)
    (early : s.blockNumber < order.expiry) (fits : PayeeFits (s.orderPayeeRequirements.lookup orderId) payee)
    (scores : Scores s orderId order solver record)
    (ran : storeSubmission s solver info orderId order payee (s.orderSolutions.get orderId solver).isNone record =
      .ok after) : Move s (some (.accepted orderId ⟨solver, payee, record⟩)) after := by
  obtain ⟨waited, quietWait, started⟩ := startBlockWait_effect
    { s with orderSolutions := s.orderSolutions.insert orderId solver record } orderId solver
    (if (s.orderSolutions.get orderId solver).isNone then
      { order with solutionCount := saturatingAdd u32Max order.solutionCount 1 } else order)
  simp only [storeSubmission, started, bind_success, pure_success] at ran
  obtain ⟨ranked, ranking, rfl⟩ := ran
  obtain ⟨fronts, tops, led, ranks, quietRank, rfl⟩ := updateRanking_effect (s := s) ranking rfl rfl
  obtain ⟨payees, told, quietPayee, bound, written⟩ := setPayee_effect _ orderId solver payee
  rw [written]
  simp only [State.deposit, List.append_assoc]
  have quietLast : Quiet [Event.solutionAccepted orderId solver record.bestEnergyMilli record.diversityMilli] :=
    quiet_one _ rfl
  have quiet := quiet_append quietWait (quiet_append quietRank (quiet_append quietPayee quietLast))
  cases fresh : (s.orderSolutions.get orderId solver).isNone with
  | true =>
    simp only [fresh, if_true] at ranks ⊢
    have move := fun solvers => @Move.accepts T s orderId order ⟨solver, payee, record⟩ payees fronts tops solvers _
      held opened early fits scores ranks bound quiet
    rw [fresh] at move
    exact move _
  | false =>
    simp only [fresh, Bool.false_eq_true, if_false] at ranks ⊢
    have move := fun solvers => @Move.accepts T s orderId order ⟨solver, payee, record⟩ payees fronts tops solvers _
      held opened early fits scores ranks bound quiet
    rw [fresh] at move
    exact move _

private theorem checkPayee_success {chain : Option Nat} {payee : Option WinnerPayee} {result : Unit}
    (ran : checkPayee chain payee = .ok result) : PayeeFits chain payee := by
  simp only [checkPayee, bind_success, ensure_success] at ran
  obtain ⟨_, valid, ran⟩ := ran
  refine ⟨valid, ?_⟩
  cases chain with
  | none => simp
  | some chainId =>
    simp only [bind_success, okOr_success, ensure_success] at ran
    obtain ⟨destination, given, same⟩ := ran
    rintro required ⟨⟩
    exact ⟨destination, given, same⟩

private theorem submitSolutionInner_move {orderId : Nat} {solver : T.AccountId} {solutions : Solutions T}
    {payee : Option WinnerPayee} (ran : (submitSolutionInner s env solver orderId solutions payee).2 = .ok after) :
    ∃ record, Move s (some (.accepted orderId ⟨solver, payee, record⟩)) after := by
  unfold submitSolutionInner at ran
  split at ran
  · cases ran
  rename_i admitted passed
  simp only [admitSubmission, validated, bind_success, pure_success, okOr_success, ensure_success,
    mapErr_success] at passed
  obtain ⟨info, _, _, _, order, held, spec, _, _, ⟨opened, unexpired⟩, _, payable, _, _, topology, built, rfl⟩ := passed
  simp only [settleSubmission, bind_success] at ran
  obtain ⟨transformed, _, record, scored, stored⟩ := ran
  have early : s.blockNumber < order.expiry := by
    simpa [isExpired, JobOrder.expiry] using unexpired
  exact ⟨record, storeSubmission_move held opened early (checkPayee_success payable)
    ⟨topology, _, transformed, built, scored⟩ stored⟩

private theorem payWinners_effect {orderId : Nat} {proposer : T.AccountId} (payouts : List (Payout T))
    (s : State T) (ran : payWinners env orderId proposer payouts s = .ok after) :
    ∃ free solvers added, Quiet added ∧ after = { s with
      balances := { free, reserved := s.balances.reserved
                    movements := s.balances.movements ++ transfersOf proposer payouts }
      solvers
      events := s.events ++ added } := by
  induction payouts generalizing s with
  | nil =>
    rw [payWinners, pure_success] at ran
    exact ⟨s.balances.free, s.solvers, [], by simp [Quiet], by simp [transfersOf, ran]⟩
  | cons payout rest ih =>
    obtain ⟨winner, amount, energy⟩ := payout
    simp only [payWinners] at ran
    split at ran
    · rename_i zero
      obtain ⟨free, solvers, added, quiet, rfl⟩ := ih s ran
      exact ⟨free, solvers, added, quiet, by simp [transfersOf, zero]⟩
    · rename_i positive
      simp only [Balances.transfer, bind_success, pure_success] at ran
      obtain ⟨_, ⟨_, _, rfl⟩, ran⟩ := ran
      obtain ⟨free, solvers, added, quiet, rfl⟩ := ih _ ran
      refine ⟨free, solvers, _, quiet_append (quiet_one (.rewardClaimed orderId winner amount) rfl) quiet, ?_⟩
      simp [transfersOf, positive, State.deposit, List.append_assoc]

/-- `middle` is the storage once the funds have moved; the slots are still those of `s`. -/
theorem closeOrder_effect (middle : State T) (orderId : Nat) (order : JobOrder T)
    (sameSlots : middle.proposerOrders = s.proposerOrders) :
    closeOrder middle orderId order = { middle with
      jobOrders := middle.jobOrders.insert orderId { order with status := .closed }
      openOrders := middle.openOrders.erase orderId
      proposerOrders := (releaseProposerSlot s order.proposer orderId).proposerOrders } := by
  simp only [closeOrder, releaseProposerSlot, sameSlots]
  split
  · split <;> rfl
  · simp only

theorem unreserve_whole {balances : Balances T} {who : T.AccountId} {amount : Nat}
    (whole : (balances.unreserve who amount).1 = 0) :
    amount ≤ balances.reserved who ∧ ∃ free, (balances.unreserve who amount).2 =
      { free
        reserved := Balances.set balances.reserved who (balances.reserved who - amount)
        movements := balances.movements ++ [.unreserve who amount] } := by
  have enough : amount ≤ balances.reserved who := by
    simp only [Balances.unreserve] at whole
    omega
  refine ⟨enough, Balances.set balances.free who (balances.free who + amount), ?_⟩
  simp only [Balances.unreserve, Nat.min_eq_left enough]

/-- A successful claim paid exactly the computed payouts of a solved order. -/
theorem claimReward_move {orderId : Nat} (ran : claimReward s env origin orderId = .ok after) :
    ∃ order payouts, s.jobOrders.lookup orderId = some order ∧ 0 < order.solutionCount ∧
      computePayouts s orderId order = .ok payouts ∧
      Move s (some (.settled orderId (.unreserve order.proposer order.reward.val ::
        transfersOf order.proposer payouts))) after := by
  simp only [claimReward, bind_success, pure_success, okOr_success, ensure_success] at ran
  obtain ⟨_, _, order, held, spec, _, _, _, _, expired, _, solved, payouts, computed, _, _, _, _, _, whole, paid,
    ran, rfl⟩ := ran
  obtain ⟨enough, free, unreserved⟩ := unreserve_whole whole
  obtain ⟨free, solvers, added, quiet, rfl⟩ := payWinners_effect payouts _ ran
  refine ⟨order, payouts, held, solved, computed, ?_⟩
  have move := fun specs => @Move.closes T s orderId order _ free specs solvers _ held expired enough
    (.paid solved payouts computed) (quiet_append quiet (quiet_one (.orderClosed orderId true) rfl))
  rw [unreserved, closeOrder_effect (s := s)]
  · simp only [State.deposit, List.append_assoc, List.singleton_append]
    exact move _
  · rfl

/-- A successful reclaim was made by the proposer of an unsolved order. -/
theorem reclaimOrder_move {orderId : Nat} (ran : reclaimOrder s origin orderId = .ok after) :
    ∃ order, s.jobOrders.lookup orderId = some order ∧ order.solutionCount = 0 ∧
      origin = .signed order.proposer ∧ Move s (some (.settled orderId [.unreserve order.proposer order.reward.val])) after := by
  simp only [reclaimOrder, bind_success, pure_success, okOr_success, ensure_success, ensureSigned_success] at ran
  obtain ⟨caller, signed, order, held, _, rfl, _, _, _, expired, _, unsolved, _, whole, rfl⟩ := ran
  obtain ⟨enough, free, unreserved⟩ := unreserve_whole whole
  refine ⟨order, held, unsolved, signed, ?_⟩
  have move := @Move.closes T s orderId order [] free s.jobSpecs s.solvers _ held expired enough
    (.reclaimed unsolved)
    (quiet_append (quiet_one (.rewardReclaimed orderId order.proposer order.reward.val) rfl)
      (quiet_one (.orderClosed orderId false) rfl))
  rw [unreserved, closeOrder_effect (s := s)]
  · simp only [State.deposit, List.append_assoc, List.singleton_append]
    exact move
  · rfl

private theorem accepted_stored {orderId : Nat} {entry : Accepted T}
    (move : Move s (some (.accepted orderId entry)) after) :
    after.orderSolutions.get orderId entry.solver = some entry.record := by
  cases move
  simp [get_insert]

/-- The label of a settlement lists the currency operations it made. -/
theorem Move.settled_after {orderId : Nat} {movements : List (Movement T)}
    (move : Move s (some (.settled orderId movements)) after) :
    after.balances.movements = s.balances.movements ++ movements := by
  cases move
  rfl

private theorem settled_movements {orderId : Nat} {movements : List (Movement T)}
    (move : Move s (some (.settled orderId movements)) after) :
    after.balances.movements.drop s.balances.movements.length = movements := by
  rw [move.settled_after, List.drop_left]

/-- The order a submission is for, and the payee it carries. -/
def Call.submission : Call T → Option (Nat × Option WinnerPayee)
  | .submitSolution orderId _ => some (orderId, none)
  | .submitSolutionWithPayee orderId _ payee => some (orderId, some payee)
  | _ => none

/-- A successful submission is an accepted one, by whoever signed it. -/
theorem submission_accepted {call : Call T} {orderId : Nat} {payee : Option WinnerPayee}
    (submits : call.submission = some (orderId, payee)) (ran : execute s env origin call = .ok after) :
    ∃ solver record, origin = .signed solver ∧
      Executed.label ⟨origin, call, s, after⟩ = some (.accepted orderId ⟨solver, payee, record⟩) ∧
      Move s (some (.accepted orderId ⟨solver, payee, record⟩)) after := by
  cases call with
  | submitSolution target solutions =>
    cases submits
    simp only [execute, bind_success, ensureSigned_success] at ran
    obtain ⟨solver, rfl, ran⟩ := ran
    obtain ⟨record, move⟩ := submitSolutionInner_move ran
    exact ⟨solver, record, rfl, by simp [Executed.label, accepted_stored move], move⟩
  | submitSolutionWithPayee target solutions destination =>
    cases submits
    simp only [execute, bind_success, ensureSigned_success] at ran
    obtain ⟨solver, rfl, ran⟩ := ran
    obtain ⟨record, move⟩ := submitSolutionInner_move ran
    exact ⟨solver, record, rfl, by simp [Executed.label, accepted_stored move], move⟩
  | _ => cases submits

/-- Every successful dispatch is one move, under the label read off it. -/
theorem execute_move {call : Call T} (ran : execute s env origin call = .ok after) :
    Move s (Executed.label ⟨origin, call, s, after⟩) after := by
  cases call with
  | registerSolver solverType => exact registerSolver_move ran
  | deregisterSolver => exact deregisterSolver_move ran
  | registerJobSpec builder name formulation validationProgram transformProgram =>
    simp only [execute, bind_success] at ran
    obtain ⟨_, _, ran⟩ := ran
    exact insertJobSpec_move ran
  | proposeJob proposal =>
    simp only [execute, bind_success, pure_success] at ran
    obtain ⟨proposer, _, ⟨opened, orderId⟩, ran, rfl⟩ := ran
    exact proposeJob_move ran
  | submitSolution orderId solutions =>
    obtain ⟨solver, record, _, shown, move⟩ := submission_accepted rfl ran
    rw [shown]
    exact move
  | claimReward orderId =>
    obtain ⟨order, payouts, _, _, _, move⟩ := claimReward_move ran
    simp only [Executed.label, settled_movements move]
    exact move
  | reclaimOrder orderId =>
    obtain ⟨order, _, _, _, move⟩ := reclaimOrder_move ran
    simp only [Executed.label, settled_movements move]
    exact move
  | purgeResult orderId => exact purgeResult_move ran
  | proposeJobWithPayeeRequirement proposal chainId => exact proposeJobWithPayeeRequirement_move ran
  | submitSolutionWithPayee orderId solutions payee =>
    obtain ⟨solver, record, _, shown, move⟩ := submission_accepted rfl ran
    rw [shown]
    exact move

/-- Unlabelled moves in sequence. -/
abbrev Moves : State T → State T → Prop := Relation.ReflTransGen fun before after => Move before none after

/-- The storage with the cursor at `bucket`: during the hook the loop variable
runs ahead of the stored cursor. -/
def State.atBucket (s : State T) (bucket : Nat) : State T := { s with nextExpiryBucket := bucket }

private theorem finaliseOrder_move {bucket : Nat} {orderId : Nat} (due : Due (s.atBucket bucket) orderId)
    (ran : finaliseOrder { s with ordersExpiringAt := s.ordersExpiringAt.remove bucket orderId } orderId =
      .ok after) :
    Move (s.atBucket bucket) none (after.atBucket bucket) ∧ after.blockNumber = s.blockNumber ∧
      after.ordersExpiringAt = s.ordersExpiringAt.remove bucket orderId := by
  unfold finaliseOrder at ran
  split at ran
  · rename_i missing
    rw [pure_success] at ran
    subst ran
    refine ⟨.drops due ?_, rfl, rfl⟩
    intro order held
    rw [show (s.atBucket bucket).jobOrders.lookup orderId = none from missing] at held
    cases held
  rename_i order held
  replace held : (s.atBucket bucket).jobOrders.lookup orderId = some order := held
  split at ran
  · rename_i unopened
    rw [pure_success] at ran
    subst ran
    refine ⟨.drops due ?_, rfl, rfl⟩
    intro other same
    rw [held] at same
    cases same
    exact unopened
  rename_i opened
  have opened : order.status = .opened := not_not.mp opened
  dsimp only at ran
  split at ran
  · rename_i unsolved
    rw [pure_success] at ran
    subst ran
    exact ⟨.expires due held opened (.unsolved unsolved), rfl, rfl⟩
  rename_i counted
  have solved : 0 < order.solutionCount := Nat.pos_of_ne_zero counted
  simp only [announceResult] at ran
  rw [computePayouts_congr (b := s.atBucket bucket) (y := order)] at ran
  case front => rfl
  case top => rfl
  case resolution => rfl
  case reward => rfl
  split at ran
  · rename_i payouts computed
    simp only [winnerSummariesFromPayouts, bind_success, expect_success, BoundedVec.tryFrom_eq_some,
      pure_success] at ran
    obtain ⟨winners, summary, rfl⟩ := ran
    cases sent : order.delivery with
    | onChainOnly =>
      simp only [persistResultIfNeeded, emitResultReady]
      rw [← sent]
      exact ⟨.expires due held opened (.onChain solved payouts computed sent), rfl, rfl⟩
    | callback endpoint =>
      simp only [persistResultIfNeeded, emitResultReady]
      rw [← sent]
      exact ⟨.expires due held opened (.called solved payouts winners computed summary endpoint sent), rfl, rfl⟩
    | callbackWithPoll endpoint =>
      simp only [persistResultIfNeeded, emitResultReady]
      rw [← sent]
      exact ⟨.expires due held opened (.polled solved payouts winners computed summary endpoint sent), rfl, rfl⟩
  · rename_i reason missing
    rw [pure_success] at ran
    subst ran
    exact ⟨.expires due held opened (.stuck solved reason missing), rfl, rfl⟩
  · cases ran

/-- Draining a list of a bucket's entries is one expiry move for each. -/
private theorem drainEntries_moves {bucket : Nat} (reached : bucket ≤ s.blockNumber) (ids : List Nat)
    (distinct : ids.Nodup) (listed : ∀ orderId ∈ ids, (s.ordersExpiringAt.get bucket orderId).isSome)
    (ran : drainEntries bucket ids s = .ok after) :
    Moves (s.atBucket bucket) (after.atBucket bucket) ∧ after.blockNumber = s.blockNumber ∧
      ∀ orderId, after.ordersExpiringAt.get bucket orderId =
        if orderId ∈ ids then none else s.ordersExpiringAt.get bucket orderId := by
  induction ids generalizing s with
  | nil =>
    rw [drainEntries, pure_success] at ran
    subst ran
    exact ⟨.refl, rfl, fun orderId => by simp⟩
  | cons first rest ih =>
    simp only [drainEntries, bind_success] at ran
    obtain ⟨middle, finalised, ran⟩ := ran
    have due : Due (s.atBucket bucket) first := ⟨reached, listed first List.mem_cons_self⟩
    obtain ⟨move, sameBlock, removed⟩ := finaliseOrder_move due finalised
    have others : ∀ orderId ∈ rest, (middle.ordersExpiringAt.get bucket orderId).isSome := by
      intro orderId member
      have different : orderId ≠ first := fun same => (List.nodup_cons.mp distinct).1 (same ▸ member)
      rw [removed, get_remove, if_neg (fun both => different both.2)]
      exact listed orderId (List.mem_cons_of_mem _ member)
    obtain ⟨moves, lastBlock, drained⟩ := ih (sameBlock ▸ reached) (List.nodup_cons.mp distinct).2 others ran
    refine ⟨.head move moves, lastBlock.trans sameBlock, ?_⟩
    intro orderId
    rw [drained, removed, get_remove]
    by_cases same : orderId = first
    · simp [same]
    · simp [same]

/-- The bucket loop: drain the bucket at the cursor, then advance past it only
when nothing of it is left. -/
private theorem drainBuckets_moves {now : Nat} (bucketBudget orderBudget : Nat) (bucket : Nat)
    (counts : Nat × Nat) {final : State T × Nat × Nat}
    (ran : drainBuckets now bucketBudget orderBudget bucket counts s = .ok final) (present : s.blockNumber = now) :
    Moves (s.atBucket bucket) final.1 := by
  induction bucketBudget generalizing s orderBudget bucket counts with
  | zero =>
    rw [drainBuckets, pure_success] at ran
    subst ran
    exact .refl
  | succ bucketBudget ih =>
    obtain ⟨finalised, visited⟩ := counts
    rw [drainBuckets] at ran
    split at ran
    · rename_i due
      simp only [bind_success] at ran
      obtain ⟨middle, entries, ran⟩ := ran
      have reached : bucket ≤ s.blockNumber := present ▸ due.1
      have keysOf : ∀ orderId, orderId ∈ T.iterKeys (s.ordersExpiringAt bucket).keys ↔
          (s.ordersExpiringAt.get bucket orderId).isSome := by
        intro orderId
        rw [(T.iterKeys_perm _).mem_iff, StorageMap.mem_keys_iff_lookup, Option.isSome_iff_exists]
        rfl
      have unique : (T.iterKeys (s.ordersExpiringAt bucket).keys).Nodup :=
        (T.iterKeys_perm _).nodup_iff.mpr (s.ordersExpiringAt bucket).keys_nodup
      obtain ⟨moves, sameBlock, drained⟩ := drainEntries_moves reached _ (unique.sublist (List.take_sublist _ _))
        (fun orderId member => (keysOf orderId).mp (List.mem_of_mem_take member)) entries
      split at ran
      · rw [pure_success] at ran
        subst ran
        exact moves
      · rename_i fewer
        -- Fewer ids than the budget were taken, so the take kept every key.
        have whole : (T.iterKeys (s.ordersExpiringAt bucket).keys).take orderBudget =
            T.iterKeys (s.ordersExpiringAt bucket).keys := by
          apply List.take_of_length_le
          rw [List.length_take] at fewer
          omega
        have empty : ∀ orderId, (middle.atBucket bucket).ordersExpiringAt.get bucket orderId = none := by
          intro orderId
          rw [show (middle.atBucket bucket).ordersExpiringAt = middle.ordersExpiringAt from rfl, drained, whole]
          by_cases member : orderId ∈ T.iterKeys (s.ordersExpiringAt bucket).keys
          · rw [if_pos member]
          · rw [if_neg member]
            exact Option.not_isSome_iff_eq_none.mp fun found => member ((keysOf orderId).mpr found)
        have advance : Move (middle.atBucket bucket) none
            (middle.atBucket (saturatingAdd T.maxBlockNumber bucket 1)) :=
          .advances (sameBlock ▸ reached : bucket ≤ middle.blockNumber) empty
        exact (moves.tail advance).trans (ih _ _ _ ran (sameBlock.trans present))
    · rw [pure_success] at ran
      subst ran
      exact .refl

/-- A block is a tick followed by expiry moves. -/
theorem nextBlock_moves (ran : nextBlock s = .ok after) : Moves s after := by
  simp only [nextBlock, onInitialize, finaliseExpiredOrders, bind_success, pure_success] at ran
  obtain ⟨final, drained, rfl⟩ := ran
  have tick : Move s none { s with blockNumber := s.blockNumber + 1 } := .ticks
  have drains := drainBuckets_moves _ _ _ _ drained rfl
  exact .head tick drains

end Inversion

/-- Everything an observer learned from a run, oldest first. -/
def labels (trace : List (Executed T)) : List (Label T) := trace.filterMap Executed.label

/-- No move deletes an order. -/
theorem Move.size_le {s after : State T} {label : Option (Label T)} (move : Move s label after) :
    s.jobOrders.size ≤ after.jobOrders.size := by
  cases move with
  | opens => exact StorageMap.size_le_size_insert _ _ _
  | accepts => exact StorageMap.size_le_size_insert _ _ _
  | closes => exact StorageMap.size_le_size_insert _ _ _
  | expires => exact StorageMap.size_le_size_insert _ _ _
  | idles | purges | rebalances | ticks | drops | advances => exact Nat.le_refl _

theorem Move.block_le {s after : State T} {label : Option (Label T)} (move : Move s label after) :
    s.blockNumber ≤ after.blockNumber := by
  cases move <;> simp

theorem Move.fewOrders_before {s after : State T} {label : Option (Label T)} (move : Move s label after)
    (few : FewOrders after) : FewOrders s := Nat.lt_of_le_of_lt move.size_le few

/-- One step of the machine is a sequence of unlabelled moves, or one labelled
move whose label is the one reported. -/
theorem step_moves (s : State T) (step : Step T) :
    (labels ((machine T).report s step) = [] ∧ Moves s ((machine T).next s step)) ∨
      ∃ label, labels ((machine T).report s step) = Option.toList label ∧ Move s label ((machine T).next s step) := by
  cases step with
  | dispatch env origin call =>
    cases ran : execute s env origin call with
    | error fault =>
      left
      simp only [machine, ran, committed]
      exact ⟨rfl, .refl⟩
    | ok after =>
      right
      simp only [machine, ran, committed]
      refine ⟨_, ?_, execute_move ran⟩
      cases shown : Executed.label ⟨origin, call, s, after⟩ with
      | none => simp [labels, shown]
      | some label => simp [labels, shown]
  | nextBlock =>
    left
    cases ran : nextBlock s with
    | error fault =>
      simp only [machine, ran, committed]
      exact ⟨rfl, .refl⟩
    | ok after =>
      simp only [machine, ran, committed]
      exact ⟨rfl, nextBlock_moves ran⟩
  | external free others => exact .inr ⟨none, rfl, .rebalances⟩

theorem Moves.fewOrders_before {s after : State T} (moves : Moves s after) (few : FewOrders after) : FewOrders s := by
  induction moves with
  | refl => exact few
  | tail _ move ih => exact ih (move.fewOrders_before few)

/-- A chain that has few orders now had few orders before. -/
theorem fewOrders_earlier {s₀ : State T} {earlier later : List (Step T)}
    (few : FewOrders ((machine T).run s₀ (earlier ++ later))) : FewOrders ((machine T).run s₀ earlier) := by
  rw [Machine.run_append] at few
  refine (machine T).guard_backwards ?_ few
  intro s step after
  rcases step_moves s step with ⟨_, moves⟩ | ⟨_, _, move⟩
  · exact moves.fewOrders_before after
  · exact move.fewOrders_before after

section Runs
variable {guard : State T → Prop} {relates : List (Label T) → State T → Prop} {s₀ : State T}

/-- What every move keeps, unlabelled moves in sequence keep. -/
theorem moves_relation (backwards : ∀ s label after, Move s label after → guard after → guard s)
    (preserved : ∀ s label after seen, Move s label after → guard after → relates seen s →
      relates (seen ++ label.toList) after) {s after : State T} (moves : Moves s after) (seen : List (Label T)) :
    guard after → (guard s ∧ (relates seen s → relates seen after)) := by
  induction moves with
  | refl => exact fun held => ⟨held, id⟩
  | tail _ move ih =>
    intro held
    obtain ⟨start, before⟩ := ih (backwards _ _ _ move held)
    refine ⟨start, fun related => ?_⟩
    simpa using preserved _ _ _ seen move held (before related)

/-- The run rule for the order book: a relation between what was observed and
the storage holds after every run when it holds at the start and every move
keeps it. -/
theorem run_by_moves (backwards : ∀ s label after, Move s label after → guard after → guard s)
    (initially : relates [] s₀)
    (preserved : ∀ s label after seen, Move s label after → guard after → relates seen s →
      relates (seen ++ label.toList) after)
    (steps : List (Step T)) (held : guard ((machine T).run s₀ steps)) :
    relates (labels ((machine T).trace s₀ steps)) ((machine T).run s₀ steps) := by
  refine @Machine.run_relation _ _ _ (machine T) guard (fun reports s => relates (labels reports) s) s₀ ?_ initially
    ?_ steps held
  · intro s step after
    rcases step_moves s step with ⟨_, moves⟩ | ⟨label, _, move⟩
    · exact (moves_relation backwards preserved moves [] after).1
    · exact backwards _ _ _ move after
  · intro s reports step before after
    have extended : labels (reports ++ (machine T).report s step) =
        labels reports ++ labels ((machine T).report s step) := List.filterMap_append
    rw [extended]
    rcases step_moves s step with ⟨silent, moves⟩ | ⟨label, shown, move⟩
    · rw [silent, List.append_nil]
      exact (moves_relation backwards preserved moves _ after).2 before
    · rw [shown]
      exact preserved _ _ _ _ move after before

end Runs

end QuipValidator.Mempool
