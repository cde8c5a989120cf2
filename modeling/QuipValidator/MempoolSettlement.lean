import QuipValidator.MempoolSubmission

/-! Payouts, the expiry hook, and the two settlement calls. `finalise_order`
announces the payouts `claim_reward` later pays; both read them from the ranking
storage through `compute_payouts`. -/
namespace QuipValidator.Mempool
open Fallible

variable {T : Config}

def computePayouts (s : State T) (orderId : Nat) (order : JobOrder T) :
    Fallible DispatchError (List (Payout T)) :=
  match order.resolution with
  | .singleBest => do
    let front ← okOr (s.orderFrontRunner.lookup orderId) Error.noSolutionsAccepted
    pure (singleBestPayouts front order.reward.val)
  | .topNEqual _ => do
    let ranked := (s.topSolvers orderId).val
    ensure (ranked ≠ []) Error.noSolutionsAccepted
    pure (topNEqualPayouts ranked order.reward.val)
  | .topNWeighted _ => do
    let ranked := (s.topSolvers orderId).val
    ensure (ranked ≠ []) Error.noSolutionsAccepted
    pure (topNWeightedPayouts ranked order.reward.val)

/-- The payouts depend on the ranking of the order, its resolution and its reward only. -/
theorem computePayouts_congr {a b : State T} {orderId : Nat} {x y : JobOrder T}
    (front : a.orderFrontRunner.lookup orderId = b.orderFrontRunner.lookup orderId)
    (top : a.topSolvers orderId = b.topSolvers orderId) (resolution : x.resolution = y.resolution)
    (reward : x.reward = y.reward) : computePayouts a orderId x = computePayouts b orderId y := by
  unfold computePayouts
  rw [front, top, resolution, reward]

theorem computePayouts_safe {s : State T} {orderId : Nat} {order : JobOrder T} :
    Safe (computePayouts s orderId order) fun _ => True := by
  unfold computePayouts
  split
  · exact safe_bind safe_okOr fun _ _ => safe_pure trivial
  · exact safe_bind safe_ensure fun _ _ => safe_pure trivial
  · exact safe_bind safe_ensure fun _ _ => safe_pure trivial

def summarise (payout : Payout T) : WinnerSummary T :=
  { solver := payout.1, energyMilli := payout.2.2, amount := payout.2.1 }

def winnerSummariesFromPayouts (payouts : List (Payout T)) : Fallible DispatchError (WinnerSummaries T) :=
  expect (BoundedVec.tryFrom MAX_REWARD_WINNERS (payouts.map summarise))
    "reward resolution limits payouts to MAX_REWARD_WINNERS"

/-- No resolution pays more solvers than the winners list holds. -/
theorem winnerSummaries_runs {s : State T} {orderId : Nat} {order : JobOrder T} {payouts : List (Payout T)}
    (computed : computePayouts s orderId order = .ok payouts) :
    ∃ winners, winnerSummariesFromPayouts payouts = .ok winners := by
  have ranked : (payouts.map Prod.fst).length ≤ MAX_REWARD_WINNERS := by
    unfold computePayouts at computed
    cases shape : order.resolution with
    | singleBest =>
      simp only [shape, bind_success] at computed
      obtain ⟨front, _, same⟩ := computed
      cases same
      simp [singleBestPayouts, MAX_REWARD_WINNERS]
    | topNEqual n =>
      simp only [shape, bind_success] at computed
      obtain ⟨_, _, same⟩ := computed
      cases same
      rw [topNEqualPayouts_solvers, List.length_map]
      exact (s.topSolvers orderId).property
    | topNWeighted n =>
      simp only [shape, bind_success] at computed
      obtain ⟨_, _, same⟩ := computed
      cases same
      rw [topNWeightedPayouts_solvers, List.length_map]
      exact (s.topSolvers orderId).property
  have few : (payouts.map summarise).length ≤ MAX_REWARD_WINNERS := by
    simpa only [List.length_map] using ranked
  exact ⟨⟨_, few⟩, by rw [winnerSummariesFromPayouts, BoundedVec.tryFrom_of_le few]; rfl⟩

def emitResultReady (s : State T) (orderId : Nat) (delivery : ResultDelivery) (winners : WinnerSummaries T) :
    State T :=
  match delivery with
  | .onChainOnly => s
  | .callback endpoint | .callbackWithPoll endpoint => s.deposit (.resultReady orderId endpoint winners)

def persistResultIfNeeded (s : State T) (orderId : Nat) (order : JobOrder T) (winners : WinnerSummaries T) :
    State T :=
  match order.delivery with
  | .callbackWithPoll endpoint =>
    let stored : StoredResult T :=
      { endpoint, resolution := order.resolution, settledAt := s.blockNumber, winners }
    { s with orderResults := s.orderResults.insert orderId stored }
  | .onChainOnly | .callback _ => s

/-- Announce the payouts of an order that has just been marked expired. -/
def announceResult (s : State T) (orderId : Nat) (order : JobOrder T) : Fallible DispatchError (State T) :=
  match computePayouts s orderId order with
  | .ok payouts => do
    let winners ← winnerSummariesFromPayouts payouts
    pure (emitResultReady (persistResultIfNeeded s orderId order winners) orderId order.delivery winners)
  | .error (.error _) => pure { s with logs := s.logs ++ ["finalise_order: payouts unavailable"] }
  | .error (.panic message) => .error (.panic message)

def finaliseOrder (s : State T) (orderId : Nat) : Fallible DispatchError (State T) :=
  match s.jobOrders.lookup orderId with
  | none => pure s
  | some order =>
    if order.status ≠ .opened then pure s
    else
      let order := { order with status := .expired }
      let s := { s with
        jobOrders := s.jobOrders.insert orderId order
        openOrders := s.openOrders.erase orderId }
      let s := s.deposit (.orderExpired orderId)
      if order.solutionCount = 0 then pure s else announceResult s orderId order

/-- Announcing always completes, and leaves the expiry index and its cursor alone. -/
private theorem announceResult_runs (s : State T) (orderId : Nat) (order : JobOrder T) :
    ∃ after, announceResult s orderId order = .ok after ∧ after.ordersExpiringAt = s.ordersExpiringAt ∧
      after.nextExpiryBucket = s.nextExpiryBucket := by
  unfold announceResult
  split
  · rename_i payouts computed
    obtain ⟨winners, summary⟩ := winnerSummaries_runs computed
    refine ⟨_, bind_success.mpr ⟨winners, summary, rfl⟩, ?_, ?_⟩
    all_goals cases sent : order.delivery <;> simp [emitResultReady, persistResultIfNeeded, sent, State.deposit]
  · exact ⟨_, rfl, rfl, rfl⟩
  · rename_i message computed
    -- No payout rule panics.
    exact absurd computed (computePayouts_safe.no_panic message)

/-- Finalising an order always completes, and leaves the expiry index and its cursor alone. -/
theorem finaliseOrder_runs (s : State T) (orderId : Nat) :
    ∃ after, finaliseOrder s orderId = .ok after ∧ after.ordersExpiringAt = s.ordersExpiringAt ∧
      after.nextExpiryBucket = s.nextExpiryBucket := by
  unfold finaliseOrder
  split
  · exact ⟨s, rfl, rfl, rfl⟩
  split
  · exact ⟨s, rfl, rfl, rfl⟩
  dsimp only
  split
  · exact ⟨_, rfl, rfl, rfl⟩
  · exact announceResult_runs _ _ _

/-- `for order_id in order_ids` of one bucket. -/
def drainEntries (bucket : Nat) : List Nat → State T → Fallible DispatchError (State T)
  | [], s => pure s
  | orderId :: rest, s => do
    let s ← finaliseOrder { s with ordersExpiringAt := s.ordersExpiringAt.remove bucket orderId } orderId
    drainEntries bucket rest s

/-- The `while` loop of `finalise_expired_orders`; the first argument is the
bucket budget. Returns the orders finalised and the buckets visited. -/
def drainBuckets (now : Nat) : Nat → Nat → Nat → Nat × Nat → State T →
    Fallible DispatchError (State T × Nat × Nat)
  | 0, _, bucket, counts, s => pure ({ s with nextExpiryBucket := bucket }, counts)
  | bucketBudget + 1, orderBudget, bucket, (finalised, visited), s =>
    if bucket ≤ now ∧ 0 < orderBudget then do
      let orderIds := (T.iterKeys (s.ordersExpiringAt bucket).keys).take orderBudget
      let taken := orderIds.length
      let s ← drainEntries bucket orderIds s
      let counts := (saturatingAdd u32Max finalised taken, saturatingAdd u64Max visited 1)
      if taken = orderBudget then pure ({ s with nextExpiryBucket := bucket }, counts)
      else drainBuckets now bucketBudget (orderBudget - taken) (saturatingAdd T.maxBlockNumber bucket 1) counts s
    else pure ({ s with nextExpiryBucket := bucket }, finalised, visited)

def finaliseExpiredOrders (s : State T) (now : Nat) : Fallible DispatchError (State T × Nat × Nat) :=
  drainBuckets now MAX_FINALISED_ORDERS_PER_BLOCK MAX_FINALISED_ORDERS_PER_BLOCK s.nextExpiryBucket (0, 0) s

def onInitialize (s : State T) (now : Nat) : Fallible DispatchError (State T) := do
  let (s, _) ← finaliseExpiredOrders s now
  pure s

/-- Schedule one open order, the loop body of `index_open_orders_for_expiry`. -/
def indexOpenOrder (s : State T) (orderId : Nat) : State T :=
  match s.jobOrders.lookup orderId with
  | none => s
  | some order => if order.status ≠ .opened then s else scheduleExpiry s orderId order.expiry

/-- The v2 -> v3 migration step. -/
def indexOpenOrdersForExpiry (s : State T) : State T :=
  let now := s.blockNumber
  let s := (T.iterKeys s.openOrders.keys).foldl indexOpenOrder s
  { s with nextExpiryBucket := saturatingAdd T.maxBlockNumber now 1 }

/-- The transfer loop of `claim_reward`. -/
def payWinners (env : Env T) (orderId : Nat) (proposer : T.AccountId) :
    List (Payout T) → State T → Fallible DispatchError (State T)
  | [], s => pure s
  | (winner, payout, _) :: rest, s =>
    if payout = 0 then payWinners env orderId proposer rest s
    else do
      let balances ← s.balances.transfer env proposer winner payout
      let s := { s with
        balances
        solvers := mutateSome s.solvers winner fun solver =>
          { solver with rewardsEarned := saturatingAdd u128Max solver.rewardsEarned payout } }
      payWinners env orderId proposer rest (s.deposit (.rewardClaimed orderId winner payout))

/-- The writes both settlement calls make once the funds have moved. -/
def closeOrder (s : State T) (orderId : Nat) (order : JobOrder T) : State T :=
  let s := { s with
    jobOrders := s.jobOrders.insert orderId { order with status := .closed }
    openOrders := s.openOrders.erase orderId }
  releaseProposerSlot s order.proposer orderId

/-- Settle an expired solved order. Any signed account may call. -/
def claimReward (s : State T) (env : Env T) (origin : Origin T) (orderId : Nat) :
    Fallible DispatchError (State T) := do
  let _ ← ensureSigned origin
  let order ← okOr (s.jobOrders.lookup orderId) Error.orderNotFound
  let spec ← okOr (s.jobSpecs.lookup order.specId) Error.jobSpecNotFound
  ensure (order.status ≠ .closed) Error.alreadyClaimed
  ensure (order.status = .expired) Error.orderNotExpired
  ensure (0 < order.solutionCount) Error.noSolutionsAccepted
  let payouts ← computePayouts s orderId order
  let winners ← winnerSummariesFromPayouts payouts
  returned (env.vm.validateResult order.specId spec.validationProgram spec.transformProgram winners.val)
  let (missing, balances) := s.balances.unreserve order.proposer order.reward.val
  ensure (missing = 0) Error.rewardReserveMissing
  let s ← payWinners env orderId order.proposer payouts { s with balances }
  let s := closeOrder s orderId order
  let s := { s with jobSpecs := mutateSome s.jobSpecs order.specId fun spec =>
    { spec with successfulOrders := saturatingAdd u64Max spec.successfulOrders 1 } }
  pure (s.deposit (.orderClosed orderId true))

def reclaimOrder (s : State T) (origin : Origin T) (orderId : Nat) : Fallible DispatchError (State T) := do
  let caller ← ensureSigned origin
  let order ← okOr (s.jobOrders.lookup orderId) Error.orderNotFound
  ensure (order.proposer = caller) Error.notProposer
  ensure (order.status ≠ .closed) Error.alreadyClaimed
  ensure (order.status = .expired) Error.orderNotExpired
  ensure (order.solutionCount = 0) Error.noSolutionsAccepted
  let (missing, balances) := s.balances.unreserve caller order.reward.val
  ensure (missing = 0) Error.rewardReserveMissing
  let s := closeOrder { s with balances } orderId order
  let s := s.deposit (.rewardReclaimed orderId caller order.reward.val)
  pure (s.deposit (.orderClosed orderId false))

def purgeResult (s : State T) (origin : Origin T) (orderId : Nat) : Fallible DispatchError (State T) := do
  let _ ← ensureSigned origin
  let stored ← okOr (s.orderResults.lookup orderId) Error.resultNotFound
  let purgeAt := saturatingAdd T.maxBlockNumber stored.settledAt T.resultTtlBlocks
  ensure (purgeAt ≤ s.blockNumber) Error.resultTtlNotElapsed
  let s := { s with orderResults := s.orderResults.erase orderId }
  pure (s.deposit (.resultPurged orderId))

end QuipValidator.Mempool
