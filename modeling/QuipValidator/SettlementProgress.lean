import QuipValidator.MempoolRecords

/-! No reward is stuck. Once an order has expired its reward can be moved: an
unsolved order by its proposer, without any condition, and a solved one by
anybody, unless the VM or the currency refuses. -/
namespace QuipValidator.Mempool
open Fallible

variable {T : Config} {s after : State T} {env : Env T} {origin : Origin T}

/-- The currency refuses none of the transfers a payout list asks for. -/
def Transferable (env : Env T) (proposer : T.AccountId) (payouts : List (Payout T)) : Prop :=
  ∀ payout ∈ payouts, payout.2.1 ≠ 0 → env.canTransfer proposer payout.1 payout.2.1 = true

/-- A transfer that is paid for leaves the rest of the money where it was. -/
private theorem transfer_leaves {balances moved : Balances T} {source dest : T.AccountId} {amount : Nat}
    (ran : balances.transfer env source dest amount = .ok moved) : balances.free source - amount ≤ moved.free source := by
  simp only [Balances.transfer, bind_success, pure_success] at ran
  obtain ⟨_, _, rfl⟩ := ran
  simp only [Balances.set, if_true]
  split
  · rename_i same
    subst same
    simp
  · exact Nat.le_refl _

private theorem transfer_runs {balances : Balances T} {source dest : T.AccountId} {amount : Nat}
    (funded : amount ≤ balances.free source) :
    (∃ moved, balances.transfer env source dest amount = .ok moved) ↔ env.canTransfer source dest amount = true := by
  simp only [Balances.transfer, bind_success, ensure_success, pure_success]
  constructor
  · rintro ⟨_, _, ⟨_, allowed⟩, _⟩
    exact allowed
  · intro allowed
    exact ⟨_, (), ⟨funded, allowed⟩, rfl⟩

/-- Payouts the proposer can pay for go through exactly when the currency refuses none of them. -/
theorem payWinners_runs {orderId : Nat} {proposer : T.AccountId} (payouts : List (Payout T))
    (funded : totalPaid payouts ≤ s.balances.free proposer) :
    (∃ after, payWinners env orderId proposer payouts s = .ok after) ↔ Transferable env proposer payouts := by
  induction payouts generalizing s with
  | nil =>
    constructor
    · intro _ payout member
      cases member
    · exact fun _ => ⟨s, rfl⟩
  | cons payout rest ih =>
    obtain ⟨winner, amount, energy⟩ := payout
    rw [totalPaid_cons] at funded
    have affordable : amount ≤ s.balances.free proposer := by omega
    simp only [payWinners]
    by_cases zero : amount = 0
    · rw [if_pos zero, ih (by omega)]
      constructor
      · intro allowed payout member positive
        rcases List.mem_cons.mp member with rfl | later
        · exact absurd zero positive
        · exact allowed payout later positive
      · exact fun allowed payout member => allowed payout (List.mem_cons_of_mem _ member)
    · rw [if_neg zero]
      have step : ∀ moved, s.balances.transfer env proposer winner amount = .ok moved →
          totalPaid rest ≤ moved.free proposer := by
        intro moved ran
        have left := transfer_leaves ran
        omega
      constructor
      · rintro ⟨after, ran⟩
        obtain ⟨moved, transferred, ran⟩ := bind_success.mp ran
        have others := (ih (step moved transferred)).mp ⟨after, ran⟩
        intro payout member positive
        rcases List.mem_cons.mp member with rfl | later
        · exact (transfer_runs affordable).mp ⟨moved, transferred⟩
        · exact others payout later positive
      · intro allowed
        obtain ⟨moved, transferred⟩ := (transfer_runs affordable).mpr (allowed _ List.mem_cons_self zero)
        have funds := step moved transferred
        simp only [transferred, ok_bind]
        exact (ih funds).mpr fun payout member => allowed payout (List.mem_cons_of_mem _ member)

/-- A reclaim by the proposer of an unsolved order returns the whole reward. -/
private theorem reclaim_succeeds (escrow : Escrow s) {orderId : Nat} {order : JobOrder T}
    (held : s.jobOrders.lookup orderId = some order) (expired : order.status = .expired)
    (unsolved : order.solutionCount = 0) :
    ∃ after, reclaimOrder s (.signed order.proposer) orderId = .ok after ∧
      after.statusOf orderId = some .closed ∧
      after.balances.free order.proposer = s.balances.free order.proposer + order.reward.val := by
  have unclosed : order.status ≠ .closed := by
    rw [expired]
    decide
  have whole := unreserve_finds escrow held unclosed
  obtain ⟨enough, free, released⟩ := unreserve_whole whole
  refine ⟨_, bind_success.mpr ⟨order.proposer, rfl, bind_success.mpr ⟨order, okOr_success.mpr held,
    bind_success.mpr ⟨(), ensure_success.mpr rfl, bind_success.mpr ⟨(), ensure_success.mpr unclosed,
    bind_success.mpr ⟨(), ensure_success.mpr expired, bind_success.mpr ⟨(), ensure_success.mpr unsolved,
    bind_success.mpr ⟨(), ensure_success.mpr whole, rfl⟩⟩⟩⟩⟩⟩⟩, ?_, ?_⟩
  · rw [State.statusOf, closeOrder_effect _ orderId order rfl]
    simp [State.deposit]
  · rw [closeOrder_effect _ orderId order rfl]
    simp [State.deposit, Balances.set, Nat.min_eq_left enough]

theorem returned_success {α : Type} {result : Except Error α} {value : α} :
    returned result = .ok value ↔ result = .ok value := by
  cases result <;> simp [returned, fail]

/-- A claim of a solved order fails only where the VM or the currency refuses. -/
private theorem claim_succeeds_iff (escrow : Escrow s) {orderId : Nat} {order : JobOrder T} {spec : JobSpec T}
    (held : s.jobOrders.lookup orderId = some order) (known : s.jobSpecs.lookup order.specId = some spec)
    (expired : order.status = .expired) (solved : 0 < order.solutionCount) {payouts : List (Payout T)}
    {winners : WinnerSummaries T} (computed : computePayouts s orderId order = .ok payouts)
    (summary : winnerSummariesFromPayouts payouts = .ok winners) (env : Env T) (who : T.AccountId) :
    (∃ after, claimReward s env (.signed who) orderId = .ok after) ↔
      env.vm.validateResult order.specId spec.validationProgram spec.transformProgram winners.val = .ok () ∧
        Transferable env order.proposer payouts := by
  have unclosed : order.status ≠ .closed := by
    rw [expired]
    decide
  have whole := unreserve_finds escrow held unclosed
  have funded : totalPaid payouts ≤ (s.balances.unreserve order.proposer order.reward.val).2.free order.proposer := by
    obtain ⟨enough, _⟩ := unreserve_whole whole
    rw [computePayouts_total computed]
    simp only [Balances.unreserve, Balances.set, if_true, Nat.min_eq_left enough]
    exact Nat.le_add_left _ _
  have pays := @payWinners_runs T { s with balances := (s.balances.unreserve order.proposer order.reward.val).2 } env
    orderId order.proposer payouts funded
  constructor
  · rintro ⟨after, ran⟩
    simp only [claimReward, bind_success, okOr_success, ensure_success, returned_success] at ran
    obtain ⟨_, _, _, heldAgain, _, knownAgain, _, _, _, _, _, _, _, computedAgain, _, summaryAgain, _, validated, _, _,
      paid, ran, _⟩ := ran
    rw [held] at heldAgain
    cases heldAgain
    rw [known] at knownAgain
    cases knownAgain
    rw [computed] at computedAgain
    cases computedAgain
    rw [summary] at summaryAgain
    cases summaryAgain
    exact ⟨validated, pays.mp ⟨paid, ran⟩⟩
  · rintro ⟨validated, transferable⟩
    obtain ⟨paid, ran⟩ := pays.mpr transferable
    exact ⟨_, bind_success.mpr ⟨who, rfl, bind_success.mpr ⟨order, okOr_success.mpr held,
      bind_success.mpr ⟨spec, okOr_success.mpr known, bind_success.mpr ⟨(), ensure_success.mpr unclosed,
      bind_success.mpr ⟨(), ensure_success.mpr expired, bind_success.mpr ⟨(), ensure_success.mpr solved,
      bind_success.mpr ⟨payouts, computed, bind_success.mpr ⟨winners, summary,
      bind_success.mpr ⟨(), returned_success.mpr validated, bind_success.mpr ⟨(), ensure_success.mpr whole,
      bind_success.mpr ⟨paid, ran, rfl⟩⟩⟩⟩⟩⟩⟩⟩⟩⟩⟩⟩

/-- No reward is stuck. In every reachable state an expired order without solutions is
reclaimed by its proposer unconditionally, with the whole reward back in the free
balance; one with solutions has payouts that add up to its reward, and a claim by
anybody succeeds exactly when the VM accepts the winners and the currency refuses
none of the transfers. -/
theorem expired_orders_can_be_settled {s₀ : State T} (fresh : NoOrders s₀) (specs : FreshSpecs s₀)
    (steps : List (Step T)) (few : FewOrders ((machine T).run s₀ steps)) {orderId : Nat} {order : JobOrder T}
    (held : ((machine T).run s₀ steps).jobOrders.lookup orderId = some order) (expired : order.status = .expired) :
    let s := (machine T).run s₀ steps
    (order.solutionCount = 0 → ∃ after, reclaimOrder s (.signed order.proposer) orderId = .ok after ∧
      after.statusOf orderId = some .closed ∧
      after.balances.free order.proposer = s.balances.free order.proposer + order.reward.val) ∧
    (0 < order.solutionCount → ∃ spec payouts winners, s.jobSpecs.lookup order.specId = some spec ∧
      computePayouts s orderId order = .ok payouts ∧ totalPaid payouts = order.reward.val ∧
      winnerSummariesFromPayouts payouts = .ok winners ∧
      ∀ env who, (∃ after, claimReward s env (.signed who) orderId = .ok after) ↔
        env.vm.validateResult order.specId spec.validationProgram spec.transformProgram winners.val = .ok () ∧
          Transferable env order.proposer payouts) := by
  have escrow := run_escrow fresh steps few
  have book := specs_booked fresh specs steps few
  have payable := (run_books fresh steps few).payable
  refine ⟨reclaim_succeeds escrow held expired, fun solved => ?_⟩
  obtain ⟨spec, known⟩ := book.known orderId order held
  obtain ⟨payouts, winners, computed, summary⟩ := payable orderId order held solved
  exact ⟨spec, payouts, winners, known, computed, computePayouts_total computed, summary, fun env who =>
    claim_succeeds_iff escrow held known expired solved computed summary env who⟩

/-- The opening and the block that expires its order, which has one solution. -/
def tinyExpired : List (Step tinyConfig) := tinyOpening ++ [.nextBlock]

theorem expired_orders_can_be_settled_tiny :
    ∃ order payouts, ((machine tinyConfig).run tinyGenesis tinyExpired).jobOrders.lookup 0 = some order ∧
      totalPaid payouts = order.reward.val ∧
      computePayouts ((machine tinyConfig).run tinyGenesis tinyExpired) 0 order = .ok payouts := by
  have specs : FreshSpecs tinyGenesis := by
    intro specId spec held
    cases held
  have few : FewOrders ((machine tinyConfig).run tinyGenesis tinyExpired) := by
    unfold FewOrders
    decide +kernel
  have status : ((machine tinyConfig).run tinyGenesis tinyExpired).statusOf 0 = some .expired := by decide +kernel
  have count : (((machine tinyConfig).run tinyGenesis tinyExpired).jobOrders.lookup 0).map JobOrder.solutionCount =
      some 1 := by
    decide +kernel
  obtain ⟨order, held, expired⟩ := Option.map_eq_some_iff.mp status
  rw [held, Option.map_some, Option.some.injEq] at count
  obtain ⟨spec, payouts, winners, _, computed, total, _⟩ :=
    (expired_orders_can_be_settled tinyGenesis_noOrders specs tinyExpired few held expired).2 (by rw [count]; decide)
  exact ⟨order, payouts, held, total, computed⟩

end QuipValidator.Mempool
