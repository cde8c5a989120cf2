import QuipValidator.FrozenOrders
import QuipValidator.EscrowConservation

/-! Announced equals paid. The hook computes the payouts once to announce them
and `claim_reward` computes them again to pay them; both read the ranking of an
order that is frozen by then. The counter, the window and the ranking say
together whether there is anything to pay, so neither computation can fail. -/
namespace QuipValidator.Mempool
open Fallible

variable {T : Config} {s after : State T} {label : Option (Label T)}

section Payouts
variable {orderId : Nat} {order : JobOrder T} {entries : List (Accepted T)}

/-- The winners are the ranked solvers, in the order of the ranking. -/
theorem computePayouts_solvers {payouts : List (Payout T)} (computed : computePayouts s orderId order = .ok payouts) :
    (order.resolution.topN = none → ∃ front, s.orderFrontRunner.lookup orderId = some front ∧
      payouts.map Prod.fst = [front.solver]) ∧
    ∀ n, order.resolution.topN = some n → payouts.map Prod.fst = (s.topSolvers orderId).val.map RankedSolver.solver := by
  unfold computePayouts at computed
  cases shape : order.resolution with
  | singleBest =>
    simp only [shape, bind_success, okOr_success] at computed
    obtain ⟨front, held, same⟩ := computed
    cases same
    exact ⟨fun _ => ⟨front, held, rfl⟩, fun n several => (by cases several)⟩
  | topNEqual n =>
    simp only [shape, bind_success] at computed
    obtain ⟨_, _, same⟩ := computed
    cases same
    exact ⟨fun single => (by cases single), fun _ _ => topNEqualPayouts_solvers _ _⟩
  | topNWeighted n =>
    simp only [shape, bind_success] at computed
    obtain ⟨_, _, same⟩ := computed
    cases same
    exact ⟨fun single => (by cases single), fun _ _ => topNWeightedPayouts_solvers _ _⟩

/-- The counter is positive exactly when a submission was accepted. -/
theorem Book.solved_iff (book : Book s orderId order entries) : 0 < order.solutionCount ↔ entries ≠ [] := by
  have sized : 0 < (s.orderSolutions orderId).size ↔ entries ≠ [] := by
    rw [Nat.pos_iff_ne_zero, ne_eq, StorageMap.size_eq_zero_iff]
    constructor
    · rintro occupied rfl
      exact occupied book.solutions
    · intro occupied empty
      obtain ⟨entry, member⟩ := List.exists_mem_of_ne_nil entries occupied
      obtain ⟨last, found, _⟩ := book.improving.last_least member
      have stored := book.solutions entry.solver
      rw [found, show s.orderSolutions.get orderId entry.solver = none from empty entry.solver] at stored
      cases stored
  rw [← sized, book.counted, u32Max]
  omega

/-- The ranking storage the order's resolution reads holds something. -/
def Ranked (s : State T) (orderId : Nat) (order : JobOrder T) : Prop :=
  match order.resolution with
  | .singleBest => (s.orderFrontRunner.lookup orderId).isSome
  | .topNWeighted _ | .topNEqual _ => (s.topSolvers orderId).val ≠ []

private theorem fullRanking_empty_iff : fullRanking entries = [] ↔ entries = [] := by
  constructor
  · intro empty
    by_contra occupied
    obtain ⟨entry, member⟩ := List.exists_mem_of_ne_nil entries occupied
    have named : entry.solver ∈ (fullRanking entries).map RankedSolver.solver :=
      solver_mem_fullRanking.mpr ⟨entry, member, rfl⟩
    rw [empty] at named
    cases named
  · rintro rfl
    rfl

theorem Book.ranked_iff (book : Book s orderId order entries) : Ranked s orderId order ↔ 0 < order.solutionCount := by
  rw [book.solved_iff]
  have several : ∀ n, order.resolution.topN = some n → ((s.topSolvers orderId).val ≠ [] ↔ entries ≠ []) := by
    intro n shape
    obtain ⟨positive, _, listed⟩ := book.lists n shape
    rw [listed, ne_eq, List.take_eq_nil_iff, fullRanking_empty_iff]
    constructor
    · exact fun neither empty => neither (.inr empty)
    · rintro occupied (zero | empty)
      · omega
      · exact occupied empty
  unfold Ranked
  cases shape : order.resolution with
  | singleBest =>
    rcases book.leads (by rw [shape]; rfl) with ⟨missing, empty⟩ | ⟨best, held, earlier, later, split, _⟩
    · simp [missing, empty]
    · simp [held, split]
  | topNWeighted n => exact several n (by rw [shape]; rfl)
  | topNEqual n => exact several n (by rw [shape]; rfl)

/-- A solved order has payouts, few enough for the winners list. -/
theorem Book.payable (book : Book s orderId order entries) (solved : 0 < order.solutionCount) :
    ∃ payouts winners, computePayouts s orderId order = .ok payouts ∧
      winnerSummariesFromPayouts payouts = .ok winners := by
  have occupied := book.ranked_iff.mpr solved
  have computed : ∃ payouts, computePayouts s orderId order = .ok payouts := by
    unfold Ranked at occupied
    unfold computePayouts
    cases shape : order.resolution with
    | singleBest =>
      rw [shape] at occupied
      obtain ⟨front, held⟩ := Option.isSome_iff_exists.mp occupied
      exact ⟨_, by rw [held]; rfl⟩
    | topNWeighted n | topNEqual n =>
      rw [shape] at occupied
      exact ⟨_, by simp only [ensure, if_pos occupied]; rfl⟩
  obtain ⟨payouts, computed⟩ := computed
  obtain ⟨winners, summary⟩ := winnerSummaries_runs computed
  exact ⟨payouts, winners, computed, summary⟩

/-- Every winner has an accepted solution. -/
theorem Book.winner_accepted (book : Book s orderId order entries) {payouts : List (Payout T)}
    (computed : computePayouts s orderId order = .ok payouts) {winner : T.AccountId}
    (paid : winner ∈ payouts.map Prod.fst) : ∃ entry ∈ entries, entry.solver = winner := by
  obtain ⟨single, several⟩ := computePayouts_solvers computed
  cases shape : order.resolution.topN with
  | none =>
    obtain ⟨front, held, listed⟩ := single shape
    rw [listed, List.mem_singleton] at paid
    rcases book.leads shape with ⟨missing, _⟩ | ⟨best, found, earlier, later, split, _⟩
    · rw [missing] at held
      cases held
    · rw [found, Option.some.injEq] at held
      exact ⟨best, by simp [split], by rw [paid, ← held]⟩
  | some n =>
    rw [several n shape, (book.lists n shape).2.2] at paid
    exact solver_mem_fullRanking.mp (((List.take_sublist n _).map _).subset paid)

end Payouts

/-- Every solved order has payouts. -/
def Payable (s : State T) : Prop :=
  ∀ orderId order, s.jobOrders.lookup orderId = some order → 0 < order.solutionCount →
    ∃ payouts winners, computePayouts s orderId order = .ok payouts ∧
      winnerSummariesFromPayouts payouts = .ok winners

theorem Books.payable {seen : List (Label T)} (books : Books seen s) : Payable s :=
  fun orderId order held => (books.kept orderId order held).payable

section Hook

private theorem drainEntries_ok (bucket : Nat) (ids : List Nat) (s : State T) :
    ∃ after, drainEntries bucket ids s = .ok after := by
  induction ids generalizing s with
  | nil => exact ⟨s, rfl⟩
  | cons first rest ih =>
    obtain ⟨middle, finalised, _⟩ :=
      finaliseOrder_runs { s with ordersExpiringAt := s.ordersExpiringAt.remove bucket first } first
    obtain ⟨after, drained⟩ := ih middle
    exact ⟨after, by rw [drainEntries, finalised]; exact drained⟩

private theorem drainBuckets_ok (now bucketBudget orderBudget bucket : Nat) (counts : Nat × Nat) (s : State T) :
    ∃ final, drainBuckets now bucketBudget orderBudget bucket counts s = .ok final := by
  induction bucketBudget generalizing s orderBudget bucket counts with
  | zero => exact ⟨_, rfl⟩
  | succ bucketBudget ih =>
    obtain ⟨finalised, visited⟩ := counts
    rw [drainBuckets]
    split
    · obtain ⟨middle, drained⟩ :=
        drainEntries_ok bucket ((T.iterKeys (s.ordersExpiringAt bucket).keys).take orderBudget) s
      simp only [drained, bind, Except.bind]
      split
      · exact ⟨_, rfl⟩
      · exact ih _ _ _ _
    · exact ⟨_, rfl⟩

/-- The hook always completes. -/
theorem nextBlock_ok (s : State T) : ∃ after, nextBlock s = .ok after := by
  obtain ⟨final, drained⟩ := drainBuckets_ok (s.blockNumber + 1) MAX_FINALISED_ORDERS_PER_BLOCK
    MAX_FINALISED_ORDERS_PER_BLOCK s.nextExpiryBucket (0, 0) { s with blockNumber := s.blockNumber + 1 }
  refine ⟨final.1, ?_⟩
  simp only [nextBlock, onInitialize, finaliseExpiredOrders, drained]
  rfl

end Hook

/-- The winners are what settling the order would pay, and it takes no more submissions. -/
def Owed (s : State T) (orderId : Nat) (winners : WinnerSummaries T) : Prop :=
  ∃ order payouts, Frozen s orderId order ∧ 0 < order.solutionCount ∧
    computePayouts s orderId order = .ok payouts ∧ winners.val = payouts.map summarise

/-- What has been announced and stored is what is owed, and nothing that should
have been announced is missing. -/
structure Announced (s : State T) : Prop where
  honest : ∀ event ∈ s.events, ∀ orderId winners, event.announcement = some (orderId, winners) →
    Owed s orderId winners
  stored : ∀ orderId result, s.orderResults.lookup orderId = some result → Owed s orderId result.winners
  delivered : ∀ orderId order endpoint, s.jobOrders.lookup orderId = some order → order.status ≠ .opened →
    0 < order.solutionCount → order.delivery = .callback endpoint ∨ order.delivery = .callbackWithPoll endpoint →
    ∃ winners, .resultReady orderId endpoint winners ∈ s.events
  pollable : ∀ orderId order endpoint, s.jobOrders.lookup orderId = some order → order.status ≠ .opened →
    0 < order.solutionCount → order.delivery = .callbackWithPoll endpoint →
    (s.orderResults.lookup orderId).isSome ∨ .resultPurged orderId ∈ s.events
  silent : s.logs = []

section Announcing

theorem Move.owed (move : Move s label after) (numbered : Numbered s) {orderId : Nat} {winners : WinnerSummaries T}
    (owed : Owed s orderId winners) : Owed after orderId winners := by
  obtain ⟨order, payouts, frozen, solved, computed, summary⟩ := owed
  have kept := move.preserves numbered frozen
  obtain ⟨status, still⟩ := kept.frozen
  exact ⟨_, payouts, still, solved, by rw [kept.payouts, computed], summary⟩

/-- The order left the open state before this move. -/
private def WasUnopened (s : State T) (orderId : Nat) (order : JobOrder T) : Prop :=
  ∃ old, s.jobOrders.lookup orderId = some old ∧ old.status ≠ .opened ∧ old.solutionCount = order.solutionCount ∧
    old.delivery = order.delivery

/-- What a move must say about its own announcements. -/
private theorem announced_next {added : List (Event T)} {next : State T} (announced : Announced s)
    (owed : ∀ orderId winners, Owed s orderId winners → Owed next orderId winners)
    (events : next.events = s.events ++ added)
    (newEvents : ∀ event ∈ added, ∀ orderId winners, event.announcement = some (orderId, winners) →
      Owed next orderId winners)
    (newResults : ∀ orderId result, next.orderResults.lookup orderId = some result →
      s.orderResults.lookup orderId = some result ∨ Owed next orderId result.winners)
    (keptResults : ∀ orderId, (s.orderResults.lookup orderId).isSome →
      (next.orderResults.lookup orderId).isSome ∨ .resultPurged orderId ∈ added)
    (unopened : ∀ orderId order, next.jobOrders.lookup orderId = some order → order.status ≠ .opened →
      0 < order.solutionCount → WasUnopened s orderId order ∨
        (∀ endpoint, order.delivery = .callback endpoint ∨ order.delivery = .callbackWithPoll endpoint →
          ∃ winners, .resultReady orderId endpoint winners ∈ added) ∧
        ∀ endpoint, order.delivery = .callbackWithPoll endpoint → (next.orderResults.lookup orderId).isSome)
    (logs : next.logs = s.logs) : Announced next := by
  refine ⟨?_, ?_, ?_, ?_, by rw [logs, announced.silent]⟩
  · intro event member orderId winners shown
    rw [events, List.mem_append] at member
    rcases member with old | new
    · exact owed _ _ (announced.honest event old orderId winners shown)
    · exact newEvents event new orderId winners shown
  · intro orderId result held
    rcases newResults orderId result held with old | new
    · exact owed _ _ (announced.stored orderId result old)
    · exact new
  · intro orderId order endpoint held closed solved sent
    rw [events]
    rcases unopened orderId order held closed solved with ⟨old, oldHeld, oldClosed, count, delivery⟩ | ⟨shown, _⟩
    · obtain ⟨winners, member⟩ :=
        announced.delivered orderId old endpoint oldHeld oldClosed (by rw [count]; exact solved) (by rw [delivery]; exact sent)
      exact ⟨winners, List.mem_append_left _ member⟩
    · obtain ⟨winners, member⟩ := shown endpoint sent
      exact ⟨winners, List.mem_append_right _ member⟩
  · intro orderId order endpoint held closed solved sent
    rw [events]
    rcases unopened orderId order held closed solved with ⟨old, oldHeld, oldClosed, count, delivery⟩ | ⟨_, kept⟩
    · rcases announced.pollable orderId old endpoint oldHeld oldClosed (by rw [count]; exact solved)
        (by rw [delivery]; exact sent) with present | purged
      · rcases keptResults orderId present with still | gone
        · exact .inl still
        · exact .inr (List.mem_append_right _ gone)
      · exact .inr (List.mem_append_left _ purged)
    · exact .inl (kept endpoint sent)

/-- A move that announces nothing and keeps every result. -/
private theorem quiet_announced {added : List (Event T)} {next : State T} (announced : Announced s)
    (owed : ∀ orderId winners, Owed s orderId winners → Owed next orderId winners)
    (events : next.events = s.events ++ added) (quiet : Quiet added) (results : next.orderResults = s.orderResults)
    (logs : next.logs = s.logs)
    (unopened : ∀ orderId order, next.jobOrders.lookup orderId = some order → order.status ≠ .opened →
      WasUnopened s orderId order) : Announced next := by
  refine announced_next announced owed events ?_ ?_ ?_ ?_ logs
  · intro event member orderId winners shown
    rw [quiet event member] at shown
    cases shown
  · intro orderId result held
    rw [results] at held
    exact .inl held
  · intro orderId present
    rw [results]
    exact .inl present
  · exact fun orderId order held closed _ => .inl (unopened orderId order held closed)

/-- After one record was rewritten, an order that is not open was not open before. -/
private theorem rewritten_unopened {target : Nat} {updated : JobOrder T} {next : State T}
    (orders : next.jobOrders = s.jobOrders.insert target updated)
    (here : updated.status ≠ .opened → WasUnopened s target updated) (orderId : Nat) (order : JobOrder T)
    (held : next.jobOrders.lookup orderId = some order) (closed : order.status ≠ .opened) :
    WasUnopened s orderId order := by
  rw [orders, StorageMap.lookup_insert_ite] at held
  split at held
  · rename_i same
    cases held
    rw [same]
    exact here closed
  · exact ⟨order, held, closed, rfl, rfl⟩

section Expiring
variable {target : Nat} {order : JobOrder T} {next : State T}

private theorem expiring_unopened (orders : next.jobOrders = s.jobOrders.insert target { order with status := .expired })
    {orderId : Nat} {found : JobOrder T} (held : next.jobOrders.lookup orderId = some found)
    (closed : found.status ≠ .opened) :
    WasUnopened s orderId found ∨ orderId = target ∧ found = { order with status := .expired } := by
  rw [orders, StorageMap.lookup_insert_ite] at held
  split at held
  · rename_i here
    cases held
    exact .inr ⟨here, rfl⟩
  · exact .inl ⟨found, held, closed, rfl, rfl⟩

/-- The payouts of an expired order are owed from its expiry on. -/
private theorem expiring_owed (orders : next.jobOrders = s.jobOrders.insert target { order with status := .expired })
    (fronts : next.orderFrontRunner = s.orderFrontRunner) (tops : next.orderTopSolvers = s.orderTopSolvers)
    {payouts : List (Payout T)} {winners : WinnerSummaries T} (solved : 0 < order.solutionCount)
    (computed : computePayouts s target order = .ok payouts) (summary : winners.val = payouts.map summarise) :
    Owed next target winners := by
  have stored : next.jobOrders.lookup target = some { order with status := .expired } := by
    rw [orders, AList.lookup_insert]
  refine ⟨_, payouts, ⟨stored, .inl (by simp)⟩, solved, ?_, summary⟩
  rw [← computed]
  refine computePayouts_congr (by rw [fronts]) ?_ rfl rfl
  rw [State.topSolvers, State.topSolvers, tops]

/-- No winners to announce: the order is unsolved or keeps its result on chain. -/
private theorem mute_announced (announced : Announced s)
    (owed : ∀ orderId winners, Owed s orderId winners → Owed next orderId winners)
    (orders : next.jobOrders = s.jobOrders.insert target { order with status := .expired })
    (events : next.events = s.events ++ [.orderExpired target]) (results : next.orderResults = s.orderResults)
    (logs : next.logs = s.logs) (kept : 0 < order.solutionCount → order.delivery = .onChainOnly) :
    Announced next := by
  have quietExpired : Quiet [(Event.orderExpired target : Event T)] := quiet_one _ rfl
  refine announced_next announced owed events ?_ ?_ ?_ ?_ logs
  · intro event member orderId winners announcement
    rw [quietExpired event member] at announcement
    cases announcement
  · intro orderId result found
    rw [results] at found
    exact .inl found
  · intro orderId present
    rw [results]
    exact .inl present
  · intro orderId found held closed solved
    rcases expiring_unopened orders held closed with was | ⟨rfl, rfl⟩
    · exact .inl was
    · right
      rw [show ({ order with status := .expired } : JobOrder T).delivery = .onChainOnly from kept solved]
      exact ⟨fun _ impossible => (by rcases impossible with one | one <;> cases one),
        fun _ impossible => (by cases impossible)⟩

/-- Winners to announce, under the endpoint the order asks for. -/
private theorem loud_announced {winners : WinnerSummaries T} {endpoint : Endpoint} (announced : Announced s)
    (owed : ∀ orderId winners, Owed s orderId winners → Owed next orderId winners)
    (orders : next.jobOrders = s.jobOrders.insert target { order with status := .expired })
    (owedNow : Owed next target winners)
    (events : next.events = s.events ++ [.orderExpired target] ++ [.resultReady target endpoint winners])
    (logs : next.logs = s.logs)
    (sent : ∀ other, order.delivery = .callback other ∨ order.delivery = .callbackWithPoll other → other = endpoint)
    (written : next.orderResults = s.orderResults ∧ (∀ other, order.delivery ≠ .callbackWithPoll other) ∨
      ∃ result, next.orderResults = s.orderResults.insert target result ∧ result.winners = winners) :
    Announced next := by
  have quietExpired : Quiet [(Event.orderExpired target : Event T)] := quiet_one _ rfl
  refine announced_next announced owed (events.trans (List.append_assoc _ _ _)) ?_ ?_ ?_ ?_ logs
  · intro event member orderId list announcement
    rcases List.mem_append.mp member with expired | ready
    · rw [quietExpired event expired] at announcement
      cases announcement
    · rw [List.mem_singleton.mp ready] at announcement
      cases announcement
      exact owedNow
  · intro orderId result found
    rcases written with ⟨same, _⟩ | ⟨new, inserted, list⟩
    · rw [same] at found
      exact .inl found
    · rw [inserted, StorageMap.lookup_insert_ite] at found
      split at found
      · rename_i here
        cases found
        rw [list, here]
        exact .inr owedNow
      · exact .inl found
  · intro orderId present
    rcases written with ⟨same, _⟩ | ⟨new, inserted, _⟩
    · rw [same]
      exact .inl present
    · rw [inserted, StorageMap.lookup_insert_ite]
      split
      · exact .inl rfl
      · exact .inl present
  · intro orderId found held closed _
    rcases expiring_unopened orders held closed with was | ⟨rfl, rfl⟩
    · exact .inl was
    · refine .inr ⟨?_, ?_⟩
      · intro other asked
        obtain rfl := sent other asked
        exact ⟨winners, by simp⟩
      · intro other asked
        rcases written with ⟨_, unpolled⟩ | ⟨new, inserted, _⟩
        · exact absurd asked (unpolled other)
        · rw [inserted, AList.lookup_insert]
          rfl

/-- The announcements of an expiring order. -/
private theorem expires_announced {results : StorageMap Nat (StoredResult T)} {events : List (Event T)}
    {logs : List String} (announced : Announced s) (payable : Payable s)
    (owed : ∀ orderId winners, Owed s orderId winners → Owed next orderId winners)
    (held : s.jobOrders.lookup target = some order) (shown : Announces s target order results events logs)
    (orders : next.jobOrders = s.jobOrders.insert target { order with status := .expired })
    (fronts : next.orderFrontRunner = s.orderFrontRunner) (tops : next.orderTopSolvers = s.orderTopSolvers)
    (nextEvents : next.events = events) (nextResults : next.orderResults = results) (nextLogs : next.logs = logs) :
    Announced next := by
  cases shown with
  | unsolved none =>
    exact mute_announced announced owed orders nextEvents nextResults nextLogs
      fun some => absurd none (Nat.ne_of_gt some)
  | onChain _ _ _ kept =>
    exact mute_announced announced owed orders nextEvents nextResults nextLogs fun _ => kept
  | called some payouts winners computed summary endpoint sent =>
    have owedNow := expiring_owed orders fronts tops some computed summary
    refine loud_announced announced owed orders owedNow nextEvents nextLogs ?_ (.inl ⟨nextResults, ?_⟩)
    · rintro other (same | same)
      · rw [sent] at same
        cases same
        rfl
      · rw [sent] at same
        cases same
    · intro other same
      rw [sent] at same
      cases same
  | polled some payouts winners computed summary endpoint sent =>
    have owedNow := expiring_owed orders fronts tops some computed summary
    refine loud_announced announced owed orders owedNow nextEvents nextLogs ?_ (.inr ⟨_, nextResults, rfl⟩)
    rintro other (same | same)
    · rw [sent] at same
      cases same
    · rw [sent] at same
      cases same
      rfl
  | stuck some reason missing =>
    obtain ⟨payouts, _, computed, _⟩ := payable target order held some
    rw [computed] at missing
    cases missing

end Expiring

/-- Every move keeps announcements and payouts in agreement. -/
theorem Move.announced {seen : List (Label T)} (move : Move s label after) (books : Books seen s)
    (announced : Announced s) : Announced after := by
  have owed : ∀ orderId winners, Owed s orderId winners → Owed after orderId winners :=
    fun _ _ => move.owed books.numbered
  have same : after.jobOrders = s.jobOrders → ∀ orderId order, after.jobOrders.lookup orderId = some order →
      order.status ≠ .opened → WasUnopened s orderId order := by
    intro orders orderId order held closed
    rw [orders] at held
    exact ⟨order, held, closed, rfl, rfl⟩
  cases move with
  | idles quiet => exact quiet_announced announced owed rfl quiet rfl rfl (same rfl)
  | rebalances | ticks | drops | advances =>
    exact quiet_announced announced owed (List.append_nil _).symm (fun _ none => nomatch none) rfl rfl (same rfl)
  | opens _ _ _ quiet =>
    exact quiet_announced announced owed rfl quiet rfl rfl
      (rewritten_unopened rfl fun closed => absurd rfl closed)
  | accepts _ opened _ _ _ _ _ quiet =>
    exact quiet_announced announced owed rfl quiet rfl rfl
      (rewritten_unopened rfl fun closed => absurd opened closed)
  | @closes target order _ _ _ _ _ held expired _ _ quiet =>
    refine quiet_announced announced owed rfl quiet rfl rfl (rewritten_unopened rfl fun _ => ?_)
    exact ⟨order, held, by simp [expired], rfl, rfl⟩
  | @purges target =>
    refine announced_next announced owed rfl ?_ ?_ ?_ ?_ rfl
    · intro event member orderId winners shown
      rw [List.mem_singleton.mp member] at shown
      cases shown
    · intro orderId result found
      refine .inl ?_
      rw [show _ = _ from StorageMap.lookup_erase_ite s.orderResults target orderId] at found
      split at found
      · cases found
      · exact found
    · intro orderId present
      by_cases here : orderId = target
      · exact .inr (by simp [here])
      · left
        rw [show _ = _ from StorageMap.lookup_erase_ite s.orderResults target orderId, if_neg here]
        exact present
    · exact fun orderId order held closed _ => .inl (same rfl orderId order held closed)
  | expires _ held _ shown =>
    exact expires_announced announced books.payable owed held shown rfl rfl rfl rfl rfl rfl

end Announcing

theorem NoOrders.announced (fresh : NoOrders s) : Announced s := by
  refine ⟨?_, ?_, ?_, ?_, fresh.logs⟩
  · intro event member
    rw [fresh.events] at member
    cases member
  · intro orderId result held
    rw [fresh.orderResults] at held
    cases held
  · intro orderId order endpoint held
    rw [fresh.jobOrders] at held
    cases held
  · intro orderId order endpoint held
    rw [fresh.jobOrders] at held
    cases held

theorem run_announced {s₀ : State T} (fresh : NoOrders s₀) (steps : List (Step T))
    (few : FewOrders ((machine T).run s₀ steps)) : Announced ((machine T).run s₀ steps) :=
  (@run_by_moves T FewOrders (fun seen s => Books seen s ∧ Announced s) s₀ (fun _ _ _ move => move.fewOrders_before)
    ⟨fresh.books, fresh.announced⟩
    (fun _ _ _ _ move few held => ⟨move.books few held.1, move.announced held.1 held.2⟩) steps few).2

section Claims
variable {orderId : Nat} {order : JobOrder T}

/-- Every list of winners owed for an order is the one its payouts give. -/
theorem Owed.winners {winners : WinnerSummaries T} (owed : Owed s orderId winners)
    (held : s.jobOrders.lookup orderId = some order) {payouts : List (Payout T)}
    (computed : computePayouts s orderId order = .ok payouts) : winners.val = payouts.map summarise := by
  obtain ⟨found, others, ⟨foundHeld, _⟩, _, otherwise, summary⟩ := owed
  rw [held, Option.some.injEq] at foundHeld
  subst foundHeld
  rw [computed] at otherwise
  cases otherwise
  exact summary

/-- A claim on a solved order is never refused for lack of solutions. -/
private theorem claimReward_avoids (payable : Payable s) (held : s.jobOrders.lookup orderId = some order)
    (solved : 0 < order.solutionCount) (env : Env T) (origin : Origin T) :
    Avoids (.module .noSolutionsAccepted) (claimReward s env origin orderId) := by
  obtain ⟨payouts, winners, computed, summary⟩ := payable orderId order held solved
  refine avoids_bind (ensureSigned_avoids origin) fun _ _ => ?_
  refine avoids_bind (avoids_okOr (.inr (by simp))) fun found foundHeld => ?_
  rw [okOr_success, held, Option.some.injEq] at foundHeld
  subst foundHeld
  refine avoids_bind (avoids_okOr (.inr (by simp))) fun spec _ => ?_
  refine avoids_bind (avoids_ensure (.inr (by simp))) fun _ _ => ?_
  refine avoids_bind (avoids_ensure (.inr (by simp))) fun _ _ => ?_
  refine avoids_bind (avoids_ensure (.inl solved)) fun _ _ => ?_
  refine avoids_bind (by rw [computed]; nofun) fun paid _ => ?_
  refine avoids_bind avoids_expect fun _ _ => ?_
  refine avoids_bind (returned_avoids _) fun _ _ => ?_
  refine avoids_bind (avoids_ensure (.inr (by simp))) fun _ _ => ?_
  exact avoids_bind (payWinners_avoids env orderId order.proposer paid _) fun _ _ => avoids_pure _

private theorem payWinners_safe (env : Env T) (orderId : Nat) (proposer : T.AccountId) (payouts : List (Payout T))
    (s : State T) : Safe (payWinners env orderId proposer payouts s) fun _ => True := by
  induction payouts generalizing s with
  | nil => trivial
  | cons payout rest ih =>
    obtain ⟨winner, amount, energy⟩ := payout
    rw [payWinners]
    split
    · exact ih s
    · have transfers : Safe (s.balances.transfer env proposer winner amount) fun _ => True :=
        safe_bind safe_ensure fun _ _ => trivial
      exact safe_bind transfers fun _ _ => ih _

/-- No claim panics. -/
private theorem claimReward_safe (payable : Payable s) (env : Env T) (origin : Origin T) (orderId : Nat) :
    Safe (claimReward s env origin orderId) fun _ => True := by
  have signed : Safe (ensureSigned origin) fun _ => True := by
    cases origin <;> trivial
  refine safe_bind signed fun _ _ => ?_
  refine safe_bind safe_okOr fun order held => ?_
  refine safe_bind safe_okOr fun spec _ => ?_
  refine safe_bind safe_ensure fun _ _ => ?_
  refine safe_bind safe_ensure fun _ _ => ?_
  refine safe_bind safe_ensure fun _ solved => ?_
  obtain ⟨payouts, winners, computed, summary⟩ := payable orderId order held solved
  rw [computed]
  refine safe_bind (show Safe (.ok payouts) (· = payouts) from rfl) ?_
  rintro _ rfl
  rw [summary]
  refine safe_bind (show Safe (.ok winners) (· = winners) from rfl) ?_
  rintro _ rfl
  have returns : ∀ result : Except Error Unit, Safe (returned result) fun _ => True := by
    intro result
    cases result <;> trivial
  refine safe_bind (returns _) fun _ _ => ?_
  refine safe_bind safe_ensure fun _ _ => ?_
  exact safe_bind (payWinners_safe _ _ _ _ _) fun _ _ => trivial

end Claims

/-- Announced equals paid. In every state reached from a chain without orders:
the counter, the window and the ranking of every order agree; what has been
announced or stored is what is owed, and nothing is missing; a solved order's
payouts exist, so the hook completes with an empty log and no claim panics or
lacks solutions. Every successful claim moved exactly the winners announced for
it, and the payouts of an order are the same at any two points of the run from
its effective expiry on. -/
theorem announced_equals_paid {s₀ : State T} (fresh : NoOrders s₀) (steps : List (Step T))
    (few : FewOrders ((machine T).run s₀ steps))
    (fewSolvers : ∀ orderId, (((machine T).run s₀ steps).orderSolutions orderId).size < 2 ^ 32) :
    let s := (machine T).run s₀ steps
    (∀ orderId order, s.jobOrders.lookup orderId = some order →
      order.solutionCount = (s.orderSolutions orderId).size ∧
      (order.firstSolutionAt.isSome ↔ 0 < order.solutionCount) ∧
      (Ranked s orderId order ↔ 0 < order.solutionCount) ∧
      (0 < order.solutionCount → ∃ payouts winners, computePayouts s orderId order = .ok payouts ∧
        winnerSummariesFromPayouts payouts = .ok winners ∧
        ∀ env origin, claimReward s env origin orderId ≠ .error (.error (.module .noSolutionsAccepted)))) ∧
    Announced s ∧
    (∃ after, nextBlock s = .ok after) ∧
    (∀ env origin orderId message, claimReward s env origin orderId ≠ .error (.panic message)) ∧
    (∀ executed ∈ (machine T).trace s₀ steps, ∀ orderId, executed.call = .claimReward orderId →
      ∃ order payouts, executed.before.jobOrders.lookup orderId = some order ∧
        computePayouts executed.before orderId order = .ok payouts ∧
        executed.after.balances.movements = executed.before.balances.movements ++
          .unreserve order.proposer order.reward.val :: transfersOf order.proposer payouts ∧
        (∀ event ∈ executed.before.events, ∀ winners, event.announcement = some (orderId, winners) →
          winners.val = payouts.map summarise) ∧
        ∀ result, executed.before.orderResults.lookup orderId = some result →
          result.winners.val = payouts.map summarise) ∧
    ∀ earlier later, steps = earlier ++ later → ∀ orderId order, Frozen ((machine T).run s₀ earlier) orderId order →
      ∃ status, s.jobOrders.lookup orderId = some { order with status } ∧
        computePayouts s orderId { order with status } = computePayouts ((machine T).run s₀ earlier) orderId order := by
  intro s
  have books := run_books fresh steps few
  refine ⟨?_, run_announced fresh steps few, nextBlock_ok _, ?_, ?_, ?_⟩
  · intro orderId order held
    have book := books.kept orderId order held
    refine ⟨?_, book.started.trans book.solved_iff.symm, book.ranked_iff, ?_⟩
    · have width := fewSolvers orderId
      rw [book.counted, u32Max]
      exact Nat.min_eq_left (by omega)
    · intro solved
      obtain ⟨payouts, winners, computed, summary⟩ := book.payable solved
      exact ⟨payouts, winners, computed, summary, claimReward_avoids books.payable held solved⟩
  · exact fun env origin orderId => (claimReward_safe books.payable env origin orderId).no_panic
  · intro executed member orderId called
    obtain ⟨earlier, env, later, split, reached, ran⟩ := trace_executed member
    rw [called] at ran
    obtain ⟨order, payouts, held, solved, computed, move⟩ := claimReward_move ran
    have before : Announced executed.before := by
      rw [reached]
      refine run_announced fresh earlier ?_
      rw [split] at few
      exact fewOrders_earlier few
    refine ⟨order, payouts, held, computed, move.settled_after, ?_, ?_⟩
    · intro event listed winners shown
      exact (before.honest event listed orderId winners shown).winners held computed
    · intro result stored
      exact (before.stored orderId result stored).winners held computed
  · intro earlier later split orderId order frozen
    have few' : FewOrders ((machine T).run s₀ (earlier ++ later)) := split ▸ few
    have kept := run_preserves fresh later few' frozen
    obtain ⟨status, stillHeld, _⟩ := kept.frozen
    rw [← split] at stillHeld kept
    exact ⟨status, stillHeld, kept.payouts status⟩

private theorem tinyRun_fewSolvers (orderId : Nat) :
    (((machine tinyConfig).run tinyGenesis tinyRun).orderSolutions orderId).size < 2 ^ 32 := by
  by_cases first : orderId = 0
  · subst first
    decide +kernel
  · have books := run_books tinyGenesis_noOrders tinyRun tinyRun_fewOrders
    have counter : ((machine tinyConfig).run tinyGenesis tinyRun).nextOrderId = 1 := by decide +kernel
    have missing : ((machine tinyConfig).run tinyGenesis tinyRun).jobOrders.lookup orderId = none := by
      apply Option.not_isSome_iff_eq_none.mp
      rw [books.numbered.given, counter]
      omega
    rw [(StorageMap.size_eq_zero_iff _).mpr (books.blank orderId missing).2.solutions]
    decide

theorem announced_equals_paid_tinyRun :
    ∃ winners, .resultReady 0 ⟨[], by decide⟩ winners ∈ ((machine tinyConfig).run tinyGenesis tinyRun).events ∧
      Owed ((machine tinyConfig).run tinyGenesis tinyRun) 0 winners := by
  have shown : (((machine tinyConfig).run tinyGenesis tinyRun).jobOrders.lookup 0).map
      (fun order => (order.status, order.solutionCount, order.delivery)) =
      some (.closed, 1, .callback ⟨[], by decide⟩) := by decide +kernel
  obtain ⟨order, held, values⟩ := Option.map_eq_some_iff.mp shown
  simp only [Prod.mk.injEq] at values
  obtain ⟨status, count, delivery⟩ := values
  obtain ⟨_, announced, _⟩ :=
    announced_equals_paid tinyGenesis_noOrders tinyRun tinyRun_fewOrders tinyRun_fewSolvers
  obtain ⟨winners, member⟩ :=
    announced.delivered 0 order _ held (by rw [status]; decide) (by rw [count]; decide) (.inl delivery)
  exact ⟨winners, member, announced.honest _ member 0 winners rfl⟩

end QuipValidator.Mempool
