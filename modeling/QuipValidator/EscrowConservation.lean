import QuipValidator.OrderIndexProofs

/-! Escrow conservation. What the pallet has reserved from an account and not
unreserved is the sum of the rewards of that account's unsettled orders, so a
settlement always finds its reward, and each reward leaves escrow once. -/
namespace QuipValidator.Mempool
open Fallible

variable {T : Config} {s after : State T} {label : Option (Label T)}

/-- What an order holds in escrow for `who`. -/
def escrowed (who : T.AccountId) (order : JobOrder T) : Nat :=
  if order.proposer = who ∧ order.status ≠ .closed then order.reward.val else 0

/-- The rewards of `who`'s orders that have not settled. -/
def escrowOf (s : State T) (who : T.AccountId) : Nat :=
  s.jobOrders.sum fun _ order => escrowed who order

/-- The amount moved by transfers. -/
def transferTotal (movements : List (Movement T)) : Nat :=
  (movements.map fun movement =>
    match movement with
    | .transfer _ _ amount => amount
    | _ => 0).sum

/-- Every operation in the list is a transfer out of `source`. -/
def TransfersFrom (source : T.AccountId) (movements : List (Movement T)) : Prop :=
  ∀ movement ∈ movements, ∃ dest amount, movement = .transfer source dest amount

structure Escrow (s : State T) : Prop where
  numbered : Numbered s
  balanced : ∀ who, reservedFrom s.balances.movements who =
    unreservedFor s.balances.movements who + escrowOf s who
  pooled : ∀ who, escrowOf s who ≤ s.balances.reserved who

private theorem reservedFrom_append (first second : List (Movement T)) (who : T.AccountId) :
    reservedFrom (first ++ second) who = reservedFrom first who + reservedFrom second who := by
  simp [reservedFrom]

private theorem unreservedFor_append (first second : List (Movement T)) (who : T.AccountId) :
    unreservedFor (first ++ second) who = unreservedFor first who + unreservedFor second who := by
  simp [unreservedFor]

/-- Transfers do not touch reserves. -/
private theorem transfers_reserve_nothing {source : T.AccountId} {payments : List (Movement T)}
    (transfers : TransfersFrom source payments) (who : T.AccountId) :
    reservedFrom payments who = 0 ∧ unreservedFor payments who = 0 := by
  induction payments with
  | nil => exact ⟨rfl, rfl⟩
  | cons payment rest ih =>
    obtain ⟨dest, amount, rfl⟩ := transfers payment List.mem_cons_self
    have tail := ih fun other member => transfers other (List.mem_cons_of_mem _ member)
    simp only [reservedFrom, unreservedFor, List.map_cons, List.sum_cons, Nat.zero_add] at tail ⊢
    exact tail

theorem transfersOf_transfers (proposer : T.AccountId) (payouts : List (Payout T)) :
    TransfersFrom proposer (transfersOf proposer payouts) := by
  intro movement member
  obtain ⟨payout, _, made⟩ := List.mem_filterMap.mp member
  split at made
  · cases made
  · cases made
    exact ⟨_, _, rfl⟩

theorem transferTotal_transfersOf (proposer : T.AccountId) (payouts : List (Payout T)) :
    transferTotal (transfersOf proposer payouts) = totalPaid payouts := by
  induction payouts with
  | nil => rfl
  | cons payout rest ih =>
    obtain ⟨winner, amount, energy⟩ := payout
    by_cases zero : amount = 0
    · simpa [transfersOf, transferTotal, zero] using ih
    · simpa [transfersOf, transferTotal, zero] using ih

/-- Whatever the resolution, the payouts add up to the reward. -/
theorem computePayouts_total {orderId : Nat} {order : JobOrder T} {payouts : List (Payout T)}
    (computed : computePayouts s orderId order = .ok payouts) : totalPaid payouts = order.reward.val := by
  have rewardFits : order.reward.val ≤ u128Max := by
    have bound := order.reward.isLt
    simp only [u128Max]
    omega
  unfold computePayouts at computed
  split at computed
  · simp only [bind_success, okOr_success] at computed
    obtain ⟨front, _, same⟩ := computed
    cases same
    exact singleBestPayouts_total front _
  · simp only [bind_success, ensure_success] at computed
    obtain ⟨_, occupied, same⟩ := computed
    cases same
    exact topNEqualPayouts_total occupied _
  · simp only [bind_success, ensure_success] at computed
    obtain ⟨_, occupied, same⟩ := computed
    cases same
    have listed := (s.topSolvers orderId).property
    exact topNWeightedPayouts_total occupied (Nat.lt_of_le_of_lt listed (by decide)) rewardFits

private theorem escrow_rewritten {orderId : Nat} {order updated : JobOrder T} {next : State T}
    (held : s.jobOrders.lookup orderId = some order) (written : next.jobOrders = s.jobOrders.insert orderId updated)
    (who : T.AccountId) : escrowOf next who + escrowed who order = escrowOf s who + escrowed who updated := by
  have total := StorageMap.sum_insert s.jobOrders (fun _ order => escrowed who order) orderId updated
  rw [held] at total
  rw [escrowOf, written]
  exact total

private theorem escrow_added {orderId : Nat} {order : JobOrder T} {next : State T}
    (missing : s.jobOrders.lookup orderId = none) (written : next.jobOrders = s.jobOrders.insert orderId order)
    (who : T.AccountId) : escrowOf next who = escrowOf s who + escrowed who order := by
  have total := StorageMap.sum_insert s.jobOrders (fun _ order => escrowed who order) orderId order
  rw [missing] at total
  rw [escrowOf, written]
  exact total

/-- An unsettled order's whole reward is in its proposer's escrow. -/
private theorem reward_in_escrow {orderId : Nat} {order : JobOrder T} (held : s.jobOrders.lookup orderId = some order)
    (unclosed : order.status ≠ .closed) : order.reward.val ≤ escrowOf s order.proposer := by
  have weight := StorageMap.weight_le_sum (fun _ order' => escrowed order.proposer order') held
  simpa [escrowed, unclosed, escrowOf] using weight

private theorem settles_transfers {orderId : Nat} {order : JobOrder T} {payments : List (Movement T)}
    (settles : Settles s orderId order payments) : TransfersFrom order.proposer payments := by
  cases settles with
  | paid _ payouts => exact transfersOf_transfers _ payouts
  | reclaimed => exact fun _ member => nomatch member

private theorem rewritten_same {orderId : Nat} {order updated : JobOrder T} {next : State T}
    (held : s.jobOrders.lookup orderId = some order) (written : next.jobOrders = s.jobOrders.insert orderId updated)
    (who : T.AccountId) (sameWeight : escrowed who updated = escrowed who order) : escrowOf next who = escrowOf s who := by
  have total := escrow_rewritten held written who
  rw [sameWeight] at total
  exact Nat.add_right_cancel total

/-- Rewriting an open order without closing it leaves every escrow as it was. -/
private theorem escrow_unchanged {orderId : Nat} {order updated : JobOrder T} {next : State T} (escrow : Escrow s)
    (numbered : Numbered next) (held : s.jobOrders.lookup orderId = some order)
    (written : next.jobOrders = s.jobOrders.insert orderId updated) (sameWeight : ∀ who, escrowed who updated =
      escrowed who order) (sameBalances : next.balances = s.balances) : Escrow next := by
  have same : ∀ who, escrowOf next who = escrowOf s who := fun who => rewritten_same held written who (sameWeight who)
  refine ⟨numbered, ?_, ?_⟩
  · intro who
    rw [same, sameBalances]
    exact escrow.balanced who
  · intro who
    rw [same, sameBalances]
    exact escrow.pooled who

private theorem opens_adds {order : JobOrder T} {next : State T} (numbered : Numbered s)
    (written : next.jobOrders = s.jobOrders.insert s.nextOrderId order) (opened : order.status = .opened)
    (who : T.AccountId) : escrowOf next who = escrowOf s who + if order.proposer = who then order.reward.val else 0 := by
  rw [escrow_added numbered.fresh written]
  simp [escrowed, opened]

private theorem closes_removes {orderId : Nat} {order : JobOrder T} {next : State T}
    (held : s.jobOrders.lookup orderId = some order) (unclosed : order.status ≠ .closed)
    (written : next.jobOrders = s.jobOrders.insert orderId { order with status := .closed }) (who : T.AccountId) :
    escrowOf next who + (if order.proposer = who then order.reward.val else 0) = escrowOf s who := by
  have total := escrow_rewritten held written who
  simpa [escrowed, unclosed] using total

private theorem opens_escrow {order : JobOrder T} {next : State T} (escrow : Escrow s) (numbered : Numbered next)
    (written : next.jobOrders = s.jobOrders.insert s.nextOrderId order) (opened : order.status = .opened)
    (movements : next.balances.movements = s.balances.movements ++ [.reserve order.proposer order.reward.val])
    (reserved : next.balances.reserved = Balances.set s.balances.reserved order.proposer
      (s.balances.reserved order.proposer + order.reward.val)) : Escrow next := by
  have added := opens_adds escrow.numbered written opened
  refine ⟨numbered, ?_, ?_⟩
  · intro who
    have before := escrow.balanced who
    rw [movements, reservedFrom_append, unreservedFor_append, added]
    simp only [reservedFrom, unreservedFor, List.map_cons, List.map_nil, List.sum_cons, List.sum_nil] at before ⊢
    omega
  · intro who
    have before := escrow.pooled who
    rw [added, reserved, Balances.set]
    by_cases same : who = order.proposer
    · subst same
      simp only [if_true]
      omega
    · simp only [if_neg same, if_neg (Ne.symm same)]
      omega

private theorem closes_escrow {orderId : Nat} {order : JobOrder T} {payments : List (Movement T)} {next : State T}
    (escrow : Escrow s) (numbered : Numbered next) (held : s.jobOrders.lookup orderId = some order)
    (unclosed : order.status ≠ .closed)
    (written : next.jobOrders = s.jobOrders.insert orderId { order with status := .closed })
    (transfers : TransfersFrom order.proposer payments)
    (movements : next.balances.movements =
      s.balances.movements ++ .unreserve order.proposer order.reward.val :: payments)
    (reserved : next.balances.reserved = Balances.set s.balances.reserved order.proposer
      (s.balances.reserved order.proposer - order.reward.val)) : Escrow next := by
  have removed := closes_removes held unclosed written
  refine ⟨numbered, ?_, ?_⟩
  · intro who
    have before := escrow.balanced who
    have total := removed who
    have tail := transfers_reserve_nothing transfers who
    rw [movements, reservedFrom_append, unreservedFor_append]
    simp only [reservedFrom, unreservedFor, List.map_cons, List.sum_cons] at before tail ⊢
    omega
  · intro who
    have before := escrow.pooled who
    have total := removed who
    rw [reserved, Balances.set]
    by_cases same : who = order.proposer
    · subst same
      simp only [if_true] at total ⊢
      omega
    · simp only [if_neg same, if_neg (Ne.symm same)] at total ⊢
      omega

theorem Move.escrow (move : Move s label after) (few : FewOrders after) (escrow : Escrow s) : Escrow after := by
  have numbered := move.numbered few escrow.numbered
  cases move with
  | opens => exact opens_escrow escrow numbered rfl rfl rfl rfl
  | accepts held => exact escrow_unchanged escrow numbered held rfl (fun who => rfl) rfl
  | expires _ held opened =>
    exact escrow_unchanged escrow numbered held rfl (fun who => by simp [escrowed, opened]) rfl
  | closes held expired _ settles =>
    exact closes_escrow escrow numbered held (by simp [expired]) rfl (settles_transfers settles) rfl rfl
  | rebalances =>
    refine ⟨numbered, escrow.balanced, ?_⟩
    intro who
    have before := escrow.balanced who
    change escrowOf s who ≤
      reservedFrom s.balances.movements who - unreservedFor s.balances.movements who + _
    omega
  | idles | purges | ticks | drops | advances => exact ⟨numbered, escrow.balanced, escrow.pooled⟩

private theorem opens_exact {order : JobOrder T} {next : State T} (numbered : Numbered s)
    (written : next.jobOrders = s.jobOrders.insert s.nextOrderId order) (opened : order.status = .opened)
    (reserved : next.balances.reserved = Balances.set s.balances.reserved order.proposer
      (s.balances.reserved order.proposer + order.reward.val)) (who : T.AccountId) :
    next.balances.reserved who + escrowOf s who = s.balances.reserved who + escrowOf next who := by
  rw [opens_adds numbered written opened, reserved, Balances.set]
  by_cases same : who = order.proposer
  · subst same
    simp only [if_true]
    omega
  · simp only [if_neg same, if_neg (Ne.symm same)]
    omega

private theorem closes_exact {orderId : Nat} {order : JobOrder T} {next : State T}
    (held : s.jobOrders.lookup orderId = some order) (unclosed : order.status ≠ .closed)
    (funded : order.reward.val ≤ s.balances.reserved order.proposer)
    (written : next.jobOrders = s.jobOrders.insert orderId { order with status := .closed })
    (reserved : next.balances.reserved = Balances.set s.balances.reserved order.proposer
      (s.balances.reserved order.proposer - order.reward.val)) (who : T.AccountId) :
    next.balances.reserved who + escrowOf s who = s.balances.reserved who + escrowOf next who := by
  have removed := closes_removes held unclosed written who
  rw [reserved, Balances.set]
  by_cases same : who = order.proposer
  · subst same
    simp only [if_true] at removed ⊢
    omega
  · simp only [if_neg same, if_neg (Ne.symm same)] at removed ⊢
    omega

/-- A labelled move changes the reserve of an account by what it changes of its escrow. -/
theorem Move.reserve_exact {seen : Label T} (move : Move s (some seen) after) (numbered : Numbered s)
    (who : T.AccountId) :
    after.balances.reserved who + escrowOf s who = s.balances.reserved who + escrowOf after who := by
  cases move with
  | opens => exact opens_exact numbered rfl rfl rfl who
  | accepts held =>
    apply congrArg
    exact (rewritten_same held rfl who (by rfl)).symm
  | closes held expired funded => exact closes_exact held (by simp [expired]) funded rfl rfl who

/-- Unlabelled moves in sequence. -/
theorem Moves.escrow (moves : Moves s after) (few : FewOrders after) (escrow : Escrow s) : Escrow after := by
  induction moves with
  | refl => exact escrow
  | tail _ move ih => exact move.escrow few (ih (move.fewOrders_before few))

/-- The other moves keep every escrow. -/
theorem Move.escrow_same (move : Move s none after) (who : T.AccountId) : escrowOf after who = escrowOf s who := by
  cases move with
  | expires _ held opened => exact rewritten_same held rfl who (by simp [escrowed, opened])
  | idles | purges | rebalances | ticks | drops | advances => rfl

theorem NoOrders.escrow (fresh : NoOrders s) : Escrow s := by
  have nothing : ∀ who, escrowOf s who = 0 := by
    intro who
    rw [escrowOf, fresh.jobOrders]
    rfl
  refine ⟨fresh.numbered, ?_, ?_⟩
  · intro who
    rw [nothing, fresh.movements]
    rfl
  · intro who
    rw [nothing]
    exact Nat.zero_le _

theorem run_escrow {s₀ : State T} (fresh : NoOrders s₀) (steps : List (Step T))
    (few : FewOrders ((machine T).run s₀ steps)) : Escrow ((machine T).run s₀ steps) :=
  @run_by_moves T FewOrders (fun _ s => Escrow s) s₀ (fun _ _ _ move => move.fewOrders_before) fresh.escrow
    (fun _ _ _ _ move few escrow => move.escrow few escrow) steps few

section ReserveFound

theorem ensureSigned_avoids {reason : Error} (origin : Origin T) :
    Avoids (DispatchError.module reason) (ensureSigned origin) := by
  cases origin <;> nofun

theorem returned_avoids {α : Type} {reason : Error} (result : Except Error α) :
    Avoids (DispatchError.module reason) (returned result) := by
  cases result <;> nofun

private theorem computePayouts_avoids {reason : Error} (orderId : Nat) (order : JobOrder T)
    (different : Error.noSolutionsAccepted ≠ reason) :
    Avoids (DispatchError.module reason) (computePayouts s orderId order) := by
  have other : DispatchError.module .noSolutionsAccepted ≠ .module reason := fun same =>
    different (DispatchError.module.inj same)
  unfold computePayouts
  split
  · exact avoids_bind (avoids_okOr (.inr other)) fun _ _ => avoids_pure _
  · exact avoids_bind (avoids_ensure (.inr other)) fun _ _ => avoids_pure _
  · exact avoids_bind (avoids_ensure (.inr other)) fun _ _ => avoids_pure _

theorem payWinners_avoids {reason : Error} (env : Env T) (orderId : Nat) (proposer : T.AccountId)
    (payouts : List (Payout T)) (s : State T) :
    Avoids (DispatchError.module reason) (payWinners env orderId proposer payouts s) := by
  induction payouts generalizing s with
  | nil => exact avoids_pure s
  | cons payout rest ih =>
    obtain ⟨winner, amount, energy⟩ := payout
    rw [payWinners]
    split
    · exact ih s
    · refine avoids_bind ?_ fun _ _ => ih _
      exact avoids_bind (avoids_ensure (.inr (by simp))) fun _ _ => avoids_pure _

/-- A settlement of an unsettled order finds its whole reward in the pool. -/
theorem unreserve_finds {orderId : Nat} {order : JobOrder T} (escrow : Escrow s)
    (held : s.jobOrders.lookup orderId = some order) (unclosed : order.status ≠ .closed) :
    (s.balances.unreserve order.proposer order.reward.val).1 = 0 := by
  have inside := reward_in_escrow held unclosed
  have pooled := escrow.pooled order.proposer
  simp only [Balances.unreserve]
  omega

theorem claimReward_reserve_found (escrow : Escrow s) (env : Env T) (origin : Origin T) (orderId : Nat) :
    Avoids (DispatchError.module .rewardReserveMissing) (claimReward s env origin orderId) := by
  refine avoids_bind (ensureSigned_avoids origin) fun _ _ => ?_
  refine avoids_bind (avoids_okOr (.inr (by simp))) fun order found => ?_
  refine avoids_bind (avoids_okOr (.inr (by simp))) fun spec _ => ?_
  refine avoids_bind (avoids_ensure (.inr (by simp))) fun _ unclosed => ?_
  refine avoids_bind (avoids_ensure (.inr (by simp))) fun _ _ => ?_
  refine avoids_bind (avoids_ensure (.inr (by simp))) fun _ _ => ?_
  refine avoids_bind (computePayouts_avoids orderId order (by simp)) fun payouts _ => ?_
  refine avoids_bind avoids_expect fun winners _ => ?_
  refine avoids_bind (returned_avoids _) fun _ _ => ?_
  have whole := unreserve_finds escrow (okOr_success.mp found) (ensure_success.mp unclosed)
  refine avoids_bind (avoids_ensure (.inl whole)) fun _ _ => ?_
  exact avoids_bind (payWinners_avoids env orderId order.proposer payouts _) fun _ _ => avoids_pure _

theorem reclaimOrder_reserve_found (escrow : Escrow s) (origin : Origin T) (orderId : Nat) :
    Avoids (DispatchError.module .rewardReserveMissing) (reclaimOrder s origin orderId) := by
  refine avoids_bind (ensureSigned_avoids origin) fun caller _ => ?_
  refine avoids_bind (avoids_okOr (.inr (by simp))) fun order found => ?_
  refine avoids_bind (avoids_ensure (.inr (by simp))) fun _ owned => ?_
  refine avoids_bind (avoids_ensure (.inr (by simp))) fun _ unclosed => ?_
  refine avoids_bind (avoids_ensure (.inr (by simp))) fun _ _ => ?_
  refine avoids_bind (avoids_ensure (.inr (by simp))) fun _ _ => ?_
  have whole := unreserve_finds escrow (okOr_success.mp found) (ensure_success.mp unclosed)
  rw [ensure_success.mp owned] at whole
  exact avoids_bind (avoids_ensure (.inl whole)) fun _ _ => avoids_pure _

end ReserveFound

section Settlement

/-- The dispatch settled `orderId`. -/
def Executed.settles (executed : Executed T) (orderId : Nat) : Bool :=
  match executed.call with
  | .claimReward other | .reclaimOrder other => decide (other = orderId)
  | _ => false

/-- The label records a settlement of `orderId`. -/
def Label.settles (seen : Label T) (orderId : Nat) : Bool :=
  match seen with
  | .settled other _ => decide (other = orderId)
  | _ => false

/-- A submission never reads as a settlement, whoever made it and whatever it stored. -/
private theorem accepted_not_settles (entry : Option (JobSolution T)) (solver : T.AccountId)
    (payee : Option WinnerPayee) (other orderId : Nat) :
    (entry.map fun record => (Label.accepted other ⟨solver, payee, record⟩ : Label T)).elim false
      (·.settles orderId) = false := by
  cases entry <;> rfl

private theorem settles_iff_label (executed : Executed T) (orderId : Nat) :
    executed.label.elim false (·.settles orderId) = executed.settles orderId := by
  obtain ⟨origin, call, before, after⟩ := executed
  cases call with
  | submitSolution other solutions =>
    cases origin with
    | signed solver => exact accepted_not_settles _ solver none other orderId
    | root => rfl
    | none => rfl
  | submitSolutionWithPayee other solutions payee =>
    cases origin with
    | signed solver => exact accepted_not_settles _ solver (some payee) other orderId
    | root => rfl
    | none => rfl
  | _ => rfl

private theorem settlements_labels (trace : List (Executed T)) (orderId : Nat) :
    ((labels trace).filter (·.settles orderId)).length = (trace.filter (·.settles orderId)).length := by
  induction trace with
  | nil => rfl
  | cons executed rest ih =>
    have here := settles_iff_label executed orderId
    simp only [labels] at ih ⊢
    cases shown : executed.label with
    | none =>
      rw [shown, Option.elim_none] at here
      rw [List.filterMap_cons_none shown, ih, List.filter_cons_of_neg (by simp [← here])]
    | some seen =>
      rw [shown, Option.elim_some] at here
      rw [List.filterMap_cons_some shown, List.filter_cons, List.filter_cons, here]
      split
      · simp only [List.length_cons, ih]
      · exact ih

/-- A settlement closes its order, and nothing settles a closed one. -/
private def SettledOnce (seen : List (Label T)) (s : State T) : Prop :=
  ∀ orderId, (seen.filter (·.settles orderId)).length = 0 ∨
    (seen.filter (·.settles orderId)).length = 1 ∧ s.statusOf orderId = some .closed

private theorem closed_stays (move : Move s label after) (numbered : Numbered s) {orderId : Nat}
    (closed : s.statusOf orderId = some .closed) : after.statusOf orderId = some .closed := by
  have change := move.status_moves numbered orderId
  rw [closed] at change
  generalize after.statusOf orderId = status at change
  cases change
  rfl

private theorem settledOnce_move {seen : List (Label T)} (move : Move s label after) (numbered : Numbered s)
    (once : SettledOnce seen s) : SettledOnce (seen ++ label.toList) after := by
  have silent : (∀ orderId, (label.toList.filter (·.settles orderId)) = []) →
      SettledOnce (seen ++ label.toList) after := by
    intro quiet orderId
    rw [List.filter_append, quiet orderId, List.append_nil]
    exact (once orderId).imp id fun kept => ⟨kept.1, closed_stays move numbered kept.2⟩
  cases move with
  | @closes settled order payments _ _ _ _ held expired =>
    intro orderId
    by_cases here : orderId = settled
    · -- The order was expired, so no earlier settlement was seen.
      subst here
      have status : s.statusOf orderId = some .expired := by simp [State.statusOf, held, expired]
      rcases once orderId with unsettled | ⟨_, closed⟩
      · right
        refine ⟨?_, by simp [State.statusOf]⟩
        rw [List.filter_append, List.eq_nil_of_length_eq_zero unsettled]
        simp [Label.settles]
      · rw [status] at closed
        cases closed
    · have other : decide (settled = orderId) = false := by simpa using Ne.symm here
      rw [List.filter_append]
      simp only [Option.toList_some, List.filter_cons, Label.settles, other, Bool.false_eq_true, if_false,
        List.filter_nil, List.append_nil]
      refine (once orderId).imp id fun kept => ⟨kept.1, ?_⟩
      have unchanged : ∀ (orders : StorageMap Nat (JobOrder T)) (updated : JobOrder T),
          (orders.insert settled updated).lookup orderId = orders.lookup orderId := fun orders updated =>
        AList.lookup_insert_ne here
      simpa [State.statusOf, unchanged] using kept.2
  | opens => exact silent fun _ => rfl
  | accepts => exact silent fun _ => rfl
  | expires | idles | purges | rebalances | ticks | drops | advances => exact silent fun _ => rfl

theorem run_settles_once {s₀ : State T} (fresh : NoOrders s₀) (steps : List (Step T))
    (few : FewOrders ((machine T).run s₀ steps)) (orderId : Nat) :
    (((machine T).trace s₀ steps).filter (·.settles orderId)).length ≤ 1 := by
  have related : Numbered ((machine T).run s₀ steps) ∧
      SettledOnce (labels ((machine T).trace s₀ steps)) ((machine T).run s₀ steps) :=
    @run_by_moves T FewOrders (fun seen s => Numbered s ∧ SettledOnce seen s) s₀
      (fun _ _ _ move => move.fewOrders_before) ⟨fresh.numbered, fun _ => .inl rfl⟩
      (fun _ _ _ _ move few held => ⟨move.numbered few held.1, settledOnce_move move held.1 held.2⟩) steps few
  rw [← settlements_labels]
  rcases related.2 orderId with none | ⟨one, _⟩ <;> omega

/-- Escrow conservation. After every run from a chain without orders, what the
pallet holds of an account is the sum of the rewards of its unsettled orders; no
settlement misses its reserve; an order settles at most once; a claim pays
amounts that add up to the reward of a solved order, and a reclaim frees the
reward of an unsolved order for its proposer. -/
theorem escrow_conserved_and_settled_once {s₀ : State T} (fresh : NoOrders s₀) (steps : List (Step T))
    (few : FewOrders ((machine T).run s₀ steps)) :
    let s := (machine T).run s₀ steps
    let trace := (machine T).trace s₀ steps
    (∀ who, reservedFrom s.balances.movements who = unreservedFor s.balances.movements who + escrowOf s who) ∧
    (∀ env origin orderId, claimReward s env origin orderId ≠ .error (.error (.module .rewardReserveMissing))) ∧
    (∀ origin orderId, reclaimOrder s origin orderId ≠ .error (.error (.module .rewardReserveMissing))) ∧
    (∀ orderId, (trace.filter (·.settles orderId)).length ≤ 1) ∧
    (∀ executed ∈ trace, ∀ orderId, executed.call = .claimReward orderId →
      ∃ order payments, executed.before.jobOrders.lookup orderId = some order ∧ 0 < order.solutionCount ∧
        executed.after.balances.movements = executed.before.balances.movements ++
          .unreserve order.proposer order.reward.val :: payments ∧
        TransfersFrom order.proposer payments ∧ transferTotal payments = order.reward.val) ∧
    (∀ executed ∈ trace, ∀ orderId, executed.call = .reclaimOrder orderId →
      ∃ order, executed.before.jobOrders.lookup orderId = some order ∧ order.solutionCount = 0 ∧
        executed.origin = .signed order.proposer ∧
        executed.after.balances.movements = executed.before.balances.movements ++
          [.unreserve order.proposer order.reward.val]) := by
  intro s trace
  have escrow : Escrow s := run_escrow fresh steps few
  refine ⟨escrow.balanced, claimReward_reserve_found escrow, reclaimOrder_reserve_found escrow,
    run_settles_once fresh steps few, ?_, ?_⟩
  · intro executed member orderId called
    obtain ⟨_, env, _, _, _, ran⟩ := trace_executed member
    rw [called] at ran
    obtain ⟨order, payouts, held, solved, computed, move⟩ := claimReward_move ran
    refine ⟨order, transfersOf order.proposer payouts, held, solved, ?_, transfersOf_transfers _ _, ?_⟩
    · exact move.settled_after
    · rw [transferTotal_transfersOf, computePayouts_total computed]
  · intro executed member orderId called
    obtain ⟨_, env, _, _, _, ran⟩ := trace_executed member
    rw [called] at ran
    obtain ⟨order, held, unsolved, signed, move⟩ := reclaimOrder_move ran
    exact ⟨order, held, unsolved, signed, move.settled_after⟩

theorem escrow_conserved_and_settled_once_tinyRun :
    (((machine tinyConfig).trace tinyGenesis tinyRun).filter (·.settles 0)).length = 1 ∧
      reservedFrom ((machine tinyConfig).run tinyGenesis tinyRun).balances.movements (0 : Nat) = 7 ∧
      unreservedFor ((machine tinyConfig).run tinyGenesis tinyRun).balances.movements (0 : Nat) = 7 ∧
      escrowOf ((machine tinyConfig).run tinyGenesis tinyRun) (0 : Nat) = 0 := by
  have settled : (((machine tinyConfig).trace tinyGenesis tinyRun).filter (·.settles 0)).length = 1 := by
    decide +kernel
  have reserved : reservedFrom ((machine tinyConfig).run tinyGenesis tinyRun).balances.movements (0 : Nat) = 7 := by
    decide +kernel
  have returned : unreservedFor ((machine tinyConfig).run tinyGenesis tinyRun).balances.movements (0 : Nat) = 7 := by
    decide +kernel
  have balanced := (escrow_conserved_and_settled_once tinyGenesis_noOrders tinyRun tinyRun_fewOrders).1 (0 : Nat)
  refine ⟨settled, reserved, returned, ?_⟩
  rw [reserved, returned] at balanced
  omega

end Settlement

end QuipValidator.Mempool
