import QuipValidator.MempoolMoves
import QuipValidator.RuntimeConstants

/-! What the two shared payout rules promise the ranked solvers: the whole reward,
in rank order, rounded in favour of the leader. With the runtime's minimum reward
every winner gets at least an existential deposit. -/
namespace QuipValidator.Mempool
open Fallible QuipRuntime

variable {T : Config}

/-- The split of a reward by weights: one payout for each ranked solver, of the floor
of its weighted share, and what the floors leave goes to rank 0. -/
structure Splits (ranked : List (RankedSolver T)) (reward : Nat) (weight : Nat → Nat) (total : Nat)
    (payouts : List (Payout T)) : Prop where
  entries : (payouts.map fun payout => (payout.1, payout.2.2)) =
    ranked.map fun entry => (entry.solver, entry.energyMilli)
  exact : totalPaid payouts = reward
  nonincreasing : (payouts.map fun payout => payout.2.1).Pairwise (· ≥ ·)
  atLeast : ∀ rank payout, payouts[rank]? = some payout → reward * weight rank / total ≤ payout.2.1
  equal : ∀ rank payout, payouts[rank]? = some payout → rank ≠ 0 → payout.2.1 = reward * weight rank / total

/-- Every intermediate value of the rank-weighted split in the range of its
operation: no `saturating_*` stops at a bound. -/
structure SplitUnsaturated (reward count : Nat) : Prop where
  successor : count + 1 ≤ u128Max
  product : count * (count + 1) ≤ u128Max
  weights : ∀ index < count, index ≤ count
  quotient : ∀ index < count, reward / totalWeight count * (count - index) ≤ u128Max
  rest : ∀ index < count, reward % totalWeight count * (count - index) ≤ u128Max
  share : ∀ index < count, reward / totalWeight count * (count - index) +
    reward % totalWeight count * (count - index) / totalWeight count ≤ u128Max
  distributed : ∀ done ≤ count,
    ((List.range done).map (weightedShare reward count (totalWeight count))).sum ≤ u128Max
  remainder : ((List.range count).map (weightedShare reward count (totalWeight count))).sum ≤ reward
  leader : weightedShare reward count (totalWeight count) 0 +
    (reward - ((List.range count).map (weightedShare reward count (totalWeight count))).sum) ≤ u128Max

/-- The payout at a rank, of payouts written position by position. -/
private theorem payout_at {ranked : List (RankedSolver T)} {payouts : List (Payout T)} {amount : Nat → Nat}
    (shape : payouts = ranked.zipIdx.map fun pair => (pair.1.solver, amount pair.2, pair.1.energyMilli)) {rank : Nat}
    {payout : Payout T} (held : payouts[rank]? = some payout) : payout.2.1 = amount rank := by
  rw [shape, List.getElem?_map, Option.map_eq_some_iff] at held
  obtain ⟨pair, listed, rfl⟩ := held
  rw [List.getElem?_zipIdx, Option.map_eq_some_iff] at listed
  obtain ⟨entry, _, rfl⟩ := listed
  rw [Nat.zero_add]

/-- Floors that fall with the rank, with a leftover for rank 0, split the reward. -/
private theorem splits_of_floors {ranked : List (RankedSolver T)} {reward total : Nat} (extra : Nat) {weight : Nat → Nat}
    {payouts : List (Payout T)} (lighter : ∀ low high, low ≤ high → weight high ≤ weight low)
    (shape : payouts = ranked.zipIdx.map fun pair => (pair.1.solver,
      reward * weight pair.2 / total + (if pair.2 = 0 then extra else 0), pair.1.energyMilli))
    (paid : totalPaid payouts = reward) : Splits ranked reward weight total payouts where
  entries := by
    rw [shape, List.map_map]
    have first := congrArg (List.map fun entry : RankedSolver T => (entry.solver, entry.energyMilli))
      (List.zipIdx_map_fst 0 ranked)
    rw [List.map_map] at first
    exact first
  exact := paid
  nonincreasing := by
    have indices : (payouts.map fun payout => payout.2.1) = (List.range ranked.length).map fun index =>
        reward * weight index / total + (if index = 0 then extra else 0) := by
      rw [shape, List.map_map, List.range_eq_range', ← List.zipIdx_map_snd 0 ranked, List.map_map]
      rfl
    rw [indices, List.pairwise_map]
    refine List.pairwise_lt_range.imp ?_
    intro low high below
    have heavier := Nat.div_le_div_right (c := total) (Nat.mul_le_mul_left reward (lighter low high (by omega)))
    rw [if_neg (by omega : high ≠ 0), Nat.add_zero]
    exact heavier.trans (Nat.le_add_right _ _)
  atLeast := by
    intro rank payout held
    have paidOut := @payout_at T ranked payouts (fun index => reward * weight index / total + if index = 0 then extra else 0)
      shape rank payout held
    rw [paidOut]
    exact Nat.le_add_right _ _
  equal := by
    intro rank payout held later
    have paidOut := @payout_at T ranked payouts (fun index => reward * weight index / total + if index = 0 then extra else 0)
      shape rank payout held
    rw [paidOut, if_neg later, Nat.add_zero]

theorem topNEqualPayouts_splits {ranked : List (RankedSolver T)} (occupied : ranked ≠ []) (reward : Nat) :
    Splits ranked reward (fun _ => 1) ranked.length (topNEqualPayouts ranked reward) := by
  refine splits_of_floors (reward % ranked.length) (fun _ _ _ => Nat.le_refl _) ?_
    (topNEqualPayouts_total occupied reward)
  rw [topNEqualPayouts, if_neg (by simpa using occupied), Nat.mul_one]

theorem topNWeightedPayouts_splits {ranked : List (RankedSolver T)} {reward : Nat} (occupied : ranked ≠ [])
    (few : ranked.length < 2 ^ 32) (rewardFits : reward ≤ u128Max) :
    Splits ranked reward (fun rank => ranked.length - rank) (totalWeight ranked.length)
      (topNWeightedPayouts ranked reward) := by
  refine splits_of_floors (leftover reward ranked.length) (fun _ _ _ => by omega) ?_
    (topNWeightedPayouts_total occupied few rewardFits)
  exact topNWeightedPayouts_eq occupied few rewardFits

theorem split_unsaturated {reward count : Nat} (occupied : 0 < count) (few : count < 2 ^ 32)
    (rewardFits : reward ≤ u128Max) : SplitUnsaturated reward count := by
  have wide := count_le_totalWeight count
  have square : count * (count + 1) ≤ 2 ^ 32 * 2 ^ 32 := Nat.mul_le_mul (by omega) (by omega)
  have doubled := totalWeight_mul_two count
  have below : reward % totalWeight count < totalWeight count := Nat.mod_lt _ (by omega)
  have shares : (List.range count).map (weightedShare reward count (totalWeight count)) =
      (List.range count).map (floorShare reward count) :=
    List.map_congr_left fun index _ => weightedShare_eq_floor rewardFits few occupied index
  have within := floorShares_le reward occupied
  have shareFits : ∀ index, reward / totalWeight count * (count - index) +
      reward % totalWeight count * (count - index) / totalWeight count ≤ u128Max := by
    intro index
    rw [split_floor _ _ (by omega)]
    refine le_trans ?_ rewardFits
    apply Nat.div_le_of_le_mul
    rw [Nat.mul_comm]
    exact Nat.mul_le_mul_right _ (by omega)
  refine ⟨by simp only [u128Max]; omega, square.trans (by decide), fun _ below => by omega, ?_, ?_,
    fun index _ => shareFits index, ?_, by rw [shares]; exact within, ?_⟩
  · exact fun index _ => (Nat.le_add_right _ _).trans (shareFits index)
  · intro index _
    have bound : reward % totalWeight count * (count - index) ≤ 2 ^ 64 * 2 ^ 32 :=
      Nat.mul_le_mul (by omega) (by omega)
    exact bound.trans (by decide)
  · intro done early
    refine le_trans ?_ rewardFits
    refine le_trans ?_ (shares ▸ within)
    have sublist : List.Sublist (List.range done) (List.range count) := List.range_sublist.mpr early
    exact (sublist.map _).sum_le_sum fun _ _ => Nat.zero_le _
  · rw [shares, weightedShare_eq_floor rewardFits few occupied]
    have member : floorShare reward count 0 ≤ ((List.range count).map (floorShare reward count)).sum :=
      List.single_le_sum (fun _ _ => Nat.zero_le _) _ (List.mem_map_of_mem (List.mem_range.mpr occupied))
    omega

/-- Every payout of a split is at least the share of weight 1. -/
private theorem Splits.unit_share {ranked : List (RankedSolver T)} {reward total : Nat} {weight : Nat → Nat}
    {payouts : List (Payout T)} (splits : Splits ranked reward weight total payouts)
    (weighs : ∀ rank < ranked.length, 1 ≤ weight rank) {payout : Payout T} (member : payout ∈ payouts) :
    reward / total ≤ payout.2.1 := by
  obtain ⟨rank, held⟩ := List.mem_iff_getElem?.mp member
  have sameLength : payouts.length = ranked.length := by
    have lengths := congrArg List.length splits.entries
    simpa using lengths
  have inside : rank < payouts.length := (List.getElem?_eq_some_iff.mp held).1
  refine le_trans ?_ (splits.atLeast rank payout held)
  apply Nat.div_le_div_right
  have heavy := Nat.mul_le_mul_left reward (weighs rank (by omega))
  omega

/-- With at most 32 winners and at least the runtime's minimum reward, neither split
pays dust. -/
theorem split_covers_deposit {ranked : List (RankedSolver T)} {reward : Nat} (occupied : ranked ≠ [])
    (few : ranked.length ≤ MAX_REWARD_WINNERS) (enough : QuantumMinReward ≤ reward) (rewardFits : reward ≤ u128Max)
    {payout : Payout T} (member : payout ∈ topNEqualPayouts ranked reward ∨ payout ∈ topNWeightedPayouts ranked reward) :
    EXISTENTIAL_DEPOSIT ≤ payout.2.1 := by
  have positive : 0 < ranked.length := List.length_pos_iff.mpr occupied
  have worst : totalWeight ranked.length ≤ totalWeight MAX_REWARD_WINNERS :=
    Nat.div_le_div_right (Nat.mul_le_mul few (by omega))
  have wide := count_le_totalWeight ranked.length
  have covers : ∀ total, 0 < total → total ≤ totalWeight MAX_REWARD_WINNERS →
      EXISTENTIAL_DEPOSIT ≤ reward / total := by
    intro total some below
    rw [Nat.le_div_iff_mul_le some]
    have product : EXISTENTIAL_DEPOSIT * total ≤ EXISTENTIAL_DEPOSIT * totalWeight MAX_REWARD_WINNERS :=
      Nat.mul_le_mul_left _ below
    exact product.trans (le_trans (by decide) enough)
  rcases member with equal | weighted
  · exact (covers _ positive (by omega)).trans
      ((topNEqualPayouts_splits occupied reward).unit_share (fun _ _ => Nat.le_refl 1) equal)
  · have small : ranked.length < 2 ^ 32 := lt_of_le_of_lt few (by decide)
    exact (covers _ (by omega) worst).trans
      ((topNWeightedPayouts_splits occupied small rewardFits).unit_share (fun _ _ => by omega) weighted)

/-- The payouts of `claim_reward` for an order of at least the minimum reward. -/
theorem computePayouts_covers_deposit {s : State T} {orderId : Nat} {order : JobOrder T} {payouts : List (Payout T)}
    (enough : QuantumMinReward ≤ order.reward.val) (computed : computePayouts s orderId order = .ok payouts)
    {payout : Payout T} (member : payout ∈ payouts) : EXISTENTIAL_DEPOSIT ≤ payout.2.1 := by
  have rewardFits : order.reward.val ≤ u128Max := Nat.le_of_lt_succ order.reward.isLt
  have few := (s.topSolvers orderId).property
  unfold computePayouts at computed
  split at computed
  · simp only [bind_success] at computed
    obtain ⟨front, _, same⟩ := computed
    cases same
    obtain rfl := List.mem_singleton.mp member
    exact le_trans (by decide) enough
  · simp only [bind_success, ensure_success] at computed
    obtain ⟨_, occupied, same⟩ := computed
    cases same
    exact split_covers_deposit occupied few enough rewardFits (.inl member)
  · simp only [bind_success, ensure_success] at computed
    obtain ⟨_, occupied, same⟩ := computed
    cases same
    exact split_covers_deposit occupied few enough rewardFits (.inr member)

/-- The same currency, if it also refused every transfer below the existential
deposit: it would then refuse any transfer that leaves a fresh account with dust. -/
def Env.refusingDust (env : Env T) : Env T :=
  { env with canTransfer := fun source dest amount =>
      env.canTransfer source dest amount && decide (EXISTENTIAL_DEPOSIT ≤ amount) }

private theorem transfer_refusingDust {balances : Balances T} {env : Env T} {source dest : T.AccountId} {amount : Nat}
    (covers : EXISTENTIAL_DEPOSIT ≤ amount) :
    balances.transfer env.refusingDust source dest amount = balances.transfer env source dest amount := by
  have agrees : env.refusingDust.canTransfer source dest amount = env.canTransfer source dest amount := by
    simp [Env.refusingDust, covers]
  rw [Balances.transfer, agrees]
  rfl

private theorem payWinners_refusingDust {env : Env T} {orderId : Nat} {proposer : T.AccountId}
    (payouts : List (Payout T)) (covers : ∀ payout ∈ payouts, EXISTENTIAL_DEPOSIT ≤ payout.2.1) (s : State T) :
    payWinners env.refusingDust orderId proposer payouts s = payWinners env orderId proposer payouts s := by
  induction payouts generalizing s with
  | nil => rfl
  | cons payout rest ih =>
    obtain ⟨winner, amount, energy⟩ := payout
    have later := ih fun payout member => covers payout (List.mem_cons_of_mem _ member)
    simp only [payWinners]
    rw [transfer_refusingDust (covers _ List.mem_cons_self)]
    simp only [later]

/-- Orders are funded with at least the minimum reward. -/
def Funded (s : State T) : Prop :=
  ∀ orderId order, s.jobOrders.lookup orderId = some order → T.minReward ≤ order.reward

private theorem checkProposal_reward {s : State T} {proposal : Proposal T} (checked : checkProposal s proposal = .ok ()) :
    T.minReward ≤ proposal.reward := by
  simp only [checkProposal, bind_success, ensure_success] at checked
  obtain ⟨_, enough, _⟩ := checked
  exact enough

private theorem Funded.insert {s after : State T} (funded : Funded s) {orderId : Nat} {order : JobOrder T}
    (inserted : after.jobOrders = s.jobOrders.insert orderId order) (enough : T.minReward ≤ order.reward) :
    Funded after := by
  intro probe found held
  rw [inserted, StorageMap.lookup_insert_ite] at held
  split at held
  · cases held
    exact enough
  · exact funded probe found held

theorem Move.funded {s after : State T} {label : Option (Label T)} (move : Move s label after) (funded : Funded s) :
    Funded after := by
  cases move with
  | opens checked => exact funded.insert rfl (checkProposal_reward checked)
  | accepts held =>
    have enough := funded _ _ held
    exact funded.insert rfl enough
  | closes held =>
    have enough := funded _ _ held
    exact funded.insert rfl enough
  | expires _ held =>
    have enough := funded _ _ held
    exact funded.insert rfl enough
  | idles | purges | rebalances | ticks | drops | advances => exact funded

theorem run_funded {s₀ : State T} (fresh : NoOrders s₀) (steps : List (Step T)) :
    Funded ((machine T).run s₀ steps) := by
  refine @run_by_moves T (fun _ => True) (fun _ s => Funded s) s₀ (fun _ _ _ _ _ => trivial) ?_ ?_ steps trivial
  · intro orderId order held
    rw [fresh.jobOrders] at held
    cases held
  · exact fun _ _ _ _ move _ funded => move.funded funded

/-- A continuation counts only where the action succeeds. -/
private theorem bind_agree {α β ε : Type} {action : Fallible ε α} {first second : α → Fallible ε β}
    (agree : ∀ value, action = .ok value → first value = second value) :
    (action >>= first) = (action >>= second) := by
  cases ran : action with
  | error fault => rfl
  | ok value => exact agree value ran

/-- `claim_reward` never makes a transfer that could be refused as dust. -/
theorem claimReward_refusingDust {s : State T} (minimum : T.minReward.val = QuantumMinReward) (funded : Funded s)
    (env : Env T) (origin : Origin T) (orderId : Nat) :
    claimReward s env.refusingDust origin orderId = claimReward s env origin orderId := by
  unfold claimReward
  refine bind_agree fun _ _ => ?_
  refine bind_agree fun order held => ?_
  refine bind_agree fun spec _ => ?_
  refine bind_agree fun _ _ => ?_
  refine bind_agree fun _ _ => ?_
  refine bind_agree fun _ _ => ?_
  refine bind_agree fun payouts computed => ?_
  refine bind_agree fun winners _ => ?_
  refine bind_agree fun _ _ => ?_
  have enough : QuantumMinReward ≤ order.reward.val := by
    rw [← minimum]
    exact funded orderId order (okOr_success.mp held)
  have covers : ∀ payout ∈ payouts, EXISTENTIAL_DEPOSIT ≤ payout.2.1 :=
    fun payout member => computePayouts_covers_deposit enough computed member
  simp only [payWinners_refusingDust payouts covers]

/-- The shared payout rules. Both splits are exact, ordered and rounded down for
everyone but the leader, and computed without saturation; from the runtime's minimum
reward on nobody is paid less than an existential deposit, so in no state a run
reaches is a transfer of `claim_reward` refused as dust. -/
theorem reward_split (T : Config) :
    (∀ (ranked : List (RankedSolver T)) (reward : Nat), ranked ≠ [] → ranked.length < 2 ^ 32 → reward ≤ u128Max →
      Splits ranked reward (fun _ => 1) ranked.length (topNEqualPayouts ranked reward) ∧
      reward / ranked.length + reward % ranked.length ≤ u128Max ∧
      Splits ranked reward (fun rank => ranked.length - rank) (totalWeight ranked.length)
        (topNWeightedPayouts ranked reward) ∧
      SplitUnsaturated reward ranked.length) ∧
    (∀ (ranked : List (RankedSolver T)) (reward : Nat), ranked ≠ [] → ranked.length ≤ MAX_REWARD_WINNERS →
      QuantumMinReward ≤ reward → reward ≤ u128Max →
      ∀ payout, payout ∈ topNEqualPayouts ranked reward ∨ payout ∈ topNWeightedPayouts ranked reward →
        EXISTENTIAL_DEPOSIT ≤ payout.2.1) ∧
    (T.minReward.val = QuantumMinReward → ∀ s₀, NoOrders s₀ → ∀ steps env origin orderId,
      claimReward ((machine T).run s₀ steps) env.refusingDust origin orderId =
        claimReward ((machine T).run s₀ steps) env origin orderId) := by
  refine ⟨?_, ?_, ?_⟩
  · intro ranked reward occupied few rewardFits
    have positive : 0 < ranked.length := List.length_pos_iff.mpr occupied
    refine ⟨topNEqualPayouts_splits occupied reward, ?_, topNWeightedPayouts_splits occupied few rewardFits,
      split_unsaturated positive few rewardFits⟩
    have whole := Nat.div_add_mod reward ranked.length
    have once := Nat.le_mul_of_pos_left (reward / ranked.length) positive
    omega
  · intro ranked reward occupied few enough rewardFits payout member
    exact split_covers_deposit occupied few enough rewardFits member
  · intro minimum s₀ fresh steps env origin orderId
    exact claimReward_refusingDust minimum (run_funded fresh steps) env origin orderId

/-- A small runtime with the runtime's minimum reward. -/
def unitRewardConfig : Config := { tinyConfig with minReward := ⟨QuantumMinReward, by decide⟩ }

/-- Three ranked solvers. -/
def threeRanked : List (RankedSolver unitRewardConfig) :=
  [⟨(1 : Nat), -9⟩, ⟨(2 : Nat), -4⟩, ⟨(3 : Nat), -4⟩]

/-- A chain of that runtime on which nothing has happened. -/
def unitRewardGenesis : State unitRewardConfig where
  blockNumber := 1
  jobSpecs := ∅
  jobOrders := ∅
  nextOrderId := 0
  openOrders := ∅
  ordersExpiringAt := ∅
  nextExpiryBucket := 0
  orderSolutions := ∅
  orderPayeeRequirements := ∅
  orderPayees := ∅
  orderFrontRunner := ∅
  orderTopSolvers := ∅
  solvers := ∅
  proposerOrders := ∅
  orderResults := ∅
  events := []
  logs := []
  balances := { free := fun _ => 0, reserved := fun _ => 0, movements := [] }
  lastScheduled := fun _ => none

theorem reward_split_three :
    totalPaid (topNWeightedPayouts threeRanked 1000000000001) = 1000000000001 ∧
      (topNWeightedPayouts threeRanked 1000000000001).map (fun payout => payout.2.1) =
        [500000000002, 333333333333, 166666666666] ∧
      (∀ payout ∈ topNWeightedPayouts threeRanked 1000000000001, EXISTENTIAL_DEPOSIT ≤ payout.2.1) ∧
      ∀ env, claimReward unitRewardGenesis env.refusingDust .root 0 = claimReward unitRewardGenesis env .root 0 := by
  obtain ⟨split, covered, claims⟩ := reward_split unitRewardConfig
  obtain ⟨_, _, weighted, _⟩ := split threeRanked 1000000000001 (by decide) (by decide) (by decide)
  refine ⟨weighted.exact, by decide, ?_, ?_⟩
  · exact fun payout member =>
      covered threeRanked 1000000000001 (by decide) (by decide) (by decide) (by decide) payout (.inr member)
  · exact fun env => claims rfl unitRewardGenesis
      ⟨rfl, rfl, rfl, rfl, by decide, rfl, rfl, rfl, rfl, rfl, rfl, rfl, rfl, rfl, rfl⟩ [] env .root 0

end QuipValidator.Mempool
