import QuipValidator.OverdueOrders

/-! The two tables that count: `JobSpecs` with its orders and settlements, and
`Solvers` with its submissions and rewards. Each counter is what the orders, or
the log of a run, say it is. -/
namespace QuipValidator.Mempool
open Fallible

variable {T : Config} {s after : State T} {env : Env T} {origin : Origin T}

section Effects

/-- The reward entry of one payout. -/
def earning (solvers : StorageMap T.AccountId (SolverInfo T)) (payout : Payout T) :
    StorageMap T.AccountId (SolverInfo T) :=
  if payout.2.1 = 0 then solvers
  else mutateSome solvers payout.1 fun solver =>
    { solver with rewardsEarned := saturatingAdd u128Max solver.rewardsEarned payout.2.1 }

private theorem payWinners_records {orderId : Nat} {proposer : T.AccountId} (payouts : List (Payout T))
    (ran : payWinners env orderId proposer payouts s = .ok after) :
    after.jobSpecs = s.jobSpecs ∧ after.jobOrders = s.jobOrders ∧ after.solvers = payouts.foldl earning s.solvers := by
  induction payouts generalizing s with
  | nil =>
    cases ran
    exact ⟨rfl, rfl, rfl⟩
  | cons payout rest ih =>
    obtain ⟨winner, amount, energy⟩ := payout
    simp only [payWinners] at ran
    rw [List.foldl_cons, earning]
    split at ran
    · rename_i zero
      rw [if_pos zero]
      exact ih ran
    · rename_i positive
      obtain ⟨balances, _, ran⟩ := bind_success.mp ran
      rw [if_neg positive]
      exact ih ran

/-- A claim closes the order, counts it for its spec and credits its winners. -/
theorem claimReward_records {orderId : Nat} (ran : claimReward s env origin orderId = .ok after) :
    ∃ order spec payouts, s.jobOrders.lookup orderId = some order ∧ s.jobSpecs.lookup order.specId = some spec ∧
      order.status = .expired ∧ 0 < order.solutionCount ∧ computePayouts s orderId order = .ok payouts ∧
      after.jobOrders = s.jobOrders.insert orderId { order with status := .closed } ∧
      after.jobSpecs = s.jobSpecs.insert order.specId
        { spec with successfulOrders := saturatingAdd u64Max spec.successfulOrders 1 } ∧
      after.solvers = payouts.foldl earning s.solvers := by
  simp only [claimReward, bind_success, pure_success, okOr_success, ensure_success] at ran
  obtain ⟨_, _, order, held, spec, known, _, _, _, expired, _, solved, payouts, computed, _, _, _, _, _, _, paid,
    ran, rfl⟩ := ran
  obtain ⟨specs, orders, solvers⟩ := payWinners_records payouts ran
  refine ⟨order, spec, payouts, held, known, expired, solved, computed, ?_⟩
  rw [closeOrder_effect paid orderId order rfl]
  refine ⟨?_, ?_, solvers⟩
  · simp only [State.deposit, orders]
  · simp only [State.deposit, specs, mutateSome, known]

theorem reclaimOrder_records {orderId : Nat} (ran : reclaimOrder s origin orderId = .ok after) :
    ∃ order, s.jobOrders.lookup orderId = some order ∧ order.status = .expired ∧ order.solutionCount = 0 ∧
      after.jobOrders = s.jobOrders.insert orderId { order with status := .closed } ∧
      after.jobSpecs = s.jobSpecs ∧ after.solvers = s.solvers := by
  simp only [reclaimOrder, bind_success, pure_success, okOr_success, ensure_success] at ran
  obtain ⟨caller, _, order, held, _, _, _, _, _, expired, _, unsolved, _, _, rfl⟩ := ran
  refine ⟨order, held, expired, unsolved, ?_⟩
  rw [closeOrder_effect _ orderId order rfl]
  exact ⟨rfl, rfl, rfl⟩

/-- A submission is counted for its solver. -/
theorem submitSolutionInner_records {orderId : Nat} {solver : T.AccountId} {solutions : Solutions T}
    {payee : Option WinnerPayee} (ran : (submitSolutionInner s env solver orderId solutions payee).2 = .ok after) :
    ∃ info, s.solvers.lookup solver = some info ∧ after.jobSpecs = s.jobSpecs ∧
      after.solvers = s.solvers.insert solver
        { info with solutionsSubmitted := saturatingAdd u64Max info.solutionsSubmitted 1 } := by
  unfold submitSolutionInner at ran
  split at ran
  · cases ran
  rename_i admitted passed
  simp only [admitSubmission, bind_success, pure_success, okOr_success] at passed
  obtain ⟨info, registered, _, _, order, _, spec, _, _, _, _, _, _, _, topology, _, rfl⟩ := passed
  simp only [settleSubmission, bind_success, storeSubmission] at ran
  obtain ⟨transformed, _, record, _, ranked, ranking, same⟩ := ran
  cases same
  obtain ⟨waited, _, started⟩ := startBlockWait_effect
    { s with orderSolutions := s.orderSolutions.insert orderId solver record } orderId solver
    (if (s.orderSolutions.get orderId solver).isNone then
      { order with solutionCount := saturatingAdd u32Max order.solutionCount 1 } else order)
  rw [started] at ranking
  obtain ⟨fronts, tops, led, _, _, rfl⟩ := updateRanking_effect (s := s) ranking rfl rfl
  obtain ⟨payees, told, _, _, written⟩ := setPayee_effect _ orderId solver payee
  exact ⟨info, registered, by rw [written]; rfl, by rw [written]; rfl⟩

private theorem checkProposal_known {proposal : Proposal T} (checked : checkProposal s proposal = .ok ()) :
    ∃ spec, s.jobSpecs.lookup proposal.specId = some spec := by
  simp only [checkProposal, bind_success, ensure_success] at checked
  obtain ⟨_, _, _, _, _, _, _, known, _⟩ := checked
  exact Option.isSome_iff_exists.mp known

/-- A proposal is counted for its spec. -/
theorem doProposeJob_records {proposer : T.AccountId} {proposal : Proposal T} {orderId : Nat}
    (ran : doProposeJob s env proposer proposal = .ok (after, orderId)) :
    ∃ spec, s.jobSpecs.lookup proposal.specId = some spec ∧
      after.jobOrders = s.jobOrders.insert s.nextOrderId (proposal.order proposer s.blockNumber) ∧
      after.jobSpecs = s.jobSpecs.insert proposal.specId
        { spec with totalOrders := saturatingAdd u64Max spec.totalOrders 1 } ∧
      after.solvers = s.solvers := by
  obtain ⟨_, checked, slots, free, _, rfl⟩ := doProposeJob_success ran
  obtain ⟨spec, known⟩ := checkProposal_known checked
  refine ⟨spec, known, rfl, ?_, rfl⟩
  simp only [openOrder, scheduleExpiry, State.deposit, mutateSome, known]

end Effects

section Specs

/-- One order counted for a spec. -/
def placed (specId : T.Hash) (order : JobOrder T) : Nat := if order.specId = specId then 1 else 0

/-- One solved and settled order counted for a spec. -/
def rewarded (specId : T.Hash) (order : JobOrder T) : Nat :=
  if order.specId = specId ∧ order.status = .closed ∧ 0 < order.solutionCount then 1 else 0

def countOrders (s : State T) (weigh : JobOrder T → Nat) : Nat := s.jobOrders.sum fun _ order => weigh order

/-- Every spec stands under the hash of what it says, with the orders it has been
used for and the rewarded ones among them; every order has its spec. -/
structure SpecBook (s : State T) : Prop where
  addressed : ∀ specId spec, s.jobSpecs.lookup specId = some spec →
    specId = jobSpecId T spec.name spec.formulation spec.validationProgram spec.transformProgram
  total : ∀ specId spec, s.jobSpecs.lookup specId = some spec → spec.totalOrders = countOrders s (placed specId)
  successful : ∀ specId spec, s.jobSpecs.lookup specId = some spec →
    spec.successfulOrders = countOrders s (rewarded specId)
  known : ∀ orderId order, s.jobOrders.lookup orderId = some order →
    ∃ spec, s.jobSpecs.lookup order.specId = some spec

/-- A spec after some of its orders were placed and rewarded. -/
structure SpecGrows (before after : JobSpec T) : Prop where
  same : after = { before with totalOrders := after.totalOrders, successfulOrders := after.successfulOrders }
  total : before.totalOrders ≤ after.totalOrders
  successful : before.successfulOrders ≤ after.successfulOrders

/-- No spec is lost or rewritten. -/
def SpecsGrow (s after : State T) : Prop :=
  ∀ specId spec, s.jobSpecs.lookup specId = some spec →
    ∃ later, after.jobSpecs.lookup specId = some later ∧ SpecGrows spec later

theorem SpecGrows.refl (spec : JobSpec T) : SpecGrows spec spec := ⟨rfl, Nat.le_refl _, Nat.le_refl _⟩

theorem SpecGrows.trans {first second third : JobSpec T} (earlier : SpecGrows first second)
    (later : SpecGrows second third) : SpecGrows first third :=
  ⟨by rw [later.same, earlier.same], Nat.le_trans earlier.total later.total,
    Nat.le_trans earlier.successful later.successful⟩

theorem SpecsGrow.of_same (same : after.jobSpecs = s.jobSpecs) : SpecsGrow s after := by
  intro specId spec held
  exact ⟨spec, by rw [same, held], .refl spec⟩

theorem SpecsGrow.trans {middle : State T} (earlier : SpecsGrow s middle) (later : SpecsGrow middle after) :
    SpecsGrow s after := by
  intro specId spec held
  obtain ⟨second, heldThen, grown⟩ := earlier specId spec held
  obtain ⟨third, heldNow, further⟩ := later specId second heldThen
  exact ⟨third, heldNow, grown.trans further⟩

/-- A spec written over itself with higher counters. -/
theorem SpecsGrow.of_insert {specId : T.Hash} {spec updated : JobSpec T}
    (held : s.jobSpecs.lookup specId = some spec) (grows : SpecGrows spec updated)
    (written : after.jobSpecs = s.jobSpecs.insert specId updated) : SpecsGrow s after := by
  intro probe found heldProbe
  rw [written, StorageMap.lookup_insert_ite]
  split
  · rename_i same
    rw [same, held] at heldProbe
    cases heldProbe
    exact ⟨updated, rfl, grows⟩
  · exact ⟨found, heldProbe, .refl found⟩

/-- The order book as the spec counters see it has not changed. -/
structure Recounts (s after : State T) : Prop where
  total : ∀ specId, countOrders after (placed specId) = countOrders s (placed specId)
  successful : ∀ specId, countOrders after (rewarded specId) = countOrders s (rewarded specId)
  specs : ∀ orderId updated, after.jobOrders.lookup orderId = some updated →
    ∃ order, s.jobOrders.lookup orderId = some order ∧ updated.specId = order.specId

theorem Recounts.of_same (same : after.jobOrders = s.jobOrders) : Recounts s after := by
  refine ⟨fun _ => by rw [countOrders, countOrders, same], fun _ => by rw [countOrders, countOrders, same], ?_⟩
  intro orderId updated held
  rw [same] at held
  exact ⟨updated, held, rfl⟩

theorem Recounts.trans {middle : State T} (earlier : Recounts s middle) (later : Recounts middle after) :
    Recounts s after := by
  refine ⟨fun specId => (later.total specId).trans (earlier.total specId),
    fun specId => (later.successful specId).trans (earlier.successful specId), ?_⟩
  intro orderId updated held
  obtain ⟨between, heldThen, same⟩ := later.specs orderId updated held
  obtain ⟨order, heldFirst, first⟩ := earlier.specs orderId between heldThen
  exact ⟨order, heldFirst, same.trans first⟩

private theorem countOrders_rewritten {orderId : Nat} {order updated : JobOrder T}
    (held : s.jobOrders.lookup orderId = some order) (written : after.jobOrders = s.jobOrders.insert orderId updated)
    (weigh : JobOrder T → Nat) : countOrders after weigh + weigh order = countOrders s weigh + weigh updated := by
  have total := StorageMap.sum_insert s.jobOrders (fun _ order => weigh order) orderId updated
  rw [held] at total
  rw [countOrders, written]
  exact total

/-- An order rewritten without being rewarded. -/
theorem Recounts.of_insert {orderId : Nat} {order updated : JobOrder T} (held : s.jobOrders.lookup orderId = some order)
    (written : after.jobOrders = s.jobOrders.insert orderId updated) (sameSpec : updated.specId = order.specId)
    (unrewarded : ∀ specId, rewarded specId updated = rewarded specId order) : Recounts s after := by
  refine ⟨fun specId => ?_, fun specId => ?_, ?_⟩
  · have total := countOrders_rewritten held written (placed specId)
    have same : placed specId updated = placed specId order := by rw [placed, placed, sameSpec]
    omega
  · have total := countOrders_rewritten held written (rewarded specId)
    rw [unrewarded specId] at total
    exact Nat.add_right_cancel total
  · intro probe found reached
    rw [written, StorageMap.lookup_insert_ite] at reached
    split at reached
    · rename_i same
      cases reached
      exact ⟨order, by rw [same, held], sameSpec⟩
    · exact ⟨found, reached, rfl⟩

theorem SpecBook.recounts (book : SpecBook s) (sameSpecs : after.jobSpecs = s.jobSpecs) (orders : Recounts s after) :
    SpecBook after := by
  refine ⟨?_, ?_, ?_, ?_⟩
  · rw [sameSpecs]
    exact book.addressed
  · intro specId spec held
    rw [sameSpecs] at held
    rw [orders.total]
    exact book.total specId spec held
  · intro specId spec held
    rw [sameSpecs] at held
    rw [orders.successful]
    exact book.successful specId spec held
  · intro orderId updated held
    obtain ⟨order, heldBefore, same⟩ := orders.specs orderId updated held
    rw [sameSpecs, same]
    exact book.known orderId order heldBefore

/-- An open or expired order counts as rewarded nowhere. -/
private theorem rewarded_open {order : JobOrder T} (unclosed : order.status ≠ .closed) (specId : T.Hash) :
    rewarded specId order = 0 := by
  rw [rewarded, if_neg]
  rintro ⟨_, closed, _⟩
  exact unclosed closed

theorem Move.recounts (move : Move s none after) : Recounts s after := by
  cases move with
  | idles | purges | rebalances | ticks | drops | advances => exact .of_same rfl
  | expires _ held opened =>
    refine .of_insert held rfl rfl fun specId => ?_
    exact (rewarded_open (by simp) specId).trans (rewarded_open (by rw [opened]; decide) specId).symm

theorem Moves.recounts (moves : Moves s after) : Recounts s after := by
  induction moves with
  | refl => exact .of_same rfl
  | tail _ move ih => exact ih.trans move.recounts

/-- An accepted submission leaves the order open. -/
private theorem accepted_recounts {orderId : Nat} {entry : Accepted T} (move : Move s (some (.accepted orderId entry)) after) :
    Recounts s after := by
  cases move with
  | @accepts _ order _ _ _ _ _ _ held opened =>
    refine .of_insert held rfl rfl fun specId => ?_
    have unclosed : (order.accepting s.blockNumber (s.orderSolutions.get orderId entry.solver).isNone).status ≠ .closed := by
      rw [JobOrder.accepting, opened]
      decide
    exact (rewarded_open unclosed specId).trans (rewarded_open (by rw [opened]; decide) specId).symm

/-- One spec's counters move with the orders counted for it. -/
private theorem SpecBook.of_insert {specId : T.Hash} {updated : JobSpec T} (book : SpecBook s)
    (written : after.jobSpecs = s.jobSpecs.insert specId updated)
    (address : specId = jobSpecId T updated.name updated.formulation updated.validationProgram updated.transformProgram)
    (total : updated.totalOrders = countOrders after (placed specId))
    (successful : updated.successfulOrders = countOrders after (rewarded specId))
    (others : ∀ other, other ≠ specId → countOrders after (placed other) = countOrders s (placed other) ∧
      countOrders after (rewarded other) = countOrders s (rewarded other))
    (orders : ∀ orderId order, after.jobOrders.lookup orderId = some order →
      ∃ found, s.jobSpecs.lookup order.specId = some found) : SpecBook after := by
  have inspect : ∀ probe found, after.jobSpecs.lookup probe = some found →
      probe = specId ∧ found = updated ∨ probe ≠ specId ∧ s.jobSpecs.lookup probe = some found := by
    intro probe found held
    rw [written, StorageMap.lookup_insert_ite] at held
    split at held
    · rename_i same
      cases held
      exact .inl ⟨same, rfl⟩
    · rename_i different
      exact .inr ⟨different, held⟩
  refine ⟨?_, ?_, ?_, ?_⟩
  · intro probe found held
    rcases inspect probe found held with ⟨rfl, rfl⟩ | ⟨_, before⟩
    · exact address
    · exact book.addressed _ _ before
  · intro probe found held
    rcases inspect probe found held with ⟨rfl, rfl⟩ | ⟨different, before⟩
    · exact total
    · rw [(others probe different).1]
      exact book.total _ _ before
  · intro probe found held
    rcases inspect probe found held with ⟨rfl, rfl⟩ | ⟨different, before⟩
    · exact successful
    · rw [(others probe different).2]
      exact book.successful _ _ before
  · intro orderId order held
    obtain ⟨found, before⟩ := orders orderId order held
    rw [written, StorageMap.lookup_insert_ite]
    split
    · exact ⟨updated, rfl⟩
    · exact ⟨found, before⟩

/-- A counter of orders stays below the end of `u64`. -/
private theorem countOrders_fits {weigh : JobOrder T → Nat} (few : FewOrders s) (light : ∀ order, weigh order ≤ 1) :
    countOrders s weigh ≤ u64Max := by
  have bound : countOrders s weigh ≤ s.jobOrders.size := StorageMap.sum_le_size fun _ => light
  have fits : s.jobOrders.size < 2 ^ 64 := few
  unfold u64Max
  omega

private theorem placed_le (specId : T.Hash) (order : JobOrder T) : placed specId order ≤ 1 := by
  rw [placed]
  split <;> decide

private theorem rewarded_le (specId : T.Hash) (order : JobOrder T) : rewarded specId order ≤ 1 := by
  rw [rewarded]
  split <;> decide

/-- A new order of a known spec. -/
private theorem proposed_book {proposer : T.AccountId} {proposal : Proposal T} {orderId : Nat} {next : State T}
    (book : SpecBook s) (numbered : Numbered s) (few : FewOrders next)
    (ran : doProposeJob s env proposer proposal = .ok (after, orderId)) (sameSpecs : next.jobSpecs = after.jobSpecs)
    (sameOrders : next.jobOrders = after.jobOrders) : SpecBook next ∧ SpecsGrow s next := by
  obtain ⟨spec, known, orders, specs, _⟩ := doProposeJob_records ran
  rw [orders] at sameOrders
  rw [specs] at sameSpecs
  have count : ∀ weigh : JobOrder T → Nat,
      countOrders next weigh = countOrders s weigh + weigh (proposal.order proposer s.blockNumber) := by
    intro weigh
    have total := StorageMap.sum_insert s.jobOrders (fun _ order => weigh order) s.nextOrderId
      (proposal.order proposer s.blockNumber)
    rw [numbered.fresh] at total
    rw [countOrders, sameOrders]
    exact total
  have isPlaced : ∀ specId, placed specId (proposal.order proposer s.blockNumber) =
      if proposal.specId = specId then 1 else 0 := fun _ => rfl
  have unrewarded : ∀ specId, rewarded specId (proposal.order proposer s.blockNumber) = 0 :=
    rewarded_open (by simp [Proposal.order])
  have total : spec.totalOrders + 1 = countOrders next (placed proposal.specId) := by
    rw [count, isPlaced, if_pos rfl, book.total _ _ known]
  have fits := countOrders_fits few (placed_le proposal.specId)
  rw [saturatingAdd_of_le (by omega)] at sameSpecs
  have grown : SpecGrows spec { spec with totalOrders := spec.totalOrders + 1 } :=
    ⟨rfl, Nat.le_succ _, Nat.le_refl _⟩
  refine ⟨book.of_insert sameSpecs (book.addressed _ spec known) total ?_ ?_ ?_, .of_insert known grown sameSpecs⟩
  · rw [count, unrewarded, Nat.add_zero]
    exact book.successful _ spec known
  · intro other different
    rw [count, count, isPlaced, unrewarded, if_neg fun same => different same.symm]
    exact ⟨rfl, rfl⟩
  · intro probe order held
    rw [sameOrders, StorageMap.lookup_insert_ite] at held
    split at held
    · cases held
      exact ⟨spec, known⟩
    · exact book.known probe order held

/-- A claim rewards one order that was counted before. -/
private theorem claimed_book {orderId : Nat} (book : SpecBook s) (few : FewOrders after)
    (ran : claimReward s env origin orderId = .ok after) : SpecBook after ∧ SpecsGrow s after := by
  obtain ⟨order, spec, payouts, held, known, expired, solved, _, orders, specs, _⟩ := claimReward_records ran
  have before : ∀ specId, rewarded specId order = 0 := rewarded_open (by rw [expired]; decide)
  have isRewarded : ∀ specId, rewarded specId { order with status := .closed } =
      if order.specId = specId then 1 else 0 := by
    intro specId
    simp only [rewarded, solved, and_true]
  have count := countOrders_rewritten held orders
  have successful : spec.successfulOrders + 1 = countOrders after (rewarded order.specId) := by
    have total := count (rewarded order.specId)
    rw [before, isRewarded, if_pos rfl, Nat.add_zero, ← book.successful _ _ known] at total
    exact total.symm
  have fits := countOrders_fits few (rewarded_le order.specId)
  rw [saturatingAdd_of_le (by omega)] at specs
  have grown : SpecGrows spec { spec with successfulOrders := spec.successfulOrders + 1 } :=
    ⟨rfl, Nat.le_refl _, Nat.le_succ _⟩
  have samePlaced : ∀ specId, countOrders after (placed specId) = countOrders s (placed specId) :=
    fun specId => Nat.add_right_cancel (count (placed specId))
  refine ⟨book.of_insert specs (book.addressed _ spec known) ?_ successful ?_ ?_, .of_insert known grown specs⟩
  · rw [samePlaced]
    exact book.total _ spec known
  · intro other different
    have total := count (rewarded other)
    rw [before, isRewarded, if_neg fun same => different same.symm] at total
    exact ⟨samePlaced other, total⟩
  · intro probe found reached
    rw [orders, StorageMap.lookup_insert_ite] at reached
    split at reached
    · cases reached
      exact ⟨spec, known⟩
    · exact book.known probe found reached

/-- A new spec has no orders yet, or one of them would have been accepted without a spec. -/
private theorem registered_book {builder : T.AccountId} {name : SpecName} {formulation : Formulation}
    {validationProgram transformProgram : Option T.Hash} {registeredAt : Nat} {emitEvent : Bool} (book : SpecBook s)
    (ran : insertJobSpec s env builder name formulation validationProgram transformProgram registeredAt emitEvent =
      .ok after) : SpecBook after ∧ SpecsGrow s after := by
  simp only [insertJobSpec, bind_success, ensure_success] at ran
  obtain ⟨_, fresh, _, _, same⟩ := ran
  have written : after.jobSpecs = s.jobSpecs.insert (jobSpecId T name formulation validationProgram transformProgram)
      { builder, name, formulation, validationProgram, transformProgram, registeredAt, totalOrders := 0,
        successfulOrders := 0 } := by
    split at same <;> cases same <;> rfl
  have orders : after.jobOrders = s.jobOrders := by
    split at same <;> cases same <;> rfl
  rw [Option.isNone_iff_eq_none] at fresh
  have unused : ∀ weigh : JobOrder T → Nat,
      (∀ order, order.specId ≠ jobSpecId T name formulation validationProgram transformProgram → weigh order = 0) →
      countOrders after weigh = 0 := by
    intro weigh weightless
    have none : ∀ orderId order, s.jobOrders.lookup orderId = some order → weigh order = 0 := by
      intro orderId order held
      refine weightless order fun same => ?_
      obtain ⟨spec, known⟩ := book.known orderId order held
      rw [same, fresh] at known
      cases known
    rw [countOrders, orders, @StorageMap.sum_congr _ _ _ _ _ (fun _ _ => 0) none]
    simp [StorageMap.sum]
  have kept : ∀ weigh : JobOrder T → Nat, countOrders after weigh = countOrders s weigh := by
    intro weigh
    rw [countOrders, countOrders, orders]
  have noPlaced := unused (placed _) fun order different => if_neg different
  have noRewarded := unused (rewarded _) fun order different => if_neg fun all => different all.1
  refine ⟨book.of_insert written rfl noPlaced.symm noRewarded.symm (fun _ _ => ⟨kept _, kept _⟩) ?_, ?_⟩
  · rw [orders]
    exact book.known
  · intro specId spec held
    refine ⟨spec, ?_, .refl spec⟩
    rw [written, StorageMap.lookup_insert_ite, if_neg, held]
    rintro rfl
    rw [fresh] at held
    cases held

private theorem step_specBook (book : SpecBook s) (numbered : Numbered s) (step : Step T)
    (few : FewOrders ((machine T).next s step)) :
    SpecBook ((machine T).next s step) ∧ SpecsGrow s ((machine T).next s step) := by
  cases step with
  | nextBlock =>
    obtain ⟨after, ran⟩ := nextBlock_ok s
    simp only [machine, ran, committed]
    have same : after.jobSpecs = s.jobSpecs := (nextBlock_spares ran).jobSpecs
    exact ⟨book.recounts same (nextBlock_moves ran).recounts, .of_same same⟩
  | external free others => exact ⟨book.recounts rfl (.of_same rfl), .of_same rfl⟩
  | dispatch env origin call =>
    cases ran : execute s env origin call with
    | error fault =>
      simp only [machine, ran, committed]
      exact ⟨book, .of_same rfl⟩
    | ok after =>
      simp only [machine, ran, committed] at few ⊢
      cases call with
      | registerSolver solverType =>
        simp only [execute, registerSolver, bind_success] at ran
        obtain ⟨_, _, _, _, same⟩ := ran
        cases same
        exact ⟨book.recounts rfl (.of_same rfl), .of_same rfl⟩
      | deregisterSolver =>
        simp only [execute, deregisterSolver, bind_success] at ran
        obtain ⟨_, _, _, _, same⟩ := ran
        cases same
        exact ⟨book.recounts rfl (.of_same rfl), .of_same rfl⟩
      | purgeResult orderId =>
        simp only [execute, purgeResult, bind_success] at ran
        obtain ⟨_, _, _, _, _, _, same⟩ := ran
        cases same
        exact ⟨book.recounts rfl (.of_same rfl), .of_same rfl⟩
      | registerJobSpec builder name formulation validationProgram transformProgram =>
        obtain ⟨_, _, ran⟩ := bind_success.mp ran
        exact registered_book book ran
      | proposeJob proposal =>
        simp only [execute, bind_success, pure_success] at ran
        obtain ⟨proposer, _, ⟨opened, orderId⟩, ran, rfl⟩ := ran
        exact proposed_book book numbered few ran rfl rfl
      | proposeJobWithPayeeRequirement proposal chainId =>
        simp only [execute, proposeJobWithPayeeRequirement, bind_success, pure_success] at ran
        obtain ⟨proposer, _, _, _, ⟨opened, orderId⟩, ran, rfl⟩ := ran
        exact proposed_book book numbered few ran rfl rfl
      | submitSolution orderId solutions =>
        obtain ⟨_, _, _, _, accepted⟩ := submission_accepted rfl ran
        obtain ⟨solver, _, ran⟩ := bind_success.mp ran
        obtain ⟨info, _, same, _⟩ := submitSolutionInner_records ran
        exact ⟨book.recounts same (accepted_recounts accepted), .of_same same⟩
      | submitSolutionWithPayee orderId solutions payee =>
        obtain ⟨_, _, _, _, accepted⟩ := submission_accepted rfl ran
        obtain ⟨solver, _, ran⟩ := bind_success.mp ran
        obtain ⟨info, _, same, _⟩ := submitSolutionInner_records ran
        exact ⟨book.recounts same (accepted_recounts accepted), .of_same same⟩
      | claimReward orderId => exact claimed_book book few ran
      | reclaimOrder orderId =>
        obtain ⟨order, held, expired, unsolved, orders, same, _⟩ := reclaimOrder_records ran
        refine ⟨book.recounts same (.of_insert held orders rfl fun specId => ?_), .of_same same⟩
        -- A reclaimed order closes without a solution, so it is not counted either.
        simp only [rewarded, unsolved, Nat.lt_irrefl, and_false]

/-- The specs a chain starts with: under their own hash, and not used yet. -/
def FreshSpecs (s : State T) : Prop :=
  ∀ specId spec, s.jobSpecs.lookup specId = some spec →
    specId = jobSpecId T spec.name spec.formulation spec.validationProgram spec.transformProgram ∧
      spec.totalOrders = 0 ∧ spec.successfulOrders = 0

theorem FreshSpecs.specBook {s₀ : State T} (specs : FreshSpecs s₀) (fresh : NoOrders s₀) : SpecBook s₀ := by
  have empty : ∀ weigh : JobOrder T → Nat, countOrders s₀ weigh = 0 := by
    intro weigh
    rw [countOrders, fresh.jobOrders]
    rfl
  refine ⟨fun specId spec held => (specs specId spec held).1, ?_, ?_, ?_⟩
  · intro specId spec held
    rw [empty, (specs specId spec held).2.1]
  · intro specId spec held
    rw [empty, (specs specId spec held).2.2]
  · intro orderId order held
    rw [fresh.jobOrders] at held
    cases held

theorem run_specs {s₀ : State T} (fresh : NoOrders s₀) (specs : FreshSpecs s₀)
    (steps : List (Step T)) (few : FewOrders ((machine T).run s₀ steps)) :
    SpecBook ((machine T).run s₀ steps) ∧ ∀ earlier later, steps = earlier ++ later →
      SpecsGrow ((machine T).run s₀ earlier) ((machine T).run s₀ steps) := by
  induction steps using List.reverseRecOn with
  | nil =>
    refine ⟨specs.specBook fresh, ?_⟩
    intro earlier later split
    obtain ⟨rfl, rfl⟩ := List.append_eq_nil_iff.mp split.symm
    exact .of_same rfl
  | append_singleton steps step ih =>
    have before := fewOrders_earlier few
    obtain ⟨book, grown⟩ := ih before
    have numbered := (run_orderIndex fresh steps before).numbered
    rw [Machine.run_concat] at few ⊢
    obtain ⟨next, grows⟩ := step_specBook book numbered step few
    refine ⟨next, ?_⟩
    intro earlier later split
    rcases List.eq_nil_or_concat later with rfl | ⟨rest, last, rfl⟩
    · rw [List.append_nil] at split
      rw [← split, Machine.run_concat]
      exact .of_same rfl
    · rw [List.concat_eq_append, ← List.append_assoc] at split
      exact (grown earlier rest (List.append_inj' split rfl).1).trans grows

theorem specs_booked {s₀ : State T} (fresh : NoOrders s₀) (specs : FreshSpecs s₀) (steps : List (Step T))
    (few : FewOrders ((machine T).run s₀ steps)) : SpecBook ((machine T).run s₀ steps) :=
  (run_specs fresh specs steps few).1

/-- In every reachable state each spec stands under the hash of what it says, its two
counters are the orders of that spec and the rewarded ones among them, and every order
has its spec. No spec is ever removed, and nothing but its counters ever changes. -/
theorem job_specs_count_their_orders {s₀ : State T} (fresh : NoOrders s₀) (specs : FreshSpecs s₀)
    (steps : List (Step T)) (few : FewOrders ((machine T).run s₀ steps)) :
    SpecBook ((machine T).run s₀ steps) ∧ ∀ earlier later, steps = earlier ++ later →
      SpecsGrow ((machine T).run s₀ earlier) ((machine T).run s₀ steps) :=
  run_specs fresh specs steps few

/-- One order of the one spec, claimed. -/
theorem job_specs_count_their_orders_tinyRun :
    ∃ spec, ((machine tinyConfig).run tinyGenesis tinyRun).jobSpecs.lookup (0 : Nat) = some spec ∧
      spec.totalOrders = 1 ∧ spec.successfulOrders = 1 := by
  have specs : FreshSpecs tinyGenesis := by
    intro specId spec held
    cases held
  have registered : (((machine tinyConfig).run tinyGenesis tinyRun).jobSpecs.lookup (0 : Nat)).isSome := by
    decide +kernel
  obtain ⟨spec, held⟩ := Option.isSome_iff_exists.mp registered
  obtain ⟨book, _⟩ := job_specs_count_their_orders tinyGenesis_noOrders specs tinyRun tinyRun_fewOrders
  refine ⟨spec, held, ?_, ?_⟩
  · rw [book.total _ _ held]
    decide +kernel
  · rw [book.successful _ _ held]
    decide +kernel

end Specs

section Solvers

/-- What some currency operations paid to `who`. -/
def paidTo (who : T.AccountId) (movements : List (Movement T)) : Nat :=
  (movements.map fun movement =>
    match movement with
    | .transfer _ dest amount => if dest = who then amount else 0
    | _ => 0).sum

/-- The log of one solver since it last registered: its submissions, and what it was paid. -/
def follow (who : T.AccountId) (record : Option (Nat × Nat)) (executed : Executed T) : Option (Nat × Nat) :=
  match executed.call, executed.origin with
  | .registerSolver _, .signed account => if account = who then some (0, 0) else record
  | .deregisterSolver, .signed account => if account = who then none else record
  | .submitSolution _ _, .signed account | .submitSolutionWithPayee _ _ _, .signed account =>
    if account = who then record.map fun counts => (counts.1 + 1, counts.2) else record
  | .claimReward _, _ =>
    let movements := executed.after.balances.movements.drop executed.before.balances.movements.length
    record.map fun counts => (counts.1, counts.2 + paidTo who movements)
  | _, _ => record

/-- The record the chain keeps of what the log says; both counters saturate. -/
def kept (counts : Nat × Nat) : Nat × Nat := (min counts.1 u64Max, min counts.2 u128Max)

def SolverInfo.counts (info : SolverInfo T) : Nat × Nat := (info.solutionsSubmitted, info.rewardsEarned)

/-- The solver table and the log agree. -/
def Followed (s : State T) (trace : List (Executed T)) : Prop :=
  ∀ who, (s.solvers.lookup who).map SolverInfo.counts = (trace.foldl (follow who) none).map kept

theorem lookup_mutateSome {K V : Type} [DecidableEq K] (entries : StorageMap K V) (key probe : K) (change : V → V) :
    (mutateSome entries key change).lookup probe =
      if probe = key then (entries.lookup probe).map change else entries.lookup probe := by
  unfold mutateSome
  split
  · rename_i value found
    rw [StorageMap.lookup_insert_ite]
    split
    · rename_i same
      rw [same, found]
      rfl
    · rfl
  · rename_i absent
    split
    · rename_i same
      rw [same, absent]
      rfl
    · rfl

theorem paidTo_append (who : T.AccountId) (first second : List (Movement T)) :
    paidTo who (first ++ second) = paidTo who first + paidTo who second := by
  rw [paidTo, List.map_append, List.sum_append]
  rfl

private theorem kept_earn (counts : Nat × Nat) (amount : Nat) :
    kept (counts.1, counts.2 + amount) = ((kept counts).1, saturatingAdd u128Max (kept counts).2 amount) := by
  simp only [kept, saturatingAdd, Prod.mk.injEq, true_and]
  omega

/-- One payout adds to the record of its winner only. -/
private theorem earning_followed {solvers : StorageMap T.AccountId (SolverInfo T)} {who : T.AccountId}
    {record : Option (Nat × Nat)} (agrees : (solvers.lookup who).map SolverInfo.counts = record.map kept)
    (proposer : T.AccountId) (payout : Payout T) :
    ((earning solvers payout).lookup who).map SolverInfo.counts =
      (record.map fun counts => (counts.1, counts.2 + paidTo who (transfersOf proposer [payout]))).map kept := by
  obtain ⟨winner, amount, energy⟩ := payout
  by_cases zero : amount = 0
  · have nothing : paidTo who (transfersOf proposer [(winner, amount, energy)]) = 0 := by
      simp [transfersOf, zero, paidTo]
    rw [earning, if_pos zero, nothing, agrees]
    cases record <;> rfl
  · have paid : paidTo who (transfersOf proposer [(winner, amount, energy)]) = if winner = who then amount else 0 := by
      simp [transfersOf, zero, paidTo]
    rw [earning, if_neg zero, lookup_mutateSome, paid]
    by_cases same : who = winner
    · subst same
      rw [if_pos rfl, if_pos rfl]
      cases held : solvers.lookup who with
      | none =>
        rw [held] at agrees
        cases record with
        | none => rfl
        | some counts => cases agrees
      | some info =>
        rw [held] at agrees
        cases record with
        | none => cases agrees
        | some counts =>
          rw [Option.map_some, Option.map_some, Option.some.injEq] at agrees
          simp only [Option.map_some, Option.some.injEq, kept_earn, ← agrees]
          rfl
    · rw [if_neg same, if_neg fun other => same other.symm, agrees]
      cases record <;> rfl

private theorem earnings_followed {who : T.AccountId} (proposer : T.AccountId) (payouts : List (Payout T))
    {solvers : StorageMap T.AccountId (SolverInfo T)} {record : Option (Nat × Nat)}
    (agrees : (solvers.lookup who).map SolverInfo.counts = record.map kept) :
    ((payouts.foldl earning solvers).lookup who).map SolverInfo.counts =
      (record.map fun counts => (counts.1, counts.2 + paidTo who (transfersOf proposer payouts))).map kept := by
  induction payouts generalizing solvers record with
  | nil =>
    rw [List.foldl_nil, agrees]
    cases record <;> rfl
  | cons payout rest ih =>
    have split : transfersOf proposer (payout :: rest) = transfersOf proposer [payout] ++ transfersOf proposer rest := by
      rw [transfersOf, transfersOf, transfersOf, ← List.filterMap_append]
      rfl
    rw [List.foldl_cons, ih (earning_followed agrees proposer payout), split, paidTo_append]
    cases record with
    | none => rfl
    | some counts => simp only [Option.map_some, Nat.add_assoc]

private theorem follow_concat (who : T.AccountId) (trace : List (Executed T)) (executed : Executed T) :
    (trace ++ [executed]).foldl (follow who) none = follow who (trace.foldl (follow who) none) executed :=
  List.foldl_concat ..

/-- A dispatch that leaves the solver table alone and that no solver's log follows. -/
private theorem followed_silent {trace : List (Executed T)} (agrees : Followed s trace) {executed : Executed T}
    (same : after.solvers = s.solvers) (silent : ∀ who record, follow who record executed = record) :
    Followed after (trace ++ [executed]) := by
  intro who
  rw [follow_concat, silent, same]
  exact agrees who

private theorem followed_submission {trace : List (Executed T)} (agrees : Followed s trace) {executed : Executed T}
    {solver : T.AccountId} {info : SolverInfo T} (registered : s.solvers.lookup solver = some info)
    (written : after.solvers = s.solvers.insert solver
      { info with solutionsSubmitted := saturatingAdd u64Max info.solutionsSubmitted 1 })
    (counted : ∀ who record, follow who record executed =
      if solver = who then record.map fun counts => (counts.1 + 1, counts.2) else record) :
    Followed after (trace ++ [executed]) := by
  intro who
  have before := agrees who
  rw [follow_concat, counted, written, StorageMap.lookup_insert_ite]
  by_cases same : who = solver
  · subst same
    rw [if_pos rfl, if_pos rfl]
    rw [registered] at before
    cases record : trace.foldl (follow who) none with
    | none =>
      rw [record] at before
      cases before
    | some counts =>
      rw [record] at before
      simp only [Option.map_some, Option.some.injEq, SolverInfo.counts, kept, Prod.mk.injEq, saturatingAdd] at before ⊢
      omega
  · rw [if_neg same, if_neg fun other => same other.symm]
    exact before

private theorem step_followed {trace : List (Executed T)} (agrees : Followed s trace) (step : Step T) :
    Followed ((machine T).next s step) (trace ++ (machine T).report s step) := by
  cases step with
  | nextBlock =>
    obtain ⟨after, ran⟩ := nextBlock_ok s
    simp only [machine, ran, committed, List.append_nil]
    intro who
    rw [show after.solvers = s.solvers from (nextBlock_spares ran).solvers]
    exact agrees who
  | external free others =>
    simp only [machine, List.append_nil]
    exact agrees
  | dispatch env origin call =>
    cases ran : execute s env origin call with
    | error fault =>
      simp only [machine, ran, committed, List.append_nil]
      exact agrees
    | ok after =>
      simp only [machine, ran, committed]
      cases call with
      | registerSolver solverType =>
        simp only [execute, registerSolver, bind_success, ensureSigned_success] at ran
        obtain ⟨account, rfl, _, _, same⟩ := ran
        cases same
        intro who
        rw [follow_concat]
        simp only [State.deposit, follow, StorageMap.lookup_insert_ite]
        by_cases same : who = account
        · rw [if_pos same, if_pos same.symm]
          rfl
        · rw [if_neg same, if_neg fun other => same other.symm]
          exact agrees who
      | deregisterSolver =>
        simp only [execute, deregisterSolver, bind_success, ensureSigned_success] at ran
        obtain ⟨account, rfl, _, _, same⟩ := ran
        cases same
        intro who
        rw [follow_concat]
        simp only [State.deposit, follow, StorageMap.lookup_erase_ite]
        by_cases same : who = account
        · rw [if_pos same, if_pos same.symm]
          rfl
        · rw [if_neg same, if_neg fun other => same other.symm]
          exact agrees who
      | purgeResult orderId =>
        simp only [execute, purgeResult, bind_success] at ran
        obtain ⟨_, _, _, _, _, _, same⟩ := ran
        cases same
        exact followed_silent agrees rfl fun _ _ => rfl
      | registerJobSpec builder name formulation validationProgram transformProgram =>
        simp only [execute, insertJobSpec, bind_success, if_true] at ran
        obtain ⟨_, _, _, _, _, _, same⟩ := ran
        cases same
        exact followed_silent agrees rfl fun _ _ => rfl
      | proposeJob proposal =>
        simp only [execute, bind_success, pure_success] at ran
        obtain ⟨proposer, _, ⟨opened, orderId⟩, ran, rfl⟩ := ran
        obtain ⟨_, _, _, _, same⟩ := doProposeJob_records ran
        exact followed_silent agrees same fun _ _ => rfl
      | proposeJobWithPayeeRequirement proposal chainId =>
        simp only [execute, proposeJobWithPayeeRequirement, bind_success, pure_success] at ran
        obtain ⟨proposer, _, _, _, ⟨opened, orderId⟩, ran, rfl⟩ := ran
        obtain ⟨_, _, _, _, same⟩ := doProposeJob_records ran
        exact followed_silent agrees same fun _ _ => rfl
      | submitSolution orderId solutions =>
        simp only [execute, bind_success, ensureSigned_success] at ran
        obtain ⟨solver, rfl, ran⟩ := ran
        obtain ⟨info, registered, _, written⟩ := submitSolutionInner_records ran
        exact followed_submission agrees registered written fun _ _ => rfl
      | submitSolutionWithPayee orderId solutions payee =>
        simp only [execute, bind_success, ensureSigned_success] at ran
        obtain ⟨solver, rfl, ran⟩ := ran
        obtain ⟨info, registered, _, written⟩ := submitSolutionInner_records ran
        exact followed_submission agrees registered written fun _ _ => rfl
      | reclaimOrder orderId =>
        obtain ⟨_, _, _, _, _, _, same⟩ := reclaimOrder_records ran
        exact followed_silent agrees same fun _ _ => rfl
      | claimReward orderId =>
        obtain ⟨order, payouts, held, _, computed, move⟩ := claimReward_move ran
        obtain ⟨other, _, others, heldOther, _, _, _, computedOther, _, _, written⟩ := claimReward_records ran
        rw [held] at heldOther
        cases heldOther
        rw [computed] at computedOther
        cases computedOther
        intro who
        have paid := move.settled_after
        have released : paidTo who (.unreserve order.proposer order.reward.val :: transfersOf order.proposer payouts) =
            paidTo who (transfersOf order.proposer payouts) := by
          rw [paidTo, List.map_cons, List.sum_cons, Nat.zero_add]
          rfl
        rw [follow_concat, written, earnings_followed order.proposer payouts (agrees who)]
        simp only [follow, paid, List.drop_left, released]

/-- What the solver table says is what the log of the run says: nothing about an account
that is not registered, and otherwise its submissions and its rewards since it last
registered, each counter up to the end of its type. -/
theorem solver_records_follow_the_log {s₀ : State T} (unregistered : s₀.solvers = ∅) (steps : List (Step T))
    (who : T.AccountId) :
    (((machine T).run s₀ steps).solvers.lookup who).map SolverInfo.counts =
      (((machine T).trace s₀ steps).foldl (follow who) none).map kept := by
  refine (machine T).run_follows (fun trace s => Followed s trace) ?_ (fun _ _ step agrees => step_followed agrees step)
    steps who
  intro account
  rw [unregistered]
  rfl

/-- The one solver submitted once and was paid the whole reward of 7. -/
theorem solver_records_follow_the_log_tinyRun :
    (((machine tinyConfig).run tinyGenesis tinyRun).solvers.lookup (1 : Nat)).map SolverInfo.counts = some (1, 7) :=
  (@solver_records_follow_the_log tinyConfig tinyGenesis rfl tinyRun (1 : Nat)).trans (by decide +kernel)

end Solvers

end QuipValidator.Mempool
