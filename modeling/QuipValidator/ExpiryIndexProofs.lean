import QuipValidator.OrderIndexProofs

/-! The expiry index: every open order has one entry, in a bucket the cursor has
not passed, and only open orders are indexed. The old bucket of a rescheduled
order is recomputed and not stored, so the invariant says which bucket it is. -/
namespace QuipValidator.Mempool
open StorageDoubleMap

variable {T : Config} {s after : State T} {label : Option (Label T)}

/-- The bucket of an order last scheduled at block `scheduledAt`. -/
def JobOrder.bucket (order : JobOrder T) (scheduledAt : Nat) : Nat := max order.expiry (scheduledAt + 1)

/-- Order `orderId` is open and indexed under `bucket`. -/
def Scheduled (s : State T) (bucket orderId : Nat) : Prop :=
  ∃ order scheduledAt, s.jobOrders.lookup orderId = some order ∧ order.status = .opened ∧
    s.lastScheduled orderId = some scheduledAt ∧ bucket = order.bucket scheduledAt

structure ExpiryIndex (s : State T) : Prop where
  numbered : Numbered s
  indexed : ∀ bucket orderId, (s.ordersExpiringAt.get bucket orderId).isSome ↔ Scheduled s bucket orderId
  scheduled : ∀ orderId order, s.jobOrders.lookup orderId = some order → order.status = .opened →
    ∃ scheduledAt, s.lastScheduled orderId = some scheduledAt ∧ scheduledAt ≤ s.blockNumber
  ahead : ∀ bucket orderId, (s.ordersExpiringAt.get bucket orderId).isSome → s.nextExpiryBucket ≤ bucket
  cursor : s.nextExpiryBucket ≤ s.blockNumber + 1

/-- The order counter and the block number are below their saturation points. -/
def Unsaturated (s : State T) : Prop := FewOrders s ∧ s.blockNumber < T.maxBlockNumber

theorem Move.unsaturated_before (move : Move s label after) (within : Unsaturated after) : Unsaturated s :=
  ⟨move.fewOrders_before within.1, Nat.lt_of_le_of_lt move.block_le within.2⟩

private theorem expiryBucket_plain (below : s.blockNumber < T.maxBlockNumber) (expiry : Nat) :
    expiryBucket s expiry = max expiry (s.blockNumber + 1) := by
  rw [expiryBucket, saturatingAdd_of_le (by omega)]

/-- An open order sits in one bucket only. -/
theorem ExpiryIndex.bucket_unique (index : ExpiryIndex s) {first second orderId : Nat}
    (inFirst : (s.ordersExpiringAt.get first orderId).isSome)
    (inSecond : (s.ordersExpiringAt.get second orderId).isSome) : first = second := by
  obtain ⟨order, scheduledAt, held, _, last, rfl⟩ := (index.indexed _ _).mp inFirst
  obtain ⟨other, otherAt, otherHeld, _, otherLast, rfl⟩ := (index.indexed _ _).mp inSecond
  rw [held] at otherHeld
  rw [last] at otherLast
  cases otherHeld
  cases otherLast
  rfl

/-- The one bucket of an open order. -/
theorem ExpiryIndex.entry_iff (index : ExpiryIndex s) {orderId scheduledAt : Nat} {order : JobOrder T}
    (held : s.jobOrders.lookup orderId = some order) (opened : order.status = .opened)
    (last : s.lastScheduled orderId = some scheduledAt) (bucket : Nat) :
    (s.ordersExpiringAt.get bucket orderId).isSome ↔ bucket = order.bucket scheduledAt := by
  rw [index.indexed]
  constructor
  · rintro ⟨found, foundAt, foundHeld, _, foundLast, rfl⟩
    rw [held] at foundHeld
    rw [last] at foundLast
    cases foundHeld
    cases foundLast
    rfl
  · rintro rfl
    exact ⟨order, scheduledAt, held, opened, last, rfl⟩

/-- While a first solution can still arrive, the order sits in its hard-deadline bucket. -/
private theorem hardDeadline_bucket {order : JobOrder T} {scheduledAt now : Nat} (unsolved : order.firstSolutionAt = none)
    (early : now < order.expiry) (past : scheduledAt ≤ now) : order.bucket scheduledAt = order.hardDeadline := by
  have whole : order.expiry = order.hardDeadline := by
    simp [JobOrder.expiry, effectiveExpiry, unsolved, JobOrder.hardDeadline]
  rw [JobOrder.bucket, whole]
  omega

/-- Acceptance changes the expiry only through the `block_wait` window. -/
private theorem accepting_expiry (order : JobOrder T) (now : Nat) (isNewSolver : Bool) :
    (order.accepting now isNewSolver).expiry =
      if order.closesSooner now then effectiveExpiry T order.createdAt (some now) order.timing else order.expiry := by
  cases started : order.firstSolutionAt with
  | some first =>
    have later : ¬ order.closesSooner now := by
      intro sooner
      rw [sooner.1] at started
      cases started
    simp [JobOrder.accepting, JobOrder.expiry, started, later]
  | none =>
    by_cases sooner : order.closesSooner now
    · simp [JobOrder.accepting, JobOrder.expiry, started, sooner]
    · have notBefore : ¬ effectiveExpiry T order.createdAt (some now) order.timing < order.hardDeadline :=
        fun before => sooner ⟨started, before⟩
      simp only [JobOrder.accepting, JobOrder.expiry, started, sooner, if_false, Option.getD_none]
      simp only [effectiveExpiry, JobOrder.hardDeadline] at notBefore ⊢
      omega

/-- A change of one order's record, entries and schedule needs checking there only. -/
private theorem index_at {orderId : Nat} {next : State T} (index : ExpiryIndex s) (numbered : Numbered next)
    (orders : ∀ probe, probe ≠ orderId → next.jobOrders.lookup probe = s.jobOrders.lookup probe)
    (entries : ∀ bucket probe, probe ≠ orderId →
      next.ordersExpiringAt.get bucket probe = s.ordersExpiringAt.get bucket probe)
    (times : ∀ probe, probe ≠ orderId → next.lastScheduled probe = s.lastScheduled probe)
    (sameCursor : next.nextExpiryBucket = s.nextExpiryBucket) (sameBlock : next.blockNumber = s.blockNumber)
    (indexed : ∀ bucket, (next.ordersExpiringAt.get bucket orderId).isSome ↔ Scheduled next bucket orderId)
    (scheduled : ∀ order, next.jobOrders.lookup orderId = some order → order.status = .opened →
      ∃ scheduledAt, next.lastScheduled orderId = some scheduledAt ∧ scheduledAt ≤ next.blockNumber)
    (ahead : ∀ bucket, (next.ordersExpiringAt.get bucket orderId).isSome → next.nextExpiryBucket ≤ bucket) :
    ExpiryIndex next := by
  refine ⟨numbered, ?_, ?_, ?_, ?_⟩
  · intro bucket probe
    by_cases here : probe = orderId
    · subst here
      exact indexed bucket
    · rw [entries bucket probe here, index.indexed, Scheduled, Scheduled, orders probe here, times probe here]
  · intro probe order held opened
    by_cases here : probe = orderId
    · subst here
      exact scheduled order held opened
    · rw [orders probe here] at held
      rw [times probe here, sameBlock]
      exact index.scheduled probe order held opened
  · intro bucket probe found
    by_cases here : probe = orderId
    · subst here
      exact ahead bucket found
    · rw [entries bucket probe here] at found
      rw [sameCursor]
      exact index.ahead bucket probe found
  · rw [sameCursor, sameBlock]
    exact index.cursor

/-- An open order with its one entry where the schedule says. -/
private theorem placed_expiry {orderId scheduledAt : Nat} {order : JobOrder T} {next : State T} (index : ExpiryIndex s)
    (numbered : Numbered next) (orders : next.jobOrders = s.jobOrders.insert orderId order)
    (opened : order.status = .opened) (last : next.lastScheduled orderId = some scheduledAt)
    (past : scheduledAt ≤ s.blockNumber)
    (times : ∀ probe, probe ≠ orderId → next.lastScheduled probe = s.lastScheduled probe)
    (entries : ∀ bucket probe, probe ≠ orderId →
      next.ordersExpiringAt.get bucket probe = s.ordersExpiringAt.get bucket probe)
    (entry : ∀ bucket, (next.ordersExpiringAt.get bucket orderId).isSome ↔ bucket = order.bucket scheduledAt)
    (unreached : s.nextExpiryBucket ≤ order.bucket scheduledAt)
    (sameCursor : next.nextExpiryBucket = s.nextExpiryBucket) (sameBlock : next.blockNumber = s.blockNumber) :
    ExpiryIndex next := by
  have held : next.jobOrders.lookup orderId = some order := by
    rw [orders, AList.lookup_insert]
  refine index_at index numbered ?_ entries times sameCursor sameBlock ?_ ?_ ?_
  · intro probe other
    rw [orders, StorageMap.lookup_insert_ite, if_neg other]
  · intro bucket
    rw [entry]
    constructor
    · rintro rfl
      exact ⟨order, scheduledAt, held, opened, last, rfl⟩
    · rintro ⟨found, foundAt, foundHeld, _, foundLast, rfl⟩
      rw [held] at foundHeld
      rw [last] at foundLast
      cases foundHeld
      cases foundLast
      rfl
  · intro _ _ _
    exact ⟨scheduledAt, last, by rw [sameBlock]; exact past⟩
  · intro bucket found
    rw [entry] at found
    rw [found, sameCursor]
    exact unreached

private theorem opens_expiry {order : JobOrder T} {next : State T} (index : ExpiryIndex s) (numbered : Numbered next)
    (below : s.blockNumber < T.maxBlockNumber) (opened : order.status = .opened)
    (unsolved : order.firstSolutionAt = none)
    (orders : next.jobOrders = s.jobOrders.insert s.nextOrderId order)
    (entries : next.ordersExpiringAt =
      s.ordersExpiringAt.insert (expiryBucket s order.hardDeadline) s.nextOrderId ())
    (times : next.lastScheduled = fun probe => if probe = s.nextOrderId then some s.blockNumber
      else s.lastScheduled probe)
    (sameCursor : next.nextExpiryBucket = s.nextExpiryBucket) (sameBlock : next.blockNumber = s.blockNumber) :
    ExpiryIndex next := by
  have whole : order.expiry = order.hardDeadline := by
    simp [JobOrder.expiry, effectiveExpiry, unsolved, JobOrder.hardDeadline]
  have bucketIs : expiryBucket s order.hardDeadline = order.bucket s.blockNumber := by
    rw [expiryBucket_plain below, JobOrder.bucket, whole]
  -- A fresh id has no entry yet, because only existing orders are indexed.
  have empty : ∀ bucket, s.ordersExpiringAt.get bucket s.nextOrderId = none := by
    intro bucket
    apply Option.not_isSome_iff_eq_none.mp
    rw [index.indexed]
    rintro ⟨other, _, found, _⟩
    rw [index.numbered.fresh] at found
    cases found
  refine placed_expiry index numbered orders opened (by simp [times]) (Nat.le_refl _) ?_ ?_ ?_ ?_ sameCursor sameBlock
  · intro probe other
    simp [times, other]
  · intro bucket probe other
    rw [entries, get_insert, if_neg fun both => other both.2]
  · intro bucket
    rw [entries, get_insert, empty, bucketIs]
    by_cases same : bucket = order.bucket s.blockNumber <;> simp [same]
  · have cursor := index.cursor
    rw [JobOrder.bucket]
    omega

/-- An accepted submission moves the entry exactly when the order now ends
sooner, and then the old entry is the one in the hard-deadline bucket. -/
private theorem accepts_expiry {orderId : Nat} {order : JobOrder T} {isNewSolver : Bool} {next : State T}
    (index : ExpiryIndex s) (numbered : Numbered next) (below : s.blockNumber < T.maxBlockNumber)
    (held : s.jobOrders.lookup orderId = some order) (opened : order.status = .opened)
    (early : s.blockNumber < order.expiry)
    (orders : next.jobOrders = s.jobOrders.insert orderId (order.accepting s.blockNumber isNewSolver))
    (entries : next.ordersExpiringAt = if order.closesSooner s.blockNumber then
        (s.ordersExpiringAt.remove order.hardDeadline orderId).insert
          (expiryBucket s (effectiveExpiry T order.createdAt (some s.blockNumber) order.timing)) orderId ()
      else s.ordersExpiringAt)
    (times : next.lastScheduled = if order.closesSooner s.blockNumber then
        fun probe => if probe = orderId then some s.blockNumber else s.lastScheduled probe
      else s.lastScheduled)
    (sameCursor : next.nextExpiryBucket = s.nextExpiryBucket) (sameBlock : next.blockNumber = s.blockNumber) :
    ExpiryIndex next := by
  have expiryIs := accepting_expiry order s.blockNumber isNewSolver
  obtain ⟨scheduledAt, last, past⟩ := index.scheduled orderId order held opened
  have entry := index.entry_iff held opened last
  by_cases sooner : order.closesSooner s.blockNumber
  · rw [if_pos sooner] at entries times expiryIs
    have bucketIs : expiryBucket s (effectiveExpiry T order.createdAt (some s.blockNumber) order.timing) =
        (order.accepting s.blockNumber isNewSolver).bucket s.blockNumber := by
      rw [expiryBucket_plain below, JobOrder.bucket, expiryIs]
    have removed : ∀ bucket, (s.ordersExpiringAt.remove order.hardDeadline orderId).get bucket orderId = none := by
      intro bucket
      rw [get_remove]
      by_cases same : bucket = order.hardDeadline
      · rw [if_pos ⟨same, rfl⟩]
      · rw [if_neg fun both => same both.1]
        apply Option.not_isSome_iff_eq_none.mp
        rw [entry, hardDeadline_bucket sooner.1 early past]
        exact same
    refine placed_expiry index numbered orders opened (by simp [times]) (Nat.le_refl _) ?_ ?_ ?_ ?_ sameCursor
      sameBlock
    · intro probe other
      simp [times, other]
    · intro bucket probe other
      rw [entries, get_insert, if_neg fun both => other both.2, get_remove, if_neg fun both => other both.2]
    · intro bucket
      rw [entries, get_insert, removed, bucketIs]
      by_cases same : bucket = (order.accepting s.blockNumber isNewSolver).bucket s.blockNumber <;> simp [same]
    · have cursor := index.cursor
      rw [JobOrder.bucket]
      omega
  · rw [if_neg sooner] at entries times expiryIs
    have bucketIs : (order.accepting s.blockNumber isNewSolver).bucket scheduledAt = order.bucket scheduledAt := by
      rw [JobOrder.bucket, JobOrder.bucket, expiryIs]
    refine placed_expiry index numbered orders opened (by rw [times, last]) past ?_ ?_ ?_ ?_ sameCursor sameBlock
    · intro probe _
      rw [times]
    · intro bucket probe _
      rw [entries]
    · intro bucket
      rw [entries, entry, bucketIs]
    · rw [bucketIs]
      exact index.ahead _ _ ((entry _).mpr rfl)

/-- Closing or expiring an order that is no longer in the index. -/
private theorem unopened_expiry {orderId : Nat} {updated : JobOrder T} {next : State T} (index : ExpiryIndex s)
    (numbered : Numbered next) (orders : next.jobOrders = s.jobOrders.insert orderId updated)
    (unopened : updated.status ≠ .opened)
    (entries : ∀ bucket probe, probe ≠ orderId →
      next.ordersExpiringAt.get bucket probe = s.ordersExpiringAt.get bucket probe)
    (empty : ∀ bucket, next.ordersExpiringAt.get bucket orderId = none)
    (sameTimes : next.lastScheduled = s.lastScheduled)
    (sameCursor : next.nextExpiryBucket = s.nextExpiryBucket) (sameBlock : next.blockNumber = s.blockNumber) :
    ExpiryIndex next := by
  have held : next.jobOrders.lookup orderId = some updated := by
    rw [orders, AList.lookup_insert]
  refine index_at index numbered ?_ entries ?_ sameCursor sameBlock ?_ ?_ ?_
  · intro probe other
    rw [orders, StorageMap.lookup_insert_ite, if_neg other]
  · intro probe _
    rw [sameTimes]
  · intro bucket
    rw [empty bucket]
    constructor
    · exact fun impossible => nomatch impossible
    · rintro ⟨found, _, foundHeld, opened, _⟩
      rw [held] at foundHeld
      cases foundHeld
      exact absurd opened unopened
  · intro found foundHeld opened
    rw [held] at foundHeld
    cases foundHeld
    exact absurd opened unopened
  · intro bucket found
    rw [empty bucket] at found
    cases found

/-- Moves that leave the orders, the index and the block alone. -/
private theorem same_expiry {next : State T} (index : ExpiryIndex s) (orders : next.jobOrders = s.jobOrders)
    (counter : next.nextOrderId = s.nextOrderId) (entries : next.ordersExpiringAt = s.ordersExpiringAt)
    (times : next.lastScheduled = s.lastScheduled) (cursor : next.nextExpiryBucket = s.nextExpiryBucket)
    (later : s.blockNumber ≤ next.blockNumber) : ExpiryIndex next := by
  refine ⟨⟨?_, ?_⟩, ?_, ?_, ?_, ?_⟩
  · rw [orders, counter]
    exact index.numbered.counted
  · rw [orders, counter]
    exact index.numbered.given
  · intro bucket orderId
    rw [entries, index.indexed, Scheduled, Scheduled, orders, times]
  · intro orderId order held opened
    rw [orders] at held
    obtain ⟨scheduledAt, last, past⟩ := index.scheduled orderId order held opened
    exact ⟨scheduledAt, by rw [times, last], Nat.le_trans past later⟩
  · rw [entries, cursor]
    exact index.ahead
  · rw [cursor]
    exact Nat.le_trans index.cursor (Nat.succ_le_succ later)

/-- Every move keeps the index, as long as ids and block numbers last. -/
theorem Move.expiryIndex (move : Move s label after) (within : Unsaturated after) (index : ExpiryIndex s) :
    ExpiryIndex after := by
  have numbered := move.numbered within.1 index.numbered
  have below := (move.unsaturated_before within).2
  cases move with
  | idles => exact same_expiry index rfl rfl rfl rfl rfl (Nat.le_refl _)
  | purges => exact same_expiry index rfl rfl rfl rfl rfl (Nat.le_refl _)
  | rebalances => exact same_expiry index rfl rfl rfl rfl rfl (Nat.le_refl _)
  | ticks => exact same_expiry index rfl rfl rfl rfl rfl (Nat.le_succ _)
  | opens => exact opens_expiry index numbered below rfl rfl rfl rfl rfl rfl rfl
  | accepts held opened early =>
    exact accepts_expiry index numbered below held opened early rfl rfl rfl rfl rfl
  | @closes orderId order _ _ _ _ _ held expired =>
    refine unopened_expiry index numbered rfl (by simp) (fun _ _ _ => rfl) ?_ rfl rfl rfl
    intro bucket
    apply Option.not_isSome_iff_eq_none.mp
    intro found
    obtain ⟨other, _, otherHeld, opened, _⟩ := (index.indexed bucket orderId).mp found
    rw [held] at otherHeld
    cases otherHeld
    rw [expired] at opened
    cases opened
  | @expires orderId order _ _ _ due held opened =>
    refine unopened_expiry index numbered rfl (by simp) ?_ ?_ rfl rfl rfl
    · intro bucket probe other
      exact (get_remove _ _ _ _ _).trans (if_neg fun both => other both.2)
    · intro bucket
      refine (get_remove _ _ _ _ _).trans ?_
      by_cases same : bucket = s.nextExpiryBucket
      · rw [if_pos ⟨same, rfl⟩]
      · rw [if_neg fun both => same both.1]
        exact Option.not_isSome_iff_eq_none.mp fun found => same (index.bucket_unique found due.2)
  | @drops orderId due unopened =>
    -- Only open orders are indexed, so the hook never meets an entry to drop.
    obtain ⟨order, _, held, opened, _⟩ := (index.indexed _ orderId).mp due.2
    exact absurd opened (unopened order held)
  | advances behind drained =>
    have next : saturatingAdd T.maxBlockNumber s.nextExpiryBucket 1 = s.nextExpiryBucket + 1 :=
      saturatingAdd_of_le (by omega)
    refine ⟨numbered, index.indexed, index.scheduled, ?_, ?_⟩
    · intro bucket orderId found
      have reached := index.ahead bucket orderId found
      have passed : bucket ≠ s.nextExpiryBucket := by
        rintro rfl
        rw [show s.ordersExpiringAt.get s.nextExpiryBucket orderId = none from drained orderId] at found
        cases found
      show saturatingAdd T.maxBlockNumber s.nextExpiryBucket 1 ≤ bucket
      omega
    · show saturatingAdd T.maxBlockNumber s.nextExpiryBucket 1 ≤ s.blockNumber + 1
      omega

/-- The hook expires an order only at or after its effective expiry. -/
theorem Move.expires_late (move : Move s label after) (index : ExpiryIndex s) {orderId : Nat}
    {order updated : JobOrder T} (held : s.jobOrders.lookup orderId = some order) (opened : order.status = .opened)
    (reached : after.jobOrders.lookup orderId = some updated) (expired : updated.status = .expired) :
    order.expiry ≤ s.blockNumber := by
  have changed : after.jobOrders.lookup orderId ≠ s.jobOrders.lookup orderId := by
    intro same
    rw [same, held] at reached
    cases reached
    rw [opened] at expired
    cases expired
  -- The only write that can be meant is one to this order that leaves it expired.
  have written : ∀ {target : Nat} {record : JobOrder T}, after.jobOrders = s.jobOrders.insert target record →
      target = orderId ∧ record.status = .expired := by
    intro target record orders
    rw [orders, StorageMap.lookup_insert_ite] at reached changed
    by_cases same : orderId = target
    · rw [if_pos same] at reached
      cases reached
      exact ⟨same.symm, expired⟩
    · rw [if_neg same] at changed
      exact absurd rfl changed
  cases move with
  | idles | purges | rebalances | ticks | drops | advances => exact absurd rfl changed
  | opens => cases (written rfl).2
  | closes => cases (written rfl).2
  | accepts _ stillOpen =>
    have status := (written rfl).2
    rw [show (JobOrder.accepting _ _ _).status = _ from stillOpen] at status
    cases status
  | expires due =>
    obtain ⟨rfl, _⟩ := written rfl
    obtain ⟨found, scheduledAt, foundHeld, _, _, bucketIs⟩ := (index.indexed _ _).mp due.2
    rw [held] at foundHeld
    cases foundHeld
    have before : order.expiry ≤ s.nextExpiryBucket := by
      rw [bucketIs]
      exact Nat.le_max_left _ _
    exact Nat.le_trans before due.1

/-- The moves of a block keep the index, and an order they expire was overdue. -/
theorem Moves.expires_late (moves : Moves s after) (within : Unsaturated after) (index : ExpiryIndex s) :
    Unsaturated s ∧ ExpiryIndex after ∧ ∀ orderId order, s.jobOrders.lookup orderId = some order →
      order.status = .opened → ∀ updated, after.jobOrders.lookup orderId = some updated →
      updated.status = .expired → order.expiry ≤ after.blockNumber := by
  induction moves with
  | refl =>
    refine ⟨within, index, ?_⟩
    intro orderId order held opened updated reached expired
    rw [held] at reached
    cases reached
    rw [opened] at expired
    cases expired
  | @tail middle last moves move ih =>
    obtain ⟨start, middleIndex, late⟩ := ih (move.unsaturated_before within)
    refine ⟨start, move.expiryIndex within middleIndex, ?_⟩
    intro orderId order held opened updated reached expired
    obtain ⟨between, betweenHeld, rfl | ⟨_, rfl⟩⟩ :=
      ((Moves.order_silent moves index.numbered).2 orderId).2 order held
    · exact Nat.le_trans (move.expires_late middleIndex betweenHeld opened reached expired) move.block_le
    · exact Nat.le_trans (late orderId order held opened _ betweenHeld rfl) move.block_le

theorem step_unsaturated (step : Step T) (within : Unsaturated ((machine T).next s step)) : Unsaturated s := by
  rcases step_moves s step with ⟨_, moves⟩ | ⟨_, _, move⟩
  · exact (@moves_relation T Unsaturated (fun _ _ => True) (fun _ _ _ move => move.unsaturated_before)
      (fun _ _ _ _ _ _ _ => trivial) _ _ moves [] within).1
  · exact move.unsaturated_before within

theorem step_expires_late (index : ExpiryIndex s) (step : Step T) (within : Unsaturated ((machine T).next s step))
    {orderId : Nat} {order updated : JobOrder T} (held : s.jobOrders.lookup orderId = some order)
    (opened : order.status = .opened) (reached : ((machine T).next s step).jobOrders.lookup orderId = some updated)
    (expired : updated.status = .expired) : order.expiry ≤ ((machine T).next s step).blockNumber := by
  rcases step_moves s step with ⟨_, moves⟩ | ⟨_, _, move⟩
  · exact (moves.expires_late within index).2.2 orderId order held opened updated reached expired
  · exact Nat.le_trans (move.expires_late index held opened reached expired) move.block_le

theorem NoOrders.expiryIndex (fresh : NoOrders s) : ExpiryIndex s := by
  refine ⟨fresh.numbered, ?_, ?_, ?_, fresh.nextExpiryBucket⟩
  · intro bucket orderId
    simp [Scheduled, fresh.ordersExpiringAt, fresh.jobOrders]
  · intro orderId order held
    rw [fresh.jobOrders] at held
    cases held
  · intro bucket orderId found
    rw [fresh.ordersExpiringAt] at found
    cases found

/-- Storage as version 2 left it: orders and the open-order index, with the
expiry index still empty. -/
structure V2Storage (s : State T) : Prop where
  numbered : Numbered s
  openOrders : ∀ orderId, (s.openOrders.lookup orderId).isSome ↔ s.statusOf orderId = some .opened
  ordersExpiringAt : s.ordersExpiringAt = ∅

section Migration

/-- The migration has visited `ids`: the open orders among them are scheduled
at this block, and nothing else has changed. -/
private structure Visited (s : State T) (ids : List Nat) (next : State T) : Prop where
  jobOrders : next.jobOrders = s.jobOrders
  nextOrderId : next.nextOrderId = s.nextOrderId
  blockNumber : next.blockNumber = s.blockNumber
  entries : ∀ bucket orderId, (next.ordersExpiringAt.get bucket orderId).isSome ↔
    (s.ordersExpiringAt.get bucket orderId).isSome ∨ orderId ∈ ids ∧
      ∃ order, s.jobOrders.lookup orderId = some order ∧ order.status = .opened ∧
        bucket = order.bucket s.blockNumber
  times : ∀ orderId order, s.jobOrders.lookup orderId = some order → order.status = .opened →
    next.lastScheduled orderId = if orderId ∈ ids then some s.blockNumber else s.lastScheduled orderId

private theorem Visited.append {middle next : State T} {first rest : List Nat} (start : Visited s first middle)
    (finish : Visited middle rest next) : Visited s (first ++ rest) next := by
  refine ⟨finish.jobOrders.trans start.jobOrders, finish.nextOrderId.trans start.nextOrderId,
    finish.blockNumber.trans start.blockNumber, ?_, ?_⟩
  · intro bucket orderId
    rw [finish.entries, start.entries, start.jobOrders, start.blockNumber, List.mem_append, or_assoc, or_and_right]
  · intro orderId order held opened
    rw [finish.times orderId order (start.jobOrders ▸ held) opened, start.times orderId order held opened,
      start.blockNumber]
    by_cases inRest : orderId ∈ rest
    · simp [inRest]
    · simp [inRest]

private theorem indexOpenOrder_visited (below : s.blockNumber < T.maxBlockNumber) (target : Nat) :
    Visited s [target] (indexOpenOrder s target) := by
  unfold indexOpenOrder
  split
  · rename_i missing
    refine ⟨rfl, rfl, rfl, ?_, ?_⟩
    · intro bucket orderId
      constructor
      · exact .inl
      · rintro (found | ⟨member, order, held, _⟩)
        · exact found
        · rw [List.mem_singleton.mp member, missing] at held
          cases held
    · intro orderId order held _
      have other : orderId ∉ [target] := by
        intro member
        rw [List.mem_singleton.mp member, missing] at held
        cases held
      rw [if_neg other]
  · rename_i order held
    split
    · rename_i unopened
      refine ⟨rfl, rfl, rfl, ?_, ?_⟩
      · intro bucket orderId
        constructor
        · exact .inl
        · rintro (found | ⟨member, other, otherHeld, opened, _⟩)
          · exact found
          · rw [List.mem_singleton.mp member, held] at otherHeld
            cases otherHeld
            exact absurd opened unopened
      · intro orderId other otherHeld opened
        have different : orderId ∉ [target] := by
          intro member
          rw [List.mem_singleton.mp member, held] at otherHeld
          cases otherHeld
          exact unopened opened
        rw [if_neg different]
    · rename_i opened
      have opened : order.status = .opened := not_not.mp opened
      refine ⟨rfl, rfl, rfl, ?_, ?_⟩
      · intro bucket orderId
        rw [scheduleExpiry, get_insert, expiryBucket_plain below, List.mem_singleton]
        constructor
        · intro found
          split at found
          · rename_i both
            exact .inr ⟨both.2, order, by rw [both.2, held], opened, both.1⟩
          · exact .inl found
        · rintro (found | ⟨rfl, other, otherHeld, _, bucketIs⟩)
          · split
            · rfl
            · exact found
          · rw [held] at otherHeld
            cases otherHeld
            rw [if_pos ⟨bucketIs, rfl⟩]
            rfl
      · intro orderId other _ _
        simp [scheduleExpiry]

private theorem indexOpenOrder_fold (ids : List Nat) (below : s.blockNumber < T.maxBlockNumber) :
    Visited s ids (ids.foldl indexOpenOrder s) := by
  induction ids generalizing s with
  | nil => exact ⟨rfl, rfl, rfl, by simp, by simp⟩
  | cons first rest ih =>
    have start := indexOpenOrder_visited below first
    exact start.append (ih (by rw [start.blockNumber]; exact below))

/-- The migration establishes the index: every order that is open in version 2
is scheduled for the next block or its own expiry, whichever is later. -/
theorem indexOpenOrdersForExpiry_expiryIndex (old : V2Storage s) (below : s.blockNumber < T.maxBlockNumber) :
    ExpiryIndex (indexOpenOrdersForExpiry s) := by
  have visited := indexOpenOrder_fold (s := s) (T.iterKeys s.openOrders.keys) below
  have next : saturatingAdd T.maxBlockNumber s.blockNumber 1 = s.blockNumber + 1 := saturatingAdd_of_le (by omega)
  have listed : ∀ {orderId : Nat} {order : JobOrder T}, s.jobOrders.lookup orderId = some order →
      order.status = .opened → orderId ∈ T.iterKeys s.openOrders.keys := by
    intro orderId order held opened
    rw [(T.iterKeys_perm _).mem_iff, StorageMap.mem_keys_iff_lookup, ← Option.isSome_iff_exists, old.openOrders,
      State.statusOf, held, Option.map_some, opened]
  have times : ∀ orderId order, s.jobOrders.lookup orderId = some order → order.status = .opened →
      (indexOpenOrdersForExpiry s).lastScheduled orderId = some s.blockNumber := by
    intro orderId order held opened
    exact (visited.times orderId order held opened).trans (if_pos (listed held opened))
  have entries : ∀ bucket orderId, ((indexOpenOrdersForExpiry s).ordersExpiringAt.get bucket orderId).isSome ↔
      ∃ order, s.jobOrders.lookup orderId = some order ∧ order.status = .opened ∧
        bucket = order.bucket s.blockNumber := by
    intro bucket orderId
    refine (visited.entries bucket orderId).trans ?_
    rw [old.ordersExpiringAt, get_empty]
    constructor
    · rintro (impossible | ⟨_, found⟩)
      · cases impossible
      · exact found
    · rintro ⟨order, held, opened, bucketIs⟩
      exact .inr ⟨listed held opened, order, held, opened, bucketIs⟩
  have orders : (indexOpenOrdersForExpiry s).jobOrders = s.jobOrders := visited.jobOrders
  have block : (indexOpenOrdersForExpiry s).blockNumber = s.blockNumber := visited.blockNumber
  have cursor : (indexOpenOrdersForExpiry s).nextExpiryBucket = s.blockNumber + 1 := next
  refine ⟨⟨?_, ?_⟩, ?_, ?_, ?_, ?_⟩
  · rw [orders, old.numbered.counted]
    exact visited.nextOrderId.symm
  · rw [orders, show (indexOpenOrdersForExpiry s).nextOrderId = s.nextOrderId from visited.nextOrderId]
    exact old.numbered.given
  · intro bucket orderId
    rw [entries]
    unfold Scheduled
    rw [orders]
    constructor
    · rintro ⟨order, held, opened, bucketIs⟩
      exact ⟨order, s.blockNumber, held, opened, times orderId order held opened, bucketIs⟩
    · rintro ⟨order, scheduledAt, held, opened, last, bucketIs⟩
      rw [times orderId order held opened] at last
      cases last
      exact ⟨order, held, opened, bucketIs⟩
  · intro orderId order held opened
    rw [orders] at held
    exact ⟨s.blockNumber, times orderId order held opened, by rw [block]⟩
  · intro bucket orderId found
    obtain ⟨order, _, _, rfl⟩ := (entries bucket orderId).mp found
    rw [cursor]
    exact Nat.le_max_right _ _
  · rw [cursor, block]

/-- The migration keeps the block number, also where it saturates. -/
theorem indexOpenOrdersForExpiry_blockNumber (s : State T) :
    (indexOpenOrdersForExpiry s).blockNumber = s.blockNumber := by
  have visit : ∀ (current : State T) orderId, (indexOpenOrder current orderId).blockNumber = current.blockNumber := by
    intro current orderId
    unfold indexOpenOrder
    split
    · rfl
    · split <;> rfl
  have fold : ∀ (ids : List Nat) (current : State T),
      (ids.foldl indexOpenOrder current).blockNumber = current.blockNumber := by
    intro ids
    induction ids with
    | nil => exact fun _ => rfl
    | cons first rest ih => exact fun current => (ih _).trans (visit current first)
  exact fold _ s

end Migration

/-- Where a chain can start: without orders, or with version 2 storage just
migrated to version 3. -/
def IndexedStart (s : State T) : Prop :=
  NoOrders s ∨ ∃ old, V2Storage old ∧ s = indexOpenOrdersForExpiry old

theorem IndexedStart.expiryIndex {s₀ : State T} (start : IndexedStart s₀) (within : Unsaturated s₀) :
    ExpiryIndex s₀ := by
  rcases start with fresh | ⟨old, migrated, rfl⟩
  · exact fresh.expiryIndex
  · exact indexOpenOrdersForExpiry_expiryIndex migrated (indexOpenOrdersForExpiry_blockNumber old ▸ within.2)

theorem unsaturated_earlier {s₀ : State T} {earlier later : List (Step T)}
    (within : Unsaturated ((machine T).run s₀ (earlier ++ later))) : Unsaturated ((machine T).run s₀ earlier) := by
  rw [Machine.run_append] at within
  exact (machine T).guard_backwards (fun _ step => step_unsaturated step) within

theorem run_expiryIndex {s₀ : State T} (start : IndexedStart s₀) (steps : List (Step T))
    (within : Unsaturated ((machine T).run s₀ steps)) : ExpiryIndex ((machine T).run s₀ steps) :=
  @run_by_moves T Unsaturated (fun _ s => ExpiryIndex s) s₀ (fun _ _ _ move => move.unsaturated_before)
    (start.expiryIndex (@unsaturated_earlier T s₀ [] steps within))
    (fun _ _ _ _ move within index => move.expiryIndex within index) steps within

/-- In every state reached from a chain without orders or from migrated
version 2 storage: an open order has exactly one entry, in the bucket its expiry
and its last scheduling give and the cursor has not passed; no id is in two
buckets; only open orders are indexed; the cursor is at most the next block. No
step expires an order before its effective expiry. -/
theorem open_order_indexed_once {s₀ : State T} (start : IndexedStart s₀) (steps : List (Step T))
    (within : Unsaturated ((machine T).run s₀ steps)) :
    let s := (machine T).run s₀ steps
    (∀ orderId order, s.jobOrders.lookup orderId = some order → order.status = .opened →
      ∃ scheduledAt, s.lastScheduled orderId = some scheduledAt ∧ scheduledAt ≤ s.blockNumber ∧
        s.nextExpiryBucket ≤ max order.expiry (scheduledAt + 1) ∧
        ∀ bucket, (s.ordersExpiringAt.get bucket orderId).isSome ↔ bucket = max order.expiry (scheduledAt + 1)) ∧
    (∀ first second orderId, (s.ordersExpiringAt.get first orderId).isSome →
      (s.ordersExpiringAt.get second orderId).isSome → first = second) ∧
    (∀ bucket orderId, (s.ordersExpiringAt.get bucket orderId).isSome →
      ∃ order, s.jobOrders.lookup orderId = some order ∧ order.status = .opened) ∧
    s.nextExpiryBucket ≤ s.blockNumber + 1 ∧
    ∀ earlier step later, steps = earlier ++ step :: later → ∀ orderId order updated,
      ((machine T).run s₀ earlier).jobOrders.lookup orderId = some order → order.status = .opened →
      ((machine T).run s₀ (earlier ++ [step])).jobOrders.lookup orderId = some updated →
      updated.status = .expired → order.expiry ≤ ((machine T).run s₀ (earlier ++ [step])).blockNumber := by
  have index := run_expiryIndex start steps within
  refine ⟨?_, fun _ _ _ => index.bucket_unique, ?_, index.cursor, ?_⟩
  · intro orderId order held opened
    obtain ⟨scheduledAt, last, past⟩ := index.scheduled orderId order held opened
    have entry := index.entry_iff held opened last
    exact ⟨scheduledAt, last, past, index.ahead _ _ ((entry _).mpr rfl), entry⟩
  · intro bucket orderId found
    obtain ⟨order, _, held, opened, _⟩ := (index.indexed _ _).mp found
    exact ⟨order, held, opened⟩
  · intro earlier step later split orderId order updated held opened reached expired
    subst split
    have withinStep : Unsaturated ((machine T).run s₀ (earlier ++ [step])) := by
      refine @unsaturated_earlier T s₀ _ later ?_
      rwa [List.append_assoc]
    have before := run_expiryIndex start earlier (unsaturated_earlier withinStep)
    rw [Machine.run_append] at reached withinStep ⊢
    exact step_expires_late before step withinStep held opened reached expired

theorem open_order_indexed_once_tinyOpening :
    ((machine tinyConfig).run tinyGenesis tinyOpening).statusOf 0 = some .opened ∧
      ∀ bucket, (((machine tinyConfig).run tinyGenesis tinyOpening).ordersExpiringAt.get bucket 0).isSome ↔ bucket = 2 := by
  have within : Unsaturated ((machine tinyConfig).run tinyGenesis tinyOpening) := by
    unfold Unsaturated FewOrders
    decide +kernel
  have opened : ((machine tinyConfig).run tinyGenesis tinyOpening).statusOf 0 = some .opened := by decide +kernel
  have expiry : (((machine tinyConfig).run tinyGenesis tinyOpening).jobOrders.lookup 0).map JobOrder.expiry = some 2 := by
    decide +kernel
  have scheduled : ((machine tinyConfig).run tinyGenesis tinyOpening).lastScheduled 0 = some 1 := by decide +kernel
  obtain ⟨order, held, status⟩ := Option.map_eq_some_iff.mp opened
  obtain ⟨scheduledAt, last, _, _, entry⟩ :=
    (open_order_indexed_once (.inl tinyGenesis_noOrders) tinyOpening within).1 0 order held status
  rw [held, Option.map_some, Option.some.injEq] at expiry
  rw [scheduled, Option.some.injEq] at last
  rw [expiry, ← last] at entry
  exact ⟨opened, entry⟩

end QuipValidator.Mempool
