import QuipValidator.DrainProgress
import QuipValidator.ExpiryIndexProofs
import QuipValidator.SettlementAgreement

/-! How long an order can stay open once its bucket has come due. New entries go
to later blocks only, so what an overdue order waits for never grows, and each
block takes eight entries off it or eight buckets. -/
namespace QuipValidator.Mempool
open StorageDoubleMap

variable {T : Config} {s after : State T} {label : Option (Label T)}

section Moves

theorem saturating_next_le {limit value : Nat} (below : value ≤ limit) : value ≤ saturatingAdd limit value 1 := by
  simp only [saturatingAdd]
  omega

/-- No move adds an entry to a bucket the current block has reached. -/
theorem Move.no_late_entry (move : Move s label after) (below : s.blockNumber < T.maxBlockNumber) {bucket orderId : Nat}
    (due : bucket ≤ s.blockNumber) (found : (after.ordersExpiringAt.get bucket orderId).isSome) :
    (s.ordersExpiringAt.get bucket orderId).isSome := by
  have later : ∀ expiry, bucket ≠ expiryBucket s expiry := by
    intro expiry
    rw [expiryBucket, saturatingAdd_of_le (by omega)]
    omega
  cases move with
  | idles | purges | rebalances | ticks | closes | advances => exact found
  | opens =>
    simp only [get_insert] at found
    rwa [if_neg fun both => later _ both.1] at found
  | accepts =>
    dsimp only at found
    split at found
    · simp only [get_insert, get_remove] at found
      rw [if_neg fun both => later _ both.1] at found
      split at found
      · cases found
      · exact found
    · exact found
  | expires | drops =>
    simp only [get_remove] at found
    split at found
    · cases found
    · exact found

/-- The cursor never moves back. -/
theorem Move.cursor_le (move : Move s label after) (below : s.blockNumber < T.maxBlockNumber) :
    s.nextExpiryBucket ≤ after.nextExpiryBucket := by
  cases move with
  | advances behind => exact saturating_next_le (by omega)
  | _ => exact Nat.le_refl _

/-- The hook takes an entry only out of the bucket at its cursor. -/
theorem Move.taken_at_cursor (move : Move s none after) {bucket orderId : Nat}
    (found : (s.ordersExpiringAt.get bucket orderId).isSome)
    (taken : after.ordersExpiringAt.get bucket orderId = none) : bucket = s.nextExpiryBucket := by
  cases move with
  | idles | purges | rebalances | ticks | advances =>
    rw [show s.ordersExpiringAt.get bucket orderId = none from taken] at found
    cases found
  | expires | drops =>
    simp only [get_remove] at taken
    split at taken
    · rename_i both
      exact both.1
    · rw [taken] at found
      cases found

theorem Moves.cursor_le (moves : Moves s after) (below : after.blockNumber < T.maxBlockNumber) :
    s.nextExpiryBucket ≤ after.nextExpiryBucket := by
  induction moves with
  | refl => exact Nat.le_refl _
  | tail _ move ih =>
    have before := Nat.lt_of_le_of_lt move.block_le below
    exact Nat.le_trans (ih before) (move.cursor_le before)

/-- What the moves of a block took out of the index lay no further than the cursor got. -/
theorem Moves.taken_by_cursor (moves : Moves s after) (below : after.blockNumber < T.maxBlockNumber)
    {bucket orderId : Nat} (found : (s.ordersExpiringAt.get bucket orderId).isSome)
    (taken : after.ordersExpiringAt.get bucket orderId = none) : bucket ≤ after.nextExpiryBucket := by
  induction moves with
  | refl =>
    rw [taken] at found
    cases found
  | @tail middle last moves move ih =>
    have before := Nat.lt_of_le_of_lt move.block_le below
    cases between : middle.ordersExpiringAt.get bucket orderId with
    | none => exact Nat.le_trans (ih before between) (move.cursor_le before)
    | some _ =>
      rw [move.taken_at_cursor (by rw [between]; rfl) taken]
      exact move.cursor_le before

end Moves

section Hook
open Fallible

/-- What the hook leaves alone. -/
structure Spared (s after : State T) : Prop where
  blockNumber : after.blockNumber = s.blockNumber
  jobSpecs : after.jobSpecs = s.jobSpecs
  solvers : after.solvers = s.solvers
  balances : after.balances = s.balances

theorem Spared.refl (s : State T) : Spared s s := ⟨rfl, rfl, rfl, rfl⟩

theorem Spared.trans {middle : State T} (first : Spared s middle) (second : Spared middle after) : Spared s after :=
  ⟨second.blockNumber.trans first.blockNumber, second.jobSpecs.trans first.jobSpecs,
    second.solvers.trans first.solvers, second.balances.trans first.balances⟩

private theorem announceResult_spares {orderId : Nat} {order : JobOrder T}
    (ran : announceResult s orderId order = .ok after) : Spared s after := by
  unfold announceResult at ran
  split at ran
  · obtain ⟨winners, _, same⟩ := bind_success.mp ran
    cases same
    cases sent : order.delivery <;> simp only [emitResultReady, persistResultIfNeeded, sent] <;>
      exact ⟨rfl, rfl, rfl, rfl⟩
  · cases ran
    exact ⟨rfl, rfl, rfl, rfl⟩
  · cases ran

private theorem finaliseOrder_spares {orderId : Nat} (ran : finaliseOrder s orderId = .ok after) : Spared s after := by
  unfold finaliseOrder at ran
  split at ran
  · cases ran
    exact .refl s
  split at ran
  · cases ran
    exact .refl s
  dsimp only at ran
  split at ran
  · cases ran
    exact ⟨rfl, rfl, rfl, rfl⟩
  · have announced := announceResult_spares ran
    exact ⟨announced.blockNumber, announced.jobSpecs, announced.solvers, announced.balances⟩

private theorem drainEntries_spares {bucket : Nat} (ids : List Nat) (ran : drainEntries bucket ids s = .ok after) :
    Spared s after := by
  induction ids generalizing s with
  | nil =>
    cases ran
    exact .refl _
  | cons first rest ih =>
    simp only [drainEntries, bind_success] at ran
    obtain ⟨middle, finalised, ran⟩ := ran
    have spared := finaliseOrder_spares finalised
    exact .trans ⟨spared.blockNumber, spared.jobSpecs, spared.solvers, spared.balances⟩ (ih ran)

private theorem drainBuckets_spares {now bucketBudget orderBudget bucket : Nat} {counts : Nat × Nat}
    {final : State T × Nat × Nat} (ran : drainBuckets now bucketBudget orderBudget bucket counts s = .ok final) :
    Spared s final.1 := by
  induction bucketBudget generalizing s orderBudget bucket counts with
  | zero =>
    cases ran
    exact ⟨rfl, rfl, rfl, rfl⟩
  | succ bucketBudget ih =>
    rw [drainBuckets] at ran
    split at ran
    · obtain ⟨middle, drained, ran⟩ := bind_success.mp ran
      have same := drainEntries_spares _ drained
      split at ran
      · cases ran
        exact .trans same ⟨rfl, rfl, rfl, rfl⟩
      · exact .trans same (ih ran)
    · cases ran
      exact ⟨rfl, rfl, rfl, rfl⟩

theorem nextBlock_spares (ran : nextBlock s = .ok after) :
    Spared { s with blockNumber := s.blockNumber + 1 } after := by
  obtain ⟨final, drained, same⟩ := bind_success.mp ran
  cases same
  exact drainBuckets_spares drained

theorem nextBlock_blockNumber (ran : nextBlock s = .ok after) : after.blockNumber = s.blockNumber + 1 :=
  (nextBlock_spares ran).blockNumber

/-- What building one block does to the index: the entries it removed, and where its cursor stopped. -/
theorem nextBlock_progress (ran : nextBlock s = .ok after) (below : after.blockNumber < T.maxBlockNumber) :
    ∃ entries visited,
      Progress { s with blockNumber := s.blockNumber + 1 } (s.blockNumber + 1) MAX_FINALISED_ORDERS_PER_BLOCK
        MAX_FINALISED_ORDERS_PER_BLOCK s.nextExpiryBucket entries after.nextExpiryBucket visited ∧
      ∀ bucket orderId, after.ordersExpiringAt.get bucket orderId =
        if (bucket, orderId) ∈ entries then none else s.ordersExpiringAt.get bucket orderId := by
  rw [nextBlock_blockNumber ran] at below
  obtain ⟨final, hook, same⟩ := bind_success.mp ran
  cases same
  obtain ⟨drained, entries, cursor, visited, removed, result, progress⟩ :=
    drainBuckets_progress below MAX_FINALISED_ORDERS_PER_BLOCK MAX_FINALISED_ORDERS_PER_BLOCK s.nextExpiryBucket 0 0
      { s with blockNumber := s.blockNumber + 1 } (by decide) (by decide)
  rw [finaliseExpiredOrders, result] at hook
  cases hook
  obtain ⟨last, drainedAgain, index⟩ := drainAll_runs entries { s with blockNumber := s.blockNumber + 1 }
  rw [removed] at drainedAgain
  cases drainedAgain
  exact ⟨entries, visited, progress, index⟩

end Hook

section Runs

def Step.isNextBlock : Step T → Bool
  | .nextBlock => true
  | _ => false

/-- The blocks a run builds. -/
def blocks (steps : List (Step T)) : Nat := steps.countP Step.isNextBlock

/-- A state of a run at which `bucket` has come due. -/
structure Reached (s : State T) (bucket : Nat) : Prop where
  within : Unsaturated s
  index : ExpiryIndex s
  due : bucket ≤ s.blockNumber

end Runs

section OnTime
open Fallible

/-- No entry is overdue, and the cursor has kept up with the block number. -/
structure OnTime (s : State T) : Prop where
  early : ∀ bucket orderId, (s.ordersExpiringAt.get bucket orderId).isSome → s.blockNumber < bucket
  level : s.blockNumber ≤ s.nextExpiryBucket

/-- No more orders fall due in the next block than it can take. -/
def Uncrowded (s : State T) : Prop :=
  (s.ordersExpiringAt (s.blockNumber + 1)).keys.length ≤ MAX_FINALISED_ORDERS_PER_BLOCK

private theorem Move.labelled_blockNumber {seen : Label T} (move : Move s (some seen) after) :
    after.blockNumber = s.blockNumber := by
  cases move <;> rfl

/-- A dispatch does not change the block number. -/
theorem execute_blockNumber {env : Env T} {origin : Origin T} {call : Call T}
    (ran : execute s env origin call = .ok after) : after.blockNumber = s.blockNumber := by
  have move := execute_move ran
  cases call with
  | registerSolver solverType =>
    simp only [execute, registerSolver, bind_success] at ran
    obtain ⟨_, _, _, _, same⟩ := ran
    cases same
    rfl
  | deregisterSolver =>
    simp only [execute, deregisterSolver, bind_success] at ran
    obtain ⟨_, _, _, _, same⟩ := ran
    cases same
    rfl
  | registerJobSpec builder name formulation validationProgram transformProgram =>
    simp only [execute, insertJobSpec, bind_success, if_true] at ran
    obtain ⟨_, _, _, _, _, _, same⟩ := ran
    cases same
    rfl
  | purgeResult orderId =>
    simp only [execute, purgeResult, bind_success] at ran
    obtain ⟨_, _, _, _, _, _, same⟩ := ran
    cases same
    rfl
  | proposeJob _ | proposeJobWithPayeeRequirement _ _ => exact move.labelled_blockNumber
  | claimReward _ | reclaimOrder _ => exact move.labelled_blockNumber
  | submitSolution _ _ | submitSolutionWithPayee _ _ _ =>
    obtain ⟨_, _, _, _, accepted⟩ := submission_accepted rfl ran
    exact accepted.labelled_blockNumber

/-- A bucket of at most eight entries is empty once eight entries were taken from it. -/
private theorem uncrowded_emptied {bucket : Nat} {entries : List (Nat × Nat)}
    (uncrowded : (s.ordersExpiringAt bucket).keys.length ≤ MAX_FINALISED_ORDERS_PER_BLOCK) (distinct : entries.Nodup) (full : entries.length = MAX_FINALISED_ORDERS_PER_BLOCK)
    (listed : ∀ entry ∈ entries, entry.1 = bucket ∧ (s.ordersExpiringAt.get entry.1 entry.2).isSome) {orderId : Nat}
    (found : (s.ordersExpiringAt.get bucket orderId).isSome) : (bucket, orderId) ∈ entries := by
  have held : ∀ probe, probe ∈ (s.ordersExpiringAt bucket).keys ↔ (s.ordersExpiringAt.get bucket probe).isSome := by
    intro probe
    rw [StorageMap.mem_keys_iff_lookup, Option.isSome_iff_exists]
    rfl
  have within : entries.map Prod.snd ⊆ (s.ordersExpiringAt bucket).keys := by
    intro probe member
    obtain ⟨entry, taken, rfl⟩ := List.mem_map.mp member
    obtain ⟨rfl, present⟩ := listed entry taken
    exact (held _).mpr present
  have apart : (entries.map Prod.snd).Nodup := by
    refine List.Nodup.map_on ?_ distinct
    intro first inFirst second inSecond same
    exact Prod.ext ((listed first inFirst).1.trans (listed second inSecond).1.symm) same
  have whole : (entries.map Prod.snd).Perm (s.ordersExpiringAt bucket).keys := by
    refine (apart.subperm within).perm_of_length_le ?_
    rw [List.length_map, full]
    exact uncrowded
  obtain ⟨entry, taken, rfl⟩ := List.mem_map.mp (whole.mem_iff.mpr ((held orderId).mpr found))
  rwa [← (listed entry taken).1]

private theorem nextBlock_onTime (before : OnTime s) (index : ExpiryIndex s) (uncrowded : Uncrowded s) (ran : nextBlock s = .ok after)
    (below : after.blockNumber < T.maxBlockNumber) : OnTime after := by
  have clock := nextBlock_blockNumber ran
  obtain ⟨entries, visited, progress, removed⟩ := nextBlock_progress ran below
  have forward := (nextBlock_moves ran).cursor_le below
  have level := before.level
  have cursor := index.cursor
  have inBucket : ∀ entry ∈ entries, entry.1 = s.blockNumber + 1 ∧ (s.ordersExpiringAt.get entry.1 entry.2).isSome := by
    intro entry member
    obtain ⟨found, _, inTime⟩ := progress.listed entry member
    have early := before.early entry.1 entry.2 found
    exact ⟨by omega, found⟩
  have early : ∀ bucket orderId, (after.ordersExpiringAt.get bucket orderId).isSome →
      s.blockNumber < bucket ∧ (s.ordersExpiringAt.get bucket orderId).isSome ∧ (bucket, orderId) ∉ entries := by
    intro bucket orderId found
    rw [removed] at found
    split at found
    · cases found
    · rename_i kept
      exact ⟨before.early bucket orderId found, found, kept⟩
  rcases progress.stops index.cursor with caught | spent | ⟨_, passed⟩
  · refine ⟨fun bucket orderId found => ?_, by omega⟩
    obtain ⟨later, present, kept⟩ := early bucket orderId found
    rcases Nat.lt_or_ge (s.blockNumber + 1) bucket with beyond | reached
    · omega
    · exact absurd (progress.passed bucket (by omega) (by omega) orderId present) kept
  · have reached : s.blockNumber + 1 ≤ after.nextExpiryBucket := by
      obtain ⟨entry, member⟩ := List.exists_mem_of_length_pos (by rw [spent]; decide : 0 < entries.length)
      obtain ⟨here, found⟩ := inBucket entry member
      rw [← here]
      exact (nextBlock_moves ran).taken_by_cursor below found (by rw [removed, if_pos member])
    refine ⟨fun bucket orderId found => ?_, by omega⟩
    obtain ⟨later, present, kept⟩ := early bucket orderId found
    rcases Nat.eq_or_lt_of_le (Nat.succ_le_of_lt later) with same | beyond
    · subst same
      exact absurd (uncrowded_emptied uncrowded progress.distinct spent inBucket present) kept
    · omega
  · have caught := progress.caught
    simp only [MAX_FINALISED_ORDERS_PER_BLOCK] at passed
    omega

private theorem step_onTime (before : OnTime s) (index : ExpiryIndex s) (step : Step T)
    (uncrowded : step = .nextBlock → Uncrowded s)
    (within : Unsaturated ((machine T).next s step)) : OnTime ((machine T).next s step) := by
  have below : s.blockNumber < T.maxBlockNumber := (step_unsaturated step within).2
  cases step with
  | dispatch env origin call =>
    cases ran : execute s env origin call with
    | error fault =>
      simp only [machine, ran, committed]
      exact before
    | ok after =>
      simp only [machine, ran, committed]
      have clock := execute_blockNumber ran
      refine ⟨fun bucket orderId found => ?_, ?_⟩
      · rw [clock]
        by_contra reached
        have present := (execute_move ran).no_late_entry below (not_lt.mp reached) found
        exact reached (before.early bucket orderId present)
      · rw [clock]
        exact Nat.le_trans before.level ((execute_move ran).cursor_le below)
  | nextBlock =>
    obtain ⟨after, ran⟩ := nextBlock_ok s
    simp only [machine, ran, committed] at within ⊢
    exact nextBlock_onTime before index (uncrowded rfl) ran within.2
  | external free others => exact ⟨before.early, before.level⟩

private theorem IndexedStart.onTime {s₀ : State T} (start : IndexedStart s₀) (within : Unsaturated s₀)
    (level : s₀.blockNumber ≤ s₀.nextExpiryBucket) : OnTime s₀ := by
  refine ⟨fun bucket orderId found => ?_, level⟩
  have ahead := (start.expiryIndex within).ahead bucket orderId found
  rcases start with fresh | ⟨old, _, rfl⟩
  · rw [fresh.ordersExpiringAt] at found
    cases found
  · have below := within.2
    rw [indexOpenOrdersForExpiry_blockNumber] at below ⊢
    have cursor : (indexOpenOrdersForExpiry old).nextExpiryBucket = old.blockNumber + 1 :=
      saturatingAdd_of_le (by omega)
    omega

/-- While at most eight orders fall due in each block, the hook is never late: an order
is open only before its effective expiry, or in the block that scheduled it. -/
theorem uncrowded_orders_expire_on_time {s₀ : State T} (start : IndexedStart s₀)
    (level : s₀.blockNumber ≤ s₀.nextExpiryBucket) (steps : List (Step T))
    (within : Unsaturated ((machine T).run s₀ steps))
    (uncrowded : ∀ earlier later, steps = earlier ++ .nextBlock :: later → Uncrowded ((machine T).run s₀ earlier))
    {orderId : Nat} {order : JobOrder T}
    (held : ((machine T).run s₀ steps).jobOrders.lookup orderId = some order) (opened : order.status = .opened) :
    ((machine T).run s₀ steps).blockNumber < order.expiry ∨
      ((machine T).run s₀ steps).lastScheduled orderId = some ((machine T).run s₀ steps).blockNumber := by
  have index := run_expiryIndex start steps within
  have onTime : OnTime ((machine T).run s₀ steps) := by
    clear held index
    induction steps using List.reverseRecOn with
    | nil => exact start.onTime within level
    | append_singleton steps step ih =>
      have before := unsaturated_earlier within
      have crowds : step = .nextBlock → Uncrowded ((machine T).run s₀ steps) := by
        rintro rfl
        exact uncrowded steps [] rfl
      rw [Machine.run_concat] at within ⊢
      refine step_onTime (ih before ?_) (run_expiryIndex start steps before) step crowds within
      intro earlier later split
      exact uncrowded earlier (later ++ [step]) (by rw [split, List.append_assoc, List.cons_append])
  obtain ⟨scheduledAt, last, past⟩ := index.scheduled orderId order held opened
  have early := onTime.early _ _ ((index.entry_iff held opened last _).mpr rfl)
  rw [JobOrder.bucket] at early
  rcases Nat.eq_or_lt_of_le past with now | sooner
  · exact .inr (by rw [last, now])
  · exact .inl (by omega)

/-- The small runtime at its genesis block, where the cursor stands on the block number. -/
def tinyLevel : State tinyConfig := { tinyGenesis with blockNumber := 0 }

/-- One proposal and the block after it. -/
def tinyShort : List (Step tinyConfig) :=
  [.dispatch tinyEnv .root (.registerJobSpec (0 : Nat) default .ising none none),
   .dispatch tinyEnv (.signed (0 : Nat)) (.proposeJob tinyProposal), .nextBlock]

theorem uncrowded_orders_expire_on_time_tiny :
    ∃ order, ((machine tinyConfig).run tinyLevel tinyShort).jobOrders.lookup 0 = some order ∧
      (((machine tinyConfig).run tinyLevel tinyShort).blockNumber < order.expiry ∨
        ((machine tinyConfig).run tinyLevel tinyShort).lastScheduled 0 =
          some ((machine tinyConfig).run tinyLevel tinyShort).blockNumber) := by
  have fresh : NoOrders tinyLevel :=
    ⟨rfl, rfl, rfl, rfl, by decide, rfl, rfl, rfl, rfl, rfl, rfl, rfl, rfl, rfl, rfl⟩
  have within : Unsaturated ((machine tinyConfig).run tinyLevel tinyShort) := by
    unfold Unsaturated FewOrders
    decide +kernel
  have opened : ((machine tinyConfig).run tinyLevel tinyShort).statusOf 0 = some .opened := by decide +kernel
  obtain ⟨order, held, status⟩ := Option.map_eq_some_iff.mp opened
  refine ⟨order, held, uncrowded_orders_expire_on_time (.inl fresh) (Nat.le_refl 0) tinyShort within ?_ held status⟩
  intro earlier later split
  -- The only block of the run comes last.
  obtain rfl : earlier = tinyShort.take 2 := by
    simp only [tinyShort, List.cons_eq_append_iff, List.cons.injEq, reduceCtorEq, and_false, false_and, false_or, or_false,
      List.nil_eq, List.append_eq_nil_iff, exists_const] at split
    obtain ⟨_, rfl, _, rfl, rfl, _⟩ := split
    rfl
  unfold Uncrowded
  decide +kernel

end OnTime

end QuipValidator.Mempool
