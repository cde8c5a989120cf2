import QuipValidator.EscrowConservation
import QuipValidator.PowMiners
import QuipValidator.RegistryMoves

/-! What the calls and hooks of the three pallets do to the one reserve of an account.
Each changes it by exactly what it changes of its own claim on it: the rewards of
unsettled orders, the deposit of a miner, the deposit of a descriptor. -/
namespace QuipValidator

namespace Mempool
open Fallible
variable {T : Config} {s after : State T}

private theorem announceResult_balances {orderId : Nat} {order : JobOrder T}
    (ran : announceResult s orderId order = .ok after) : after.balances = s.balances := by
  unfold announceResult at ran
  split at ran
  · obtain ⟨winners, _, built⟩ := bind_success.mp ran
    cases built
    unfold emitResultReady persistResultIfNeeded
    cases order.delivery <;> rfl
  · cases ran
    rfl
  · cases ran

private theorem finaliseOrder_balances {orderId : Nat} (ran : finaliseOrder s orderId = .ok after) :
    after.balances = s.balances := by
  unfold finaliseOrder at ran
  split at ran
  · cases ran
    rfl
  · split at ran
    · cases ran
      rfl
    · dsimp only at ran
      split at ran
      · cases ran
        rfl
      · have same := announceResult_balances ran
        exact same

private theorem drainEntries_balances {bucket : Nat} (ids : List Nat) (ran : drainEntries bucket ids s = .ok after) :
    after.balances = s.balances := by
  induction ids generalizing s with
  | nil =>
    cases ran
    rfl
  | cons first rest ih =>
    obtain ⟨middle, finalised, ran⟩ := bind_success.mp ran
    have same := finaliseOrder_balances finalised
    exact (ih ran).trans same

private theorem drainBuckets_balances {now : Nat} (bucketBudget orderBudget bucket : Nat) (counts : Nat × Nat)
    {final : State T × Nat × Nat} (ran : drainBuckets now bucketBudget orderBudget bucket counts s = .ok final) :
    final.1.balances = s.balances := by
  induction bucketBudget generalizing s orderBudget bucket counts with
  | zero =>
    cases ran
    rfl
  | succ bucketBudget ih =>
    rw [drainBuckets] at ran
    split at ran
    · obtain ⟨middle, entries, ran⟩ := bind_success.mp ran
      have drained := drainEntries_balances _ entries
      split at ran
      · cases ran
        exact drained
      · exact (ih _ _ _ ran).trans drained
    · cases ran
      rfl

/-- The expiry hook touches neither balances nor escrows. -/
theorem nextBlock_reserve (ran : nextBlock s = .ok after) :
    after.balances = s.balances ∧ ∀ who, escrowOf after who = escrowOf s who := by
  have moves := nextBlock_moves ran
  constructor
  · simp only [nextBlock, onInitialize, finaliseExpiredOrders, bind_success] at ran
    obtain ⟨final, drained, built⟩ := ran
    cases built
    have same := drainBuckets_balances _ _ _ _ drained
    exact same
  · intro who
    clear ran
    induction moves with
    | refl => rfl
    | tail _ move ih => exact (move.escrow_same who).trans ih

/-- The calls that neither open, solve nor settle an order. -/
private theorem unlabelled_balances {env : Env T} {origin : Origin T} {call : Call T}
    (ran : execute s env origin call = .ok after)
    (unlabelled : Executed.label ⟨origin, call, s, after⟩ = none) : after.balances = s.balances := by
  cases call with
  | registerSolver solverType =>
    simp only [execute, registerSolver, bind_success] at ran
    obtain ⟨_, _, _, _, built⟩ := ran
    cases built
    rfl
  | deregisterSolver =>
    simp only [execute, deregisterSolver, bind_success] at ran
    obtain ⟨_, _, _, _, built⟩ := ran
    cases built
    rfl
  | registerJobSpec builder name formulation validationProgram transformProgram =>
    simp only [execute, insertJobSpec, bind_success, if_true] at ran
    obtain ⟨_, _, _, _, _, _, built⟩ := ran
    cases built
    rfl
  | purgeResult orderId =>
    simp only [execute, purgeResult, bind_success] at ran
    obtain ⟨_, _, _, _, _, _, built⟩ := ran
    cases built
    rfl
  | submitSolution orderId solutions =>
    obtain ⟨_, _, _, shown, _⟩ := submission_accepted rfl ran
    cases unlabelled.symm.trans shown
  | submitSolutionWithPayee orderId solutions payee =>
    obtain ⟨_, _, _, shown, _⟩ := submission_accepted rfl ran
    cases unlabelled.symm.trans shown
  | claimReward | reclaimOrder | proposeJob | proposeJobWithPayeeRequirement => cases unlabelled

/-- A call of the mempool changes a reserve by what it changes of the escrow. -/
theorem execute_reserve {env : Env T} {origin : Origin T} {call : Call T} (ran : execute s env origin call = .ok after)
    (numbered : Numbered s) (who : T.AccountId) :
    after.balances.reserved who + escrowOf s who = s.balances.reserved who + escrowOf after who := by
  have move := execute_move ran
  cases label : Executed.label ⟨origin, call, s, after⟩ with
  | some seen =>
    rw [label] at move
    exact move.reserve_exact numbered who
  | none =>
    rw [label] at move
    rw [unlabelled_balances ran label, move.escrow_same who]

end Mempool

namespace Pow
variable {T : Config} {s s' : State T}

/-- The deposit of a registered miner, zero for anybody else. -/
def depositOf (s : State T) (who : T.AccountId) : Nat := ((s.miners.lookup who).map fun miner => miner.deposit).getD 0

/-- A call of the proof-of-work pallet changes a reserve by what it changes of the miner's deposit. -/
theorem MinersMove.reserve_exact (move : MinersMove s s') (covered : ∀ who, depositOf s who ≤ s.balances.reserved who)
    (who : T.AccountId) :
    s'.balances.reserved who + depositOf s who = s.balances.reserved who + depositOf s' who := by
  cases move with
  | registers account absent affordable miners balances =>
    simp only [depositOf, miners, balances, StorageMap.lookup_insert_ite, Balances.set]
    by_cases same : who = account
    · subst same
      simp [absent, newMiner]
    · simp [same]
  | deregisters account miner held miners balances =>
    have enough := covered account
    simp only [depositOf, held, Option.map_some, Option.getD_some] at enough
    simp only [depositOf, miners, balances, StorageMap.lookup_erase_ite, Balances.unreserve, Balances.set]
    by_cases same : who = account
    · subst same
      simp only [if_true, held, Option.map_some, Option.getD_some, Option.map_none, Option.getD_none]
      omega
    · simp [same]
  | updates account miner updated held deposit rewards miners balances =>
    simp only [depositOf, miners, balances, StorageMap.lookup_insert_ite]
    by_cases same : who = account
    · subst same
      simp [held, deposit]
    · simp [same]
  | keeps miners balances =>
    simp only [depositOf, miners, balances]

/-- The end of a block credits the winner and leaves every deposit and balance. -/
theorem onFinalize_deposits (s : State T) (pay : T.AccountId → Nat → Nat) (n : Nat) :
    (committed s (onFinalize s pay n)).balances = s.balances ∧
      ∀ who, depositOf (committed s (onFinalize s pay n)) who = depositOf s who := by
  cases front : s.blockBestProof with
  | none =>
    have idle : onFinalize s pay n = .ok s := by
      simp only [onFinalize, front]
      rfl
    rw [idle]
    exact ⟨rfl, fun _ => rfl⟩
  | some record =>
    obtain ⟨next, logs, events, ran⟩ := onFinalize_pays s pay n front
    rw [ran]
    refine ⟨rfl, ?_⟩
    intro who
    simp only [committed, settledAs, depositOf]
    rcases creditWinner_miners s record.miner (pay record.miner (blockReward s)) with
      ⟨miner, held, miners⟩ | ⟨_, miners⟩
    · rw [miners, StorageMap.lookup_insert_ite]
      by_cases same : who = record.miner
      · subst same
        simp [held, MinerInfo.credited]
      · simp [same]
    · rw [miners]

end Pow

namespace Registry
open Fallible
variable {P : PalletConfig} {s after : Storage P} {env : Env P} {origin : Origin P}

/-- Moving the difference of two deposits replaces the one by the other. -/
private theorem shiftReserve_exact {balances shifted : Balances P} {who : P.AccountId} {previous next : Nat}
    (ran : shiftReserve balances env who previous next = .ok shifted) (covered : previous ≤ balances.reserved who)
    (probe : P.AccountId) :
    shifted.reserved probe + (if probe = who then previous else 0) =
      balances.reserved probe + if probe = who then next else 0 := by
  unfold shiftReserve at ran
  split at ran
  · simp only [Balances.reserve, bind_success] at ran
    obtain ⟨_, _, built⟩ := ran
    cases built
    simp only [Balances.set]
    by_cases same : probe = who
    · subst same
      simp only [if_true]
      omega
    · simp only [if_neg same]
  · split at ran
    · simp only [bind_success] at ran
      obtain ⟨_, _, built⟩ := ran
      cases built
      simp only [Balances.unreserve, Balances.set]
      by_cases same : probe = who
      · subst same
        simp only [if_true]
        omega
      · simp only [if_neg same]
    · cases ran
      have equal : previous = next := by omega
      rw [equal]

/-- A call of the registry changes a reserve by what it changes of the descriptor's deposit. -/
theorem Move.reserve_exact {call : Call} (move : Move env s origin call after)
    (covered : ∀ who, depositOf s who ≤ s.balances.reserved who) (probe : P.AccountId) :
    after.balances.reserved probe + depositOf s probe = s.balances.reserved probe + depositOf after probe := by
  cases move with
  | @files who _ descriptor _ _ shifted priced =>
    have exact := shiftReserve_exact shifted (covered who) probe
    simp only [depositOf, StorageMap.lookup_insert_ite] at exact ⊢
    by_cases same : probe = who
    · subst same
      simp only [if_true, Option.map_some, Option.getD_some] at exact ⊢
      omega
    · simp only [if_neg same] at exact ⊢
      omega
  | @clears who descriptor held =>
    have enough := covered who
    simp only [depositOf, held, Option.map_some, Option.getD_some] at enough
    simp only [depositOf, StorageMap.lookup_erase_ite, Balances.unreserve, Balances.set]
    by_cases same : probe = who
    · subst same
      simp only [if_true, held, Option.map_some, Option.getD_some, Option.map_none, Option.getD_none]
      omega
    · simp only [if_neg same]
  | declares => rfl

/-- Every stored deposit is the price of the stored payload. -/
def Priced (s : Storage P) : Prop := ∀ who descriptor, s.nodeDescriptors.lookup who = some descriptor →
  descriptor.deposit = descriptorDeposit P descriptor.payloadLen

theorem Move.priced {call : Call} (move : Move env s origin call after) (before : Priced s) : Priced after := by
  intro probe stored found
  cases move with
  | @files who _ descriptor _ _ shifted priced =>
    rw [StorageMap.lookup_insert_ite] at found
    split at found
    · cases found
      exact priced
    · exact before probe stored found
  | @clears who descriptor held =>
    rw [StorageMap.lookup_erase_ite] at found
    split at found
    · cases found
    · exact before probe stored found
  | declares => exact before probe stored found

section Asserts

private theorem safe_ensureSigned : Safe (ensureSigned origin) fun _ => True := by
  cases origin <;> trivial

private theorem calm_bind {α β : Type} {action : Fallible DispatchError α} {next : α → Fallible DispatchError β}
    (first : Safe action fun _ => True) (second : ∀ value, Safe (next value) fun _ => True) :
    Safe (action >>= next) fun _ => True := safe_bind first fun value _ => second value

private theorem safe_ensureThen {condition : Prop} [Decidable condition] {reason : DispatchError} :
    Safe (ensure condition reason) fun _ => True := safe_ensure.mono fun _ _ => trivial

private theorem safe_ensureFilled (text : Option Bytes) (error : Error) : Safe (ensureFilled text error) fun _ => True := by
  cases text with
  | none => trivial
  | some text => exact safe_ensureThen

private theorem safe_forEach {α : Type} {check : α → Fallible DispatchError Unit}
    (each : ∀ item, Safe (check item) fun _ => True) (items : List α) : Safe (forEach check items) fun _ => True := by
  induction items with
  | nil => trivial
  | cons item rest ih => exact safe_bind (each item) fun _ _ => ih

private theorem safe_ensurePort (publicPort : Option Nat) : Safe (ensurePort publicPort) fun _ => True := by
  cases publicPort with
  | none => trivial
  | some port => exact safe_ensureThen

private theorem safe_ensureUtilization (utilizationPct : Option Nat) :
    Safe (ensureUtilization utilizationPct) fun _ => True := by
  cases utilizationPct with
  | none => trivial
  | some utilization => exact safe_ensureThen

private theorem safe_validateNodeIdentity (input : NodeDescriptorV1Input) :
    Safe (validateNodeIdentity input) fun _ => True := by
  refine calm_bind safe_ensureThen fun _ => ?_
  refine calm_bind safe_ensureThen fun _ => ?_
  refine calm_bind (safe_ensureFilled _ _) fun _ => ?_
  exact calm_bind (safe_ensurePort _) fun _ => safe_forEach (fun _ => safe_ensureThen) _

private theorem safe_validateMiners (miners : List MinerSpec) : Safe (validateMiners miners) fun _ => True := by
  refine calm_bind safe_ensureThen fun _ => safe_forEach (fun miner => ?_) _
  refine calm_bind (safe_ensureFilled _ _) fun _ => ?_
  exact calm_bind (safe_ensureFilled _ _) fun _ => safe_ensureFilled _ _

private theorem safe_validateSystemInfo (info : SystemInfo) : Safe (validateSystemInfo info) fun _ => True := by
  refine calm_bind safe_ensureThen fun _ => ?_
  refine calm_bind safe_ensureThen fun _ => ?_
  refine calm_bind safe_ensureThen fun _ => safe_forEach (fun gpu => ?_) _
  refine calm_bind safe_ensureThen fun _ => ?_
  exact calm_bind safe_ensureThen fun _ => safe_ensureUtilization _

private theorem safe_validateRuntime (runtime : RuntimeInfo) : Safe (validateRuntime runtime) fun _ => True := by
  refine calm_bind safe_ensureThen fun _ => ?_
  exact calm_bind safe_ensureThen fun _ => safe_ensureFilled _ _

private theorem safe_addBlock {α : Type} {check : α → Fallible DispatchError Unit} {len : α → Nat} {payloadLen : Nat}
    (safe : ∀ block, Safe (check block) fun _ => True) (block : Option α) :
    Safe (addBlock check len payloadLen block) fun _ => True := by
  cases block with
  | none => trivial
  | some block => exact calm_bind (safe block) fun _ => trivial

private theorem safe_validateAndStoreDescriptor (input : NodeDescriptorInput) :
    Safe (validateAndStoreDescriptor s input) fun _ => True := by
  cases input with
  | v1 input =>
    refine calm_bind (safe_validateNodeIdentity input) fun _ => ?_
    exact calm_bind (safe_validateMiners _) fun _ => trivial
  | v2 input =>
    refine calm_bind (safe_validateNodeIdentity _) fun _ => ?_
    refine calm_bind (safe_validateMiners _) fun _ => ?_
    refine calm_bind (safe_addBlock safe_validateSystemInfo _) fun _ => ?_
    exact calm_bind (safe_addBlock safe_validateRuntime _) fun _ => trivial

private theorem safe_debugAssert {condition : Prop} [Decidable condition] (holds : condition) :
    Safe (debugAssert env condition) fun _ => True := by
  unfold debugAssert
  rw [if_neg fun failed => failed.2 holds]
  trivial

/-- As much as is on the reserve comes back whole. -/
theorem unreserve_whole {balances : Balances P} {who : P.AccountId} {amount : Nat}
    (covered : amount ≤ balances.reserved who) : (balances.unreserve who amount).1 = 0 := by
  simp only [Balances.unreserve]
  omega

private theorem safe_shiftReserve {balances : Balances P} {who : P.AccountId} {previous next : Nat}
    (covered : previous ≤ balances.reserved who) : Safe (shiftReserve balances env who previous next) fun _ => True := by
  unfold shiftReserve
  split
  · exact safe_bind safe_ensureThen fun _ _ => trivial
  · split
    · exact safe_bind (safe_debugAssert (unreserve_whole (by omega))) fun _ _ => trivial
    · trivial

/-- No assertion of a call fails while every deposit is on the reserve. -/
theorem execute_asserts (covered : ∀ who, depositOf s who ≤ s.balances.reserved who) (call : Call) (message : String) :
    execute s env origin call ≠ .error (.panic message) := by
  have safe : Safe (execute s env origin call) fun _ => True := by
    cases call with
    | setDescriptor descriptor =>
      refine calm_bind safe_ensureSigned fun who => ?_
      refine calm_bind (safe_validateAndStoreDescriptor descriptor) fun stored => ?_
      have filed : Safe (fileDescriptor s env who stored.1 (P.blake2 (descriptor.encode P.toConfig))) fun _ => True :=
        calm_bind (safe_shiftReserve (covered who)) fun _ => trivial
      exact calm_bind filed fun _ => trivial
    | clearDescriptor =>
      refine safe_bind safe_ensureSigned fun who _ => ?_
      refine safe_bind safe_okOr fun descriptor held => ?_
      have enough := covered who
      simp only [depositOf, held, Option.map_some, Option.getD_some] at enough
      exact safe_bind (safe_debugAssert (unreserve_whole enough)) fun _ _ => trivial
    | participate qblockId kind budgetSeconds =>
      refine calm_bind safe_ensureSigned fun who => ?_
      refine calm_bind safe_ensureThen fun _ => ?_
      refine calm_bind safe_ensureThen fun _ => ?_
      exact calm_bind safe_ensureThen fun _ => trivial
  exact safe.no_panic message

end Asserts

end Registry

end QuipValidator
