import Mathlib.Logic.Equiv.Defs
import QuipValidator.Participation
import QuipValidator.ReserveMoves

/-! One unnamed reserve under three pallets. The mempool, the proof-of-work pallet and the
miner registry reserve on the same balance, so each could release what another one holds.
The ledger of a run is shared: every call and hook runs on it and leaves it to the next.
Whatever their order, an account's reserve is what other code holds of it, the rewards of
its unsettled orders, its miner deposit and its descriptor deposit. -/
namespace QuipValidator.SharedReserve
open Fallible

/-- The three pallets of one runtime, with their account types identified. -/
structure Runtime where
  AccountId : Type
  mempool : Mempool.Config
  pow : Pow.Config
  registry : Registry.PalletConfig
  mempoolAccount : mempool.AccountId ≃ AccountId
  powAccount : pow.AccountId ≃ AccountId
  registryAccount : registry.AccountId ≃ AccountId

variable {R : Runtime}

/-- The free balances and the one reserve of every account. -/
structure Ledger (R : Runtime) where
  free : R.AccountId → Nat
  reserved : R.AccountId → Nat

/-- The storages of the three pallets and the ledger. The balances inside a storage are
only its view of the ledger. `others` is the part of the reserve that other code holds. -/
structure World (R : Runtime) where
  mempool : Mempool.State R.mempool
  pow : Pow.State R.pow
  registry : Registry.Storage R.registry
  ledger : Ledger R
  others : R.AccountId → Nat

namespace World

/-- The mempool as a call finds it, on the shared ledger. -/
def mempoolView (w : World R) : Mempool.State R.mempool :=
  { w.mempool with
    balances :=
      { free := fun who => w.ledger.free (R.mempoolAccount who)
        reserved := fun who => w.ledger.reserved (R.mempoolAccount who)
        movements := w.mempool.balances.movements } }

def powView (w : World R) : Pow.State R.pow :=
  { w.pow with
    balances :=
      { free := fun who => w.ledger.free (R.powAccount who)
        reserved := fun who => w.ledger.reserved (R.powAccount who) } }

def registryView (w : World R) : Registry.Storage R.registry :=
  { w.registry with
    balances :=
      { free := fun who => w.ledger.free (R.registryAccount who)
        reserved := fun who => w.ledger.reserved (R.registryAccount who) } }

/-- What the mempool leaves goes back to the ledger. -/
def putMempool (w : World R) (s : Mempool.State R.mempool) : World R :=
  { w with
    mempool := s
    ledger :=
      { free := fun account => s.balances.free (R.mempoolAccount.symm account)
        reserved := fun account => s.balances.reserved (R.mempoolAccount.symm account) } }

def putPow (w : World R) (s : Pow.State R.pow) : World R :=
  { w with
    pow := s
    ledger :=
      { free := fun account => s.balances.free (R.powAccount.symm account)
        reserved := fun account => s.balances.reserved (R.powAccount.symm account) } }

def putRegistry (w : World R) (s : Registry.Storage R.registry) : World R :=
  { w with
    registry := s
    ledger :=
      { free := fun account => s.balances.free (R.registryAccount.symm account)
        reserved := fun account => s.balances.reserved (R.registryAccount.symm account) } }

/-- The rewards of the account's orders that are not closed. -/
def rewards (w : World R) (account : R.AccountId) : Nat :=
  Mempool.escrowOf w.mempool (R.mempoolAccount.symm account)

/-- `Miners(account).deposit`, if registered. -/
def minerDeposit (w : World R) (account : R.AccountId) : Nat := Pow.depositOf w.pow (R.powAccount.symm account)

/-- `NodeDescriptors(account).deposit`, if present. -/
def descriptorDeposit (w : World R) (account : R.AccountId) : Nat :=
  Registry.depositOf w.registry (R.registryAccount.symm account)

end World

/-- Who acts. -/
inductive Owner where
  | mempool
  | pow
  | registry
  | others
  deriving DecidableEq

/-- The part of an account's reserve that is due to an owner. -/
def World.part (w : World R) (account : R.AccountId) : Owner → Nat
  | .mempool => w.rewards account
  | .pow => w.minerDeposit account
  | .registry => w.descriptorDeposit account
  | .others => w.others account

/-- A call or a hook of one of the pallets, or anything else that happens to the ledger:
other code may set the free balances and its own part of the reserves. -/
inductive Input (R : Runtime) where
  | mempool (env : Mempool.Env R.mempool) (origin : Mempool.Origin R.mempool) (call : Mempool.Call R.mempool)
  | mempoolBlock
  | pow (env : Pow.Env R.pow) (origin : Pow.Origin R.pow.AccountId) (call : Pow.Call R.pow)
  | powBlock (pay : R.pow.AccountId → Nat → Nat) (skipped : Nat) (parentHash : R.pow.Hash)
  | registry (env : Registry.Env R.registry) (origin : Registry.Origin R.registry) (call : Registry.Call)
  | registryBlock
  | outside (free others : R.AccountId → Nat)

namespace Input

def owner : Input R → Owner
  | mempool _ _ _ | mempoolBlock => .mempool
  | pow _ _ _ | powBlock _ _ _ => .pow
  | registry _ _ _ | registryBlock => .registry
  | outside _ _ => .others

/-- A call that fails leaves everything as it was. -/
def next (w : World R) : Input R → World R
  | mempool env origin call =>
    w.putMempool (Mempool.committed w.mempoolView (Mempool.execute w.mempoolView env origin call))
  | mempoolBlock => w.putMempool (Mempool.committed w.mempoolView (Mempool.nextBlock w.mempoolView))
  | pow env origin call => w.putPow (Pow.committed w.powView (Pow.execute w.powView env origin call))
  | powBlock pay skipped parentHash =>
    w.putPow (Pow.initialised (Pow.committed w.powView (Pow.onFinalize w.powView pay w.powView.blockNumber))
      { skipped, parentHash, actions := [], pay })
  | registry env origin call =>
    w.putRegistry (Registry.committed w.registryView (Registry.execute w.registryView env origin call))
  | registryBlock => { w with registry := { w.registry with blockNumber := w.registry.blockNumber + 1 } }
  | outside free others =>
    { w with
      others
      ledger := { free, reserved := fun account => w.ledger.reserved account - w.others account + others account } }

end Input

def machine (R : Runtime) : Machine (World R) (Input R) Unit where
  next w input := input.next w
  report _ _ := []

/-- The invariant: the reserve is the sum of its parts, the mempool's storage and its own
record of the reserve agree, and descriptors carry the price of their payload. -/
structure Covered (w : World R) : Prop where
  reserved : ∀ account, w.ledger.reserved account =
    w.others account + (w.rewards account + w.minerDeposit account + w.descriptorDeposit account)
  numbered : Mempool.Numbered w.mempool
  balanced : ∀ who, Mempool.reservedFrom w.mempool.balances.movements who =
    Mempool.unreservedFor w.mempool.balances.movements who + Mempool.escrowOf w.mempool who
  priced : Registry.Priced w.registry

section Steps
variable {w : World R}

private theorem Covered.escrow (covered : Covered w) : Mempool.Escrow w.mempoolView where
  numbered := ⟨covered.numbered.counted, covered.numbered.given⟩
  balanced := covered.balanced
  pooled := by
    intro who
    have sum := covered.reserved (R.mempoolAccount who)
    simp only [World.rewards, Equiv.symm_apply_apply] at sum
    change Mempool.escrowOf w.mempool who ≤ w.ledger.reserved (R.mempoolAccount who)
    omega

private theorem Covered.miners (covered : Covered w) (who : R.pow.AccountId) :
    Pow.depositOf w.powView who ≤ w.powView.balances.reserved who := by
  have sum := covered.reserved (R.powAccount who)
  simp only [World.minerDeposit, Equiv.symm_apply_apply] at sum
  change Pow.depositOf w.pow who ≤ w.ledger.reserved (R.powAccount who)
  omega

private theorem Covered.descriptors (covered : Covered w) (who : R.registry.AccountId) :
    Registry.depositOf w.registryView who ≤ w.registryView.balances.reserved who := by
  have sum := covered.reserved (R.registryAccount who)
  simp only [World.descriptorDeposit, Equiv.symm_apply_apply] at sum
  change Registry.depositOf w.registry who ≤ w.ledger.reserved (R.registryAccount who)
  omega

-- A pallet that changes the reserve by the change of its own part keeps the sum.
private theorem Covered.putMempool (covered : Covered w) {s : Mempool.State R.mempool} (escrow : Mempool.Escrow s)
    (exact : ∀ who, s.balances.reserved who + Mempool.escrowOf w.mempoolView who =
      w.mempoolView.balances.reserved who + Mempool.escrowOf s who) : Covered (w.putMempool s) where
  reserved := by
    intro account
    have sum := covered.reserved account
    have change := exact (R.mempoolAccount.symm account)
    simp only [World.mempoolView, Equiv.apply_symm_apply] at change
    simp only [World.putMempool, World.rewards, World.minerDeposit, World.descriptorDeposit] at sum ⊢
    change _ + Mempool.escrowOf w.mempool _ = _ at change
    omega
  numbered := escrow.numbered
  balanced := escrow.balanced
  priced := covered.priced

private theorem Covered.putPow (covered : Covered w) {s : Pow.State R.pow}
    (exact : ∀ who, s.balances.reserved who + Pow.depositOf w.powView who =
      w.powView.balances.reserved who + Pow.depositOf s who) : Covered (w.putPow s) where
  reserved := by
    intro account
    have sum := covered.reserved account
    have change := exact (R.powAccount.symm account)
    simp only [World.powView, Equiv.apply_symm_apply] at change
    simp only [World.putPow, World.rewards, World.minerDeposit, World.descriptorDeposit] at sum ⊢
    change _ + Pow.depositOf w.pow _ = _ at change
    omega
  numbered := covered.numbered
  balanced := covered.balanced
  priced := covered.priced

private theorem Covered.putRegistry (covered : Covered w) {s : Registry.Storage R.registry}
    (priced : Registry.Priced s)
    (exact : ∀ who, s.balances.reserved who + Registry.depositOf w.registryView who =
      w.registryView.balances.reserved who + Registry.depositOf s who) : Covered (w.putRegistry s) where
  reserved := by
    intro account
    have sum := covered.reserved account
    have change := exact (R.registryAccount.symm account)
    simp only [World.registryView, Equiv.apply_symm_apply] at change
    simp only [World.putRegistry, World.rewards, World.minerDeposit, World.descriptorDeposit] at sum ⊢
    change _ + Registry.depositOf w.registry _ = _ at change
    omega
  numbered := covered.numbered
  balanced := covered.balanced
  priced := priced

/-- No step loses an order. -/
private theorem fewOrders_before (w : World R) (input : Input R) (few : Mempool.FewOrders (input.next w).mempool) :
    Mempool.FewOrders w.mempool := by
  cases input with
  | mempool env origin call =>
    cases ran : Mempool.execute w.mempoolView env origin call with
    | error fault =>
      simp only [Input.next, ran, Mempool.committed, World.putMempool] at few
      exact few
    | ok after =>
      simp only [Input.next, ran, Mempool.committed, World.putMempool] at few
      exact (Mempool.execute_move ran).fewOrders_before few
  | mempoolBlock =>
    cases ran : Mempool.nextBlock w.mempoolView with
    | error fault =>
      simp only [Input.next, ran, Mempool.committed, World.putMempool] at few
      exact few
    | ok after =>
      simp only [Input.next, ran, Mempool.committed, World.putMempool] at few
      exact (Mempool.nextBlock_moves ran).fewOrders_before few
  | pow | powBlock | registry | registryBlock | outside => exact few

private theorem mempool_covered (covered : Covered w) {result : Fallible Mempool.DispatchError (Mempool.State R.mempool)}
    (success : ∀ after, result = .ok after → Mempool.Escrow after ∧
      ∀ who, after.balances.reserved who + Mempool.escrowOf w.mempoolView who =
        w.mempoolView.balances.reserved who + Mempool.escrowOf after who) :
    Covered (w.putMempool (Mempool.committed w.mempoolView result)) := by
  cases result with
  | error fault => exact covered.putMempool covered.escrow fun _ => rfl
  | ok after => exact covered.putMempool (success after rfl).1 (success after rfl).2

/-- Every step keeps the sum. -/
private theorem next_covered (w : World R) (input : Input R) (covered : Covered w)
    (few : Mempool.FewOrders (input.next w).mempool) : Covered (input.next w) := by
  cases input with
  | mempool env origin call =>
    apply mempool_covered covered
    intro after ran
    simp only [Input.next, ran, Mempool.committed, World.putMempool] at few
    refine ⟨(Mempool.execute_move ran).escrow few covered.escrow, ?_⟩
    exact Mempool.execute_reserve ran covered.escrow.numbered
  | mempoolBlock =>
    apply mempool_covered covered
    intro after ran
    simp only [Input.next, ran, Mempool.committed, World.putMempool] at few
    obtain ⟨balances, escrows⟩ := Mempool.nextBlock_reserve ran
    refine ⟨Mempool.Moves.escrow (Mempool.nextBlock_moves ran) few covered.escrow, ?_⟩
    intro who
    rw [balances, escrows]
  | pow env origin call =>
    cases ran : Pow.execute w.powView env origin call with
    | error fault =>
      simp only [Input.next, ran, Pow.committed]
      exact covered.putPow fun _ => rfl
    | ok after =>
      simp only [Input.next, ran, Pow.committed]
      exact covered.putPow ((Pow.execute_miners ran).reserve_exact covered.miners)
  | powBlock pay skipped parentHash =>
    obtain ⟨balances, deposits⟩ := Pow.onFinalize_deposits w.powView pay w.powView.blockNumber
    have begun := Pow.initialised_miners
      (Pow.committed w.powView (Pow.onFinalize w.powView pay w.powView.blockNumber))
      { skipped, parentHash, actions := [], pay }
    apply covered.putPow
    intro who
    have same := deposits who
    simp only [Pow.depositOf] at same ⊢
    rw [begun.1, begun.2, balances, same]
  | registry env origin call =>
    cases ran : Registry.execute w.registryView env origin call with
    | error fault =>
      simp only [Input.next, ran, Registry.committed]
      exact covered.putRegistry covered.priced fun _ => rfl
    | ok after =>
      simp only [Input.next, ran, Registry.committed]
      have move := Registry.execute_move ran
      exact covered.putRegistry (move.priced covered.priced) (move.reserve_exact covered.descriptors)
  | registryBlock => exact ⟨covered.reserved, covered.numbered, covered.balanced, covered.priced⟩
  | outside free others =>
    refine ⟨?_, covered.numbered, covered.balanced, covered.priced⟩
    intro account
    have sum := covered.reserved account
    simp only [Input.next, World.rewards, World.minerDeposit, World.descriptorDeposit] at sum ⊢
    omega

/-- A step leaves the parts of everybody else alone. -/
theorem part_frame (w : World R) (input : Input R) (account : R.AccountId) {owner : Owner} (other : owner ≠ input.owner) :
    (input.next w).part account owner = w.part account owner := by
  cases input <;> cases owner <;> first | rfl | exact absurd rfl other

end Steps

/-- Every unreserve of the three pallets finds what it asks for. -/
structure Releases (w : World R) : Prop where
  orders : ∀ orderId order, w.mempool.jobOrders.lookup orderId = some order → order.status ≠ .closed →
    (w.mempoolView.balances.unreserve order.proposer order.reward.val).1 = 0
  claims : ∀ env origin orderId, Mempool.claimReward w.mempoolView env origin orderId ≠
    .error (.error (.module .rewardReserveMissing))
  reclaims : ∀ origin orderId, Mempool.reclaimOrder w.mempoolView origin orderId ≠
    .error (.error (.module .rewardReserveMissing))
  /-- The proof-of-work pallet does not look at what is left, but nothing is. -/
  miners : ∀ who miner, w.pow.miners.lookup who = some miner →
    (w.powView.balances.unreserve who miner.deposit).reserved who + miner.deposit = w.powView.balances.reserved who
  /-- Clearing a descriptor, or replacing it by a cheaper one. -/
  descriptors : ∀ who descriptor amount, w.registry.nodeDescriptors.lookup who = some descriptor →
    amount ≤ descriptor.deposit → (w.registryView.balances.unreserve who amount).1 = 0
  asserts : ∀ env origin call message, Registry.execute w.registryView env origin call ≠ .error (.panic message)

private theorem Covered.releases {w : World R} (covered : Covered w) : Releases w where
  orders := by
    intro orderId order held unclosed
    exact Mempool.unreserve_finds covered.escrow held unclosed
  claims := Mempool.claimReward_reserve_found covered.escrow
  reclaims := Mempool.reclaimOrder_reserve_found covered.escrow
  miners := by
    intro who miner held
    have enough : Pow.depositOf w.pow who ≤ w.powView.balances.reserved who := covered.miners who
    simp only [Pow.depositOf, held, Option.map_some, Option.getD_some] at enough
    simp only [Pow.Balances.unreserve, Pow.Balances.set, if_true]
    omega
  descriptors := by
    intro who descriptor amount held part
    have enough : Registry.depositOf w.registry who ≤ w.registryView.balances.reserved who := covered.descriptors who
    simp only [Registry.depositOf, held, Option.map_some, Option.getD_some] at enough
    exact Registry.unreserve_whole (by omega)
  asserts := by
    intro env origin call message
    exact Registry.execute_asserts covered.descriptors call message

/-- None of the three pallets holds anything yet. -/
structure Fresh (w : World R) : Prop where
  orders : Mempool.NoOrders w.mempool
  miners : w.pow.miners = ∅
  descriptors : w.registry.nodeDescriptors = ∅
  reserved : ∀ account, w.ledger.reserved account = w.others account

private theorem Fresh.covered {w : World R} (fresh : Fresh w) : Covered w where
  reserved := by
    intro account
    have rewards : w.rewards account = 0 := by
      rw [World.rewards, Mempool.escrowOf, fresh.orders.jobOrders]
      rfl
    have miner : w.minerDeposit account = 0 := by
      rw [World.minerDeposit, Pow.depositOf, fresh.miners]
      rfl
    have descriptor : w.descriptorDeposit account = 0 := by
      rw [World.descriptorDeposit, Registry.depositOf, fresh.descriptors]
      rfl
    rw [fresh.reserved, rewards, miner, descriptor]
    rfl
  numbered := fresh.orders.numbered
  balanced := fresh.orders.escrow.balanced
  priced := by
    intro who descriptor held
    rw [fresh.descriptors] at held
    cases held

/-- The shared reserve. After every interleaving of calls and hooks of the three pallets,
from a state in which none of them holds a reserve, the reserve of an account is what other
code holds of it, the rewards of its orders that are not closed, its miner deposit and its
descriptor deposit; the latter is the price of the stored payload, in saturating arithmetic.
Every unreserve finds what it asks for, and a step changes the reserve by what it changes
of its own part and leaves the parts of all others alone. -/
theorem shared_reserve_exact {w₀ w : World R} (fresh : Fresh w₀) {inputs : List (Input R)}
    (ran : (machine R).run w₀ inputs = w) (few : Mempool.FewOrders w.mempool) :
    (∀ account, w.ledger.reserved account =
      w.others account + (w.rewards account + w.minerDeposit account + w.descriptorDeposit account)) ∧
    (∀ who descriptor, w.registry.nodeDescriptors.lookup who = some descriptor →
      descriptor.deposit = Registry.descriptorDeposit R.registry descriptor.payloadLen ∧
      (R.registry.descriptorDepositBase + R.registry.descriptorDepositPerByte * descriptor.payloadLen ≤ u128Max →
        descriptor.deposit =
          R.registry.descriptorDepositBase + R.registry.descriptorDepositPerByte * descriptor.payloadLen)) ∧
    Releases w ∧
    ∀ input : Input R, Mempool.FewOrders (input.next w).mempool → ∀ account,
      (input.next w).ledger.reserved account + w.part account input.owner =
        w.ledger.reserved account + (input.next w).part account input.owner ∧
      ∀ owner, owner ≠ input.owner → (input.next w).part account owner = w.part account owner := by
  subst ran
  have covered : Covered ((machine R).run w₀ inputs) :=
    @Machine.run_relation _ _ _ (machine R) (fun w => Mempool.FewOrders w.mempool) (fun _ w => Covered w) w₀
      fewOrders_before fresh.covered (fun w _ input kept few => next_covered w input kept few) inputs few
  refine ⟨covered.reserved, ?_, covered.releases, ?_⟩
  · intro who descriptor held
    have priced := covered.priced who descriptor held
    refine ⟨priced, ?_⟩
    intro fits
    rw [priced, Registry.descriptorDeposit, saturatingMul_of_le (by omega), saturatingAdd_of_le fits]
  · intro input still account
    have frame := fun owner other => @part_frame R ((machine R).run w₀ inputs) input account owner other
    refine ⟨?_, frame⟩
    have before := covered.reserved account
    have after := (next_covered _ input covered still).reserved account
    have mempool := frame .mempool
    have pow := frame .pow
    have registry := frame .registry
    have others := frame .others
    cases actor : input.owner <;> simp only [actor, ne_eq, reduceCtorEq, not_false_eq_true, forall_const, World.part]
      at mempool pow registry others ⊢ <;> omega

/-- A registry whose base deposit is the largest balance. -/
def dearPallet : Registry.PalletConfig := { Registry.tinyPallet with descriptorDepositBase := u128Max }

def dearRuntime : Runtime where
  AccountId := Nat
  mempool := Mempool.tinyConfig
  pow := Pow.tinyConfig
  registry := dearPallet
  mempoolAccount := Equiv.refl Nat
  powAccount := Equiv.refl Nat
  registryAccount := Equiv.refl Nat

def dearAccount : dearRuntime.registry.AccountId := (7 : Nat)

/-- Empty storages, and one account that can pay the deposit. -/
def dearWorld : World dearRuntime where
  mempool := Mempool.tinyGenesis
  pow := Pow.tinyGenesis
  registry :=
    { blockNumber := 1
      nodeDescriptors := ∅
      latestParticipation := ∅
      participantsByQBlock := ∅
      participantCountByQBlock := ∅
      events := []
      balances := { free := fun _ => 0, reserved := fun _ => 0 } }
  ledger := { free := fun account => if (show Nat from account) = 7 then u128Max else 0, reserved := fun _ => 0 }
  others := fun _ => 0

theorem dearWorld_fresh : Fresh dearWorld := ⟨Mempool.tinyGenesis_noOrders, rfl, rfl, fun _ => rfl⟩

def dearInputs : List (Input dearRuntime) :=
  [.registry { latestQBlockId := none, canReserve := fun _ _ => true, debugAssertions := true } (.signed dearAccount)
    (.setDescriptor Registry.tinyPayload)]

private theorem dear_stored :
    ((((machine dearRuntime).run dearWorld dearInputs).registry.nodeDescriptors.lookup dearAccount).map
      fun descriptor => (descriptor.deposit, descriptor.payloadLen)) = some (u128Max, 2) := by
  decide +kernel

/-- The price of a payload saturates. -/
theorem descriptor_deposit_saturates :
    ∃ descriptor, ((machine dearRuntime).run dearWorld dearInputs).registry.nodeDescriptors.lookup dearAccount =
        some descriptor ∧
      descriptor.deposit ≠ dearPallet.descriptorDepositBase + dearPallet.descriptorDepositPerByte * descriptor.payloadLen := by
  obtain ⟨descriptor, held, fields⟩ := Option.map_eq_some_iff.mp dear_stored
  obtain ⟨deposit, len⟩ := Prod.mk.inj fields
  refine ⟨descriptor, held, ?_⟩
  rw [deposit, len]
  decide

theorem shared_reserve_exact_dear :
    ((machine dearRuntime).run dearWorld dearInputs).ledger.reserved (7 : Nat) =
      ((machine dearRuntime).run dearWorld dearInputs).descriptorDeposit (7 : Nat) := by
  have few : Mempool.FewOrders ((machine dearRuntime).run dearWorld dearInputs).mempool := by
    show Mempool.tinyGenesis.jobOrders.size < 2 ^ 64
    decide +kernel
  obtain ⟨reserved, _, _, _⟩ := shared_reserve_exact dearWorld_fresh rfl few
  have sum := reserved (7 : Nat)
  have rewards : ((machine dearRuntime).run dearWorld dearInputs).rewards (7 : Nat) = 0 := by decide +kernel
  have miner : ((machine dearRuntime).run dearWorld dearInputs).minerDeposit (7 : Nat) = 0 := by decide +kernel
  have others : ((machine dearRuntime).run dearWorld dearInputs).others (7 : Nat) = 0 := rfl
  omega

end QuipValidator.SharedReserve
