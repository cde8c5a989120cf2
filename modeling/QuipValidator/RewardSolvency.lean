import QuipValidator.EmissionAccounting
import QuipValidator.PowMiners

/-! Mining rewards across the emission controller and the proof-of-work pallet. A won
block asks the Ising pot for the block reward and records what it got. Over any run a pot
holds what was issued to its subnet and what it received, less what it paid. -/
namespace QuipValidator.Rewards
open Fallible

/-- The bucket of the Ising subnet. -/
def ISING_SUBNET : Nat := 0

section Payments
open Emission
variable {E : Emission.Config}

/-- What one payment from a pot does, with the amount it returns. -/
structure Payment (refusal : Option DispatchError) (subnet : Nat) (who : E.AccountId) (requested : Nat)
    (s : Emission.State E) (amount : Nat) (s' : Emission.State E) : Prop where
  /-- All the pot can give above the existential deposit, or nothing. -/
  exact : amount = if E.pot subnet = who ∨ refusal ≠ none then 0
    else min requested (s.currency.free (E.pot subnet) - E.minimumBalance)
  source : s'.currency.free (E.pot subnet) + amount = s.currency.free (E.pot subnet)
  dest : E.pot subnet ≠ who → s'.currency.free who = s.currency.free who + amount
  others : ∀ account, account ≠ E.pot subnet → account ≠ who → s'.currency.free account = s.currency.free account
  issuance : s'.currency.totalIssuance = s.currency.totalIssuance
  alive : E.minimumBalance ≤ s.currency.free (E.pot subnet) → E.minimumBalance ≤ s'.currency.free (E.pot subnet)
  issued : s'.subnetIssued = s.subnetIssued
  routes : s'.routes = s.routes

private theorem unpaid {refusal : Option DispatchError} {subnet requested : Nat} {who : E.AccountId}
    {s : Emission.State E} (event : Emission.Event E)
    (nothing : 0 = if E.pot subnet = who ∨ refusal ≠ none then 0
      else min requested (s.currency.free (E.pot subnet) - E.minimumBalance)) :
    Payment refusal subnet who requested s 0 (s.deposit event) where
  exact := nothing
  source := rfl
  dest := fun _ => rfl
  others := fun _ _ _ => rfl
  issuance := rfl
  alive := id
  issued := rfl
  routes := rfl

/-- Every payment, also one that pays nothing. -/
theorem pay_payment (refusal : Option DispatchError) (subnet : Nat) (who : E.AccountId) (requested : Nat)
    (s : Emission.State E) :
    Payment refusal subnet who requested s (pay refusal subnet who requested s).1
      (pay refusal subnet who requested s).2 := by
  unfold pay
  dsimp only
  split
  · rename_i refused
    apply unpaid
    rcases refused with zero | own
    · split
      · rfl
      · exact zero.symm
    · rw [if_pos (.inl own)]
  · rename_i accepted
    obtain ⟨positive, other⟩ := not_or.mp accepted
    cases refusal with
    | some reason =>
      apply unpaid
      rw [if_pos (.inr (by simp))]
    | none =>
      have enough : min requested (s.currency.free (E.pot subnet) - E.minimumBalance) ≤
          s.currency.free (E.pot subnet) - E.minimumBalance := Nat.min_le_right _ _
      simp only [Currency.transfer, State.deposit]
      refine ⟨?_, ?_, ?_, ?_, rfl, ?_, rfl, rfl⟩
      · rw [if_neg (by simp [other])]
      · dsimp only
        rw [if_pos rfl]
        omega
      · intro _
        dsimp only
        rw [if_neg (Ne.symm other), if_pos rfl]
      · intro account notPot notWho
        dsimp only
        rw [if_neg notPot, if_neg notWho]
      · intro alive
        dsimp only
        rw [if_pos rfl]
        omega

/-- The derived accounts of two subnets differ: a digest of the subnet is decoded to an account. -/
def DistinctPots (E : Emission.Config) : Prop := ∀ a b, a ≤ u32Max → b ≤ u32Max → E.pot a = E.pot b → a = b

/-- A payment seen from any pot: it pays, receives, or neither. -/
theorem Payment.level {refusal : Option DispatchError} {subnet requested amount : Nat} {who : E.AccountId}
    {s s' : Emission.State E} (payment : Payment refusal subnet who requested s amount s') (distinct : DistinctPots E)
    (typed : subnet ≤ u32Max) {probe : Nat} (bounded : probe ≤ u32Max) :
    s'.currency.free (E.pot probe) + (if probe = subnet then amount else 0) =
      s.currency.free (E.pot probe) + if probe ≠ subnet ∧ E.pot probe = who then amount else 0 := by
  by_cases same : probe = subnet
  · subst same
    simpa using payment.source
  · have apart : E.pot probe ≠ E.pot subnet := fun shared => same (distinct probe subnet bounded typed shared)
    rw [if_neg same, Nat.add_zero]
    by_cases recipient : E.pot probe = who
    · rw [if_pos ⟨same, recipient⟩, recipient]
      exact payment.dest fun own => apart (recipient.trans own.symm)
    · rw [if_neg fun both => recipient both.2, Nat.add_zero]
      exact payment.others _ apart recipient

/-- What the fundings of an accrual add to a pot they add to its subnet's counter. -/
private theorem funded_level (distinct : DistinctPots E)
    (s : Emission.State E) {id : Nat} (typed : id ≤ u32Max) (amount subnet : Nat) (bounded : subnet ≤ u32Max) :
    (s.funded id amount).currency.free (E.pot subnet) + s.issued subnet =
      s.currency.free (E.pot subnet) + (s.funded id amount).issued subnet := by
  rw [issued_funded]
  simp only [State.funded, Currency.credited]
  by_cases same : subnet = id
  · subst same
    simp only [if_true]
    omega
  · have apart : E.pot subnet ≠ E.pot id := fun shared => same (distinct subnet id bounded typed shared)
    simp only [if_neg same, if_neg apart]
    omega

private theorem accrueRoutes_level (distinct : DistinctPots E)
    (credits : Nat → Bool) (total : Nat) (routes : List Route) (typed : ∀ route ∈ routes, route.1 ≤ u32Max)
    (s : Emission.State E) {subnet : Nat} (bounded : subnet ≤ u32Max) :
    (routes.foldl (accrueRoute credits total) s).currency.free (E.pot subnet) + s.issued subnet =
      s.currency.free (E.pot subnet) + (routes.foldl (accrueRoute credits total) s).issued subnet ∧
      (routes.foldl (accrueRoute credits total) s).routes = s.routes := by
  induction routes generalizing s with
  | nil => exact ⟨rfl, rfl⟩
  | cons route rest ih =>
    rw [List.foldl_cons]
    obtain ⟨later, kept⟩ := ih (fun other member => typed other (List.mem_cons_of_mem _ member))
      (accrueRoute credits total s route)
    have first : (accrueRoute credits total s route).currency.free (E.pot subnet) + s.issued subnet =
        s.currency.free (E.pot subnet) + (accrueRoute credits total s route).issued subnet ∧
        (accrueRoute credits total s route).routes = s.routes := by
      rcases accrueRoute_cases credits total s route.1 route.2 with ⟨_, same⟩ | ⟨_, _, same⟩ | ⟨_, _, _, same⟩
      · rw [same]
        exact ⟨rfl, rfl⟩
      · rw [same]
        exact ⟨funded_level distinct s (typed route List.mem_cons_self) _ subnet bounded, rfl⟩
      · rw [same]
        exact ⟨rfl, rfl⟩
    refine ⟨?_, kept.trans first.2⟩
    have level := first.1
    omega

theorem accrue_level (distinct : DistinctPots E) (now : Nat)
    (credits : Nat → Bool) (s : Emission.State E) (typed : ∀ route ∈ s.routes.val, route.1 ≤ u32Max) {subnet : Nat}
    (bounded : subnet ≤ u32Max) :
    (accrue now credits s).currency.free (E.pot subnet) + s.issued subnet =
      s.currency.free (E.pot subnet) + (accrue now credits s).issued subnet ∧
      (accrue now credits s).routes = s.routes := by
  unfold accrue
  split
  · exact ⟨rfl, rfl⟩
  · split
    · exact ⟨rfl, rfl⟩
    · split
      · exact ⟨rfl, rfl⟩
      · exact accrueRoutes_level distinct credits _ s.routes.val typed s bounded

end Payments

variable {E : Emission.Config} {T : Pow.Config}

/-- The two pallets. -/
structure World (E : Emission.Config) (T : Pow.Config) where
  emission : Emission.State E
  pow : Pow.State T

/-- One operation of the emission pallets or of other code on its currency, one action
inside a block, or the end of a block and the beginning of the next. -/
inductive Input (E : Emission.Config) (T : Pow.Config) where
  | emission (step : Emission.Step E)
  | pow (action : Pow.Action T)
  | turn (refusal : Option Emission.DispatchError) (skipped : Nat) (parentHash : T.Hash)

section Runtime
variable (account : T.AccountId → E.AccountId)

/-- `T::RewardPayment::pay` as the runtime wires it, with the state it leaves. -/
def payReward (s : Emission.State E) (refusal : Option Emission.DispatchError) (who : T.AccountId) (requested : Nat) :
    Nat × Emission.State E :=
  Emission.pay refusal ISING_SUBNET (account who) requested s

/-- The end of a block: `on_finalize` pays the miner of the best proof. -/
def finalize (w : World E T) (refusal : Option Emission.DispatchError) : World E T where
  emission :=
    match w.pow.blockBestProof with
    | none => w.emission
    | some record => (payReward account w.emission refusal record.miner (Pow.blockReward w.pow)).2
  pow := Pow.committed w.pow (Pow.onFinalize w.pow
    (fun who requested => (payReward account w.emission refusal who requested).1) w.pow.blockNumber)

/-- The first moment of the next block. -/
def beginBlock (w : World E T) (skipped : Nat) (parentHash : T.Hash) : World E T :=
  { w with pow := Pow.initialised w.pow { skipped, parentHash, actions := [], pay := fun _ _ => 0 } }

def Input.next (w : World E T) : Input E T → World E T
  | .emission step => { w with emission := step.next w.emission }
  | .pow action => { w with pow := (Pow.body T).next w.pow action }
  | .turn refusal skipped parentHash => beginBlock (finalize account w refusal) skipped parentHash

/-- What one step took from the pots by payments and what they received otherwise. -/
structure Flow where
  paid : Nat → Nat
  received : Nat → Nat

def Flow.none : Flow := { paid := fun _ => 0, received := fun _ => 0 }

/-- A payment; its recipient may be the pot of another subnet. -/
def Flow.payment (E : Emission.Config) (subnet : Nat) (who : E.AccountId) (amount : Nat) : Flow where
  paid := fun probe => if probe = subnet then amount else 0
  received := fun probe => if probe ≠ subnet ∧ E.pot probe = who then amount else 0

/-- What came into the pots from outside. -/
def Flow.arrivals (before after : Emission.State E) : Flow where
  paid := fun _ => 0
  received := fun probe => after.currency.free (E.pot probe) - before.currency.free (E.pot probe)

/-- The flow of an emission step; what an accrual funds is issued, not received. -/
def emissionFlow (s : Emission.State E) : Emission.Step E → Flow
  | .accrue _ _ => .none
  | .pay refusal subnet who requested => .payment E subnet who (Emission.pay refusal subnet who requested s).1
  | step => .arrivals s (step.next s)

def Input.flow (w : World E T) : Input E T → Flow
  | .emission step => emissionFlow w.emission step
  | .pow _ => .none
  | .turn refusal _ _ =>
    match w.pow.blockBestProof with
    | none => .none
    | some record =>
      .payment E ISING_SUBNET (account record.miner)
        (payReward account w.emission refusal record.miner (Pow.blockReward w.pow)).1

def machine : Machine (World E T) (Input E T) Flow where
  next w input := input.next account w
  report w input := [input.flow account w]

end Runtime

/-- The sum of all payments from a subnet's pot. -/
def paid (flows : List Flow) (subnet : Nat) : Nat := (flows.map fun flow => flow.paid subnet).sum

/-- The sum of what a subnet's pot received from outside. -/
def received (flows : List Flow) (subnet : Nat) : Nat := (flows.map fun flow => flow.received subnet).sum

/-- Subnets are `u32`, and nothing but a payment takes from a pot. -/
def Sound (w : World E T) : Input E T → Prop
  | .emission (.pay _ subnet _ _) => subnet ≤ u32Max
  | .emission (.external currency) =>
    ∀ subnet ≤ u32Max, w.emission.currency.free (E.pot subnet) ≤ currency.free (E.pot subnet)
  | _ => True

@[simp] theorem paid_concat (flows : List Flow) (flow : Flow) (subnet : Nat) :
    paid (flows ++ [flow]) subnet = paid flows subnet + flow.paid subnet := by
  simp [paid]

@[simp] theorem received_concat (flows : List Flow) (flow : Flow) (subnet : Nat) :
    received (flows ++ [flow]) subnet = received flows subnet + flow.received subnet := by
  simp [received]

/-- The invariant: what a pot holds, and what the miners have earned of the Ising pot. -/
structure Solvent (s₀ : Emission.State E) (flows : List Flow) (w : World E T) : Prop where
  routes : w.emission.routes = s₀.routes
  balance : ∀ subnet ≤ u32Max, w.emission.currency.free (E.pot subnet) + paid flows subnet =
    w.emission.issued subnet + (s₀.currency.free (E.pot subnet) + received flows subnet)
  earned : ∀ who miner, w.pow.miners.lookup who = some miner → miner.rewardsEarned ≤ paid flows ISING_SUBNET

section Steps
variable {s₀ s s' : Emission.State E} {flows : List Flow} {w : World E T}

-- A step of the emission side, given what it does to each pot and its counter.
private theorem Solvent.emission (solvent : Solvent s₀ flows w) {flow : Flow} (routes : s'.routes = w.emission.routes)
    (level : ∀ subnet ≤ u32Max, s'.currency.free (E.pot subnet) + flow.paid subnet + w.emission.issued subnet =
      w.emission.currency.free (E.pot subnet) + flow.received subnet + s'.issued subnet) :
    Solvent s₀ (flows ++ [flow]) { w with emission := s' } where
  routes := routes.trans solvent.routes
  balance := by
    intro subnet bounded
    have before := solvent.balance subnet bounded
    have moved := level subnet bounded
    simp only [paid_concat, received_concat]
    omega
  earned := by
    intro who miner held
    have before := solvent.earned who miner held
    simp only [paid_concat]
    omega

private theorem arrivals_level (grows : ∀ subnet ≤ u32Max,
      s.currency.free (E.pot subnet) ≤ s'.currency.free (E.pot subnet)) (issued : s'.subnetIssued = s.subnetIssued)
    (subnet : Nat) (bounded : subnet ≤ u32Max) :
    s'.currency.free (E.pot subnet) + (Flow.arrivals s s').paid subnet + s.issued subnet =
      s.currency.free (E.pot subnet) + (Flow.arrivals s s').received subnet + s'.issued subnet := by
  have more := grows subnet bounded
  have same : s'.issued subnet = s.issued subnet := by
    rw [Emission.State.issued, issued, Emission.State.issued]
  simp only [Flow.arrivals]
  omega

private theorem payment_level {refusal : Option Emission.DispatchError} {subnet requested amount : Nat}
    {who : E.AccountId} (payment : Payment refusal subnet who requested s amount s') (distinct : DistinctPots E)
    (typed : subnet ≤ u32Max) (probe : Nat) (bounded : probe ≤ u32Max) :
    s'.currency.free (E.pot probe) + (Flow.payment E subnet who amount).paid probe + s.issued probe =
      s.currency.free (E.pot probe) + (Flow.payment E subnet who amount).received probe + s'.issued probe := by
  have level := payment.level distinct typed bounded
  have same : s'.issued probe = s.issued probe := by
    rw [Emission.State.issued, payment.issued, Emission.State.issued]
  simp only [Flow.payment]
  omega

private theorem setAuthority_frame (origin : E.RuntimeOrigin) (authority : Option E.AccountId)
    (s : Emission.State E) :
    (Emission.setAuthority origin authority s).2.currency = s.currency ∧
      (Emission.setAuthority origin authority s).2.subnetIssued = s.subnetIssued ∧
      (Emission.setAuthority origin authority s).2.routes = s.routes := by
  by_cases allowed : E.authorityOrigin origin = true
  · simp only [Emission.setAuthority, transactional, allowed]
    exact ⟨rfl, rfl, rfl⟩
  · simp only [Emission.setAuthority, transactional, allowed]
    exact ⟨rfl, rfl, rfl⟩

private theorem disable_frame (origin : E.RuntimeOrigin) (s : Emission.State E) :
    (Emission.disable origin s).2.currency = s.currency ∧
      (Emission.disable origin s).2.subnetIssued = s.subnetIssued ∧
      (Emission.disable origin s).2.routes = s.routes := by
  by_cases allowed : E.mintOrigin s.authority origin = true
  · by_cases running : s.faucetState = .enabled
    · simp only [Emission.disable, transactional, allowed, running]
      exact ⟨rfl, rfl, rfl⟩
    · have refused : Emission.disable origin s = (.error (.faucet .disabled), s) := by
        simp [Emission.disable, transactional, allowed, running]
      rw [refused]
      exact ⟨rfl, rfl, rfl⟩
  · simp only [Emission.disable, transactional, allowed]
    exact ⟨rfl, rfl, rfl⟩

/-- One step of the emission side. -/
private theorem emission_step (distinct : DistinctPots E) (typed : ∀ route ∈ s₀.routes.val, route.1 ≤ u32Max)
    (solvent : Solvent s₀ flows w) (step : Emission.Step E) (sound : Sound w (.emission step)) :
    Solvent s₀ (flows ++ [emissionFlow w.emission step]) { w with emission := step.next w.emission } := by
  cases step with
  | accrue now credits =>
    have routes : ∀ route ∈ w.emission.routes.val, route.1 ≤ u32Max := by
      rw [solvent.routes]
      exact typed
    refine solvent.emission ?_ ?_
    · exact (accrue_level distinct now credits w.emission routes (Nat.zero_le _)).2
    · intro subnet bounded
      have level := (accrue_level distinct now credits w.emission routes bounded).1
      simp only [emissionFlow, Flow.none, Emission.Step.next]
      omega
  | pay refusal subnet who requested =>
    have payment := pay_payment refusal subnet who requested w.emission
    exact solvent.emission payment.routes (payment_level payment distinct sound)
  | mint credits origin who amount =>
    rcases Emission.mint_cases credits origin who amount w.emission with ⟨reason, failed⟩ | ⟨_, _, minted⟩
    · simp only [emissionFlow, Emission.Step.next, failed]
      exact solvent.emission rfl (arrivals_level (fun _ _ => le_rfl) rfl)
    · simp only [emissionFlow, Emission.Step.next, minted]
      refine solvent.emission rfl (arrivals_level ?_ rfl)
      intro subnet _
      exact Nat.le_add_right _ _
  | setAuthority origin authority =>
    obtain ⟨currency, issued, routes⟩ := setAuthority_frame origin authority w.emission
    refine solvent.emission routes (arrivals_level ?_ issued)
    intro subnet _
    exact le_of_eq (congrArg (fun currency => currency.free (E.pot subnet)) currency).symm
  | disable origin =>
    obtain ⟨currency, issued, routes⟩ := disable_frame origin w.emission
    refine solvent.emission routes (arrivals_level ?_ issued)
    intro subnet _
    exact le_of_eq (congrArg (fun currency => currency.free (E.pot subnet)) currency).symm
  | external currency =>
    exact solvent.emission rfl (arrivals_level sound rfl)

private theorem pow_step (solvent : Solvent s₀ flows w) (action : Pow.Action T) :
    Solvent s₀ (flows ++ [Flow.none]) { w with pow := (Pow.body T).next w.pow action } := by
  refine ⟨solvent.routes, ?_, ?_⟩
  · intro subnet bounded
    have before := solvent.balance subnet bounded
    simpa [Flow.none] using before
  · intro who miner held
    simp only [paid_concat, Flow.none, Nat.add_zero]
    cases action with
    | external balances => exact solvent.earned who miner held
    | dispatch env origin call =>
      rcases Pow.body_dispatch w.pow env origin call with ⟨same, _⟩ | ⟨after, ran, same, _⟩
      · rw [same] at held
        exact solvent.earned who miner held
      · rw [same] at held
        cases Pow.execute_miners ran with
        | registers account absent affordable miners balances =>
          rw [miners, StorageMap.lookup_insert_ite] at held
          split at held
          · cases held
            exact Nat.zero_le _
          · exact solvent.earned who miner held
        | deregisters account old known miners balances =>
          rw [miners, StorageMap.lookup_erase_ite] at held
          split at held
          · cases held
          · exact solvent.earned who miner held
        | updates account old updated known deposit rewards miners balances =>
          rw [miners, StorageMap.lookup_insert_ite] at held
          split at held
          · rename_i same
            cases held
            rw [rewards]
            exact solvent.earned account old known
          · exact solvent.earned who miner held
        | keeps miners balances =>
          rw [miners] at held
          exact solvent.earned who miner held

end Steps

section Rounds
variable (account : T.AccountId → E.AccountId) {s₀ : Emission.State E} {flows : List Flow} {w : World E T}

/-- What the end of a block with a best proof does with the amount the payment returned. -/
structure Rewarded (w : World E T) (refusal : Option Emission.DispatchError) (record : Pow.ProofRecord T)
    (amount : Nat) (after : World E T) : Prop where
  payment : Payment refusal ISING_SUBNET (account record.miner) (Pow.blockReward w.pow) w.emission amount after.emission
  qblock : ∃ qblock, after.pow.qblocks.lookup w.pow.blockNumber = some qblock ∧ qblock.miner = record.miner ∧
    qblock.reward = amount
  /-- The record of a winner who is still registered. -/
  winner : ∀ miner, w.pow.miners.lookup record.miner = some miner →
    after.pow.miners.lookup record.miner = some (miner.credited amount)
  gone : w.pow.miners.lookup record.miner = none → after.pow.miners = w.pow.miners
  others : ∀ who, who ≠ record.miner → after.pow.miners.lookup who = w.pow.miners.lookup who

theorem finalize_idle {refusal : Option Emission.DispatchError} (idle : w.pow.blockBestProof = none) :
    finalize account w refusal = w := by
  simp only [finalize, idle, Pow.onFinalize]
  rfl

theorem finalize_rewarded (refusal : Option Emission.DispatchError) {record : Pow.ProofRecord T}
    (front : w.pow.blockBestProof = some record) :
    Rewarded account w refusal record
      (payReward account w.emission refusal record.miner (Pow.blockReward w.pow)).1 (finalize account w refusal) := by
  obtain ⟨next, logs, events, ran⟩ := Pow.onFinalize_pays w.pow
    (fun who requested => (payReward account w.emission refusal who requested).1) w.pow.blockNumber front
  have emission : (finalize account w refusal).emission =
      (payReward account w.emission refusal record.miner (Pow.blockReward w.pow)).2 := by
    simp only [finalize, front]
  have pow : (finalize account w refusal).pow = Pow.settledAs w.pow w.pow.blockNumber record
      (payReward account w.emission refusal record.miner (Pow.blockReward w.pow)).1 next
      (Pow.creditWinner w.pow record.miner
        (payReward account w.emission refusal record.miner (Pow.blockReward w.pow)).1).miners logs events := by
    simp only [finalize, ran, Pow.committed]
  have credited := Pow.creditWinner_miners w.pow record.miner
    (payReward account w.emission refusal record.miner (Pow.blockReward w.pow)).1
  refine ⟨?_, ?_, ?_, ?_, ?_⟩
  · rw [emission]
    exact pay_payment refusal ISING_SUBNET (account record.miner) (Pow.blockReward w.pow) w.emission
  · rw [pow]
    exact ⟨_, AList.lookup_insert _, rfl, rfl⟩
  · intro miner held
    rw [pow]
    rcases credited with ⟨known, found, miners⟩ | ⟨absent, _⟩
    · cases found.symm.trans held
      simp only [Pow.settledAs, miners, StorageMap.lookup_insert_ite, if_true]
    · cases absent.symm.trans held
  · intro absent
    rw [pow]
    rcases credited with ⟨known, found, _⟩ | ⟨_, miners⟩
    · cases absent.symm.trans found
    · exact miners
  · intro who other
    rw [pow]
    rcases credited with ⟨known, _, miners⟩ | ⟨_, miners⟩
    · simp only [Pow.settledAs, miners, StorageMap.lookup_insert_ite, if_neg other]
    · simp only [Pow.settledAs, miners]

private theorem turn_step (distinct : DistinctPots E) (solvent : Solvent s₀ flows w)
    (refusal : Option Emission.DispatchError) (skipped : Nat) (parentHash : T.Hash) :
    Solvent s₀ (flows ++ [Input.flow account w (.turn refusal skipped parentHash)])
      (beginBlock (finalize account w refusal) skipped parentHash) := by
  have begun := fun pow : Pow.State T =>
    (Pow.initialised_miners pow { skipped, parentHash, actions := [], pay := fun _ _ => 0 }).1
  cases front : w.pow.blockBestProof with
  | none =>
    rw [finalize_idle account front]
    simp only [Input.flow, front]
    refine ⟨solvent.routes, ?_, ?_⟩
    · intro subnet bounded
      have before := solvent.balance subnet bounded
      simpa [Flow.none, beginBlock] using before
    · intro who miner held
      simp only [beginBlock, begun] at held
      simpa [Flow.none] using solvent.earned who miner held
  | some record =>
    have rewarded := finalize_rewarded account refusal front
    simp only [Input.flow, front]
    generalize (payReward account w.emission refusal record.miner (Pow.blockReward w.pow)).1 = amount at rewarded ⊢
    have paid := solvent.emission rewarded.payment.routes
      (payment_level rewarded.payment distinct (Nat.zero_le _))
    refine ⟨paid.routes, paid.balance, ?_⟩
    intro who miner held
    simp only [beginBlock, begun] at held
    simp only [paid_concat, Flow.payment, if_true]
    by_cases winner : who = record.miner
    · subst winner
      cases known : w.pow.miners.lookup record.miner with
      | none =>
        rw [rewarded.gone known, known] at held
        cases held
      | some old =>
        rw [rewarded.winner old known] at held
        cases held
        have before := solvent.earned record.miner old known
        have capped : (old.credited amount).rewardsEarned ≤ old.rewardsEarned + amount := Nat.min_le_left _ _
        omega
    · rw [rewarded.others who winner] at held
      have before := solvent.earned who miner held
      omega

private theorem solvent_step (distinct : DistinctPots E) (typed : ∀ route ∈ s₀.routes.val, route.1 ≤ u32Max)
    (w : World E T) (flows : List Flow) (input : Input E T) (solvent : Solvent s₀ flows w) (sound : Sound w input) :
    Solvent s₀ (flows ++ (machine account).report w input) ((machine account).next w input) := by
  cases input with
  | emission step => exact emission_step distinct typed solvent step sound
  | pow action => exact pow_step solvent action
  | turn refusal skipped parentHash => exact turn_step account distinct solvent refusal skipped parentHash

/-- Nothing has been issued and no miner has earned anything. -/
structure Fresh (w : World E T) : Prop where
  issued : w.emission.subnetIssued = ∅
  earned : ∀ who miner, w.pow.miners.lookup who = some miner → miner.rewardsEarned = 0

private theorem Fresh.solvent {w : World E T} (fresh : Fresh w) : Solvent w.emission [] w where
  routes := rfl
  balance := by
    intro subnet _
    have zero : w.emission.issued subnet = 0 := by
      rw [Emission.State.issued, fresh.issued]
      rfl
    rw [zero]
    simp [paid, received]
  earned := by
    intro who miner held
    exact le_of_eq_of_le (fresh.earned who miner held) (Nat.zero_le _)

/-- All that ever came into a subnet's pot: issued to it, held at the start, or received. -/
def inflow (s₀ : Emission.State E) (flows : List Flow) (s : Emission.State E) (subnet : Nat) : Nat :=
  s.issued subnet + (s₀.currency.free (E.pot subnet) + received flows subnet)

/-- Solvency of the mining rewards, after every run of accruals, payments and blocks in
which nothing but a payment takes from a pot. A pot holds what came into it less what it
paid, so it never paid more than that; a payment keeps the issuance and the existential
deposit, moves what it returns and pays all it can or nothing; and what the payment of a
won block returned is in the qblock and, up to the largest value of the counter, added to
the earnings of a winner who is still registered. As long as the inflow of the pot fits
its type the counter does not saturate. -/
theorem mining_rewards_solvent (distinct : DistinctPots E) {w₀ w : World E T} (fresh : Fresh w₀)
    (typed : ∀ route ∈ w₀.emission.routes.val, route.1 ≤ u32Max) {inputs : List (Input E T)}
    (sound : (machine account).Allows Sound w₀ inputs) {flows : List Flow}
    (ran : (machine account).run w₀ inputs = w) (traced : (machine account).trace w₀ inputs = flows) :
    (∀ subnet ≤ u32Max, w.emission.currency.free (E.pot subnet) =
        inflow w₀.emission flows w.emission subnet - paid flows subnet ∧
      paid flows subnet ≤ inflow w₀.emission flows w.emission subnet) ∧
    (∀ refusal subnet who requested, Payment refusal subnet who requested w.emission
      (Emission.pay refusal subnet who requested w.emission).1
      (Emission.pay refusal subnet who requested w.emission).2) ∧
    ∀ refusal record amount, w.pow.blockBestProof = some record →
      (payReward account w.emission refusal record.miner (Pow.blockReward w.pow)).1 = amount →
      Rewarded account w refusal record amount (finalize account w refusal) ∧
      ∀ miner, w.pow.miners.lookup record.miner = some miner →
        (miner.rewardsEarned + amount ≤ u128Max →
          (miner.credited amount).rewardsEarned = miner.rewardsEarned + amount) ∧
        (inflow w₀.emission flows w.emission ISING_SUBNET ≤ u128Max → miner.rewardsEarned + amount ≤ u128Max) := by
  subst ran traced
  have solvent := (machine account).run_allowed (Solvent w₀.emission) fresh.solvent
    (solvent_step account distinct typed) inputs sound
  refine ⟨?_, fun refusal subnet who requested => pay_payment refusal subnet who requested _, ?_⟩
  · intro subnet bounded
    have balance := solvent.balance subnet bounded
    unfold inflow
    omega
  · rintro refusal record amount front rfl
    have rewarded := finalize_rewarded account refusal front
    refine ⟨rewarded, ?_⟩
    intro miner held
    refine ⟨fun fits => saturatingAdd_of_le fits, ?_⟩
    intro fits
    have balance := solvent.balance ISING_SUBNET (Nat.zero_le _)
    have earned := solvent.earned record.miner miner held
    have source := rewarded.payment.source
    unfold inflow at fits
    omega

end Rounds

/-- A small runtime whose block reward is the largest balance. -/
def lavishConfig : Pow.Config := { Pow.tinyConfig with blockReward := u128Max, maxBlockReward := u128Max }

def lavishMiner : lavishConfig.AccountId := (1 : Nat)

def lavishAccount : lavishConfig.AccountId → Emission.tinyConfig.AccountId := fun who => (show Nat from who)

/-- Block 0: nothing issued, no miners, and a balance to reserve from for every account. -/
def lavishStart : World Emission.tinyConfig lavishConfig where
  emission := Emission.tinyStart
  pow :=
    { blockNumber := 0
      parentHash := (0 : Nat)
      blockRewardOverride := none
      targetProofBlocksOverride := none
      registeredTopologies := ∅
      defaultTopology := none
      difficulties := ∅
      topologyCurveC := ∅
      mineableTopologies := ∅
      miners := ∅
      blockBestProof := none
      lastProofBlock := 0
      lastProofBlockHash := Pow.tinyDigest []
      blockProofCount := 0
      qblocks := ∅
      qblockCount := 0
      qblockBlockById := ∅
      qblockIdByBlock := ∅
      events := []
      logs := []
      balances := { free := fun _ => 100, reserved := fun _ => 0 } }

theorem lavishStart_fresh : Fresh lavishStart where
  issued := rfl
  earned := by
    intro who miner held
    cases held

/-- Two coupled nodes without fields and with binary spins. -/
def lavishRegistration : Pow.Registration lavishConfig where
  nodes := ⟨[0, 1], by decide⟩
  edges := ⟨[(0, 1)], by decide⟩
  allowedHValues := .set ⟨[0], by decide⟩
  allowedJValues := .set ⟨[1000], by decide⟩
  allowedSpinValues := .set ⟨[-1000, 1000], by decide⟩

def lavishTopology : Pow.H256 :=
  Pow.hashTopology lavishConfig [0, 1] [(0, 1)] (.set [0]) (.set [1000]) (.set [-1000, 1000])

/-- One antiparallel configuration, in a round seeded with the hash `seed`. -/
def lavishProof (seed : Nat) : Pow.QuantumProof lavishConfig where
  topologyHash := lavishTopology
  nonce := Pow.deriveNonce lavishConfig (Pow.hashToBytes32 (T := lavishConfig) seed)
    (Pow.accountToBytes (T := lavishConfig) lavishMiner) (Pow.tinyDigest [])
  salt := Pow.tinyDigest []
  solutions := ⟨[⟨[1], by decide⟩], by decide⟩
  deviceAccessTimeUs := 7

def lavishDispatch (origin : Pow.Origin lavishConfig.AccountId) (call : Pow.Call lavishConfig) :
    Input Emission.tinyConfig lavishConfig :=
  .pow (.dispatch { canReserve := fun _ _ => true } origin call)

/-- The threshold is set and a proof submitted. -/
def lavishRound (seed : Nat) : List (Input Emission.tinyConfig lavishConfig) :=
  [lavishDispatch .root (.setDifficulty lavishTopology (Pow.tinyDifficulty 0)),
   lavishDispatch (.signed lavishMiner) (.submitProof (lavishProof seed))]

/-- The whole issuance, as large as it can be, in the Ising pot. -/
def lavishCurrency : Emission.Currency Emission.tinyConfig where
  free := fun account => if account = Emission.tinyConfig.pot ISING_SUBNET then u128Max else 0
  totalIssuance := u128Max

/-- The first round, up to a transfer of all there is into the pot. -/
def lavishOpening : List (Input Emission.tinyConfig lavishConfig) :=
  [.turn none 0 (3 : Nat), lavishDispatch .root (.registerTopology lavishRegistration),
    lavishDispatch (.signed lavishMiner) .registerMiner] ++ lavishRound 3 ++ [.emission (.external lavishCurrency)]

/-- The block is paid for; in the next one the winner sends everything back and wins again. -/
def lavishInputs : List (Input Emission.tinyConfig lavishConfig) :=
  lavishOpening ++ [.turn none 0 (4 : Nat)] ++ lavishRound 4 ++ [.emission (.external lavishCurrency)]

def lavishEnd : World Emission.tinyConfig lavishConfig := (machine lavishAccount).run lavishStart lavishInputs

private theorem lavish_distinct : DistinctPots Emission.tinyConfig := by
  intro a b _ _ shared
  exact Nat.add_left_cancel (show 100 + a = 100 + b from shared)

-- The payment goes to the miner, which is no pot, so no pot holds more after it.
private theorem lavish_returned (subnet : Nat) (bounded : subnet ≤ u32Max) :
    (finalize lavishAccount ((machine lavishAccount).run lavishStart lavishOpening) none).emission.currency.free
      (Emission.tinyConfig.pot subnet) ≤ lavishCurrency.free (Emission.tinyConfig.pot subnet) := by
  have winner : (((machine lavishAccount).run lavishStart lavishOpening).pow.blockBestProof.map
      fun record => record.miner) = some lavishMiner := by decide +kernel
  obtain ⟨record, front, miner⟩ := Option.map_eq_some_iff.mp winner
  have level := (finalize_rewarded lavishAccount none front).payment.level lavish_distinct (Nat.zero_le _) bounded
  have apart : Emission.tinyConfig.pot subnet ≠ lavishAccount record.miner := by
    rw [miner]
    exact fun same => absurd (show 100 + subnet = 1 from same) (by omega)
  have unreceived : ¬ (subnet ≠ ISING_SUBNET ∧ Emission.tinyConfig.pot subnet = lavishAccount record.miner) :=
    fun both => apart both.2
  rw [if_neg unreceived, Nat.add_zero] at level
  exact Nat.le_trans (Nat.le_add_right _ _) (le_of_eq level)

theorem lavishInputs_sound : (machine lavishAccount).Allows Sound lavishStart lavishInputs := by
  have round : ∀ {w : World Emission.tinyConfig lavishConfig} {seed : Nat} {rest},
      (machine lavishAccount).Allows Sound ((machine lavishAccount).run w (lavishRound seed)) rest →
      (machine lavishAccount).Allows Sound w (lavishRound seed ++ rest) := by
    intro w seed rest later
    exact (machine lavishAccount).allows_cons trivial ((machine lavishAccount).allows_cons trivial later)
  have last : (machine lavishAccount).Allows Sound
      ((machine lavishAccount).run ((machine lavishAccount).run lavishStart lavishOpening) [.turn none 0 (4 : Nat)])
      (lavishRound 4 ++ [.emission (.external lavishCurrency)]) := by
    apply round
    exact (machine lavishAccount).allows_cons lavish_returned ((machine lavishAccount).allows_nil _ _)
  refine (machine lavishAccount).allows_cons trivial ((machine lavishAccount).allows_cons trivial
    ((machine lavishAccount).allows_cons trivial (round ?_)))
  refine (machine lavishAccount).allows_cons ?_ ((machine lavishAccount).allows_cons trivial last)
  intro subnet _
  exact Nat.zero_le _

private theorem lavishEnd_winner :
    (lavishEnd.pow.blockBestProof.map fun record => record.miner) = some lavishMiner ∧
      ((lavishEnd.pow.miners.lookup lavishMiner).map fun miner => miner.rewardsEarned) = some (u128Max - 1) ∧
      (payReward lavishAccount lavishEnd.emission none lavishMiner (Pow.blockReward lavishEnd.pow)).1 = u128Max - 1 := by
  decide +kernel

/-- The earnings counter stops at the largest `u128`: at the second of two payments of
nearly all there is, it grows by one. -/
theorem rewards_earned_saturates :
    Fresh lavishStart ∧ (machine lavishAccount).Allows Sound lavishStart lavishInputs ∧
      ∃ record miner after, lavishEnd.pow.blockBestProof = some record ∧
        lavishEnd.pow.miners.lookup record.miner = some miner ∧
        (finalize lavishAccount lavishEnd none).pow.miners.lookup record.miner = some after ∧
        after.rewardsEarned ≠ miner.rewardsEarned +
          (payReward lavishAccount lavishEnd.emission none record.miner (Pow.blockReward lavishEnd.pow)).1 := by
  obtain ⟨winner, earned, amount⟩ := lavishEnd_winner
  obtain ⟨record, front, same⟩ := Option.map_eq_some_iff.mp winner
  obtain ⟨miner, held, before⟩ := Option.map_eq_some_iff.mp earned
  have rewarded := finalize_rewarded lavishAccount none front
  rw [← same] at held amount
  refine ⟨lavishStart_fresh, lavishInputs_sound, record, miner, _, front, held, rewarded.winner miner held, ?_⟩
  rw [amount, before]
  have capped : (miner.credited (u128Max - 1)).rewardsEarned ≤ u128Max := Nat.min_le_right _ _
  have large : u128Max < u128Max - 1 + (u128Max - 1) := by decide
  omega

theorem mining_rewards_solvent_lavish :
    lavishEnd.emission.currency.free (Emission.tinyConfig.pot ISING_SUBNET) =
      inflow lavishStart.emission ((machine lavishAccount).trace lavishStart lavishInputs) lavishEnd.emission ISING_SUBNET -
        paid ((machine lavishAccount).trace lavishStart lavishInputs) ISING_SUBNET := by
  have typed : ∀ route ∈ lavishStart.emission.routes.val, route.1 ≤ u32Max := by decide
  obtain ⟨balance, _, _⟩ := mining_rewards_solvent lavishAccount lavish_distinct lavishStart_fresh typed
    lavishInputs_sound rfl rfl
  exact (balance ISING_SUBNET (Nat.zero_le _)).1

end QuipValidator.Rewards
