import QuipValidator.EmissionUpgrade
import QuipValidator.GenesisReadiness

/-! The supply after a launch. Every preset ends in the same emission config, so from
whatever genesis it yields both pallets build, the schedule is anchored at its first
clock value, and what it has issued is bounded by the time since then; the faucet stays
within its budget. The mainnet faucet never opens, so there only the schedule creates
units. -/
namespace QuipValidator.Presets
open Fallible Unsigned Allocation
open Emission (State Step YEAR_SECONDS steps clocks accrue)

variable {T : Config} {s : State T.toConfig} {budget : Nat} {first : Option Nat}

/-- The schedule is on and anchored at the first clock value so far; the faucet's
budget is that of the genesis. -/
structure Launched (budget : Nat) (s : State T.toConfig) (first : Option Nat) : Prop where
  distinct : s.ids.Nodup
  enabled : s.enabled = true
  anchor : s.startAt = first
  faucetBudget : s.faucetBudget = budget

namespace Launched

/-- The first accrual anchors the schedule; no later one moves it. -/
private theorem accrue (launched : Launched budget s first) {now : Nat} (real : now ≠ 0) (credits : Nat → Bool) :
    Launched budget (accrue now credits s) (first.or (some now)) := by
  cases anchor : first with
  | none =>
    have same : Emission.accrue now credits s = { s with startAt := some now } := by
      simp [Emission.accrue, launched.enabled, real, launched.anchor, anchor]
    rw [same]
    exact { launched with anchor := rfl }
  | some start =>
    have advanced := (Emission.accrue_anchored (launched.anchor.trans anchor) launched.distinct now credits).1
    exact {
      distinct := advanced.ids ▸ launched.distinct
      enabled := by rw [advanced.frame]; exact launched.enabled
      anchor := by rw [advanced.frame]; exact launched.anchor.trans anchor
      faucetBudget := by rw [advanced.frame]; exact launched.faucetBudget }

theorem step (launched : Launched budget s first) (step : Step T.toConfig) (real : step.clock ≠ some 0) :
    Launched budget (step.next s) (first.or step.clock) := by
  have enabled := Emission.next_enabled launched.distinct step
  have quiet : step.clock = none → Emission.Uncounted s (step.next s) →
      Launched budget (step.next s) (first.or step.clock) := by
    intro still kept
    rw [still, Option.or_none]
    exact {
      distinct := by rw [State.ids, kept.routes]; exact launched.distinct
      enabled := enabled.trans launched.enabled
      anchor := kept.startAt.trans launched.anchor
      faucetBudget := kept.faucetBudget.trans launched.faucetBudget }
  cases step with
  | accrue now credits => exact launched.accrue (fun zero => real (congrArg some zero)) credits
  | mint credits origin who amount =>
    rcases Emission.mint_cases credits origin who amount s with ⟨reason, failed⟩ | ⟨_, _, minted⟩
    · simpa [Step.next, failed, Step.clock] using launched
    · have grown : Launched budget ((s.minted who amount).deposit (.minted who amount)) first := { launched with }
      simpa [Step.next, minted, Step.clock] using grown
  | setAuthority origin authority => exact quiet rfl (Emission.setAuthority_uncounted origin authority s)
  | disable origin => exact quiet rfl (Emission.disable_uncounted origin s)
  | pay refusal subnet who requested => exact quiet rfl (Emission.pay_uncounted refusal subnet who requested s)
  | external currency =>
    have same : Launched budget { s with currency } first := { launched with }
    simpa [Step.next, Step.clock] using same

/-- Nothing a run does moves the anchor or the budget. -/
theorem run (launched : Launched budget s first) (inputs : List (Step T.toConfig)) (real : 0 ∉ clocks inputs) :
    Launched budget ((steps T.toConfig).run s inputs) (first.or (clocks inputs).head?) := by
  induction inputs generalizing s first with
  | nil =>
    rw [show first.or (clocks ([] : List (Step T.toConfig))).head? = first from Option.or_none]
    exact launched
  | cons step rest ih =>
    have now : step.clock ≠ some 0 := fun zero => real (List.mem_filterMap.mpr ⟨step, List.mem_cons_self, zero⟩)
    have later : 0 ∉ clocks rest := fun member => real (List.mem_filterMap.mpr (by
      obtain ⟨step, listed, zero⟩ := List.mem_filterMap.mp member
      exact ⟨step, List.mem_cons_of_mem _ listed, zero⟩))
    have both := ih (launched.step step now) later
    have heads : (first.or step.clock).or (clocks rest).head? = first.or (clocks (step :: rest)).head? := by
      rw [Option.or_assoc]
      cases clock : step.clock <;> simp [clocks, clock]
    rwa [heads] at both

end Launched

/-- The storage of both emission pallets at the genesis of any preset. -/
def startState (funding : GenesisFunding T) (currency : Emission.Currency T.toConfig) (subnets : 2 ≤ T.maxSubnets) :
    State T.toConfig where
  enabled := true
  startAt := none
  routes := ⟨[(ISING_SUBNET, half), (QVRF_SUBNET, half)], subnets⟩
  subnetIssued := ∅
  scheduledIssued := 0
  faucetBudget := funding.faucetBudget
  faucetIssued := 0
  faucetState := funding.faucet.state
  authority := funding.faucet.authority
  currency := currency
  events := []

section Network
variable {authorities : List (Authority T)} {funding : GenesisFunding T} {roles : GenesisRoles T}
  {members : BoundedVec T.AccountId 32} {chainId minimumValidatorCount : Nat} {currency : Emission.Currency T.toConfig}

/-- Both pallets build from a genesis whose faucet, if open, has an authority. -/
theorem networkConfig_builds (emits : 0 < T.annualEmission) (subnets : 2 ≤ T.maxSubnets)
    (authorised : funding.faucet.state ≠ .enabled ∨ funding.faucet.authority.isSome) :
    (networkConfig authorities funding roles members chainId minimumValidatorCount).emission.build currency =
      .ok (startState funding currency subnets) := by
  have valid : Emission.validRoutes T.toConfig [(ISING_SUBNET, half), (QVRF_SUBNET, half)] true = true := by
    have fits : ¬ T.maxSubnets < [(ISING_SUBNET, half), (QVRF_SUBNET, half)].length := Nat.not_lt.mpr subnets
    rw [Emission.validRoutes, if_neg fits]
    decide
  simp only [Emission.GenesisConfig.build, bind_success, Emission.asserted_success, expect_success]
  exact ⟨(), valid, (), emits, (), (Option.some_ne_none 0).symm, _, BoundedVec.tryFrom_of_le subnets, (),
    authorised, rfl⟩

/-- The accounts after any run from such a genesis, at clock values that are real and
never go back. -/
theorem network_supply (emits : 0 < T.annualEmission) (subnets : 2 ≤ T.maxSubnets)
    (authorised : funding.faucet.state ≠ .enabled ∨ funding.faucet.authority.isSome) (inputs : List (Step T.toConfig))
    (ordered : (clocks inputs).Pairwise (· ≤ ·)) (real : 0 ∉ clocks inputs) :
    let s₀ := startState funding currency subnets
    let s := (steps T.toConfig).run s₀ inputs
    s.startAt = (clocks inputs).head? ∧
      ((steps T.toConfig).trace s₀ inputs).sum = (s.scheduledIssued + s.faucetIssued : Nat) ∧
      s.scheduledIssued ≤ T.annualEmission * ((clocks inputs).getLastD 0 - (clocks inputs).headD 0) / YEAR_SECONDS ∧
      s.faucetIssued ≤ funding.faucetBudget := by
  have built := @networkConfig_builds T [] funding ⟨[], T.reviveAccountId, T.reviveAccountId, false⟩ default 0 0
    currency emits subnets authorised
  have held := Emission.run_accounted (Emission.build_accounted built) inputs ordered
  have start : Launched funding.faucetBudget (startState funding currency subnets) none :=
    ⟨show [ISING_SUBNET, QVRF_SUBNET].Nodup by decide, rfl, rfl, rfl⟩
  have still := start.run inputs real
  rw [Option.none_or] at still
  refine ⟨still.anchor, held.caused, ?_, still.faucetBudget ▸ held.budget⟩
  cases anchor : (clocks inputs).head? with
  | none =>
    rw [held.unissued (still.anchor.trans anchor)]
    exact Nat.zero_le _
  | some now =>
    rw [List.headD_eq_head?_getD, anchor]
    exact held.scheduledIssued_le (still.anchor.trans anchor)

end Network

/-- The supply after a mainnet launch, in every run at clock values that are real and
never go back. Both emission pallets build from any genesis the preset yields; from
there the faucet stays closed and no mint of it succeeds; the schedule is anchored at
the first clock value; and the issuance their operations caused is what the schedule
counts, which is within the emission of the time since then. -/
theorem mainnet_supply_follows_schedule {inputs : MainnetInputs T} {genesis : NetworkGenesis T}
    (launched : mainnetGenesis inputs = .ok genesis) (emits : 0 < T.annualEmission) (subnets : 2 ≤ T.maxSubnets)
    (currency : Emission.Currency T.toConfig) :
    ∃ s₀, genesis.emission.build currency = .ok s₀ ∧
      ∀ run s, (clocks run).Pairwise (· ≤ ·) → 0 ∉ clocks run → (steps T.toConfig).run s₀ run = s →
        s.faucetState = .permanentlyDisabled ∧
        (∀ credits origin who amount, ∃ reason, Emission.mint credits origin who amount s = (.error reason, s)) ∧
        s.startAt = (clocks run).head? ∧
        ((steps T.toConfig).trace s₀ run).sum = s.scheduledIssued ∧
        s.scheduledIssued ≤ T.annualEmission * ((clocks run).getLastD 0 - (clocks run).headD 0) / YEAR_SECONDS := by
  obtain ⟨authorities, validatorFloat, councilFloat, specBuilderFloat, total, ready, rfl⟩ :=
    (mainnetGenesis_safe inputs).result launched
  let funding := mainnetFunding inputs (VALIDATOR_BOND + validatorFloat.val) councilFloat.val specBuilderFloat.val
    total.val
  have blown : funding.faucet.state ≠ .enabled := fun opened => nomatch opened
  refine ⟨startState funding currency subnets, networkConfig_builds emits subnets (.inl blown), ?_⟩
  rintro run _ ordered real rfl
  obtain ⟨anchor, caused, scheduled, _⟩ := network_supply emits subnets (.inl blown) run ordered real
  obtain ⟨fuse, issued⟩ := @Emission.closed_run _ (startState funding currency subnets) blown run
  refine ⟨fuse, ?_, anchor, ?_, scheduled⟩
  · intro credits origin who amount
    exact (Emission.closed_refuses (fuse ▸ blown) credits origin who amount).1
  · rw [caused, issued, startState, Nat.add_zero]

/-- Accounts, keys and origins are numbers; nobody else's keys are known. -/
def tinyConfig : Config where
  toConfig := { Emission.tinyConfig with AccountId := Nat, decEqAccountId := inferInstance }
  BabeId := UInt8
  GrandpaId := UInt8
  decEqBabeId := inferInstance
  decEqGrandpaId := inferInstance
  encodeBabe key := [key]
  encodeGrandpa key := [key]
  mainnetPlaceholder := Allocation.tinyConfig.mainnetPlaceholder
  reviveAccountId := (999 : Nat)
  VestingInfo := Allocation.tinyConfig.VestingInfo
  locked := Allocation.tinyConfig.locked
  perBlock := Allocation.tinyConfig.perBlock
  startingBlock := Allocation.tinyConfig.startingBlock
  isValid := Allocation.tinyConfig.isValid
  quipTestnetAuthorities := [((60 : Nat), 60, 60)]
  devAuthorities := [((61 : Nat), 61, 61)]

def tinyValidator (id : Nat) : MainnetValidator tinyConfig := ⟨id, some (UInt8.ofNat id, UInt8.ofNat id)⟩

/-- Validators 1 to 5, seats 11 to 16, a builder, and a plan of four tranches. -/
def tinyInputs : MainnetInputs tinyConfig where
  council := ([11, 12, 13, 14, 15, 16] : List Nat)
  councilPlaceholders := []
  validators := [1, 2, 3, 4, 5].map tinyValidator
  specBuilder := (21 : Nat)
  validatorFloat := mainnetFloat
  councilFloat := mainnetFloat
  specBuilderFloat := mainnetFloat
  allocation := tinyPlan

def tinyCurrency : Emission.Currency tinyConfig.toConfig where
  free _ := 0
  totalIssuance := 1000

/-- Two accruals around a mint that is refused. -/
def tinyRun : List (Step tinyConfig.toConfig) :=
  [.accrue 5 fun _ => true, .mint true (7 : Nat) (3 : Nat) 4, .accrue 11 fun _ => true]

theorem mainnet_supply_follows_schedule_tinyInputs :
    ∃ genesis s₀, mainnetGenesis tinyInputs = .ok genesis ∧ genesis.emission.build tinyCurrency = .ok s₀ ∧
      ((steps tinyConfig.toConfig).run s₀ tinyRun).startAt = some 5 ∧
      ((steps tinyConfig.toConfig).run s₀ tinyRun).scheduledIssued ≤ 18 := by
  have accepted : (mainnetGenesis tinyInputs).isOk = true := by decide +kernel
  cases launched : mainnetGenesis tinyInputs with
  | error fault =>
    rw [launched] at accepted
    cases accepted
  | ok genesis =>
    obtain ⟨s₀, built, always⟩ := mainnet_supply_follows_schedule launched (by decide) (by decide) tinyCurrency
    obtain ⟨_, _, anchor, _, within⟩ := always tinyRun _ (by decide) (by decide) rfl
    have due : tinyConfig.annualEmission * ((clocks tinyRun).getLastD 0 - (clocks tinyRun).headD 0) / YEAR_SECONDS =
        18 := by decide
    exact ⟨genesis, s₀, rfl, built, anchor, due ▸ within⟩

end QuipValidator.Presets
