import QuipValidator.AccrualPaths

/-! The emission rebase. The upgrade to storage version 2 keeps what has been
issued and moves the anchor of the schedule instead, to the time at which the
current annual rate would have issued as much. Rounding that time down leaves
the entitlement less than one second behind the issued sum. -/
namespace QuipValidator.Emission
open Fallible Unsigned

variable {T : Config}

/-- `VERSION`. -/
def VERSION : Nat := 2

/-- The storage of the pallet with its storage version. -/
structure OnChain (T : Config) where
  version : Nat
  state : State T

section Upgrade
-- `multiply_by_rational_with_rounding`, rounding down.
variable (multiplyByRational : Nat → Nat → Nat → Option Nat)

def rebasedStart (now : Nat) (s : State T) : Except String (Option Nat) :=
  if s.enabled = false ∨ s.startAt = none ∨ s.scheduledIssued = 0 then .ok s.startAt
  else
    match multiplyByRational s.scheduledIssued YEAR_SECONDS T.annualEmission with
    | none => .error "rebase duration overflow or zero annual emission"
    | some elapsed =>
      -- What a `u64` cannot hold becomes its largest value.
      .ok (some (now - min elapsed u64Max))

/-- `on_runtime_upgrade` at a clock value. -/
def onRuntimeUpgrade (now : Nat) (chain : OnChain T) : OnChain T :=
  if VERSION ≤ chain.version then chain
  else
    match rebasedStart multiplyByRational now chain.state with
    | .error _ => chain
    | .ok start => ⟨VERSION, { chain.state with startAt := start }⟩

end Upgrade

/-- Every route was funded up to its share of one entitlement. -/
structure FundedUpTo (s : State T) (common : Nat) : Prop where
  counters : ∀ route ∈ s.routes.val, s.issued route.1 = route.2.mulFloor common
  scheduled : s.scheduledIssued = s.total

section Counters
variable {s : State T} {common : Nat}

private theorem FundedUpTo.sum (funded : FundedUpTo s common) :
    s.scheduledIssued = ((s.routes.val.map Prod.snd).map fun share => share.mulFloor common).sum := by
  rw [funded.scheduled, State.total, State.ids, List.map_map, List.map_map]
  exact congrArg List.sum (List.map_congr_left funded.counters)

end Counters

/-- The pallet under another annual emission. -/
def Config.atRate (T : Config) (annual : Nat) : Config := { T with annualEmission := annual }

/-- What one runtime stored, read by a runtime with another annual emission. Events
belong to a block. -/
def State.atRate (T : Config) {annual : Nat} (s : State (T.atRate annual)) : State T where
  enabled := s.enabled
  startAt := s.startAt
  routes := s.routes
  subnetIssued := s.subnetIssued
  scheduledIssued := s.scheduledIssued
  faucetBudget := s.faucetBudget
  faucetIssued := s.faucetIssued
  faucetState := s.faucetState
  authority := s.authority
  currency := ⟨s.currency.free, s.currency.totalIssuance⟩
  events := []

theorem FundedUpTo.atRate {annual common : Nat} {s : State (T.atRate annual)} (funded : FundedUpTo s common) :
    FundedUpTo (s.atRate T) common := ⟨funded.counters, funded.scheduled⟩

/-- `a * b / c` where it is a `u128`. -/
def tinyMultiply (value numerator denominator : Nat) : Option Nat :=
  if denominator = 0 then none
  else if value * numerator / denominator ≤ u128Max then some (value * numerator / denominator) else none

/-- The small configuration while it still issued four units a second. -/
def tinyOldStart : State (tinyConfig.atRate (4 * YEAR_SECONDS)) where
  enabled := true
  startAt := some 1
  routes := ⟨tinyGenesis.routes, by decide⟩
  subnetIssued := ∅
  scheduledIssued := 0
  faucetBudget := 10
  faucetIssued := 0
  faucetState := .enabled
  authority := some (7 : Nat)
  currency := { free := fun _ => 0, totalIssuance := 1000 }
  events := []

/-- Forty units after ten seconds, read at three units a second. -/
def tinyChain : OnChain tinyConfig := ⟨1, (accrue 11 (fun _ => true) tinyOldStart).atRate tinyConfig⟩

end QuipValidator.Emission
