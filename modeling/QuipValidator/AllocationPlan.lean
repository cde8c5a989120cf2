import Mathlib.Data.Finset.Card
import QuipValidator.FixedPoint
import QuipValidator.RuntimeConstants
import QuipValidator.StorageMap

/-! The mainnet allocation: one custody account is funded at genesis, and a plan
says in which tranches it will be granted to the recipients. Genesis is blocked
until the plan validates. -/
namespace QuipValidator.Allocation
open Fallible Unsigned QuipRuntime

/-- `MinVestedTransfer` of the vesting pallet. -/
def MinVestedTransfer : Nat := 100 * EXISTENTIAL_DEPOSIT

/-- `DEFAULT_MAX_VESTING_SCHEDULES`. -/
def MAX_VESTING_SCHEDULES : Nat := 28

/-- A `u128`. -/
abbrev Balance := Fin (2 ^ 128)

def MAINNET_COUNCIL_LABELS : List String := ["Rick", "Colton", "Vik", "Roman", "David", "BVI Admin"]
def MAINNET_VALIDATOR_LABELS : List String :=
  ["Validator 1", "Validator 2", "Validator 3", "Validator 4", "Validator 5"]

/-- What the check takes from elsewhere: the hash behind a placeholder, the
account of the Revive pallet, and `pallet_vesting::VestingInfo` by its accessors. -/
structure Config where
  AccountId : Type
  decEqAccountId : DecidableEq AccountId
  mainnetPlaceholder : (role label : String) → AccountId
  reviveAccountId : AccountId
  VestingInfo : Type
  locked : VestingInfo → Nat
  perBlock : VestingInfo → Nat
  startingBlock : VestingInfo → Nat
  isValid : VestingInfo → Bool

instance {T : Config} : DecidableEq T.AccountId := T.decEqAccountId

structure AllocationTranche (T : Config) where
  recipient : T.AccountId
  issueAt : Nat
  schedule : T.VestingInfo

structure AllocationTerms (T : Config) where
  cadenceBlocks : Nat
  tranches : List (AllocationTranche T)

structure MainnetAllocation (T : Config) where
  total : Option Balance
  custody : T.AccountId
  recipients : Option (List T.AccountId)
  terms : Option (AllocationTerms T)

def custodyPlaceholder (T : Config) : T.AccountId := T.mainnetPlaceholder "custody" "Allocation"

def reservedMainnetAccounts (T : Config) : List T.AccountId :=
  MAINNET_COUNCIL_LABELS.map (T.mainnetPlaceholder "council") ++
    MAINNET_VALIDATOR_LABELS.map (T.mainnetPlaceholder "validator") ++
    [T.mainnetPlaceholder "spec-builder" "Ising"] ++ [custodyPlaceholder T]

/-- `fail`. -/
def blocked (reason : String) : String := "mainnet genesis blocked: " ++ reason

/-- What the loop over the tranches carries: for each recipient its last issue
block and how many tranches it has, and the sum of all amounts. -/
structure Tally (T : Config) where
  issued : StorageMap T.AccountId (Nat × Nat)
  planned : Nat

variable {T : Config}

/-- The SDK duration, `ceil(locked / rate)`, as a block number. -/
def duration (schedule : T.VestingInfo) : Option Nat := do
  let rest ← checkedSub (T.locked schedule) 1
  let blocks ← checkedDiv rest (T.perBlock schedule)
  let rounded ← checkedAdd u128Max blocks 1
  if rounded ≤ u32Max then some rounded else none

/-- How many schedules the recipient has with this tranche; a later one is due one
cadence after the one before. -/
def scheduleCount (cadenceBlocks : Nat) (tally : Tally T) (tranche : AllocationTranche T) : Fallible String Nat :=
  match tally.issued.lookup tranche.recipient with
  | some (previous, count) => do
    ensure (checkedAdd u32Max previous cadenceBlocks = some tranche.issueAt)
      (blocked "allocation tranche cadence is inconsistent")
    okOr (checkedAdd u32Max count 1) (blocked "allocation schedule count overflows")
  | none => pure 1

/-- One turn of the loop over the tranches. -/
def checkTranche (unique : Finset T.AccountId) (cadenceBlocks : Nat) (tally : Tally T) (tranche : AllocationTranche T) :
    Fallible String (Tally T) := do
  let schedule := tranche.schedule
  ensure (tranche.recipient ∈ unique) (blocked "allocation tranche names an unlisted recipient")
  ensure (¬ (tranche.issueAt = 0 ∨ T.startingBlock schedule < tranche.issueAt ∨ T.isValid schedule = false ∨
      T.locked schedule < MinVestedTransfer))
    (blocked "allocation tranche has unusable amount, rate or start")
  let blocks ← okOr (duration schedule) (blocked "allocation tranche end block overflows")
  let _ ← okOr (checkedAdd u32Max (T.startingBlock schedule) blocks)
    (blocked "allocation tranche end block overflows")
  let count ← scheduleCount cadenceBlocks tally tranche
  ensure (count ≤ MAX_VESTING_SCHEDULES) (blocked "allocation plan exceeds the per-recipient schedule cap")
  let planned ← okOr (checkedAdd u128Max tally.planned (T.locked schedule))
    (blocked "allocation tranche total overflows")
  pure ⟨tally.issued.insert tranche.recipient (tranche.issueAt, count), planned⟩

/-- `MainnetAllocation::validate`. -/
def validate (operational : List T.AccountId) (plan : MainnetAllocation T) : Fallible String Balance := do
  let total ← okOr plan.total (blocked "MAINNET_ALLOCATION_TOTAL is TBD")
  ensure (¬ total.val < EXISTENTIAL_DEPOSIT) (blocked "MAINNET_ALLOCATION_TOTAL must fund a usable custody account")
  ensure (plan.custody ∉ reservedMainnetAccounts T) (blocked "unresolved mainnet custody placeholder")
  ensure (¬ (plan.custody ∈ operational ∨ plan.custody = T.reviveAccountId))
    (blocked "mainnet custody must be a dedicated account")
  let recipients ← okOr plan.recipients (blocked "MAINNET_ALLOCATION_RECIPIENTS is TBD")
  let unique := recipients.toFinset
  ensure (¬ (recipients = [] ∨ unique.card ≠ recipients.length ∨
      ∃ who ∈ recipients, who ∈ reservedMainnetAccounts T ∨ who = plan.custody ∨ who = T.reviveAccountId))
    (blocked "MAINNET_ALLOCATION_RECIPIENTS must be distinct resolved accounts separate from custody and Revive")
  let terms ← okOr plan.terms (blocked "MAINNET_ALLOCATION_TERMS is TBD")
  ensure (¬ (terms.cadenceBlocks = 0 ∨ terms.tranches = []))
    (blocked "allocation terms need a positive cadence and explicit tranches")
  let tally ← terms.tranches.foldlM (checkTranche unique terms.cadenceBlocks) ⟨∅, 0⟩
  ensure (tally.issued.keys.length = unique.card) (blocked "allocation plan omits a recipient")
  let residual ← okOr (checkedSub total tally.planned) (blocked "allocation tranches exceed custody funding")
  ensure (¬ (residual ≠ 0 ∧ residual < EXISTENTIAL_DEPOSIT))
    (blocked "allocation plan leaves a dust custody residual")
  pure total

/-! What a plan has to be. -/

/-- The first blocks of a schedule with equal steps. -/
def progression (first step count : Nat) : List Nat := (List.range count).map fun index => first + index * step

def tranchesOf (who : T.AccountId) (tranches : List (AllocationTranche T)) : List (AllocationTranche T) :=
  tranches.filter fun tranche => tranche.recipient = who

/-- The block at which a schedule is fully vested: it takes the ceiling of the
amount over the rate. -/
def endBlock (schedule : T.VestingInfo) : Nat :=
  T.startingBlock schedule + (T.locked schedule + T.perBlock schedule - 1) / T.perBlock schedule

def granted (tranches : List (AllocationTranche T)) : Nat :=
  (tranches.map fun tranche => T.locked tranche.schedule).sum

/-- A plan that can be carried out: every grant goes to a listed recipient, at
equal steps and within the schedule cap, and whatever has been granted so far,
custody holds nothing or enough to exist. -/
structure Sound (operational : List T.AccountId) (custody : T.AccountId) (recipients : List T.AccountId)
    (terms : AllocationTerms T) (total : Nat) : Prop where
  usable : EXISTENTIAL_DEPOSIT ≤ total
  someone : recipients ≠ []
  distinct : (custody :: recipients).Nodup
  resolved : ∀ who ∈ custody :: recipients, who ∉ reservedMainnetAccounts T ∧ who ≠ T.reviveAccountId
  dedicated : custody ∉ operational
  cadence : 0 < terms.cadenceBlocks
  listed : ∀ tranche ∈ terms.tranches, tranche.recipient ∈ recipients
  capped : ∀ who ∈ recipients, 1 ≤ (tranchesOf who terms.tranches).length ∧
    (tranchesOf who terms.tranches).length ≤ MAX_VESTING_SCHEDULES
  steady : ∀ who ∈ recipients, ∃ first, 0 < first ∧
    (tranchesOf who terms.tranches).map AllocationTranche.issueAt =
      progression first terms.cadenceBlocks (tranchesOf who terms.tranches).length
  schedules : ∀ tranche ∈ terms.tranches, T.isValid tranche.schedule = true ∧
    MinVestedTransfer ≤ T.locked tranche.schedule ∧ tranche.issueAt ≤ T.startingBlock tranche.schedule ∧
    endBlock tranche.schedule ≤ u32Max
  covered : granted terms.tranches ≤ total
  /-- After any of the tranches, in any order. -/
  remaining : ∀ issued : List (AllocationTranche T), issued.Subperm terms.tranches →
    total - granted issued = 0 ∨ EXISTENTIAL_DEPOSIT ≤ total - granted issued

end QuipValidator.Allocation
