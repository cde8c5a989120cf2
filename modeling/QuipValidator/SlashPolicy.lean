import QuipValidator.FixedPoint
import QuipValidator.StorageMap

/-! `pallet-slash-policy`: council slashes within a rolling budget for each stash.
What staking holds and answers is an argument of the call. -/
namespace QuipValidator.Slash
open Fallible Unsigned

/-- A whole number of percent. -/
def percent (count : Nat) (least : count ≤ 100) : Perbill :=
  ⟨count * 10_000_000, by simp only [billion]; omega⟩

def MIN_PER_MOTION : Perbill := ⟨1_000_000, by decide⟩
def MAX_PER_MOTION : Perbill := percent 5 (by decide)
def MIN_CUMULATIVE : Perbill := percent 1 (by decide)
def MAX_CUMULATIVE : Perbill := percent 10 (by decide)
def DEFAULT_PER_MOTION : Perbill := percent 1 (by decide)
def DEFAULT_CUMULATIVE : Perbill := percent 4 (by decide)

/-- The runtime configuration, with what `integrity_test` asserts. -/
structure Config where
  AccountId : Type
  RuntimeOrigin : Type
  decEqAccountId : DecidableEq AccountId
  bondingDuration : Nat
  maxBudgetWindow : Nat
  slashDeferDuration : Nat
  bondingDuration_pos : 0 < bondingDuration
  bondingDuration_le : bondingDuration ≤ maxBudgetWindow
  slashDeferDuration_pos : 0 < slashDeferDuration
  /-- Whether `CouncilOrigin` accepts an origin. -/
  councilOrigin : RuntimeOrigin → Bool

instance {T : Config} : DecidableEq T.AccountId := T.decEqAccountId

/-- `Error`. -/
inductive Error where
  | noActiveEra
  | invalidEra
  | noExposure
  | invalidFraction
  | invalidWindow
  | budgetExceeded
  | historyFull
  | noSlashScheduled
  | arithmeticOverflow
  deriving DecidableEq

inductive DispatchError where
  | badOrigin
  | module (error : Error)
  | staking (index : Nat)
  deriving DecidableEq

instance : Coe Error DispatchError := ⟨.module⟩

/-- A queued slash: the amount of the validator and those of its nominators. -/
structure UnappliedSlash where
  own : Nat
  others : List Nat

/-- What the call reads from staking and what `manual_slash` with the root origin
makes of the queues. -/
structure Staking (T : Config) where
  activeEra : Option Nat
  /-- The total exposure of a stash in an era. -/
  erasStakersOverview : Nat → T.AccountId → Option Nat
  unappliedSlashes : Nat → List UnappliedSlash
  manualSlash : T.AccountId → Nat → Perbill → Except Nat (Nat → List UnappliedSlash)

inductive Event (T : Config) where
  | slashScheduled (stash : T.AccountId) (offenceEra applyEra : Nat) (fraction remainingBudget : Perbill)
  | limitsSet (perMotion cumulative : Perbill) (window : Nat)

/-- The limits the council selects. -/
structure Limits where
  perMotion : Perbill
  cumulative : Perbill
  window : Nat

/-- One stash's fractions, aggregated by motion era. -/
abbrev History (T : Config) := BoundedVec (Nat × Perbill) T.maxBudgetWindow

/-- The storage of the pallet and its events. -/
structure State (T : Config) where
  limits : Limits
  slashHistory : StorageMap T.AccountId (History T)
  events : List (Event T)

variable {T : Config}

/-- The storage before any call. -/
def State.initial (T : Config) : State T where
  limits := { perMotion := DEFAULT_PER_MOTION, cumulative := DEFAULT_CUMULATIVE, window := T.bondingDuration }
  slashHistory := ∅
  events := []

def State.history (s : State T) (stash : T.AccountId) : History T := (s.slashHistory.lookup stash).getD default

def checkFractions (perMotion cumulative : Perbill) : Fallible DispatchError Unit :=
  ensure ((MIN_PER_MOTION.parts ≤ perMotion.parts ∧ perMotion.parts ≤ MAX_PER_MOTION.parts) ∧
    (MIN_CUMULATIVE.parts ≤ cumulative.parts ∧ cumulative.parts ≤ MAX_CUMULATIVE.parts) ∧
    perMotion.parts ≤ cumulative.parts) (Error.invalidFraction : DispatchError)

/-- The checks of `discretionary_slash` before the budget, with the active era. -/
def checkMotion (staking : Staking T) (limits : Limits) (origin : T.RuntimeOrigin) (stash : T.AccountId) (era : Nat)
    (fraction : Perbill) : Fallible DispatchError Nat := do
  ensure (T.councilOrigin origin = true) DispatchError.badOrigin
  let active ← okOr staking.activeEra (Error.noActiveEra : DispatchError)
  ensure (era ≤ active ∧ active - T.slashDeferDuration ≤ era) (Error.invalidEra : DispatchError)
  let exposure ← okOr (staking.erasStakersOverview era stash) (Error.noExposure : DispatchError)
  ensure (exposure ≠ 0) (Error.noExposure : DispatchError)
  checkFractions limits.perMotion limits.cumulative
  ensure (fraction.parts ≠ 0 ∧ fraction.parts ≤ limits.perMotion.parts) (Error.invalidFraction : DispatchError)
  ensure (T.bondingDuration ≤ limits.window ∧ limits.window ≤ T.maxBudgetWindow) (Error.invalidWindow : DispatchError)
  pure active

/-- The fold over the entries of the window, in `u32`. -/
def charge (fraction : Perbill) (used : List (Nat × Perbill)) : Option Nat :=
  used.foldlM (fun sum entry => checkedAdd u32Max sum entry.2.parts) fraction.parts

/-- Adds the fraction to the first entry of the era. -/
def addUsed (active : Nat) (fraction : Perbill) : List (Nat × Perbill) → List (Nat × Perbill)
  | [] => []
  | (when, used) :: rest =>
    if when = active then (when, used.saturatingAdd fraction) :: rest
    else (when, used) :: addUsed active fraction rest

theorem length_addUsed (active : Nat) (fraction : Perbill) (entries : List (Nat × Perbill)) :
    (addUsed active fraction entries).length = entries.length := by
  induction entries with
  | nil => rfl
  | cons entry rest ih =>
    rw [addUsed]
    split
    · rfl
    · rw [List.length_cons, ih, List.length_cons]

/-- The entry of the motion: into the entry of its era, or a new one. -/
def recordMotion (active : Nat) (fraction : Perbill) (history : History T) : Fallible DispatchError (History T) :=
  if history.val.any fun entry => entry.1 = active then
    .ok ⟨addUsed active fraction history.val, by rw [length_addUsed]; exact history.property⟩
  else okOr (history.tryPush (active, fraction)) (Error.historyFull : DispatchError)

/-- An error of staking passes through. -/
def stakingResult {α : Type} : Except Nat α → Fallible DispatchError α
  | .ok value => .ok value
  | .error index => fail (.staking index)

/-- The call into staking and the check that it queued a slash, with the era it applies in. -/
def schedule (staking : Staking T) (stash : T.AccountId) (era : Nat) (fraction : Perbill) :
    Fallible DispatchError Nat := do
  let applyEra ← okOr ((checkedAdd u32Max era T.slashDeferDuration).bind fun sum => checkedAdd u32Max sum 1)
    (Error.arithmeticOverflow : DispatchError)
  let before := (staking.unappliedSlashes applyEra).length
  let queues ← stakingResult (staking.manualSlash stash era fraction)
  ensure (((queues applyEra)[before]?.any fun slash => slash.own ≠ 0 || slash.others.any (· ≠ 0)) = true)
    (Error.noSlashScheduled : DispatchError)
  pure applyEra

/-- The part of the history that is kept: the largest window there can be. -/
def retained (T : Config) (active : Nat) (history : History T) : History T :=
  history.retain fun entry => active - (T.maxBudgetWindow - 1) ≤ entry.1

/-- The entries the budget counts. -/
def inWindow (active window : Nat) (history : History T) : List (Nat × Perbill) :=
  history.val.filter fun entry => active - (window - 1) ≤ entry.1

def discretionarySlash (staking : Staking T) (origin : T.RuntimeOrigin) (stash : T.AccountId) (era : Nat)
    (fraction : Perbill) (s : State T) : Fallible DispatchError (State T) := do
  let active ← checkMotion staking s.limits origin stash era fraction
  let history := retained T active (s.history stash)
  let charged ← okOr (charge fraction (inWindow active s.limits.window history)) (Error.budgetExceeded : DispatchError)
  ensure (charged ≤ s.limits.cumulative.parts) (Error.budgetExceeded : DispatchError)
  let history ← recordMotion active fraction history
  let applyEra ← schedule staking stash era fraction
  let remainingBudget : Perbill :=
    ⟨s.limits.cumulative.parts - charged, (Nat.sub_le _ _).trans s.limits.cumulative.bounded⟩
  pure { s with
    slashHistory := s.slashHistory.insert stash history
    events := s.events ++ [.slashScheduled stash era applyEra fraction remainingBudget] }

def setLimits (origin : T.RuntimeOrigin) (perMotion cumulative : Perbill) (window : Nat) (s : State T) :
    Fallible DispatchError (State T) := do
  ensure (T.councilOrigin origin = true) DispatchError.badOrigin
  checkFractions perMotion cumulative
  ensure (T.bondingDuration ≤ window ∧ window ≤ T.maxBudgetWindow) (Error.invalidWindow : DispatchError)
  pure { s with
    limits := { perMotion, cumulative, window }
    events := s.events ++ [.limitsSet perMotion cumulative window] }

end QuipValidator.Slash
