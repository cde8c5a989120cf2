import QuipValidator.FixedPoint
import QuipValidator.StorageMap

/-! `pallet-emission-controller` and `pallet-faucet-ops`: the schedule that funds
the subnet pots, the rewards paid from them, and the budgeted faucet. The currency
is a parameter: whether a deposit is credited and whether a transfer is refused is
decided from outside, call by call. -/
namespace QuipValidator.Emission
open Fallible Unsigned

def YEAR_SECONDS : Nat := 365 * 24 * 60 * 60

/-- The runtime configuration of the two pallets. -/
structure Config where
  AccountId : Type
  RuntimeOrigin : Type
  decEqAccountId : DecidableEq AccountId
  annualEmission : Nat
  maxSubnets : Nat
  minimumBalance : Nat
  /-- The account that is derived for a subnet. -/
  pot : Nat → AccountId
  /-- Whether `MintOrigin` accepts an origin, given the appointed authority. -/
  mintOrigin : Option AccountId → RuntimeOrigin → Bool
  /-- Whether `AuthorityOrigin` accepts an origin. -/
  authorityOrigin : RuntimeOrigin → Bool

instance {T : Config} : DecidableEq T.AccountId := T.decEqAccountId

/-- `Error` of the emission controller. -/
inductive Error where
  | zeroAmount
  | budgetExceeded
  | overflow
  | depositFailed
  deriving DecidableEq

/-- `Error` of the faucet. -/
inductive FaucetError where
  | zeroAmount
  | depositFailed
  | disabled
  deriving DecidableEq

inductive DispatchError where
  | badOrigin
  | emission (error : Error)
  | faucet (error : FaucetError)
  | currency (index : Nat)
  deriving DecidableEq

/-- `FaucetState`. -/
inductive FaucetState where
  | enabled
  | permanentlyDisabled
  | paused
  deriving DecidableEq

/-- The free balances and the issuance they are part of. -/
structure Currency (T : Config) where
  free : T.AccountId → Nat
  totalIssuance : Nat

inductive Event (T : Config) where
  | subnetFunded (subnet amount : Nat)
  | rewardPaid (subnet : Nat) (who : T.AccountId) (amount : Nat)
  | faucetMinted (who : T.AccountId) (amount : Nat)
  | fundingFailed (subnet amount : Nat) (error : DispatchError)
  | rewardUnavailable (subnet : Nat) (who : T.AccountId) (requested : Nat) (error : Option DispatchError)
  | minted (who : T.AccountId) (amount : Nat)
  | permanentlyDisabled
  | authorityChanged (authority : Option T.AccountId)

abbrev Route := Nat × Perbill

/-- The storage of the two pallets, the currency and the events. -/
structure State (T : Config) where
  enabled : Bool
  startAt : Option Nat
  routes : BoundedVec Route T.maxSubnets
  subnetIssued : StorageMap Nat Nat
  scheduledIssued : Nat
  faucetBudget : Nat
  faucetIssued : Nat
  faucetState : FaucetState
  authority : Option T.AccountId
  currency : Currency T
  events : List (Event T)

variable {T : Config}

abbrev DispatchResult (T : Config) := Except DispatchError Unit × State T

/-- `SubnetIssued::get`. -/
def State.issued (s : State T) (subnet : Nat) : Nat := (s.subnetIssued.lookup subnet).getD 0

def State.deposit (s : State T) (event : Event T) : State T := { s with events := s.events ++ [event] }

namespace Currency

/-- `deposit_creating`, with the amount of the imbalance: it credits all or nothing. -/
def depositCreating (currency : Currency T) (credits : Bool) (who : T.AccountId) (amount : Nat) : Nat × Currency T :=
  if credits then
    (amount, { currency with free := fun account => currency.free account + if account = who then amount else 0 })
  else (0, currency)

/-- Dropping a positive imbalance. -/
def dropImbalance (currency : Currency T) (imbalance : Nat) : Currency T :=
  { currency with totalIssuance := currency.totalIssuance + imbalance }

/-- `transfer` between two accounts with `KeepAlive`. -/
def transfer (currency : Currency T) (refusal : Option DispatchError) (source dest : T.AccountId) (amount : Nat) :
    Except DispatchError (Currency T) :=
  match refusal with
  | some reason => .error reason
  | none => .ok { currency with
      free := fun account =>
        if account = source then currency.free account - amount
        else if account = dest then currency.free account + amount
        else currency.free account }

end Currency

/-- The route loop of `valid_routes`, with the ids seen so far and the sum of their shares. -/
def validRoutesFrom (seen : List Nat) (sum : Nat) : List Route → Bool
  | [] => sum = billion
  | (id, share) :: rest =>
    if share.parts = 0 ∨ id ∈ seen then false else validRoutesFrom (seen ++ [id]) (sum + share.parts) rest

def validRoutes (T : Config) (routes : List Route) (enabled : Bool) : Bool :=
  if T.maxSubnets < routes.length then false
  else if routes.isEmpty then !enabled
  else validRoutesFrom [] 0 routes

/-- The two pallets' `GenesisConfig`. -/
structure GenesisConfig (T : Config) where
  enabled : Bool
  startAt : Option Nat
  routes : List Route
  faucetBudget : Nat
  state : FaucetState
  authority : Option T.AccountId

/-- `assert!`. -/
def asserted (condition : Prop) [Decidable condition] (message : String) : Fallible DispatchError Unit :=
  if condition then .ok () else .error (.panic message)

/-- `build` of both pallets over the balances of the other ones. -/
def GenesisConfig.build (config : GenesisConfig T) (currency : Currency T) : Fallible DispatchError (State T) := do
  asserted (validRoutes T config.routes config.enabled = true) "invalid emission routes"
  asserted (0 < T.annualEmission) "annual emission must be nonzero"
  asserted (config.startAt ≠ some 0) "emission start must not be Unix epoch"
  let routes ← expect (BoundedVec.tryFrom T.maxSubnets config.routes) "bounded routes"
  asserted (config.state ≠ .enabled ∨ config.authority.isSome) "enabled faucet needs an authority"
  pure
    { enabled := config.enabled
      startAt := config.startAt
      routes := routes
      subnetIssued := ∅
      scheduledIssued := 0
      faucetBudget := config.faucetBudget
      faucetIssued := 0
      faucetState := config.state
      authority := config.authority
      currency := currency
      events := [] }

def entitlement (T : Config) (elapsed : Nat) : Option Nat := do
  let years ← checkedMul u128Max T.annualEmission (elapsed / YEAR_SECONDS)
  let fraction ← checkedMul u128Max T.annualEmission (elapsed % YEAR_SECONDS)
  checkedAdd u128Max years (fraction / YEAR_SECONDS)

def depositExact (credits : Bool) (who : T.AccountId) (amount : Nat) (s : State T) : DispatchResult T :=
  match checkedAdd u128Max s.currency.totalIssuance amount with
  | none => (.error (.emission .overflow), s)
  | some _ =>
    let (imbalance, currency) := s.currency.depositCreating credits who amount
    -- The imbalance leaves its scope on either path.
    let s := { s with currency := currency.dropImbalance imbalance }
    if imbalance = amount then (.ok (), s) else (.error (.emission .depositFailed), s)

def fundSubnet (credits : Bool) (subnet amount : Nat) : State T → DispatchResult T :=
  transactional fun s =>
    match checkedAdd u128Max (s.issued subnet) amount, checkedAdd u128Max s.scheduledIssued amount with
    | some next, some total =>
      match depositExact credits (T.pot subnet) amount s with
      | (.error reason, s) => (.error reason, s)
      | (.ok (), s) =>
        let s := { s with subnetIssued := s.subnetIssued.insert subnet next, scheduledIssued := total }
        (.ok (), s.deposit (.subnetFunded subnet amount))
    | _, _ => (.error (.emission .overflow), s)

/-- One round of the route loop of `accrue`. -/
def accrueRoute (credits : Nat → Bool) (total : Nat) (s : State T) (route : Route) : State T :=
  let (subnet, share) := route
  let target := share.mulFloor total
  let amount := target - s.issued subnet
  if amount ≠ 0 then
    match fundSubnet (credits subnet) subnet amount s with
    | (.ok (), s) => s
    | (.error reason, s) => s.deposit (.fundingFailed subnet amount reason)
  else s

/-- `accrue`; `credits` says which pots the currency credits in this call. -/
def accrue (now : Nat) (credits : Nat → Bool) (s : State T) : State T :=
  if !s.enabled ∨ now = 0 then s
  else
    match s.startAt with
    | none => { s with startAt := some now }
    | some start =>
      match entitlement T (now - start) with
      | none => s
      | some total => s.routes.val.foldl (accrueRoute credits total) s

def mintFaucet (credits : Bool) (who : T.AccountId) (amount : Nat) : State T → DispatchResult T :=
  transactional fun s =>
    if amount = 0 then (.error (.emission .zeroAmount), s)
    else
      match checkedAdd u128Max s.faucetIssued amount with
      | none => (.error (.emission .overflow), s)
      | some next =>
        if s.faucetBudget < next then (.error (.emission .budgetExceeded), s)
        else
          match depositExact credits who amount s with
          | (.error reason, s) => (.error reason, s)
          | (.ok (), s) =>
            let s := { s with faucetIssued := next }
            (.ok (), s.deposit (.faucetMinted who amount))

/-- `SubnetRewards::pay`, with the amount paid. -/
def pay (refusal : Option DispatchError) (subnet : Nat) (who : T.AccountId) (requested : Nat) (s : State T) :
    Nat × State T :=
  let pot := T.pot subnet
  let available := s.currency.free pot - T.minimumBalance
  let amount := min requested available
  if amount = 0 ∨ pot = who then (0, s.deposit (.rewardUnavailable subnet who requested none))
  else
    match s.currency.transfer refusal pot who amount with
    | .error reason => (0, s.deposit (.rewardUnavailable subnet who requested (some reason)))
    | .ok currency => (amount, { s with currency }.deposit (.rewardPaid subnet who amount))

/-- `mint` of the faucet. -/
def mint (credits : Bool) (origin : T.RuntimeOrigin) (who : T.AccountId) (amount : Nat) : State T → DispatchResult T :=
  transactional fun s =>
    if !T.mintOrigin s.authority origin then (.error .badOrigin, s)
    else if s.faucetState ≠ .enabled then (.error (.faucet .disabled), s)
    else if amount = 0 then (.error (.faucet .zeroAmount), s)
    else
      match mintFaucet credits who amount s with
      | (.error reason, s) => (.error reason, s)
      | (.ok (), s) => (.ok (), s.deposit (.minted who amount))

def setAuthority (origin : T.RuntimeOrigin) (authority : Option T.AccountId) : State T → DispatchResult T :=
  transactional fun s =>
    if !T.authorityOrigin origin then (.error .badOrigin, s)
    else (.ok (), { s with authority }.deposit (.authorityChanged authority))

def disable (origin : T.RuntimeOrigin) : State T → DispatchResult T :=
  transactional fun s =>
    if !T.mintOrigin s.authority origin then (.error .badOrigin, s)
    else if s.faucetState ≠ .enabled then (.error (.faucet .disabled), s)
    else (.ok (), { s with faucetState := .permanentlyDisabled }.deposit .permanentlyDisabled)

end QuipValidator.Emission
