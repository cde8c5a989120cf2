import QuipValidator.AllocationPlan
import QuipValidator.EmissionController

/-! The genesis presets. Every preset ends in `network_genesis`, which panics on inputs it
cannot start a chain from; the mainnet and the relaunch preset refuse unresolved inputs
with an error before that. Account ids, keys and the hash behind a placeholder come from
outside. The limits are those of a build without benchmarks. -/
namespace QuipValidator.Presets
open Fallible Unsigned QuipRuntime Allocation

structure Config extends Emission.Config where
  BabeId : Type
  GrandpaId : Type
  decEqBabeId : DecidableEq BabeId
  decEqGrandpaId : DecidableEq GrandpaId
  encodeBabe : BabeId → List UInt8
  encodeGrandpa : GrandpaId → List UInt8
  mainnetPlaceholder : (role label : String) → AccountId
  reviveAccountId : AccountId
  VestingInfo : Type
  locked : VestingInfo → Nat
  perBlock : VestingInfo → Nat
  startingBlock : VestingInfo → Nat
  isValid : VestingInfo → Bool
  /-- `quip_testnet_authorities`. -/
  quipTestnetAuthorities : List (AccountId × BabeId × GrandpaId)
  /-- The keys of every seed of the public dev keyring. -/
  devAuthorities : List (AccountId × BabeId × GrandpaId)

instance {T : Config} : DecidableEq T.AccountId := T.decEqAccountId
instance {T : Config} : DecidableEq T.BabeId := T.decEqBabeId
instance {T : Config} : DecidableEq T.GrandpaId := T.decEqGrandpaId

/-- The same accounts, as the check of the allocation sees them. -/
abbrev Config.allocation (T : Config) : Allocation.Config where
  AccountId := T.AccountId
  decEqAccountId := T.decEqAccountId
  mainnetPlaceholder := T.mainnetPlaceholder
  reviveAccountId := T.reviveAccountId
  VestingInfo := T.VestingInfo
  locked := T.locked
  perBlock := T.perBlock
  startingBlock := T.startingBlock
  isValid := T.isValid

abbrev Authority (T : Config) := T.AccountId × T.BabeId × T.GrandpaId

structure GenesisRoles (T : Config) where
  foundationMembers : List T.AccountId
  faucetAuthority : T.AccountId
  isingSpecBuilder : T.AccountId
  requireCouncilDisjoint : Bool

/-- `pallet_faucet_ops::GenesisConfig`. -/
structure FaucetGenesis (T : Config) where
  state : Emission.FaucetState
  authority : Option T.AccountId

structure GenesisFunding (T : Config) where
  balances : List (T.AccountId × Nat)
  faucet : FaucetGenesis T
  faucetBudget : Nat

structure StakingGenesis (T : Config) where
  validatorCount : Nat
  minimumValidatorCount : Nat
  maxNominatorCount : Option Nat
  minValidatorBond : Nat
  minNominatorBond : Nat
  /-- Stash, controller and bond of each validator. -/
  stakers : List (T.AccountId × T.AccountId × Nat)

/-- The patch of the runtime's genesis config. -/
structure NetworkGenesis (T : Config) where
  foundationMembers : BoundedVec T.AccountId 32
  approved : List T.AccountId
  staking : StakingGenesis T
  chainId : Nat
  balances : List (T.AccountId × Nat)
  /-- Stash, validator and session keys. -/
  session : List (T.AccountId × T.AccountId × T.BabeId × T.GrandpaId)
  defaultIsingSpecBuilder : Option T.AccountId
  emission : Emission.GenesisConfig T.toConfig

def VALIDATOR_BOND : Nat := 2000 * UNIT
def TEST_CURRENCY_ENDOWMENT : Nat := 2 ^ 60
def MAINNET_CHAIN_ID : Nat := 20049
def TESTNET_CHAIN_ID : Nat := 20033
def ISING_SUBNET : Nat := 0
def QVRF_SUBNET : Nat := 1
def MaxNominators : Nat := 1024

/-- `Perbill::from_percent(50)`. -/
def half : Perbill := ⟨500_000_000, by decide⟩

def assertCouncilDisjoint {α : Type} [DecidableEq α] (council operators : List α) (require : Bool) : Except String Unit :=
  if !require then .ok ()
  else match council.find? (· ∈ operators) with
    | some _ => .error "council member is also a validator operator"
    | none => .ok ()

variable {T : Config}

/-- The patch itself. -/
def networkConfig (initialAuthorities : List (Authority T)) (funding : GenesisFunding T) (roles : GenesisRoles T)
    (members : BoundedVec T.AccountId 32) (chainId minimumValidatorCount : Nat) : NetworkGenesis T :=
  let approved := initialAuthorities.map fun (who, _, _) => who
  { foundationMembers := members
    approved
    staking :=
      { validatorCount := asU32 approved.length
        minimumValidatorCount
        maxNominatorCount := some MaxNominators
        minValidatorBond := 2000 * UNIT
        minNominatorBond := 10 * UNIT
        stakers := approved.map fun who => (who, who, 2000 * UNIT) }
    chainId
    balances := funding.balances
    session := initialAuthorities.map fun (account, babe, grandpa) => (account, account, babe, grandpa)
    defaultIsingSpecBuilder := some roles.isingSpecBuilder
    emission :=
      { enabled := true
        startAt := none
        routes := [(ISING_SUBNET, half), (QVRF_SUBNET, half)]
        faucetBudget := funding.faucetBudget
        state := funding.faucet.state
        authority := funding.faucet.authority } }

def networkGenesis (initialAuthorities : List (Authority T)) (funding : GenesisFunding T) (roles : GenesisRoles T)
    (chainId minimumValidatorCount : Nat) : Fallible String (NetworkGenesis T) := do
  asserts (initialAuthorities ≠ [] ∧ initialAuthorities.length ≤ 32) "authority count must be 1..=32"
  asserts (1 ≤ minimumValidatorCount ∧ minimumValidatorCount ≤ asU32 initialAuthorities.length)
    "assertion failed: (1..=initial_authorities.len() as u32).contains(&minimum_validator_count)"
  let approved := initialAuthorities.map fun (who, _, _) => who
  asserts (approved.toFinset.card = approved.length) "duplicate validator stash"
  asserts (∀ who ∈ approved, ∃ endowed ∈ funding.balances, endowed.1 = who ∧ VALIDATOR_BOND < endowed.2)
    "every validator must be endowed above its bond"
  asserts ((funding.balances.map Prod.fst).toFinset.card = funding.balances.length) "duplicate endowed account"
  asserts (roles.foundationMembers ≠ []) "Foundation needs members"
  asserts (roles.foundationMembers.toFinset.card = roles.foundationMembers.length) "duplicate Foundation member"
  match assertCouncilDisjoint roles.foundationMembers approved roles.requireCouncilDisjoint with
  | .error why => .error (.panic why)
  | .ok () => do
    let members ← expect (BoundedVec.tryFrom 32 roles.foundationMembers) "Foundation members fit"
    pure (networkConfig initialAuthorities funding roles members chainId minimumValidatorCount)

def testnetGenesis (initialAuthorities : List (Authority T)) (endowedAccounts : List T.AccountId) (roles : GenesisRoles T)
    (chainId minimumValidatorCount : Nat) : Fallible String (NetworkGenesis T) :=
  networkGenesis initialAuthorities
    { balances := endowedAccounts.map fun account => (account, TEST_CURRENCY_ENDOWMENT)
      faucet := ⟨.enabled, some roles.faucetAuthority⟩
      faucetBudget := 1_000_000_000 * UNIT }
    roles chainId minimumValidatorCount

structure MainnetValidator (T : Config) where
  stash : T.AccountId
  sessionKeys : Option (T.BabeId × T.GrandpaId)

structure MainnetInputs (T : Config) where
  council : List T.AccountId
  councilPlaceholders : List String
  validators : List (MainnetValidator T)
  specBuilder : T.AccountId
  validatorFloat : Option Balance
  councilFloat : Option Balance
  specBuilderFloat : Option Balance
  allocation : MainnetAllocation T.allocation

def resolvedFloat (value : Option Balance) (name : String) : Fallible String Nat := do
  let value ← okOr value (blocked (name ++ " is TBD"))
  ensure (¬ (value.val = 0 ∨ value.val < EXISTENTIAL_DEPOSIT)) (blocked (name ++ " must fund a usable operational account"))
  pure value.val

def validateSessionKeys (authorities : List (Authority T)) : Fallible String Unit :=
  let babe := (authorities.map fun (_, key, _) => T.encodeBabe key).toFinset
  let grandpa := (authorities.map fun (_, _, key) => T.encodeGrandpa key).toFinset
  ensure (¬ (babe.card ≠ authorities.length ∨ grandpa.card ≠ authorities.length))
    "genesis blocked: duplicate BABE or GRANDPA session key"

/-- What a validator shares with known keys. -/
def collision (authority forbidden : Authority T) : Option String :=
  if authority.1 = forbidden.1 then some "stash"
  else if authority.2.1 = forbidden.2.1 then some "BABE key"
  else if authority.2.2 = forbidden.2.2 then some "GRANDPA key"
  else none

def checkKnownKeys (authorities : List (Authority T)) (known : String × Authority T) : Fallible String Unit :=
  authorities.zipIdx.forM fun (authority, index) =>
    match collision authority known.2 with
    | some kind =>
      fail (blocked ("Validator " ++ toString (index + 1) ++ " " ++ kind ++ " is reused from " ++ known.1))
    | none => pure ()

def validateMainnetNetworkKeys (authorities : List (Authority T)) : Fallible String Unit :=
  (T.quipTestnetAuthorities.map (("testnet operator", ·)) ++ T.devAuthorities.map (("standard dev keyring", ·))).forM
    (checkKnownKeys authorities)

def validateMainnetFunding (funding : GenesisFunding T) (validators council : List T.AccountId)
    (builder custody : T.AccountId) (allocationTotal : Nat) : Fallible String Unit := do
  let expected := (validators ++ council ++ [builder] ++ [custody]).toFinset
  let actual := (funding.balances.map Prod.fst).toFinset
  ensure (¬ (expected.card ≠ 13 ∨ actual.card ≠ funding.balances.length ∨ actual ≠ expected))
    (blocked "endowments must be exactly five validators, six council seats, one dedicated spec builder and one custody account")
  ensure (¬ ∃ endowed ∈ funding.balances, endowed.1 = custody ∧ endowed.2 ≠ allocationTotal)
    (blocked "custody endowment must equal the allocation total")
  ensure (¬ ∃ endowed ∈ funding.balances, endowed.1 ∈ reservedMainnetAccounts T.allocation)
    (blocked "reserved placeholder account in endowments")
  ensure (¬ ∃ endowed ∈ funding.balances, endowed.2 = TEST_CURRENCY_ENDOWMENT)
    (blocked "testnet-default endowment is forbidden")
  ensure (¬ ∃ endowed ∈ funding.balances,
      endowed.2 < EXISTENTIAL_DEPOSIT ∨ (endowed.1 ∈ validators ∧ endowed.2 ≤ VALIDATOR_BOND))
    (blocked "unusable float or validator endowment not above its bond")
  let _ ← okOr (funding.balances.foldlM (fun total endowed => checkedAdd u128Max total endowed.2) EXISTENTIAL_DEPOSIT)
    (blocked "total issuance overflows")
  ensure (¬ (funding.faucet.state ≠ .permanentlyDisabled ∨ funding.faucet.authority.isSome ∨ funding.faucetBudget ≠ 0))
    (blocked "faucet must be PermanentlyDisabled with no authority and zero budget")

/-- The authority of the validator at an index, once it has its keys. -/
def authorityOf (entry : MainnetValidator T × Nat) : Fallible String (Authority T) := do
  let keys ← okOr entry.1.sessionKeys
    (blocked ("Validator " ++ toString (entry.2 + 1) ++ " BABE/GRANDPA session keys are TBD"))
  pure (entry.1.stash, keys)

def collectAuthorities (validators : List (MainnetValidator T)) : Fallible String (List (Authority T)) :=
  validators.zipIdx.mapM authorityOf

/-- Who is endowed at mainnet genesis, and with what. -/
def mainnetFunding (inputs : MainnetInputs T) (stashBalance councilFloat specBuilderFloat allocationTotal : Nat) :
    GenesisFunding T where
  balances := (inputs.validators.map MainnetValidator.stash).map (·, stashBalance) ++
    inputs.council.map (·, councilFloat) ++ [(inputs.specBuilder, specBuilderFloat)] ++
    [(inputs.allocation.custody, allocationTotal)]
  faucet := ⟨.permanentlyDisabled, none⟩
  faucetBudget := 0

/-- The faucet authority is unused: the faucet config has none. -/
def mainnetRoles (inputs : MainnetInputs T) : GenesisRoles T where
  foundationMembers := inputs.council
  faucetAuthority := inputs.specBuilder
  isingSpecBuilder := inputs.specBuilder
  requireCouncilDisjoint := true

def mainnetGenesis (inputs : MainnetInputs T) : Fallible String (NetworkGenesis T) := do
  let actualPlaceholders := (MAINNET_COUNCIL_LABELS.filter fun label =>
    T.mainnetPlaceholder "council" label ∈ inputs.council).toFinset
  let declared := inputs.councilPlaceholders.toFinset
  ensure (¬ (actualPlaceholders ≠ declared ∨ declared.card ≠ inputs.councilPlaceholders.length))
    (blocked "MAINNET_COUNCIL_PLACEHOLDERS does not match the configured placeholder seats")
  ensure (declared = ∅)
    (blocked ("unresolved council placeholders: " ++ String.intercalate ", " inputs.councilPlaceholders))
  let validators := inputs.validators.map MainnetValidator.stash
  ensure (¬ (inputs.council.length ≠ 6 ∨ inputs.council.toFinset.card ≠ 6 ∨ validators.length ≠ 5 ∨
      validators.toFinset.card ≠ 5))
    (blocked "exactly six distinct council seats and five distinct validators are required")
  match assertCouncilDisjoint inputs.council validators true with
  | .error why => fail why
  | .ok () => do
    ensure (¬ (inputs.specBuilder ∈ inputs.council ∨ inputs.specBuilder ∈ validators))
      (blocked "Ising spec builder must be a dedicated account")
    ensure (¬ ∃ who ∈ validators ++ inputs.council ++ [inputs.specBuilder], who ∈ reservedMainnetAccounts T.allocation)
      (blocked "unresolved validator, council or spec-builder placeholder account")
    let authorities ← collectAuthorities inputs.validators
    validateSessionKeys authorities
    let validatorFloat ← resolvedFloat inputs.validatorFloat "MAINNET_VALIDATOR_FLOAT"
    let councilFloat ← resolvedFloat inputs.councilFloat "MAINNET_COUNCIL_FLOAT"
    let specBuilderFloat ← resolvedFloat inputs.specBuilderFloat "MAINNET_SPEC_BUILDER_FLOAT"
    let stashBalance ← okOr (checkedAdd u128Max VALIDATOR_BOND validatorFloat)
      (blocked "validator bond plus float overflows")
    let allocationTotal ← validate (validators ++ inputs.council ++ [inputs.specBuilder]) inputs.allocation
    let funding := mainnetFunding inputs stashBalance councilFloat specBuilderFloat allocationTotal
    validateMainnetFunding funding validators inputs.council inputs.specBuilder inputs.allocation.custody allocationTotal
    validateMainnetNetworkKeys authorities
    networkGenesis authorities funding (mainnetRoles inputs) MAINNET_CHAIN_ID 3

/-- Ten units for each kind of account. -/
def mainnetFloat : Option Balance := some ⟨10 * UNIT, by decide⟩

/-- The inputs of the mainnet preset as they stand: placeholders and no keys. -/
def mainnetInputs (T : Config) : MainnetInputs T where
  council := MAINNET_COUNCIL_LABELS.map (T.mainnetPlaceholder "council")
  councilPlaceholders := MAINNET_COUNCIL_LABELS
  validators := MAINNET_VALIDATOR_LABELS.map fun label => ⟨T.mainnetPlaceholder "validator" label, none⟩
  specBuilder := T.mainnetPlaceholder "spec-builder" "Ising"
  validatorFloat := mainnetFloat
  councilFloat := mainnetFloat
  specBuilderFloat := mainnetFloat
  allocation := ⟨none, custodyPlaceholder T.allocation, none, none⟩

def relaunchBlocked (reason : String) : String := "testnet relaunch genesis blocked: " ++ reason

def testnetRelaunchGenesis (T : Config) (council : Option (T.AccountId × T.AccountId × T.AccountId)) :
    Fallible String (NetworkGenesis T) := do
  let (first, second, third) ← okOr council (relaunchBlocked
    "TESTNET_RELAUNCH_COUNCIL_TBD needs three real council account IDs provisioned through QUI-2080")
  let council := [first, second, third]
  ensure (council.toFinset.card = 3) (relaunchBlocked "three distinct council seats are required")
  ensure (¬ ∃ who ∈ council, who ∈ reservedMainnetAccounts T.allocation)
    (relaunchBlocked "reserved placeholder council account")
  let authorities := T.quipTestnetAuthorities
  validateSessionKeys authorities
  let operators := authorities.map fun (account, _, _) => account
  match assertCouncilDisjoint council operators true with
  | .error reason => fail (relaunchBlocked reason)
  | .ok () => do
    let op1 ← expect operators.head? "index out of bounds"
    networkGenesis authorities
      { balances := (operators ++ council).map (·, TEST_CURRENCY_ENDOWMENT)
        faucet := ⟨.enabled, some op1⟩
        faucetBudget := 1_000_000_000 * UNIT }
      { foundationMembers := council
        faucetAuthority := op1
        isingSpecBuilder := op1
        requireCouncilDisjoint := true }
      TESTNET_CHAIN_ID 3

end QuipValidator.Presets
