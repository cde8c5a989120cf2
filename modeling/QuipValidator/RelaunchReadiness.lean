import QuipValidator.MainnetSupply

/-! The relaunch of the testnet. Its operators are committed, its council is still to be
supplied: the preset refuses until three accounts are given that are distinct, no
placeholder and no operator, and then starts a chain whose faucet is open and finite. -/
namespace QuipValidator.Presets
open Fallible Unsigned Allocation QuipRuntime
open Emission (YEAR_SECONDS steps clocks)

variable {T : Config}

/-- The accounts of the committed operators. -/
def operators (T : Config) : List T.AccountId := T.quipTestnetAuthorities.map Prod.fst

/-- What is committed of the operators: three of them, each with its own account. -/
structure Committed (T : Config) : Prop where
  three : T.quipTestnetAuthorities.length = 3
  stashes : (operators T).Nodup

def seatsOf (council : T.AccountId × T.AccountId × T.AccountId) : List T.AccountId :=
  [council.1, council.2.1, council.2.2]

theorem seatsOf_fit (council : T.AccountId × T.AccountId × T.AccountId) : (seatsOf council).length ≤ 32 := by
  change 3 ≤ 32
  decide

/-- A council the testnet can be relaunched with, beside operators whose keys differ. -/
structure Seated (T : Config) (council : List T.AccountId) : Prop where
  distinct : council.Nodup
  resolved : ∀ who ∈ council, who ∉ reservedMainnetAccounts T.allocation
  independent : ∀ who ∈ council, who ∉ operators T
  babeKeys : (T.quipTestnetAuthorities.map fun authority => T.encodeBabe authority.2.1).Nodup
  grandpaKeys : (T.quipTestnetAuthorities.map fun authority => T.encodeGrandpa authority.2.2).Nodup

def relaunchFunding (op1 : T.AccountId) (council : List T.AccountId) : GenesisFunding T where
  balances := (operators T ++ council).map (·, TEST_CURRENCY_ENDOWMENT)
  faucet := ⟨.enabled, some op1⟩
  faucetBudget := 1_000_000_000 * UNIT

def relaunchRoles (op1 : T.AccountId) (council : List T.AccountId) : GenesisRoles T where
  foundationMembers := council
  faucetAuthority := op1
  isingSpecBuilder := op1
  requireCouncilDisjoint := true

/-- The genesis of the relaunch. -/
def relaunchConfig (op1 : T.AccountId) (council : T.AccountId × T.AccountId × T.AccountId) : NetworkGenesis T :=
  networkConfig T.quipTestnetAuthorities (relaunchFunding op1 (seatsOf council)) (relaunchRoles op1 (seatsOf council))
    ⟨seatsOf council, seatsOf_fit council⟩ TESTNET_CHAIN_ID 3

/-- `network_genesis` starts from committed operators and a seated council. -/
theorem Seated.startable (committed : Committed T) {council : T.AccountId × T.AccountId × T.AccountId}
    (seated : Seated T (seatsOf council)) (op1 : T.AccountId) :
    Startable T.quipTestnetAuthorities (relaunchFunding op1 (seatsOf council)) (relaunchRoles op1 (seatsOf council))
      3 where
  some := List.ne_nil_of_length_pos (by rw [committed.three]; decide)
  few := by
    rw [committed.three]
    decide
  minimum := by
    rw [committed.three]
    decide
  stashes := committed.stashes
  endowed := by
    intro authority member
    have operator : authority.1 ∈ operators T := List.mem_map_of_mem member
    refine ⟨TEST_CURRENCY_ENDOWMENT, List.mem_map.mpr ⟨authority.1, List.mem_append_left _ operator, rfl⟩, ?_⟩
    decide
  accounts := by
    have names : (relaunchFunding op1 (seatsOf council)).balances.map Prod.fst = operators T ++ seatsOf council := by
      rw [relaunchFunding, List.map_map]
      exact List.map_id _
    rw [names, List.nodup_append]
    refine ⟨committed.stashes, seated.distinct, ?_⟩
    rintro who operator _ seat rfl
    exact seated.independent who seat operator
  members := List.cons_ne_nil _ _
  seats := seated.distinct
  disjoint := by
    intro _ who seat authority member same
    exact seated.independent who seat (same ▸ List.mem_map_of_mem member)
  fits := seatsOf_fit council

theorem Seated.starts (committed : Committed T) {council : T.AccountId × T.AccountId × T.AccountId}
    (seated : Seated T (seatsOf council)) (op1 : T.AccountId) :
    networkGenesis T.quipTestnetAuthorities (relaunchFunding op1 (seatsOf council)) (relaunchRoles op1 (seatsOf council))
      TESTNET_CHAIN_ID 3 = .ok (relaunchConfig op1 council) :=
  networkGenesis_ok.mpr ⟨seated.startable committed op1, rfl⟩

theorem Committed.first (committed : Committed T) : ∃ op1, (operators T).head? = some op1 := by
  have length : (operators T).length = 3 := (List.length_map _).trans committed.three
  cases listed : operators T with
  | nil =>
    rw [listed] at length
    cases length
  | cons op1 rest => exact ⟨op1, rfl⟩

/-- The relaunch preset never panics, and what it yields is the genesis of a seated council. -/
theorem testnetRelaunchGenesis_safe (committed : Committed T)
    (council : Option (T.AccountId × T.AccountId × T.AccountId)) :
    Safe (testnetRelaunchGenesis T council) fun genesis => ∃ seats op1, council = some seats ∧
      Seated T (seatsOf seats) ∧ (operators T).head? = some op1 ∧ genesis = relaunchConfig op1 seats := by
  unfold testnetRelaunchGenesis
  refine safe_bind safe_okOr fun seats given => ?_
  refine safe_bind safe_ensure fun _ distinct => ?_
  refine safe_bind safe_ensure fun _ resolved => ?_
  refine safe_bind (validateSessionKeys_safe _) fun _ keys => ?_
  dsimp only
  split
  · trivial
  rename_i disjoint
  obtain ⟨babeKeys, grandpaKeys⟩ := validateSessionKeys_ok.mp keys
  have seated : Seated T (seatsOf seats) :=
    ⟨card_toFinset_eq.mp distinct, fun who seat reserved => resolved ⟨who, seat, reserved⟩,
      assertCouncilDisjoint_ok.mp disjoint rfl, babeKeys, grandpaKeys⟩
  obtain ⟨op1, first⟩ := committed.first
  refine safe_bind (safe_expect first) fun chosen same => ?_
  subst same
  change Safe (networkGenesis T.quipTestnetAuthorities (relaunchFunding chosen (seatsOf seats))
    (relaunchRoles chosen (seatsOf seats)) TESTNET_CHAIN_ID 3) _
  rw [seated.starts committed chosen]
  exact ⟨seats, chosen, given, seated, first, rfl⟩

/-- A seated council passes every check. -/
theorem Seated.genesis (committed : Committed T) {council : T.AccountId × T.AccountId × T.AccountId}
    (seated : Seated T (seatsOf council)) : ∃ genesis, testnetRelaunchGenesis T (some council) = .ok genesis := by
  obtain ⟨op1, first⟩ := committed.first
  have disjoint : assertCouncilDisjoint (seatsOf council) (operators T) true = .ok () :=
    assertCouncilDisjoint_ok.mpr fun _ => seated.independent
  refine ⟨relaunchConfig op1 council, ?_⟩
  unfold testnetRelaunchGenesis
  simp only [bind_success, okOr_success, ensure_success]
  refine ⟨council, rfl, (), card_toFinset_eq.mpr seated.distinct, (), ?_, (),
    validateSessionKeys_ok.mpr ⟨seated.babeKeys, seated.grandpaKeys⟩, ?_⟩
  · rintro ⟨who, seat, reserved⟩
    exact seated.resolved who seat reserved
  · split
    · rename_i refused
      cases refused.symm.trans disjoint
    · exact bind_success.mpr ⟨op1, expect_success.mpr first, seated.starts committed op1⟩

/-- The relaunch of the testnet, from the committed operators. The preset never panics; it
yields a genesis exactly if it is given a council whose three seats are distinct, resolved
and held by no operator, beside operators with session keys of their own. From every
genesis it yields both emission pallets build, and in every later run at clock values that
are real and never go back the issuance their operations caused is that of the schedule,
within the emission of the time since the first clock value, and that of the faucet,
within its billion units. -/
theorem relaunch_supply_is_bounded (committed : Committed T)
    (council : Option (T.AccountId × T.AccountId × T.AccountId)) :
    (∀ message, testnetRelaunchGenesis T council ≠ .error (.panic message)) ∧
    ((∃ genesis, testnetRelaunchGenesis T council = .ok genesis) ↔
      ∃ seats, council = some seats ∧ Seated T (seatsOf seats)) ∧
    ∀ genesis, testnetRelaunchGenesis T council = .ok genesis → 0 < T.annualEmission → 2 ≤ T.maxSubnets →
      ∀ currency, ∃ s₀, genesis.emission.build currency = .ok s₀ ∧
        ∀ run s, (clocks run).Pairwise (· ≤ ·) → 0 ∉ clocks run → (steps T.toConfig).run s₀ run = s →
          s.startAt = (clocks run).head? ∧
          ((steps T.toConfig).trace s₀ run).sum = (s.scheduledIssued + s.faucetIssued : Nat) ∧
          s.scheduledIssued ≤ T.annualEmission * ((clocks run).getLastD 0 - (clocks run).headD 0) / YEAR_SECONDS ∧
          s.faucetIssued ≤ 1_000_000_000 * UNIT := by
  have safe := testnetRelaunchGenesis_safe committed council
  refine ⟨safe.no_panic, ⟨?_, ?_⟩, ?_⟩
  · rintro ⟨genesis, ran⟩
    obtain ⟨seats, _, given, seated, _, _⟩ := safe.result ran
    exact ⟨seats, given, seated⟩
  · rintro ⟨seats, rfl, seated⟩
    exact seated.genesis committed
  · intro genesis ran emits subnets currency
    obtain ⟨seats, op1, _, _, _, rfl⟩ := safe.result ran
    have authorised : (relaunchFunding op1 (seatsOf seats)).faucet.state ≠ .enabled ∨
        (relaunchFunding op1 (seatsOf seats)).faucet.authority.isSome := .inr rfl
    refine ⟨_, networkConfig_builds emits subnets authorised, ?_⟩
    rintro run _ ordered real rfl
    exact network_supply emits subnets authorised run ordered real

def tinyOperator (id : Nat) : Authority tinyConfig := (id, UInt8.ofNat id, UInt8.ofNat id)

/-- Three operators beside the accounts of the tiny mainnet. -/
def tinyTestnet : Config :=
  { tinyConfig with quipTestnetAuthorities := [60, 62, 63].map tinyOperator }

def tinyCouncil : tinyTestnet.AccountId × tinyTestnet.AccountId × tinyTestnet.AccountId :=
  ((11 : Nat), (12 : Nat), (13 : Nat))

theorem tinyTestnet_committed : Committed tinyTestnet := ⟨rfl, by decide⟩

theorem tinyCouncil_seated : Seated tinyTestnet (seatsOf tinyCouncil) :=
  ⟨by decide, by decide, by decide, by decide, by decide⟩

theorem relaunch_supply_is_bounded_tinyTestnet :
    ∃ genesis s₀, testnetRelaunchGenesis tinyTestnet (some tinyCouncil) = .ok genesis ∧
      genesis.emission.build tinyCurrency = .ok s₀ ∧
      ((steps tinyTestnet.toConfig).run s₀ tinyRun).startAt = some 5 ∧
      ((steps tinyTestnet.toConfig).run s₀ tinyRun).scheduledIssued ≤ 18 := by
  obtain ⟨_, exactly, always⟩ := relaunch_supply_is_bounded tinyTestnet_committed (some tinyCouncil)
  obtain ⟨genesis, ran⟩ := exactly.mpr ⟨tinyCouncil, rfl, tinyCouncil_seated⟩
  obtain ⟨s₀, built, supply⟩ := always genesis ran (by decide) (by decide) tinyCurrency
  obtain ⟨anchor, _, within, _⟩ := supply tinyRun _ (by decide) (by decide) rfl
  have due : tinyTestnet.annualEmission * ((clocks tinyRun).getLastD 0 - (clocks tinyRun).headD 0) / YEAR_SECONDS =
      18 := by decide
  exact ⟨genesis, s₀, ran, built, anchor, due ▸ within⟩

end QuipValidator.Presets
