import QuipValidator.GenesisPresets
import QuipValidator.PlanSoundness

/-! When a preset yields a genesis. `network_genesis` starts exactly from what is startable,
and the mainnet preset succeeds exactly on inputs that are ready and never runs into one of
its panics. -/
namespace QuipValidator.Presets
open Fallible Unsigned QuipRuntime Allocation

variable {T : Config}

theorem card_toFinset_eq {α : Type} [DecidableEq α] {items : List α} :
    items.toFinset.card = items.length ↔ items.Nodup :=
  ⟨fun whole => Multiset.coe_nodup.mp (Multiset.toFinset_card_eq_card_iff_nodup.mp whole), List.toFinset_card_of_nodup⟩

theorem assertCouncilDisjoint_ok {α : Type} [DecidableEq α] {council operators : List α} {require : Bool} :
    assertCouncilDisjoint council operators require = .ok () ↔ (require = true → ∀ who ∈ council, who ∉ operators) := by
  unfold assertCouncilDisjoint
  cases require with
  | false => simp
  | true =>
    rw [if_neg (by decide)]
    cases shared : council.find? (· ∈ operators) with
    | none => simpa using shared
    | some who =>
      have member := List.mem_of_find?_eq_some shared
      have both := List.find?_some shared
      simp only [reduceCtorEq, forall_const, false_iff, not_forall]
      exact ⟨who, member, by simpa using both⟩

/-- What a chain can be started from. -/
structure Startable (authorities : List (Authority T)) (funding : GenesisFunding T) (roles : GenesisRoles T)
    (minimumValidatorCount : Nat) : Prop where
  some : authorities ≠ []
  few : authorities.length ≤ 32
  minimum : 1 ≤ minimumValidatorCount ∧ minimumValidatorCount ≤ authorities.length
  stashes : (authorities.map fun (who, _, _) => who).Nodup
  endowed : ∀ authority ∈ authorities, ∃ balance, (authority.1, balance) ∈ funding.balances ∧ VALIDATOR_BOND < balance
  accounts : (funding.balances.map Prod.fst).Nodup
  members : roles.foundationMembers ≠ []
  seats : roles.foundationMembers.Nodup
  disjoint : roles.requireCouncilDisjoint = true → ∀ who ∈ roles.foundationMembers, ∀ authority ∈ authorities,
    who ≠ authority.1
  fits : roles.foundationMembers.length ≤ 32

/-- `network_genesis` starts exactly from those inputs, and panics on all others. -/
theorem networkGenesis_ok {authorities : List (Authority T)} {funding : GenesisFunding T} {roles : GenesisRoles T}
    {chainId minimumValidatorCount : Nat} {genesis : NetworkGenesis T} :
    networkGenesis authorities funding roles chainId minimumValidatorCount = .ok genesis ↔
      ∃ startable : Startable authorities funding roles minimumValidatorCount,
        genesis = networkConfig authorities funding roles ⟨roles.foundationMembers, startable.fits⟩ chainId
          minimumValidatorCount := by
  unfold networkGenesis
  simp only [bind_success, asserts_success, card_toFinset_eq]
  constructor
  · rintro ⟨_, ⟨some, few⟩, _, minimum, _, stashes, _, endowed, _, accounts, _, members, _, seats, ran⟩
    split at ran
    · cases ran
    · rename_i disjoint
      rw [bind_success] at ran
      obtain ⟨bounded, fitting, same⟩ := ran
      rw [expect_success, BoundedVec.tryFrom_eq_some] at fitting
      rw [assertCouncilDisjoint_ok] at disjoint
      cases same
      have fits : roles.foundationMembers.length ≤ 32 := fitting ▸ bounded.property
      refine ⟨⟨some, few, ?_, stashes, ?_, ?_, members, seats, ?_, fits⟩, ?_⟩
      · rwa [asU32_of_lt (by omega)] at minimum
      · intro authority member
        obtain ⟨⟨_, balance⟩, held, rfl, above⟩ := endowed authority.1 (List.mem_map_of_mem member)
        exact ⟨balance, held, above⟩
      · rwa [← List.length_map Prod.fst, card_toFinset_eq] at accounts
      · intro required who seat authority member same
        exact disjoint required who seat (same ▸ List.mem_map_of_mem member)
      · congr 1
        exact Subtype.ext fitting
  · rintro ⟨startable, rfl⟩
    have length := startable.few
    refine ⟨(), ⟨startable.some, startable.few⟩, (), ?_, (), startable.stashes, (), ?_, (), ?_, (), startable.members, (),
      startable.seats, ?_⟩
    · rw [asU32_of_lt (by omega)]
      exact startable.minimum
    · intro who member
      obtain ⟨authority, listed, rfl⟩ := List.mem_map.mp member
      obtain ⟨balance, held, above⟩ := startable.endowed authority listed
      exact ⟨_, held, rfl, above⟩
    · rw [← List.length_map Prod.fst, card_toFinset_eq]
      exact startable.accounts
    · have disjoint : assertCouncilDisjoint roles.foundationMembers (authorities.map fun (who, _, _) => who)
          roles.requireCouncilDisjoint = .ok () := by
        refine assertCouncilDisjoint_ok.mpr fun required who seat member => ?_
        obtain ⟨authority, listed, same⟩ := List.mem_map.mp member
        exact startable.disjoint required who seat authority listed same.symm
      rw [disjoint]
      simp only [bind_success, expect_success, BoundedVec.tryFrom_eq_some]
      exact ⟨⟨roles.foundationMembers, startable.fits⟩, rfl, rfl⟩

/-- The accounts that run the network. -/
def operational (inputs : MainnetInputs T) : List T.AccountId :=
  inputs.validators.map MainnetValidator.stash ++ inputs.council ++ [inputs.specBuilder]

theorem custody_distinct {inputs : MainnetInputs T} (distinct : (operational inputs).Nodup)
    (outside : inputs.allocation.custody ∉ operational inputs) :
    (operational inputs ++ [inputs.allocation.custody]).Nodup := by
  refine List.nodup_append.mpr ⟨distinct, List.nodup_singleton _, fun who member other custody same => ?_⟩
  rw [List.mem_singleton] at custody
  exact outside (custody ▸ same ▸ member)

theorem custody_resolved {inputs : MainnetInputs T}
    (resolved : ∀ who ∈ operational inputs, who ∉ reservedMainnetAccounts T.allocation)
    (unreserved : inputs.allocation.custody ∉ reservedMainnetAccounts T.allocation) :
    ∀ who ∈ operational inputs ++ [inputs.allocation.custody], who ∉ reservedMainnetAccounts T.allocation := by
  intro who member
  rcases List.mem_append.mp member with operator | custody
  · exact resolved who operator
  · rw [List.mem_singleton] at custody
    exact custody ▸ unreserved

/-- Keys that are not those of the public testnet or of the dev keyring. -/
def Fresh (authorities : List (Authority T)) : Prop :=
  ∀ authority ∈ authorities, ∀ known ∈ T.quipTestnetAuthorities ++ T.devAuthorities,
    authority.1 ≠ known.1 ∧ authority.2.1 ≠ known.2.1 ∧ authority.2.2 ≠ known.2.2

theorem resolvedFloat_ok {value : Option Balance} {name : String} {float : Nat} :
    resolvedFloat value name = .ok float ↔ ∃ resolved, value = some resolved ∧ EXISTENTIAL_DEPOSIT ≤ resolved.val ∧
      float = resolved.val := by
  unfold resolvedFloat
  simp only [bind_success, okOr_success, ensure_success, not_or, not_lt]
  constructor
  · rintro ⟨resolved, given, _, usable, same⟩
    exact ⟨resolved, given, usable.2, (Except.ok.inj same).symm⟩
  · rintro ⟨resolved, given, usable, rfl⟩
    have positive : 0 < EXISTENTIAL_DEPOSIT := by decide
    exact ⟨resolved, given, (), ⟨by omega, usable⟩, rfl⟩

theorem validateSessionKeys_ok {authorities : List (Authority T)} :
    validateSessionKeys authorities = .ok () ↔ (authorities.map fun (_, key, _) => T.encodeBabe key).Nodup ∧
      (authorities.map fun (_, _, key) => T.encodeGrandpa key).Nodup := by
  simp only [validateSessionKeys, ensure_success, not_or, ne_eq, not_not]
  rw [← card_toFinset_eq, ← card_toFinset_eq, List.length_map, List.length_map]

theorem collision_none {authority known : Authority T} : collision authority known = none ↔
    authority.1 ≠ known.1 ∧ authority.2.1 ≠ known.2.1 ∧ authority.2.2 ≠ known.2.2 := by
  unfold collision
  by_cases stash : authority.1 = known.1
  · simp [stash]
  by_cases babe : authority.2.1 = known.2.1
  · simp [stash, babe]
  by_cases grandpa : authority.2.2 = known.2.2
  · simp [stash, babe, grandpa]
  · simp [stash, babe, grandpa]

theorem checkKnownKeys_ok {authorities : List (Authority T)} {known : String × Authority T} :
    checkKnownKeys authorities known = .ok () ↔ ∀ authority ∈ authorities, collision authority known.2 = none := by
  unfold checkKnownKeys
  rw [forM_success]
  constructor
  · intro passed authority member
    obtain ⟨index, inside, rfl⟩ := List.getElem_of_mem member
    have entry : (authorities[index], index) ∈ authorities.zipIdx := by
      rw [List.mk_mem_zipIdx_iff_getElem?]
      exact List.getElem?_eq_getElem inside
    have fine := passed _ entry
    dsimp only at fine
    split at fine
    · cases fine
    · assumption
  · rintro apart ⟨authority, index⟩ member
    have held : authority ∈ authorities := List.fst_mem_of_mem_zipIdx member
    dsimp only
    rw [apart authority held]
    rfl

theorem validateMainnetNetworkKeys_ok {authorities : List (Authority T)} :
    validateMainnetNetworkKeys authorities = .ok () ↔ Fresh authorities := by
  unfold validateMainnetNetworkKeys
  simp only [forM_success, checkKnownKeys_ok, collision_none, List.mem_append, List.mem_map]
  constructor
  · intro passed authority member known either
    rcases List.mem_append.mp either with testnet | dev
    · exact passed _ (.inl ⟨known, testnet, rfl⟩) authority member
    · exact passed _ (.inr ⟨known, dev, rfl⟩) authority member
  · rintro fresh _ (⟨known, testnet, rfl⟩ | ⟨known, dev, rfl⟩) authority member
    · exact fresh authority member known (List.mem_append_left _ testnet)
    · exact fresh authority member known (List.mem_append_right _ dev)

/-- A validator with the keys of an authority. -/
def keyed (authority : Authority T) : MainnetValidator T := ⟨authority.1, some authority.2⟩

theorem authorityOf_ok {entry : MainnetValidator T × Nat} {authority : Authority T} :
    authorityOf entry = .ok authority ↔ entry.1 = keyed authority := by
  obtain ⟨⟨stash, sessionKeys⟩, index⟩ := entry
  simp only [authorityOf, bind_success, okOr_success, keyed]
  constructor
  · rintro ⟨keys, rfl, same⟩
    cases same
    rfl
  · intro same
    cases same
    exact ⟨_, rfl, rfl⟩

/-- Every validator has its keys, and the authorities are the validators with them. -/
theorem collectAuthorities_ok {validators : List (MainnetValidator T)} {authorities : List (Authority T)} :
    collectAuthorities validators = .ok authorities ↔ validators = authorities.map keyed := by
  have fromIndex : ∀ (validators : List (MainnetValidator T)) (authorities : List (Authority T)) start,
      (validators.zipIdx start).mapM authorityOf = .ok authorities ↔ validators = authorities.map keyed := by
    intro validators
    induction validators with
    | nil =>
      intro authorities start
      cases authorities <;> simp [pure, Except.pure]
    | cons validator rest ih =>
      intro authorities start
      rw [List.zipIdx_cons, List.mapM_cons]
      simp only [bind_success, authorityOf_ok]
      constructor
      · rintro ⟨authority, same, later, collected, whole⟩
        cases whole
        rw [(ih later _).mp collected, List.map_cons, ← same]
      · intro same
        cases authorities with
        | nil => cases same
        | cons authority later =>
          rw [List.map_cons, List.cons.injEq] at same
          exact ⟨authority, same.1, later, (ih later _).mpr same.2, rfl⟩
  exact fromIndex validators authorities 0

section Funding
variable (inputs : MainnetInputs T) (stashBalance councilFloat specBuilderFloat total : Nat)

theorem funded_accounts : ((mainnetFunding inputs stashBalance councilFloat specBuilderFloat total).balances.map Prod.fst) =
    operational inputs ++ [inputs.allocation.custody] := by
  simp [mainnetFunding, operational, Function.comp_def]

theorem funded_sum : ((mainnetFunding inputs stashBalance councilFloat specBuilderFloat total).balances.map Prod.snd).sum =
    inputs.validators.length * stashBalance + inputs.council.length * councilFloat + specBuilderFloat + total := by
  simp [mainnetFunding, Function.comp_def, Nat.add_assoc]

variable {inputs stashBalance councilFloat specBuilderFloat total}

theorem mem_funded {endowed : T.AccountId × Nat} :
    endowed ∈ (mainnetFunding inputs stashBalance councilFloat specBuilderFloat total).balances ↔
      (∃ validator ∈ inputs.validators, (validator.stash, stashBalance) = endowed) ∨
      (∃ who ∈ inputs.council, (who, councilFloat) = endowed) ∨ endowed = (inputs.specBuilder, specBuilderFloat) ∨
      endowed = (inputs.allocation.custody, total) := by
  simp [mainnetFunding]

/-- Thirteen accounts that are distinct, resolved and usable leave two things to check: that
no amount is the testnet's, and that all of them fit in the issuance. -/
theorem validateMainnetFunding_ok (five : inputs.validators.length = 5) (six : inputs.council.length = 6)
    (distinct : (operational inputs ++ [inputs.allocation.custody]).Nodup)
    (resolved : ∀ who ∈ operational inputs ++ [inputs.allocation.custody], who ∉ reservedMainnetAccounts T.allocation)
    (bonded : VALIDATOR_BOND < stashBalance) (council : EXISTENTIAL_DEPOSIT ≤ councilFloat)
    (builder : EXISTENTIAL_DEPOSIT ≤ specBuilderFloat) (custody : EXISTENTIAL_DEPOSIT ≤ total) :
    validateMainnetFunding (mainnetFunding inputs stashBalance councilFloat specBuilderFloat total)
      (inputs.validators.map MainnetValidator.stash) inputs.council inputs.specBuilder inputs.allocation.custody total =
        .ok () ↔
      (∀ amount ∈ [stashBalance, councilFloat, specBuilderFloat, total], amount ≠ TEST_CURRENCY_ENDOWMENT) ∧
        EXISTENTIAL_DEPOSIT + 5 * stashBalance + 6 * councilFloat + specBuilderFloat + total ≤ u128Max := by
  have amounts : (∀ amount ∈ [stashBalance, councilFloat, specBuilderFloat, total], amount ≠ TEST_CURRENCY_ENDOWMENT) ↔
      ¬ ∃ endowed ∈ (mainnetFunding inputs stashBalance councilFloat specBuilderFloat total).balances,
        endowed.2 = TEST_CURRENCY_ENDOWMENT := by
    obtain ⟨validator, validators⟩ := List.exists_mem_of_length_pos (five ▸ (by decide) : 0 < inputs.validators.length)
    obtain ⟨seat, seats⟩ := List.exists_mem_of_length_pos (six ▸ (by decide) : 0 < inputs.council.length)
    constructor
    · rintro apart ⟨endowed, member, same⟩
      rcases mem_funded.mp member with ⟨_, _, rfl⟩ | ⟨_, _, rfl⟩ | rfl | rfl
      all_goals exact apart _ (by simp) same
    · rintro none amount member rfl
      simp only [List.mem_cons, List.not_mem_nil, or_false] at member
      rcases member with same | same | same | same
      · exact none ⟨_, mem_funded.mpr (.inl ⟨validator, validators, rfl⟩), same.symm⟩
      · exact none ⟨_, mem_funded.mpr (.inr (.inl ⟨seat, seats, rfl⟩)), same.symm⟩
      · exact none ⟨_, mem_funded.mpr (.inr (.inr (.inl rfl))), same.symm⟩
      · exact none ⟨_, mem_funded.mpr (.inr (.inr (.inr rfl))), same.symm⟩
  have accounts := funded_accounts inputs stashBalance councilFloat specBuilderFloat total
  have card : (operational inputs ++ [inputs.allocation.custody]).toFinset.card = 13 := by
    rw [List.toFinset_card_of_nodup distinct]
    simp [operational, five, six]
  have length : (mainnetFunding inputs stashBalance councilFloat specBuilderFloat total).balances.length = 13 := by
    rw [← List.length_map Prod.fst, accounts]
    simp [operational, five, six]
  have exact : ¬ ∃ endowed ∈ (mainnetFunding inputs stashBalance councilFloat specBuilderFloat total).balances,
      endowed.1 = inputs.allocation.custody ∧ endowed.2 ≠ total := by
    have outside := (List.nodup_append.mp distinct).2.2
    rintro ⟨endowed, member, same, differs⟩
    rcases mem_funded.mp member with ⟨validator, listed, rfl⟩ | ⟨who, listed, rfl⟩ | rfl | rfl
    · exact outside validator.stash (by simp only [operational, List.mem_append]; exact .inl (.inl (List.mem_map_of_mem listed)))
        _ (List.mem_singleton_self _) same
    · exact outside who (by simp only [operational, List.mem_append]; exact .inl (.inr listed))
        _ (List.mem_singleton_self _) same
    · exact outside _ (by simp only [operational, List.mem_append]; exact .inr (List.mem_singleton_self _))
        _ (List.mem_singleton_self _) same
    · exact differs rfl
  have unreserved : ¬ ∃ endowed ∈ (mainnetFunding inputs stashBalance councilFloat specBuilderFloat total).balances,
      endowed.1 ∈ reservedMainnetAccounts T.allocation := by
    rintro ⟨endowed, member, reserved⟩
    exact resolved endowed.1 (by rw [← accounts]; exact List.mem_map_of_mem member) reserved
  have usable : ¬ ∃ endowed ∈ (mainnetFunding inputs stashBalance councilFloat specBuilderFloat total).balances,
      endowed.2 < EXISTENTIAL_DEPOSIT ∨
        (endowed.1 ∈ inputs.validators.map MainnetValidator.stash ∧ endowed.2 ≤ VALIDATOR_BOND) := by
    have stashes : ∀ who ∈ inputs.council ++ ([inputs.specBuilder] ++ [inputs.allocation.custody]),
        who ∉ inputs.validators.map MainnetValidator.stash := by
      have apart := distinct
      rw [operational, List.append_assoc, List.append_assoc, List.nodup_append] at apart
      exact fun who other stash => apart.2.2 who stash who other rfl
    have least : EXISTENTIAL_DEPOSIT ≤ VALIDATOR_BOND := by decide
    rintro ⟨endowed, member, short⟩
    rcases mem_funded.mp member with ⟨validator, listed, rfl⟩ | ⟨who, listed, rfl⟩ | rfl | rfl
    · rcases short with dust | ⟨_, bond⟩
      · exact absurd dust (by simp only; omega)
      · exact absurd bond (by simp only; omega)
    · exact short.elim (Nat.not_lt.mpr council) fun both => stashes who (List.mem_append_left _ listed) both.1
    · exact short.elim (Nat.not_lt.mpr builder) fun both => stashes _ (by simp) both.1
    · exact short.elim (Nat.not_lt.mpr custody) fun both => stashes _ (by simp) both.1
  have issuance := funded_sum inputs stashBalance councilFloat specBuilderFloat total
  have start : EXISTENTIAL_DEPOSIT ≤ u128Max := by decide
  unfold validateMainnetFunding
  simp only [bind_success, ensure_success, okOr_success, accounts, amounts, length, exact, unreserved, usable,
    foldlM_checkedAdd_eq_some start, issuance, five, six]
  constructor
  · rintro ⟨_, _, _, _, _, _, _, real, _, _, _, ⟨fits, _⟩, _⟩
    exact ⟨real, by omega⟩
  · rintro ⟨real, fits⟩
    refine ⟨(), ?_, (), not_false, (), not_false, (), real, (), not_false, _, ⟨by omega, rfl⟩, by simp [mainnetFunding]⟩
    exact not_or.mpr ⟨not_not.mpr card, not_or.mpr ⟨not_not.mpr card, not_not.mpr rfl⟩⟩

end Funding

/-- Inputs the mainnet can be launched with: thirteen accounts that are distinct and
resolved, keys of their own for the five validators, and amounts that are usable, not the
testnet's, and fit in the issuance. -/
structure Ready (inputs : MainnetInputs T) (authorities : List (Authority T))
    (validatorFloat councilFloat specBuilderFloat total : Balance) : Prop where
  five : authorities.length = 5
  six : inputs.council.length = 6
  placeholders : inputs.councilPlaceholders = []
  keys : inputs.validators = authorities.map keyed
  distinct : (operational inputs).Nodup
  resolved : ∀ who ∈ operational inputs, who ∉ reservedMainnetAccounts T.allocation
  babeKeys : (authorities.map fun (_, key, _) => T.encodeBabe key).Nodup
  grandpaKeys : (authorities.map fun (_, _, key) => T.encodeGrandpa key).Nodup
  fresh : Fresh authorities
  floats : inputs.validatorFloat = some validatorFloat ∧ inputs.councilFloat = some councilFloat ∧
    inputs.specBuilderFloat = some specBuilderFloat
  usable : ∀ float ∈ [validatorFloat, councilFloat, specBuilderFloat], EXISTENTIAL_DEPOSIT ≤ float.val
  allocation : validate (operational inputs) inputs.allocation = .ok total
  real : ∀ amount ∈ [VALIDATOR_BOND + validatorFloat.val, councilFloat.val, specBuilderFloat.val, total.val],
    amount ≠ TEST_CURRENCY_ENDOWMENT
  issuance : EXISTENTIAL_DEPOSIT + 5 * (VALIDATOR_BOND + validatorFloat.val) + 6 * councilFloat.val +
    specBuilderFloat.val + total.val ≤ u128Max

namespace Ready
variable {inputs : MainnetInputs T} {authorities : List (Authority T)}
  {validatorFloat councilFloat specBuilderFloat total : Balance}

theorem stashes (ready : Ready inputs authorities validatorFloat councilFloat specBuilderFloat total) :
    inputs.validators.map MainnetValidator.stash = authorities.map fun (who, _, _) => who := by
  rw [ready.keys, List.map_map]
  rfl

theorem custody (ready : Ready inputs authorities validatorFloat councilFloat specBuilderFloat total) :
    EXISTENTIAL_DEPOSIT ≤ total.val ∧ inputs.allocation.custody ∉ operational inputs ∧
      inputs.allocation.custody ∉ reservedMainnetAccounts T.allocation := by
  obtain ⟨_, _, _, _, _, enough, unreserved, outside, _⟩ := validate_ok.mp ready.allocation
  exact ⟨enough, outside, unreserved⟩

theorem seats (ready : Ready inputs authorities validatorFloat councilFloat specBuilderFloat total) :
    inputs.council.length ≤ 32 := by
  rw [ready.six]
  decide

/-- Ready inputs never run into a panic of `network_genesis`. -/
theorem startable (ready : Ready inputs authorities validatorFloat councilFloat specBuilderFloat total) :
    Startable authorities (mainnetFunding inputs (VALIDATOR_BOND + validatorFloat.val) councilFloat.val specBuilderFloat.val
      total.val) (mainnetRoles inputs) 3 where
  some := List.ne_nil_of_length_pos (by rw [ready.five]; decide)
  few := by
    rw [ready.five]
    decide
  minimum := by
    rw [ready.five]
    decide
  stashes := by
    have distinct := ready.distinct
    rw [operational, List.append_assoc, ready.stashes] at distinct
    exact (List.nodup_append.mp distinct).1
  endowed := by
    intro authority member
    have listed : keyed authority ∈ inputs.validators := by
      rw [ready.keys]
      exact List.mem_map_of_mem member
    have positive : 0 < EXISTENTIAL_DEPOSIT := by decide
    have usable := ready.usable validatorFloat (by simp)
    exact ⟨_, mem_funded.mpr (.inl ⟨_, listed, rfl⟩), by omega⟩
  accounts := by
    rw [funded_accounts]
    exact custody_distinct ready.distinct ready.custody.2.1
  members := List.ne_nil_of_length_pos (by rw [mainnetRoles, ready.six]; decide)
  seats := (List.nodup_append.mp (List.nodup_append.mp ready.distinct).1).2.1
  disjoint := by
    intro _ who seat authority member same
    have apart := (List.nodup_append.mp (List.nodup_append.mp ready.distinct).1).2.2
    refine apart authority.1 ?_ who seat same.symm
    rw [ready.stashes]
    exact List.mem_map_of_mem member
  fits := ready.seats

end Ready

/-- The genesis of the mainnet. -/
def mainnetConfig (inputs : MainnetInputs T) (authorities : List (Authority T))
    (validatorFloat councilFloat specBuilderFloat total : Balance) (seats : inputs.council.length ≤ 32) :
    NetworkGenesis T :=
  networkConfig authorities (mainnetFunding inputs (VALIDATOR_BOND + validatorFloat.val) councilFloat.val
    specBuilderFloat.val total.val) (mainnetRoles inputs) ⟨inputs.council, seats⟩ MAINNET_CHAIN_ID 3

theorem Ready.starts {inputs : MainnetInputs T} {authorities : List (Authority T)}
    {validatorFloat councilFloat specBuilderFloat total : Balance}
    (ready : Ready inputs authorities validatorFloat councilFloat specBuilderFloat total) :
    networkGenesis authorities (mainnetFunding inputs (VALIDATOR_BOND + validatorFloat.val) councilFloat.val
      specBuilderFloat.val total.val) (mainnetRoles inputs) MAINNET_CHAIN_ID 3 =
      .ok (mainnetConfig inputs authorities validatorFloat councilFloat specBuilderFloat total ready.seats) :=
  networkGenesis_ok.mpr ⟨ready.startable, rfl⟩

theorem scheduleCount_safe (cadence : Nat) (tally : Tally T.allocation) (tranche : AllocationTranche T.allocation) :
    Safe (scheduleCount cadence tally tranche) fun _ => True := by
  unfold scheduleCount
  split
  · exact safe_bind safe_ensure fun _ _ => safe_okOr.mono fun _ _ => trivial
  · trivial

theorem checkTranche_safe (unique : Finset T.allocation.AccountId) (cadence : Nat) (tally : Tally T.allocation)
    (tranche : AllocationTranche T.allocation) : Safe (checkTranche unique cadence tally tranche) fun _ => True :=
  safe_bind safe_ensure fun _ _ => safe_bind safe_ensure fun _ _ => safe_bind safe_okOr fun _ _ =>
    safe_bind safe_okOr fun _ _ => safe_bind (scheduleCount_safe cadence tally tranche) fun _ _ =>
    safe_bind safe_ensure fun _ _ => safe_bind safe_okOr fun _ _ => trivial

theorem validate_safe (accounts : List T.AccountId) (plan : MainnetAllocation T.allocation) :
    Safe (validate accounts plan) fun total => validate accounts plan = .ok total := by
  have calm : Safe (validate accounts plan) fun _ => True :=
    safe_bind safe_okOr fun _ _ => safe_bind safe_ensure fun _ _ => safe_bind safe_ensure fun _ _ =>
      safe_bind safe_ensure fun _ _ => safe_bind safe_okOr fun _ _ => safe_bind safe_ensure fun _ _ =>
      safe_bind safe_okOr fun _ _ => safe_bind safe_ensure fun _ _ =>
      safe_bind (safe_foldlM fun _ _ _ => checkTranche_safe _ _ _ _) fun _ _ => safe_bind safe_ensure fun _ _ =>
      safe_bind safe_okOr fun _ _ => safe_bind safe_ensure fun _ _ => trivial
  exact calm.exact

theorem collectAuthorities_safe (validators : List (MainnetValidator T)) :
    Safe (collectAuthorities validators) fun authorities => collectAuthorities validators = .ok authorities := by
  have calm : Safe (collectAuthorities validators) fun _ => True :=
    safe_mapM fun _ _ => safe_bind safe_okOr fun _ _ => trivial
  exact calm.exact

theorem resolvedFloat_safe (value : Option Balance) (name : String) :
    Safe (resolvedFloat value name) fun float => resolvedFloat value name = .ok float := by
  have calm : Safe (resolvedFloat value name) fun _ => True :=
    safe_bind safe_okOr fun _ _ => safe_bind safe_ensure fun _ _ => trivial
  exact calm.exact

theorem validateMainnetFunding_safe (funding : GenesisFunding T) (validators council : List T.AccountId)
    (builder custody : T.AccountId) (total : Nat) :
    Safe (validateMainnetFunding funding validators council builder custody total) fun checked =>
      validateMainnetFunding funding validators council builder custody total = .ok checked := by
  have calm : Safe (validateMainnetFunding funding validators council builder custody total) fun _ => True :=
    safe_bind safe_ensure fun _ _ => safe_bind safe_ensure fun _ _ => safe_bind safe_ensure fun _ _ =>
      safe_bind safe_ensure fun _ _ => safe_bind safe_ensure fun _ _ => safe_bind safe_okOr fun _ _ =>
      safe_ensure.mono fun _ _ => trivial
  exact calm.exact

theorem validateMainnetNetworkKeys_safe (authorities : List (Authority T)) :
    Safe (validateMainnetNetworkKeys authorities) fun checked => validateMainnetNetworkKeys authorities = .ok checked := by
  have calm : Safe (validateMainnetNetworkKeys authorities) fun _ => True := by
    refine safe_forM fun known _ => safe_forM fun ⟨authority, index⟩ _ => ?_
    dsimp only
    cases collision authority known.2 <;> trivial
  exact calm.exact

theorem validateSessionKeys_safe (authorities : List (Authority T)) :
    Safe (validateSessionKeys authorities) fun _ => validateSessionKeys authorities = .ok () := by
  have calm : Safe (validateSessionKeys authorities) fun _ => True := safe_ensure.mono fun _ _ => trivial
  exact calm.exact

/-- Everything the checks before `network_genesis` found out makes the inputs ready. -/
theorem mainnetGenesis_safe (inputs : MainnetInputs T) :
    Safe (mainnetGenesis inputs) fun genesis => ∃ authorities validatorFloat councilFloat specBuilderFloat total,
      ∃ ready : Ready inputs authorities validatorFloat councilFloat specBuilderFloat total,
        genesis = mainnetConfig inputs authorities validatorFloat councilFloat specBuilderFloat total ready.seats := by
  unfold mainnetGenesis
  refine safe_bind safe_ensure fun _ declared => ?_
  refine safe_bind safe_ensure fun _ none => ?_
  refine safe_bind safe_ensure fun _ counts => ?_
  split
  · trivial
  rename_i disjoint
  refine safe_bind safe_ensure fun _ dedicated => ?_
  refine safe_bind safe_ensure fun _ resolved => ?_
  refine safe_bind (collectAuthorities_safe _) fun authorities collected => ?_
  refine safe_bind (validateSessionKeys_safe _) fun _ keys => ?_
  refine safe_bind (resolvedFloat_safe _ _) fun _ validators => ?_
  refine safe_bind (resolvedFloat_safe _ _) fun _ council => ?_
  refine safe_bind (resolvedFloat_safe _ _) fun _ builder => ?_
  refine safe_bind safe_okOr fun stashBalance added => ?_
  refine safe_bind (validate_safe _ _) fun total allocated => ?_
  refine safe_bind (validateMainnetFunding_safe _ _ _ _ _ _) fun _ funded => ?_
  refine safe_bind (validateMainnetNetworkKeys_safe _) fun _ fresh => ?_
  obtain ⟨validatorFloat, givenValidator, usableValidator, rfl⟩ := resolvedFloat_ok.mp validators
  obtain ⟨councilFloat, givenCouncil, usableCouncil, rfl⟩ := resolvedFloat_ok.mp council
  obtain ⟨specBuilderFloat, givenBuilder, usableBuilder, rfl⟩ := resolvedFloat_ok.mp builder
  obtain ⟨_, rfl⟩ := checkedAdd_eq_some.mp added
  obtain ⟨babeKeys, grandpaKeys⟩ := validateSessionKeys_ok.mp keys
  have assigned := collectAuthorities_ok.mp collected
  obtain ⟨_, _, _, _, _, enough, unreserved, outside, _⟩ := validate_ok.mp allocated
  push Not at counts dedicated resolved
  obtain ⟨six, seats, five, stashes⟩ := counts
  have placeholders : inputs.councilPlaceholders = [] := List.toFinset_eq_empty_iff _ |>.mp none
  have apart := assertCouncilDisjoint_ok.mp disjoint rfl
  have distinct : (operational inputs).Nodup := by
    refine List.nodup_append.mpr ⟨List.nodup_append.mpr ⟨?_, ?_, ?_⟩, List.nodup_singleton _, ?_⟩
    · exact card_toFinset_eq.mp (stashes.trans five.symm)
    · exact card_toFinset_eq.mp (seats.trans six.symm)
    · rintro who stash _ seat rfl
      exact apart who seat stash
    · intro who member other same
      rw [List.mem_singleton] at same
      rintro rfl
      subst same
      exact (List.mem_append.mp member).elim dedicated.2 dedicated.1
  have custody := custody_distinct distinct outside
  have all := custody_resolved resolved unreserved
  have positive : 0 < EXISTENTIAL_DEPOSIT := by decide
  rw [List.length_map] at five
  obtain ⟨real, issuance⟩ := (validateMainnetFunding_ok five six custody all (by omega) usableCouncil usableBuilder
    enough).mp funded
  have ready : Ready inputs authorities validatorFloat councilFloat specBuilderFloat total := {
    five := by rw [← five, assigned, List.length_map]
    keys := assigned
    six, placeholders, distinct, resolved, babeKeys, grandpaKeys, real, issuance
    fresh := validateMainnetNetworkKeys_ok.mp fresh
    floats := ⟨givenValidator, givenCouncil, givenBuilder⟩
    usable := by simp [usableValidator, usableCouncil, usableBuilder]
    allocation := allocated }
  rw [ready.starts]
  exact ⟨authorities, validatorFloat, councilFloat, specBuilderFloat, total, ready, rfl⟩

/-- Ready inputs pass every check. -/
theorem Ready.genesis {inputs : MainnetInputs T} {authorities : List (Authority T)}
    {validatorFloat councilFloat specBuilderFloat total : Balance}
    (ready : Ready inputs authorities validatorFloat councilFloat specBuilderFloat total) :
    mainnetGenesis inputs =
      .ok (mainnetConfig inputs authorities validatorFloat councilFloat specBuilderFloat total ready.seats) := by
  obtain ⟨enough, outside, unreserved⟩ := ready.custody
  obtain ⟨stashes, council, apart⟩ := List.nodup_append.mp (List.nodup_append.mp ready.distinct).1
  have builder := (List.nodup_append.mp ready.distinct).2.2
  have five : inputs.validators.length = 5 := by
    rw [ready.keys, List.length_map]
    exact ready.five
  have labels : (MAINNET_COUNCIL_LABELS.filter fun label => T.mainnetPlaceholder "council" label ∈ inputs.council) = [] := by
    refine List.filter_eq_nil_iff.mpr fun label listed seated => ?_
    refine ready.resolved _ (List.mem_append_left _ (List.mem_append_right _ (of_decide_eq_true seated))) ?_
    simp only [reservedMainnetAccounts, List.mem_append, List.mem_map]
    exact .inl (.inl (.inl ⟨label, listed, rfl⟩))
  have disjoint : assertCouncilDisjoint inputs.council (inputs.validators.map MainnetValidator.stash) true = .ok () :=
    assertCouncilDisjoint_ok.mpr fun _ who seat stash => apart who stash who seat rfl
  have custody := custody_distinct ready.distinct outside
  have all := custody_resolved ready.resolved unreserved
  have positive : 0 < EXISTENTIAL_DEPOSIT := by decide
  have usableValidator := ready.usable validatorFloat (by simp)
  have usableCouncil := ready.usable councilFloat (by simp)
  have usableBuilder := ready.usable specBuilderFloat (by simp)
  have issuance := ready.issuance
  unfold mainnetGenesis
  simp only [bind_success, ensure_success, okOr_success, checkedAdd_eq_some, labels, ready.placeholders, disjoint]
  refine ⟨(), by simp, (), by simp, (), ?_, (), ?_, (), ?_, authorities, collectAuthorities_ok.mpr ready.keys, (),
    validateSessionKeys_ok.mpr ⟨ready.babeKeys, ready.grandpaKeys⟩, _,
    resolvedFloat_ok.mpr ⟨validatorFloat, ready.floats.1, usableValidator, rfl⟩, _,
    resolvedFloat_ok.mpr ⟨councilFloat, ready.floats.2.1, usableCouncil, rfl⟩, _,
    resolvedFloat_ok.mpr ⟨specBuilderFloat, ready.floats.2.2, usableBuilder, rfl⟩, _, ⟨by omega, rfl⟩, total,
    ready.allocation, (), ?_, (), validateMainnetNetworkKeys_ok.mpr ready.fresh, ready.starts⟩
  · push Not
    rw [card_toFinset_eq.mpr stashes, List.toFinset_card_of_nodup council, List.length_map]
    exact ⟨ready.six, ready.six, five, five⟩
  · rintro (seat | stash)
    · exact builder _ (List.mem_append_right _ seat) _ (List.mem_singleton_self _) rfl
    · exact builder _ (List.mem_append_left _ stash) _ (List.mem_singleton_self _) rfl
  · rintro ⟨who, member, reserved⟩
    exact ready.resolved who member reserved
  · exact (validateMainnetFunding_ok five ready.six custody all (by omega) usableCouncil usableBuilder enough).mpr
      ⟨ready.real, issuance⟩

/-- When the mainnet preset yields a genesis. It never panics; it succeeds exactly on
inputs that are ready, with the genesis of those inputs; and on the inputs as they stand,
whatever the placeholders hash to, it is refused. -/
theorem mainnet_genesis_iff_ready (inputs : MainnetInputs T) :
    (∀ message, mainnetGenesis inputs ≠ .error (.panic message)) ∧
    (∀ genesis, mainnetGenesis inputs = .ok genesis ↔
      ∃ authorities validatorFloat councilFloat specBuilderFloat total,
        ∃ ready : Ready inputs authorities validatorFloat councilFloat specBuilderFloat total,
          genesis = mainnetConfig inputs authorities validatorFloat councilFloat specBuilderFloat total ready.seats) ∧
    ∃ reason, mainnetGenesis (mainnetInputs T) = .error (.error reason) := by
  have exactly : ∀ (inputs : MainnetInputs T) genesis, mainnetGenesis inputs = .ok genesis ↔
      ∃ authorities validatorFloat councilFloat specBuilderFloat total,
        ∃ ready : Ready inputs authorities validatorFloat councilFloat specBuilderFloat total,
          genesis = mainnetConfig inputs authorities validatorFloat councilFloat specBuilderFloat total ready.seats := by
    intro inputs genesis
    constructor
    · exact (mainnetGenesis_safe inputs).result
    · rintro ⟨_, _, _, _, _, ready, rfl⟩
      exact ready.genesis
  refine ⟨(mainnetGenesis_safe inputs).no_panic, exactly inputs, ?_⟩
  cases ran : mainnetGenesis (mainnetInputs T) with
  | ok genesis =>
    obtain ⟨_, _, _, _, _, ready, _⟩ := (exactly _ _).mp ran
    exact absurd ready.placeholders (List.cons_ne_nil _ _)
  | error fault =>
    cases fault with
    | error reason => exact ⟨reason, rfl⟩
    | panic message => exact absurd ran ((mainnetGenesis_safe _).no_panic message)

end QuipValidator.Presets
