import QuipValidator.MempoolRecords

/-! `on_runtime_upgrade` of `pallet-quantum-compute-mempool` and its check. Storage from
before version 2 is wiped and the default Ising spec put back; storage of version 2 gets
its expiry index; later storage only gets the version. What an upgrade leaves is a
start every later run can rely on. -/
namespace QuipValidator.Mempool
open Fallible StorageDoubleMap

variable {T : Config} {s : State T}

/-- The storage of the pallet with its storage version. -/
structure OnChain (T : Config) where
  version : Nat
  state : State T

def STORAGE_VERSION : Nat := 4

/-- `plain-ising-v1`. -/
def DEFAULT_ISING_SPEC_NAME : List UInt8 := [112, 108, 97, 105, 110, 45, 105, 115, 105, 110, 103, 45, 118, 49]

def defaultIsingSpecName : SpecName := ⟨DEFAULT_ISING_SPEC_NAME, by decide⟩

def defaultIsingSpecId (T : Config) : T.Hash := jobSpecId T defaultIsingSpecName .ising none none

def insertDefaultIsingSpec (env : Env T) (builder : T.AccountId) (emitEvent : Bool) (s : State T) :
    Fallible DispatchError (State T) :=
  insertJobSpec s env builder defaultIsingSpecName .ising none none s.blockNumber emitEvent

/-- Everything under the pallet's prefix is gone. The histories are no storage; they start over. -/
def wipe (s : State T) : State T :=
  { blockNumber := s.blockNumber
    jobSpecs := ∅
    jobOrders := ∅
    nextOrderId := 0
    openOrders := ∅
    ordersExpiringAt := ∅
    nextExpiryBucket := 0
    orderSolutions := ∅
    orderPayeeRequirements := ∅
    orderPayees := ∅
    orderFrontRunner := ∅
    orderTopSolvers := ∅
    solvers := ∅
    proposerOrders := ∅
    orderResults := ∅
    events := []
    logs := []
    balances := { s.balances with movements := [] }
    lastScheduled := fun _ => none }

section Upgrade
-- `builder` is `T::DefaultJobSpecBuilder`.
variable (env : Env T) (builder : T.AccountId)

/-- The wipe, and the default spec as genesis would write it; that it fails is only logged. -/
def reseed (s : State T) : State T :=
  match insertDefaultIsingSpec env builder false (wipe s) with
  | .ok seeded => seeded
  | .error _ => { wipe s with logs := ["on_runtime_upgrade: failed to reseed default Ising spec"] }

def onRuntimeUpgrade (chain : OnChain T) : OnChain T :=
  if STORAGE_VERSION ≤ chain.version then chain
  else
    let s := if chain.version < 2 then reseed env builder chain.state else chain.state
    let s := if chain.version < 3 then indexOpenOrdersForExpiry s else s
    ⟨STORAGE_VERSION, s⟩

def checkWiped (spec : JobSpec T) (s : State T) : Fallible String Unit := do
  ensure (spec.builder = builder) "default Ising spec builder mismatch"
  ensure (s.nextOrderId = 0) "network upgrade must leave orders wiped"

def checkIndexed (s : State T) : Fallible String Unit :=
  (T.iterKeys s.openOrders.keys).forM fun orderId =>
    match s.jobOrders.lookup orderId with
    | none => pure ()
    | some order =>
      if order.status ≠ .opened then pure ()
      else ensure (s.ordersExpiringAt.get (expiryBucket s order.expiry) orderId).isSome
        "open order missing from its expiry bucket"

def onlyIf (condition : Prop) [Decidable condition] (check : Fallible String Unit) : Fallible String Unit :=
  if condition then check else .ok ()

/-- `post_upgrade`, with the version that `pre_upgrade` found. -/
def postUpgrade (preVersion : Nat) (chain : OnChain T) : Fallible String Unit := do
  ensure (STORAGE_VERSION ≤ chain.version) "storage version not bumped"
  let spec ← okOr (chain.state.jobSpecs.lookup (defaultIsingSpecId T)) "default Ising spec missing after network upgrade"
  onlyIf (preVersion < 2) (checkWiped builder spec chain.state)
  onlyIf (preVersion < 3) (checkIndexed chain.state)

end Upgrade

theorem onlyIf_success {condition : Prop} [Decidable condition] {check : Fallible String Unit} {result : Unit} :
    onlyIf condition check = .ok result ↔ (condition → check = .ok ()) := by
  by_cases holds : condition <;> simp [onlyIf, holds]

theorem postUpgrade_ok {builder : T.AccountId} {preVersion : Nat} {chain : OnChain T} :
    postUpgrade builder preVersion chain = .ok () ↔ STORAGE_VERSION ≤ chain.version ∧
      ∃ spec, chain.state.jobSpecs.lookup (defaultIsingSpecId T) = some spec ∧
        (preVersion < 2 → spec.builder = builder ∧ chain.state.nextOrderId = 0) ∧
        (preVersion < 3 → checkIndexed chain.state = .ok ()) := by
  have wiped : ∀ spec : JobSpec T, checkWiped builder spec chain.state = .ok () ↔
      spec.builder = builder ∧ chain.state.nextOrderId = 0 := by
    intro spec
    simp only [checkWiped, bind_success, ensure_success, exists_const]
  simp only [postUpgrade, bind_success, ensure_success, okOr_success, onlyIf_success, wiped, exists_const]

section Index

/-- What indexing an order leaves alone, and that it removes no entry. -/
structure Kept (s next : State T) : Prop where
  same : next = { s with ordersExpiringAt := next.ordersExpiringAt, lastScheduled := next.lastScheduled }
  entries : ∀ bucket orderId, (s.ordersExpiringAt.get bucket orderId).isSome →
    (next.ordersExpiringAt.get bucket orderId).isSome

theorem Kept.trans {middle next : State T} (first : Kept s middle) (second : Kept middle next) : Kept s next :=
  ⟨by rw [second.same, first.same], fun bucket orderId found => second.entries _ _ (first.entries _ _ found)⟩

theorem indexOpenOrder_kept (s : State T) (orderId : Nat) : Kept s (indexOpenOrder s orderId) := by
  unfold indexOpenOrder
  split
  · exact ⟨rfl, fun _ _ found => found⟩
  · split
    · exact ⟨rfl, fun _ _ found => found⟩
    · refine ⟨rfl, fun bucket probe found => ?_⟩
      rw [scheduleExpiry, get_insert]
      split
      · rfl
      · exact found

theorem indexOpenOrders_kept (ids : List Nat) (s : State T) : Kept s (ids.foldl indexOpenOrder s) := by
  induction ids generalizing s with
  | nil => exact ⟨rfl, fun _ _ found => found⟩
  | cons first rest ih => exact (indexOpenOrder_kept s first).trans (ih _)

/-- Every open order the loop met is in its bucket. -/
theorem indexOpenOrders_indexed {ids : List Nat} {orderId : Nat} {order : JobOrder T} (listed : orderId ∈ ids)
    (held : s.jobOrders.lookup orderId = some order) (opened : order.status = .opened) :
    ((ids.foldl indexOpenOrder s).ordersExpiringAt.get (expiryBucket s order.expiry) orderId).isSome := by
  induction ids generalizing s with
  | nil => cases listed
  | cons first rest ih =>
    have kept := indexOpenOrder_kept s first
    rcases List.mem_cons.mp listed with rfl | later
    · refine (indexOpenOrders_kept rest _).entries _ _ ?_
      rw [indexOpenOrder, held]
      simp only [opened, ne_eq, not_true_eq_false, if_false, scheduleExpiry, get_insert]
      rfl
    · have bucket : expiryBucket (indexOpenOrder s first) order.expiry = expiryBucket s order.expiry := by
        rw [expiryBucket, kept.same, expiryBucket]
      rw [List.foldl_cons, ← bucket]
      exact ih later (by rw [kept.same]; exact held)

theorem indexOpenOrdersForExpiry_same (s : State T) :
    (indexOpenOrdersForExpiry s).jobSpecs = s.jobSpecs ∧ (indexOpenOrdersForExpiry s).jobOrders = s.jobOrders ∧
      (indexOpenOrdersForExpiry s).openOrders = s.openOrders := by
  simp only [indexOpenOrdersForExpiry]
  rw [(indexOpenOrders_kept (T.iterKeys s.openOrders.keys) s).same]
  exact ⟨rfl, rfl, rfl⟩

theorem indexOpenOrdersForExpiry_checked (s : State T) : checkIndexed (indexOpenOrdersForExpiry s) = .ok () := by
  obtain ⟨_, orders, openOrders⟩ := indexOpenOrdersForExpiry_same s
  have bucket : ∀ expiry, expiryBucket (indexOpenOrdersForExpiry s) expiry = expiryBucket s expiry := by
    intro expiry
    rw [expiryBucket, indexOpenOrdersForExpiry_blockNumber, expiryBucket]
  refine forM_success.mpr fun orderId listed => ?_
  rw [openOrders] at listed
  rw [orders]
  cases held : s.jobOrders.lookup orderId with
  | none => rfl
  | some order =>
    dsimp only
    split
    · rfl
    · rename_i opened
      rw [bucket]
      exact ensure_success.mpr (indexOpenOrders_indexed listed held (not_not.mp opened))

end Index

section Wiped
variable {env : Env T} {builder : T.AccountId}

/-- The default spec before its first order. -/
def defaultIsingSpec (builder : T.AccountId) (registeredAt : Nat) : JobSpec T where
  builder := builder
  name := defaultIsingSpecName
  formulation := .ising
  validationProgram := none
  transformProgram := none
  registeredAt := registeredAt
  totalOrders := 0
  successfulOrders := 0

/-- A wiped chain has the default spec and nothing else. -/
def reseeded (builder : T.AccountId) (s : State T) : State T :=
  { wipe s with
    jobSpecs := AList.insert (defaultIsingSpecId T) (defaultIsingSpec builder s.blockNumber) ∅
    nextExpiryBucket := saturatingAdd T.maxBlockNumber s.blockNumber 1 }

theorem reseed_indexed (runs : env.vm.validatePrograms none none = .ok ()) (s : State T) :
    indexOpenOrdersForExpiry (reseed env builder s) = reseeded builder s := by
  have seeded : reseed env builder s = { wipe s with
      jobSpecs := AList.insert (defaultIsingSpecId T) (defaultIsingSpec builder s.blockNumber) ∅ } := by
    rw [reseed, insertDefaultIsingSpec, insertJobSpec, runs]
    rfl
  have none : T.iterKeys (∅ : StorageMap Nat Unit).keys = [] := (T.iterKeys_perm _).eq_nil
  rw [seeded, indexOpenOrdersForExpiry]
  simp only [wipe, none, List.foldl_nil]
  rfl

theorem reseeded_noOrders (builder : T.AccountId) (s : State T) : NoOrders (reseeded builder s) :=
  ⟨rfl, rfl, rfl, rfl, Nat.min_le_left _ _, rfl, rfl, rfl, rfl, rfl, rfl, rfl, rfl, rfl, rfl⟩

theorem reseeded_lookup (builder : T.AccountId) (s : State T) (probe : T.Hash) :
    (reseeded builder s).jobSpecs.lookup probe =
      if probe = defaultIsingSpecId T then some (defaultIsingSpec builder s.blockNumber) else none :=
  StorageMap.lookup_insert_ite ∅ _ probe _

theorem reseeded_freshSpecs (builder : T.AccountId) (s : State T) : FreshSpecs (reseeded builder s) := by
  intro specId spec held
  rw [reseeded_lookup] at held
  split at held
  · rename_i same
    cases held
    exact ⟨same, rfl, rfl⟩
  · cases held

end Wiped

/-- An upgrade of the mempool, from any storage, with a VM that accepts a spec without
programs. Its check passes exactly if the default spec is there or the chain was old
enough to be wiped. A wiped chain starts without orders, and in every later run the
default spec is the builder's, of the block of the upgrade, with the orders placed on it.
Version 2 storage is indexed once and for all, and later storage is left as it is. -/
theorem mempool_upgrade_is_sound {env : Env T} (runs : env.vm.validatePrograms none none = .ok ()) (builder : T.AccountId)
    (chain : OnChain T) {after : State T} (upgraded : (onRuntimeUpgrade env builder chain).state = after) :
    (postUpgrade builder chain.version (onRuntimeUpgrade env builder chain) = .ok () ↔
      (2 ≤ chain.version → (chain.state.jobSpecs.lookup (defaultIsingSpecId T)).isSome)) ∧
    (chain.version < 2 → NoOrders after ∧ ∀ steps, FewOrders ((machine T).run after steps) →
      ∃ spec, ((machine T).run after steps).jobSpecs.lookup (defaultIsingSpecId T) = some spec ∧
        spec.builder = builder ∧ spec.registeredAt = chain.state.blockNumber ∧
        spec.totalOrders = countOrders ((machine T).run after steps) (placed (defaultIsingSpecId T))) ∧
    (chain.version = 2 → V2Storage chain.state → ∀ steps, Unsaturated ((machine T).run after steps) →
      ExpiryIndex ((machine T).run after steps)) ∧
    (3 ≤ chain.version → after = chain.state) := by
  subst upgraded
  have wiped : chain.version < 2 → onRuntimeUpgrade env builder chain = ⟨STORAGE_VERSION, reseeded builder chain.state⟩ := by
    intro ancient
    simp only [onRuntimeUpgrade, STORAGE_VERSION, if_neg (show ¬ 4 ≤ chain.version by omega), if_pos ancient,
      if_pos (show chain.version < 3 by omega), reseed_indexed runs]
  have indexed : chain.version = 2 →
      onRuntimeUpgrade env builder chain = ⟨STORAGE_VERSION, indexOpenOrdersForExpiry chain.state⟩ := by
    intro second
    simp only [onRuntimeUpgrade, STORAGE_VERSION, second]
    rfl
  have kept : 3 ≤ chain.version → STORAGE_VERSION ≤ (onRuntimeUpgrade env builder chain).version ∧
      (onRuntimeUpgrade env builder chain).state = chain.state := by
    intro recent
    unfold onRuntimeUpgrade
    split
    · exact ⟨by assumption, rfl⟩
    · simp only [if_neg (show ¬ chain.version < 2 by omega), if_neg (show ¬ chain.version < 3 by omega)]
      exact ⟨Nat.le_refl _, trivial⟩
  refine ⟨?_, ?_, ?_, fun recent => (kept recent).2⟩
  · rcases Nat.lt_or_ge chain.version 2 with ancient | carried
    · rw [wiped ancient]
      refine iff_of_true ?_ (fun carried => absurd ancient (Nat.not_lt.mpr carried))
      have found := reseeded_lookup builder chain.state (defaultIsingSpecId T)
      rw [if_pos rfl] at found
      have checked := indexOpenOrdersForExpiry_checked (reseed env builder chain.state)
      rw [reseed_indexed runs] at checked
      exact postUpgrade_ok.mpr ⟨Nat.le_refl _, _, found, fun _ => ⟨rfl, rfl⟩, fun _ => checked⟩
    · have specs : (onRuntimeUpgrade env builder chain).state.jobSpecs = chain.state.jobSpecs := by
        rcases Nat.eq_or_lt_of_le carried with second | recent
        · rw [indexed second.symm]
          exact (indexOpenOrdersForExpiry_same chain.state).1
        · rw [(kept recent).2]
      have version : STORAGE_VERSION ≤ (onRuntimeUpgrade env builder chain).version := by
        rcases Nat.eq_or_lt_of_le carried with second | recent
        · rw [indexed second.symm]
        · exact (kept recent).1
      rw [postUpgrade_ok, specs, Option.isSome_iff_exists]
      constructor
      · rintro ⟨_, spec, held, _⟩ _
        exact ⟨spec, held⟩
      · intro found
        obtain ⟨spec, held⟩ := found carried
        refine ⟨version, spec, held, fun ancient => absurd ancient (Nat.not_lt.mpr carried), fun second => ?_⟩
        rw [indexed (by omega)]
        exact indexOpenOrdersForExpiry_checked chain.state
  · intro ancient
    rw [wiped ancient]
    have fresh := reseeded_noOrders builder chain.state
    refine ⟨fresh, fun steps few => ?_⟩
    obtain ⟨book, grown⟩ := run_specs fresh (reseeded_freshSpecs builder chain.state) steps few
    have found := reseeded_lookup builder chain.state (defaultIsingSpecId T)
    rw [if_pos rfl] at found
    obtain ⟨spec, held, grows⟩ := grown [] steps rfl _ _ found
    refine ⟨spec, held, ?_, ?_, book.total _ _ held⟩
    · rw [grows.same]
      rfl
    · rw [grows.same]
      rfl
  · intro second old steps within
    rw [indexed second] at within ⊢
    exact run_expiryIndex (.inr ⟨_, old, rfl⟩) steps within

/-- Block 1 of the small runtime with an order of version 1 storage, wiped. -/
theorem mempool_upgrade_is_sound_tiny :
    postUpgrade (9 : Nat) 1
      (onRuntimeUpgrade tinyEnv (9 : Nat) ⟨1, (machine tinyConfig).run tinyGenesis tinyOpening⟩) = .ok () := by
  obtain ⟨accepts, _⟩ := @mempool_upgrade_is_sound tinyConfig tinyEnv rfl (9 : Nat)
    ⟨1, (machine tinyConfig).run tinyGenesis tinyOpening⟩ _ rfl
  exact accepts.mpr fun carried => absurd carried (by decide)

end QuipValidator.Mempool
