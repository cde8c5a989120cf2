import QuipValidator.MinerRegistry

/-! The migration of the descriptors from the first layout to the current one.

`drain` reads every entry with the current type. An entry that does not decode is
removed all the same, and nothing is returned for it; an entry written before the two
trailing fields existed never decodes. -/
namespace QuipValidator.Registry
open Fallible Scale

variable {T : Config}

/-- What the drain returns for a raw entry. -/
def returned (T : Config) (raw : Option Bytes) : Nat :=
  ((raw.bind (decodeDescriptor T)).map fun descriptor => descriptor.deposit).getD 0

section Drain

variable (s : State T) (entry : Σ _ : T.AccountId, Bytes)

private theorem drainEntry_nodeDescriptors :
    (drainEntry s entry).nodeDescriptors = s.nodeDescriptors.erase entry.1 := by
  unfold drainEntry
  dsimp only
  split <;> rfl

private theorem drainEntry_reserved (who : T.AccountId) :
    (drainEntry s entry).reserved who =
      if who = entry.1 then s.reserved who - returned T (some entry.2) else s.reserved who := by
  unfold drainEntry returned
  cases read : decodeDescriptor T entry.2 with
  | none => simp [read]
  | some descriptor =>
    simp only [State.unreserve, Option.bind_some, read, Option.map_some, Option.getD_some]
    by_cases same : who = entry.1
    · subst same
      rw [if_pos rfl, if_pos rfl]
      omega
    · rw [if_neg same, if_neg same]

end Drain

private theorem drain_lookup (entries : List (Σ _ : T.AccountId, Bytes)) (s : State T) (who : T.AccountId)
    (covered : s.nodeDescriptors.lookup who ≠ none → who ∈ entries.keys) :
    (entries.foldl drainEntry s).nodeDescriptors.lookup who = none := by
  induction entries generalizing s with
  | nil =>
    by_contra held
    cases covered held
  | cons entry rest ih =>
    apply ih
    rw [drainEntry_nodeDescriptors, StorageMap.lookup_erase_ite]
    intro held
    by_cases same : who = entry.1
    · rw [if_pos same] at held
      exact absurd rfl held
    · rw [if_neg same] at held
      have member := covered held
      rw [List.keys_cons] at member
      exact (List.mem_cons.mp member).resolve_left same

private theorem drain_reserved (entries : List (Σ _ : T.AccountId, Bytes)) (s : State T) (who : T.AccountId)
    (distinct : entries.NodupKeys) :
    (entries.foldl drainEntry s).reserved who = s.reserved who - returned T (entries.dlookup who) := by
  induction entries generalizing s with
  | nil => rfl
  | cons entry rest ih =>
    rw [List.foldl_cons, ih (drainEntry s entry) (List.nodupKeys_of_nodupKeys_cons distinct), drainEntry_reserved]
    by_cases same : who = entry.1
    · -- the account's own entry, so none of the entries behind it
      subst same
      have absent := List.dlookup_eq_none.mpr (List.notMem_keys_of_nodupKeys_cons distinct)
      rw [if_pos rfl, absent, List.dlookup_cons_eq]
      rfl
    · rw [if_neg same, List.dlookup_cons_ne rest entry same]

/-- The drain leaves no entry behind, whatever the entries were. -/
theorem innerMigrateToV2_lookup (s : State T) (who : T.AccountId) :
    (innerMigrateToV2 s).nodeDescriptors.lookup who = none := by
  apply drain_lookup
  intro held
  obtain ⟨raw, found⟩ := Option.ne_none_iff_exists'.mp held
  exact (StorageMap.mem_keys_iff_lookup s.nodeDescriptors who).mpr ⟨raw, found⟩

/-- Each account gets back the deposit its entry decodes to, and nothing else. -/
theorem innerMigrateToV2_reserved (s : State T) (who : T.AccountId) :
    (innerMigrateToV2 s).reserved who = s.reserved who - returned T (s.nodeDescriptors.lookup who) :=
  drain_reserved s.nodeDescriptors.entries s who s.nodeDescriptors.nodupKeys

/-- An entry of the first layout ends where the current type expects two more fields. -/
theorem decodeDescriptor_v1 {d : NodeDescriptorV1} (valid : (nodeDescriptorV1 T).valid d) :
    decodeDescriptor T ((nodeDescriptorV1 T).encode d) = none := by
  have unread := Codec.pair_decode_none (nodeDescriptorV1 T)
    (Codec.pair (Codec.option (systemInfo T)) (Codec.option (runtimeInfo T))) valid rfl
  simp only [decodeDescriptor, nodeDescriptor, Codec.record, unread, Option.map_none]

/-- An entry of the current layout decodes to the descriptor written. -/
theorem decodeDescriptor_encode {d : NodeDescriptor} (valid : (nodeDescriptor T).valid d) :
    decodeDescriptor T ((nodeDescriptor T).encode d) = some d := by
  have read := (nodeDescriptor T).decode_encode d [] valid
  rw [List.append_nil] at read
  rw [decodeDescriptor, read, Option.map_some]

/-- The deposit that `replace_descriptor` counts as already reserved. -/
def heldDeposit (s : State T) (who : T.AccountId) : Nat := returned T (s.nodeDescriptors.lookup who)

private theorem shiftDeposit_reserved {refused : Bool} {who : T.AccountId} {previousDeposit nextDeposit : Nat}
    {s after : State T} (backed : previousDeposit ≤ s.reserved who)
    (moved : s.shiftDeposit refused who previousDeposit nextDeposit = .ok after) :
    after.reserved who + previousDeposit = s.reserved who + nextDeposit := by
  unfold State.shiftDeposit at moved
  by_cases more : previousDeposit < nextDeposit
  · rw [if_pos more] at moved
    unfold State.reserve at moved
    split at moved
    · cases moved
    · cases moved
      simp only [if_pos]
      omega
  · rw [if_neg more] at moved
    by_cases less : nextDeposit < previousDeposit
    · rw [if_pos less] at moved
      cases moved
      simp only [State.unreserve, if_pos]
      omega
    · rw [if_neg less] at moved
      cases moved
      omega

/-- Filing a descriptor moves the account's reserve by the difference of the two deposits. -/
theorem replaceDescriptor_reserved {refused : Bool} {who : T.AccountId} {descriptor : NodeDescriptor}
    {payloadHash : Bytes} {s after : State T} (backed : heldDeposit s who ≤ s.reserved who)
    (filed : replaceDescriptor refused who descriptor payloadHash s = .ok after) :
    after.reserved who + heldDeposit s who = s.reserved who + descriptor.deposit := by
  obtain ⟨shifted, moved, stored⟩ := bind_success.mp filed
  have shift := shiftDeposit_reserved backed moved
  cases stored
  exact shift

/-- For an entry in the current layout the migration does return the deposit. -/
theorem migrateToV2_current {s : State T} {who : T.AccountId} {d : NodeDescriptor} (version : s.storageVersion = 1)
    (valid : (nodeDescriptor T).valid d) (held : s.nodeDescriptors.lookup who = some ((nodeDescriptor T).encode d)) :
    (migrateToV2 s).reserved who = s.reserved who - d.deposit := by
  have reserved := innerMigrateToV2_reserved s who
  rw [held, returned, Option.bind_some, decodeDescriptor_encode valid] at reserved
  rw [migrateToV2, if_pos version]
  exact reserved

/-- A storage of the first version: every entry is a descriptor in the first layout, and
its deposit is reserved. -/
structure V1Storage (s : State T) (descriptors : StorageMap T.AccountId NodeDescriptorV1) : Prop where
  version : s.storageVersion = 1
  encoded : ∀ who, s.nodeDescriptors.lookup who = (descriptors.lookup who).map (nodeDescriptorV1 T).encode
  valid : ∀ who d, descriptors.lookup who = some d → (nodeDescriptorV1 T).valid d
  backed : ∀ who d, descriptors.lookup who = some d → d.deposit ≤ s.reserved who

/-- What the migration is for: no descriptor is left, every account's reserve is reduced by
exactly its stored deposit, and filing again reserves the new deposit once. -/
structure ReturnsDeposits (s : State T) (descriptors : StorageMap T.AccountId NodeDescriptorV1) : Prop where
  emptied : ∀ who, (migrateToV2 s).nodeDescriptors.lookup who = none
  reduced : ∀ who d, descriptors.lookup who = some d →
    (migrateToV2 s).reserved who + d.deposit = s.reserved who
  others : ∀ who, descriptors.lookup who = none → (migrateToV2 s).reserved who = s.reserved who
  refiled : ∀ who d, descriptors.lookup who = some d → ∀ refused descriptor payloadHash after,
    replaceDescriptor refused who descriptor payloadHash (migrateToV2 s) = .ok after →
      after.reserved who + d.deposit = s.reserved who + descriptor.deposit

namespace V1Storage

variable {s : State T} {descriptors : StorageMap T.AccountId NodeDescriptorV1}

private theorem migrated (layout : V1Storage s descriptors) :
    migrateToV2 s = { innerMigrateToV2 s with storageVersion := 2 } := if_pos layout.version

private theorem emptied (layout : V1Storage s descriptors) (who : T.AccountId) :
    (migrateToV2 s).nodeDescriptors.lookup who = none := by
  rw [layout.migrated]
  exact innerMigrateToV2_lookup s who

/-- No reserve moves: the drain decodes none of the entries. -/
private theorem reserved_unchanged (layout : V1Storage s descriptors) (who : T.AccountId) :
    (migrateToV2 s).reserved who = s.reserved who := by
  have nothing : returned T (s.nodeDescriptors.lookup who) = 0 := by
    rw [layout.encoded who]
    cases held : descriptors.lookup who with
    | none => rfl
    | some d => simp [returned, decodeDescriptor_v1 (layout.valid who d held)]
  rw [layout.migrated]
  exact (innerMigrateToV2_reserved s who).trans (by rw [nothing, Nat.sub_zero])

/-- After the migration a new descriptor reserves its whole deposit on top. -/
private theorem refiled_reserved (layout : V1Storage s descriptors) {refused : Bool} {who : T.AccountId}
    {descriptor : NodeDescriptor} {payloadHash : Bytes} {after : State T}
    (filed : replaceDescriptor refused who descriptor payloadHash (migrateToV2 s) = .ok after) :
    after.reserved who = s.reserved who + descriptor.deposit := by
  have unfiled : heldDeposit (migrateToV2 s) who = 0 := by
    rw [heldDeposit, layout.emptied who]
    rfl
  have moved := replaceDescriptor_reserved (unfiled ▸ Nat.zero_le _) filed
  rw [unfiled, layout.reserved_unchanged who] at moved
  exact moved

end V1Storage

/-- From a storage of the first version the migration does what it is for exactly if no
deposit was stored. -/
theorem migrateToV2_returnsDeposits_iff (s : State T) (descriptors : StorageMap T.AccountId NodeDescriptorV1)
    (layout : V1Storage s descriptors) :
    ReturnsDeposits s descriptors ↔ ∀ who d, descriptors.lookup who = some d → d.deposit = 0 := by
  constructor
  · intro returns who d held
    have reduced := returns.reduced who d held
    rw [layout.reserved_unchanged who] at reduced
    omega
  · intro free
    constructor
    · exact layout.emptied
    · intro who d held
      rw [layout.reserved_unchanged who, free who d held, Nat.add_zero]
    · exact fun who _ => layout.reserved_unchanged who
    · intro who d held refused descriptor payloadHash after filed
      rw [layout.refiled_reserved filed, free who d held, Nat.add_zero]

def tinyConfig : Config where
  AccountId := Nat
  decEqAccountId := inferInstance
  maxNodeIdBytes := 4
  maxNodeNameBytes := 4
  maxPublicHostBytes := 4
  maxRpcEndpointBytes := 4
  maxRpcEndpoints := 2
  maxMinerLabelBytes := 4
  maxMinerBackendBytes := 4
  maxMinerDeviceIdBytes := 4
  maxMinerSpecs := 2
  maxOsStringBytes := 4
  maxCpuBrandBytes := 4
  maxArchBytes := 4
  maxGpuVendorBytes := 4
  maxGpuNameBytes := 4
  maxGpus := 2
  maxRuntimeVersionBytes := 4
  maxDockerImageBytes := 4

/-- One CPU miner without any of the optional fields. -/
def tinyDescriptor (deposit : Nat) : NodeDescriptorV1 where
  schemaVersion := 1
  nodeId := [110, 49]
  nodeName := [110]
  publicHost := none
  publicPort := none
  rpcEndpoints := []
  autoMine := true
  logLevel := .info
  miners := [{ kind := .cpu, label := none, backend := none, deviceId := none }]
  payloadHash := List.replicate 32 0
  updatedAt := 5
  deposit := deposit

def tinyAccount : tinyConfig.AccountId := (7 : Nat)

/-- The one descriptor stored. -/
def tinyDescriptors (deposit : Nat) : StorageMap tinyConfig.AccountId NodeDescriptorV1 :=
  AList.insert tinyAccount (tinyDescriptor deposit) ∅

/-- Its storage: the deposit is reserved, and 90 are free. -/
def tinyStorage (deposit : Nat) : State tinyConfig where
  storageVersion := 1
  nodeDescriptors := AList.insert tinyAccount ((nodeDescriptorV1 tinyConfig).encode (tinyDescriptor deposit)) ∅
  free := fun who => if who = tinyAccount then 90 else 0
  reserved := fun who => if who = tinyAccount then deposit else 0

private theorem tinyStorage_reserved (deposit : Nat) : (tinyStorage deposit).reserved tinyAccount = deposit := by
  simp only [tinyStorage, if_pos]

private theorem tinyDescriptors_lookup {deposit : Nat} {who : tinyConfig.AccountId} {d : NodeDescriptorV1}
    (held : (tinyDescriptors deposit).lookup who = some d) : who = tinyAccount ∧ d = tinyDescriptor deposit := by
  rw [tinyDescriptors, StorageMap.lookup_insert_ite] at held
  split at held
  · rename_i same
    exact ⟨same, (Option.some.inj held).symm⟩
  · cases held

private theorem option_valid_none {α : Type} (item : Codec α) : (Codec.option item).valid none := by
  intro held impossible
  cases impossible

private theorem tinyText_valid {value : Bytes} (short : value.length ≤ 4) : (byteString 4).valid value :=
  ⟨short, Nat.lt_of_le_of_lt short (by decide), fun _ _ => trivial⟩

private theorem tinyMiners_valid : (Codec.vec 2 (minerSpec tinyConfig)).valid (tinyDescriptor 0).miners := by
  refine ⟨by decide, by decide, fun spec member => ?_⟩
  rw [List.mem_singleton.mp member]
  exact ⟨⟨List.mem_cons_self, by decide⟩, option_valid_none _, option_valid_none _, option_valid_none _⟩

private theorem tinyDescriptor_valid {deposit : Nat} (fits : deposit < 2 ^ 128) :
    (nodeDescriptorV1 tinyConfig).valid (tinyDescriptor deposit) := by
  have schema : (1 : Nat) < 2 ^ 16 := by decide
  have nodeId : (byteString 4).valid [110, 49] := tinyText_valid (by decide)
  have nodeName : (byteString 4).valid [110] := tinyText_valid (by decide)
  have endpoints : (Codec.vec 2 (byteString 4)).valid [] := ⟨by decide, by decide, fun _ member => by cases member⟩
  have autoMine : Codec.bool.valid true := ⟨by decide, by decide⟩
  have logLevel : (Codec.variants [LogLevel.debug, .info, .warning, .error]).valid .info := ⟨by decide, by decide⟩
  have updatedAt : (5 : Nat) < 2 ^ 32 := by decide
  exact ⟨schema, nodeId, nodeName, option_valid_none _, option_valid_none _, endpoints, autoMine, logLevel,
    tinyMiners_valid, rfl, updatedAt, fits⟩

private theorem tinyStorage_layout {deposit : Nat} (fits : deposit < 2 ^ 128) :
    V1Storage (tinyStorage deposit) (tinyDescriptors deposit) := by
  constructor
  · rfl
  · intro who
    simp only [tinyStorage, tinyDescriptors, StorageMap.lookup_insert_ite]
    split <;> rfl
  · intro who d held
    rw [(tinyDescriptors_lookup held).2]
    exact tinyDescriptor_valid fits
  · intro who d held
    obtain ⟨rfl, rfl⟩ := tinyDescriptors_lookup held
    exact Nat.le_of_eq (tinyStorage_reserved deposit).symm

theorem migrateToV2_returnsDeposits_iff_tinyStorage :
    ReturnsDeposits (tinyStorage 0) (tinyDescriptors 0) ∧ ¬ ReturnsDeposits (tinyStorage 16) (tinyDescriptors 16) := by
  constructor
  · apply (migrateToV2_returnsDeposits_iff _ _ (tinyStorage_layout (by decide))).mpr
    intro who d held
    rw [(tinyDescriptors_lookup held).2]
    rfl
  · intro returns
    have free := (migrateToV2_returnsDeposits_iff _ _ (tinyStorage_layout (by decide))).mp returns
    cases free tinyAccount (tinyDescriptor 16) (AList.lookup_insert _)

/-- The entry is gone, its deposit of 16 is still reserved, and filing the same
descriptor again reserves 16 more. -/
theorem v1_deposit_stranded :
    V1Storage (tinyStorage 16) (tinyDescriptors 16) ∧
    (migrateToV2 (tinyStorage 16)).nodeDescriptors.lookup tinyAccount = none ∧
    (migrateToV2 (tinyStorage 16)).reserved tinyAccount = 16 ∧
    (replaceDescriptor false tinyAccount { tinyDescriptor 16 with systemInfo := none, runtime := none }
      (List.replicate 32 0) (migrateToV2 (tinyStorage 16))).map (fun after => after.reserved tinyAccount) = .ok 32 ∧
    ¬ ReturnsDeposits (tinyStorage 16) (tinyDescriptors 16) := by
  have layout : V1Storage (tinyStorage 16) (tinyDescriptors 16) := tinyStorage_layout (by decide)
  have kept : (migrateToV2 (tinyStorage 16)).reserved tinyAccount = 16 :=
    (layout.reserved_unchanged tinyAccount).trans (tinyStorage_reserved 16)
  refine ⟨layout, layout.emptied tinyAccount, kept, ?_, ?_⟩
  · rfl
  · intro returns
    have reduced := returns.reduced tinyAccount (tinyDescriptor 16) (AList.lookup_insert _)
    rw [kept] at reduced
    cases reduced

end QuipValidator.Registry
