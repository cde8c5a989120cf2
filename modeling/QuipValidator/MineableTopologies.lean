import QuipValidator.PowViews
import QuipValidator.PowRounds

/-! The mineable whitelist. Only the default topology and at most one other may be
mined; registering, repointing the default, adding and removing all keep it so,
in whatever order they and the hooks run. Difficulties and curve overrides are
only ever written for registered topologies. -/
namespace QuipValidator.Pow

variable {T : Config} {s s' s₀ : State T}

def Registered (s : State T) (hash : H256) : Prop := (s.registeredTopologies.lookup hash).isSome

def Mineable (s : State T) (hash : H256) : Prop := (s.mineableTopologies.lookup hash).isSome

/-- The whitelist in order. -/
structure Whitelist (s : State T) : Prop where
  named : s.defaultTopology.isSome ↔ ∃ hash, Registered s hash
  defaultMineable : ∀ hash, s.defaultTopology = some hash → Mineable s hash
  mineableRegistered : ∀ hash, Mineable s hash → Registered s hash
  oneOther : ∀ hash other, Mineable s hash → Mineable s other → s.defaultTopology ≠ some hash →
    s.defaultTopology ≠ some other → hash = other
  difficulties : ∀ hash, (s.difficulties.lookup hash).isSome → Registered s hash
  curves : ∀ hash, (s.topologyCurveC.lookup hash).isSome → Registered s hash
  /-- The proof in front was checked against a registered topology. -/
  front : ∀ record, s.blockBestProof = some record → Registered s record.topologyHash

theorem Genesis.whitelist (genesis : Genesis s₀) : Whitelist s₀ := by
  constructor <;>
    simp [Registered, Mineable, genesis.registeredTopologies, genesis.defaultTopology, genesis.mineableTopologies,
      genesis.difficulties, genesis.topologyCurveC, genesis.noQBlocks.blockBestProof]

/-- Only the topology storage and the proof in front matter. -/
private theorem Whitelist.same (held : Whitelist s) (registered : s'.registeredTopologies = s.registeredTopologies)
    (named : s'.defaultTopology = s.defaultTopology) (mineable : s'.mineableTopologies = s.mineableTopologies)
    (difficulties : s'.difficulties = s.difficulties) (curves : s'.topologyCurveC = s.topologyCurveC)
    (front : ∀ record, s'.blockBestProof = some record → Registered s record.topologyHash) : Whitelist s' := by
  constructor
  · simpa only [Registered, named, registered] using held.named
  · simpa only [Mineable, named, mineable] using held.defaultMineable
  · simpa only [Mineable, Registered, registered, mineable] using held.mineableRegistered
  · simpa only [Mineable, named, mineable] using held.oneOther
  · simpa only [Registered, registered, difficulties] using held.difficulties
  · simpa only [Registered, registered, curves] using held.curves
  · simpa only [Registered, registered] using front

/-- A write to a map at a registered key. -/
private theorem registered_of_insert {V : Type} {entries : StorageMap H256 V} {key : H256} {value : V}
    (held : ∀ hash, (entries.lookup hash).isSome → Registered s hash) (registered : Registered s key) :
    ∀ hash, ((entries.insert key value).lookup hash).isSome → Registered s hash := by
  intro hash written
  rcases (StorageMap.isSome_lookup_insert entries key hash value).mp written with rfl | kept
  · exact registered
  · exact held hash kept

private theorem whitelist_registerTopology (held : Whitelist s) {origin : Origin T.AccountId}
    {registration : Registration T} (moved : Moved s origin s' (.registerTopology registration)) : Whitelist s' := by
  obtain ⟨_, specs, events, _, fresh, rfl⟩ := moved
  generalize key : registration.hash specs = topologyHash at fresh ⊢
  -- The new entry only adds to what is registered.
  have grown : ∀ {entries : StorageMap H256 (TopologyMeta T)} {value : TopologyMeta T} (hash : H256),
      (entries.lookup hash).isSome → ((entries.insert topologyHash value).lookup hash).isSome :=
    fun hash found => (StorageMap.isSome_lookup_insert _ _ hash _).mpr (.inr found)
  have own : ∀ {entries : StorageMap H256 (TopologyMeta T)} {value : TopologyMeta T},
      ((entries.insert topologyHash value).lookup topologyHash).isSome :=
    (StorageMap.isSome_lookup_insert _ _ _ _).mpr (.inl rfl)
  cases named : s.defaultTopology with
  | some hash =>
    refine ⟨?_, ?_, ?_, ?_, ?_, ?_, ?_⟩
    · exact iff_of_true rfl ⟨topologyHash, own⟩
    · intro probe same
      exact held.defaultMineable probe (named.trans same)
    · exact fun probe listed => grown probe (held.mineableRegistered probe listed)
    · have apart := held.oneOther
      rw [named] at apart
      exact apart
    · exact fun probe listed => grown probe (held.difficulties probe listed)
    · exact fun probe listed => grown probe (held.curves probe listed)
    · exact fun record front => grown _ (held.front record front)
  | none =>
    -- Nothing was registered, so the whitelist was empty.
    have empty : ∀ hash, ¬ Registered s hash := by
      intro hash registered
      have impossible := held.named.mpr ⟨hash, registered⟩
      rw [named] at impossible
      cases impossible
    have only : ∀ hash, ((s.mineableTopologies.insert topologyHash ()).lookup hash).isSome → hash = topologyHash := by
      intro hash listed
      rcases (StorageMap.isSome_lookup_insert _ _ hash _).mp listed with same | before
      · exact same
      · exact absurd (held.mineableRegistered hash before) (empty hash)
    refine ⟨?_, ?_, ?_, ?_, ?_, ?_, ?_⟩
    · exact iff_of_true rfl ⟨topologyHash, own⟩
    · rintro probe same
      cases same
      exact (StorageMap.isSome_lookup_insert _ _ _ _).mpr (.inl rfl)
    · intro probe listed
      rw [only probe listed]
      exact own
    · intro probe other first second _ _
      rw [only probe first, only other second]
    · exact fun probe listed => absurd (held.difficulties probe listed) (empty probe)
    · exact fun probe listed => absurd (held.curves probe listed) (empty probe)
    · exact fun record front => absurd (held.front record front) (empty _)

private theorem whitelist_setDefaultTopology (held : Whitelist s) {origin : Origin T.AccountId} {topologyHash : H256}
    (moved : Moved s origin s' (.setDefaultTopology topologyHash)) : Whitelist s' := by
  obtain ⟨_, registered, mineable, events, rfl⟩ := moved
  refine ⟨iff_of_true rfl ⟨topologyHash, registered⟩, ?_, held.mineableRegistered, ?_, held.difficulties, held.curves,
    held.front⟩
  · intro hash same
    cases same
    exact mineable
  · -- Both hashes differ from the new default. One of them may be the old default, the other is then
    -- the one non-default hash, which the new default already is.
    intro hash other first second apart away
    have notHash : hash ≠ topologyHash := fun same => apart (congrArg some same.symm)
    have notOther : other ≠ topologyHash := fun same => away (congrArg some same.symm)
    by_cases old : s.defaultTopology = some topologyHash
    · exact held.oneOther hash other first second (old ▸ apart) (old ▸ away)
    · have isDefault : ∀ probe, Mineable s probe → probe ≠ topologyHash → s.defaultTopology = some probe := by
        intro probe listed different
        by_contra nondefault
        exact different (held.oneOther probe topologyHash listed mineable nondefault old)
      have both := (isDefault hash first notHash).symm.trans (isDefault other second notOther)
      exact Option.some.inj both

private theorem whitelist_addMineableTopology (held : Whitelist s) {origin : Origin T.AccountId} {topologyHash : H256}
    (moved : Moved s origin s' (.addMineableTopology topologyHash)) : Whitelist s' := by
  obtain ⟨_, registered, rfl | ⟨absent, room, events, rfl⟩⟩ := moved
  · exact held
  -- The default is already on the list, so the new hash is not it.
  have alone : ∀ hash, Mineable s hash → s.defaultTopology = some hash := by
    rcases room with same | alone
    · have listed := held.defaultMineable topologyHash same.symm
      rw [Mineable, absent] at listed
      cases listed
    · intro hash listed
      exact (alone hash ((StorageMap.mem_keys_iff_lookup _ hash).mpr (Option.isSome_iff_exists.mp listed))).symm
  refine ⟨held.named, ?_, ?_, ?_, held.difficulties, held.curves, held.front⟩
  · intro hash same
    exact (StorageMap.isSome_lookup_insert _ _ hash _).mpr (.inr (held.defaultMineable hash same))
  · exact registered_of_insert held.mineableRegistered registered
  · have isNew : ∀ hash, ((s.mineableTopologies.insert topologyHash ()).lookup hash).isSome →
        s.defaultTopology ≠ some hash → hash = topologyHash := by
      intro hash listed apart
      rcases (StorageMap.isSome_lookup_insert _ _ hash _).mp listed with same | before
      · exact same
      · exact absurd (alone hash before) apart
    intro hash other first second apart away
    rw [isNew hash first apart, isNew other second away]

private theorem whitelist_removeMineableTopology (held : Whitelist s) {origin : Origin T.AccountId}
    {topologyHash : H256} (moved : Moved s origin s' (.removeMineableTopology topologyHash)) : Whitelist s' := by
  obtain ⟨_, nondefault, rfl | ⟨events, rfl⟩⟩ := moved
  · exact held
  have listedBefore : ∀ hash, ((s.mineableTopologies.erase topologyHash).lookup hash).isSome → Mineable s hash :=
    fun hash listed => ((StorageMap.isSome_lookup_erase _ _ hash).mp listed).2
  refine ⟨held.named, ?_, ?_, ?_, held.difficulties, held.curves, held.front⟩
  · intro hash same
    have other : hash ≠ topologyHash := by
      rintro rfl
      exact nondefault same
    exact (StorageMap.isSome_lookup_erase _ _ hash).mpr ⟨other, held.defaultMineable hash same⟩
  · exact fun hash listed => held.mineableRegistered hash (listedBefore hash listed)
  · intro hash other first second
    exact held.oneOther hash other (listedBefore hash first) (listedBefore other second)

private theorem checkProof_registered {who : T.AccountId} {proof : QuantumProof T} {validation : ProofValidation}
    (checked : checkProof s who proof = .ok validation) : Registered s proof.topologyHash := by
  simp only [checkProof, Fallible.bind_success, Fallible.ensure_success, Fallible.okOr_success] at checked
  obtain ⟨_, _, _, _, _, _, topology, found, _⟩ := checked
  rw [Registered, found]
  rfl

private theorem whitelist_recordProof (held : Whitelist s) {who : T.AccountId} {proof : QuantumProof T}
    {validation : ProofValidation} (miner : MinerInfo) (checked : checkProof s who proof = .ok validation) :
    Whitelist (recordProof s who proof validation miner) := by
  refine held.same rfl rfl rfl rfl rfl ?_
  intro record front
  rw [recordProof_blockBestProof] at front
  rcases frontAfter_or s.blockBestProof ((acceptedBy s who proof validation).record s.blockNumber) with new | old
  · rw [new] at front
    cases front
    exact checkProof_registered checked
  · rw [old] at front
    exact held.front record front

theorem whitelist_execute (held : Whitelist s) {env : Env T} {origin : Origin T.AccountId} {call : Call T}
    (ran : execute s env origin call = .ok s') : Whitelist s' := by
  have moved := execute_moved ran
  cases call with
  | registerTopology registration => exact whitelist_registerTopology held moved
  | setDefaultTopology topologyHash => exact whitelist_setDefaultTopology held moved
  | addMineableTopology topologyHash => exact whitelist_addMineableTopology held moved
  | removeMineableTopology topologyHash => exact whitelist_removeMineableTopology held moved
  | submitProof proof =>
    obtain ⟨_, _, miner, _, checked, rfl⟩ := moved
    exact whitelist_recordProof held miner checked
  | setDifficulty topologyHash difficulty =>
    obtain ⟨_, registered, _, rfl⟩ := moved
    exact ⟨held.named, held.defaultMineable, held.mineableRegistered, held.oneOther,
      registered_of_insert held.difficulties registered, held.curves, held.front⟩
  | setTopologyCurve topologyHash curveC =>
    obtain ⟨_, registered, _, rfl⟩ := moved
    exact ⟨held.named, held.defaultMineable, held.mineableRegistered, held.oneOther, held.difficulties,
      registered_of_insert held.curves registered, held.front⟩
  | registerMiner =>
    obtain ⟨_, _, _, rfl⟩ := moved
    exact held.same rfl rfl rfl rfl rfl held.front
  | deregisterMiner =>
    obtain ⟨_, _, _, rfl⟩ := moved
    exact held.same rfl rfl rfl rfl rfl held.front
  | setBlockReward amount =>
    obtain ⟨_, rfl⟩ := moved
    exact held.same rfl rfl rfl rfl rfl held.front
  | setTargetProofBlocks blocks =>
    obtain ⟨_, rfl⟩ := moved
    exact held.same rfl rfl rfl rfl rfl held.front

theorem whitelist_body (held : Whitelist s) (action : Action T) : Whitelist ((body T).next s action) := by
  cases action with
  | external balances => exact held.same rfl rfl rfl rfl rfl held.front
  | dispatch env origin call =>
    simp only [body]
    cases ran : execute s env origin call with
    | error fault => exact held
    | ok after => exact whitelist_execute held ran

theorem whitelist_onInitialize (held : Whitelist s) (n : Nat) : Whitelist (onInitialize s n) := by
  simp only [onInitialize]
  split <;> exact held.same rfl rfl rfl rfl rfl held.front

theorem whitelist_onFinalize (held : Whitelist s) (pay : T.AccountId → Nat → Nat) (n : Nat) :
    Whitelist (committed s (onFinalize s pay n)) := by
  obtain ⟨after, ran, ended⟩ := onFinalize_moves s pay n
  rw [ran]
  show Whitelist after
  rcases ended with ⟨_, rfl⟩ | ⟨record, reward, next, miners, logs, events, front, rfl⟩
  · exact held
  · exact ⟨held.named, held.defaultMineable, held.mineableRegistered, held.oneOther,
      registered_of_insert held.difficulties (held.front record front), held.curves, fun _ none => by cases none⟩

/-- A call or one of the two hooks, in any order and not only as blocks bring them. -/
inductive Step (T : Config) where
  | action (action : Action T)
  | initialise (n : Nat) (parentHash : T.Hash)
  | finalise (pay : T.AccountId → Nat → Nat) (n : Nat)

/-- The pallet under any sequence of calls and hooks. -/
def steps (T : Config) : Machine (State T) (Step T) Empty where
  next s step :=
    match step with
    | .action action => (body T).next s action
    | .initialise n parentHash => onInitialize { s with blockNumber := n, parentHash } n
    | .finalise pay n => committed s (onFinalize s pay n)
  report _ _ := []

theorem whitelist_step (held : Whitelist s) (step : Step T) : Whitelist ((steps T).next s step) := by
  cases step with
  | action action => exact whitelist_body held action
  | initialise n parentHash =>
    apply whitelist_onInitialize
    exact held.same rfl rfl rfl rfl rfl held.front
  | finalise pay n => exact whitelist_onFinalize held pay n

theorem whitelist_steps (genesis : Genesis s₀) (inputs : List (Step T)) : Whitelist ((steps T).run s₀ inputs) := by
  apply (steps T).run_follows (fun _ s => Whitelist s) genesis.whitelist
  intro s _ step held
  exact whitelist_step held step

/-- The default and one other: the list `add_mineable_topology` scans has at most two keys. -/
theorem Whitelist.keys_le_two (held : Whitelist s) : s.mineableTopologies.keys.length ≤ 2 := by
  have distinct : s.mineableTopologies.keys.Nodup := s.mineableTopologies.keys_nodup
  have listed : ∀ hash ∈ s.mineableTopologies.keys, Mineable s hash := by
    intro hash member
    exact Option.isSome_iff_exists.mpr ((StorageMap.mem_keys_iff_lookup _ hash).mp member)
  rcases keys : s.mineableTopologies.keys with _ | ⟨a, _ | ⟨b, _ | ⟨c, rest⟩⟩⟩
  · simp
  · simp
  · simp
  -- Of three distinct keys two are not the default.
  rw [keys] at distinct listed
  simp only [List.nodup_cons, List.mem_cons, not_or] at distinct
  obtain ⟨⟨ab, ac, _⟩, ⟨bc, _⟩, _⟩ := distinct
  have one := held.oneOther a b (listed a (by simp)) (listed b (by simp))
  have two := held.oneOther a c (listed a (by simp)) (listed c (by simp))
  have three := held.oneOther b c (listed b (by simp)) (listed c (by simp))
  by_cases isA : s.defaultTopology = some a
  · exact absurd (three (by simp [isA, ab]) (by simp [isA, ac])) bc
  · by_cases isB : s.defaultTopology = some b
    · exact absurd (two isA (by simp [isB, bc])) ac
    · exact absurd (one isA isB) ab

/-- The mineable whitelist, after any sequence of calls and hooks from genesis: the
default exists exactly if a topology is registered and is mineable; the mineable
topologies are registered, at most one of them is not the default, and the scan
of `add_mineable_topology` sees at most two; difficulties and curve overrides
belong to registered topologies. -/
theorem mineable_whitelist_invariant (genesis : Genesis s₀) (inputs : List (Step T)) :
    let s := (steps T).run s₀ inputs
    (s.defaultTopology.isSome ↔ ∃ hash, Registered s hash) ∧
    (∀ hash, s.defaultTopology = some hash → Mineable s hash) ∧
    (∀ hash, Mineable s hash → Registered s hash) ∧
    (∀ hash other, Mineable s hash → Mineable s other → s.defaultTopology ≠ some hash →
      s.defaultTopology ≠ some other → hash = other) ∧
    (T.iterKeys s.mineableTopologies.keys).length ≤ 2 ∧
    (∀ hash, (s.difficulties.lookup hash).isSome → Registered s hash) ∧
    (∀ hash, (s.topologyCurveC.lookup hash).isSome → Registered s hash) := by
  intro s
  have held : Whitelist s := whitelist_steps genesis inputs
  refine ⟨held.named, held.defaultMineable, held.mineableRegistered, held.oneOther, ?_, held.difficulties, held.curves⟩
  rw [(T.iterKeys_perm _).length_eq]
  exact held.keys_le_two

/-- Register two topologies, whitelist the second and make it the default. -/
def tinyRepointing : List (Step tinyConfig) :=
  let isolated := hashTopology tinyConfig [0, 1] [] (.set [1000]) (.set [1000]) (.set [-1000, 1000])
  [.action (.dispatch tinyEnv .root (.registerTopology tinyRegistration)),
   .action (.dispatch tinyEnv .root (.registerTopology tinyIsolated)),
   .action (.dispatch tinyEnv .root (.addMineableTopology isolated)),
   .action (.dispatch tinyEnv .root (.setDefaultTopology isolated))]

theorem mineable_whitelist_invariant_tinyRepointing :
    ((steps tinyConfig).run tinyGenesis tinyRepointing).mineableTopologies.keys.length = 2 ∧
    ((steps tinyConfig).run tinyGenesis tinyRepointing).defaultTopology ≠ some tinyTopology ∧
    (tinyConfig.iterKeys ((steps tinyConfig).run tinyGenesis tinyRepointing).mineableTopologies.keys).length ≤ 2 :=
  ⟨by decide +kernel, by decide +kernel,
    (mineable_whitelist_invariant tinyGenesis_genesis tinyRepointing).2.2.2.2.1⟩

/-- The blocks of a chain are calls and hooks in order. -/
theorem whitelist_closing (held : Whitelist s) (block : Block T) : Whitelist (closing s block) := by
  apply (body T).run_follows (fun _ s => Whitelist s)
  · apply whitelist_onInitialize
    exact held.same rfl rfl rfl rfl rfl held.front
  · intro s _ action still
    exact whitelist_body still action

theorem whitelist_run (genesis : Genesis s₀) (blocks : List (Block T)) : Whitelist ((chain T).run s₀ blocks) := by
  apply (chain T).run_follows (fun _ s => Whitelist s) genesis.whitelist
  intro s _ block held
  have ended := whitelist_onFinalize (whitelist_closing held block) block.pay (closing s block).blockNumber
  simp only [chain, buildBlock]
  generalize onFinalize (closing s block) block.pay (closing s block).blockNumber = result at ended ⊢
  rcases result with fault | after
  · exact held
  · exact ended

end QuipValidator.Pow
