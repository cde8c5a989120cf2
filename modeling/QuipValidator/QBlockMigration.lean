import QuipValidator.PowBlocks
import QuipValidator.Scale

/-! `on_runtime_upgrade` of `pallet-quantum-pow`, on the bytes in storage. A qblock gained
two fields behind the old ones; which layout a stored value has is known from the storage
version alone, because a shorter layout also decodes from the bytes of a longer one. -/
namespace QuipValidator.Pow
open Scale Codec

variable {T : Config}

abbrev Bytes := List UInt8

def STORAGE_VERSION : Nat := 6

/-- The pre-v4 layout: without `topology_hash` and `device_access_time_us`. -/
structure PreTopologyQBlock (T : Config) where
  miner : T.AccountId
  salt : Bytes32
  energyMilli : Int
  reward : Nat
  submittedAt : Nat
  difficulty : DifficultyConfig
  lastProofBlockHash : H256

/-- The v4 layout: without `device_access_time_us`. -/
structure V4QBlock (T : Config) extends PreTopologyQBlock T where
  topologyHash : H256

/-- The current record with the fields of the v4 one. -/
def V4QBlock.current (old : V4QBlock T) (deviceAccessTimeUs : Nat) : QBlock T :=
  { miner := old.miner
    salt := old.salt
    energyMilli := old.energyMilli
    reward := old.reward
    submittedAt := old.submittedAt
    difficulty := old.difficulty
    lastProofBlockHash := old.lastProofBlockHash
    topologyHash := old.topologyHash
    deviceAccessTimeUs }

def H256.zero : H256 := ⟨List.replicate 32 0, rfl⟩

section Codecs

def difficultyConfig : Codec DifficultyConfig :=
  record
    (pair (word 4) (pair (signed 8) (word 4)))
    (fun config => (config.minSolutions, config.maxEnergyMilli, config.minDiversityMilli))
    (fun (minSolutions, maxEnergyMilli, minDiversityMilli) => { minSolutions, maxEnergyMilli, minDiversityMilli })
    (fun _ => rfl)

-- How the runtime encodes its account ids.
variable (account : Codec T.AccountId)

def preTopologyQBlock : Codec (PreTopologyQBlock T) :=
  record
    (pair account (pair (array 32) (pair (signed 8) (pair (word 16) (pair (word 4) (pair difficultyConfig (array 32)))))))
    (fun q => (q.miner, q.salt, q.energyMilli, q.reward, q.submittedAt, q.difficulty, q.lastProofBlockHash))
    (fun (miner, salt, energyMilli, reward, submittedAt, difficulty, lastProofBlockHash) =>
      { miner, salt, energyMilli, reward, submittedAt, difficulty, lastProofBlockHash })
    (fun _ => rfl)

def v4QBlock : Codec (V4QBlock T) :=
  record
    (pair (preTopologyQBlock account) (array 32))
    (fun q => (q.toPreTopologyQBlock, q.topologyHash))
    (fun (old, topologyHash) => { toPreTopologyQBlock := old, topologyHash })
    (fun _ => rfl)

/-- The current layout: the fields of the v4 one, then the device time. -/
def qblockCodec : Codec (QBlock T) :=
  record
    (pair (v4QBlock account) (word 8))
    (fun q => (⟨⟨q.miner, q.salt, q.energyMilli, q.reward, q.submittedAt, q.difficulty, q.lastProofBlockHash⟩,
      q.topologyHash⟩, q.deviceAccessTimeUs))
    (fun (old, deviceAccessTimeUs) => old.current deviceAccessTimeUs)
    (fun _ => rfl)

end Codecs

/-- The pallet's storage as bytes where an upgrade rewrites it. `others` is everything
else under the pallet's prefix. -/
structure RawStorage where
  storageVersion : Nat
  qblocks : StorageMap Nat Bytes
  /-- The pre-v3 global `Difficulty`. -/
  difficulty : Option Bytes
  difficulties : StorageMap H256 Bytes
  mineableTopologies : StorageMap H256 Unit
  defaultTopology : Option H256
  blockBestProof : Option Bytes
  /-- The pre-v6 `WinnerStreak`. -/
  winnerStreak : Option Bytes
  others : StorageMap Bytes Bytes

/-- `unhashed::get`: what follows the value is ignored, and what does not decode is absent. -/
def getDecoded {α : Type} (codec : Codec α) (raw : Option Bytes) : Option α :=
  raw.bind fun bytes => (codec.decode bytes).map Prod.fst

/-- One step of `StorageMap::translate`: a value that does not decode is left as it is. -/
def translateValue {α β : Type} (old : Codec α) (new : Codec β) (convert : α → β) (raw : Bytes) : Bytes :=
  match old.decode raw with
  | some (value, _) => new.encode (convert value)
  | none => raw

/-- `v3::carry_forward`. -/
def carryForward (s : RawStorage) : RawStorage :=
  let old := (getDecoded difficultyConfig s.difficulty).getD default
  let s :=
    match s.defaultTopology with
    | some defaultHash => { s with
        difficulties := s.difficulties.insert defaultHash (difficultyConfig.encode old)
        mineableTopologies := s.mineableTopologies.insert defaultHash () }
    | none => s
  { s with difficulty := none, blockBestProof := none }

/-- `v3::wipe`: the whole prefix, with the version. -/
def wipe (_ : RawStorage) : RawStorage :=
  { storageVersion := 0
    qblocks := ∅
    difficulty := none
    difficulties := ∅
    mineableTopologies := ∅
    defaultTopology := none
    blockBestProof := none
    winnerStreak := none
    others := ∅ }

section Upgrade
variable (account : Codec T.AccountId)

/-- `v5::backfill_from_pre_topology`. -/
def backfillFromPreTopology (s : RawStorage) : RawStorage :=
  let backfill := s.defaultTopology.getD H256.zero
  { s with
    qblocks := s.qblocks.mapValues
      (translateValue (preTopologyQBlock account) (qblockCodec account) fun old => V4QBlock.current ⟨old, backfill⟩ 0)
    blockBestProof := none }

/-- `v5::append_device_time`. -/
def appendDeviceTime (s : RawStorage) : RawStorage :=
  { s with
    qblocks := s.qblocks.mapValues
      (translateValue (v4QBlock account) (qblockCodec account) fun old => old.current 0)
    blockBestProof := none }

/-- `v6::remove_winner_streak`. -/
def removeWinnerStreak (s : RawStorage) : RawStorage := { s with winnerStreak := none }

/-- The step to version 3, from an earlier one. -/
def upgradeV3 (onChain : Nat) (s : RawStorage) : RawStorage :=
  if onChain < 3 then if onChain = 2 then carryForward s else wipe s else s

/-- The step to version 5, from an earlier one. -/
def upgradeV5 (onChain : Nat) (s : RawStorage) : RawStorage :=
  if onChain < 5 then if onChain = 4 then appendDeviceTime account s else backfillFromPreTopology account s else s

def onRuntimeUpgrade (s : RawStorage) : RawStorage :=
  let onChain := s.storageVersion
  if STORAGE_VERSION ≤ onChain then s
  else
    let s := upgradeV5 account onChain (upgradeV3 onChain s)
    { removeWinnerStreak s with storageVersion := STORAGE_VERSION }

/-- `QBlocks::get`. -/
def readQBlock (s : RawStorage) (n : Nat) : Option (QBlock T) := getDecoded (qblockCodec account) (s.qblocks.lookup n)

end Upgrade

section Proofs
variable {account : Codec T.AccountId} {s : RawStorage}

theorem getDecoded_encode {α : Type} {codec : Codec α} {value : α} (valid : codec.valid value) :
    getDecoded codec (some (codec.encode value)) = some value := by
  have read := codec.decode_encode value [] valid
  rw [List.append_nil] at read
  rw [getDecoded, Option.bind_some, read, Option.map_some]

/-- A value in the old layout is replaced by the encoding of the converted one. -/
private theorem translateValue_encode {α β : Type} {old : Codec α} {new : Codec β} {convert : α → β} {value : α}
    (valid : old.valid value) : translateValue old new convert (old.encode value) = new.encode (convert value) := by
  have read := old.decode_encode value [] valid
  rw [List.append_nil] at read
  rw [translateValue, read]

theorem current_valid {old : V4QBlock T} (valid : (v4QBlock account).valid old) :
    (qblockCodec account).valid (old.current 0) := ⟨valid, Nat.pow_pos (by omega)⟩

private theorem default_valid : difficultyConfig.valid default :=
  ⟨show 5 < 256 ^ 4 by decide,
    show -((256 ^ 8 : Nat) : Int) ≤ 2 * (-1200000) ∧ 2 * (-1200000) < ((256 ^ 8 : Nat) : Int) by decide,
    show 200 < 256 ^ 4 by decide⟩

/-- What the upgrade leaves alone from version 2 on, and what it always clears. -/
structure Upgraded (s after : RawStorage) : Prop where
  version : after.storageVersion = STORAGE_VERSION
  keys : ∀ n, (after.qblocks.lookup n).isSome ↔ (s.qblocks.lookup n).isSome
  defaultTopology : after.defaultTopology = s.defaultTopology
  others : after.others = s.others
  blockBestProof : after.blockBestProof = none
  winnerStreak : after.winnerStreak = none

private theorem carryForward_frame (s : RawStorage) :
    (carryForward s).qblocks = s.qblocks ∧ (carryForward s).defaultTopology = s.defaultTopology ∧
      (carryForward s).others = s.others := by
  unfold carryForward
  dsimp only
  split <;> exact ⟨rfl, rfl, rfl⟩

theorem upgradeV3_frame {onChain : Nat} (carried : 2 ≤ onChain) (s : RawStorage) :
    (upgradeV3 onChain s).qblocks = s.qblocks ∧ (upgradeV3 onChain s).defaultTopology = s.defaultTopology ∧
      (upgradeV3 onChain s).others = s.others := by
  unfold upgradeV3
  split
  · rw [if_pos (by omega)]
    exact carryForward_frame s
  · exact ⟨rfl, rfl, rfl⟩

/-- The values of a map in one of the old layouts, by version. -/
theorem onRuntimeUpgrade_qblocks (account : Codec T.AccountId) {s : RawStorage} (carried : 2 ≤ s.storageVersion)
    (old : s.storageVersion ≤ 4) (n : Nat) :
    (onRuntimeUpgrade account s).qblocks.lookup n = (s.qblocks.lookup n).map
      (if s.storageVersion = 4 then
        translateValue (v4QBlock account) (qblockCodec account) fun old => old.current 0
      else translateValue (preTopologyQBlock account) (qblockCodec account) fun old =>
        V4QBlock.current ⟨old, s.defaultTopology.getD H256.zero⟩ 0) := by
  obtain ⟨qblocks, default, _⟩ := upgradeV3_frame carried s
  rw [onRuntimeUpgrade, if_neg (by simp only [STORAGE_VERSION]; omega)]
  simp only [removeWinnerStreak, upgradeV5]
  rw [if_pos (by omega)]
  split
  · rw [appendDeviceTime, StorageMap.lookup_mapValues, qblocks]
  · rw [backfillFromPreTopology, StorageMap.lookup_mapValues, qblocks, default]

theorem onRuntimeUpgrade_upgraded (account : Codec T.AccountId) {s : RawStorage}
    (carried : 2 ≤ s.storageVersion) (old : s.storageVersion ≤ 4) : Upgraded s (onRuntimeUpgrade account s) := by
  obtain ⟨_, default, others⟩ := upgradeV3_frame carried s
  have shape : onRuntimeUpgrade account s =
      { removeWinnerStreak (upgradeV5 account s.storageVersion (upgradeV3 s.storageVersion s)) with
        storageVersion := STORAGE_VERSION } := by
    rw [onRuntimeUpgrade, if_neg (by simp only [STORAGE_VERSION]; omega)]
  refine ⟨by rw [shape], ?_, ?_, ?_, ?_, by rw [shape]; rfl⟩
  · intro n
    rw [onRuntimeUpgrade_qblocks account carried old, Option.isSome_map]
  · rw [shape, removeWinnerStreak, upgradeV5, if_pos (by omega)]
    split <;> exact default
  · rw [shape, removeWinnerStreak, upgradeV5, if_pos (by omega)]
    split <;> exact others
  · rw [shape, removeWinnerStreak, upgradeV5, if_pos (by omega)]
    split <;> rfl

/-- From version 2: the global difficulty goes to the default topology. -/
theorem onRuntimeUpgrade_difficulty (account : Codec T.AccountId) {s : RawStorage} (second : s.storageVersion = 2) :
    (onRuntimeUpgrade account s).difficulty = none ∧
      ∀ hash, s.defaultTopology = some hash →
        (onRuntimeUpgrade account s).difficulties.lookup hash =
          some (difficultyConfig.encode ((getDecoded difficultyConfig s.difficulty).getD default)) ∧
        ((onRuntimeUpgrade account s).mineableTopologies.lookup hash).isSome := by
  have shape : onRuntimeUpgrade account s =
      { removeWinnerStreak (backfillFromPreTopology account (carryForward s)) with storageVersion := STORAGE_VERSION } := by
    simp only [onRuntimeUpgrade, upgradeV3, upgradeV5, second, STORAGE_VERSION]
    rfl
  rw [shape]
  refine ⟨?_, ?_⟩
  · simp only [removeWinnerStreak, backfillFromPreTopology, carryForward]
  · intro hash known
    simp only [removeWinnerStreak, backfillFromPreTopology, carryForward, known]
    rw [StorageMap.lookup_insert_ite, if_pos rfl, StorageMap.lookup_insert_ite, if_pos rfl]
    exact ⟨rfl, rfl⟩

/-- The upgrade keeps the history of a chain at version 2, 3 or 4. Every key stays and its
value becomes the current encoding of the same fields, with the stored topology, or the
default one for the layout without it, and no device time; version 2 also hands its
difficulty to the default topology; and a second run changes nothing. -/
theorem qblocks_migration_preserves (account : Codec T.AccountId) {s : RawStorage} (carried : 2 ≤ s.storageVersion)
    (old : s.storageVersion ≤ 4) :
    Upgraded s (onRuntimeUpgrade account s) ∧
      (s.storageVersion ≤ 3 → ∀ n q, (preTopologyQBlock account).valid q →
        s.qblocks.lookup n = some ((preTopologyQBlock account).encode q) →
        (onRuntimeUpgrade account s).qblocks.lookup n =
          some ((qblockCodec account).encode (V4QBlock.current ⟨q, s.defaultTopology.getD H256.zero⟩ 0)) ∧
        readQBlock account (onRuntimeUpgrade account s) n =
          some (V4QBlock.current ⟨q, s.defaultTopology.getD H256.zero⟩ 0)) ∧
      (s.storageVersion = 4 → ∀ n q, (v4QBlock account).valid q →
        s.qblocks.lookup n = some ((v4QBlock account).encode q) →
        (onRuntimeUpgrade account s).qblocks.lookup n = some ((qblockCodec account).encode (q.current 0)) ∧
        readQBlock account (onRuntimeUpgrade account s) n = some (q.current 0)) ∧
      (s.storageVersion = 2 → (onRuntimeUpgrade account s).difficulty = none ∧
        ∀ hash (config : Option DifficultyConfig), s.defaultTopology = some hash →
          (∀ held, config = some held → difficultyConfig.valid held) →
          s.difficulty = config.map difficultyConfig.encode →
          getDecoded difficultyConfig ((onRuntimeUpgrade account s).difficulties.lookup hash) = some (config.getD default) ∧
          ((onRuntimeUpgrade account s).mineableTopologies.lookup hash).isSome) ∧
      onRuntimeUpgrade account (onRuntimeUpgrade account s) = onRuntimeUpgrade account s := by
  have upgraded := onRuntimeUpgrade_upgraded account carried old
  have values := onRuntimeUpgrade_qblocks account carried old
  refine ⟨upgraded, ?_, ?_, ?_, ?_⟩
  · intro early n q valid held
    have value := values n
    rw [if_neg (by omega), held, Option.map_some, translateValue_encode valid] at value
    refine ⟨value, ?_⟩
    rw [readQBlock, value]
    have filled : (v4QBlock account).valid ⟨q, s.defaultTopology.getD H256.zero⟩ := ⟨valid, trivial⟩
    exact getDecoded_encode (current_valid filled)
  · intro fourth n q valid held
    have value := values n
    rw [if_pos fourth, held, Option.map_some, translateValue_encode valid] at value
    refine ⟨value, ?_⟩
    rw [readQBlock, value]
    exact getDecoded_encode (current_valid valid)
  · intro second
    obtain ⟨gone, seeded⟩ := onRuntimeUpgrade_difficulty account second
    refine ⟨gone, ?_⟩
    intro hash config known fits held
    obtain ⟨written, listed⟩ := seeded hash known
    have decoded : getDecoded difficultyConfig s.difficulty = config := by
      cases config with
      | none => rw [held]; rfl
      | some config => rw [held, Option.map_some, getDecoded_encode (fits config rfl)]
    have valid : difficultyConfig.valid (config.getD default) := by
      cases config with
      | none => exact default_valid
      | some config => exact fits config rfl
    rw [written, decoded, getDecoded_encode valid]
    exact ⟨rfl, listed⟩
  · rw [onRuntimeUpgrade, if_pos upgraded.version.ge]

end Proofs

/-- A qblock of the small runtime in the layout without a topology. -/
def tinyOldQBlock : PreTopologyQBlock tinyConfig where
  miner := (7 : Nat)
  salt := H256.zero
  energyMilli := -1500
  reward := 5
  submittedAt := 3
  difficulty := default
  lastProofBlockHash := H256.zero

def tinyAccountCodec : Codec tinyConfig.AccountId := word 8

/-- Version 2 with one qblock, a default topology and no global difficulty. -/
def tinyRaw : RawStorage where
  storageVersion := 2
  qblocks := AList.insert 3 ((preTopologyQBlock tinyAccountCodec).encode tinyOldQBlock) ∅
  difficulty := none
  difficulties := ∅
  mineableTopologies := ∅
  defaultTopology := some tinyTopology
  blockBestProof := some [1]
  winnerStreak := some [2]
  others := ∅

private theorem tinyOldQBlock_valid : (preTopologyQBlock tinyAccountCodec).valid tinyOldQBlock :=
  ⟨show 7 < 256 ^ 8 by decide, trivial,
    show -((256 ^ 8 : Nat) : Int) ≤ 2 * (-1500) ∧ 2 * (-1500) < ((256 ^ 8 : Nat) : Int) by decide,
    show 5 < 256 ^ 16 by decide, show 3 < 256 ^ 4 by decide, default_valid, trivial⟩

theorem qblocks_migration_preserves_tinyRaw :
    readQBlock tinyAccountCodec (onRuntimeUpgrade tinyAccountCodec tinyRaw) 3 =
        some (V4QBlock.current ⟨tinyOldQBlock, tinyTopology⟩ 0) ∧
      getDecoded difficultyConfig ((onRuntimeUpgrade tinyAccountCodec tinyRaw).difficulties.lookup tinyTopology) =
        some default := by
  obtain ⟨_, early, _, second, _⟩ :=
    qblocks_migration_preserves tinyAccountCodec (show 2 ≤ tinyRaw.storageVersion by decide) (by decide)
  refine ⟨(early (by decide) 3 tinyOldQBlock tinyOldQBlock_valid ?_).2, ?_⟩
  · exact AList.lookup_insert _
  · exact ((second rfl).2 tinyTopology none rfl (fun held none => by cases none) rfl).1

end QuipValidator.Pow
