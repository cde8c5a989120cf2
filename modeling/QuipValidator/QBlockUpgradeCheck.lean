import QuipValidator.QBlockMigration

/-! `pre_upgrade` and `post_upgrade` of `pallet-quantum-pow`. A translation leaves a value
it cannot read as it is, and such a value cannot be read in the new layout either, so
the count of the readable qblocks tells whether the upgrade lost one. -/
namespace QuipValidator.Pow
open Fallible Scale Codec

variable {T : Config}

/-- What `pre_upgrade` hands over to `post_upgrade`. -/
structure PreUpgrade where
  wasV2 : Bool
  default : Option H256
  /-- `iter_keys` decodes the keys only. -/
  qblocks : Nat

def preUpgrade (s : RawStorage) : PreUpgrade :=
  { wasV2 := s.storageVersion = 2
    default := s.defaultTopology
    qblocks := s.qblocks.keys.length }

section Check
variable (account : Codec T.AccountId)

/-- How many qblocks `iter` yields: it skips the values that do not decode. -/
def readableQBlocks (s : RawStorage) : Nat := s.qblocks.keys.countP fun n => (readQBlock account s n).isSome

def postUpgrade (before : PreUpgrade) (s : RawStorage) : Fallible String Unit := do
  ensure (STORAGE_VERSION ≤ s.storageVersion) "storage version must be >= 6 after upgrade"
  ensure s.winnerStreak.isNone "v6 must remove the retired WinnerStreak value"
  ensure (readableQBlocks account s = before.qblocks) "the v5 re-encode must preserve every QBlocks entry"
  if before.wasV2 then
    ensure (getDecoded difficultyConfig s.difficulty).isNone "v2→v3 must remove the old global Difficulty value"
    match before.default with
    | some hash => do
      ensure (s.difficulties.lookup hash).isSome "v2→v3 must seed Difficulties[DefaultTopology]"
      ensure (s.mineableTopologies.lookup hash).isSome "v2→v3 must whitelist the default topology"
    | none => pure ()

/-- Whether a stored value can be read in the layout of a storage version. -/
def Legible (version : Nat) (raw : Bytes) : Bool :=
  if version < 4 then ((preTopologyQBlock account).decode raw).isSome
  else if version = 4 then ((v4QBlock account).decode raw).isSome
  else ((qblockCodec account).decode raw).isSome

end Check

/-- A translated value can be read exactly if the old one could. -/
theorem translateValue_readable {α β : Type} {old : Codec α} {new : Codec β} {convert : α → β}
    (converts : ∀ value, old.valid value → new.valid (convert value)) (valid : ReadsValid old)
    (longer : ∀ raw, old.decode raw = none → new.decode raw = none) (raw : Bytes) :
    (new.decode (translateValue old new convert raw)).isSome = (old.decode raw).isSome := by
  cases read : old.decode raw with
  | none =>
    rw [translateValue, read]
    dsimp only
    rw [longer raw read]
    rfl
  | some entry =>
    obtain ⟨value, rest⟩ := entry
    have written := new.decode_encode (convert value) [] (converts value (valid raw value rest read))
    rw [List.append_nil] at written
    rw [translateValue, read]
    dsimp only
    rw [written]
    rfl

section Layouts
variable {account : Codec T.AccountId}

theorem difficultyConfig_readsValid : ReadsValid difficultyConfig :=
  record_readsValid (fun _ => rfl)
    (pair_readsValid (word_readsValid 4) (pair_readsValid (signed_readsValid 8) (word_readsValid 4)))

theorem preTopologyQBlock_readsValid (accounts : ReadsValid account) : ReadsValid (preTopologyQBlock account) :=
  record_readsValid (fun _ => rfl)
    (pair_readsValid accounts (pair_readsValid (array_readsValid 32) (pair_readsValid (signed_readsValid 8)
      (pair_readsValid (word_readsValid 16) (pair_readsValid (word_readsValid 4)
        (pair_readsValid difficultyConfig_readsValid (array_readsValid 32)))))))

theorem v4QBlock_readsValid (accounts : ReadsValid account) : ReadsValid (v4QBlock account) :=
  record_readsValid (fun _ => rfl) (pair_readsValid (preTopologyQBlock_readsValid accounts) (array_readsValid 32))

/-- The fields of the v4 layout come first in the current one. -/
theorem qblockCodec_longer_v4 {raw : Bytes} (stuck : (v4QBlock account).decode raw = none) :
    (qblockCodec account).decode raw = none := record_decode_stuck (pair_decode_stuck _ stuck)

theorem qblockCodec_longer {raw : Bytes} (stuck : (preTopologyQBlock account).decode raw = none) :
    (qblockCodec account).decode raw = none :=
  qblockCodec_longer_v4 (record_decode_stuck (pair_decode_stuck _ stuck))

end Layouts

section Count
variable {account : Codec T.AccountId} {s : RawStorage}

/-- A qblock can be read after the upgrade exactly if it could before. -/
theorem readQBlock_upgraded (accounts : ReadsValid account) (carried : 2 ≤ s.storageVersion) (n : Nat) :
    (readQBlock account (onRuntimeUpgrade account s) n).isSome =
      (s.qblocks.lookup n).any (Legible account s.storageVersion) := by
  have read : ∀ raw, (getDecoded (qblockCodec account) raw).isSome =
      raw.any fun bytes => ((qblockCodec account).decode bytes).isSome := by
    rintro (_ | bytes)
    · rfl
    · rw [getDecoded, Option.bind_some, Option.isSome_map, Option.any_some]
  rw [readQBlock, read]
  by_cases old : s.storageVersion ≤ 4
  · rw [onRuntimeUpgrade_qblocks account carried old, Option.any_map]
    congr 1
    funext raw
    by_cases fourth : s.storageVersion = 4
    · rw [if_pos fourth, Legible, if_neg (by omega), if_pos fourth]
      exact translateValue_readable (fun _ valid => current_valid valid) (v4QBlock_readsValid accounts)
        (fun _ => qblockCodec_longer_v4) raw
    · rw [if_neg fourth, Legible, if_pos (by omega)]
      exact translateValue_readable (fun _ valid => current_valid ⟨valid, trivial⟩) (preTopologyQBlock_readsValid accounts)
        (fun _ => qblockCodec_longer) raw
  · have kept : (onRuntimeUpgrade account s).qblocks = s.qblocks := by
      unfold onRuntimeUpgrade
      dsimp only
      split
      · rfl
      · simp only [removeWinnerStreak, upgradeV5, upgradeV3, if_neg (show ¬ s.storageVersion < 5 by omega),
          if_neg (show ¬ s.storageVersion < 3 by omega)]
    rw [kept]
    congr 1
    funext raw
    rw [Legible, if_neg (by omega), if_neg (by omega)]

theorem keys_upgraded (account : Codec T.AccountId) (carried : 2 ≤ s.storageVersion) :
    (onRuntimeUpgrade account s).qblocks.keys = s.qblocks.keys := by
  obtain ⟨qblocks, _, _⟩ := upgradeV3_frame carried s
  have translated : (upgradeV5 account s.storageVersion (upgradeV3 s.storageVersion s)).qblocks.keys = s.qblocks.keys := by
    rw [← qblocks]
    unfold upgradeV5 appendDeviceTime backfillFromPreTopology
    split
    · split <;> exact StorageMap.keys_mapValues _ _
    · rfl
  unfold onRuntimeUpgrade
  dsimp only
  split
  · rfl
  · exact translated

/-- Nothing is left of an older chain. -/
theorem wiped_qblocks (account : Codec T.AccountId) (ancient : s.storageVersion < 2) :
    (onRuntimeUpgrade account s).qblocks = ∅ := by
  simp only [onRuntimeUpgrade, upgradeV3, upgradeV5, removeWinnerStreak, STORAGE_VERSION,
    if_neg (show ¬ 6 ≤ s.storageVersion by omega), if_pos (show s.storageVersion < 3 by omega),
    if_neg (show ¬ s.storageVersion = 2 by omega), if_pos (show s.storageVersion < 5 by omega),
    if_neg (show ¬ s.storageVersion = 4 by omega)]
  rfl

/-- The count tells whether every qblock could be read. -/
theorem readableQBlocks_upgraded (accounts : ReadsValid account) :
    readableQBlocks account (onRuntimeUpgrade account s) = (preUpgrade s).qblocks ↔
      ∀ n raw, s.qblocks.lookup n = some raw → 2 ≤ s.storageVersion ∧ Legible account s.storageVersion raw = true := by
  by_cases carried : 2 ≤ s.storageVersion
  · simp only [readableQBlocks, preUpgrade, keys_upgraded account carried, readQBlock_upgraded accounts carried]
    rw [List.countP_eq_length]
    constructor
    · intro all n raw held
      have legible := all n ((StorageMap.mem_keys_iff_lookup _ _).mpr ⟨raw, held⟩)
      rw [held] at legible
      exact ⟨carried, legible⟩
    · intro all n member
      obtain ⟨raw, held⟩ := (StorageMap.mem_keys_iff_lookup _ _).mp member
      rw [held]
      exact (all n raw held).2
  · rw [readableQBlocks, wiped_qblocks account (by omega), preUpgrade]
    constructor
    · intro none n raw held
      have member := (StorageMap.mem_keys_iff_lookup _ _).mpr ⟨raw, held⟩
      rw [List.length_eq_zero_iff.mp none.symm] at member
      cases member
    · intro none
      refine (List.length_eq_zero_iff.mpr (List.eq_nil_iff_forall_not_mem.mpr fun n member => ?_)).symm
      obtain ⟨raw, held⟩ := (StorageMap.mem_keys_iff_lookup _ _).mp member
      exact carried (none n raw held).1

end Count

/-- The version and the streak after an upgrade. -/
theorem onRuntimeUpgrade_marks (account : Codec T.AccountId) (s : RawStorage) :
    STORAGE_VERSION ≤ (onRuntimeUpgrade account s).storageVersion ∧
      ((onRuntimeUpgrade account s).winnerStreak.isNone ↔ (STORAGE_VERSION ≤ s.storageVersion → s.winnerStreak = none)) := by
  unfold onRuntimeUpgrade
  dsimp only
  split
  · rename_i current
    exact ⟨current, by simp [current]⟩
  · rename_i old
    exact ⟨Nat.le_refl _, by simp [removeWinnerStreak, old]⟩

/-- When `post_upgrade` accepts what `on_runtime_upgrade` did, from any storage: exactly if
every stored qblock could be read in the layout its storage version stands for, and
there was none on a chain so old that it is wiped. So an accepted upgrade lost no
qblock. -/
theorem upgrade_check_accepts_iff {account : Codec T.AccountId} (accounts : ReadsValid account) (s : RawStorage) :
    (postUpgrade account (preUpgrade s) (onRuntimeUpgrade account s) = .ok () ↔
      (∀ n raw, s.qblocks.lookup n = some raw → 2 ≤ s.storageVersion ∧ Legible account s.storageVersion raw = true) ∧
      (STORAGE_VERSION ≤ s.storageVersion → s.winnerStreak = none)) ∧
    (postUpgrade account (preUpgrade s) (onRuntimeUpgrade account s) = .ok () → ∀ n,
      (readQBlock account (onRuntimeUpgrade account s) n).isSome ↔ (s.qblocks.lookup n).isSome) := by
  obtain ⟨version, streak⟩ := onRuntimeUpgrade_marks account s
  have carried : s.storageVersion = 2 → ∀ hash, s.defaultTopology = some hash →
      ((onRuntimeUpgrade account s).difficulties.lookup hash).isSome ∧
        ((onRuntimeUpgrade account s).mineableTopologies.lookup hash).isSome := by
    intro second hash known
    obtain ⟨written, listed⟩ := (onRuntimeUpgrade_difficulty account second).2 hash known
    rw [written]
    exact ⟨rfl, listed⟩
  have accepts : postUpgrade account (preUpgrade s) (onRuntimeUpgrade account s) = .ok () ↔
      (∀ n raw, s.qblocks.lookup n = some raw → 2 ≤ s.storageVersion ∧ Legible account s.storageVersion raw = true) ∧
      (STORAGE_VERSION ≤ s.storageVersion → s.winnerStreak = none) := by
    rw [← readableQBlocks_upgraded accounts, ← streak]
    simp only [postUpgrade, bind_success, ensure_success]
    constructor
    · rintro ⟨_, _, _, gone, _, count, _⟩
      exact ⟨count, gone⟩
    · rintro ⟨count, gone⟩
      refine ⟨(), version, (), gone, (), count, ?_⟩
      by_cases second : s.storageVersion = 2
      · simp only [preUpgrade, second, decide_true, if_true, bind_success, ensure_success]
        refine ⟨(), by rw [(onRuntimeUpgrade_difficulty account second).1]; rfl, ?_⟩
        cases known : s.defaultTopology with
        | none => rfl
        | some hash =>
          obtain ⟨seeded, listed⟩ := carried second hash known
          exact bind_success.mpr ⟨(), ensure_success.mpr seeded, ensure_success.mpr listed⟩
      · simp only [preUpgrade, second, decide_false]
        rfl
  refine ⟨accepts, fun passed n => ?_⟩
  obtain ⟨legible, _⟩ := accepts.mp passed
  cases held : s.qblocks.lookup n with
  | some raw =>
    obtain ⟨known, reads⟩ := legible n raw held
    rw [readQBlock_upgraded accounts known, held, Option.any_some, reads]
    rfl
  | none =>
    by_cases known : 2 ≤ s.storageVersion
    · rw [readQBlock_upgraded accounts known, held]
      rfl
    · rw [readQBlock, wiped_qblocks account (by omega)]
      rfl

/-- The same qblock is carried from version 2 and missed after the wipe of version 1. -/
theorem upgrade_check_accepts_iff_tinyRaw :
    postUpgrade tinyAccountCodec (preUpgrade tinyRaw) (onRuntimeUpgrade tinyAccountCodec tinyRaw) = .ok () ∧
      postUpgrade tinyAccountCodec (preUpgrade { tinyRaw with storageVersion := 1 })
        (onRuntimeUpgrade tinyAccountCodec { tinyRaw with storageVersion := 1 }) ≠ .ok () := by
  have accounts : ReadsValid tinyAccountCodec := word_readsValid 8
  have stored : tinyRaw.qblocks.lookup 3 = some ((preTopologyQBlock tinyAccountCodec).encode tinyOldQBlock) :=
    AList.lookup_insert _
  refine ⟨(upgrade_check_accepts_iff accounts tinyRaw).1.mpr ⟨?_, by decide⟩, ?_⟩
  · intro n raw held
    rw [show tinyRaw.qblocks = AList.insert 3 _ ∅ from rfl, StorageMap.lookup_insert_ite] at held
    split at held
    · cases held
      exact ⟨by decide, by decide +kernel⟩
    · cases held
  · intro passed
    have old := ((upgrade_check_accepts_iff accounts { tinyRaw with storageVersion := 1 }).1.mp passed).1 3 _ stored
    exact absurd old.1 (by decide)

end QuipValidator.Pow
