import QuipValidator.NonceSeed
import QuipValidator.MineableTopologies

/-! The seed a mining snapshot hands out. The snapshot is read from the storage a
block left, the nonce check runs after the next `on_initialize`. A winning block
moves `LastProofBlock` at its end while the cached hash follows one block later,
so a snapshot of a winning block still carries the seed of the round that just
ended. A snapshot of any other block is good until the next win. -/
namespace QuipValidator.Pow
open Fallible StableRanking

variable {T : Config} {s s₀ : State T} {hashes : Nat → T.Hash}

/-- What a miner may expect of a snapshot read after `blocks`: its seed is the one
nonces are checked against in the next block, and a nonce derived from it fits at
every later moment until a block is won. -/
structure Live (s₀ : State T) (blocks : List (Block T)) (next : Block T) (later : List (Block T))
    (snapshot : MiningSnapshot T) : Prop where
  nextBlock : ∀ done, done <+: next.actions →
    (Moment.state ⟨blocks, next, done⟩ s₀).lastProofBlockHash = snapshot.lastProofBlockHash
  untilWin : ∀ moment : Moment T, moment.On (blocks ++ next :: later) → blocks <+: moment.earlier →
    (moment.state s₀).lastProofBlock = ((chain T).run s₀ blocks).lastProofBlock →
    ∀ who (proof : QuantumProof T),
      proof.nonce = deriveNonce T snapshot.lastProofBlockHash (accountToBytes who) proof.salt →
      NonceFits (moment.state s₀) who proof

/-- Every snapshot the API serves after `blocks` is live. -/
def ServesLive (s₀ : State T) (blocks : List (Block T)) (next : Block T) (later : List (Block T)) : Prop :=
  ∀ topologyHash snapshot, miningSnapshot ((chain T).run s₀ blocks) topologyHash = some snapshot →
    Live s₀ blocks next later snapshot

/-- The end of a block leaves the cached hash alone. -/
private theorem next_lastProofBlockHash (s : State T) (block : Block T) :
    ((chain T).next s block).lastProofBlockHash = (closing s block).lastProofBlockHash := by
  obtain ⟨after, ran, ended⟩ := onFinalize_moves (closing s block) block.pay (closing s block).blockNumber
  simp only [chain, buildBlock, ran, committed]
  rcases ended with ⟨_, rfl⟩ | ⟨_, _, _, _, _, _, _, rfl⟩ <;> rfl

/-- The cached hash is up to date: every snapshot of the storage is live. -/
private theorem live_of_seed (genesis : Genesis s₀) {blocks later : List (Block T)} {next : Block T}
    (linked : Linked hashes 0 (blocks ++ next :: later))
    (short : (blocks ++ next :: later).length ≤ T.maxBlockNumber)
    (current : ((chain T).run s₀ blocks).lastProofBlockHash =
      hashToBytes32 (hashes ((chain T).run s₀ blocks).lastProofBlock)) :
    ServesLive s₀ blocks next later := by
  intro topologyHash snapshot served
  have seed := (miningSnapshot_seed served).trans current
  refine ⟨?_, ?_⟩
  · intro done _
    have placed : blocks ++ [next] <+: blocks ++ next :: later := ⟨later, by simp⟩
    obtain ⟨seeded, follows⟩ := run_follows_block genesis linked short placed
    rw [Moment.state, (seeded.moment follows done).2, seed]
  · rintro moment ⟨placed, _⟩ _ same who proof derived
    obtain ⟨seeded, follows⟩ := run_follows_block genesis linked short placed
    obtain ⟨last, hash⟩ := seeded.moment follows moment.done
    rw [Moment.state, last] at same
    rw [NonceFits, Moment.state, hash, same, ← seed]
    exact derived

/-- After a won block its topology is still registered, so a snapshot is served. -/
private theorem served_after_win (genesis : Genesis s₀) (earlier : List (Block T)) (block : Block T)
    {best : AcceptedProof T} {reward : Nat}
    (settled : Settled (closing ((chain T).run s₀ earlier) block) (Built.number ⟨(chain T).run s₀ earlier, block⟩)
      (best.record (Built.number ⟨(chain T).run s₀ earlier, block⟩)) reward
      ((chain T).next ((chain T).run s₀ earlier) block)) :
    ∃ snapshot, miningSnapshot ((chain T).run s₀ (earlier ++ [block])) (some best.proof.topologyHash) = some snapshot := by
  have held := whitelist_run genesis (earlier ++ [block])
  obtain ⟨hardened, written⟩ := settled.difficulties
  rw [← (chain T).run_concat] at written
  have entry : (((chain T).run s₀ (earlier ++ [block])).difficulties.lookup best.proof.topologyHash).isSome := by
    rw [written, AcceptedProof.record, AList.lookup_insert]
    rfl
  obtain ⟨topology, found⟩ := Option.isSome_iff_exists.mp (held.difficulties _ entry)
  apply Option.isSome_iff_exists.mp
  simp [miningSnapshot, snapshotTopology, topologyMeta, found]

/-- After a won block the cached hash is still that of the block before the round. -/
private theorem stale_after_win (seeded : Seeded hashes s) {block : Block T} (follows : Follows hashes s block)
    (won : Built.accepted ⟨s, block⟩ ≠ []) :
    ((chain T).next s block).lastProofBlock = s.blockNumber + 1 ∧
      ((chain T).next s block).lastProofBlockHash = hashToBytes32 (hashes s.lastProofBlock) := by
  refine ⟨?_, ?_⟩
  · rcases block_cases seeded.between.blockBestProof block with ⟨empty, _, _⟩ | ⟨_, _, _, _, settled⟩
    · exact absurd empty won
    · rw [settled.lastProofBlock, Built.number, follows.consecutive]
  · rw [next_lastProofBlockHash]
    exact (seeded.moment follows block.actions).2

/-- The snapshot read after block `n` is live exactly if block `n` accepted no
proof, for every linked chain whose blocks have different hashes. Before the
first block no snapshot is served. -/
theorem snapshot_live_iff_no_win (genesis : Genesis s₀) (hashes : Nat → T.Hash) (blocks : List (Block T))
    (next : Block T) (later : List (Block T)) (linked : Linked hashes 0 (blocks ++ next :: later))
    (short : (blocks ++ next :: later).length ≤ T.maxBlockNumber)
    (distinct : ∀ m n, m < n → n ≤ blocks.length → hashToBytes32 (hashes m) ≠ hashToBytes32 (hashes n)) :
    ServesLive s₀ blocks next later ↔
      ∀ earlier block, blocks = earlier ++ [block] → Built.accepted ⟨(chain T).run s₀ earlier, block⟩ = [] := by
  have placed : blocks ++ [next] <+: blocks ++ next :: later := ⟨later, by simp⟩
  obtain ⟨seededNow, followsNow⟩ := run_follows_block genesis linked short placed
  constructor
  · rintro live earlier block rfl
    by_contra won
    have before : earlier ++ [block] <+: (earlier ++ [block]) ++ next :: later := List.prefix_append _ _
    obtain ⟨seeded, follows⟩ := run_follows_block genesis linked short before
    obtain ⟨last, stale⟩ := stale_after_win seeded follows won
    rcases block_cases seeded.between.blockBestProof block with ⟨empty, _, _⟩ | ⟨best, reward, _, _, settled⟩
    · exact won empty
    obtain ⟨snapshot, served⟩ := served_after_win genesis earlier block settled
    have seed := (live _ snapshot served).nextBlock [] List.nil_prefix
    rw [Moment.state, (seededNow.moment followsNow []).2, miningSnapshot_seed served, (chain T).run_concat, last,
      stale] at seed
    have number : ((chain T).run s₀ earlier).blockNumber = earlier.length := by
      rw [List.append_assoc, linked_append] at linked
      simp only [List.length_append] at short
      exact (run_seeded genesis earlier linked.1 (by omega)).2
    refine distinct _ _ (Nat.lt_succ_of_le seeded.behind) ?_ seed.symm
    simp [number]
  · intro quiet
    rcases List.eq_nil_or_concat blocks with rfl | ⟨earlier, block, rfl⟩
    · intro topologyHash snapshot served
      have empty : ((chain T).run s₀ []).registeredTopologies = ∅ := genesis.registeredTopologies
      have unnamed : ((chain T).run s₀ []).defaultTopology = none := genesis.defaultTopology
      cases topologyHash with
      | none => simp [miningSnapshot, snapshotTopology, defaultTopologyMeta, unnamed] at served
      | some hash => simp [miningSnapshot, snapshotTopology, topologyMeta, empty] at served
    · rw [List.concat_eq_append] at *
      have before : earlier ++ [block] <+: (earlier ++ [block]) ++ next :: later := List.prefix_append _ _
      obtain ⟨seeded, follows⟩ := run_follows_block genesis linked short before
      apply live_of_seed genesis linked short
      rw [(chain T).run_concat]
      rcases block_cases seeded.between.blockBestProof block with ⟨_, _, same⟩ | ⟨_, _, first, _, _⟩
      · obtain ⟨last, hash⟩ := seeded.moment follows block.actions
        rw [same]
        show (closing _ block).lastProofBlockHash = hashToBytes32 (hashes (closing _ block).lastProofBlock)
        rw [closing, hash, last]
      · exact absurd (quiet earlier block rfl) (first.ne_nil _)

/-- A quiet first block: its snapshot is good for the second. -/
theorem snapshot_live_iff_no_win_tinyRound :
    Built.accepted ⟨tinyGenesis, tinyBlock 3 (tinyOpening.take 4)⟩ = [] ∧
    (miningSnapshot ((chain tinyConfig).run tinyGenesis [tinyBlock 3 (tinyOpening.take 4)]) none).isSome ∧
    ServesLive tinyGenesis [tinyBlock 3 (tinyOpening.take 4)] (tinyBlock 4 (tinyOpening.drop 4)) [] := by
  have quiet : Built.accepted ⟨tinyGenesis, tinyBlock 3 (tinyOpening.take 4)⟩ = [] :=
    List.length_eq_zero_iff.mp (by decide +kernel)
  have distinct : ∀ m n, m < n → n ≤ 1 →
      hashToBytes32 (T := tinyConfig) (m + 3 : Nat) ≠ hashToBytes32 (T := tinyConfig) (n + 3 : Nat) := by
    intro m n less within
    obtain ⟨rfl, rfl⟩ : m = 0 ∧ n = 1 := by omega
    decide +kernel
  refine ⟨quiet, by decide +kernel, ?_⟩
  apply (snapshot_live_iff_no_win tinyGenesis_genesis (fun n => (n + 3 : Nat)) [tinyBlock 3 (tinyOpening.take 4)]
    (tinyBlock 4 (tinyOpening.drop 4)) [] ⟨rfl, rfl, rfl, rfl, trivial⟩ (by decide) distinct).mpr
  intro earlier block same
  obtain ⟨rfl, last⟩ := List.append_eq_singleton_iff.mp same.symm |>.resolve_right (by simp)
  cases last
  exact quiet

/-- The first block is won. The snapshot read after it carries the genesis hash,
the nonce check of the second block uses the hash of the first. -/
theorem snapshot_stale_after_win :
    Linked (fun n => (n + 3 : Nat)) 0 ([tinyBlock 3 tinyOpening] ++ [tinySecond]) ∧
    ¬ ServesLive tinyGenesis [tinyBlock 3 tinyOpening] tinySecond [] := by
  refine ⟨⟨rfl, rfl, rfl, rfl, trivial⟩, ?_⟩
  intro live
  have served : (miningSnapshot ((chain tinyConfig).run tinyGenesis [tinyBlock 3 tinyOpening]) none).isSome := by
    decide +kernel
  obtain ⟨snapshot, found⟩ := Option.isSome_iff_exists.mp served
  have same := (live none snapshot found).nextBlock [] List.nil_prefix
  rw [miningSnapshot_seed found] at same
  revert same
  decide +kernel

end QuipValidator.Pow
