import QuipValidator.PowViews
import QuipValidator.QBlockIndex
import QuipValidator.BlockWinner

/-! The seed of the nonce. `LastProofBlockHash` is written by `on_initialize`, one
block after a win, from the parent hash; the calls of a block only read it. On
every chain it is the hash of the last winning block as long as a block runs, so
a nonce stays good for the whole round, and the seed stored with a qblock gives
back the nonce that won it. -/
namespace QuipValidator.Pow
open Fallible StableRanking

variable {T : Config} {s s' s₀ start : State T}

/-- What the dispatches of a block leave as `on_initialize` set it. -/
structure SameRound (start s : State T) : Prop where
  blockNumber : s.blockNumber = start.blockNumber
  lastProofBlock : s.lastProofBlock = start.lastProofBlock
  lastProofBlockHash : s.lastProofBlockHash = start.lastProofBlockHash

theorem execute_sameRound {env : Env T} {origin : Origin T.AccountId} {call : Call T}
    (ran : execute s env origin call = .ok s') : SameRound s s' := by
  have moved := execute_moved ran
  cases call with
  | registerMiner => obtain ⟨_, _, _, rfl⟩ := moved; exact ⟨rfl, rfl, rfl⟩
  | deregisterMiner => obtain ⟨_, _, _, rfl⟩ := moved; exact ⟨rfl, rfl, rfl⟩
  | registerTopology registration => obtain ⟨_, _, _, _, _, rfl⟩ := moved; exact ⟨rfl, rfl, rfl⟩
  | setDifficulty topologyHash difficulty => obtain ⟨_, _, _, rfl⟩ := moved; exact ⟨rfl, rfl, rfl⟩
  | submitProof proof => obtain ⟨_, _, _, _, _, rfl⟩ := moved; exact ⟨rfl, rfl, rfl⟩
  | setDefaultTopology topologyHash => obtain ⟨_, _, _, _, rfl⟩ := moved; exact ⟨rfl, rfl, rfl⟩
  | addMineableTopology topologyHash =>
    obtain ⟨_, _, rfl | ⟨_, _, _, rfl⟩⟩ := moved <;> exact ⟨rfl, rfl, rfl⟩
  | removeMineableTopology topologyHash =>
    obtain ⟨_, _, rfl | ⟨_, rfl⟩⟩ := moved <;> exact ⟨rfl, rfl, rfl⟩
  | setTopologyCurve topologyHash curveC => obtain ⟨_, _, _, rfl⟩ := moved; exact ⟨rfl, rfl, rfl⟩
  | setBlockReward amount => obtain ⟨_, rfl⟩ := moved; exact ⟨rfl, rfl, rfl⟩
  | setTargetProofBlocks blocks => obtain ⟨_, rfl⟩ := moved; exact ⟨rfl, rfl, rfl⟩

theorem body_sameRound (s : State T) (action : Action T) : SameRound s ((body T).next s action) := by
  cases action with
  | external balances => exact ⟨rfl, rfl, rfl⟩
  | dispatch env origin call =>
    rcases body_dispatch s env origin call with ⟨same, _⟩ | ⟨after, ran, same, _⟩
    · rw [same]
      exact ⟨rfl, rfl, rfl⟩
    · rw [same]
      exact execute_sameRound ran

theorem run_sameRound (start : State T) (actions : List (Action T)) : SameRound start ((body T).run start actions) := by
  apply (body T).run_follows (fun _ s => SameRound start s) ⟨rfl, rfl, rfl⟩
  intro s _ action same
  have moved := body_sameRound s action
  exact ⟨moved.blockNumber.trans same.blockNumber, moved.lastProofBlock.trans same.lastProofBlock,
    moved.lastProofBlockHash.trans same.lastProofBlockHash⟩

/-- The nonce check of `submit_proof`. -/
def NonceFits (s : State T) (who : T.AccountId) (proof : QuantumProof T) : Prop :=
  proof.nonce = deriveNonce T s.lastProofBlockHash (accountToBytes who) proof.salt

theorem checkProof_nonceFits {who : T.AccountId} {proof : QuantumProof T} {validation : ProofValidation}
    (checked : checkProof s who proof = .ok validation) : NonceFits s who proof := by
  simp only [checkProof, bind_success, ensure_success, okOr_success] at checked
  obtain ⟨_, _, _, _, _, _, _, _, _, _, _, _, _, fits, _⟩ := checked
  exact fits

private theorem pick_avoids {α : Type} {reason : Error} (items : List α) (indices : List Nat) :
    Avoids (.module reason) (pick items indices) := avoids_mapM _ fun _ => avoids_expect

private theorem reported_avoids {α : Type} {convert : IsingValidation.ValidationError → Error} {reason : Error}
    {action : Fallible IsingValidation.ValidationError α} (other : ∀ cause, convert cause ≠ reason) :
    Avoids (.module reason) (reported convert action) := by
  apply avoids_mapErr
  intro cause same
  exact other cause (DispatchError.module.inj same)

private theorem validateProof_avoids (proof : QuantumProof T) (topology : TopologyMeta T)
    (index : IsingValidation.TopologyIndex) (h j : List Int) (difficulty : DifficultyConfig) :
    Avoids (.module .invalidNonce) (validateProof proof topology index h j difficulty) := by
  have unpacking : ∀ cause, unpackError cause ≠ .invalidNonce := by
    intro cause
    cases cause <;> simp [unpackError]
  have scoring : ∀ cause, energyError cause ≠ .invalidNonce := by
    intro cause
    cases cause <;> simp [energyError]
  refine avoids_bind (avoids_mapM _ fun packed => ?_) fun decoded _ => ?_
  · refine avoids_bind (reported_avoids unpacking) fun milli _ => ?_
    exact reported_avoids (by simp)
  refine avoids_bind (avoids_mapM _ fun spins => reported_avoids scoring) fun energies _ => ?_
  refine avoids_bind (avoids_ensure (.inr (by simp))) fun _ _ => ?_
  refine avoids_bind (pick_avoids _ _) fun valid _ => ?_
  refine avoids_bind (avoids_okOr (.inr (by simp))) fun best _ => ?_
  refine avoids_bind (pick_avoids _ _) fun solutions _ => ?_
  refine avoids_bind (reported_avoids (by simp)) fun selected _ => ?_
  refine avoids_bind (pick_avoids _ _) fun chosen _ => ?_
  refine avoids_bind (reported_avoids (by simp)) fun diversity _ => ?_
  exact avoids_pure _

/-- A proof whose nonce fits is not rejected for its nonce. -/
theorem NonceFits.avoids {who : T.AccountId} {proof : QuantumProof T} (fits : NonceFits s who proof) :
    Avoids (.module .invalidNonce) (checkProof s who proof) := by
  refine avoids_bind (avoids_ensure (.inr (by simp))) fun _ _ => ?_
  refine avoids_bind (avoids_ensure (.inr (by simp))) fun _ _ => ?_
  refine avoids_bind (avoids_ensure (.inr (by simp))) fun _ _ => ?_
  refine avoids_bind (avoids_okOr (.inr (by simp))) fun topology _ => ?_
  refine avoids_bind (avoids_ensure (.inr (by simp))) fun _ _ => ?_
  refine avoids_bind (avoids_ensure (.inr (by simp))) fun _ _ => ?_
  refine avoids_bind (avoids_ensure (.inl fits)) fun _ _ => ?_
  refine avoids_bind (reported_avoids (by simp)) fun index _ => ?_
  refine avoids_bind (reported_avoids (by simp)) fun model _ => ?_
  refine avoids_bind (validateProof_avoids _ _ _ _ _ _) fun validation _ => ?_
  refine avoids_bind (avoids_ensure (.inr (by simp))) fun _ _ => ?_
  refine avoids_bind (avoids_ensure (.inr (by simp))) fun _ _ => ?_
  refine avoids_bind (avoids_ensure (.inr (by simp))) fun _ _ => ?_
  exact avoids_pure _

/-- Every accepted proof of a block carries the nonce of the block's seed. -/
theorem accepted_nonceFits (start : State T) (actions : List (Action T)) :
    ∀ accepted ∈ acceptedProofs start actions, NonceFits start accepted.miner accepted.proof := by
  have both := (body T).run_follows
    (fun reports s => SameRound start s ∧
      ∀ accepted ∈ reports.filterMap Executed.accepted, NonceFits start accepted.miner accepted.proof)
    ⟨⟨rfl, rfl, rfl⟩, by simp⟩ ?_ actions
  · exact both.2
  rintro s reports action ⟨same, fits⟩
  have moved := body_sameRound s action
  refine ⟨⟨moved.blockNumber.trans same.blockNumber, moved.lastProofBlock.trans same.lastProofBlock,
    moved.lastProofBlockHash.trans same.lastProofBlockHash⟩, ?_⟩
  intro accepted member
  rw [List.filterMap_append] at member
  rcases List.mem_append.mp member with old | new
  · exact fits accepted old
  · rcases body_cases s action with ⟨who, proof, validation, _, checked, _, told⟩ | ⟨told, _⟩
    · rw [told, List.mem_singleton] at new
      subst new
      have here := checkProof_nonceFits checked
      rw [NonceFits, same.lastProofBlockHash] at here
      exact here
    · rw [told] at new
      cases new

section Chain
variable {hashes : Nat → T.Hash}

/-- The seed between two blocks. It is behind only right after a win: then the
next `on_initialize` still has to fetch it. -/
structure Seeded (hashes : Nat → T.Hash) (s : State T) : Prop where
  between : Between s
  behind : s.lastProofBlock ≤ s.blockNumber
  seed : s.lastProofBlock < s.blockNumber → s.lastProofBlockHash = hashToBytes32 (hashes s.lastProofBlock)

theorem Genesis.seeded (genesis : Genesis s₀) (hashes : Nat → T.Hash) : Seeded hashes s₀ := by
  refine ⟨genesis.noQBlocks.between, by simp [genesis.lastProofBlock], ?_⟩
  intro later
  rw [genesis.blockNumber] at later
  exact absurd later (Nat.not_lt_zero _)

/-- A block on top of `s` as the chain builds it. -/
structure Follows (hashes : Nat → T.Hash) (s : State T) (block : Block T) : Prop where
  consecutive : block.skipped = 0
  parent : block.parentHash = hashes s.blockNumber
  fits : s.blockNumber + 1 ≤ T.maxBlockNumber

/-- `on_initialize` brings the seed up to date. -/
theorem Seeded.initialised (seeded : Seeded hashes s) {block : Block T} (follows : Follows hashes s block) :
    (initialised s block).lastProofBlock = s.lastProofBlock ∧
      (initialised s block).lastProofBlockHash = hashToBytes32 (hashes s.lastProofBlock) := by
  have behind := seeded.behind
  have fits := follows.fits
  have exact : saturatingAdd T.maxBlockNumber s.lastProofBlock 1 = s.lastProofBlock + 1 := by
    apply saturatingAdd_of_le
    omega
  simp only [Pow.initialised, onInitialize, follows.consecutive, exact]
  split
  · rename_i fetched
    have won : s.lastProofBlock = s.blockNumber := by omega
    refine ⟨rfl, ?_⟩
    show hashToBytes32 block.parentHash = _
    rw [follows.parent, won]
  · rename_i kept
    exact ⟨rfl, seeded.seed (by omega)⟩

/-- The seed at every moment of the block. -/
theorem Seeded.moment (seeded : Seeded hashes s) {block : Block T} (follows : Follows hashes s block)
    (done : List (Action T)) :
    ((body T).run (Pow.initialised s block) done).lastProofBlock = s.lastProofBlock ∧
      ((body T).run (Pow.initialised s block) done).lastProofBlockHash = hashToBytes32 (hashes s.lastProofBlock) := by
  have same := run_sameRound (Pow.initialised s block) done
  obtain ⟨number, seed⟩ := seeded.initialised follows
  exact ⟨same.lastProofBlock.trans number, same.lastProofBlockHash.trans seed⟩

theorem Seeded.next (seeded : Seeded hashes s) {block : Block T} (follows : Follows hashes s block) :
    Seeded hashes ((chain T).next s block) ∧ ((chain T).next s block).blockNumber = s.blockNumber + 1 := by
  have unfinished := closing_unfinished seeded.between.blockBestProof block
  have number : (closing s block).blockNumber = s.blockNumber + 1 := by
    rw [unfinished.blockNumber, Built.number, follows.consecutive]
  obtain ⟨last, seed⟩ := seeded.moment follows block.actions
  have behind := seeded.behind
  have after := between_next seeded.between block
  rcases block_cases seeded.between.blockBestProof block with ⟨_, _, same⟩ | ⟨best, reward, _, _, settled⟩
  · rw [same] at after ⊢
    have kept : (closing s block).lastProofBlock = s.lastProofBlock := last
    refine ⟨⟨after, by omega, ?_⟩, number⟩
    intro _
    rw [kept]
    exact seed
  · have won : ((chain T).next s block).lastProofBlock = ((chain T).next s block).blockNumber := by
      rw [settled.lastProofBlock, settled.blockNumber, unfinished.blockNumber]
    refine ⟨⟨after, won.le, ?_⟩, settled.blockNumber.trans number⟩
    intro later
    exact absurd won (ne_of_lt later)

/-- After every linked chain from genesis. -/
theorem run_seeded (genesis : Genesis s₀) (blocks : List (Block T)) (linked : Linked hashes 0 blocks)
    (short : blocks.length ≤ T.maxBlockNumber) :
    Seeded hashes ((chain T).run s₀ blocks) ∧ ((chain T).run s₀ blocks).blockNumber = blocks.length := by
  induction blocks using List.reverseRecOn with
  | nil => exact ⟨genesis.seeded hashes, genesis.blockNumber⟩
  | append_singleton earlier block ih =>
    rw [linked_append, Nat.zero_add] at linked
    obtain ⟨before, consecutive, parent, _⟩ := linked
    rw [List.length_append, List.length_singleton] at short ⊢
    obtain ⟨seeded, number⟩ := ih before (by omega)
    rw [(chain T).run_concat]
    obtain ⟨after, grown⟩ := seeded.next ⟨consecutive, number ▸ parent, by omega⟩
    exact ⟨after, by omega⟩

/-- The block of a linked chain follows the blocks before it. -/
theorem run_follows_block (genesis : Genesis s₀) {blocks earlier : List (Block T)} {block : Block T}
    (linked : Linked hashes 0 blocks) (short : blocks.length ≤ T.maxBlockNumber)
    (placed : earlier ++ [block] <+: blocks) :
    Seeded hashes ((chain T).run s₀ earlier) ∧ Follows hashes ((chain T).run s₀ earlier) block := by
  obtain ⟨rest, rfl⟩ := placed
  rw [List.append_assoc, linked_append, Nat.zero_add] at linked
  obtain ⟨before, consecutive, parent, _⟩ := linked
  simp only [List.length_append, List.length_singleton] at short
  obtain ⟨seeded, number⟩ := run_seeded genesis earlier before (by omega)
  exact ⟨seeded, consecutive, number ▸ parent, by omega⟩

end Chain

/-- The view serves the proof that won, with its own nonce. -/
def Serves (view : Option (QBlockWithNonce T)) (best : AcceptedProof T) : Prop :=
  ∃ solution, view = some { solution, nonce := best.proof.nonce } ∧ Carries solution best

/-- The qblock of a won block gives back the nonce of its winner. -/
private theorem winner_served (between : Between s) (block : Block T) {best : AcceptedProof T}
    (first : FirstLeast AcceptedProof.energyMilli (Built.accepted ⟨s, block⟩) best) :
    ∃ q, ((chain T).next s block).qblocks.lookup (Built.number ⟨s, block⟩) = some q ∧ Carries q best ∧
      deriveNonce T q.lastProofBlockHash (accountToBytes q.miner) q.salt = best.proof.nonce := by
  rcases block_cases between.blockBestProof block with ⟨empty, _, _⟩ | ⟨winner, reward, leads, _, settled⟩
  · exact absurd empty (first.ne_nil _)
  · obtain rfl := leads.unique _ first
    refine ⟨_, by rw [settled.qblocks, AList.lookup_insert], ⟨rfl, rfl, rfl, rfl, rfl⟩, ?_⟩
    obtain ⟨front, rest, listed, _⟩ := leads
    have fits : NonceFits (initialised s block) winner.miner winner.proof := by
      apply accepted_nonceFits (initialised s block) block.actions
      show winner ∈ Built.accepted ⟨s, block⟩
      simp [listed]
    have same := (run_sameRound (initialised s block) block.actions).lastProofBlockHash
    show deriveNonce T (closing s block).lastProofBlockHash _ _ = _
    rw [closing, same]
    exact fits.symm

private theorem served_of_lookup {n : Nat} {q : QBlock T} {best : AcceptedProof T}
    (found : s.qblocks.lookup n = some q) (carries : Carries q best)
    (nonce : deriveNonce T q.lastProofBlockHash (accountToBytes q.miner) q.salt = best.proof.nonce) :
    Serves (qblockWithNonce s n) best := by
  refine ⟨q, ?_, carries⟩
  simp [qblockWithNonce, found, nonce]

/-- Inside a later block the qblocks are those of the storage it was built on. -/
private theorem moment_qblocks (between : Between s) (block : Block T) (done : List (Action T)) :
    ((body T).run (initialised s block) done).qblocks = s.qblocks := by
  have begun := initialised_spec s block
  have standing := standing_run (begun.blockBestProof.trans between.blockBestProof) begun.blockProofCount done
  exact standing.qblocks.trans begun.qblocks

/-- Nonce seed stability, for every linked chain from genesis. At every moment of
every block the cached seed is the hash of the last winning block (block 0 before
the first win); a proof accepted at one moment passes the nonce check, with its
nonce and salt, at every other moment with the same last winning block; and every
qblock gives back the nonce of the proof that won it, at the end of every later
block and at every moment of one. -/
theorem nonce_seed_stable (genesis : Genesis s₀) (hashes : Nat → T.Hash) (blocks : List (Block T))
    (linked : Linked hashes 0 blocks) (short : blocks.length ≤ T.maxBlockNumber) :
    (∀ moment : Moment T, moment.On blocks →
      (moment.state s₀).lastProofBlockHash = hashToBytes32 (hashes (moment.state s₀).lastProofBlock)) ∧
    (∀ first second : Moment T, first.On blocks → second.On blocks →
      (first.state s₀).lastProofBlock = (second.state s₀).lastProofBlock →
      ∀ who proof validation, checkProof (first.state s₀) who proof = .ok validation →
      ∀ again : QuantumProof T, again.nonce = proof.nonce → again.salt = proof.salt →
        NonceFits (second.state s₀) who again ∧
        Avoids (.module .invalidNonce) (checkProof (second.state s₀) who again)) ∧
    (∀ earlier block, earlier ++ [block] <+: blocks →
      ∀ best, FirstLeast AcceptedProof.energyMilli (Built.accepted ⟨(chain T).run s₀ earlier, block⟩) best →
        (∀ later, (earlier ++ [block]) ++ later <+: blocks →
          Serves (qblockWithNonce ((chain T).run s₀ ((earlier ++ [block]) ++ later))
            (Built.number ⟨(chain T).run s₀ earlier, block⟩)) best) ∧
        (∀ moment : Moment T, moment.On blocks → earlier ++ [block] <+: moment.earlier →
          Serves (qblockWithNonce (moment.state s₀) (Built.number ⟨(chain T).run s₀ earlier, block⟩)) best)) := by
  have seed : ∀ moment : Moment T, moment.On blocks →
      (moment.state s₀).lastProofBlockHash = hashToBytes32 (hashes (moment.state s₀).lastProofBlock) := by
    rintro moment ⟨placed, _⟩
    obtain ⟨seeded, follows⟩ := run_follows_block genesis linked short placed
    obtain ⟨last, hash⟩ := seeded.moment follows moment.done
    rw [Moment.state, hash, last]
  refine ⟨seed, ?_, ?_⟩
  · intro first second onFirst onSecond same who proof validation checked again sameNonce sameSalt
    have fits : NonceFits (second.state s₀) who again := by
      have before := checkProof_nonceFits checked
      rw [NonceFits, seed first onFirst, same] at before
      rw [NonceFits, seed second onSecond, sameNonce, sameSalt]
      exact before
    exact ⟨fits, fits.avoids⟩
  · intro earlier block placed best first
    have between := run_between genesis.noQBlocks earlier
    obtain ⟨q, found, carries, nonce⟩ := winner_served between block first
    have lasting : ∀ later, ((chain T).run s₀ ((earlier ++ [block]) ++ later)).qblocks.lookup
        (Built.number ⟨(chain T).run s₀ earlier, block⟩) = some q := by
      intro later
      rw [(chain T).run_append]
      apply qblocks_run (run_between genesis.noQBlocks _) later
      rw [(chain T).run_concat]
      exact found
    refine ⟨fun later _ => served_of_lookup (lasting later) carries nonce, ?_⟩
    rintro moment _ ⟨later, after⟩
    apply served_of_lookup _ carries nonce
    rw [Moment.state, moment_qblocks (run_between genesis.noQBlocks _) moment.block moment.done, ← after]
    exact lasting later

/-- A round over two blocks: the second one is won with the seed of block 0. -/
def tinyRound : List (Block tinyConfig) := [tinyBlock 3 (tinyOpening.take 4), tinyBlock 4 (tinyOpening.drop 4)]

/-- The second block of the round, before its first dispatch. -/
def tinyMoment : Moment tinyConfig := ⟨[tinyBlock 3 (tinyOpening.take 4)], tinyBlock 4 (tinyOpening.drop 4), []⟩

theorem nonce_seed_stable_tinyRound :
    (tinyMoment.state tinyGenesis).lastProofBlock = 0 ∧
    (Built.accepted ⟨(chain tinyConfig).run tinyGenesis tinyMoment.earlier, tinyMoment.block⟩).length = 2 ∧
    (tinyMoment.state tinyGenesis).lastProofBlockHash =
      hashToBytes32 (T := tinyConfig) ((tinyMoment.state tinyGenesis).lastProofBlock + 3 : Nat) :=
  ⟨by decide +kernel, by decide +kernel,
    (nonce_seed_stable tinyGenesis_genesis (fun n => (n + 3 : Nat)) tinyRound ⟨rfl, rfl, rfl, rfl, trivial⟩
      (by decide)).1 tinyMoment ⟨List.prefix_refl _, List.nil_prefix⟩⟩

end QuipValidator.Pow
