import QuipValidator.BlockWinner

/-! The difficulty a qblock records. `submit_proof` compares a proof with the
live threshold at that moment; `on_finalize` computes the threshold again and
records the second value. The two agree as long as no call changes the threshold
of the topology in front; three calls can, and then the record is wrong. -/
namespace QuipValidator.Pow
open Fallible StableRanking

variable {T : Config} {s s' s₀ start : State T}

/-- The qblock of block `n` records the difficulty its winning proof was compared
with, and its energy lies below it. -/
def EntryCleared (builts : List (Built T)) (n : Nat) (q : QBlock T) : Prop :=
  q.energyMilli < q.difficulty.maxEnergyMilli ∧
  ∃ built ∈ builts, built.number = n ∧
    ∃ best, FirstLeast AcceptedProof.energyMilli built.accepted best ∧ Carries q best ∧ q.difficulty = best.cleared

/-- Every qblock of the chain records what its winner cleared. -/
def RecordsCleared (s₀ : State T) (blocks : List (Block T)) : Prop :=
  ∀ n q, ((chain T).run s₀ blocks).qblocks.lookup n = some q → EntryCleared ((chain T).trace s₀ blocks) n q

/-- While a proof is in front, the call changes the live threshold of its topology. -/
def Retunes (s : State T) (call : Call T) : Prop :=
  ∃ record, s.blockBestProof = some record ∧
    currentDifficultyFor (retuned s call) record.topologyHash s.blockNumber ≠
      currentDifficultyFor s record.topologyHash s.blockNumber

instance (s : State T) (call : Call T) : Decidable (Retunes s call) :=
  match front : s.blockBestProof with
  | none => isFalse (by rintro ⟨record, held, _⟩; rw [front] at held; cases held)
  | some record =>
    decidable_of_iff
      (currentDifficultyFor (retuned s call) record.topologyHash s.blockNumber ≠
        currentDifficultyFor s record.topologyHash s.blockNumber)
      ⟨fun changed => ⟨record, front, changed⟩,
        by rintro ⟨_, held, changed⟩; rw [front] at held; cases held; exact changed⟩

/-- No accepted call of the block retunes the threshold of a proof in front. -/
def Built.Steady (built : Built T) : Prop :=
  ∀ executed ∈ (body T).trace built.initialised built.block.actions, ¬ Retunes executed.before executed.call

instance (built : Built T) : Decidable built.Steady :=
  inferInstanceAs (Decidable (∀ executed ∈ (body T).trace built.initialised built.block.actions,
    ¬ Retunes executed.before executed.call))

/-- The threshold depends on five reads only. -/
private theorem currentDifficultyFor_congr {hash : H256} {n : Nat}
    (difficulties : s'.difficulties = s.difficulties) (lastProofBlock : s'.lastProofBlock = s.lastProofBlock)
    (topologyCurveC : s'.topologyCurveC = s.topologyCurveC)
    (target : s'.targetProofBlocksOverride = s.targetProofBlocksOverride)
    (registered : s'.registeredTopologies.lookup hash = s.registeredTopologies.lookup hash) :
    currentDifficultyFor s' hash n = currentDifficultyFor s hash n := by
  simp only [currentDifficultyFor, energyCurveFor, targetProofBlocks, difficulties, lastProofBlock, topologyCurveC,
    target, registered]

/-- What an accepted proof had to satisfy. -/
private theorem checkProof_cleared {who : T.AccountId} {proof : QuantumProof T} {validation : ProofValidation}
    (checked : checkProof s who proof = .ok validation) :
    (s.registeredTopologies.lookup proof.topologyHash).isSome ∧
      validation.bestEnergyMilli <
        (currentDifficultyFor s proof.topologyHash s.blockNumber).maxEnergyMilli := by
  simp only [checkProof, bind_success, ensure_success, okOr_success] at checked
  obtain ⟨_, _, _, _, _, _, topology, found, _, _, _, _, _, _, index, _, model, _, measured, _, _, below, _, _, _, _,
    done⟩ := checked
  cases done
  exact ⟨by rw [found]; rfl, below⟩

/-- The proof was compared with the threshold that is still live. -/
structure StillCleared (s : State T) (best : AcceptedProof T) : Prop where
  registered : (s.registeredTopologies.lookup best.proof.topologyHash).isSome
  live : best.cleared = currentDifficultyFor s best.proof.topologyHash s.blockNumber
  below : best.energyMilli < best.cleared.maxEnergyMilli

private theorem stillCleared_accepted {who : T.AccountId} {proof : QuantumProof T} {validation : ProofValidation}
    (miner : MinerInfo) (checked : checkProof s who proof = .ok validation) :
    StillCleared (recordProof s who proof validation miner) (acceptedBy s who proof validation) := by
  obtain ⟨registered, below⟩ := checkProof_cleared checked
  exact ⟨registered, rfl, below⟩

/-- A call that stays aside and does not retune leaves the front proof cleared. -/
private theorem stillCleared_aside {call : Call T} (aside : Aside s call s') (steady : ¬ Retunes s call)
    {best : AcceptedProof T} {n : Nat} (front : s.blockBestProof = some (best.record n))
    (cleared : StillCleared s best) : StillCleared s' best := by
  obtain ⟨topology, found⟩ := Option.isSome_iff_exists.mp cleared.registered
  have kept := aside.registered _ _ found
  have same : currentDifficultyFor (retuned s call) best.proof.topologyHash s.blockNumber =
      currentDifficultyFor s best.proof.topologyHash s.blockNumber := by
    by_contra changed
    exact steady ⟨best.record n, front, changed⟩
  have written : currentDifficultyFor s' best.proof.topologyHash s.blockNumber =
      currentDifficultyFor (retuned s call) best.proof.topologyHash s.blockNumber := by
    apply currentDifficultyFor_congr aside.difficulties _ aside.topologyCurveC aside.targetProofBlocksOverride
    · rw [kept, ← found]
      cases call <;> rfl
    · rw [aside.lastProofBlock]
      cases call <;> rfl
  refine ⟨by rw [kept]; rfl, ?_, cleared.below⟩
  rw [aside.blockNumber, written, same]
  exact cleared.live

/-- The proof in front, with the threshold it cleared still live. -/
def FrontCleared (start : State T) (proofs : List (AcceptedProof T)) (s : State T) : Prop :=
  s.blockNumber = start.blockNumber ∧ Leads (StillCleared s) start.blockNumber proofs s.blockBestProof

private theorem frontCleared_step {proofs : List (AcceptedProof T)} (held : FrontCleared start proofs s)
    (action : Action T) (steady : ∀ executed ∈ (body T).report s action, ¬ Retunes executed.before executed.call) :
    FrontCleared start (proofs ++ ((body T).report s action).filterMap Executed.accepted)
      ((body T).next s action) := by
  obtain ⟨number, leads⟩ := held
  rcases body_cases s action with ⟨who, proof, validation, miner, checked, next, reports⟩ | ⟨reports, quiet⟩
  · rw [next, reports]
    refine ⟨number, ?_⟩
    rw [recordProof_blockBestProof, number]
    apply Leads.accept _ (stillCleared_accepted miner checked)
    -- Recording a proof touches none of the storage a threshold reads.
    exact leads.mono fun best _ cleared => ⟨cleared.registered, cleared.live, cleared.below⟩
  · rw [reports, List.append_nil]
    rcases quiet with ⟨balances, next⟩ | ⟨origin, call, told, aside⟩
    · rw [next]
      exact ⟨number, leads.mono fun best _ cleared => ⟨cleared.registered, cleared.live, cleared.below⟩⟩
    · have calm : ¬ Retunes s call := by
        rw [told] at steady
        exact steady _ List.mem_cons_self
      refine ⟨aside.blockNumber.trans number, ?_⟩
      rw [aside.blockBestProof]
      apply leads.mono
      intro best front cleared
      exact stillCleared_aside aside calm front cleared

/-- A steady block ends with its winner still cleared. -/
private theorem frontCleared_run (idle : start.blockBestProof = none) (actions : List (Action T))
    (steady : ∀ executed ∈ (body T).trace start actions, ¬ Retunes executed.before executed.call) :
    FrontCleared start (acceptedProofs start actions) ((body T).run start actions) := by
  have followed := (body T).run_follows
    (fun reports s => (∀ executed ∈ reports, ¬ Retunes executed.before executed.call) →
      FrontCleared start (reports.filterMap Executed.accepted) s)
    (fun _ => ⟨rfl, by rw [idle]; rfl⟩) ?_ actions
  · exact followed steady
  · intro s reports action held calm
    have before : FrontCleared start (reports.filterMap Executed.accepted) s :=
      held fun executed member => calm executed (List.mem_append_left _ member)
    simp only [List.filterMap_append]
    exact frontCleared_step before action fun executed member => calm executed (List.mem_append_right _ member)

private theorem entryCleared_next (between : Between s) {block : Block T} (steady : Built.Steady ⟨s, block⟩)
    {builts : List (Built T)} (earlier : ∀ n q, s.qblocks.lookup n = some q → EntryCleared builts n q)
    {n : Nat} {q : QBlock T} (found : ((chain T).next s block).qblocks.lookup n = some q) :
    EntryCleared (builts ++ [⟨s, block⟩]) n q := by
  have begun := initialised_spec s block
  have old : s.qblocks.lookup n = some q → EntryCleared (builts ++ [⟨s, block⟩]) n q := by
    intro held
    obtain ⟨below, built, member, rest⟩ := earlier n q held
    exact ⟨below, built, List.mem_append_left _ member, rest⟩
  have unfinished := closing_unfinished between.blockBestProof block
  rcases block_cases between.blockBestProof block with ⟨_, _, next⟩ | ⟨_, reward, _, front, settled⟩
  · rw [next, unfinished.qblocks] at found
    exact old found
  · rw [settled.qblocks, unfinished.qblocks, StorageMap.lookup_insert_ite] at found
    split at found
    · rename_i own
      cases found
      have cleared : FrontCleared (initialised s block) (Built.accepted ⟨s, block⟩) (closing s block) :=
        frontCleared_run (begun.blockBestProof.trans between.blockBestProof) block.actions steady
      obtain ⟨_, leads⟩ := cleared
      rw [front, begun.blockNumber] at leads
      obtain ⟨best, first, same, still⟩ := leads
      have live := still.live
      rw [unfinished.blockNumber] at live
      have below := still.below
      rw [live] at below
      rw [same]
      exact ⟨below, ⟨s, block⟩, List.mem_append_right _ List.mem_cons_self, own.symm, best, first,
        ⟨rfl, rfl, rfl, rfl, rfl⟩, live.symm⟩
    · exact old found

/-- Recorded difficulty is the threshold cleared, in every chain in which no
accepted call changes the live threshold of the topology in front. -/
theorem recorded_difficulty_cleared (fresh : NoQBlocks s₀) (blocks : List (Block T))
    (steady : ∀ built ∈ (chain T).trace s₀ blocks, built.Steady) : RecordsCleared s₀ blocks := by
  have followed := (chain T).run_follows
    (fun builts s => Between s ∧ ((∀ built ∈ builts, Built.Steady built) →
      ∀ n q, s.qblocks.lookup n = some q → EntryCleared builts n q))
    ⟨fresh.between, ?_⟩ ?_ blocks
  · exact followed.2 steady
  · intro _ n q found
    simp [fresh.qblocks] at found
  · rintro s builts block ⟨between, recorded⟩
    refine ⟨between_next between block, ?_⟩
    intro calm n q found
    have earlier := recorded fun built member => calm built (List.mem_append_left _ member)
    exact entryCleared_next between (calm _ (List.mem_append_right _ List.mem_cons_self)) earlier found

/-- The difficulty is set before the proofs in both blocks, and both records are right. -/
theorem recorded_difficulty_cleared_tinyChain :
    (∀ built ∈ (chain tinyConfig).trace tinyGenesis tinyChain, built.Steady) ∧
    ((chain tinyConfig).run tinyGenesis tinyChain).qblockCount = 2 ∧ RecordsCleared tinyGenesis tinyChain :=
  have steady : ∀ built ∈ (chain tinyConfig).trace tinyGenesis tinyChain, built.Steady := by decide +kernel
  ⟨steady, by decide +kernel, recorded_difficulty_cleared tinyGenesis_noQBlocks tinyChain steady⟩

/-- One block: a threshold of 0, two proofs that clear it with -1000, and then
root lowers the threshold to -5000. -/
def tinyRetuned : List (Block tinyConfig) :=
  [tinyBlock 3 (tinyOpening ++ [.dispatch tinyEnv .root (.setDifficulty tinyTopology (tinyDifficulty (-5000)))])]

/-- The qblock of that block records a threshold its proof did not clear. -/
theorem recorded_difficulty_retuned : ¬ RecordsCleared tinyGenesis tinyRetuned := by
  intro records
  have stored : (((chain tinyConfig).run tinyGenesis tinyRetuned).qblocks.lookup 1).map
      (fun q => (q.energyMilli, q.difficulty.maxEnergyMilli)) = some (-1000, -5000) := by decide +kernel
  obtain ⟨q, found, same⟩ := Option.map_eq_some_iff.mp stored
  obtain ⟨energy, threshold⟩ := Prod.mk.inj same
  have below := (records 1 q found).1
  rw [energy, threshold] at below
  exact absurd below (by decide)

end QuipValidator.Pow
