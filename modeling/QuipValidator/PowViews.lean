import QuipValidator.PowBlocks

/-! The read-only side of `pallet-quantum-pow`, as the runtime API serves it from
the storage a block left: the mining snapshot, the per-topology difficulty, and
a qblock with its nonce derived again. -/
namespace QuipValidator.Pow
open IsingPuzzle

variable {T : Config}

/-- What a miner needs to start a round. -/
structure MiningSnapshot (T : Config) where
  lastProofBlockHash : H256
  difficulty : DifficultyConfig
  topologyHash : H256
  nodes : BoundedVec Nat T.maxNodes
  edges : BoundedVec (Nat × Nat) T.maxEdges
  allowedHValues : AllowedValues T
  allowedJValues : AllowedValues T
  allowedSpinValues : AllowedValues T

structure QBlockWithNonce (T : Config) where
  solution : QBlock T
  nonce : Nat

def topologyMeta (s : State T) (hash : H256) : Option (TopologyMeta T) := s.registeredTopologies.lookup hash

def defaultTopologyMeta (s : State T) : Option (H256 × TopologyMeta T) := do
  let topologyHash ← s.defaultTopology
  let topology ← s.registeredTopologies.lookup topologyHash
  pure (topologyHash, topology)

/-- The topology a snapshot is about: the one asked for, or the default. -/
def snapshotTopology (s : State T) : Option H256 → Option (H256 × TopologyMeta T)
  | some hash => (topologyMeta s hash).map fun topology => (hash, topology)
  | none => defaultTopologyMeta s

def miningSnapshot (s : State T) (topologyHash : Option H256) : Option (MiningSnapshot T) := do
  let (topologyHash, topology) ← snapshotTopology s topologyHash
  pure
    { lastProofBlockHash := s.lastProofBlockHash
      difficulty := currentDifficultyFor s topologyHash s.blockNumber
      topologyHash
      nodes := topology.nodes
      edges := topology.edges
      allowedHValues := topology.allowedHValues
      allowedJValues := topology.allowedJValues
      allowedSpinValues := topology.allowedSpinValues }

/-- `difficulty_for_api`. -/
def difficultyForApi (s : State T) (topologyHash : H256) : Option DifficultyConfig :=
  if (s.registeredTopologies.lookup topologyHash).isSome then
    some (currentDifficultyFor s topologyHash s.blockNumber)
  else none

/-- `qblock_with_nonce`: the nonce comes from the seed stored with the qblock. -/
def qblockWithNonce (s : State T) (blockNumber : Nat) : Option (QBlockWithNonce T) := do
  let solution ← s.qblocks.lookup blockNumber
  let nonce := deriveNonce T solution.lastProofBlockHash (accountToBytes solution.miner) solution.salt
  pure { solution, nonce }

def qblockWithNonceById (s : State T) (qblockId : Nat) : Option (QBlockWithNonce T) := do
  let blockNumber ← qblockBlockById s qblockId
  qblockWithNonce s blockNumber

theorem miningSnapshot_seed {s : State T} {topologyHash : Option H256} {snapshot : MiningSnapshot T}
    (served : miningSnapshot s topologyHash = some snapshot) : snapshot.lastProofBlockHash = s.lastProofBlockHash := by
  simp only [miningSnapshot, Option.bind_eq_bind, Option.bind_eq_some_iff] at served
  obtain ⟨_, _, built⟩ := served
  cases built
  rfl

/-- Block 0: nothing is registered and no proof was ever accepted. -/
structure Genesis (s : State T) : Prop where
  blockNumber : s.blockNumber = 0
  lastProofBlock : s.lastProofBlock = 0
  registeredTopologies : s.registeredTopologies = ∅
  defaultTopology : s.defaultTopology = none
  mineableTopologies : s.mineableTopologies = ∅
  difficulties : s.difficulties = ∅
  topologyCurveC : s.topologyCurveC = ∅
  noQBlocks : NoQBlocks s

theorem tinyGenesis_genesis : Genesis tinyGenesis := ⟨rfl, rfl, rfl, rfl, rfl, rfl, rfl, tinyGenesis_noQBlocks⟩

/-- Consecutive blocks on top of block `n`: each carries the hash of the one before it. -/
def Linked (hashes : Nat → T.Hash) : Nat → List (Block T) → Prop
  | _, [] => True
  | n, block :: rest => block.skipped = 0 ∧ block.parentHash = hashes n ∧ Linked hashes (n + 1) rest

theorem linked_append {hashes : Nat → T.Hash} {n : Nat} {earlier later : List (Block T)} :
    Linked hashes n (earlier ++ later) ↔ Linked hashes n earlier ∧ Linked hashes (n + earlier.length) later := by
  induction earlier generalizing n with
  | nil => simp [Linked]
  | cons block rest ih =>
    have moved : n + 1 + rest.length = n + (rest.length + 1) := by omega
    simp only [List.cons_append, Linked, ih, List.length_cons, moved, and_assoc]

/-- A moment of a chain inside a block: after `on_initialize` and some of the
block's dispatches, before `on_finalize`. -/
structure Moment (T : Config) where
  earlier : List (Block T)
  block : Block T
  done : List (Action T)

namespace Moment

/-- The storage at the moment. -/
def state (moment : Moment T) (s₀ : State T) : State T :=
  (body T).run (initialised ((chain T).run s₀ moment.earlier) moment.block) moment.done

/-- The moment lies on the chain. -/
def On (moment : Moment T) (blocks : List (Block T)) : Prop :=
  moment.earlier ++ [moment.block] <+: blocks ∧ moment.done <+: moment.block.actions

end Moment

end QuipValidator.Pow
