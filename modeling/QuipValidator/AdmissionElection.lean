import Mathlib.Data.Finset.Basic
import Mathlib.Data.List.Lex
import Mathlib.Data.Prod.Lex
import QuipValidator.BoundedHeap
import QuipValidator.Fallible
import QuipValidator.Scale
import QuipValidator.StorageMap

/-! The voter snapshot of an admission-first election: the self-votes of the
approved validators, then the best nominators that back one of them. -/
namespace QuipValidator.AdmissionData
open Fallible

def MaxAdmittedAuthorities : Nat := 64
def VoterSnapshotPerBlock : Nat := 1_100

/-- Also the nominations quota of staking. -/
def MaxVotesPerVoter : Nat := 16

/-- `BoundedBTreeSet`: its members in ascending order. -/
structure BoundedBTreeSet (α : Type) [LT α] (bound : Nat) where
  members : List α
  ascending : members.Pairwise (· < ·)
  bounded : members.length ≤ bound

structure Nominations (AccountId : Type) where
  targets : BoundedVec AccountId MaxVotesPerVoter
  suppressed : Bool

/-- What the snapshot reads of the chain. The entries of `nominators` stand in
the order the map is iterated. -/
structure Chain (AccountId : Type) [LinearOrder AccountId] where
  approved : BoundedBTreeSet AccountId MaxAdmittedAuthorities
  /-- The keys of `pallet_staking::Validators`. -/
  validators : Finset AccountId
  /-- The keys of `pallet_session::NextKeys`. -/
  nextKeys : Finset AccountId
  nominators : StorageMap AccountId (Nominations AccountId)
  /-- `Staking::weight_of`. -/
  weightOf : AccountId → Nat

/-- The bounds of a caller, both `u32`. -/
structure DataProviderBounds where
  count : Option Nat
  size : Option Nat

/-- `VoterOf`: an account, its stake and whom it votes for. -/
structure Voter (AccountId : Type) where
  who : AccountId
  stake : Nat
  votes : BoundedVec AccountId MaxVotesPerVoter

structure ElectionVotersTruncated where
  eligible : Nat
  retained : Nat
  deriving DecidableEq

variable {AccountId : Type} [LinearOrder AccountId]

def candidates (chain : Chain AccountId) : List AccountId :=
  chain.approved.members.filter fun who => who ∈ chain.validators ∧ who ∈ chain.nextKeys

def selfVote (chain : Chain AccountId) (who : AccountId) : Fallible String (Voter AccountId) := do
  let votes ← expect (BoundedVec.tryFrom MaxVotesPerVoter [who]) "one self vote fits"
  pure ⟨who, chain.weightOf who, votes⟩

/-- `(Reverse(stake), nominator, votes)`. -/
abbrev Nominated (AccountId : Type) := Natᵒᵈ ×ₗ AccountId ×ₗ BoundedVec AccountId MaxVotesPerVoter

def Voter.nominated (voter : Voter AccountId) : Nominated AccountId :=
  toLex (OrderDual.toDual voter.stake, toLex (voter.who, voter.votes))

def voterOf (nominated : Nominated AccountId) : Voter AccountId :=
  ⟨(ofLex (ofLex nominated).2).1, OrderDual.ofDual (ofLex nominated).1, (ofLex (ofLex nominated).2).2⟩

/-- What the loop over the nominators carries. -/
structure Scan (AccountId : Type) where
  eligible : Nat
  nominated : BinaryHeap (Nominated AccountId)

/-- One turn of that loop. -/
def scanNominator (targets : List AccountId) (nominatorSlots : Nat) (weightOf : AccountId → Nat)
    (scan : Scan AccountId) (entry : Σ _ : AccountId, Nominations AccountId) : Fallible String (Scan AccountId) :=
  if entry.2.suppressed ∨ entry.1 ∈ targets then .ok scan
  else
    let votes := entry.2.targets.val.filter (· ∈ targets)
    if votes = [] then .ok scan
    else
      let stake := weightOf entry.1
      if stake = 0 then .ok scan
      else do
        let votes ← okOr (BoundedVec.tryFrom MaxVotesPerVoter votes) "nomination exceeds the vote bound"
        .ok {
          eligible := saturatingAdd u32Max scan.eligible 1
          nominated := scan.nominated.retain nominatorSlots (Voter.nominated ⟨entry.1, stake, votes⟩) }

def DataProviderBounds.limit (bounds : DataProviderBounds) : Nat :=
  match bounds.count with
  | none => VoterSnapshotPerBlock
  | some bound => min bound VoterSnapshotPerBlock

section Size
variable (account : AccountId → Scale.FixedBytes 32)

/-- The tuple's fields one after the other; a stake is a `u64`. -/
def Voter.encode (voter : Voter AccountId) : List UInt8 :=
  (account voter.who).val ++ Scale.littleEndian 8 voter.stake ++
    Scale.encodeVec (fun who => (account who).val) voter.votes.val

def Voter.encodedSize (voter : Voter AccountId) : Nat := (voter.encode account).length

/-- The loop that drops voters from the tail, which is listed last first. A
`usize` of the WebAssembly runtime is 32 bits wide. -/
def dropVoters (selfVotes size : Nat) : List (Voter AccountId) → Nat → List (Voter AccountId)
  | [], _ => []
  | voter :: voters, payloadSize =>
    if selfVotes < voters.length + 1 ∧
        size < saturatingAdd u32Max payloadSize (Scale.encodeLength (asU32 (voters.length + 1))).length then
      dropVoters selfVotes size voters (payloadSize - voter.encodedSize account)
    else voter :: voters

/-- The cut to the byte bound, if the caller sets one. -/
def withinBytes (selfVotes : Nat) (size : Option Nat) (voters : List (Voter AccountId)) : List (Voter AccountId) :=
  match size with
  | none => voters
  | some size =>
    let payloadSize := voters.foldl (fun total voter => saturatingAdd u32Max total (voter.encodedSize account)) 0
    (dropVoters account selfVotes size voters.reverse payloadSize).reverse

def electingVoters (bounds : DataProviderBounds) (page : Nat) (chain : Chain AccountId) :
    Fallible String (List (Voter AccountId) × Option ElectionVotersTruncated) := do
  ensure (page = 0) "only one election page is supported"
  let targets := candidates chain
  let own ← targets.mapM (selfVote chain)
  let voters := own.filter fun voter => 0 < voter.stake
  let selfVotes := voters.length
  let nominatorSlots := bounds.limit - selfVotes
  let scan ← chain.nominators.entries.foldlM (scanNominator targets nominatorSlots chain.weightOf)
    ⟨asU32 selfVotes, .new⟩
  let voters := withinBytes account selfVotes bounds.size (voters ++ scan.nominated.intoSortedVec.map voterOf)
  let retained := asU32 voters.length
  pure (voters, if retained < scan.eligible then some ⟨scan.eligible, retained⟩ else none)

end Size

/-- One vote fits. -/
theorem length_single {AccountId : Type} (who : AccountId) : [who].length ≤ MaxVotesPerVoter := show 1 ≤ 16 by decide

/-! What a snapshot is for. -/

/-- The self-votes of the candidates with stake, in candidate order. -/
def selfVotes (chain : Chain AccountId) : List (Voter AccountId) :=
  ((candidates chain).filter fun who => 0 < chain.weightOf who).map
    fun who => ⟨who, chain.weightOf who, ⟨[who], length_single who⟩⟩

/-- A nominator's vote: not suppressed, not a candidate, with stake, and for
exactly the candidates among its targets, of which there is one. -/
structure Eligible (chain : Chain AccountId) (voter : Voter AccountId) : Prop where
  nominates : ∃ nominations, chain.nominators.lookup voter.who = some nominations ∧
    nominations.suppressed = false ∧ voter.votes.val = nominations.targets.val.filter (· ∈ candidates chain)
  outside : voter.who ∉ candidates chain
  stake : voter.stake = chain.weightOf voter.who
  staked : 0 < voter.stake
  backs : voter.votes.val ≠ []

/-- The vote an entry of the nominators' map stands for, if it counts. -/
def nominatorVote (targets : List AccountId) (weightOf : AccountId → Nat)
    (entry : Σ _ : AccountId, Nominations AccountId) : Option (Voter AccountId) :=
  if entry.2.suppressed = false ∧ entry.1 ∉ targets ∧ entry.2.targets.val.filter (· ∈ targets) ≠ [] ∧
      0 < weightOf entry.1 then
    some ⟨entry.1, weightOf entry.1, entry.2.targets.retain (· ∈ targets)⟩
  else none

/-- More stake, or the lower account at equal stake. -/
def Outranks (first second : Voter AccountId) : Prop :=
  second.stake < first.stake ∨ first.stake = second.stake ∧ first.who < second.who

/-- The snapshot in SCALE fits the byte bound, if there is one. -/
def FitsBytes (account : AccountId → Scale.FixedBytes 32) (size : Option Nat) (voters : List (Voter AccountId)) :
    Prop :=
  ∀ bound ∈ size, (Scale.encodeVec (Voter.encode account) voters).length ≤ bound

instance (account : AccountId → Scale.FixedBytes 32) (size : Option Nat) :
    DecidablePred (FitsBytes account size) :=
  fun voters =>
    inferInstanceAs (Decidable (∀ bound ∈ size, (Scale.encodeVec (Voter.encode account) voters).length ≤ bound))

end QuipValidator.AdmissionData
