import Mathlib.Algebra.BigOperators.Group.List.Basic
import Mathlib.Algebra.Order.BigOperators.Group.List
import Mathlib.Algebra.Order.Ring.Nat
import QuipValidator.AdmissionElection

/-! What a voter snapshot lists. The scan's heap holds the best nominators
whatever order the map is iterated in; the byte loop leaves the longest prefix
that fits; and an event reports exactly that a voter was left out. -/
namespace QuipValidator.AdmissionData
open Fallible LongestPrefix

@[simp] theorem voterOf_nominated {AccountId : Type} (voter : Voter AccountId) : voterOf voter.nominated = voter := rfl

section Size
variable {AccountId : Type} (account : AccountId → Scale.FixedBytes 32)

private theorem length_encodeLength (length : Nat) : (Scale.encodeLength length).length ≤ 5 := by
  unfold Scale.encodeLength
  split_ifs <;> simp

/-- A compact length, the accounts at 32 bytes each, and the stake at 8. -/
theorem encodedSize_le (voter : Voter AccountId) : voter.encodedSize account ≤ 557 := by
  have votes : (voter.votes.val.flatMap fun who => (account who).val).length = 32 * voter.votes.val.length := by
    rw [List.length_flatMap, List.map_congr_left (fun who _ => (account who).property), List.map_const',
      List.sum_replicate]
    exact Nat.mul_comm _ _
  have few := voter.votes.property
  have front := length_encodeLength voter.votes.val.length
  simp only [Voter.encodedSize, Voter.encode, Scale.encodeVec, List.length_append, (account voter.who).property,
    Scale.length_littleEndian, votes]
  unfold MaxVotesPerVoter at few
  omega

theorem sizes_le (voters : List (Voter AccountId)) :
    (voters.map (Voter.encodedSize account)).sum ≤ 557 * voters.length := by
  have each : ∀ size ∈ voters.map (Voter.encodedSize account), size ≤ 557 := by
    intro size member
    obtain ⟨voter, -, rfl⟩ := List.mem_map.mp member
    exact encodedSize_le account voter
  simpa [Nat.mul_comm] using List.sum_le_card_nsmul _ _ each

/-- The encoding of a whole snapshot: its length prefix and its voters. -/
theorem length_encodeVec (voters : List (Voter AccountId)) :
    (Scale.encodeVec (Voter.encode account) voters).length =
      (Scale.encodeLength voters.length).length + (voters.map (Voter.encodedSize account)).sum := by
  rw [Scale.encodeVec, List.length_append, List.length_flatMap]
  rfl

/-- The running size is the size of what is left, so the loop gives up voters
exactly while the snapshot is over the byte bound. -/
theorem dropVoters_eq (own size : Nat) (tail : List (Voter AccountId)) (few : tail.length ≤ 2 ^ 20) :
    dropVoters account own size tail (tail.map (Voter.encodedSize account)).sum =
      trim (FitsBytes account (some size)) own tail := by
  induction tail with
  | nil => rfl
  | cons voter voters ih =>
    rw [List.length_cons] at few
    have total := sizes_le account (voter :: voters)
    have prefixed := length_encodeLength (voters.length + 1)
    have exact : saturatingAdd u32Max ((voter :: voters).map (Voter.encodedSize account)).sum
        (Scale.encodeLength (asU32 (voters.length + 1))).length =
          (Scale.encodeVec (Voter.encode account) (voter :: voters).reverse).length := by
      have exactly := length_encodeVec account (voter :: voters).reverse
      rw [List.map_reverse, List.sum_reverse, List.length_reverse, List.length_cons] at exactly
      rw [List.length_cons] at total
      rw [asU32_of_lt (by omega), saturatingAdd_of_le (by unfold u32Max; omega), exactly, Nat.add_comm]
    have exceeds : ¬ FitsBytes account (some size) (voter :: voters).reverse ↔
        size < (Scale.encodeVec (Voter.encode account) (voter :: voters).reverse).length := by
      simp [FitsBytes]
    rw [dropVoters, trim, exact]
    by_cases cut : own < voters.length + 1 ∧ ¬ FitsBytes account (some size) (voter :: voters).reverse
    · rw [if_pos cut, if_pos ⟨cut.1, exceeds.mp cut.2⟩, List.map_cons, List.sum_cons, Nat.add_sub_cancel_left]
      exact ih (by omega)
    · rw [if_neg cut, if_neg fun drops => cut ⟨drops.1, exceeds.mpr drops.2⟩]

/-- A list short enough to be counted is cut to its longest prefix that fits. -/
theorem withinBytes_eq (own : Nat) (size : Option Nat) {voters : List (Voter AccountId)}
    (few : voters.length ≤ 2 ^ 20) :
    withinBytes account own size voters = longestPrefix (FitsBytes account size) own voters := by
  cases size with
  | none => exact (longestPrefix_whole _ (fun _ impossible => nomatch impossible) _).symm
  | some size =>
    have total := sizes_le account voters
    have fits : 0 + (voters.map (Voter.encodedSize account)).sum ≤ u32Max := by
      unfold u32Max
      omega
    have payload := foldl_saturatingAdd (voters.map (Voter.encodedSize account)) fits
    rw [List.foldl_map, Nat.zero_add, ← List.sum_reverse, ← List.map_reverse] at payload
    rw [withinBytes, payload, dropVoters_eq account _ size _ (by rwa [List.length_reverse]), trim_reverse]

end Size

variable {AccountId : Type} [LinearOrder AccountId]

section Scanning
variable (targets : List AccountId) (nominatorSlots : Nat) (weightOf : AccountId → Nat)

theorem scanNominator_eq (scan : Scan AccountId) (entry : Σ _ : AccountId, Nominations AccountId) :
    scanNominator targets nominatorSlots weightOf scan entry =
      .ok (match nominatorVote targets weightOf entry with
        | none => scan
        | some voter =>
          ⟨saturatingAdd u32Max scan.eligible 1, scan.nominated.retain nominatorSlots voter.nominated⟩) := by
  have fits : (entry.2.targets.val.filter (· ∈ targets)).length ≤ MaxVotesPerVoter :=
    (entry.2.targets.retain (· ∈ targets)).property
  unfold scanNominator nominatorVote
  by_cases skipped : entry.2.suppressed ∨ entry.1 ∈ targets
  · have out : ¬ (entry.2.suppressed = false ∧ entry.1 ∉ targets ∧
        entry.2.targets.val.filter (· ∈ targets) ≠ [] ∧ 0 < weightOf entry.1) := by
      rintro ⟨shown, outside, -⟩
      rcases skipped with suppressed | candidate
      · simp [shown] at suppressed
      · exact outside candidate
    rw [if_pos skipped, if_neg out]
  · obtain ⟨shown, outside⟩ := not_or.mp skipped
    rw [if_neg skipped]
    by_cases backsNone : entry.2.targets.val.filter (· ∈ targets) = []
    · rw [if_pos backsNone, if_neg fun counts => counts.2.2.1 backsNone]
    · rw [if_neg backsNone]
      by_cases unstaked : weightOf entry.1 = 0
      · rw [if_pos unstaked, if_neg fun counts => counts.2.2.2.ne' unstaked]
      · rw [if_neg unstaked, if_pos ⟨by simpa using shown, outside, backsNone, Nat.pos_of_ne_zero unstaked⟩,
          BoundedVec.tryFrom_of_le fits]
        rfl

/-- The whole loop: every vote that counts is counted, and the heap has seen each once. -/
theorem foldlM_scanNominator (entries : List (Σ _ : AccountId, Nominations AccountId)) (scan : Scan AccountId)
    (small : scan.eligible ≤ u32Max) :
    entries.foldlM (scanNominator targets nominatorSlots weightOf) scan =
      .ok {
        eligible := min (scan.eligible + (entries.filterMap (nominatorVote targets weightOf)).length) u32Max
        nominated := ((entries.filterMap (nominatorVote targets weightOf)).map Voter.nominated).foldl
          (BinaryHeap.retain nominatorSlots) scan.nominated } := by
  induction entries generalizing scan with
  | nil =>
    rw [List.foldlM_nil]
    simp [Nat.min_eq_left small]
    rfl
  | cons entry rest ih =>
    rw [List.foldlM_cons, scanNominator_eq]
    cases counted : nominatorVote targets weightOf entry with
    | none =>
      rw [List.filterMap_cons_none counted]
      exact ih scan small
    | some voter =>
      rw [List.filterMap_cons_some counted]
      have next := ih ⟨saturatingAdd u32Max scan.eligible 1, scan.nominated.retain nominatorSlots voter.nominated⟩
        (Nat.min_le_right _ _)
      have count : ∀ more, min (saturatingAdd u32Max scan.eligible 1 + more) u32Max =
          min (scan.eligible + (more + 1)) u32Max := by
        intro more
        unfold saturatingAdd
        omega
      rw [count] at next
      exact next

/-- Each entry stands for at most one vote, under its own account. -/
theorem nominatorVote_who {entry : Σ _ : AccountId, Nominations AccountId} {voter : Voter AccountId}
    (counted : nominatorVote targets weightOf entry = some voter) : voter.who = entry.1 := by
  unfold nominatorVote at counted
  split at counted
  · cases counted
    rfl
  · cases counted

theorem whos_sublist (entries : List (Σ _ : AccountId, Nominations AccountId)) :
    ((entries.filterMap (nominatorVote targets weightOf)).map Voter.who).Sublist entries.keys := by
  induction entries with
  | nil => exact List.Sublist.refl _
  | cons entry rest ih =>
    cases counted : nominatorVote targets weightOf entry with
    | none =>
      rw [List.filterMap_cons_none counted]
      exact ih.cons _
    | some voter =>
      rw [List.filterMap_cons_some counted, List.map_cons, nominatorVote_who targets weightOf counted]
      exact ih.cons_cons _

end Scanning

/-- The nominators' votes that count, in the order the map is iterated. -/
def nominatorVotes (chain : Chain AccountId) : List (Voter AccountId) :=
  chain.nominators.entries.filterMap (nominatorVote (candidates chain) chain.weightOf)

/-- They are the eligible ones. -/
theorem mem_nominatorVotes (chain : Chain AccountId) (voter : Voter AccountId) :
    voter ∈ nominatorVotes chain ↔ Eligible chain voter := by
  rw [nominatorVotes, List.mem_filterMap]
  constructor
  · rintro ⟨entry, listed, counted⟩
    have held : chain.nominators.lookup entry.1 = some entry.2 :=
      (List.mem_dlookup_iff chain.nominators.nodupKeys).mpr listed
    unfold nominatorVote at counted
    split at counted
    · rename_i counts
      cases counted
      exact ⟨⟨entry.2, held, counts.1, rfl⟩, counts.2.1, rfl, counts.2.2.2, counts.2.2.1⟩
    · cases counted
  · rintro ⟨⟨nominations, held, shown, votes⟩, outside, stake, staked, backs⟩
    refine ⟨⟨voter.who, nominations⟩, (List.mem_dlookup_iff chain.nominators.nodupKeys).mp held, ?_⟩
    have counts : nominations.suppressed = false ∧ voter.who ∉ candidates chain ∧
        nominations.targets.val.filter (· ∈ candidates chain) ≠ [] ∧ 0 < chain.weightOf voter.who :=
      ⟨shown, outside, votes ▸ backs, stake ▸ staked⟩
    have same : (⟨voter.who, chain.weightOf voter.who, nominations.targets.retain (· ∈ candidates chain)⟩ :
        Voter AccountId) = voter := by
      rw [Voter.mk.injEq]
      exact ⟨rfl, stake.symm, Subtype.ext votes.symm⟩
    rw [nominatorVote, if_pos counts, same]

/-- The eligible voters as the heap hands them out. -/
def ranked (chain : Chain AccountId) : List (Voter AccountId) :=
  (StableRanking.sortByKey id ((nominatorVotes chain).map Voter.nominated)).map voterOf

theorem ranked_perm (chain : Chain AccountId) : (ranked chain).Perm (nominatorVotes chain) := by
  have sorted := (StableRanking.sortByKey_perm id ((nominatorVotes chain).map Voter.nominated)).map voterOf
  rw [List.map_map] at sorted
  simpa [ranked, Function.comp_def] using sorted

theorem mem_ranked (chain : Chain AccountId) (voter : Voter AccountId) :
    voter ∈ ranked chain ↔ Eligible chain voter :=
  (ranked_perm chain).mem_iff.trans (mem_nominatorVotes chain voter)

/-- Accounts do not repeat, so the heap's order is stake first, then account. -/
theorem ranked_outranks (chain : Chain AccountId) : (ranked chain).Pairwise Outranks := by
  have distinct : ((ranked chain).map Voter.who).Nodup :=
    ((ranked_perm chain).map Voter.who).nodup_iff.mpr
      (List.Nodup.sublist (whos_sublist _ _ chain.nominators.entries) chain.nominators.nodupKeys)
  have apart : (ranked chain).Pairwise fun first second => first.who ≠ second.who := List.pairwise_map.mp distinct
  have ordered : (ranked chain).Pairwise fun first second => first.nominated ≤ second.nominated :=
    List.pairwise_map.mpr (StableRanking.sortByKey_sorted id _)
  refine (apart.and ordered).imp ?_
  rintro first second ⟨differ, le⟩
  rcases Prod.Lex.le_iff.mp le with more | ⟨same, rest⟩
  · exact .inl more
  · rcases Prod.Lex.le_iff.mp rest with lower | ⟨equal, -⟩
    · exact .inr ⟨OrderDual.toDual.injective same, lower⟩
    · exact absurd equal differ

/-- Another iteration order of the same map ranks the same. -/
theorem ranked_reorder (chain : Chain AccountId) {order : StorageMap AccountId (Nominations AccountId)}
    (same : order.entries.Perm chain.nominators.entries) : ranked { chain with nominators := order } = ranked chain :=
  congrArg (List.map voterOf) (BinaryHeap.sort_perm ((same.filterMap _).map Voter.nominated))

theorem selfVote_runs (chain : Chain AccountId) (who : AccountId) :
    selfVote chain who = .ok ⟨who, chain.weightOf who, ⟨[who], length_single who⟩⟩ := by
  rw [selfVote, BoundedVec.tryFrom_of_le (length_single who)]
  rfl

theorem selfVotes_run (chain : Chain AccountId) :
    ∃ own, (candidates chain).mapM (selfVote chain) = .ok own ∧ (own.filter fun voter => 0 < voter.stake) =
      selfVotes chain := by
  have runs : selfVote chain = fun who => pure ⟨who, chain.weightOf who, ⟨[who], length_single who⟩⟩ :=
    funext (selfVote_runs chain)
  rw [runs, List.mapM_pure]
  exact ⟨_, rfl, List.filter_map⟩

theorem selfVotes_length (chain : Chain AccountId) : (selfVotes chain).length ≤ MaxAdmittedAuthorities := by
  rw [selfVotes, List.length_map]
  exact (List.length_filter_le _ _).trans ((List.length_filter_le _ _).trans chain.approved.bounded)

section Snapshot
variable (account : AccountId → Scale.FixedBytes 32) (bounds : DataProviderBounds) (chain : Chain AccountId)

/-- The self-votes and, in the slots they leave, the best eligible nominators. -/
def shortlist : List (Voter AccountId) :=
  selfVotes chain ++ (ranked chain).take (bounds.limit - (selfVotes chain).length)

/-- The shortlist cut to the byte bound, never below the self-votes. -/
def snapshot : List (Voter AccountId) :=
  longestPrefix (FitsBytes account bounds.size) (selfVotes chain).length (shortlist bounds chain)

/-- Everyone who may be listed, as far as a `u32` counts. -/
def eligibleCount : Nat := min ((selfVotes chain).length + (ranked chain).length) u32Max

theorem shortlist_length : (shortlist bounds chain).length ≤ 1164 := by
  have own := selfVotes_length chain
  have slots : bounds.limit ≤ 1100 := by
    unfold DataProviderBounds.limit
    split
    · exact le_rfl
    · exact Nat.min_le_right _ _
  have picked := List.length_take_le (bounds.limit - (selfVotes chain).length) (ranked chain)
  rw [shortlist, List.length_append]
  unfold MaxAdmittedAuthorities at own
  omega

theorem snapshot_isPrefix : snapshot account bounds chain <+: shortlist bounds chain := List.take_prefix _ _

/-- The loops compute the snapshot, and the event's counters are the number of
eligible voters, up to what a `u32` holds, and of voters listed. -/
theorem electingVoters_eq :
    electingVoters account bounds 0 chain =
      .ok (snapshot account bounds chain,
        if (snapshot account bounds chain).length < eligibleCount chain then
          some ⟨eligibleCount chain, (snapshot account bounds chain).length⟩
        else none) := by
  obtain ⟨own, ran, kept⟩ := selfVotes_run chain
  have ownFew := selfVotes_length chain
  have few := shortlist_length bounds chain
  have narrow : asU32 (selfVotes chain).length = (selfVotes chain).length :=
    asU32_of_lt (by unfold MaxAdmittedAuthorities at ownFew; omega)
  have small : (selfVotes chain).length ≤ u32Max := by
    unfold MaxAdmittedAuthorities at ownFew
    unfold u32Max
    omega
  have scanned := foldlM_scanNominator (candidates chain) (bounds.limit - (selfVotes chain).length) chain.weightOf
    chain.nominators.entries ⟨(selfVotes chain).length, .new⟩ small
  have nominated : ((((chain.nominators.entries.filterMap (nominatorVote (candidates chain) chain.weightOf)).map
      Voter.nominated).foldl (BinaryHeap.retain (bounds.limit - (selfVotes chain).length)) .new).intoSortedVec).map
        voterOf = (ranked chain).take (bounds.limit - (selfVotes chain).length) := by
    rw [BinaryHeap.intoSortedVec_retain, List.map_take]
    rfl
  have counted : (chain.nominators.entries.filterMap (nominatorVote (candidates chain) chain.weightOf)).length =
      (ranked chain).length := (ranked_perm chain).length_eq.symm
  have cut : withinBytes account (selfVotes chain).length bounds.size (shortlist bounds chain) =
      snapshot account bounds chain := withinBytes_eq account _ _ (by omega)
  have retained : asU32 (snapshot account bounds chain).length = (snapshot account bounds chain).length :=
    asU32_of_lt (by have shorter := (snapshot_isPrefix account bounds chain).length_le; omega)
  simp only [electingVoters, ensure, if_true, ran, kept, narrow, scanned, nominated, counted, ok_bind]
  rw [← shortlist, cut, retained]
  rfl

theorem snapshot_isPrefix_all : snapshot account bounds chain <+: selfVotes chain ++ ranked chain :=
  (snapshot_isPrefix account bounds chain).trans ((List.prefix_append_right_inj _).mpr (List.take_prefix _ _))

/-- Nobody is listed twice: candidates are distinct, and a nominator is none of them. -/
theorem voters_distinct : (selfVotes chain ++ ranked chain).Nodup := by
  have members : (candidates chain).Nodup :=
    (chain.approved.ascending.imp fun below => ne_of_lt below).sublist List.filter_sublist
  have own : (selfVotes chain).Nodup :=
    (members.sublist List.filter_sublist).map fun _ _ same => congrArg Voter.who same
  have others : (ranked chain).Nodup := by
    refine (ranked_outranks chain).imp ?_
    rintro first _ above rfl
    rcases above with more | ⟨-, lower⟩
    · exact lt_irrefl _ more
    · exact lt_irrefl _ lower
  refine List.nodup_append.mpr ⟨own, others, ?_⟩
  rintro voter listed other nominator rfl
  obtain ⟨who, kept, rfl⟩ := List.mem_map.mp listed
  exact ((mem_ranked chain _).mp nominator).outside (List.mem_filter.mp kept).1

/-- The event goes out exactly when an eligible voter is left out. -/
theorem truncated_iff :
    (snapshot account bounds chain).length < eligibleCount chain ↔
      ∃ voter, (voter ∈ selfVotes chain ∨ Eligible chain voter) ∧ voter ∉ snapshot account bounds chain := by
  have short := (snapshot_isPrefix account bounds chain).length_le.trans (shortlist_length bounds chain)
  have counted : (snapshot account bounds chain).length < eligibleCount chain ↔
      (snapshot account bounds chain).length < (selfVotes chain ++ ranked chain).length := by
    rw [eligibleCount, List.length_append, lt_min_iff]
    unfold u32Max
    omega
  rw [counted, prefix_misses (snapshot_isPrefix_all account bounds chain) (voters_distinct chain)]
  simp only [List.mem_append, mem_ranked]

/-- The voter snapshot is the self-votes of the candidates with stake and then
the best eligible nominators for the slots that are left, cut to the longest
prefix that fits the byte bound but never below the self-votes. An event goes
out exactly when an eligible voter is left out, and the order in which the
nominators' map is iterated changes nothing. -/
theorem electing_voters_snapshot :
    ∃ (order : List (Voter AccountId)) (voters : List (Voter AccountId)) (truncated : Option ElectionVotersTruncated),
      order.Pairwise Outranks ∧ (∀ voter, voter ∈ order ↔ Eligible chain voter) ∧
        electingVoters account bounds 0 chain = .ok (voters, truncated) ∧
        voters = longestPrefix (FitsBytes account bounds.size) (selfVotes chain).length
          (selfVotes chain ++ order.take (bounds.limit - (selfVotes chain).length)) ∧
        (truncated.isSome ↔ ∃ voter, (voter ∈ selfVotes chain ∨ Eligible chain voter) ∧ voter ∉ voters) ∧
        ∀ iterated : StorageMap AccountId (Nominations AccountId),
          iterated.entries.Perm chain.nominators.entries →
            electingVoters account bounds 0 { chain with nominators := iterated } = .ok (voters, truncated) := by
  refine ⟨ranked chain, snapshot account bounds chain, _, ranked_outranks chain, mem_ranked chain,
    electingVoters_eq account bounds chain, rfl, ?_, ?_⟩
  · rw [← truncated_iff]
    split <;> simp_all
  · intro iterated same
    have reordered := electingVoters_eq account bounds { chain with nominators := iterated }
    simp only [snapshot, shortlist, eligibleCount, ranked_reorder chain same] at reordered
    exact reordered

end Snapshot

/-- Accounts written as 32 equal bytes. -/
def tinyAccount (who : Fin 8) : Scale.FixedBytes 32 := ⟨List.replicate 32 (UInt8.ofNat who), List.length_replicate⟩

def tinyNomination (target : Fin 8) (suppressed : Bool) : Nominations (Fin 8) :=
  ⟨⟨[target], length_single target⟩, suppressed⟩

/-- Two candidates, and nominators of which three count: account 6 is
suppressed and account 2 backs nobody approved. -/
def tinyNominators : List (Σ _ : Fin 8, Nominations (Fin 8)) :=
  [⟨4, tinyNomination 0 false⟩, ⟨6, tinyNomination 0 true⟩, ⟨3, tinyNomination 1 false⟩,
    ⟨2, tinyNomination 7 false⟩, ⟨5, tinyNomination 1 false⟩]

def tinyChain : Chain (Fin 8) where
  approved := ⟨[0, 1], by decide, show 2 ≤ 64 by decide⟩
  validators := {0, 1, 7}
  nextKeys := {0, 1}
  nominators := ⟨tinyNominators, show tinyNominators.keys.Nodup by decide⟩
  weightOf who := if who = 5 then 9 else 7

/-- The same map, iterated backwards. -/
def tinyReversed : StorageMap (Fin 8) (Nominations (Fin 8)) :=
  ⟨tinyNominators.reverse, show tinyNominators.reverse.keys.Nodup by decide⟩

/-- The richest nominator and, of two with equal stake, the lower account. -/
theorem electing_voters_snapshot_tinyChain :
    (electingVoters tinyAccount ⟨some 4, none⟩ 0 tinyChain).map (fun result => (result.1.map Voter.who, result.2)) =
        .ok ([0, 1, 5, 3], some ⟨5, 4⟩) ∧
      electingVoters tinyAccount ⟨some 4, none⟩ 0 { tinyChain with nominators := tinyReversed } =
        electingVoters tinyAccount ⟨some 4, none⟩ 0 tinyChain := by
  obtain ⟨_, _, _, -, -, ran, -, -, reordered⟩ := electing_voters_snapshot tinyAccount ⟨some 4, none⟩ tinyChain
  exact ⟨by decide, (reordered tinyReversed (List.reverse_perm _)).trans ran.symm⟩

end QuipValidator.AdmissionData
