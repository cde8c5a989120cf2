import QuipValidator.FixedPoint
import QuipValidator.MempoolTypes
import QuipValidator.StableRanking
import Mathlib.Algebra.BigOperators.Ring.List
import Mathlib.Algebra.Ring.Parity

/-! `rewards.rs`: the incremental Top-N list and the three payout rules. The
payout rules divide with remainders and saturating `u128` arithmetic; what they
hand out always adds up to the reward. -/
namespace QuipValidator.Mempool
open StableRanking

variable {T : Config}

/-- `*existing = candidate` at the first entry of the candidate's solver. -/
def replaceFirst (candidate : RankedSolver T) : List (RankedSolver T) → List (RankedSolver T)
  | [] => []
  | entry :: rest =>
    if entry.solver = candidate.solver then candidate :: rest
    else entry :: replaceFirst candidate rest

/-- Update a ranked top-N set with a new candidate. -/
def updateRankedSolvers (current : List (RankedSolver T)) (candidate : RankedSolver T) (limit : Nat) :
    List (RankedSolver T) :=
  let next :=
    match current.find? (fun entry => entry.solver = candidate.solver) with
    | some existing =>
      if candidate.energyMilli < existing.energyMilli then replaceFirst candidate current else current
    | none => current ++ [candidate]
  (sortByKey RankedSolver.energyMilli next).take limit

private theorem replaceFirst_listed (candidate : RankedSolver T) {front back : List (RankedSolver T)}
    {existing : RankedSolver T} (same : existing.solver = candidate.solver)
    (others : ∀ entry ∈ front, entry.solver ≠ candidate.solver) :
    replaceFirst candidate (front ++ existing :: back) = front ++ candidate :: back := by
  induction front with
  | nil => simp [replaceFirst, same]
  | cons first rest ih =>
    have tail := ih fun entry member => others entry (List.mem_cons_of_mem _ member)
    simp [replaceFirst, others first List.mem_cons_self, tail]

/-- The truncated list is updated as if nothing had been truncated, as long as
every candidate improves on its solver's earlier ones. -/
theorem updateRankedSolvers_ranking {entries : List (RankedSolver T)} {candidate : RankedSolver T} (limit : Nat)
    (improves : ∀ old ∈ entries, old.solver = candidate.solver → candidate.energyMilli < old.energyMilli) :
    updateRankedSolvers ((ranking RankedSolver.solver RankedSolver.energyMilli entries).take limit) candidate limit =
      (ranking RankedSolver.solver RankedSolver.energyMilli (entries ++ [candidate])).take limit := by
  unfold updateRankedSolvers
  cases listed : ((ranking RankedSolver.solver RankedSolver.energyMilli entries).take limit).find?
      fun entry => entry.solver = candidate.solver with
  | none =>
    refine take_ranking_push _ _ limit ?_
    intro other member
    simpa using List.find?_eq_none.mp listed other member
  | some existing =>
    obtain ⟨same, front, back, shape, others⟩ := List.find?_eq_some_iff_append.mp listed
    have same : existing.solver = candidate.solver := by simpa using same
    have member : existing ∈ entries := by
      have taken : existing ∈ (ranking RankedSolver.solver RankedSolver.energyMilli entries).take limit := by
        simp [shape]
      exact mem_of_mem_latest _ ((sortByKey_perm _ _).mem_iff.mp (List.mem_of_mem_take taken))
    have better := improves existing member same
    dsimp only
    rw [if_pos better, shape, replaceFirst_listed candidate same fun entry inFront => by simpa using others entry inFront]
    exact take_ranking_replace _ _ limit shape same better

/-- A solver, its amount and its energy. -/
abbrev Payout (T : Config) := T.AccountId × Nat × Int

def singleBestPayouts (frontRunner : FrontRunner T) (reward : Nat) : List (Payout T) :=
  [(frontRunner.solver, reward, frontRunner.energyMilli)]

/-- Equal split; the remainder goes to the best-ranked solver. -/
def topNEqualPayouts (ranked : List (RankedSolver T)) (reward : Nat) : List (Payout T) :=
  if ranked.isEmpty then []
  else
    let base := reward / ranked.length
    let remainder := reward % ranked.length
    ranked.zipIdx.map fun (entry, index) =>
      (entry.solver, base + (if index = 0 then remainder else 0), entry.energyMilli)

/-- What rank `index` of `count` gets before the remainder is assigned. The
division is split so that the product cannot overflow. -/
def weightedShare (reward count totalWeight index : Nat) : Nat :=
  let weight := count - index
  saturatingAdd u128Max (saturatingMul u128Max (reward / totalWeight) weight)
    (saturatingMul u128Max (reward % totalWeight) weight / totalWeight)

/-- Rank-weighted split: rank `r` of `k` has weight `k - r`. -/
def topNWeightedPayouts (ranked : List (RankedSolver T)) (reward : Nat) : List (Payout T) :=
  if ranked.isEmpty then []
  else
    let count := ranked.length
    let totalWeight := saturatingMul u128Max count (saturatingAdd u128Max count 1) / 2
    let payouts := ranked.zipIdx.map fun (entry, index) =>
      (entry.solver, weightedShare reward count totalWeight index, entry.energyMilli)
    let distributed := payouts.foldl (fun sum payout => saturatingAdd u128Max sum payout.2.1) 0
    let remainder := reward - distributed
    match payouts with
    | [] => []
    | (solver, payout, energy) :: rest => (solver, saturatingAdd u128Max payout remainder, energy) :: rest

private theorem zipped_solvers (ranked : List (RankedSolver T)) (start : Nat) (amount : Nat → Nat) :
    ((ranked.zipIdx start).map fun (entry, index) => ((entry.solver, amount index, entry.energyMilli) : Payout T)).map
      Prod.fst = ranked.map RankedSolver.solver := by
  induction ranked generalizing start with
  | nil => rfl
  | cons first rest ih => simpa using ih (start + 1)

theorem topNEqualPayouts_solvers (ranked : List (RankedSolver T)) (reward : Nat) :
    (topNEqualPayouts ranked reward).map Prod.fst = ranked.map RankedSolver.solver := by
  unfold topNEqualPayouts
  split
  · rename_i empty
    rw [List.isEmpty_iff.mp empty]
    rfl
  · exact zipped_solvers ranked 0 fun index => reward / ranked.length + if index = 0 then reward % ranked.length else 0

theorem topNWeightedPayouts_solvers (ranked : List (RankedSolver T)) (reward : Nat) :
    (topNWeightedPayouts ranked reward).map Prod.fst = ranked.map RankedSolver.solver := by
  unfold topNWeightedPayouts
  split
  · rename_i empty
    rw [List.isEmpty_iff.mp empty]
    rfl
  · have listed := zipped_solvers ranked 0 fun index => weightedShare reward ranked.length
      (saturatingMul u128Max ranked.length (saturatingAdd u128Max ranked.length 1) / 2) index
    dsimp only
    -- The remainder changes the first amount only.
    split
    · rename_i empty
      rw [← listed, empty]
    · rename_i solver payout energy rest shape
      rw [← listed, shape]
      rfl

/-- The amounts of a payout list added up. -/
def totalPaid (payouts : List (Payout T)) : Nat := (payouts.map fun payout => payout.2.1).sum

@[simp] theorem totalPaid_nil : totalPaid ([] : List (Payout T)) = 0 := rfl

@[simp] theorem totalPaid_cons (solver : T.AccountId) (amount : Nat) (energy : Int) (rest : List (Payout T)) :
    totalPaid ((solver, amount, energy) :: rest) = amount + totalPaid rest := rfl

theorem singleBestPayouts_total (frontRunner : FrontRunner T) (reward : Nat) :
    totalPaid (singleBestPayouts frontRunner reward) = reward := by
  simp [totalPaid, singleBestPayouts]

private theorem equal_tail_total (ranked : List (RankedSolver T)) (base remainder start : Nat) (later : 0 < start) :
    totalPaid ((ranked.zipIdx start).map fun (entry, index) =>
      (entry.solver, base + (if index = 0 then remainder else 0), entry.energyMilli)) =
      base * ranked.length := by
  induction ranked generalizing start with
  | nil => rfl
  | cons entry rest ih =>
    have tail := ih (start + 1) (by omega)
    simp only [totalPaid, List.zipIdx_cons, List.map_cons, List.sum_cons, List.length_cons] at tail ⊢
    rw [tail, if_neg (by omega), Nat.mul_succ]
    omega

theorem topNEqualPayouts_total {ranked : List (RankedSolver T)} (occupied : ranked ≠ []) (reward : Nat) :
    totalPaid (topNEqualPayouts ranked reward) = reward := by
  cases ranked with
  | nil => exact absurd rfl occupied
  | cons entry rest =>
    have tail := equal_tail_total rest (reward / (rest.length + 1)) (reward % (rest.length + 1)) 1 (by omega)
    have divided := Nat.div_add_mod reward (rest.length + 1)
    rw [Nat.mul_comm, Nat.mul_succ] at divided
    simp only [totalPaid, topNEqualPayouts, List.isEmpty_cons, Bool.false_eq_true, if_false,
      List.zipIdx_cons, List.map_cons, List.sum_cons, List.length_cons, Nat.zero_add, if_true] at tail ⊢
    rw [tail]
    omega

private theorem weights_total (start count : Nat) :
    ((List.range' start count).map fun index => start + count - index).sum * 2 = count * (count + 1) := by
  induction count generalizing start with
  | zero => rfl
  | succ count ih =>
    have rest := ih (start + 1)
    have shift : start + (count + 1) = start + 1 + count := by omega
    rw [List.range'_succ, List.map_cons, List.sum_cons, shift, Nat.add_mul, rest]
    have head : (start + 1 + count - start) * 2 = 2 * (count + 1) := by omega
    rw [head, ← Nat.add_mul, Nat.mul_comm, Nat.add_comm 2 count]

/-- Below `2 ^ 32` ranks nothing saturates, so a share is its plain formula. -/
private theorem weightedShare_plain {reward count weight total index : Nat} (rewardFits : reward ≤ u128Max)
    (few : count < 2 ^ 32) (weighs : weight = count - index) (ranked : weight ≤ total)
    (totals : total * 2 = count * (count + 1)) :
    weightedShare reward count total index = reward / total * weight + reward % total * weight / total := by
  have whole : reward / total * weight ≤ reward :=
    (Nat.mul_le_mul_left _ ranked).trans (Nat.div_mul_le_self _ _)
  by_cases empty : total = 0
  · have none : weight = 0 := by omega
    simp [weightedShare, ← weighs, none, empty, saturatingAdd, saturatingMul]
  have below : reward % total < total := Nat.mod_lt _ (by omega)
  have totalSmall : total < 2 ^ 64 := by
    have square : count * (count + 1) ≤ 2 ^ 32 * 2 ^ 32 := Nat.mul_le_mul (by omega) (by omega)
    omega
  have product : reward % total * weight ≤ u128Max := by
    have bound : reward % total * weight ≤ 2 ^ 64 * 2 ^ 32 := Nat.mul_le_mul (by omega) (by omega)
    exact bound.trans (by decide)
  have part : reward % total * weight / total ≤ reward % total := by
    apply Nat.div_le_of_le_mul
    rw [Nat.mul_comm]
    exact Nat.mul_le_mul_right _ ranked
  have split : reward / total * weight + reward % total * weight / total ≤ u128Max := by
    have whole : reward / total * weight ≤ reward / total * total := Nat.mul_le_mul_left _ ranked
    have divided := Nat.div_add_mod' reward total
    omega
  rw [weightedShare, ← weighs, saturatingMul_of_le (whole.trans rewardFits), saturatingMul_of_le product,
    saturatingAdd_of_le split]

/-- A share split at the quotient is the floor of the whole product. -/
theorem split_floor (reward weight : Nat) {total : Nat} (positive : 0 < total) :
    reward / total * weight + reward % total * weight / total = reward * weight / total := by
  have whole : reward * weight = reward % total * weight + total * (reward / total * weight) := by
    rw [← Nat.mul_assoc, ← Nat.add_mul, Nat.mod_add_div]
  rw [whole, Nat.add_mul_div_left _ _ positive, Nat.add_comm]

/-- The sum `k + .. + 1` of the weights. -/
def totalWeight (count : Nat) : Nat := count * (count + 1) / 2

theorem totalWeight_mul_two (count : Nat) : totalWeight count * 2 = count * (count + 1) :=
  Nat.div_mul_cancel (Nat.two_dvd_mul_add_one _)

theorem count_le_totalWeight (count : Nat) : count ≤ totalWeight count := by
  cases count with
  | zero => exact Nat.zero_le _
  | succ count =>
    have square : (count + 1) * 2 ≤ (count + 1) * (count + 1 + 1) := Nat.mul_le_mul_left _ (by omega)
    have doubled := totalWeight_mul_two (count + 1)
    omega

/-- The floor of the reward that a rank is entitled to by its weight. -/
def floorShare (reward count index : Nat) : Nat := reward * (count - index) / totalWeight count

/-- Below `2 ^ 32` ranks a share is the floor, computed without saturating. -/
theorem weightedShare_eq_floor {reward count : Nat} (rewardFits : reward ≤ u128Max) (few : count < 2 ^ 32)
    (occupied : 0 < count) (index : Nat) :
    weightedShare reward count (totalWeight count) index = floorShare reward count index := by
  have wide := count_le_totalWeight count
  rw [weightedShare_plain rewardFits few rfl (by omega) (totalWeight_mul_two count), split_floor _ _ (by omega)]
  rfl

/-- The floors add up to at most the reward. -/
theorem floorShares_le (reward : Nat) {count : Nat} (occupied : 0 < count) :
    ((List.range count).map (floorShare reward count)).sum ≤ reward := by
  have weighed := weights_total 0 count
  simp only [Nat.zero_add, ← List.range_eq_range'] at weighed
  have exact : ((List.range count).map fun index => count - index).sum = totalWeight count := by
    have doubled := totalWeight_mul_two count
    omega
  have wide := count_le_totalWeight count
  have floors := sum_floors_le reward (totalWeight count) ((List.range count).map fun index => count - index)
  rw [exact, Nat.mul_div_cancel _ (by omega), List.map_map] at floors
  exact floors

/-- What the floors leave of the reward, which rank 0 takes. -/
def leftover (reward count : Nat) : Nat := reward - ((List.range count).map (floorShare reward count)).sum

theorem leftover_add_floors (reward : Nat) {count : Nat} (occupied : 0 < count) :
    leftover reward count + ((List.range count).map (floorShare reward count)).sum = reward :=
  Nat.sub_add_cancel (floorShares_le reward occupied)

/-- The rank-weighted split in closed form. -/
theorem topNWeightedPayouts_eq {ranked : List (RankedSolver T)} {reward : Nat} (occupied : ranked ≠ [])
    (few : ranked.length < 2 ^ 32) (rewardFits : reward ≤ u128Max) :
    topNWeightedPayouts ranked reward = ranked.zipIdx.map fun pair =>
      (pair.1.solver, floorShare reward ranked.length pair.2 +
        (if pair.2 = 0 then leftover reward ranked.length else 0), pair.1.energyMilli) := by
  have positive : 0 < ranked.length := List.length_pos_iff.mpr occupied
  have fits : ranked.length * (ranked.length + 1) ≤ u128Max := by
    have square : ranked.length * (ranked.length + 1) ≤ 2 ^ 32 * 2 ^ 32 := Nat.mul_le_mul (by omega) (by omega)
    exact square.trans (by decide)
  have weight : saturatingMul u128Max ranked.length (saturatingAdd u128Max ranked.length 1) / 2 =
      totalWeight ranked.length := by
    rw [saturatingAdd_of_le (by simp only [u128Max]; omega), saturatingMul_of_le fits]
    rfl
  have shares : (ranked.zipIdx.map fun pair : RankedSolver T × Nat =>
      (pair.1.solver, weightedShare reward ranked.length (totalWeight ranked.length) pair.2, pair.1.energyMilli)) =
      ranked.zipIdx.map fun pair =>
        (pair.1.solver, floorShare reward ranked.length pair.2, pair.1.energyMilli) := by
    apply List.map_congr_left
    intro pair _
    rw [weightedShare_eq_floor rewardFits few positive]
  have amounts : (ranked.zipIdx.map fun pair : RankedSolver T × Nat => floorShare reward ranked.length pair.2).sum =
      ((List.range ranked.length).map (floorShare reward ranked.length)).sum := by
    rw [List.range_eq_range', ← List.zipIdx_map_snd 0 ranked, List.map_map]
    rfl
  have within := leftover_add_floors reward positive
  have distributed : (ranked.zipIdx.map fun pair : RankedSolver T × Nat =>
      (pair.1.solver, floorShare reward ranked.length pair.2, pair.1.energyMilli)).foldl
        (fun sum payout => saturatingAdd u128Max sum payout.2.1) 0 =
      ((List.range ranked.length).map (floorShare reward ranked.length)).sum := by
    have fits : 0 + (ranked.zipIdx.map fun pair => floorShare reward ranked.length pair.2).sum ≤ u128Max := by
      rw [Nat.zero_add, amounts]
      omega
    have folded := foldl_saturatingAdd (ranked.zipIdx.map fun pair => floorShare reward ranked.length pair.2) fits
    rw [Nat.zero_add, amounts, List.foldl_map] at folded
    rw [List.foldl_map]
    exact folded
  rw [topNWeightedPayouts, if_neg (by simpa using occupied)]
  simp only [weight, shares, distributed]
  generalize spread : ranked.length = count at *
  cases ranked with
  | nil => exact absurd rfl occupied
  | cons entry rest =>
    have first : floorShare reward count 0 + leftover reward count ≤ u128Max := by
      have member : floorShare reward count 0 ≤ ((List.range count).map (floorShare reward count)).sum :=
        List.single_le_sum (fun _ _ => Nat.zero_le _) _ (List.mem_map_of_mem (List.mem_range.mpr positive))
      omega
    simp only [List.zipIdx_cons, List.map_cons, if_true]
    rw [← leftover, saturatingAdd_of_le first]
    congr 1
    apply List.map_congr_left
    intro pair member
    have later : pair.2 ≠ 0 := by
      have start := (List.mem_zipIdx member).1
      omega
    rw [if_neg later, Nat.add_zero]

/-- An extra that only index 0 carries is added once. -/
private theorem sum_first_extra {count : Nat} (positive : 0 < count) (extra : Nat) :
    ((List.range count).map fun index => if index = 0 then extra else 0).sum = extra := by
  obtain ⟨rest, rfl⟩ := Nat.exists_eq_succ_of_ne_zero (Nat.pos_iff_ne_zero.mp positive)
  rw [List.range_succ_eq_map, List.map_cons, List.sum_cons, List.map_map, if_pos rfl]
  have none : ((List.range rest).map ((fun index => if index = 0 then extra else 0) ∘ Nat.succ)).sum = 0 := by
    apply List.sum_eq_zero
    intro amount member
    obtain ⟨index, _, rfl⟩ := List.mem_map.mp member
    simp
  rw [none, Nat.add_zero]

theorem topNWeightedPayouts_total {ranked : List (RankedSolver T)} {reward : Nat} (occupied : ranked ≠ [])
    (few : ranked.length < 2 ^ 32) (rewardFits : reward ≤ u128Max) :
    totalPaid (topNWeightedPayouts ranked reward) = reward := by
  have positive : 0 < ranked.length := List.length_pos_iff.mpr occupied
  have indices : ranked.zipIdx.map Prod.snd = List.range ranked.length := by
    rw [List.zipIdx_map_snd, List.range_eq_range']
  have amounts : totalPaid (topNWeightedPayouts ranked reward) =
      ((List.range ranked.length).map fun index => floorShare reward ranked.length index +
        (if index = 0 then leftover reward ranked.length else 0)).sum := by
    rw [topNWeightedPayouts_eq occupied few rewardFits, totalPaid, List.map_map, ← indices, List.map_map]
    rfl
  rw [amounts, List.sum_map_add, sum_first_extra positive, Nat.add_comm]
  exact leftover_add_floors reward positive

end QuipValidator.Mempool
