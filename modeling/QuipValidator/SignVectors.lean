import Mathlib.Algebra.BigOperators.Fin
import Mathlib.Algebra.BigOperators.Ring.Finset
import Mathlib.Algebra.Order.BigOperators.Group.List
import Mathlib.Algebra.Order.Ring.Int
import Mathlib.Algebra.Ring.CharZero
import Mathlib.Data.Fintype.Card
import Mathlib.Data.Int.Order.Units
import Mathlib.Data.Nat.Choose.Basic
import Mathlib.InformationTheory.Hamming
import Mathlib.Order.Lattice.Nat

/-! Sign vectors up to a global flip. Two vectors of signs span two lines, and
the lines are as far apart as the vectors are uncorrelated. How far apart
`count` lines can be kept on the whole is a number of the width and the count
alone. No closed form of it is known: as many lines as coordinates can all be
half the width apart exactly when a Hadamard matrix of that order exists. -/
namespace QuipValidator.SignVectors
open Finset

section Lines
variable {ι : Type*} [Fintype ι] (u v : ι → ℤˣ)

/-- The inner product of two sign vectors. -/
def correlation : ℤ := ∑ i, (u i : ℤ) * v i

/-- The distance of the two lines: half of what the correlation leaves of the width. -/
def lineDistance : ℕ := (Fintype.card ι - (correlation u v).natAbs) / 2

/-- Each coordinate the vectors disagree in takes two off the correlation. -/
theorem correlation_eq : correlation u v = Fintype.card ι - 2 * #{i | u i ≠ v i} := by
  have coordinate : ∀ i, (u i : ℤ) * v i = 1 - 2 * if u i ≠ v i then 1 else 0 := by
    intro i
    rcases Int.units_eq_one_or (u i) with left | left <;> rcases Int.units_eq_one_or (v i) with right | right
    all_goals rw [left, right]; rfl
  simp only [correlation, coordinate, sum_sub_distrib, ← mul_sum, sum_const, card_univ, nsmul_eq_mul, mul_one,
    sum_boole]

theorem lineDistance_eq_min :
    lineDistance u v = min #{i | u i ≠ v i} (Fintype.card ι - #{i | u i ≠ v i}) := by
  have within : #{i | u i ≠ v i} ≤ Fintype.card ι := card_le_univ _
  rw [lineDistance, correlation_eq]
  omega

theorem lineDistance_le : lineDistance u v ≤ Fintype.card ι / 2 :=
  Nat.div_le_div_right (Nat.sub_le _ _)

theorem lineDistance_comm : lineDistance u v = lineDistance v u := by
  simp only [lineDistance, correlation, mul_comm]

theorem lineDistance_self : lineDistance u u = 0 := by
  rw [lineDistance_eq_min]
  simp

end Lines

section Pairs
variable {α β : Type*} (distance : α → α → ℕ)

/-- The sum of the distances over all pairs of a list. -/
def pairSum : List α → ℕ
  | [] => 0
  | first :: rest => (rest.map (distance first)).sum + pairSum rest

theorem pairSum_map (distance : β → β → ℕ) (f : α → β) (items : List α) :
    pairSum distance (items.map f) = pairSum (fun a b => distance (f a) (f b)) items := by
  induction items with
  | nil => rfl
  | cons first rest ih =>
    rw [List.map_cons, pairSum, pairSum, ih, List.map_map]
    rfl

theorem pairSum_le {bound : ℕ} (each : ∀ a b, distance a b ≤ bound) (items : List α) :
    pairSum distance items ≤ items.length.choose 2 * bound := by
  induction items with
  | nil => simp [pairSum]
  | cons first rest ih =>
    have row : (rest.map (distance first)).sum ≤ rest.length * bound := by
      have bounded := List.sum_le_card_nsmul (rest.map (distance first)) bound (by simpa using fun b _ => each first b)
      simpa using bounded
    have pairs : (first :: rest).length.choose 2 = rest.length + rest.length.choose 2 := by
      rw [List.length_cons, Nat.choose_succ_succ' rest.length 1, Nat.choose_one_right]
    rw [pairs, Nat.add_mul, pairSum]
    omega

/-- Of a symmetric distance the order of the items does not matter. -/
theorem pairSum_perm (symmetric : ∀ a b, distance a b = distance b a) {items others : List α}
    (same : items.Perm others) : pairSum distance items = pairSum distance others := by
  induction same with
  | nil => rfl
  | cons first same ih => rw [pairSum, pairSum, ih, (same.map _).sum_eq]
  | swap first second rest =>
    simp only [pairSum, List.map_cons, List.sum_cons, symmetric second first]
    omega
  | trans _ _ left right => exact left.trans right

theorem pairSum_of_pairwise {apart : ℕ} {items : List α} (each : items.Pairwise fun a b => distance a b = apart) :
    pairSum distance items = items.length.choose 2 * apart := by
  induction each with
  | nil => simp [pairSum]
  | @cons first rest row _ ih =>
    have sum : (rest.map (distance first)).sum = rest.length * apart := by
      rw [List.map_congr_left row, List.map_const', List.sum_replicate, smul_eq_mul]
    rw [pairSum, sum, ih, List.length_cons, Nat.choose_succ_succ' rest.length 1, Nat.choose_one_right, Nat.add_mul]

theorem pairSum_replicate {a : α} (same : distance a a = 0) (count : ℕ) :
    pairSum distance (List.replicate count a) = 0 := by
  induction count with
  | zero => rfl
  | succ count ih => simp [List.replicate_succ, pairSum, ih, same]

end Pairs

/-- The totals, up to `cap`, that `count` lines in `width` coordinates can have. -/
def Spreads (width count cap : ℕ) : Set ℕ :=
  {total | total ≤ cap ∧ ∃ family : List (Fin width → ℤˣ), family.length = count ∧ pairSum lineDistance family = total}

/-- How far apart, in total over the pairs and up to `cap`, `count` lines in
`width` coordinates can be. -/
noncomputable def widestSpread (width count cap : ℕ) : ℕ := sSup (Spreads width count cap)

variable {width count cap : ℕ}

theorem spreads_bounded : BddAbove (Spreads width count cap) := ⟨cap, fun _ member => member.1⟩

/-- Lines that all coincide have total zero, so some total is always reached. -/
theorem zero_mem_spreads : 0 ∈ Spreads width count cap :=
  ⟨Nat.zero_le _, List.replicate count 1, List.length_replicate, pairSum_replicate _ (lineDistance_self _) _⟩

theorem widestSpread_mem : widestSpread width count cap ∈ Spreads width count cap :=
  Nat.sSup_mem ⟨0, zero_mem_spreads⟩ spreads_bounded

theorem le_widestSpread {family : List (Fin width → ℤˣ)} (within : pairSum lineDistance family ≤ cap) :
    pairSum lineDistance family ≤ widestSpread width family.length cap :=
  le_csSup spreads_bounded ⟨within, family, rfl, rfl⟩

/-- No family is on average more than half the width apart. -/
theorem twice_pairSum_le (family : List (Fin width → ℤˣ)) :
    2 * pairSum lineDistance family ≤ family.length.choose 2 * width := by
  have bound := pairSum_le lineDistance (fun u v : Fin width → ℤˣ => lineDistance_le u v) family
  rw [Fintype.card_fin] at bound
  calc 2 * pairSum lineDistance family ≤ 2 * (family.length.choose 2 * (width / 2)) := Nat.mul_le_mul_left _ bound
    _ = family.length.choose 2 * (2 * (width / 2)) := Nat.mul_left_comm _ _ _
    _ ≤ family.length.choose 2 * width := Nat.mul_le_mul_left _ (Nat.mul_div_le _ _)

theorem widestSpread_le : widestSpread width count cap ≤ count.choose 2 * (width / 2) := by
  obtain ⟨-, family, rfl, total⟩ := @widestSpread_mem width count cap
  rw [← total]
  apply pairSum_le
  intro u v
  simpa using lineDistance_le u v

/-- Changing the first `changed` coordinates of the constant vector. -/
private theorem exists_disagreeing {changed : ℕ} (within : changed ≤ width) :
    ∃ v : Fin width → ℤˣ, #{i | (1 : Fin width → ℤˣ) i ≠ v i} = changed := by
  refine ⟨fun i => if i.val < changed then -1 else 1, ?_⟩
  have differs : ∀ i : Fin width, ((1 : Fin width → ℤˣ) i ≠ if i.val < changed then -1 else 1) ↔ i.val < changed := by
    intro i
    by_cases early : i.val < changed
    · simp only [early, if_true, iff_true]
      exact units_ne_neg_self 1
    · simp [early]
  simp only [differs]
  rw [Fin.card_filter_val_lt, min_eq_right within]

/-- Two lines: any distance up to half the width is reached by disagreeing in
that many coordinates. -/
theorem widestSpread_pair : widestSpread width 2 cap = min (width / 2) cap := by
  apply le_antisymm
  · exact le_min (by simpa using @widestSpread_le width 2 cap) widestSpread_mem.1
  · obtain ⟨v, disagreements⟩ := @exists_disagreeing width (min (width / 2) cap) (by omega)
    have distance : pairSum lineDistance [1, v] = min (width / 2) cap := by
      simp only [pairSum, List.map_cons, List.map_nil, List.sum_cons, List.sum_nil, lineDistance_eq_min, disagreements,
        Fintype.card_fin]
      omega
    rw [← distance]
    exact le_widestSpread (by omega)

/-- On average over its pairs no larger family does better than two lines. -/
theorem widestSpread_le_pair (several : 2 ≤ count) :
    widestSpread width count cap ≤ count.choose 2 * widestSpread width 2 cap := by
  rw [widestSpread_pair, ← Nat.mul_min_mul_left]
  exact le_min widestSpread_le (widestSpread_mem.1.trans (Nat.le_mul_of_pos_left _ (Nat.choose_pos several)))

section Walsh
variable {m r : ℕ}

/-- The sign two bits have together: minus for two set bits. -/
def bitSign (a b : Bool) : ℤˣ := if a && b then -1 else 1

/-- The Walsh vector of a row of bits, repeated `r` times. -/
def walsh (r : ℕ) (row : Fin m → Bool) : (Fin m → Bool) × Fin r → ℤˣ := fun column => ∏ i, bitSign (row i) (column.1 i)

/-- Different rows are orthogonal: the bit they differ in sums to zero. -/
theorem correlation_walsh {row other : Fin m → Bool} (different : row ≠ other) :
    correlation (walsh r row) (walsh r other) = 0 := by
  obtain ⟨i, differ⟩ := Function.ne_iff.mp different
  have factored : ∑ column : Fin m → Bool, ∏ i, ((bitSign (row i) (column i) : ℤ) * bitSign (other i) (column i)) = 0 := by
    have expanded := prod_univ_sum (fun _ : Fin m => (univ : Finset Bool))
      fun i b => (bitSign (row i) b : ℤ) * bitSign (other i) b
    rw [Fintype.piFinset_univ] at expanded
    rw [← expanded]
    apply prod_eq_zero (mem_univ i)
    cases left : row i <;> cases right : other i <;> simp_all [bitSign]
  simp only [correlation, walsh, Units.coe_prod, ← prod_mul_distrib, Fintype.sum_prod_type, sum_const,
    nsmul_eq_mul, ← mul_sum, factored, mul_zero]

/-- Up to `2 ^ m` lines can all be half the width apart in a width `2 ^ m` divides. -/
theorem widestSpread_walsh (divides : 2 ^ m ∣ width) (few : count ≤ 2 ^ m)
    (room : count.choose 2 * (width / 2) ≤ cap) : widestSpread width count cap = count.choose 2 * (width / 2) := by
  apply le_antisymm widestSpread_le
  obtain ⟨r, rfl⟩ := divides
  let place : Fin (2 ^ m * r) ≃ (Fin m → Bool) × Fin r := Fintype.equivOfCardEq (by simp)
  let rows : List (Fin m → Bool) := (univ : Finset (Fin m → Bool)).toList.take count
  let family : List (Fin (2 ^ m * r) → ℤˣ) := rows.map fun row => walsh r row ∘ place
  have size : family.length = count := by
    simp [family, rows, few]
  have orthogonal : ∀ row other : Fin m → Bool, row ≠ other →
      lineDistance (walsh r row ∘ place) (walsh r other ∘ place) = 2 ^ m * r / 2 := by
    intro row other different
    have reindexed : correlation (walsh r row ∘ place) (walsh r other ∘ place) = 0 := by
      rw [← correlation_walsh (r := r) different]
      exact Equiv.sum_comp place fun column => (walsh r row column : ℤ) * walsh r other column
    rw [lineDistance, reindexed, Fintype.card_fin, Int.natAbs_zero, Nat.sub_zero]
  have pairwise : family.Pairwise fun u v => lineDistance u v = 2 ^ m * r / 2 := by
    have distinct : rows.Nodup := (nodup_toList _).sublist (List.take_sublist _ _)
    exact List.pairwise_map.mpr (distinct.imp fun different => orthogonal _ _ different)
  have total := pairSum_of_pairwise lineDistance pairwise
  rw [size] at total
  rw [← total]
  have reached := @le_widestSpread _ cap family (by rwa [total])
  rwa [size] at reached

end Walsh

end QuipValidator.SignVectors
