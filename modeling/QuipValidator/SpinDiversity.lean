import QuipValidator.IsingDiversity
import QuipValidator.SignVectors
import Mathlib.Data.Fintype.Fin
import Mathlib.Tactic.Ring

/-! What `calculate_diversity` measures. Valid spin vectors are sign vectors,
the flip-symmetric Hamming distance is the distance of the lines they span, and
the diversity is the rounded mean of that distance. -/
namespace QuipValidator.IsingDiversity
open Fallible IsingValidation SignVectors

variable {width : Nat}

/-- A sign vector as the crate holds it. -/
def spinsOf (v : Fin width → ℤˣ) : List Int := List.ofFn fun i => (v i : Int)

@[simp] theorem spinsOf_length (v : Fin width → ℤˣ) : (spinsOf v).length = width := List.length_ofFn

theorem spinsOf_valid (v : Fin width → ℤˣ) : ∀ spin ∈ spinsOf v, IsSpin spin := by
  intro spin member
  obtain ⟨i, rfl⟩ := List.mem_ofFn.mp member
  rcases Int.units_eq_one_or (v i) with same | same
  · exact .inr (by rw [same]; rfl)
  · exact .inl (by rw [same]; rfl)

/-- Every valid spin vector is a sign vector. -/
theorem exists_spinsOf {spins : List Int} (length : spins.length = width) (valid : ∀ spin ∈ spins, IsSpin spin) :
    ∃ v : Fin width → ℤˣ, spinsOf v = spins := by
  subst length
  refine ⟨fun i => if spins[i] = 1 then 1 else -1, ?_⟩
  apply List.ext_getElem
  · simp
  · intro i _ inside
    rcases valid _ (List.getElem_mem inside) with spin | spin <;> simp [spinsOf, spin]

theorem Spins.exists_family {spins : List Int} (valid : Spins width spins) : ∃ v : Fin width → ℤˣ, spinsOf v = spins :=
  exists_spinsOf valid.1 valid.2

theorem exists_family {solutions : List (List Int)} (valid : validateSolutionSet solutions width) :
    ∃ family : List (Fin width → ℤˣ), family.map spinsOf = solutions := by
  rw [validateSolutionSet_spins] at valid
  induction solutions with
  | nil => exact ⟨[], rfl⟩
  | cons spins rest ih =>
    obtain ⟨v, rfl⟩ := (valid spins List.mem_cons_self).exists_family
    obtain ⟨family, rfl⟩ := ih fun other member => valid other (List.mem_cons_of_mem _ member)
    exact ⟨v :: family, rfl⟩

theorem validateSolutionSet_family (family : List (Fin width → ℤˣ)) :
    validateSolutionSet (family.map spinsOf) width := by
  rw [validateSolutionSet_spins]
  intro spins member
  obtain ⟨v, -, rfl⟩ := List.mem_map.mp member
  exact ⟨spinsOf_length v, spinsOf_valid v⟩

private theorem count_zip {n : Nat} (f g : Fin n → Int) (p : Int × Int → Bool) :
    (((List.ofFn f).zip (List.ofFn g)).filter p).length = Finset.card {i | p (f i, g i)} := by
  induction n with
  | zero => simp
  | succ n ih =>
    rw [List.ofFn_succ, List.ofFn_succ, List.zip_cons_cons, Fin.card_filter_univ_succ, ← ih, List.filter_cons]
    split <;> simp_all [Nat.add_comm]

/-- The smaller of the two counts is the distance of the two lines. -/
theorem symmetricHammingValidated_spinsOf (u v : Fin width → ℤˣ) :
    symmetricHammingValidated (spinsOf u) (spinsOf v) = lineDistance u v := by
  have direct : ∀ i, decide ((u i : Int) ≠ v i) = decide (u i ≠ v i) := fun i => by simp [Units.val_inj]
  have inverted : ∀ i, decide ((u i : Int) ≠ -v i) = decide (¬ u i ≠ v i) := by
    intro i
    rcases Int.units_eq_one_or (u i) with left | left <;> rcases Int.units_eq_one_or (v i) with right | right
    all_goals rw [left, right]; rfl
  have parts := Finset.card_filter_add_card_filter_not (s := Finset.univ) (fun i => u i ≠ v i)
  rw [Finset.card_univ, Fintype.card_fin] at parts
  rw [symmetricHammingValidated, spinsOf, spinsOf, count_zip, count_zip, lineDistance_eq_min, Fintype.card_fin]
  simp only [direct, inverted, decide_eq_true_eq]
  omega

theorem symmetricHammingValidated_comm (a b : List Int) :
    symmetricHammingValidated a b = symmetricHammingValidated b a := by
  have turned : ∀ p : Int × Int → Bool,
      ((b.zip a).filter p).length = ((a.zip b).filter fun pair => p pair.swap).length := by
    intro p
    rw [← List.zip_swap, List.filter_map, List.length_map]
    rfl
  have same : ∀ pair : Int × Int, decide (pair.2 ≠ pair.1) = decide (pair.1 ≠ pair.2) := fun pair => by
    simp only [ne_eq, eq_comm]
  have opposite : ∀ pair : Int × Int, decide (pair.2 ≠ -pair.1) = decide (pair.1 ≠ -pair.2) := fun pair => by
    simp only [ne_eq, decide_eq_decide]
    omega
  simp only [symmetricHammingValidated, turned, Prod.fst_swap, Prod.snd_swap, same, opposite]

theorem pairDistances_sum (solutions : List (List Int)) :
    (pairDistances solutions).sum = pairSum symmetricHammingValidated solutions := by
  induction solutions with
  | nil => rfl
  | cons first rest ih => rw [pairDistances, List.sum_append, ih, pairSum]

theorem pairDistances_length (solutions : List (List Int)) :
    (pairDistances solutions).length = solutions.length.choose 2 := by
  induction solutions with
  | nil => rfl
  | cons first rest ih =>
    rw [pairDistances, List.length_append, List.length_map, ih, List.length_cons, Nat.choose_succ_succ' rest.length 1,
      Nat.choose_one_right]

theorem pairDistances_family (family : List (Fin width → ℤˣ)) :
    (pairDistances (family.map spinsOf)).sum = pairSum lineDistance family ∧
      (pairDistances (family.map spinsOf)).length = family.length.choose 2 := by
  rw [pairDistances_sum, pairSum_map, pairDistances_length, List.length_map]
  simp only [symmetricHammingValidated_spinsOf, and_self]

@[simp] theorem checkedMul_success {a b product : Nat} :
    checkedMul a b = .ok product ↔ a * b ≤ u64Max ∧ a * b = product := by
  unfold checkedMul
  split <;> simp_all [fail]

theorem ensureValidSolutionInputs_family {family : List (Fin width → ℤˣ)} (occupied : family ≠ []) :
    ensureValidSolutionInputs (family.map spinsOf) = .ok width := by
  obtain ⟨first, rest, rfl⟩ := List.exists_cons_of_ne_nil occupied
  have valid := validateSolutionSet_family (first :: rest)
  rw [List.map_cons] at valid ⊢
  simp only [ensureValidSolutionInputs, List.head?_cons, expect, ok_bind, spinsOf_length, valid, if_true]
  rfl

/-- The milli mean `total` over `slots`, halves up. -/
def milliMean (total slots : Nat) : Nat := (total * MILLI_SCALE + slots / 2) / slots

/-- Distances of at most half the width keep the mean at `500`, far inside `u32`. -/
theorem milliMean_le {total slots : Nat} (occupied : 0 < slots) (half : 2 * total ≤ slots) :
    milliMean total slots ≤ 500 := by
  apply Nat.le_of_lt_succ
  apply Nat.div_lt_of_lt_mul
  simp only [MILLI_SCALE]
  omega

/-- `calculate_diversity` on two vectors or more: it needs a node to divide by
and both products inside `u64`, and returns the mean distance of the lines. -/
theorem calculateDiversity_family {family : List (Fin width → ℤˣ)} (several : 2 ≤ family.length) (diversity : Nat) :
    calculateDiversity (family.map spinsOf) = .ok diversity ↔
      0 < width ∧ family.length.choose 2 * width ≤ u64Max ∧ pairSum lineDistance family * MILLI_SCALE ≤ u64Max ∧
        milliMean (pairSum lineDistance family) (family.length.choose 2 * width) = diversity := by
  have occupied : family ≠ [] := List.ne_nil_of_length_pos (by omega)
  have pairs : 0 < family.length.choose 2 := Nat.choose_pos several
  obtain ⟨total, count⟩ := pairDistances_family family
  have few : ¬ (family.map spinsOf).length < 2 := by rw [List.length_map]; omega
  rw [calculateDiversity, if_neg few, ensureValidSolutionInputs_family occupied, ok_bind]
  simp only [total, count, bind_success, checkedMul_success]
  have kept : 0 < width → asU32 (milliMean (pairSum lineDistance family) (family.length.choose 2 * width)) =
      milliMean (pairSum lineDistance family) (family.length.choose 2 * width) := by
    intro wide
    have small := milliMean_le (Nat.mul_pos pairs wide) (twice_pairSum_le family)
    exact asU32_of_lt (by omega)
  constructor
  · rintro ⟨_, ⟨narrow, rfl⟩, _, ⟨slots, rfl⟩, mean, divided, returned⟩
    unfold roundDiv at divided
    split at divided
    · cases divided
    · rename_i nonzero
      have wide : 0 < width := Nat.pos_of_ne_zero (right_ne_zero_of_mul nonzero)
      cases divided
      cases returned
      exact ⟨wide, slots, narrow, (kept wide).symm⟩
  · rintro ⟨wide, slots, narrow, rfl⟩
    refine ⟨_, ⟨narrow, rfl⟩, _, ⟨slots, rfl⟩, _, if_neg (Nat.mul_pos pairs wide).ne', ?_⟩
    exact congrArg Except.ok (kept wide)

/-- The order of the vectors does not matter. -/
theorem calculateDiversity_perm {family others : List (Fin width → ℤˣ)} {diversity : Nat} (same : family.Perm others)
    (measured : calculateDiversity (family.map spinsOf) = .ok diversity) :
    calculateDiversity (others.map spinsOf) = .ok diversity := by
  have length := same.length_eq
  by_cases several : 2 ≤ family.length
  · have total := pairSum_perm lineDistance lineDistance_comm same
    rw [calculateDiversity_family several, length, total] at measured
    rwa [calculateDiversity_family (by omega)]
  · rw [calculateDiversity, if_pos (by rw [List.length_map]; omega)] at measured ⊢
    exact measured

/-- The diversity floors `count` vectors of `width` spins can meet, in numbers:
there is a node to divide by, the number of compared spins fits `u64`, and the
floor is not above the rounded mean of the widest spread whose scaled total fits. -/
def DiversityReachable (width count floor : Nat) : Prop :=
  0 < width ∧ count.choose 2 * width ≤ u64Max ∧
    floor ≤ milliMean (widestSpread width count (u64Max / MILLI_SCALE)) (count.choose 2 * width)

theorem milliMean_mono {total wider slots : Nat} (more : total ≤ wider) :
    milliMean total slots ≤ milliMean wider slots := by
  apply Nat.div_le_div_right
  exact Nat.add_le_add_right (Nat.mul_le_mul_right _ more) _

private theorem scaled_fits {total : Nat} : total * MILLI_SCALE ≤ u64Max ↔ total ≤ u64Max / MILLI_SCALE :=
  (Nat.le_div_iff_mul_le (by decide)).symm

theorem diversityReachable_iff {count floor : Nat} (several : 2 ≤ count) :
    DiversityReachable width count floor ↔
      ∃ family : List (Fin width → ℤˣ), family.length = count ∧
        ∃ diversity, calculateDiversity (family.map spinsOf) = .ok diversity ∧ floor ≤ diversity := by
  constructor
  · rintro ⟨wide, slots, reached⟩
    obtain ⟨within, family, rfl, total⟩ := @widestSpread_mem width count (u64Max / MILLI_SCALE)
    rw [← total] at within reached
    exact ⟨family, rfl, _, (calculateDiversity_family several _).mpr ⟨wide, slots, scaled_fits.mpr within, rfl⟩, reached⟩
  · rintro ⟨family, rfl, diversity, measured, reached⟩
    obtain ⟨wide, slots, narrow, rfl⟩ := (calculateDiversity_family several diversity).mp measured
    refine ⟨wide, slots, reached.trans (milliMean_mono ?_)⟩
    exact le_widestSpread (scaled_fits.mp narrow)

/-- Two vectors reach any floor that more of them reach. -/
theorem DiversityReachable.pair {count floor : Nat} (several : 2 ≤ count)
    (reachable : DiversityReachable width count floor) : DiversityReachable width 2 floor := by
  obtain ⟨wide, slots, reached⟩ := reachable
  have pairs : 0 < count.choose 2 := Nat.choose_pos several
  rw [DiversityReachable, Nat.choose_self, Nat.one_mul]
  refine ⟨wide, (Nat.le_mul_of_pos_left width pairs).trans slots, ?_⟩
  rw [milliMean, Nat.le_div_iff_mul_le (Nat.mul_pos pairs wide)] at reached
  rw [milliMean, Nat.le_div_iff_mul_le wide]
  have spread := @widestSpread_le_pair width count (u64Max / MILLI_SCALE) several
  generalize widestSpread width count (u64Max / MILLI_SCALE) = many at reached spread
  generalize widestSpread width 2 (u64Max / MILLI_SCALE) = two at spread ⊢
  -- Twice the inequality, so that the halves are whole and the pair count cancels.
  have doubled : count.choose 2 * (2 * (floor * width)) ≤ count.choose 2 * (2 * (two * MILLI_SCALE) + width) :=
    calc count.choose 2 * (2 * (floor * width)) = 2 * (floor * (count.choose 2 * width)) := by ring
      _ ≤ 2 * (many * MILLI_SCALE) + count.choose 2 * width := by omega
      _ ≤ 2 * (count.choose 2 * two * MILLI_SCALE) + count.choose 2 * width :=
        Nat.add_le_add_right (Nat.mul_le_mul_left _ (Nat.mul_le_mul_right _ spread)) _
      _ = count.choose 2 * (2 * (two * MILLI_SCALE) + width) := by ring
  have single := Nat.le_of_mul_le_mul_left doubled pairs
  omega

/-- On a width a power of two divides, that many vectors reach one half, and nothing reaches more. -/
theorem diversityReachable_walsh {m count floor : Nat} (several : 2 ≤ count) (wide : 0 < width)
    (divides : 2 ^ m ∣ width) (few : count ≤ 2 ^ m) (fits : count.choose 2 * width * 500 ≤ u64Max) :
    DiversityReachable width count floor ↔ floor ≤ 500 := by
  have even : 2 ∣ width := by
    refine (dvd_pow_self 2 fun zero => ?_).trans divides
    rw [zero] at few
    omega
  obtain ⟨half, rfl⟩ := even
  have slots : 0 < count.choose 2 * half := Nat.mul_pos (Nat.choose_pos several) (by omega)
  have halved : 2 * half / 2 = half := by omega
  have doubled : count.choose 2 * (2 * half) = 2 * (count.choose 2 * half) := Nat.mul_left_comm _ _ _
  rw [doubled] at fits
  have room : count.choose 2 * (2 * half / 2) ≤ u64Max / MILLI_SCALE := by
    rw [halved, ← scaled_fits]
    have regrouped : count.choose 2 * half * MILLI_SCALE = 2 * (count.choose 2 * half) * 500 := by
      rw [MILLI_SCALE]
      ring
    rwa [regrouped]
  rw [DiversityReachable, widestSpread_walsh divides few room, halved, doubled]
  have mean : milliMean (count.choose 2 * half) (2 * (count.choose 2 * half)) = 500 := by
    apply Nat.le_antisymm (milliMean_le (by omega) (Nat.le_refl _))
    rw [milliMean, Nat.le_div_iff_mul_le (by omega), MILLI_SCALE]
    omega
  rw [mean]
  constructor
  · exact fun reachable => reachable.2.2
  · exact fun reached => ⟨wide, by omega, reached⟩

end QuipValidator.IsingDiversity
